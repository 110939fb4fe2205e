import Hohnor.StringConverter

/-!
# The log stream

`FixedBuffer` of include/hohnor/log/LogStream.h and the insertions of
`LogStream`, in that header and in src/log/LogStream.cpp.  A copy to outside of
the array, or from more chars than there are, is the result none.

An insertion that does not fit is dropped.  A string fits if the buffer is not
full after it, a number if there is room for the longest one.  `insert_eq` says
that this is all an insertion does.
-/

namespace Hohnor

open ListSegments StringConverter

/-- `implicit_cast<size_t>` of an int. -/
def sizeCast (n : Int) : Nat :=
  (n % 2 ^ 64).toNat

/-- An array of `SIZE` chars with the position behind the last one appended.
What the array holds before it is written is never read. -/
structure FixedBuffer (SIZE : Nat) where
  data_ : List Char
  cur_ : Nat
deriving DecidableEq, Repr

namespace FixedBuffer

variable {SIZE : Nat}

def create (SIZE : Nat) : FixedBuffer SIZE where
  data_ := List.replicate SIZE nul
  cur_ := 0

def avail (b : FixedBuffer SIZE) : Int :=
  SIZE - b.cur_

def add (b : FixedBuffer SIZE) (len : Nat) : FixedBuffer SIZE :=
  { b with cur_ := b.cur_ + len }

/-- `memcpy` of the first `len` chars of `buf` to the position `p`. -/
def memcpy
    (b : FixedBuffer SIZE) (p : Nat) (buf : List Char) (len : Nat) :
    Option (FixedBuffer SIZE) :=
  if len ≤ buf.length ∧ p + len ≤ b.data_.length then
    some { b with data_ := splice b.data_ p (buf.take len) }
  else none

/-- Whether it was appended, and the buffer then. -/
def append (b : FixedBuffer SIZE) (buf : List Char) (len : Nat) :
    Option (Bool × FixedBuffer SIZE) :=
  if sizeCast b.avail > len then
    (b.memcpy b.cur_ buf len).map fun b => (true, b.add len)
  else some (false, b)

def toString (b : FixedBuffer SIZE) : List Char :=
  b.data_.take b.cur_

/-- The array has its size, and is not full. -/
structure Valid (b : FixedBuffer SIZE) : Prop where
  size : b.data_.length = SIZE
  room : b.cur_ < SIZE

theorem create_valid
    (hsize : 0 < SIZE) :
    (create SIZE).Valid where
  size := List.length_replicate
  room := hsize

theorem Valid.length
    {b : FixedBuffer SIZE} (hb : b.Valid) :
    b.toString.length = b.cur_ := by
  have hroom := hb.room
  rw [toString, List.length_take, hb.size]
  omega

theorem Valid.sizeCast_avail
    {b : FixedBuffer SIZE} (hb : b.Valid) (hsize : SIZE < 2 ^ 64) :
    sizeCast b.avail = SIZE - b.cur_ := by
  have hroom := hb.room
  rw [sizeCast, avail]
  omega

/-- What `cs` written at the end, with whatever behind it, leaves. -/
theorem Valid.written
    {b : FixedBuffer SIZE} (hb : b.Valid) (cs rest : List Char)
    (hroom : b.cur_ + (cs ++ rest).length ≤ SIZE)
    (hcur : b.cur_ + cs.length < SIZE) :
    Valid ({ data_ := splice b.data_ b.cur_ (cs ++ rest)
             cur_ := b.cur_ + cs.length } : FixedBuffer SIZE) ∧
      toString ({ data_ := splice b.data_ b.cur_ (cs ++ rest)
                  cur_ := b.cur_ + cs.length } : FixedBuffer SIZE) =
        b.toString ++ cs := by
  have hlength : b.cur_ + (cs ++ rest).length ≤ b.data_.length := by
    rw [hb.size]
    exact hroom
  refine ⟨⟨?_, hcur⟩, ?_⟩
  · rw [length_splice hlength, hb.size]
  · exact take_splice hlength

theorem append_eq
    {b : FixedBuffer SIZE} (hb : b.Valid) (hsize : SIZE < 2 ^ 64)
    {buf : List Char} {len : Nat}
    (hread : b.cur_ + len < SIZE → len ≤ buf.length) :
    ∃ appended b', b.append buf len = some (appended, b') ∧ b'.Valid ∧
      b'.toString =
        if b.cur_ + len < SIZE then b.toString ++ buf.take len
        else b.toString := by
  have hroom := hb.room
  by_cases hfits : b.cur_ + len < SIZE
  · have hlen := hread hfits
    have htake : (buf.take len).length = len := List.length_take_of_le hlen
    obtain ⟨hvalid, htext⟩ := hb.written (buf.take len) []
      (by rw [List.append_nil, htake]; omega) (by rw [htake]; exact hfits)
    rw [List.append_nil, htake] at hvalid htext
    refine ⟨true, _, ?_, hvalid, ?_⟩
    · rw [append, hb.sizeCast_avail hsize, if_pos (by omega), memcpy,
        if_pos ⟨hlen, by rw [hb.size]; omega⟩, Option.map_some]
      rfl
    · rw [htext, if_pos hfits]
  · refine ⟨false, b, ?_, hb, ?_⟩
    · rw [append, hb.sizeCast_avail hsize, if_neg (by omega)]
    · rw [if_neg hfits]

end FixedBuffer

/-- The text that "%.12g" makes of a double, which is not long. -/
structure DoubleText where
  text : List Char
  short : text.length < 48
deriving DecidableEq, Repr

/-- A `StringPiece`: the chars that can be read from `ptr_` on, and the
length. -/
structure CharPiece where
  ptr_ : List Char
  length_ : Int32
  readable : length_.toInt ≤ ptr_.length
deriving DecidableEq

/-- A length that does not fit into an int only gets smaller. -/
theorem bmod_le_self
    (n m : Nat) :
    Int.bmod n m ≤ n := by
  have hmod : (n : Int) % m ≤ n := by
    exact_mod_cast Nat.mod_le n m
  rw [Int.bmod]
  split
  · exact hmod
  · omega

namespace CharPiece

def empty : CharPiece where
  ptr_ := []
  length_ := 0
  readable := by decide

/-- `set` with the length that strlen gives, as an int. -/
def set (cs : List Char) : CharPiece where
  ptr_ := cs
  length_ := Int32.ofNat cs.length
  readable := by
    rw [Int32.toInt_ofNat']
    exact bmod_le_self _ _

/-- The chars of the piece, none where the length is negative. -/
def text (v : CharPiece) : List Char :=
  v.ptr_.take v.length_.toInt.toNat

end CharPiece

/-- The arguments of `operator<<` by type, where a C string is what stands
before its terminator, or null, and the one of `LogStream::append`. -/
inductive Inserted where
  | bool (v : Bool)
  | float (v : DoubleText)
  | double (v : DoubleText)
  | char (v : Char)
  | cstr (str : Option (List Char))
  | unsignedCstr (str : Option (List Char))
  | string (v : List Char)
  | piece (v : CharPiece)
  | short (v : Int16)
  | unsignedShort (v : UInt16)
  | int (v : Int32)
  | unsignedInt (v : UInt32)
  | long (v : Int64)
  | unsignedLong (v : UInt64)
  | longLong (v : Int64)
  | unsignedLongLong (v : UInt64)
  | pointer (p : UInt64)
  | append (v : CharPiece)

def kSmallBuffer : Nat :=
  4000

def kMaxNumericSize : Nat :=
  48

structure LogStream where
  buffer_ : FixedBuffer kSmallBuffer
deriving DecidableEq, Repr

namespace LogStream

def create : LogStream where
  buffer_ := FixedBuffer.create kSmallBuffer

def append (s : LogStream) (buf : List Char) (len : Nat) :
    Option LogStream :=
  (s.buffer_.append buf len).map fun r => { buffer_ := r.2 }

/-- A number is written at the end where there is room for any number: the array
after it, and how far the end moves. -/
def ifRoom
    (s : LogStream)
    (write : List Char → Nat → Option (List Char × Nat)) :
    Option LogStream :=
  if s.buffer_.avail ≥ kMaxNumericSize then
    (write s.buffer_.data_ s.buffer_.cur_).map fun r =>
      { buffer_ := { s.buffer_ with data_ := r.1 }.add r.2 }
  else some s

def formatInteger (s : LogStream) (v : Int) : Option LogStream :=
  s.ifRoom fun mem buf => convert mem buf v

/-- snprintf stores no more than 48 chars with the terminator, and returns the
whole length. -/
def snprintf (mem : List Char) (buf : Nat) (text : List Char) :
    Option (List Char × Nat) :=
  if buf + (text.take 47).length < mem.length then
    some (splice mem buf (text.take 47 ++ [nul]), text.length)
  else none

def insertPointer (mem : List Char) (buf : Nat) (v : Nat) :
    Option (List Char × Nat) :=
  (store mem buf '0').bind fun mem =>
    (store mem (buf + 1) 'x').bind fun mem =>
      (convertHex mem (buf + 2) v).map fun r => (r.1, r.2 + 2)

def insertCstr (s : LogStream) (str : Option (List Char)) :
    Option LogStream :=
  match str with
  | some cs => s.append cs cs.length
  | none => s.append ['(', 'n', 'u', 'l', 'l', ')'] 6

/-- `operator<<`. -/
def insert (s : LogStream) : Inserted → Option LogStream
  | .bool v =>
      if v then s.append ['t', 'r', 'u', 'e'] 4
      else s.append ['f', 'a', 'l', 's', 'e'] 5
  | .float v => s.ifRoom fun mem buf => snprintf mem buf v.text
  | .double v => s.ifRoom fun mem buf => snprintf mem buf v.text
  | .char v => s.append [v] 1
  | .cstr str => s.insertCstr str
  | .unsignedCstr str => s.insertCstr str
  | .string v => s.append v v.length
  | .piece v => s.append v.ptr_ (sizeCast v.length_.toInt)
  | .short v => s.formatInteger v.toInt32.toInt
  | .unsignedShort v => s.formatInteger v.toUInt32.toNat
  | .int v => s.formatInteger v.toInt
  | .unsignedInt v => s.formatInteger v.toNat
  | .long v => s.formatInteger v.toInt
  | .unsignedLong v => s.formatInteger v.toNat
  | .longLong v => s.formatInteger v.toInt
  | .unsignedLongLong v => s.formatInteger v.toNat
  | .pointer p =>
      s.ifRoom fun mem buf => insertPointer mem buf p.toNat
  | .append v => s.append v.ptr_ (sizeCast v.length_.toInt)

def insertAll (s : LogStream) : List Inserted → Option LogStream
  | [] => some s
  | v :: vs => (s.insert v).bind fun s => s.insertAll vs

def text (s : LogStream) : List Char :=
  s.buffer_.toString

end LogStream

namespace Inserted

/-- The whole text of a value. -/
def text : Inserted → List Char
  | .bool v =>
      if v then ['t', 'r', 'u', 'e'] else ['f', 'a', 'l', 's', 'e']
  | .float v | .double v => v.text
  | .char v => [v]
  | .cstr str | .unsignedCstr str =>
      str.getD ['(', 'n', 'u', 'l', 'l', ')']
  | .string v => v
  | .piece v | .append v => v.text
  | .short v => decimalText v.toInt
  | .unsignedShort v => decimalText v.toNat
  | .int v => decimalText v.toInt
  | .unsignedInt v => decimalText v.toNat
  | .long v | .longLong v => decimalText v.toInt
  | .unsignedLong v | .unsignedLongLong v => decimalText v.toNat
  | .pointer p => '0' :: 'x' :: hexText p.toNat

/-- How much room the value asks for: a string one char more than it has. -/
def needs : Inserted → Nat
  | .bool v => if v then 5 else 6
  | .char _ => 2
  | .cstr str | .unsignedCstr str => (str.map List.length).getD 6 + 1
  | .string v => v.length + 1
  | .piece v | .append v => sizeCast v.length_.toInt + 1
  | _ => kMaxNumericSize

/-- The value is inserted into a stream of `n` chars. -/
def fits (v : Inserted) (n : Nat) : Bool :=
  n + v.needs ≤ kSmallBuffer

theorem fits_iff
    (v : Inserted) (n : Nat) :
    v.fits n = true ↔ n + v.needs ≤ kSmallBuffer :=
  decide_eq_true_iff

end Inserted

namespace LogStream

theorem create_valid :
    create.buffer_.Valid :=
  FixedBuffer.create_valid (by decide)

/-- The result of an insertion. -/
def Inserts (s : LogStream) (result : Option LogStream)
    (fits : Prop) [Decidable fits] (cs : List Char) : Prop :=
  ∃ s', result = some s' ∧ s'.buffer_.Valid ∧
    s'.text = if fits then s.text ++ cs else s.text

theorem append_inserts
    {s : LogStream} (hs : s.buffer_.Valid) {buf : List Char} {len : Nat}
    (hread : s.text.length + len < kSmallBuffer → len ≤ buf.length) :
    s.Inserts (s.append buf len)
      (s.text.length + (len + 1) ≤ kSmallBuffer) (buf.take len) := by
  have hlength : s.text.length = s.buffer_.cur_ := hs.length
  rw [hlength] at hread ⊢
  obtain ⟨appended, b, happend, hb, htext⟩ :=
    FixedBuffer.append_eq hs (by decide) hread
  refine ⟨{ buffer_ := b }, ?_, hb, htext⟩
  rw [append, happend, Option.map_some]

/-- The whole of a string is appended, if it is. -/
theorem append_all_inserts
    {s : LogStream} (hs : s.buffer_.Valid) (buf : List Char) :
    s.Inserts (s.append buf buf.length)
      (s.text.length + (buf.length + 1) ≤ kSmallBuffer) buf := by
  have happend := @append_inserts s hs buf buf.length
    (fun _ => Nat.le_refl _)
  rwa [List.take_length] at happend

/-- A number whose text has less than 48 chars. -/
theorem ifRoom_inserts
    {s : LogStream} (hs : s.buffer_.Valid)
    {write : List Char → Nat → Option (List Char × Nat)}
    {cs : List Char} (hshort : cs.length < kMaxNumericSize)
    (hwrite :
      ∀ mem buf, buf + kMaxNumericSize ≤ mem.length →
        write mem buf = some (splice mem buf (cs ++ [nul]), cs.length)) :
    s.Inserts (s.ifRoom write)
      (s.text.length + kMaxNumericSize ≤ kSmallBuffer) cs := by
  have hlength : s.text.length = s.buffer_.cur_ := hs.length
  have hcur := hs.room
  rw [hlength]
  by_cases hroom : s.buffer_.cur_ + kMaxNumericSize ≤ kSmallBuffer
  · obtain ⟨hvalid, htext⟩ := hs.written cs [nul]
      (by rw [List.length_append, List.length_singleton]; omega) (by omega)
    refine ⟨_, ?_, hvalid, ?_⟩
    · rw [ifRoom, if_pos (by unfold FixedBuffer.avail; omega),
        hwrite _ _ (by rw [hs.size]; exact hroom), Option.map_some]
      rfl
    · rw [if_pos hroom]
      exact htext
  · refine ⟨s, ?_, hs, ?_⟩
    · rw [ifRoom, if_neg (by unfold FixedBuffer.avail; omega)]
    · rw [if_neg hroom]

theorem formatInteger_inserts
    {s : LogStream} (hs : s.buffer_.Valid) {v : Int}
    (hv : v.natAbs < 2 ^ 64) :
    s.Inserts (s.formatInteger v)
      (s.text.length + kMaxNumericSize ≤ kSmallBuffer)
      (decimalText v) := by
  have hlength := length_decimalText_le hv
  refine ifRoom_inserts hs ?_ ?_
  · rw [kMaxNumericSize]
    omega
  · intro mem buf hroom
    unfold kMaxNumericSize at hroom
    exact convert_eq v (by omega)

theorem double_inserts
    {s : LogStream} (hs : s.buffer_.Valid) (v : DoubleText) :
    s.Inserts (s.ifRoom fun mem buf => snprintf mem buf v.text)
      (s.text.length + kMaxNumericSize ≤ kSmallBuffer) v.text := by
  have hshort := v.short
  refine ifRoom_inserts hs hshort ?_
  intro mem buf hroom
  have htake : v.text.take 47 = v.text :=
    List.take_of_length_le (by omega)
  unfold kMaxNumericSize at hroom
  rw [snprintf, htake, if_pos (by omega)]

theorem insertPointer_eq
    {mem : List Char} {buf : Nat} (v : Nat)
    (hroom : buf + (2 + (hexText v).length) < mem.length) :
    insertPointer mem buf v =
      some
        (splice mem buf ('0' :: 'x' :: hexText v ++ [nul]),
          (hexText v).length + 2) := by
  rw [insertPointer, store_eq (by omega), Option.bind_some,
    store_eq (by rw [List.length_set]; omega), Option.bind_some,
    convertHex_eq v (by rw [List.length_set, List.length_set]; omega),
    Option.map_some, splice_set _ _ (by rw [List.length_set]; omega),
    splice_set _ _ (by omega)]
  rfl

theorem pointer_inserts
    {s : LogStream} (hs : s.buffer_.Valid) (p : UInt64) :
    s.Inserts (s.ifRoom fun mem buf => insertPointer mem buf p.toNat)
      (s.text.length + kMaxNumericSize ≤ kSmallBuffer)
      ('0' :: 'x' :: hexText p.toNat) := by
  have hlength := length_hexText_le p.toNat_lt
  refine ifRoom_inserts hs ?_ ?_
  · simp only [List.length_cons, kMaxNumericSize]
    omega
  · intro mem buf hroom
    unfold kMaxNumericSize at hroom
    exact insertPointer_eq p.toNat (by omega)

theorem insertCstr_inserts
    {s : LogStream} (hs : s.buffer_.Valid) (str : Option (List Char)) :
    s.Inserts (s.insertCstr str)
      (s.text.length + ((str.map List.length).getD 6 + 1) ≤ kSmallBuffer)
      (str.getD ['(', 'n', 'u', 'l', 'l', ')']) := by
  cases str with
  | none =>
      exact append_all_inserts hs ['(', 'n', 'u', 'l', 'l', ')']
  | some cs =>
      exact append_all_inserts hs cs

/-- A negative length is too long for any buffer. -/
theorem piece_inserts
    {s : LogStream} (hs : s.buffer_.Valid) (v : CharPiece) :
    s.Inserts (s.append v.ptr_ (sizeCast v.length_.toInt))
      (s.text.length + (sizeCast v.length_.toInt + 1) ≤ kSmallBuffer)
      v.text := by
  have hhigh := v.length_.toInt_lt
  have hlow := v.length_.le_toInt
  have hreadable := v.readable
  by_cases hneg : v.length_.toInt < 0
  · have hlarge : kSmallBuffer < sizeCast v.length_.toInt := by
      rw [kSmallBuffer, sizeCast]
      omega
    obtain ⟨s', happend, hs', htext⟩ :=
      @append_inserts s hs v.ptr_ (sizeCast v.length_.toInt)
        (fun h => by omega)
    refine ⟨s', happend, hs', ?_⟩
    rw [htext, if_neg (by omega), if_neg (by omega)]
  · have hsize : sizeCast v.length_.toInt = v.length_.toInt.toNat := by
      rw [sizeCast]
      omega
    have happend :=
      @append_inserts s hs v.ptr_ v.length_.toInt.toNat
        (fun _ => by omega)
    rw [hsize]
    exact happend

/-- An insertion appends the whole text of the value where that fits, and
nothing otherwise. -/
theorem insert_inserts
    {s : LogStream} (hs : s.buffer_.Valid) (v : Inserted) :
    s.Inserts (s.insert v)
      (s.text.length + v.needs ≤ kSmallBuffer) v.text := by
  cases v with
  | bool v =>
      cases v with
      | true =>
          exact append_all_inserts hs ['t', 'r', 'u', 'e']
      | false =>
          exact append_all_inserts hs ['f', 'a', 'l', 's', 'e']
  | float v =>
      exact double_inserts hs v
  | double v =>
      exact double_inserts hs v
  | char v =>
      exact append_all_inserts hs [v]
  | cstr str =>
      exact insertCstr_inserts hs str
  | unsignedCstr str =>
      exact insertCstr_inserts hs str
  | string v =>
      exact append_all_inserts hs v
  | piece v =>
      exact piece_inserts hs v
  | short v =>
      have hhigh := v.toInt_lt
      have hlow := v.le_toInt
      have hint := formatInteger_inserts hs (v := v.toInt32.toInt) (by
        rw [Int16.toInt_toInt32]
        omega)
      rw [Int16.toInt_toInt32] at hint
      rw [insert, Int16.toInt_toInt32]
      exact hint
  | unsignedShort v =>
      have hlt := v.toNat_lt
      have hint := formatInteger_inserts hs
        (v := (v.toUInt32.toNat : Int)) (by
          rw [UInt16.toNat_toUInt32, Int.natAbs_natCast]
          omega)
      rw [UInt16.toNat_toUInt32] at hint
      rw [insert, UInt16.toNat_toUInt32]
      exact hint
  | int v =>
      have hhigh := v.toInt_lt
      have hlow := v.le_toInt
      exact formatInteger_inserts hs (by omega)
  | unsignedInt v =>
      have hlt := v.toNat_lt
      exact formatInteger_inserts hs (by
        rw [Int.natAbs_natCast]
        omega)
  | long v =>
      have hhigh := v.toInt_lt
      have hlow := v.le_toInt
      exact formatInteger_inserts hs (by omega)
  | unsignedLong v =>
      exact formatInteger_inserts hs (by
        rw [Int.natAbs_natCast]
        exact v.toNat_lt)
  | longLong v =>
      have hhigh := v.toInt_lt
      have hlow := v.le_toInt
      exact formatInteger_inserts hs (by omega)
  | unsignedLongLong v =>
      exact formatInteger_inserts hs (by
        rw [Int.natAbs_natCast]
        exact v.toNat_lt)
  | pointer p =>
      exact pointer_inserts hs p
  | append v =>
      exact piece_inserts hs v

theorem insert_eq
    {s : LogStream} (hs : s.buffer_.Valid) (v : Inserted) :
    ∃ s', s.insert v = some s' ∧ s'.buffer_.Valid ∧
      s'.text =
        if v.fits s.text.length then s.text ++ v.text else s.text := by
  obtain ⟨s', hinsert, hs', htext⟩ := insert_inserts hs v
  refine ⟨s', hinsert, hs', ?_⟩
  rw [htext]
  simp only [Inserted.fits_iff]

end LogStream

/-- The text with the values that fit, one after the other. -/
def inserted (text : List Char) : List Inserted → List Char
  | [] => text
  | v :: vs =>
      inserted (if v.fits text.length then text ++ v.text else text) vs

/-- The stream is what its text says, whatever is inserted. -/
theorem LogStream.insertAll_eq
    {s : LogStream} (hs : s.buffer_.Valid) (vs : List Inserted) :
    ∃ s', s.insertAll vs = some s' ∧ s'.buffer_.Valid ∧
      s'.text = inserted s.text vs := by
  induction vs generalizing s with
  | nil =>
      exact ⟨s, rfl, hs, rfl⟩
  | cons v vs ih =>
      obtain ⟨s₁, hinsert, hs₁, htext⟩ := insert_eq hs v
      obtain ⟨s', hrest, hs', htext'⟩ := ih hs₁
      refine ⟨s', ?_, hs', ?_⟩
      · rw [insertAll, hinsert, Option.bind_some, hrest]
      · rw [htext', htext, inserted]

theorem inserted_append
    (text : List Char) (vs vs' : List Inserted) :
    inserted text (vs ++ vs') = inserted (inserted text vs) vs' := by
  induction vs generalizing text with
  | nil =>
      rfl
  | cons v vs ih =>
      exact ih _

/-- Values none of which fits leave no trace. -/
theorem inserted_eq_self
    {text : List Char} {vs : List Inserted}
    (hfull : ∀ v ∈ vs, ¬ v.fits text.length = true) :
    inserted text vs = text := by
  induction vs with
  | nil =>
      rfl
  | cons v vs ih =>
      rw [inserted, if_neg (hfull v (List.mem_cons_self ..))]
      exact ih fun x hx => hfull x (List.mem_cons_of_mem v hx)

/-- What all the values would leave. -/
def allText (vs : List Inserted) : List Char :=
  vs.flatMap Inserted.text

/-- Each value fits behind those before it. -/
def AllFit : Nat → List Inserted → Prop
  | _, [] => True
  | n, v :: vs =>
      (v.fits n = true ∨ v.text = []) ∧ AllFit (n + v.text.length) vs

theorem length_inserted_le
    (text : List Char) (vs : List Inserted) :
    (inserted text vs).length ≤ text.length + (allText vs).length := by
  induction vs generalizing text with
  | nil =>
      exact Nat.le_add_right _ _
  | cons v vs ih =>
      have hrest :=
        ih (if v.fits text.length then text ++ v.text else text)
      rw [inserted, allText, List.flatMap_cons, List.length_append]
      rw [allText] at hrest
      split at hrest
      · rename_i hfits
        rw [if_pos hfits]
        rw [List.length_append] at hrest
        omega
      · rename_i hfits
        rw [if_neg hfits]
        omega

/-- Nothing is dropped exactly when each value fits behind the others. -/
theorem inserted_eq_iff
    (text : List Char) (vs : List Inserted) :
    inserted text vs = text ++ allText vs ↔ AllFit text.length vs := by
  induction vs generalizing text with
  | nil =>
      exact iff_of_true (List.append_nil text).symm trivial
  | cons v vs ih =>
      rw [inserted, AllFit, allText, List.flatMap_cons]
      by_cases hfits : v.fits text.length = true
      · have hrest := ih (text ++ v.text)
        rw [List.length_append, allText] at hrest
        rw [if_pos hfits, ← List.append_assoc, hrest]
        exact (and_iff_right (.inl hfits)).symm
      · rw [if_neg hfits]
        by_cases hempty : v.text = []
        · rw [hempty, List.nil_append, List.length_nil, Nat.add_zero]
          have hrest := ih text
          rw [allText] at hrest
          rw [hrest]
          exact (and_iff_right (.inr rfl)).symm
        · refine iff_of_false ?_ ?_
          · intro heq
            have hle := length_inserted_le text vs
            have hpos := List.length_pos_iff.mpr hempty
            rw [heq, allText, List.length_append, List.length_append] at hle
            omega
          · rintro ⟨hfits' | hempty', _⟩
            · exact hfits hfits'
            · exact hempty hempty'

end Hohnor
