import Hohnor.LogStream

/-!
# The contents of a log stream

Besides the values of include/hohnor/log/LogStream.h a stream takes the content
of another buffer and what a `Fmt` has printed; both come down to one of the
other calls.

Whatever the sequence of calls on a new stream, no store falls outside of the
array, what stands in the stream stays there, and the whole of it is the texts
of the calls that were not dropped.
-/

namespace Hohnor

open ListSegments StringConverter

/-- `toStringPiece`. -/
def FixedBuffer.toStringPiece {SIZE : Nat}
    (b : FixedBuffer SIZE) (hb : b.Valid) : CharPiece where
  ptr_ := b.data_
  length_ := Int32.ofNat b.cur_
  readable := by
    have hroom := hb.room
    rw [Int32.toInt_ofNat', hb.size]
    exact (bmod_le_self b.cur_ Int32.size).trans (by omega)

/-- What snprintf has printed, which the assertion of the constructor bounds,
in an array of zeros. -/
structure Fmt where
  printed : List Char
  short : printed.length < 32
deriving DecidableEq, Repr

namespace Fmt

def buf_ (fmt : Fmt) : List Char :=
  fmt.printed ++ List.replicate (32 - fmt.printed.length) nul

def length_ (fmt : Fmt) : Int32 :=
  Int32.ofNat fmt.printed.length

theorem toInt_length_
    (fmt : Fmt) :
    fmt.length_.toInt = fmt.printed.length := by
  have hshort := fmt.short
  exact Int32.toInt_ofNat_of_lt (by omega)

def piece (fmt : Fmt) : CharPiece where
  ptr_ := fmt.buf_
  length_ := fmt.length_
  readable := by
    rw [fmt.toInt_length_, buf_, List.length_append]
    omega

end Fmt

/-- The calls that put something into a stream; another buffer, or that of the
stream itself, is what it is at the call. -/
inductive StreamCall where
  | value (v : Inserted)
  | buffer (v : FixedBuffer kSmallBuffer) (valid : v.Valid)
  | fmt (v : Fmt)

namespace StreamCall

/-- The insertion, or the `append`, that the call is. -/
def inserted : StreamCall → Inserted
  | value v => v
  | buffer v valid => .piece (v.toStringPiece valid)
  | fmt v => .append v.piece

/-- The whole text of what is put in. -/
def text : StreamCall → List Char
  | value v => v.text
  | buffer v _ => v.toString
  | fmt v => v.printed

theorem text_inserted
    (call : StreamCall) :
    call.inserted.text = call.text := by
  cases call with
  | value v =>
      rfl
  | buffer v valid =>
      have hroom : v.cur_ < 4000 := valid.room
      have hlength : (Int32.ofNat v.cur_).toInt = v.cur_ :=
        Int32.toInt_ofNat_of_lt (by omega)
      change v.data_.take (Int32.ofNat v.cur_).toInt.toNat = _
      rw [hlength, Int.toNat_natCast]
      rfl
  | fmt v =>
      change v.buf_.take v.length_.toInt.toNat = v.printed
      rw [v.toInt_length_, Int.toNat_natCast]
      exact List.take_left

end StreamCall

namespace LogStream

def call (s : LogStream) (c : StreamCall) : Option LogStream :=
  s.insert c.inserted

def callAll (s : LogStream) : List StreamCall → Option LogStream
  | [] => some s
  | c :: cs => (s.call c).bind fun s => s.callAll cs

theorem callAll_append
    (s : LogStream) (earlier later : List StreamCall) :
    s.callAll (earlier ++ later) =
      (s.callAll earlier).bind fun s => s.callAll later := by
  induction earlier generalizing s with
  | nil =>
      rfl
  | cons c cs ih =>
      rw [List.cons_append, callAll, callAll, Option.bind_assoc]
      congr 1
      funext s
      exact ih s

/-- A call leaves the stream as it is or puts the whole text behind it. -/
theorem call_keeps
    {s : LogStream} (hs : s.buffer_.Valid) (c : StreamCall) :
    ∃ s', s.call c = some s' ∧ s'.buffer_.Valid ∧
      (s'.text = s.text ∨ s'.text = s.text ++ c.text) := by
  obtain ⟨s', hinsert, hs', htext⟩ := insert_eq hs c.inserted
  refine ⟨s', hinsert, hs', ?_⟩
  rw [c.text_inserted] at htext
  split at htext
  · exact .inr htext
  · exact .inl htext

theorem callAll_keeps
    {s : LogStream} (hs : s.buffer_.Valid) (cs : List StreamCall) :
    ∃ (s' : LogStream) (kept : List StreamCall),
      s.callAll cs = some s' ∧ s'.buffer_.Valid ∧
      kept.Sublist cs ∧
      s'.text = s.text ++ kept.flatMap StreamCall.text := by
  induction cs generalizing s with
  | nil =>
      exact ⟨s, [], rfl, hs, .slnil, (List.append_nil s.text).symm⟩
  | cons c cs ih =>
      obtain ⟨s₁, hcall, hs₁, htext⟩ := call_keeps hs c
      obtain ⟨s', kept, hrest, hs', hkept, htext'⟩ := ih hs₁
      have hrun : s.callAll (c :: cs) = some s' := by
        rw [callAll, hcall, Option.bind_some, hrest]
      rcases htext with hdropped | hput
      · refine ⟨s', kept, hrun, hs', hkept.cons c, ?_⟩
        rw [htext', hdropped]
      · refine ⟨s', c :: kept, hrun, hs', hkept.cons_cons c, ?_⟩
        rw [htext', hput, List.flatMap_cons, List.append_assoc]

/-- A sequence of calls on a new stream, in two parts: the array keeps its size
and is never full, the second part leaves what the first one has written, and
each text stands in the stream entirely or not at all. -/
theorem callAll_contents
    (earlier later : List StreamCall) :
    ∃ (s s' : LogStream) (kept : List StreamCall),
      create.callAll earlier = some s ∧
      s.callAll later = some s' ∧
      create.callAll (earlier ++ later) = some s' ∧
      s'.buffer_.data_.length = kSmallBuffer ∧
      s.buffer_.cur_ ≤ s'.buffer_.cur_ ∧ s'.buffer_.cur_ < kSmallBuffer ∧
      s'.buffer_.data_.take s.buffer_.cur_ =
        s.buffer_.data_.take s.buffer_.cur_ ∧
      kept.Sublist (earlier ++ later) ∧
      s'.buffer_.data_.take s'.buffer_.cur_ =
        kept.flatMap StreamCall.text := by
  obtain ⟨s, kept, hearlier, hs, hkept, htext⟩ :=
    callAll_keeps create_valid earlier
  obtain ⟨s', kept', hlater, hs', hkept', htext'⟩ := callAll_keeps hs later
  have hlength : s.text.length = s.buffer_.cur_ := hs.length
  have hlength' : s'.text.length = s'.buffer_.cur_ := hs'.length
  have hprefix : s.text <+: s'.text := ⟨_, htext'.symm⟩
  have hcur : s.buffer_.cur_ ≤ s'.buffer_.cur_ := by
    rw [← hlength, ← hlength']
    exact hprefix.length_le
  refine ⟨s, s', kept ++ kept', hearlier, hlater, ?_, hs'.size, hcur,
    hs'.room, ?_, hkept.append hkept', ?_⟩
  · rw [callAll_append, hearlier, Option.bind_some, hlater]
  · calc
      s'.buffer_.data_.take s.buffer_.cur_ =
          s'.text.take s.buffer_.cur_ := by
        rw [text, FixedBuffer.toString, List.take_take,
          Nat.min_eq_left hcur]
      _ = s.text := by
        rw [← hlength]
        exact (List.prefix_iff_eq_take.mp hprefix).symm
  · change s'.text = _
    rw [htext', htext, List.flatMap_append]
    rfl

end LogStream

end Hohnor
