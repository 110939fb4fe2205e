import Hohnor.Numerals
import Hohnor.StringConverter

/-!
# Integers of every type to text

`convert` and `convertHex` of src/log/LogStream.cpp for the integer types of
every width from that of a char on, with or without a sign.  The quotient and
the remainder are those of the type, which truncate where it has a sign.

What they compute is what they compute of the integer, and that is the numeral
in the base ten or sixteen.  No value is ever negated.
-/

namespace Hohnor

open ListSegments StringConverter Numerals

structure IntegerType where
  width : Nat
  wide : 8 ≤ width
  signed : Bool

namespace IntegerType

variable (T : IntegerType)

abbrev Value :=
  BitVec T.width

def toInt (v : T.Value) : Int :=
  if T.signed then v.toInt else v.toNat

/-- `a % b`. -/
def rem (a b : T.Value) : T.Value :=
  if T.signed then a.srem b else a % b

/-- `a / b`. -/
def quot (a b : T.Value) : T.Value :=
  if T.signed then a.sdiv b else a / b

/-- `value < 0`. -/
def negative (value : T.Value) : Bool :=
  T.signed && value.slt 0

theorem two_pow_le :
    128 ≤ 2 ^ (T.width - 1) :=
  calc
    128 = 2 ^ 7 := rfl
    _ ≤ 2 ^ (T.width - 1) :=
      Nat.pow_le_pow_right (by decide) (by have := T.wide; omega)

theorem two_pow_width :
    2 ^ T.width = 2 * 2 ^ (T.width - 1) := by
  have hwide := T.wide
  rw [← Nat.pow_succ', Nat.succ_eq_add_one, Nat.sub_add_cancel (by omega)]

theorem toNat_ofNat
    {k : Nat} (hk : k < 128) :
    (BitVec.ofNat T.width k).toNat = k := by
  have hpow := T.two_pow_le
  have hwidth := T.two_pow_width
  rw [BitVec.toNat_ofNat, Nat.mod_eq_of_lt (by omega)]

theorem toInt_ofNat
    {k : Nat} (hk : k < 128) :
    (BitVec.ofNat T.width k).toInt = k := by
  have hpow := T.two_pow_le
  have hwidth := T.two_pow_width
  rw [BitVec.toInt_eq_toNat_of_lt, T.toNat_ofNat hk]
  rw [T.toNat_ofNat hk]
  omega

theorem toInt_rem
    (i : T.Value) {k : Nat} (hk : k < 128) :
    T.toInt (T.rem i (BitVec.ofNat T.width k)) = (T.toInt i).tmod k := by
  rw [toInt, toInt, rem]
  split
  · rw [BitVec.toInt_srem, T.toInt_ofNat hk]
  · rw [BitVec.toNat_umod, T.toNat_ofNat hk]
    rfl

theorem toInt_quot
    (i : T.Value) {k : Nat} (hk : k < 128) :
    T.toInt (T.quot i (BitVec.ofNat T.width k)) = (T.toInt i).tdiv k := by
  rw [toInt, toInt, quot]
  split
  · rw [BitVec.toInt_sdiv_of_ne_or_ne, T.toInt_ofNat hk]
    refine .inr ?_
    intro hneg
    have hpow := T.two_pow_le
    have hwidth := T.two_pow_width
    have hnat := congrArg BitVec.toNat hneg
    rw [T.toNat_ofNat hk, BitVec.neg_one_eq_allOnes, BitVec.toNat_allOnes]
      at hnat
    omega
  · rw [BitVec.toNat_udiv, T.toNat_ofNat hk]
    rfl

theorem toInt_eq_zero
    (i : T.Value) :
    T.toInt i = 0 ↔ i = 0#T.width := by
  rw [toInt]
  split
  · rw [← BitVec.toInt_inj, BitVec.toInt_zero]
  · rw [← BitVec.toNat_inj, BitVec.toNat_zero, Int.natCast_eq_zero]

theorem negative_iff
    (value : T.Value) :
    T.negative value = true ↔ T.toInt value < 0 := by
  rw [negative, toInt]
  cases T.signed with
  | true =>
      simp [BitVec.slt_iff_toInt_lt]
  | false =>
      simp

/-- The quotient is closer to zero. -/
theorem natAbs_toInt_quot_lt
    {i : T.Value} {k : Nat} (hk : k < 128) (hbase : 1 < k)
    (hmore : T.quot i (BitVec.ofNat T.width k) ≠ 0#T.width) :
    (T.toInt (T.quot i (BitVec.ofNat T.width k))).natAbs <
      (T.toInt i).natAbs := by
  rw [Ne, ← T.toInt_eq_zero, T.toInt_quot i hk] at hmore
  rw [T.toInt_quot i hk, Int.natAbs_tdiv, Int.natAbs_natCast]
  refine Nat.div_lt_self ?_ hbase
  rw [Int.natAbs_pos]
  intro hzero
  rw [hzero] at hmore
  exact hmore (Int.zero_tdiv _)

/-- The loop of `convert`, with the store that ends an iteration. -/
def convertLoop (mem : List Char) (p : Nat) (i : T.Value) :
    Option (List Char × Nat) :=
  match zero (T.toInt (T.rem i (BitVec.ofNat T.width 10))) with
  | none => none
  | some c =>
      match store mem p c with
      | none => none
      | some mem =>
          if hmore : T.quot i (BitVec.ofNat T.width 10) ≠ 0#T.width then
            have := T.natAbs_toInt_quot_lt (by decide) (by decide) hmore
            convertLoop mem (p + 1) (T.quot i (BitVec.ofNat T.width 10))
          else some (mem, p + 1)
termination_by (T.toInt i).natAbs

def convert (mem : List Char) (buf : Nat) (value : T.Value) :
    Option (List Char × Nat) :=
  (T.convertLoop mem buf value).bind fun r =>
    (if T.negative value then
      (store r.1 r.2 '-').map fun mem => (mem, r.2 + 1)
    else some r).bind fun r =>
      finish r.1 buf r.2

/-- `digitsHex[lsd]`. -/
def hexDigit (lsd : Int) : Option Char :=
  if 0 ≤ lsd then digitsHex[lsd.toNat]? else none

/-- The loop of `convertHex`. -/
def convertHexLoop (mem : List Char) (p : Nat) (i : T.Value) :
    Option (List Char × Nat) :=
  match hexDigit (T.toInt (T.rem i (BitVec.ofNat T.width 16))) with
  | none => none
  | some c =>
      match store mem p c with
      | none => none
      | some mem =>
          if hmore : T.quot i (BitVec.ofNat T.width 16) ≠ 0#T.width then
            have := T.natAbs_toInt_quot_lt (by decide) (by decide) hmore
            convertHexLoop mem (p + 1) (T.quot i (BitVec.ofNat T.width 16))
          else some (mem, p + 1)
termination_by (T.toInt i).natAbs

def convertHex (mem : List Char) (buf : Nat) (value : T.Value) :
    Option (List Char × Nat) :=
  (T.convertHexLoop mem buf value).bind fun r => finish r.1 buf r.2

/-- The loop computes of a value what it computes of the integer. -/
theorem convertLoop_eq_toInt
    (mem : List Char) (p : Nat) (i : T.Value) :
    T.convertLoop mem p i = StringConverter.convertLoop mem p (T.toInt i) := by
  have hrem : ∀ i : T.Value,
      T.toInt (T.rem i (BitVec.ofNat T.width 10)) = (T.toInt i).tmod 10 :=
    fun i => T.toInt_rem i (by decide)
  have hquot : ∀ i : T.Value,
      T.toInt (T.quot i (BitVec.ofNat T.width 10)) = (T.toInt i).tdiv 10 :=
    fun i => T.toInt_quot i (by decide)
  fun_induction T.convertLoop mem p i with
  | case1 mem p i hzero =>
      rw [hrem] at hzero
      rw [StringConverter.convertLoop, hzero]
  | case2 mem p i c hzero hstore =>
      rw [hrem] at hzero
      rw [StringConverter.convertLoop, hzero]
      simp only [hstore]
  | case3 mem p i c hzero mem' hstore hmore hless ih =>
      rw [hrem] at hzero
      rw [Ne, ← T.toInt_eq_zero, hquot] at hmore
      rw [hquot] at ih
      rw [StringConverter.convertLoop, hzero]
      simp only [hstore, if_pos hmore]
      exact ih
  | case4 mem p i c hzero mem' hstore hmore =>
      rw [hrem] at hzero
      rw [Ne, ← T.toInt_eq_zero, hquot] at hmore
      rw [StringConverter.convertLoop, hzero]
      simp only [hstore, if_neg hmore]

theorem convert_eq_toInt
    (mem : List Char) (buf : Nat) (value : T.Value) :
    T.convert mem buf value =
      StringConverter.convert mem buf (T.toInt value) := by
  simp only [convert, StringConverter.convert, convertLoop_eq_toInt,
    T.negative_iff]

theorem convertHexLoop_eq_toNat
    (hsigned : T.signed = false) (mem : List Char) (p : Nat) (i : T.Value) :
    T.convertHexLoop mem p i =
      StringConverter.convertHexLoop mem p i.toNat := by
  have hint : ∀ i : T.Value, T.toInt i = i.toNat := by
    intro i
    rw [toInt, hsigned]
    rfl
  have hrem : ∀ i : T.Value,
      T.toInt (T.rem i (BitVec.ofNat T.width 16)) = (i.toNat % 16 : Nat) := by
    intro i
    rw [T.toInt_rem i (by decide), hint]
    rfl
  have hquot : ∀ i : T.Value,
      (T.quot i (BitVec.ofNat T.width 16)).toNat = i.toNat / 16 := by
    intro i
    rw [← Int.natCast_inj, ← hint, T.toInt_quot i (by decide), hint]
    rfl
  have hmore : ∀ i : T.Value,
      T.quot i (BitVec.ofNat T.width 16) ≠ 0#T.width ↔ i.toNat / 16 ≠ 0 := by
    intro i
    rw [Ne, ← BitVec.toNat_inj, hquot, BitVec.toNat_zero]
  have hdigit : ∀ n : Nat, hexDigit n = digitsHex[n]? := by
    intro n
    rw [hexDigit, if_pos (Int.natCast_nonneg n), Int.toNat_natCast]
  fun_induction T.convertHexLoop mem p i with
  | case1 mem p i hlsd =>
      rw [hrem, hdigit] at hlsd
      rw [StringConverter.convertHexLoop, hlsd]
  | case2 mem p i c hlsd hstore =>
      rw [hrem, hdigit] at hlsd
      rw [StringConverter.convertHexLoop, hlsd]
      simp only [hstore]
  | case3 mem p i c hlsd mem' hstore hagain hless ih =>
      rw [hrem, hdigit] at hlsd
      rw [hmore] at hagain
      rw [hquot] at ih
      rw [StringConverter.convertHexLoop, hlsd]
      simp only [hstore, if_pos hagain]
      exact ih
  | case4 mem p i c hlsd mem' hstore hagain =>
      rw [hrem, hdigit] at hlsd
      rw [hmore] at hagain
      rw [StringConverter.convertHexLoop, hlsd]
      simp only [hstore, if_neg hagain]

theorem convertHex_eq_toNat
    (hsigned : T.signed = false)
    (mem : List Char) (buf : Nat) (value : T.Value) :
    T.convertHex mem buf value =
      StringConverter.convertHex mem buf value.toNat := by
  rw [convertHex, StringConverter.convertHex,
    T.convertHexLoop_eq_toNat hsigned]

end IntegerType

namespace StringConverter

/-- The ten digits, from the middle of the table on. -/
def decimalDigits : List Char :=
  digits.drop 9

/-- The text of an integer in the base ten: a minus before the numeral of a
negative one. -/
structure IsDecimal (text : List Char) (value : Int) : Prop where
  minus : text.head? = some '-' ↔ value < 0
  numeral :
    IsNumeral decimalDigits
      (if value < 0 then text.tail else text) value.natAbs

theorem decimalDigits_eq
    {d : Nat} (hd : d < 10) :
    decimalDigits[d]? = some d.digitChar := by
  interval_cases d <;> rfl

theorem isNumeral_toDigits
    (n : Nat) :
    IsNumeral decimalDigits (Nat.toDigits 10 n) n := by
  refine isNumeral_of_steps (by decide) (by decide) ?_ ?_ n
  · intro n hn
    exact ⟨n.digitChar, decimalDigits_eq hn, Nat.toDigits_of_lt_base hn⟩
  · intro n hn
    exact ⟨(n % 10).digitChar, decimalDigits_eq (Nat.mod_lt n (by decide)),
      Nat.toDigits_of_base_le (by decide) hn⟩

theorem isNumeral_hexText
    (n : Nat) :
    IsNumeral digitsHex (hexText n) n := by
  refine isNumeral_of_steps (by decide) (by decide) ?_ ?_ n
  · intro n (hn : n < 16)
    refine ⟨n.digitChar.toUpper, ?_, ?_⟩
    · have hdigit := digitsHex_eq n
      rwa [Nat.mod_eq_of_lt hn] at hdigit
    · rw [hexText, Nat.toDigits_of_lt_base hn]
      rfl
  · intro n (hn : 16 ≤ n)
    refine ⟨(n % 16).digitChar.toUpper, digitsHex_eq n, ?_⟩
    rw [hexText, Nat.toDigits_of_base_le (by decide) hn, List.map_append]
    rfl

/-- No digit is a minus. -/
theorem head?_toDigits_ne
    (n : Nat) :
    (Nat.toDigits 10 n).head? ≠ some '-' := by
  intro hhead
  have hmem := (isNumeral_toDigits n).digits '-' (List.mem_of_mem_head? hhead)
  exact absurd hmem (by decide)

theorem isDecimal_decimalText
    (value : Int) :
    IsDecimal (decimalText value) value := by
  have hnumeral := isNumeral_toDigits value.natAbs
  by_cases hneg : value < 0
  · have htext : decimalText value = '-' :: Nat.toDigits 10 value.natAbs := by
      rw [decimalText, if_pos hneg, List.singleton_append]
    refine ⟨iff_of_true ?_ hneg, ?_⟩
    · rw [htext, List.head?_cons]
    · rw [htext, if_pos hneg]
      exact hnumeral
  · have htext : decimalText value = Nat.toDigits 10 value.natAbs := by
      rw [decimalText, if_neg hneg, List.nil_append]
    refine ⟨iff_of_false ?_ hneg, ?_⟩
    · rw [htext]
      exact head?_toDigits_ne value.natAbs
    · rw [htext, if_neg hneg]
      exact hnumeral

/-- There is one such text. -/
theorem IsDecimal.unique
    {text text' : List Char} {value : Int}
    (h : IsDecimal text value) (h' : IsDecimal text' value) :
    text = text' := by
  have hnumeral := h.numeral
  have hnumeral' := h'.numeral
  by_cases hneg : value < 0
  · rw [if_pos hneg] at hnumeral hnumeral'
    obtain ⟨ds, rfl⟩ := List.head?_eq_some_iff.mp (h.minus.mpr hneg)
    obtain ⟨ds', rfl⟩ := List.head?_eq_some_iff.mp (h'.minus.mpr hneg)
    rw [List.tail_cons] at hnumeral hnumeral'
    rw [hnumeral.unique (by decide) hnumeral']
  · rw [if_neg hneg] at hnumeral hnumeral'
    exact hnumeral.unique (by decide) hnumeral'

/-- The integer that is read from a text. -/
def readDecimal (text : List Char) : Int :=
  if text.head? = some '-' then -(readBack decimalDigits text.tail : Int)
  else readBack decimalDigits text

theorem IsDecimal.readDecimal_eq
    {text : List Char} {value : Int} (h : IsDecimal text value) :
    readDecimal text = value := by
  have hvalue := h.numeral.value
  rw [readDecimal]
  by_cases hneg : value < 0
  · rw [if_pos hneg] at hvalue
    rw [if_pos (h.minus.mpr hneg), hvalue]
    omega
  · rw [if_neg hneg] at hvalue
    rw [if_neg (fun hhead => hneg (h.minus.mp hhead)), hvalue]
    omega

/-- For each value of each integer type there is one text that is written,
wherever there is room for it and a terminator. -/
theorem convert_exact :
    (∀ (T : IntegerType) (value : T.Value), ∃ text : List Char,
      IsDecimal text (T.toInt value) ∧
      readDecimal text = T.toInt value ∧
      ∀ (mem : List Char) (buf : Nat), buf + text.length < mem.length →
        T.convert mem buf value =
          some (splice mem buf (text ++ [nul]), text.length)) ∧
    (∀ T : IntegerType, T.signed = false →
      ∀ value : T.Value, ∃ text : List Char,
        IsNumeral digitsHex text value.toNat ∧
        ∀ (mem : List Char) (buf : Nat), buf + text.length < mem.length →
          T.convertHex mem buf value =
            some (splice mem buf (text ++ [nul]), text.length)) := by
  constructor
  · intro T value
    have hdecimal := isDecimal_decimalText (T.toInt value)
    refine ⟨decimalText (T.toInt value), hdecimal, hdecimal.readDecimal_eq, ?_⟩
    intro mem buf hroom
    rw [T.convert_eq_toInt]
    exact convert_eq (T.toInt value) hroom
  · intro T hsigned value
    refine ⟨hexText value.toNat, isNumeral_hexText value.toNat, ?_⟩
    intro mem buf hroom
    rw [T.convertHex_eq_toNat hsigned]
    exact convertHex_eq value.toNat hroom

example :
    IntegerType.convert ⟨8, by decide, true⟩ ['a', 'b', 'c', 'd', 'e', 'f'] 0
        (BitVec.intMin 8) =
      some (['-', '1', '2', '8', nul, 'f'], 4) := by
  decide +kernel

end StringConverter

end Hohnor
