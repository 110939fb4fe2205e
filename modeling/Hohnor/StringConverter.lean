import Hohnor.ListSegments
import Mathlib.Tactic.IntervalCases

/-!
# Integers to text

`convert` and `convertHex` of src/log/LogStream.cpp, which write into an array
of chars from a position on: the digits from the last one, the sign, and a
terminator, and then turn what stands before the terminator around in place.
A store outside of the array, or a look outside of the table of digits, is the
result none.

The value is an integer, whatever its type: the quotient and the remainder
truncate, and are values of the type again.
-/

namespace Hohnor

open ListSegments

/-- The terminator. -/
def nul : Char :=
  Char.ofNat 0

namespace StringConverter

/-- `*p = c`. -/
def store (mem : List Char) (p : Nat) (c : Char) : Option (List Char) :=
  if p < mem.length then some (mem.set p c) else none

/-- `std::reverse` of the chars from `first` up to `last`. -/
def reverse (mem : List Char) (first last : Nat) : Option (List Char) :=
  if last ≤ mem.length then
    some (splice mem first (ListSegments.segment mem first last).reverse)
  else none

theorem store_eq
    {mem : List Char} {p : Nat} (hp : p < mem.length) (c : Char) :
    store mem p c = some (mem.set p c) :=
  if_pos hp

/-- The chars before the last one are turned around. -/
theorem reverse_splice
    {mem : List Char} {buf : Nat} (cs : List Char) (c : Char)
    (h : buf + (cs ++ [c]).length ≤ mem.length) :
    reverse (splice mem buf (cs ++ [c])) buf (buf + cs.length) =
      some (splice mem buf (cs.reverse ++ [c])) := by
  have hlength : (splice mem buf (cs ++ [c])).length = mem.length :=
    length_splice h
  have hsegment :
      ListSegments.segment (splice mem buf (cs ++ [c])) buf
        (buf + cs.length) = cs := by
    have hbuf : (mem.take buf).length = buf := by
      rw [List.length_take]
      omega
    rw [ListSegments.segment, ← List.drop_take, take_splice h,
      List.drop_left' hbuf]
  rw [List.length_append] at h
  rw [reverse, if_pos (by omega), hsegment,
    splice_splice (by rw [List.length_append]; exact h)
      (List.length_reverse)]

/-- The terminator behind the chars, which are turned around then. -/
def finish (mem : List Char) (buf p : Nat) : Option (List Char × Nat) :=
  (store mem p nul).bind fun mem =>
    (reverse mem buf p).map fun mem => (mem, p - buf)

theorem finish_eq
    {mem : List Char} {buf : Nat} (cs : List Char)
    (hroom : buf + cs.length < mem.length) :
    finish (splice mem buf cs) buf (buf + cs.length) =
      some (splice mem buf (cs.reverse ++ [nul]), cs.length) := by
  have hlength : (splice mem buf cs).length = mem.length :=
    length_splice (Nat.le_of_lt hroom)
  rw [finish, store_eq (by rw [hlength]; exact hroom), Option.bind_some,
    set_splice cs nul hroom,
    reverse_splice cs nul (by
      rw [List.length_append, List.length_singleton]
      omega)]
  simp

def digits : List Char :=
  ['9', '8', '7', '6', '5', '4', '3', '2', '1', '0',
    '1', '2', '3', '4', '5', '6', '7', '8', '9']

/-- `zero[lsd]`, where zero points to the middle of the table. -/
def zero (lsd : Int) : Option Char :=
  if 0 ≤ 9 + lsd then digits[(9 + lsd).toNat]? else none

/-- The loop of `convert`, with the store that ends an iteration. -/
def convertLoop (mem : List Char) (p : Nat) (i : Int) :
    Option (List Char × Nat) :=
  match zero (i.tmod 10) with
  | none => none
  | some c =>
      match store mem p c with
      | none => none
      | some mem =>
          if i.tdiv 10 ≠ 0 then convertLoop mem (p + 1) (i.tdiv 10)
          else some (mem, p + 1)
termination_by i.natAbs
decreasing_by
  rename_i hmore
  rw [Int.natAbs_tdiv]
  have hpos : 0 < i.natAbs := by
    rw [Int.natAbs_pos]
    rintro rfl
    exact hmore rfl
  exact Nat.div_lt_self hpos (by decide)

/-- It writes the text of `value` and a terminator from `buf` on, and returns
the length of the text. -/
def convert (mem : List Char) (buf : Nat) (value : Int) :
    Option (List Char × Nat) :=
  (convertLoop mem buf value).bind fun r =>
    (if value < 0 then
      (store r.1 r.2 '-').map fun mem => (mem, r.2 + 1)
    else some r).bind fun r =>
      finish r.1 buf r.2

/-- What `convert` is for. -/
def decimalText (value : Int) : List Char :=
  (if value < 0 then ['-'] else []) ++ Nat.toDigits 10 value.natAbs

/-- The digit of a remainder of either sign. -/
theorem zero_eq
    (i : Int) :
    zero (i.tmod 10) = some (i.natAbs % 10).digitChar := by
  have habs : (i.tmod 10).natAbs = i.natAbs % 10 := Int.natAbs_tmod i 10
  have hlt : i.natAbs % 10 < 10 := Nat.mod_lt _ (by decide)
  rw [← habs] at hlt ⊢
  generalize i.tmod 10 = lsd at hlt ⊢
  have hlow : -10 < lsd := by omega
  have hhigh : lsd < 10 := by omega
  clear habs hlt
  interval_cases lsd <;> rfl

/-- The loop writes the digits from the last one. -/
theorem convertLoop_eq
    {mem : List Char} {p : Nat} (i : Int)
    (hroom : p + (Nat.toDigits 10 i.natAbs).length ≤ mem.length) :
    convertLoop mem p i =
      some
        (splice mem p (Nat.toDigits 10 i.natAbs).reverse,
          p + (Nat.toDigits 10 i.natAbs).length) := by
  generalize hn : i.natAbs = n at hroom ⊢
  induction n using Nat.strong_induction_on generalizing mem p i with
  | h n ih =>
      have hquot : (i.tdiv 10).natAbs = n / 10 := by
        rw [Int.natAbs_tdiv, hn]
        rfl
      have hpos : 0 < (Nat.toDigits 10 n).length :=
        Nat.length_toDigits_pos
      rw [convertLoop, zero_eq, hn]
      simp only
      rw [store_eq (by omega)]
      simp only
      by_cases hmore : i.tdiv 10 ≠ 0
      · have hge : 10 ≤ n := by
          by_contra hlt
          exact hmore (by omega)
        rw [Nat.toDigits_of_base_le (by decide) hge] at hroom ⊢
        rw [List.length_append, List.length_singleton] at hroom ⊢
        rw [if_pos hmore, ih (n / 10) (by omega) _ hquot
          (by rw [List.length_set]; omega)]
        rw [List.reverse_append, List.reverse_singleton,
          List.singleton_append, splice_set _ _ (by omega)]
        congr 2
        omega
      · have hlt : n < 10 := by omega
        rw [if_neg hmore, Nat.toDigits_of_lt_base hlt,
          Nat.mod_eq_of_lt hlt]
        rw [List.reverse_singleton, ← splice_set [] _ (by omega)]
        simp [splice]

/-- `convert` writes the text and a terminator, and nothing else. -/
theorem convert_eq
    {mem : List Char} {buf : Nat} (value : Int)
    (hroom : buf + (decimalText value).length < mem.length) :
    convert mem buf value =
      some
        (splice mem buf (decimalText value ++ [nul]),
          (decimalText value).length) := by
  rw [decimalText] at hroom ⊢
  by_cases hneg : value < 0
  · rw [if_pos hneg, List.length_append, List.length_singleton] at hroom
    have hdigits :
        buf + (Nat.toDigits 10 value.natAbs).reverse.length <
          mem.length := by
      rw [List.length_reverse]
      omega
    have hlength :
        (splice mem buf (Nat.toDigits 10 value.natAbs).reverse).length =
          mem.length :=
      length_splice (Nat.le_of_lt hdigits)
    rw [convert, convertLoop_eq value (by omega), Option.bind_some,
      if_pos hneg, if_pos hneg]
    simp only
    rw [← List.length_reverse, store_eq (by rw [hlength]; exact hdigits),
      set_splice _ _ hdigits]
    have hfinish := @finish_eq mem buf
      ((Nat.toDigits 10 value.natAbs).reverse ++ ['-']) (by
        rw [List.length_append, List.length_reverse, List.length_singleton]
        omega)
    rw [List.length_append, List.length_singleton, ← Nat.add_assoc]
      at hfinish
    rw [Option.map_some, Option.bind_some, hfinish]
    simp
  · rw [if_neg hneg, List.nil_append] at hroom
    rw [convert, convertLoop_eq value (by omega), Option.bind_some,
      if_neg hneg, if_neg hneg, Option.bind_some]
    have hfinish := @finish_eq mem buf
      (Nat.toDigits 10 value.natAbs).reverse (by
        rw [List.length_reverse]
        exact hroom)
    rw [List.length_reverse, List.reverse_reverse] at hfinish
    exact hfinish

/-- A value of 64 bits, of either sign, has at most 21 chars. -/
theorem length_decimalText_le
    {value : Int} (h : value.natAbs < 2 ^ 64) :
    (decimalText value).length ≤ 21 := by
  have hdigits : (Nat.toDigits 10 value.natAbs).length ≤ 20 :=
    (Nat.length_toDigits_le_iff (by decide) (by decide)).mpr
      (Nat.lt_trans h (by decide))
  rw [decimalText]
  split
  · rw [List.length_append, List.length_singleton]
    omega
  · rw [List.nil_append]
    omega

def digitsHex : List Char :=
  ['0', '1', '2', '3', '4', '5', '6', '7', '8', '9',
    'A', 'B', 'C', 'D', 'E', 'F']

/-- The loop of `convertHex`. -/
def convertHexLoop (mem : List Char) (p : Nat) (i : Nat) :
    Option (List Char × Nat) :=
  match digitsHex[i % 16]? with
  | none => none
  | some c =>
      match store mem p c with
      | none => none
      | some mem =>
          if i / 16 ≠ 0 then convertHexLoop mem (p + 1) (i / 16)
          else some (mem, p + 1)
termination_by i
decreasing_by
  omega

def convertHex (mem : List Char) (buf : Nat) (value : Nat) :
    Option (List Char × Nat) :=
  (convertHexLoop mem buf value).bind fun r => finish r.1 buf r.2

/-- What `convertHex` is for. -/
def hexText (value : Nat) : List Char :=
  (Nat.toDigits 16 value).map Char.toUpper

theorem digitsHex_eq
    (i : Nat) :
    digitsHex[i % 16]? = some (i % 16).digitChar.toUpper := by
  have hlt : i % 16 < 16 := Nat.mod_lt _ (by decide)
  generalize i % 16 = d at hlt ⊢
  interval_cases d <;> rfl

theorem convertHexLoop_eq
    {mem : List Char} {p : Nat} (i : Nat)
    (hroom : p + (hexText i).length ≤ mem.length) :
    convertHexLoop mem p i =
      some (splice mem p (hexText i).reverse, p + (hexText i).length) := by
  induction i using Nat.strong_induction_on generalizing mem p with
  | h i ih =>
      have hpos : 0 < (hexText i).length := by
        rw [hexText, List.length_map]
        exact Nat.length_toDigits_pos
      rw [convertHexLoop, digitsHex_eq]
      simp only
      rw [store_eq (by omega)]
      simp only
      by_cases hmore : i / 16 ≠ 0
      · have hge : 16 ≤ i := by
          omega
        have htext :
            hexText i =
              hexText (i / 16) ++ [(i % 16).digitChar.toUpper] := by
          rw [hexText, Nat.toDigits_of_base_le (by decide) hge,
            List.map_append]
          rfl
        rw [htext, List.length_append, List.length_singleton] at hroom ⊢
        rw [if_pos hmore, ih (i / 16) (by omega)
          (by rw [List.length_set]; omega)]
        rw [List.reverse_append, List.reverse_singleton,
          List.singleton_append, splice_set _ _ (by omega)]
        congr 2
        omega
      · have hlt : i < 16 := by
          omega
        rw [if_neg hmore, hexText, Nat.toDigits_of_lt_base hlt,
          Nat.mod_eq_of_lt hlt, List.map_singleton,
          List.reverse_singleton, ← splice_set [] _ (by omega)]
        simp [splice]

theorem convertHex_eq
    {mem : List Char} {buf : Nat} (value : Nat)
    (hroom : buf + (hexText value).length < mem.length) :
    convertHex mem buf value =
      some
        (splice mem buf (hexText value ++ [nul]),
          (hexText value).length) := by
  have hfinish := @finish_eq mem buf
    (hexText value).reverse (by
      rw [List.length_reverse]
      exact hroom)
  rw [List.length_reverse, List.reverse_reverse] at hfinish
  rw [convertHex, convertHexLoop_eq value (by omega), Option.bind_some]
  exact hfinish

/-- A pointer has at most 16 digits. -/
theorem length_hexText_le
    {value : Nat} (h : value < 2 ^ 64) : (hexText value).length ≤ 16 := by
  rw [hexText, List.length_map]
  exact (Nat.length_toDigits_le_iff (by decide) (by decide)).mpr
    (Nat.lt_of_lt_of_le h (by decide))

end StringConverter

end Hohnor
