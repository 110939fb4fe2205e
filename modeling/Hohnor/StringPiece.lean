import Hohnor.LogStream
import Mathlib.Data.Char
import Mathlib.Data.List.Lex

/-!
# The comparison of string pieces

The operators of include/hohnor/common/StringPiece.h.  They look at the chars
up to the shorter length with memcmp and then at the lengths, which are ints
and could be negative; a memcmp beyond the chars of a piece is the result none.

For pieces with a length that is not negative all of them agree with the order
and the prefixes of the texts.
-/

namespace Hohnor

namespace CharPiece

/-- The difference of the first chars that differ, and 0 if there are none; of
the value of memcmp only the sign is used. -/
def firstDifference : List Char → List Char → Int
  | c :: cs, d :: ds =>
      if c = d then firstDifference cs ds else (c.toNat : Int) - d.toNat
  | _, _ => 0

def memcmp (p q : List Char) (n : Int) : Option Int :=
  if sizeCast n ≤ p.length ∧ sizeCast n ≤ q.length then
    some (firstDifference (p.take (sizeCast n)) (q.take (sizeCast n)))
  else none

/-- `length_ < x.length_ ? length_ : x.length_`. -/
def shorter (p x : CharPiece) : Int :=
  if p.length_ < x.length_ then p.length_.toInt else x.length_.toInt

/-- `operator==`. -/
def equal (p x : CharPiece) : Option Bool :=
  if p.length_ = x.length_ then
    (memcmp p.ptr_ x.ptr_ p.length_.toInt).map fun r => r == 0
  else some false

/-- `operator!=`. -/
def notEqual (p x : CharPiece) : Option Bool :=
  (p.equal x).map fun b => !b

/-- `STRINGPIECE_BINARY_PREDICATE(cmp, auxcmp)`. -/
def binaryPredicate
    (cmp : Int → Int → Bool) (auxcmp : Int → Bool) (p x : CharPiece) :
    Option Bool :=
  (memcmp p.ptr_ x.ptr_ (p.shorter x)).map fun r =>
    auxcmp r || (r == 0 && cmp p.length_.toInt x.length_.toInt)

def less : CharPiece → CharPiece → Option Bool :=
  binaryPredicate (fun m n => m < n) fun r => r < 0

def lessEqual : CharPiece → CharPiece → Option Bool :=
  binaryPredicate (fun m n => m ≤ n) fun r => r < 0

def greaterEqual : CharPiece → CharPiece → Option Bool :=
  binaryPredicate (fun m n => m ≥ n) fun r => r > 0

def greater : CharPiece → CharPiece → Option Bool :=
  binaryPredicate (fun m n => m > n) fun r => r > 0

def compare (p x : CharPiece) : Option Int :=
  (memcmp p.ptr_ x.ptr_ (p.shorter x)).map fun r =>
    if r = 0 then
      if p.length_ < x.length_ then -1
      else if p.length_ > x.length_ then 1
      else r
    else r

def starts_with (p x : CharPiece) : Option Bool :=
  if p.length_ ≥ x.length_ then
    (memcmp p.ptr_ x.ptr_ x.length_.toInt).map fun r => r == 0
  else some false

theorem firstDifference_swap
    (cs ds : List Char) :
    firstDifference ds cs = -firstDifference cs ds := by
  induction cs generalizing ds with
  | nil => cases ds <;> simp [firstDifference]
  | cons c cs ih =>
      cases ds with
      | nil => simp [firstDifference]
      | cons d ds =>
          rw [firstDifference, firstDifference]
          by_cases hcd : c = d
          · rw [if_pos hcd, if_pos hcd.symm, ih]
          · rw [if_neg hcd, if_neg (Ne.symm hcd)]
            omega

theorem toNat_inj
    {c d : Char} (h : c.toNat = d.toNat) :
    c = d :=
  Char.ext (UInt32.toNat_inj.mp h)

/-- The first difference decides, or else the length. -/
theorem lt_iff_difference
    (cs ds : List Char) :
    cs < ds ↔
      firstDifference cs ds < 0 ∨
        firstDifference cs ds = 0 ∧ cs.length < ds.length := by
  induction cs generalizing ds with
  | nil => cases ds <;> simp [firstDifference]
  | cons c cs ih =>
      cases ds with
      | nil => simp [firstDifference]
      | cons d ds =>
          rw [List.cons_lt_cons_iff, firstDifference]
          by_cases hcd : c = d
          · subst hcd
            simp [ih]
          · have hlt : c < d ↔ c.toNat < d.toNat := Iff.rfl
            have hne : c.toNat ≠ d.toNat := mt toNat_inj hcd
            rw [if_neg hcd, hlt]
            simp only [hcd, false_and, or_false]
            omega

theorem eq_iff_difference
    (cs ds : List Char) :
    cs = ds ↔ firstDifference cs ds = 0 ∧ cs.length = ds.length := by
  induction cs generalizing ds with
  | nil => cases ds <;> simp [firstDifference]
  | cons c cs ih =>
      cases ds with
      | nil => simp [firstDifference]
      | cons d ds =>
          rw [List.cons.injEq, firstDifference]
          by_cases hcd : c = d
          · simp [hcd, ih]
          · have hne : c.toNat ≠ d.toNat := mt toNat_inj hcd
            rw [if_neg hcd]
            simp only [hcd, false_and, false_iff, not_and]
            omega

/-- A text is a prefix if its chars do not differ from the first ones. -/
theorem prefix_iff_difference
    {cs ds : List Char} (hlength : ds.length ≤ cs.length) :
    ds <+: cs ↔ firstDifference (cs.take ds.length) ds = 0 := by
  rw [List.prefix_iff_eq_take, eq_comm, eq_iff_difference, List.length_take,
    Nat.min_eq_left hlength]
  simp

/-- The chars behind the shorter length do not count. -/
theorem firstDifference_take
    {cs ds : List Char} {n : Nat} (hn : min cs.length ds.length ≤ n) :
    firstDifference (cs.take n) (ds.take n) = firstDifference cs ds := by
  induction cs generalizing ds n with
  | nil => cases ds <;> cases n <;> simp [firstDifference]
  | cons c cs ih =>
      cases ds with
      | nil => cases n <;> simp [firstDifference]
      | cons d ds =>
          simp only [List.length_cons] at hn
          cases n with
          | zero => omega
          | succ n =>
              rw [List.take_succ_cons, List.take_succ_cons, firstDifference,
                firstDifference, ih (by omega)]

/-- The length is that of a text. -/
def Wellformed (p : CharPiece) : Prop :=
  0 ≤ p.length_.toInt

instance (p : CharPiece) : Decidable p.Wellformed :=
  inferInstanceAs (Decidable (_ ≤ _))

theorem Wellformed.length_text
    {p : CharPiece} (hp : p.Wellformed) :
    (p.text.length : Int) = p.length_.toInt := by
  have hreadable := p.readable
  rw [Wellformed] at hp
  rw [text, List.length_take]
  omega

theorem take_text
    {p : CharPiece} {n : Nat} (hn : n ≤ p.text.length) :
    p.ptr_.take n = p.text.take n := by
  rw [text, List.length_take] at hn
  rw [text, List.take_take, Nat.min_eq_left (by omega)]

/-- A memcmp within both texts. -/
theorem memcmp_eq
    {p x : CharPiece} {n : Int} (hn : 0 ≤ n)
    (hp : n ≤ p.text.length) (hx : n ≤ x.text.length) :
    memcmp p.ptr_ x.ptr_ n =
      some (firstDifference (p.text.take n.toNat) (x.text.take n.toNat)) := by
  have hlow := Int32.toInt_lt p.length_
  have hcast : sizeCast n = n.toNat := by
    rw [sizeCast]
    rw [text, List.length_take] at hp
    omega
  have hp' : n.toNat ≤ p.text.length := by omega
  have hx' : n.toNat ≤ x.text.length := by omega
  rw [memcmp, hcast, if_pos, take_text hp', take_text hx']
  rw [text, List.length_take] at hp' hx'
  omega

theorem shorter_eq
    {p x : CharPiece} (hp : p.Wellformed) (hx : x.Wellformed) :
    p.shorter x = (min p.text.length x.text.length : Nat) := by
  have hlength := hp.length_text
  have hlength' := hx.length_text
  rw [shorter]
  split
  next hlt =>
    rw [Int32.lt_iff_toInt_lt] at hlt
    omega
  next hge =>
    rw [Int32.lt_iff_toInt_lt] at hge
    omega

theorem memcmp_shorter
    {p x : CharPiece} (hp : p.Wellformed) (hx : x.Wellformed) :
    memcmp p.ptr_ x.ptr_ (p.shorter x) =
      some (firstDifference p.text x.text) := by
  rw [shorter_eq hp hx, memcmp_eq (by omega) (by omega) (by omega),
    Int.toNat_natCast, firstDifference_take (Nat.le_refl _)]

/-- The answer of an operator, which is the truth of `P`. -/
def Answers (result : Option Bool) (P : Prop) : Prop :=
  ∃ b, result = some b ∧ (b = true ↔ P)

/-- The operators of the macro, by what the two comparisons mean for the first
difference and for the lengths. -/
theorem binaryPredicate_answers
    {cmp : Int → Int → Bool} {auxcmp : Int → Bool} {P : Prop}
    {p x : CharPiece} (hp : p.Wellformed) (hx : x.Wellformed)
    (hP :
      (auxcmp (firstDifference p.text x.text) = true ∨
          firstDifference p.text x.text = 0 ∧
            cmp p.text.length x.text.length = true) ↔ P) :
    Answers (binaryPredicate cmp auxcmp p x) P := by
  refine ⟨_, by rw [binaryPredicate, memcmp_shorter hp hx]; rfl, ?_⟩
  rw [← hP, ← hp.length_text, ← hx.length_text, Bool.or_eq_true,
    Bool.and_eq_true, beq_iff_eq]

theorem equal_answers
    {p x : CharPiece} (hp : p.Wellformed) (hx : x.Wellformed) :
    Answers (p.equal x) (p.text = x.text) := by
  have hlength := hp.length_text
  have hlength' := hx.length_text
  rw [eq_iff_difference]
  by_cases hsame : p.length_ = x.length_
  · have hlengths : p.text.length = x.text.length := by
      rw [hsame] at hlength
      omega
    refine ⟨_, by
      rw [equal, if_pos hsame,
        memcmp_eq hp (by omega) (by omega)]
      rfl, ?_⟩
    rw [beq_iff_eq, ← hlength, Int.toNat_natCast, List.take_length,
      hlengths, List.take_length]
    simp
  · refine ⟨false, by rw [equal, if_neg hsame], ?_⟩
    simp only [Bool.false_eq_true, false_iff, not_and]
    intro _ hlengths
    exact hsame (Int32.toInt_inj.mp (by omega))

theorem starts_with_answers
    {p x : CharPiece} (hp : p.Wellformed) (hx : x.Wellformed) :
    Answers (p.starts_with x) (x.text <+: p.text) := by
  have hlength := hp.length_text
  have hlength' := hx.length_text
  by_cases hlong : p.length_ ≥ x.length_
  · have hlengths : x.text.length ≤ p.text.length := by
      rw [ge_iff_le, Int32.le_iff_toInt_le] at hlong
      omega
    refine ⟨_, by
      rw [starts_with, if_pos hlong, memcmp_eq hx (by omega) (by omega)]
      rfl, ?_⟩
    rw [beq_iff_eq, ← hlength', Int.toNat_natCast, List.take_length,
      prefix_iff_difference hlengths]
  · refine ⟨false, by rw [starts_with, if_neg hlong], ?_⟩
    simp only [Bool.false_eq_true, false_iff]
    intro hprefix
    have hle := hprefix.length_le
    rw [ge_iff_le, Int32.le_iff_toInt_le] at hlong
    omega

theorem compare_eq
    {p x : CharPiece} (hp : p.Wellformed) (hx : x.Wellformed) :
    ∃ r, p.compare x = some r ∧ (r < 0 ↔ p.text < x.text) ∧
      (r = 0 ↔ p.text = x.text) ∧ (0 < r ↔ x.text < p.text) := by
  have hlength := hp.length_text
  have hlength' := hx.length_text
  obtain ⟨r, hr⟩ : ∃ r, p.compare x = some r :=
    ⟨_, by rw [compare, memcmp_shorter hp hx]; rfl⟩
  refine ⟨r, hr, ?_⟩
  rw [compare, memcmp_shorter hp hx, Option.map_some, Option.some.injEq] at hr
  rw [lt_iff_difference, eq_iff_difference, lt_iff_difference,
    firstDifference_swap p.text x.text]
  simp only [gt_iff_lt, Int32.lt_iff_toInt_lt] at hr
  split_ifs at hr <;> omega

/-- On pieces of texts the operators are the lexicographic order of the texts,
compare() has its sign, and starts_with is the prefix. -/
theorem operators_are_lexicographic
    {p x : CharPiece} (hp : p.Wellformed) (hx : x.Wellformed) :
    Answers (p.equal x) (p.text = x.text) ∧
      Answers (p.notEqual x) (p.text ≠ x.text) ∧
      Answers (p.less x) (p.text < x.text) ∧
      Answers (p.lessEqual x) (p.text ≤ x.text) ∧
      Answers (p.greaterEqual x) (x.text ≤ p.text) ∧
      Answers (p.greater x) (x.text < p.text) ∧
      (∃ r, p.compare x = some r ∧ (r < 0 ↔ p.text < x.text) ∧
        (r = 0 ↔ p.text = x.text) ∧ (0 < r ↔ x.text < p.text)) ∧
      Answers (p.starts_with x) (x.text <+: p.text) := by
  have hlt := lt_iff_difference p.text x.text
  have hgt := lt_iff_difference x.text p.text
  rw [firstDifference_swap p.text x.text] at hgt
  refine ⟨equal_answers hp hx, ?_, ?_, ?_, ?_, ?_, compare_eq hp hx,
    starts_with_answers hp hx⟩
  · obtain ⟨b, hb, hiff⟩ := equal_answers hp hx
    refine ⟨!b, by rw [notEqual, hb]; rfl, ?_⟩
    rw [Bool.not_eq_true', ne_eq, ← hiff, Bool.not_eq_true]
  · refine binaryPredicate_answers hp hx ?_
    rw [hlt]
    simp only [decide_eq_true_iff]
    omega
  · refine binaryPredicate_answers hp hx ?_
    rw [← not_lt (a := x.text), hgt]
    simp only [decide_eq_true_iff]
    omega
  · refine binaryPredicate_answers hp hx ?_
    rw [← not_lt (a := p.text), hlt]
    simp only [decide_eq_true_iff]
    omega
  · refine binaryPredicate_answers hp hx ?_
    rw [hgt]
    simp only [decide_eq_true_iff]
    omega

/-- A text and a first part of it. -/
theorem operators_are_lexicographic_prefix :
    let p := CharPiece.set ['a', 'b', 'c']
    let x := CharPiece.set ['a', 'b']
    Answers (p.equal x) (p.text = x.text) ∧
      Answers (p.notEqual x) (p.text ≠ x.text) ∧
      Answers (p.less x) (p.text < x.text) ∧
      Answers (p.lessEqual x) (p.text ≤ x.text) ∧
      Answers (p.greaterEqual x) (x.text ≤ p.text) ∧
      Answers (p.greater x) (x.text < p.text) ∧
      (∃ r, p.compare x = some r ∧ (r < 0 ↔ p.text < x.text) ∧
        (r = 0 ↔ p.text = x.text) ∧ (0 < r ↔ x.text < p.text)) ∧
      Answers (p.starts_with x) (x.text <+: p.text) :=
  operators_are_lexicographic (by decide) (by decide)

end CharPiece

end Hohnor
