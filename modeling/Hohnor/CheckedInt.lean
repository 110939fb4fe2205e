import Mathlib.Data.BitVec

/-!
# Arithmetic of signed machine integers that may overflow

An expression over signed integers of a width either has a value of that width
or its computation overflows somewhere, or divides by zero.  Division rounds
towards zero.

Each operation has one rule, `add_hasValue` and so on, that says exactly when
its result has a given value; a `simp` with the rules turns the value of an
expression into equations and bounds on integers.
-/

namespace CheckedInt

/-- The integers that a signed machine integer of this width can hold. -/
def InRange (w : Nat) (n : Int) : Prop :=
  -2 ^ (w - 1) ≤ n ∧ n < 2 ^ (w - 1)

instance (w : Nat) (n : Int) : Decidable (InRange w n) :=
  inferInstanceAs (Decidable (_ ∧ _))

/-- The machine integer of an integer, if it can be held. -/
def ofInt? (w : Nat) (n : Int) : Option (BitVec w) :=
  if InRange w n then some (BitVec.ofInt w n) else none

/-- An expression: it has no value where its computation is undefined. -/
structure IntExpr (w : Nat) where
  value : Option (BitVec w)

namespace IntExpr

variable {w : Nat}

instance : Coe (BitVec w) (IntExpr w) :=
  ⟨fun v => ⟨some v⟩⟩

instance (n : Nat) : OfNat (IntExpr w) n :=
  ⟨⟨ofInt? w n⟩⟩

/-- Both operands are computed, then the exact result is put into the width. -/
def checked (op : Int → Int → Int) (x y : IntExpr w) : IntExpr w where
  value := do
    let a ← x.value
    let b ← y.value
    ofInt? w (op a.toInt b.toInt)

instance : Add (IntExpr w) :=
  ⟨checked (· + ·)⟩

instance : Sub (IntExpr w) :=
  ⟨checked (· - ·)⟩

instance : Mul (IntExpr w) :=
  ⟨checked (· * ·)⟩

instance : Div (IntExpr w) :=
  ⟨fun x y =>
    if y.value = some 0 then ⟨none⟩ else checked Int.tdiv x y⟩

/-- The expression is computed without overflow, with this result. -/
def HasValue (x : IntExpr w) (n : Int) : Prop :=
  ∃ v : BitVec w, x.value = some v ∧ v.toInt = n

theorem value_eq_some_iff
    (x : IntExpr w) (v : BitVec w) :
    x.value = some v ↔ x.HasValue v.toInt := by
  constructor
  · intro hvalue
    exact ⟨v, hvalue, rfl⟩
  · rintro ⟨v', hvalue, heq⟩
    rw [hvalue, BitVec.eq_of_toInt_eq heq]

theorem ofInt?_hasValue
    [NeZero w] (m n : Int) :
    (⟨ofInt? w m⟩ : IntExpr w).HasValue n ↔ m = n ∧ InRange w n := by
  have hw := Nat.pos_of_neZero w
  constructor
  · rintro ⟨v, hvalue, rfl⟩
    simp only [ofInt?] at hvalue
    split at hvalue
    · rename_i hrange
      cases hvalue
      rw [BitVec.toInt_ofInt_eq_self hw hrange.1 hrange.2]
      exact ⟨rfl, hrange⟩
    · cases hvalue
  · rintro ⟨rfl, hrange⟩
    exact ⟨BitVec.ofInt w m, if_pos hrange,
      BitVec.toInt_ofInt_eq_self hw hrange.1 hrange.2⟩

@[simp] theorem coe_hasValue
    (v : BitVec w) (n : Int) :
    (v : IntExpr w).HasValue n ↔ v.toInt = n := by
  constructor
  · rintro ⟨v', hvalue, rfl⟩
    rw [Option.some.inj hvalue]
  · intro hv
    exact ⟨v, rfl, hv⟩

@[simp] theorem ofNat_hasValue
    [NeZero w] (k : Nat) (n : Int) :
    (no_index (OfNat.ofNat k) : IntExpr w).HasValue n ↔
      ((OfNat.ofNat k : Nat) : Int) = n ∧ InRange w n :=
  ofInt?_hasValue k n

theorem checked_hasValue
    [NeZero w] (op : Int → Int → Int) (x y : IntExpr w) (n : Int) :
    (checked op x y).HasValue n ↔
      ∃ a b, x.HasValue a ∧ y.HasValue b ∧ op a b = n ∧ InRange w n := by
  constructor
  · rintro ⟨v, hvalue, rfl⟩
    obtain ⟨a, ha, b, hb, hop⟩ :
        ∃ a, x.value = some a ∧ ∃ b, y.value = some b ∧
          ofInt? w (op a.toInt b.toInt) = some v := by
      simpa only [checked, Option.bind_eq_bind, Option.bind_eq_some_iff]
        using hvalue
    have hexact := (ofInt?_hasValue (op a.toInt b.toInt) v.toInt).mp
      ⟨v, hop, rfl⟩
    exact ⟨a.toInt, b.toInt, ⟨a, ha, rfl⟩, ⟨b, hb, rfl⟩, hexact⟩
  · rintro ⟨_, _, ⟨a, ha, rfl⟩, ⟨b, hb, rfl⟩, hexact⟩
    obtain ⟨v, hvalue, hv⟩ := (ofInt?_hasValue _ n).mpr hexact
    refine ⟨v, ?_, hv⟩
    simp only [checked, ha, hb, Option.bind_eq_bind, Option.bind_some, hvalue]

@[simp] theorem add_hasValue
    [NeZero w] (x y : IntExpr w) (n : Int) :
    (x + y).HasValue n ↔
      ∃ a b, x.HasValue a ∧ y.HasValue b ∧ a + b = n ∧ InRange w n :=
  checked_hasValue _ x y n

@[simp] theorem sub_hasValue
    [NeZero w] (x y : IntExpr w) (n : Int) :
    (x - y).HasValue n ↔
      ∃ a b, x.HasValue a ∧ y.HasValue b ∧ a - b = n ∧ InRange w n :=
  checked_hasValue _ x y n

@[simp] theorem mul_hasValue
    [NeZero w] (x y : IntExpr w) (n : Int) :
    (x * y).HasValue n ↔
      ∃ a b, x.HasValue a ∧ y.HasValue b ∧ a * b = n ∧ InRange w n :=
  checked_hasValue _ x y n

@[simp] theorem div_hasValue
    [NeZero w] (x y : IntExpr w) (n : Int) :
    (x / y).HasValue n ↔
      ∃ a b, x.HasValue a ∧ y.HasValue b ∧ b ≠ 0 ∧ a.tdiv b = n ∧
        InRange w n := by
  change (if y.value = some 0 then (⟨none⟩ : IntExpr w)
    else checked Int.tdiv x y).HasValue n ↔ _
  split
  · rename_i hzero
    constructor
    · rintro ⟨v, hvalue, -⟩
      cases hvalue
    · rintro ⟨a, b, -, ⟨v, hvalue, rfl⟩, hne, -⟩
      rw [hzero] at hvalue
      cases hvalue
      exact absurd BitVec.toInt_zero hne
  · rename_i hne
    rw [checked_hasValue]
    constructor
    · rintro ⟨a, b, ha, hb, hdiv, hrange⟩
      refine ⟨a, b, ha, hb, ?_, hdiv, hrange⟩
      rintro rfl
      obtain ⟨v, hvalue, hv⟩ := hb
      rw [← BitVec.toInt_zero (w := w)] at hv
      exact hne (hvalue.trans (congrArg some (BitVec.eq_of_toInt_eq hv)))
    · rintro ⟨a, b, ha, hb, -, hdiv, hrange⟩
      exact ⟨a, b, ha, hb, hdiv, hrange⟩

end IntExpr

end CheckedInt
