import Mathlib.Logic.Equiv.Basic
import Mathlib.Order.Antisymmetrization
import Mathlib.Order.BoundedOrder.Lattice

/-!
# Binary heaps in an array

The tree of a binary heap is implicit in the positions of an array: the parent
of the position `i` is `(i - 1) / 2`.  The keys are a function of the position
into a linear order, with the greatest element at the positions that are not in
use, so no bound has to be carried along.

A sift moves one key towards its place.  On the way the order fails at that key
only: against its parent while it moves up, against its children while it moves
down.  Either way an exchange moves the failure, and where it does not fail the
heap is ordered.
-/

namespace ImplicitHeap

universe u

section ImplicitHeap

variable {L : Type u}

def parent (i : Nat) : Nat :=
  (i - 1) / 2

theorem parent_lt
    {i : Nat} (hi : 0 < i) :
    parent i < i := by
  unfold parent
  omega

theorem parent_eq_iff
    {i p : Nat} (hi : 0 < i) :
    parent i = p ↔ i = 2 * p + 1 ∨ i = 2 * p + 2 := by
  unfold parent
  omega

/-- The keys with those at two positions exchanged. -/
def exchange (f : Nat → L) (i j : Nat) : Nat → L :=
  fun k => f (Equiv.swap i j k)

@[simp] theorem exchange_left
    (f : Nat → L) (i j : Nat) :
    exchange f i j i = f j := by
  simp [exchange]

@[simp] theorem exchange_right
    (f : Nat → L) (i j : Nat) :
    exchange f i j j = f i := by
  simp [exchange]

theorem exchange_of_ne
    (f : Nat → L) {i j k : Nat} (hi : k ≠ i) (hj : k ≠ j) :
    exchange f i j k = f k := by
  simp [exchange, Equiv.swap_apply_of_ne_of_ne hi hj]

variable [LinearOrder L]
variable {f : Nat → L}

/-- Every key is at least its parent's. -/
def Ordered (f : Nat → L) : Prop :=
  ∀ i, 0 < i → f (parent i) ≤ f i

/-- The root of an ordered heap has the least key. -/
theorem Ordered.root_le
    (hf : Ordered f) (i : Nat) :
    f 0 ≤ f i := by
  induction i using Nat.strongRecOn with
  | ind i ih =>
      rcases Nat.eq_zero_or_pos i with rfl | hi
      · exact le_refl _
      · exact (ih (parent i) (parent_lt hi)).trans (hf i hi)

/-- The order fails at most between `hole` and its parent. -/
structure OrderedAbove (f : Nat → L) (hole : Nat) : Prop where
  off : ∀ i, 0 < i → i ≠ hole → f (parent i) ≤ f i
  grand :
    ∀ i, 0 < i → parent i = hole → 0 < hole →
      f (parent hole) ≤ f i

theorem OrderedAbove.ordered
    {hole : Nat} (hf : OrderedAbove f hole)
    (hhole : 0 < hole → f (parent hole) ≤ f hole) :
    Ordered f := by
  intro i hi
  by_cases hih : i = hole
  · subst hih
    exact hhole hi
  · exact hf.off i hi hih

theorem OrderedAbove.exchange
    {hole : Nat} (hf : OrderedAbove f hole)
    (hhole : 0 < hole) (hle : f hole ≤ f (parent hole)) :
    OrderedAbove (exchange f hole (parent hole)) (parent hole) where
  off := by
    intro i hi hip
    have hlt := parent_lt hi
    by_cases hih : i = hole
    · subst hih
      simpa using hle
    · rw [exchange_of_ne f hih hip]
      by_cases hph : parent i = hole
      · rw [hph, exchange_left]
        exact hf.grand i hi hph hhole
      · by_cases hpp : parent i = parent hole
        · rw [hpp, exchange_right]
          have hoff := hf.off i hi hih
          rw [hpp] at hoff
          exact hle.trans hoff
        · rw [exchange_of_ne f hph hpp]
          exact hf.off i hi hih
  grand := by
    intro i hi hip hp
    have hlt := parent_lt hhole
    have hltp := parent_lt hp
    have hlti := parent_lt hi
    have hup := hf.off (parent hole) hp (Nat.ne_of_lt hlt)
    rw [exchange_of_ne f (by omega) (Nat.ne_of_lt hltp)]
    by_cases hih : i = hole
    · subst hih
      rw [exchange_left]
      exact hup
    · rw [exchange_of_ne f hih (by omega)]
      have hoff := hf.off i hi hih
      rw [hip] at hoff
      exact hup.trans hoff

/-- A key put at the end of an ordered heap. -/
theorem Ordered.place_last
    [OrderTop L] (hf : Ordered f)
    {n : Nat} (hlast : ∀ i, n ≤ i → f i = ⊤) (x : L) :
    OrderedAbove (Function.update f n x) n where
  off := by
    intro i hi hin
    rw [Function.update_of_ne hin]
    by_cases hpn : parent i = n
    · have hlt := parent_lt hi
      rw [hlast i (by omega)]
      exact le_top
    · rw [Function.update_of_ne hpn]
      exact hf i hi
  grand := by
    intro i hi hin _
    have hlt := parent_lt hi
    rw [Function.update_of_ne (by omega : i ≠ n), hlast i (by omega)]
    exact le_top

/-- The order fails at most between `hole` and its children. -/
structure OrderedBelow (f : Nat → L) (hole : Nat) : Prop where
  off : ∀ i, 0 < i → parent i ≠ hole → f (parent i) ≤ f i
  grand :
    ∀ i, 0 < i → parent i = hole → 0 < hole →
      f (parent hole) ≤ f i

theorem OrderedBelow.ordered
    {hole : Nat} (hf : OrderedBelow f hole)
    (hhole : ∀ i, 0 < i → parent i = hole → f hole ≤ f i) :
    Ordered f := by
  intro i hi
  by_cases hih : parent i = hole
  · rw [hih]
    exact hhole i hi hih
  · exact hf.off i hi hih

/-- The exchange is with the child that has the least key. -/
theorem OrderedBelow.exchange
    {hole child : Nat} (hf : OrderedBelow f hole)
    (hchild : 0 < child) (hparent : parent child = hole)
    (hle : f child ≤ f hole)
    (hleast : ∀ i, 0 < i → parent i = hole → f child ≤ f i) :
    OrderedBelow (exchange f hole child) child where
  off := by
    intro i hi hic
    have hlt := parent_lt hchild
    have hlti := parent_lt hi
    by_cases hph : parent i = hole
    · rw [hph, exchange_left]
      by_cases hi' : i = child
      · subst hi'
        simpa using hle
      · rw [exchange_of_ne f (by omega) hi']
        exact hleast i hi hph
    · rw [exchange_of_ne f hph hic]
      by_cases hih : i = hole
      · subst hih
        rw [exchange_left]
        exact hf.grand child hchild hparent hi
      · have hi' : i ≠ child := by
          rintro rfl
          exact hph hparent
        rw [exchange_of_ne f hih hi']
        exact hf.off i hi hph
  grand := by
    intro i hi hic _
    have hlt := parent_lt hchild
    have hlti := parent_lt hi
    rw [hparent, exchange_left, exchange_of_ne f (by omega) (by omega)]
    have hoff := hf.off i hi (by omega)
    rw [hic] at hoff
    exact hoff

/-- A key put at the root of an ordered heap. -/
theorem Ordered.place_root
    (hf : Ordered f) (x : L) :
    OrderedBelow (Function.update f 0 x) 0 where
  off := by
    intro i hi hpi
    rw [Function.update_of_ne hpi, Function.update_of_ne (Nat.ne_of_gt hi)]
    exact hf i hi
  grand := by
    intro i _ _ hlt
    exact absurd hlt (Nat.lt_irrefl 0)

/-- The last key of an ordered heap taken away. -/
theorem Ordered.drop_last
    [OrderTop L] (hf : Ordered f)
    {n : Nat} (hlast : ∀ i, n < i → f i = ⊤) :
    Ordered (Function.update f n ⊤) := by
  intro i hi
  have hlt := parent_lt hi
  by_cases hin : i = n
  · rw [hin, Function.update_self]
    exact le_top
  · rw [Function.update_of_ne hin]
    by_cases hpn : parent i = n
    · rw [hlast i (by omega)]
      exact le_top
    · rw [Function.update_of_ne hpn]
      exact hf i hi

end ImplicitHeap

section Keys

variable {α : Type u} (lt : α → α → Prop) [IsStrictWeakOrder α lt]

/-- Where `b` is not less than `a`, `a` may stand above `b`. -/
theorem not_lt_trans
    {a b c : α} (hab : ¬ lt b a) (hbc : ¬ lt c b) :
    ¬ lt c a := by
  intro hca
  have hba : ¬ lt a b := fun hlt => hbc (trans_of lt hca hlt)
  have hcb : ¬ lt b c := fun hlt => hab (trans_of lt hlt hca)
  exact (IsStrictWeakOrder.incomp_trans a b c ⟨hba, hab⟩ ⟨hcb, hbc⟩).2 hca

/-- The preorder whose strict part is the comparison. -/
abbrev weakPreorder : Preorder α where
  le a b := ¬ lt b a
  lt := lt
  le_refl := irrefl_of lt
  le_trans _ _ _ := not_lt_trans lt
  lt_iff_le_not_ge a b := by
    rw [not_not]
    exact ⟨fun hab => ⟨asymm_of lt hab, hab⟩, And.right⟩

/-- A strict weak order compares the values of some key. -/
theorem exists_key :
    ∃ (K : Type u) (_ : LinearOrder K) (key : α → K),
      ∀ a b, lt a b ↔ key a < key b := by
  classical
  let _ := weakPreorder lt
  have : @Std.Total α (· ≤ ·) :=
    ⟨fun a b => by
      by_cases hab : lt b a
      · exact .inr (asymm_of lt hab)
      · exact .inl hab⟩
  exact ⟨Antisymmetrization α (· ≤ ·), inferInstance,
    toAntisymmetrization (· ≤ ·), fun _ _ => Iff.rfl⟩

end Keys

end ImplicitHeap
