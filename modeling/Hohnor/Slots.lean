import Mathlib.Data.List.Perm.Basic

/-!
# One slot of a table

A table is a list that is read and written by position.  The lemmas compare
what a table holds, up to order, with what it holds after one slot has been
written or taken out.
-/

namespace Slots

universe u v

section Slots

variable {α : Type u} {β : Type v}
variable {l : List α} {i : Nat} {a : α}

theorem perm_of_get
    (hget : l[i]? = some a) :
    l.Perm (a :: l.eraseIdx i) := by
  obtain ⟨hi, rfl⟩ := List.getElem?_eq_some_iff.mp hget
  exact (List.getElem_cons_eraseIdx_perm hi).symm

theorem perm_of_set
    (hget : l[i]? = some a) (b : α) :
    (l.set i b).Perm (b :: l.eraseIdx i) := by
  obtain ⟨hi, rfl⟩ := List.getElem?_eq_some_iff.mp hget
  exact List.set_perm_cons_eraseIdx hi b

/-- The slots with `p` before and after the write. -/
theorem countP_set
    (hget : l[i]? = some a) (p : α → Bool) (b : α) :
    (l.set i b).countP p + (p a).toNat = l.countP p + (p b).toNat := by
  rw [(perm_of_set hget b).countP_eq, (perm_of_get hget).countP_eq]
  rw [List.countP_cons, List.countP_cons]
  cases p a <;> cases p b <;> simp

theorem filterMap_cons_eq
    (f : α → Option β) (a : α) (l : List α) :
    (a :: l).filterMap f = (f a).toList ++ l.filterMap f := by
  rw [List.filterMap_cons]
  cases f a <;> rfl

theorem filterMap_middle
    (f : α → Option β) (before : List α) (a : α) (after : List α) :
    ((before ++ a :: after).filterMap f).Perm
      ((f a).toList ++ (before ++ after).filterMap f) := by
  rw [← filterMap_cons_eq]
  exact List.perm_middle.filterMap f

/-- What `f` finds in the written slot and in the others. -/
theorem filterMap_get
    (hget : l[i]? = some a) (f : α → Option β) :
    (l.filterMap f).Perm
      ((f a).toList ++ (l.eraseIdx i).filterMap f) := by
  rw [← filterMap_cons_eq]
  exact (perm_of_get hget).filterMap f

theorem filterMap_set
    (hget : l[i]? = some a) (f : α → Option β) (b : α) :
    ((l.set i b).filterMap f).Perm
      ((f b).toList ++ (l.eraseIdx i).filterMap f) := by
  rw [← filterMap_cons_eq]
  exact (perm_of_set hget b).filterMap f

end Slots

end Slots
