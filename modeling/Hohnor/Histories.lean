import Mathlib.Data.List.Basic

/-!
# What has happened in a history

A history is a list of events, the latest one last.  `Since P q` is the
past-time operator: an event with `P` has happened, and every event after it
had `q`.  `P` also sees what had happened before its event, so the operator
nests.

`since_concat` says how one more event changes it, which is what an induction
over the steps of a run needs.
-/

namespace Histories

universe u

section Histories

variable {α : Type u}

/-- An event with `P` has happened, and since then only events with `q`. -/
def Since
    (P : List α → α → Prop) (q : α → Prop) (history : List α) : Prop :=
  ∃ before a after,
    history = before ++ a :: after ∧ P before a ∧ ∀ b ∈ after, q b

theorem not_since_nil
    (P : List α → α → Prop) (q : α → Prop) :
    ¬ Since P q [] := by
  rintro ⟨before, a, after, hsplit, _⟩
  simp at hsplit

/-- One more event: it is the one with `P`, or one of those after it. -/
theorem since_concat
    (P : List α → α → Prop) (q : α → Prop)
    (history : List α) (a : α) :
    Since P q (history ++ [a]) ↔
      P history a ∨ (q a ∧ Since P q history) := by
  constructor
  · rintro ⟨before, b, after, hsplit, hP, hq⟩
    rcases List.eq_nil_or_concat' after with rfl | ⟨after', c, rfl⟩
    · obtain ⟨rfl, hba⟩ := List.append_inj' hsplit rfl
      obtain ⟨rfl, _⟩ := List.cons.inj hba
      exact Or.inl hP
    · have hsplit' :
          history ++ [a] = (before ++ b :: after') ++ [c] := by
        rw [hsplit, List.append_assoc, List.cons_append]
      obtain ⟨rfl, hca⟩ := List.append_inj' hsplit' rfl
      obtain ⟨rfl, _⟩ := List.cons.inj hca
      refine Or.inr ⟨hq a (by simp), before, b, after', rfl, hP, ?_⟩
      intro d hd
      exact hq d (List.mem_append_left _ hd)
  · rintro (hP | ⟨hqa, before, b, after, rfl, hP, hq⟩)
    · exact ⟨history, a, [], rfl, hP, by simp⟩
    · refine ⟨before, b, after ++ [a], by simp, hP, ?_⟩
      intro d hd
      rcases List.mem_append.mp hd with hd | hd
      · exact hq d hd
      · rw [List.mem_singleton.mp hd]
        exact hqa

end Histories

end Histories
