import Mathlib.Data.List.Range

/-!
# A queue that is served in batches

Elements of any type are pushed at the end of a queue.  A batch takes
everything that waits and is then served from its front, while pushes go on.
Everything that waits may be discarded.

`history` is the list of all pushes and `mark` its length when the last batch
was taken.
-/

namespace BatchQueue

universe u

section BatchQueue

variable {α : Type u}

structure Queue (α : Type u) where
  history : List α
  served : List α
  batch : List α
  waiting : List α
  mark : Nat

inductive QueueOp (α : Type u) where
  | push (x : α)
  | take
  | serve
  | discard
  | skip

namespace Queue

/-- The effect of one operation. -/
def apply (q : Queue α) : QueueOp α → Queue α
  | .push x =>
      { q with
        history := q.history ++ [x]
        waiting := q.waiting ++ [x] }
  | .take =>
      { q with
        batch := q.batch ++ q.waiting
        waiting := []
        mark := q.history.length }
  | .serve =>
      { q with
        served := q.served ++ q.batch.take 1
        batch := q.batch.drop 1 }
  | .discard => { q with waiting := [] }
  | .skip => q

/-- The elements that are not lost, in the order in which they are served. -/
def total (q : Queue α) : List α :=
  q.served ++ q.batch ++ q.waiting

/-- Serving moves the border between what is served and the batch. -/
theorem serve_border (q : Queue α) :
    (q.apply .serve).served ++ (q.apply .serve).batch =
      q.served ++ q.batch := by
  simp only [apply, List.append_assoc, List.take_append_drop]

/-- Elements are served in the order of their pushes, each at most once, and a
batch holds only what was pushed before it was taken. -/
structure Ordered (q : Queue α) : Prop where
  total : q.total.Sublist q.history
  batch : (q.served ++ q.batch).Sublist (q.history.take q.mark)
  mark : q.mark ≤ q.history.length

/-- Nothing is lost. -/
def Complete (q : Queue α) : Prop :=
  q.total = q.history

/-- An operation keeps the order. -/
theorem Ordered.apply
    {q : Queue α} (hq : q.Ordered) (op : QueueOp α) :
    (q.apply op).Ordered := by
  obtain ⟨htotal, hbatch, hmark⟩ := hq
  cases op with
  | push x =>
      constructor
      · simp only [Queue.apply, Queue.total, ← List.append_assoc]
        exact htotal.append (List.Sublist.refl [x])
      · simp only [Queue.apply, List.take_append_of_le_length hmark]
        exact hbatch
      · simp only [Queue.apply, List.length_append]
        exact Nat.le_add_right_of_le hmark
  | take =>
      constructor
      · simpa [Queue.apply, Queue.total] using htotal
      · simpa [Queue.apply, Queue.total] using htotal
      · exact Nat.le_refl q.history.length
  | serve =>
      constructor
      · rw [Queue.total, serve_border]
        exact htotal
      · rw [serve_border]
        exact hbatch
      · exact hmark
  | discard =>
      constructor
      · simp only [Queue.apply, Queue.total, List.append_nil]
        exact (List.sublist_append_left _ _).trans htotal
      · exact hbatch
      · exact hmark
  | skip =>
      exact ⟨htotal, hbatch, hmark⟩

/-- Only a discard loses elements. -/
theorem Complete.apply
    {q : Queue α} (hq : q.Complete) {op : QueueOp α}
    (hop : op ≠ .discard) :
    (q.apply op).Complete := by
  have htotal : q.total = q.history := hq
  unfold Complete
  cases op with
  | push x =>
      simp only [Queue.apply, Queue.total, ← List.append_assoc]
      rw [← htotal]
      rfl
  | take =>
      simpa [Queue.apply, Queue.total] using htotal
  | serve =>
      rw [Queue.total, serve_border]
      exact htotal
  | discard =>
      exact absurd rfl hop
  | skip =>
      exact htotal

/-- What is served was pushed before the last batch was taken. -/
theorem Ordered.served
    {q : Queue α} (hq : q.Ordered) :
    q.served.Sublist (q.history.take q.mark) :=
  (List.sublist_append_left q.served q.batch).trans hq.batch

/-- An element that was pushed and is not lost is served, in the batch or
waiting. -/
theorem Complete.mem_cases
    {q : Queue α} (hq : q.Complete) {x : α} (hx : x ∈ q.history) :
    x ∈ q.served ∨ x ∈ q.batch ∨ x ∈ q.waiting := by
  have htotal : q.total = q.history := hq
  rw [← htotal] at hx
  simpa [Queue.total, or_assoc] using hx

end Queue

end BatchQueue

end BatchQueue
