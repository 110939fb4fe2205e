import Mathlib.Data.List.Basic
import Mathlib.Data.List.Infix

/-!
# Pipelines of queues

A pipeline is a list of queues.  Elements enter at the back of the last queue,
move in order from the front of a queue to the back of the one before it, and
are done when they are in the first queue.

Moving elements loses, copies and reorders nothing: the queues one after the
other hold what went in.  It brings the elements nearer to the first queue, so
a pipeline into which nothing more goes is done after a bounded number of
moves.
-/

namespace Pipelines

universe u

section Pipelines

variable {α : Type u}

/-- Move the first `n` elements of queue `i + 1` to the back of queue `i`. -/
def shift : Nat → Nat → List (List α) → List (List α)
  | 0, n, q :: q' :: p => (q ++ q'.take n) :: q'.drop n :: p
  | i + 1, n, q :: p => q :: shift i n p
  | _, _, p => p

/-- Number of moves of a single element to the queue before it that are still
to be made. -/
def work : List (List α) → Nat
  | [] => 0
  | _ :: p => p.flatten.length + work p

theorem flatten_shift
    (i n : Nat) (p : List (List α)) :
    (shift i n p).flatten = p.flatten := by
  induction i generalizing p with
  | zero =>
      match p with
      | [] => rfl
      | [q] => rfl
      | q :: q' :: p =>
          simp only [shift, List.flatten_cons, List.append_assoc]
          rw [← List.append_assoc (q'.take n), List.take_append_drop]
  | succ i ih =>
      cases p with
      | nil => rfl
      | cons q p =>
          simp [shift, ih]

/-- Every element that is moved has one move less to make. -/
theorem work_shift
    (i n : Nat) (p : List (List α)) :
    work (shift i n p) + min n (p.getD (i + 1) []).length = work p := by
  induction i generalizing p with
  | zero =>
      match p with
      | [] => simp [shift, work]
      | [q] => simp [shift, work]
      | q :: q' :: p =>
          simp only [shift, work, List.flatten_cons, List.length_append,
            List.length_drop, List.getD_cons_succ, List.getD_cons_zero]
          omega
  | succ i ih =>
      cases p with
      | nil =>
          simp [shift, work]
      | cons q p =>
          have hrest := ih p
          simp only [shift, work, flatten_shift, List.getD_cons_succ]
          omega

theorem work_shift_le
    (i n : Nat) (p : List (List α)) :
    work (shift i n p) ≤ work p :=
  Nat.le_of_add_right_le (Nat.le_of_eq (work_shift i n p))

theorem work_shift_lt
    {i n : Nat} {p : List (List α)}
    (hn : 0 < n) (hq : p.getD (i + 1) [] ≠ []) :
    work (shift i n p) < work p := by
  have hmoved := work_shift i n p
  have hlen := List.length_pos_iff.mpr hq
  omega

end Pipelines

end Pipelines
