import Mathlib.Data.List.Basic
import Mathlib.Tactic

/-!
# Cutting a stream into frames

A consumer decides from what it has consumed how long the next frame is.  The
frames of a stream are then determined: as many as are complete are cut off
its front.  `cut` computes them; `framed_prefix_cut` says that whoever cuts
frames of the right lengths gets a first part of them, and `cut_eq_iff` that
it gets all of them exactly when no complete frame is left.
-/

namespace FrameCuts

universe u

section FrameCuts

variable {α : Type u}

/-- Frames cut off the front of `rest` after `consumed`, at most `fuel`. -/
def cutFrom (next : List α → Nat) :
    Nat → List α → List α → List (List α)
  | 0, _, _ => []
  | fuel + 1, consumed, rest =>
      if next consumed ≤ rest.length then
        rest.take (next consumed) ::
          cutFrom next fuel
            (consumed ++ rest.take (next consumed))
            (rest.drop (next consumed))
      else
        []

/-- The frames that a stream holds. -/
def cut (next : List α → Nat) (stream : List α) : List (List α) :=
  cutFrom next stream.length [] stream

/-- Every frame has the length that is due after `consumed` and the frames in
front of it. -/
def FramedFrom (next : List α → Nat) :
    List α → List (List α) → Prop
  | _, [] => True
  | consumed, frame :: frames =>
      frame.length = next consumed ∧
        FramedFrom next (consumed ++ frame) frames

/-- Every frame has the length that is due. -/
def Framed (next : List α → Nat) (frames : List (List α)) : Prop :=
  FramedFrom next [] frames

theorem framedFrom_concat
    (next : List α → Nat)
    (consumed : List α)
    (frames : List (List α))
    (frame : List α) :
    FramedFrom next consumed (frames ++ [frame]) ↔
      FramedFrom next consumed frames ∧
        frame.length = next (consumed ++ frames.flatten) := by
  induction frames generalizing consumed with
  | nil =>
      simp [FramedFrom]
  | cons f frames ih =>
      simp only [List.cons_append, FramedFrom]
      rw [ih, List.flatten_cons, List.append_assoc, and_assoc]

/-- One more frame of the length that is due. -/
theorem framed_concat
    (next : List α → Nat)
    (frames : List (List α))
    (frame : List α) :
    Framed next (frames ++ [frame]) ↔
      Framed next frames ∧ frame.length = next frames.flatten := by
  unfold Framed
  rw [framedFrom_concat, List.nil_append]

theorem cutFrom_of_framed
    {next : List α → Nat}
    (hnext : ∀ consumed, 1 ≤ next consumed)
    {consumed tail : List α}
    {frames : List (List α)}
    {fuel : Nat}
    (hframes : FramedFrom next consumed frames)
    (hfuel : (frames.flatten ++ tail).length ≤ fuel) :
    frames <+: cutFrom next fuel consumed (frames.flatten ++ tail) ∧
    (tail.length < next (consumed ++ frames.flatten) ↔
      cutFrom next fuel consumed (frames.flatten ++ tail) =
        frames) := by
  induction frames generalizing consumed fuel with
  | nil =>
      refine ⟨List.nil_prefix, ?_⟩
      rw [List.flatten_nil, List.nil_append, List.append_nil] at *
      cases fuel with
      | zero =>
          have hpos := hnext consumed
          simp only [cutFrom, iff_true]
          omega
      | succ fuel =>
          simp only [cutFrom]
          split
          · simp only [reduceCtorEq, iff_false]
            omega
          · simp only [iff_true]
            omega
  | cons frame frames ih =>
      obtain ⟨hlen, hrest⟩ := hframes
      have hpos := hnext consumed
      rw [List.flatten_cons, List.append_assoc] at hfuel ⊢
      rw [List.length_append] at hfuel
      cases fuel with
      | zero =>
          omega
      | succ fuel =>
          have htake :
              (frame ++ (frames.flatten ++ tail)).take
                (next consumed) = frame := by
            rw [← hlen, List.take_left]
          have hdrop :
              (frame ++ (frames.flatten ++ tail)).drop
                (next consumed) = frames.flatten ++ tail := by
            rw [← hlen, List.drop_left]
          have hle :
              next consumed ≤
                (frame ++ (frames.flatten ++ tail)).length := by
            rw [List.length_append]
            omega
          have hfuel' :
              (frames.flatten ++ tail).length ≤ fuel := by
            omega
          obtain ⟨hpre, hiff⟩ := ih hrest hfuel'
          simp only [cutFrom]
          rw [if_pos hle, htake, hdrop]
          refine ⟨?_, ?_⟩
          · rw [List.prefix_cons_inj]
            exact hpre
          · rw [List.cons.injEq]
            rw [← List.append_assoc, hiff]
            simp

/-- Frames of the right lengths are the first frames of the stream. -/
theorem framed_prefix_cut
    {next : List α → Nat}
    (hnext : ∀ consumed, 1 ≤ next consumed)
    {frames : List (List α)}
    (hframes : Framed next frames)
    (tail : List α) :
    frames <+: cut next (frames.flatten ++ tail) :=
  (cutFrom_of_framed hnext hframes (Nat.le_refl _)).1

/-- They are all its frames exactly when what is left is shorter than the
frame that is due. -/
theorem cut_eq_iff
    {next : List α → Nat}
    (hnext : ∀ consumed, 1 ≤ next consumed)
    {frames : List (List α)}
    (hframes : Framed next frames)
    (tail : List α) :
    tail.length < next frames.flatten ↔
      cut next (frames.flatten ++ tail) = frames :=
  (cutFrom_of_framed hnext hframes (Nat.le_refl _)).2

end FrameCuts

end FrameCuts
