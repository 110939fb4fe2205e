import Mathlib.Data.List.Basic

/-!
# A channel with a backlog

The sending end of a first-in first-out channel over elements of any type.
Some elements have been delivered, the others wait in a backlog.  An offer
delivers a first part of a message at once when nothing waits, and otherwise
queues the whole message.  A drain delivers the front of the backlog.

Whatever parts are delivered, the delivered elements followed by the backlog
are the messages in the order of the offers.
-/

namespace FifoChannel

universe u

section FifoChannel

variable {α : Type u}

structure Channel (α : Type u) where
  delivered : List α
  backlog : List α

/-- Everything that went into the channel and did not leave it unsent. -/
def Channel.total (c : Channel α) : List α :=
  c.delivered ++ c.backlog

inductive ChannelOp (α : Type u) where
  | offer (n : Nat) (message : List α)
  | drain (n : Nat)
  | skip

namespace Channel

/-- The effect of one operation. -/
def apply (c : Channel α) : ChannelOp α → Channel α
  | .offer n message =>
      if c.backlog = [] then
        ⟨c.delivered ++ message.take n, message.drop n⟩
      else
        ⟨c.delivered, c.backlog ++ message⟩
  | .drain n =>
      ⟨c.delivered ++ c.backlog.take n, c.backlog.drop n⟩
  | .skip => c

end Channel

/-- The message that an operation brings in. -/
def ChannelOp.message : ChannelOp α → List α
  | .offer _ message => message
  | .drain _ => []
  | .skip => []

namespace Channel

/-- One operation adds its message at the end and loses nothing. -/
theorem total_apply
    (c : Channel α) (op : ChannelOp α) :
    (c.apply op).total = c.total ++ op.message := by
  cases op with
  | offer n message =>
      by_cases hempty : c.backlog = []
      · simp [apply, total, ChannelOp.message, hempty]
      · simp [apply, total, ChannelOp.message, hempty]
  | drain n =>
      simp [apply, total, ChannelOp.message]
  | skip =>
      simp [apply, ChannelOp.message]

theorem apply_drain_min
    (c : Channel α) (n : Nat) :
    c.apply (.drain (min n c.backlog.length)) = c.apply (.drain n) := by
  rcases Nat.le_total n c.backlog.length with hle | hle
  · rw [Nat.min_eq_left hle]
  · rw [Nat.min_eq_right hle]
    simp [apply, List.take_of_length_le hle,
      List.drop_of_length_le hle]

@[simp] theorem apply_drain_zero
    (c : Channel α) :
    c.apply (.drain 0) = c := by
  simp [apply]

theorem apply_drain_of_nil
    {c : Channel α} (hempty : c.backlog = []) (n : Nat) :
    c.apply (.drain n) = c := by
  obtain ⟨delivered, backlog⟩ := c
  obtain rfl : backlog = [] := hempty
  simp [apply]

/-- A sequence of operations adds their messages in order. -/
theorem total_foldl
    (c : Channel α) (ops : List (ChannelOp α)) :
    (ops.foldl apply c).total =
      c.total ++ (ops.map ChannelOp.message).flatten := by
  induction ops generalizing c with
  | nil =>
      simp
  | cons op ops ih =>
      rw [List.foldl_cons, ih, total_apply]
      simp

end Channel

end FifoChannel

end FifoChannel
