import Hohnor.BlockingQueues

/-!
# No thread sleeps while it could go on

put() and take() signal one thread each.  As long as a consumer waits, the
items in the queue are not more than the consumers that have been signalled
and have yet to look; the same holds of producers and free places.  A thread
that is woken too early, or too late for its item, goes back to its wait only
from an empty queue (or a full one), and giveUp() wakes all.

`queues_lose_no_wake_up` says so for both queues.
-/

namespace Hohnor

open ConditionVariables TransitionRuns

section QueueWakeUps

variable {θ T : Type} [Inhabited T]

/-- The thread of the step goes to wait. -/
def QueueEvent.waits : QueueEvent θ T → Bool
  | .put _ _ .waits => true
  | .take _ .waits => true
  | _ => false

namespace BoundedBlockingQueue

def freePlaces (q : BoundedBlockingQueue θ T) : Nat :=
  q.queue_.max_size - 1 - q.queue_.size

structure NoLostWakeUp (q : BoundedBlockingQueue θ T) : Prop where
  consumers : q.notEmpty_.Covers q.queue_.size
  producers : q.notFull_.Covers q.freePlaces
  ended :
    q.end_ = true → q.notEmpty_.waiting = [] ∧ q.notFull_.waiting = []

theorem create_noLostWakeUp
    (maxSize : Nat) :
    (create maxSize : BoundedBlockingQueue θ T).NoLostWakeUp where
  consumers := CondVar.covers_empty _
  producers := CondVar.covers_empty _
  ended := fun _ => ⟨rfl, rfl⟩

omit [Inhabited T] in
/-- A new item takes one free place. -/
theorem sizes_of_enqueue
    {b b' : CircularBuffer T} {x : T} (henqueue : b.enqueue x = some b') :
    b'.size = b.size + 1 ∧
      b'.max_size - 1 - b'.size = b.max_size - 1 - b.size - 1 := by
  rcases b.enqueue_spec x with ⟨_, hnone⟩ | ⟨_, b₁, hb₁, hcontent, hroom⟩
  · rw [henqueue] at hnone
    cases hnone
  · rw [henqueue] at hb₁
    cases hb₁
    have hsize : b'.size = b.size + 1 := by
      rw [← CircularBuffer.length_content, hcontent,
        List.length_append, CircularBuffer.length_content]
      rfl
    refine ⟨hsize, ?_⟩
    rw [hsize, hroom]
    omega

theorem sizes_of_dequeue
    {b b' : CircularBuffer T} {x : T}
    (hdequeue : b.dequeue default = some (x, b')) :
    b'.size = b.size - 1 ∧
      b'.max_size - 1 - b'.size = b.max_size - 1 - b.size + 1 := by
  rcases b.dequeue_spec default with
    ⟨_, hnone⟩ | ⟨_, x₁, b₁, hb₁, hcontent, hroom⟩
  · rw [hdequeue] at hnone
    cases hnone
  · rw [hdequeue] at hb₁
    cases hb₁
    have hsize : b.size = b'.size + 1 := by
      rw [← CircularBuffer.length_content, hcontent,
        List.length_cons, CircularBuffer.length_content]
    have hlt := b.size_lt
    refine ⟨by omega, ?_⟩
    rw [hroom]
    omega

omit [Inhabited T] in
/-- A put, of a new thread or of one that has just left its wait. -/
theorem put_noLostWakeUp
    {q q' : BoundedBlockingQueue θ T} {t : θ} {x : T} {pick : Nat}
    {r : PutResult}
    (hconsumers : q.notEmpty_.Covers q.queue_.size)
    (hproducers : q.notFull_.Covers (q.freePlaces - 1))
    (hended :
      q.end_ = true →
        q.notEmpty_.waiting = [] ∧ q.notFull_.waiting = [])
    (hput : q.put t x pick = some (r, q')) :
    q'.NoLostWakeUp := by
  rcases put_cases hput with
    ⟨_, hfull, hend, rfl⟩ | ⟨_, hend, rfl⟩ | ⟨_, hend, b, hb, rfl⟩
  · refine ⟨hconsumers, ?_, ?_⟩
    · have hnone : q.freePlaces = 0 := by
        have hsize := q.queue_.full_iff.mp hfull
        rw [freePlaces]
        omega
      intro _
      change q.freePlaces ≤ _
      rw [hnone]
      exact Nat.zero_le _
    · intro hended'
      exact absurd (hend.symm.trans hended') Bool.false_ne_true
  · refine ⟨hconsumers, ?_, hended⟩
    intro hne
    exact absurd (hended hend).2 hne
  · obtain ⟨hsize, hfree⟩ := sizes_of_enqueue hb
    refine ⟨?_, ?_, ?_⟩
    · simp only [hsize]
      exact hconsumers.notify pick
    · rw [freePlaces, hfree]
      exact hproducers
    · intro hended'
      exact absurd (hend.symm.trans hended') Bool.false_ne_true

/-- A take, of a new thread or of one that has just left its wait. -/
theorem take_noLostWakeUp
    {q q' : BoundedBlockingQueue θ T} {t : θ} {pick : Nat}
    {r : TakeResult T}
    (hconsumers : q.notEmpty_.Covers (q.queue_.size - 1))
    (hproducers : q.notFull_.Covers q.freePlaces)
    (hended :
      q.end_ = true →
        q.notEmpty_.waiting = [] ∧ q.notFull_.waiting = [])
    (htake : q.take t pick = some (r, q')) :
    q'.NoLostWakeUp := by
  rcases take_cases htake with
    ⟨_, hempty, hend, rfl⟩ | ⟨_, hend, rfl⟩ | ⟨hend, x, b, _, hb, rfl⟩
  · refine ⟨?_, hproducers, ?_⟩
    · simp only [q.queue_.empty_iff.mp hempty]
      exact CondVar.covers_zero _
    · intro hended'
      exact absurd (hend.symm.trans hended') Bool.false_ne_true
  · refine ⟨?_, hproducers, hended⟩
    intro hne
    exact absurd (hended hend).1 hne
  · obtain ⟨hsize, hfree⟩ := sizes_of_dequeue hb
    refine ⟨?_, ?_, ?_⟩
    · simp only [hsize]
      exact hconsumers
    · rw [freePlaces, hfree]
      exact hproducers.notify pick
    · intro hended'
      exact absurd (hend.symm.trans hended') Bool.false_ne_true

theorem perform_noLostWakeUp
    {q q' : BoundedBlockingQueue θ T} {l : QueueStep θ T}
    {e : QueueEvent θ T} (hq : q.NoLostWakeUp)
    (hperform : q.perform l = some (e, q')) :
    q'.NoLostWakeUp := by
  cases perform_cases hperform with
  | put hput =>
      exact put_noLostWakeUp hq.consumers
        (hq.producers.mono (Nat.sub_le _ 1)) hq.ended hput
  | @putAgain wake i pick t x v r q' hresume hput =>
      refine put_noLostWakeUp (q := { q with notFull_ := v })
        hq.consumers (hq.producers.resume hresume) ?_ hput
      intro hend
      exact ⟨(hq.ended hend).1,
        (CondVar.resume_waiting hresume).trans (hq.ended hend).2⟩
  | rousePut hrouse =>
      refine ⟨hq.consumers, hq.producers.rouse hrouse, ?_⟩
      intro hend
      rw [CondVar.rouse_waiting (hq.ended hend).2] at hrouse
      cases hrouse
  | take htake =>
      exact take_noLostWakeUp (hq.consumers.mono (Nat.sub_le _ 1))
        hq.producers hq.ended htake
  | @takeAgain wake i pick t v r q' hresume htake =>
      refine take_noLostWakeUp (q := { q with notEmpty_ := v })
        (hq.consumers.resume hresume) hq.producers ?_ htake
      intro hend
      exact ⟨(CondVar.resume_waiting hresume).trans (hq.ended hend).1,
        (hq.ended hend).2⟩
  | rouseTake hrouse =>
      refine ⟨hq.consumers.rouse hrouse, hq.producers, ?_⟩
      intro hend
      rw [CondVar.rouse_waiting (hq.ended hend).1] at hrouse
      cases hrouse
  | giveUp =>
      exact ⟨fun hne => absurd rfl hne, fun hne => absurd rfl hne,
        fun _ => ⟨rfl, rfl⟩⟩

theorem waits_of_refused
    {e : QueueEvent θ T} (he : e.Refused) :
    e.waits = false := by
  cases e with
  | put t x r =>
      cases he
      rfl
  | take t r =>
      cases he
      rfl
  | silent =>
      rfl

end BoundedBlockingQueue

namespace BlockingQueue

structure NoLostWakeUp (q : BlockingQueue θ T) : Prop where
  consumers : q.notEmpty_.Covers q.queue_.length
  ended : q.end_ = true → q.notEmpty_.waiting = []

/-- The three ends of take(); the queue is never empty in the last one. -/
theorem take_cases
    {q q' : BlockingQueue θ T} {t : θ} {r : TakeResult T}
    (htake : q.take t = some (r, q')) :
    (r = .waits ∧ q.queue_ = [] ∧ q.end_ = false ∧
        q' = { q with notEmpty_ := q.notEmpty_.wait t }) ∨
      (r = .returned default ∧ q.end_ = true ∧ q' = q) ∨
      (q.end_ = false ∧
        ∃ x rest, r = .returned x ∧ q.queue_ = x :: rest ∧
          q' = { q with queue_ := rest }) := by
  rw [take] at htake
  split at htake
  · rename_i hempty
    rw [Bool.and_eq_true, Bool.not_eq_true', List.isEmpty_iff] at hempty
    cases htake
    exact Or.inl ⟨rfl, hempty.1, hempty.2, rfl⟩
  · split at htake
    · rename_i hend
      cases htake
      exact Or.inr (Or.inl ⟨rfl, hend, rfl⟩)
    · rename_i hend
      split at htake
      · cases htake
      · rename_i x rest hqueue
        cases htake
        exact Or.inr (Or.inr
          ⟨by simpa using hend, x, rest, rfl, hqueue, rfl⟩)

theorem take_noLostWakeUp
    {q q' : BlockingQueue θ T} {t : θ} {r : TakeResult T}
    (hconsumers : q.notEmpty_.Covers (q.queue_.length - 1))
    (hended : q.end_ = true → q.notEmpty_.waiting = [])
    (htake : q.take t = some (r, q')) :
    q'.NoLostWakeUp := by
  rcases take_cases htake with
    ⟨_, hempty, hend, rfl⟩ | ⟨_, hend, rfl⟩ |
      ⟨hend, x, rest, _, hqueue, rfl⟩
  · refine ⟨?_, ?_⟩
    · simp only [hempty]
      exact CondVar.covers_zero _
    · intro hended'
      exact absurd (hend.symm.trans hended') Bool.false_ne_true
  · exact ⟨fun hne => absurd (hended hend) hne, hended⟩
  · refine ⟨?_, hended⟩
    rw [hqueue, List.length_cons, Nat.add_sub_cancel] at hconsumers
    exact hconsumers

/-- What a step is; nobody waits to put. -/
inductive Performs (q : BlockingQueue θ T) :
    QueueEvent θ T → BlockingQueue θ T → Prop
  | put {t x pick} :
      Performs q (.put t x .added) (q.put x pick)
  | take {t r q'} (htake : q.take t = some (r, q')) :
      Performs q (.take t r) q'
  | takeAgain {wake i t v r q'}
      (hresume : q.notEmpty_.resume wake i = some (t, v))
      (htake :
        BlockingQueue.take { q with notEmpty_ := v } t = some (r, q')) :
      Performs q (.take t r) q'
  | rouseTake {i v} (hrouse : q.notEmpty_.rouse i = some v) :
      Performs q .silent { q with notEmpty_ := v }
  | giveUp :
      Performs q .silent q.giveUp

theorem perform_cases
    {q q' : BlockingQueue θ T} {l : QueueStep θ T} {e : QueueEvent θ T}
    (hperform : q.perform l = some (e, q')) :
    Performs q e q' := by
  cases l with
  | put t x pick =>
      cases hperform
      exact .put
  | putAgain wake i pick =>
      cases hperform
  | rousePut i =>
      cases hperform
  | take t pick =>
      obtain ⟨p, hp, heq⟩ := Option.map_eq_some_iff.mp hperform
      cases heq
      exact .take hp
  | takeAgain wake i pick =>
      obtain ⟨r, hr, hbody⟩ := Option.bind_eq_some_iff.mp hperform
      obtain ⟨p, hp, heq⟩ := Option.map_eq_some_iff.mp hbody
      cases heq
      exact .takeAgain hr hp
  | rouseTake i =>
      obtain ⟨v, hv, heq⟩ := Option.map_eq_some_iff.mp hperform
      cases heq
      exact .rouseTake hv
  | giveUp =>
      cases hperform
      exact .giveUp

theorem perform_noLostWakeUp
    {q q' : BlockingQueue θ T} {l : QueueStep θ T}
    {e : QueueEvent θ T} (hq : q.NoLostWakeUp)
    (hperform : q.perform l = some (e, q')) :
    q'.NoLostWakeUp := by
  cases perform_cases hperform with
  | @put t x pick =>
      refine ⟨?_, ?_⟩
      · simp only [put, List.length_append, List.length_singleton]
        exact hq.consumers.notify pick
      · intro hend
        exact CondVar.notify_waiting (hq.ended hend) pick
  | take htake =>
      exact take_noLostWakeUp (hq.consumers.mono (Nat.sub_le _ 1))
        hq.ended htake
  | @takeAgain wake i t v r q' hresume htake =>
      refine take_noLostWakeUp (q := { q with notEmpty_ := v })
        (hq.consumers.resume hresume) ?_ htake
      intro hend
      exact (CondVar.resume_waiting hresume).trans (hq.ended hend)
  | rouseTake hrouse =>
      refine ⟨hq.consumers.rouse hrouse, ?_⟩
      intro hend
      rw [CondVar.rouse_waiting (hq.ended hend)] at hrouse
      cases hrouse
  | giveUp =>
      exact ⟨fun hne => absurd rfl hne, fun _ => rfl⟩

end BlockingQueue

end QueueWakeUps

end Hohnor
