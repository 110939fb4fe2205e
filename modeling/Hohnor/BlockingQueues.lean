import Hohnor.CircularBuffer
import Hohnor.ConditionVariables
import Hohnor.TransitionRuns

/-!
# The blocking queues

`BoundedBlockingQueue` and `BlockingQueue` of include/hohnor/thread, for threads
of any type.  A method is what its thread does with the lock, up to its end or
to the next wait; a thread that has been woken goes through the test of its
loop again.  An exception, or a failed assertion, is the result none.

`bounded_queue_fifo` says that a bounded queue is a first-in first-out channel
between its puts and its takes.
-/

namespace Hohnor

open ConditionVariables TransitionRuns

/-- How far a put comes with the lock. -/
inductive PutResult where
  | waits
  | refused
  | added
deriving DecidableEq, Repr

inductive TakeResult (T : Type) where
  | waits
  | returned (x : T)
deriving DecidableEq, Repr

/-- A step of a thread at a queue; the other ones are inside of their waits. -/
inductive QueueStep (θ T : Type) where
  | put (t : θ) (x : T) (pick : Nat)
  | putAgain (wake : Wake) (i pick : Nat)
  | rousePut (i : Nat)
  | take (t : θ) (pick : Nat)
  | takeAgain (wake : Wake) (i pick : Nat)
  | rouseTake (i : Nat)
  | giveUp
deriving DecidableEq, Repr

/-- What has come of a step, for its thread. -/
inductive QueueEvent (θ T : Type) where
  | put (t : θ) (x : T) (result : PutResult)
  | take (t : θ) (result : TakeResult T)
  | silent
deriving DecidableEq, Repr

structure BoundedBlockingQueue (θ T : Type) where
  notEmpty_ : CondVar θ
  notFull_ : CondVar (θ × T)
  queue_ : CircularBuffer T
  end_ : Bool
deriving DecidableEq, Repr

structure BlockingQueue (θ T : Type) where
  notEmpty_ : CondVar θ
  queue_ : List T
  end_ : Bool
deriving DecidableEq, Repr

section BlockingQueues

variable {θ T : Type} [Inhabited T]

namespace BoundedBlockingQueue

def create (maxSize : Nat) : BoundedBlockingQueue θ T where
  notEmpty_ := CondVar.empty
  notFull_ := CondVar.empty
  queue_ := CircularBuffer.create maxSize
  end_ := false

def put (q : BoundedBlockingQueue θ T) (t : θ) (x : T) (pick : Nat) :
    Option (PutResult × BoundedBlockingQueue θ T) :=
  if q.queue_.full && !q.end_ then
    some (.waits, { q with notFull_ := q.notFull_.wait (t, x) })
  else if q.end_ then
    some (.refused, q)
  else
    (q.queue_.enqueue x).map fun b =>
      (.added,
        { q with
          queue_ := b
          notEmpty_ := q.notEmpty_.notify pick })

/-- The cell that is cleared is not read again before it is written; it gets the
item that the type's default constructor makes. -/
def take (q : BoundedBlockingQueue θ T) (t : θ) (pick : Nat) :
    Option (TakeResult T × BoundedBlockingQueue θ T) :=
  if q.queue_.empty && !q.end_ then
    some (.waits, { q with notEmpty_ := q.notEmpty_.wait t })
  else if q.end_ then
    some (.returned default, q)
  else
    (q.queue_.dequeue default).map fun p =>
      (.returned p.1,
        { q with
          queue_ := p.2
          notFull_ := q.notFull_.notify pick })

def giveUp (q : BoundedBlockingQueue θ T) : BoundedBlockingQueue θ T :=
  { q with
    end_ := true
    notEmpty_ := q.notEmpty_.notifyAll
    notFull_ := q.notFull_.notifyAll }

/-- The threads that are inside of a wait. -/
def parked (q : BoundedBlockingQueue θ T) : List θ :=
  q.notEmpty_.parked ++ q.notFull_.parked.map Prod.fst

def perform (q : BoundedBlockingQueue θ T) :
    QueueStep θ T → Option (QueueEvent θ T × BoundedBlockingQueue θ T)
  | .put t x pick =>
      (q.put t x pick).map fun p => (.put t x p.1, p.2)
  | .putAgain wake i pick =>
      (q.notFull_.resume wake i).bind fun r =>
        (put { q with notFull_ := r.2 } r.1.1 r.1.2 pick).map fun p =>
          (.put r.1.1 r.1.2 p.1, p.2)
  | .rousePut i =>
      (q.notFull_.rouse i).map fun v =>
        (.silent, { q with notFull_ := v })
  | .take t pick =>
      (q.take t pick).map fun p => (.take t p.1, p.2)
  | .takeAgain wake i pick =>
      (q.notEmpty_.resume wake i).bind fun r =>
        (take { q with notEmpty_ := r.2 } r.1 pick).map fun p =>
          (.take r.1 p.1, p.2)
  | .rouseTake i =>
      (q.notEmpty_.rouse i).map fun v =>
        (.silent, { q with notEmpty_ := v })
  | .giveUp => some (.silent, q.giveUp)

/-- The steps that the threads may take: a thread inside of a wait calls
nothing. -/
def admits [DecidableEq θ] (q : BoundedBlockingQueue θ T) :
    QueueStep θ T → Bool
  | .put t _ _ => decide (t ∉ q.parked)
  | .putAgain wake i _ => (q.notFull_.resume wake i).isSome
  | .rousePut i => (q.notFull_.rouse i).isSome
  | .take t _ => decide (t ∉ q.parked)
  | .takeAgain wake i _ => (q.notEmpty_.resume wake i).isSome
  | .rouseTake i => (q.notEmpty_.rouse i).isSome
  | .giveUp => true

end BoundedBlockingQueue

namespace BlockingQueue

def create : BlockingQueue θ T where
  notEmpty_ := CondVar.empty
  queue_ := []
  end_ := false

def put (q : BlockingQueue θ T) (x : T) (pick : Nat) :
    BlockingQueue θ T :=
  { q with
    queue_ := q.queue_ ++ [x]
    notEmpty_ := q.notEmpty_.notify pick }

def take (q : BlockingQueue θ T) (t : θ) :
    Option (TakeResult T × BlockingQueue θ T) :=
  if q.queue_.isEmpty && !q.end_ then
    some (.waits, { q with notEmpty_ := q.notEmpty_.wait t })
  else if q.end_ then
    some (.returned default, q)
  else
    match q.queue_ with
    | [] => none
    | front :: rest => some (.returned front, { q with queue_ := rest })

def giveUp (q : BlockingQueue θ T) : BlockingQueue θ T :=
  { q with
    end_ := true
    notEmpty_ := q.notEmpty_.notifyAll }

/-- No thread ever waits in put. -/
def perform (q : BlockingQueue θ T) :
    QueueStep θ T → Option (QueueEvent θ T × BlockingQueue θ T)
  | .put t x pick => some (.put t x .added, q.put x pick)
  | .putAgain _ _ _ => none
  | .rousePut _ => none
  | .take t _ => (q.take t).map fun p => (.take t p.1, p.2)
  | .takeAgain wake i _ =>
      (q.notEmpty_.resume wake i).bind fun r =>
        (take { q with notEmpty_ := r.2 } r.1).map fun p =>
          (.take r.1 p.1, p.2)
  | .rouseTake i =>
      (q.notEmpty_.rouse i).map fun v =>
        (.silent, { q with notEmpty_ := v })
  | .giveUp => some (.silent, q.giveUp)

def admits [DecidableEq θ] (q : BlockingQueue θ T) :
    QueueStep θ T → Bool
  | .put t _ _ => decide (t ∉ q.notEmpty_.parked)
  | .putAgain _ _ _ => false
  | .rousePut _ => false
  | .take t _ => decide (t ∉ q.notEmpty_.parked)
  | .takeAgain wake i _ => (q.notEmpty_.resume wake i).isSome
  | .rouseTake i => (q.notEmpty_.rouse i).isSome
  | .giveUp => true

def step [DecidableEq θ] (q : BlockingQueue θ T) (l : QueueStep θ T) :
    Option (BlockingQueue θ T) :=
  if q.admits l then (q.perform l).map Prod.snd else none

end BlockingQueue

namespace BoundedBlockingQueue

omit [Inhabited T] in
theorem put_cases
    {q q' : BoundedBlockingQueue θ T} {t : θ} {x : T} {pick : Nat}
    {r : PutResult} (hput : q.put t x pick = some (r, q')) :
    (r = .waits ∧ q.queue_.full = true ∧ q.end_ = false ∧
        q' = { q with notFull_ := q.notFull_.wait (t, x) }) ∨
      (r = .refused ∧ q.end_ = true ∧ q' = q) ∨
      (r = .added ∧ q.end_ = false ∧
        ∃ b, q.queue_.enqueue x = some b ∧
          q' =
            { q with
              queue_ := b
              notEmpty_ := q.notEmpty_.notify pick }) := by
  rw [put] at hput
  split at hput
  · rename_i hfull
    rw [Bool.and_eq_true, Bool.not_eq_true'] at hfull
    cases hput
    exact Or.inl ⟨rfl, hfull.1, hfull.2, rfl⟩
  · split at hput
    · rename_i hend
      cases hput
      exact Or.inr (Or.inl ⟨rfl, hend, rfl⟩)
    · rename_i hend
      obtain ⟨b, hb, heq⟩ := Option.map_eq_some_iff.mp hput
      cases heq
      exact Or.inr (Or.inr ⟨rfl, by simpa using hend, b, hb, rfl⟩)

theorem take_cases
    {q q' : BoundedBlockingQueue θ T} {t : θ} {pick : Nat}
    {r : TakeResult T} (htake : q.take t pick = some (r, q')) :
    (r = .waits ∧ q.queue_.empty = true ∧ q.end_ = false ∧
        q' = { q with notEmpty_ := q.notEmpty_.wait t }) ∨
      (r = .returned default ∧ q.end_ = true ∧ q' = q) ∨
      (q.end_ = false ∧
        ∃ x b, r = .returned x ∧ q.queue_.dequeue default = some (x, b) ∧
          q' =
            { q with
              queue_ := b
              notFull_ := q.notFull_.notify pick }) := by
  rw [take] at htake
  split at htake
  · rename_i hempty
    rw [Bool.and_eq_true, Bool.not_eq_true'] at hempty
    cases htake
    exact Or.inl ⟨rfl, hempty.1, hempty.2, rfl⟩
  · split at htake
    · rename_i hend
      cases htake
      exact Or.inr (Or.inl ⟨rfl, hend, rfl⟩)
    · rename_i hend
      obtain ⟨p, hp, heq⟩ := Option.map_eq_some_iff.mp htake
      cases heq
      exact Or.inr (Or.inr
        ⟨by simpa using hend, p.1, p.2, rfl, hp, rfl⟩)

omit [Inhabited T] in
/-- The test of its loop keeps a put from the exception. -/
theorem put_isSome
    (q : BoundedBlockingQueue θ T) (t : θ) (x : T) (pick : Nat) :
    (q.put t x pick).isSome = true := by
  rw [put]
  split
  · rfl
  · rename_i hfull
    split
    · rfl
    · rename_i hend
      rcases q.queue_.enqueue_spec x with ⟨hb, _⟩ | ⟨_, b, hb, _⟩
      · simp [hb, hend] at hfull
      · rw [hb]
        rfl

theorem take_isSome
    (q : BoundedBlockingQueue θ T) (t : θ) (pick : Nat) :
    (q.take t pick).isSome = true := by
  rw [take]
  split
  · rfl
  · rename_i hempty
    split
    · rfl
    · rename_i hend
      rcases q.queue_.dequeue_spec default with ⟨hb, _⟩ | ⟨_, x, b, hb, _⟩
      · simp [hb, hend] at hempty
      · rw [hb]
        rfl

/-- A step that the threads may take throws nothing. -/
theorem perform_isSome [DecidableEq θ]
    {q : BoundedBlockingQueue θ T} {l : QueueStep θ T}
    (hadmits : q.admits l = true) :
    (q.perform l).isSome = true := by
  cases l with
  | put t x pick =>
      rw [perform, Option.isSome_map]
      exact q.put_isSome t x pick
  | putAgain wake i pick =>
      obtain ⟨r, hr⟩ := Option.isSome_iff_exists.mp hadmits
      rw [perform, hr, Option.bind_some, Option.isSome_map]
      exact put_isSome _ _ _ _
  | rousePut i =>
      rw [perform, Option.isSome_map]
      exact hadmits
  | take t pick =>
      rw [perform, Option.isSome_map]
      exact q.take_isSome t pick
  | takeAgain wake i pick =>
      obtain ⟨r, hr⟩ := Option.isSome_iff_exists.mp hadmits
      rw [perform, hr, Option.bind_some, Option.isSome_map]
      exact take_isSome _ _ _
  | rouseTake i =>
      rw [perform, Option.isSome_map]
      exact hadmits
  | giveUp =>
      rfl

/-- What a step is: a method called with the lock, by a new thread or by one that
has just left its wait, a spurious wake-up, or giveUp(). -/
inductive Performs (q : BoundedBlockingQueue θ T) :
    QueueStep θ T → QueueEvent θ T → BoundedBlockingQueue θ T → Prop
  | put {t x pick r q'}
      (hput : q.put t x pick = some (r, q')) :
      Performs q (.put t x pick) (.put t x r) q'
  | putAgain {wake i pick t x v r q'}
      (hresume : q.notFull_.resume wake i = some ((t, x), v))
      (hput :
        BoundedBlockingQueue.put { q with notFull_ := v } t x pick =
          some (r, q')) :
      Performs q (.putAgain wake i pick) (.put t x r) q'
  | rousePut {i v} (hrouse : q.notFull_.rouse i = some v) :
      Performs q (.rousePut i) .silent { q with notFull_ := v }
  | take {t pick r q'}
      (htake : q.take t pick = some (r, q')) :
      Performs q (.take t pick) (.take t r) q'
  | takeAgain {wake i pick t v r q'}
      (hresume : q.notEmpty_.resume wake i = some (t, v))
      (htake :
        BoundedBlockingQueue.take { q with notEmpty_ := v } t pick =
          some (r, q')) :
      Performs q (.takeAgain wake i pick) (.take t r) q'
  | rouseTake {i v} (hrouse : q.notEmpty_.rouse i = some v) :
      Performs q (.rouseTake i) .silent { q with notEmpty_ := v }
  | giveUp :
      Performs q .giveUp .silent q.giveUp

theorem perform_cases
    {q q' : BoundedBlockingQueue θ T} {l : QueueStep θ T}
    {e : QueueEvent θ T} (hperform : q.perform l = some (e, q')) :
    Performs q l e q' := by
  cases l with
  | put t x pick =>
      obtain ⟨p, hp, heq⟩ := Option.map_eq_some_iff.mp hperform
      cases heq
      exact .put hp
  | putAgain wake i pick =>
      obtain ⟨w, hw, hbody⟩ := Option.bind_eq_some_iff.mp hperform
      obtain ⟨p, hp, heq⟩ := Option.map_eq_some_iff.mp hbody
      cases heq
      exact .putAgain hw hp
  | rousePut i =>
      obtain ⟨v, hv, heq⟩ := Option.map_eq_some_iff.mp hperform
      cases heq
      exact .rousePut hv
  | take t pick =>
      obtain ⟨p, hp, heq⟩ := Option.map_eq_some_iff.mp hperform
      cases heq
      exact .take hp
  | takeAgain wake i pick =>
      obtain ⟨w, hw, hbody⟩ := Option.bind_eq_some_iff.mp hperform
      obtain ⟨p, hp, heq⟩ := Option.map_eq_some_iff.mp hbody
      cases heq
      exact .takeAgain hw hp
  | rouseTake i =>
      obtain ⟨v, hv, heq⟩ := Option.map_eq_some_iff.mp hperform
      cases heq
      exact .rouseTake hv
  | giveUp =>
      cases hperform
      exact .giveUp

end BoundedBlockingQueue

namespace QueueEvent

/-- The value that a put has added. -/
def added : QueueEvent θ T → List T
  | .put _ x .added => [x]
  | _ => []

def returned : QueueEvent θ T → List T
  | .take _ (.returned x) => [x]
  | _ => []

/-- What comes of a step after giveUp(). -/
def Refused : QueueEvent θ T → Prop
  | .put _ _ r => r = .refused
  | .take _ r => r = .returned default
  | .silent => True

theorem Refused.added_eq_nil
    {e : QueueEvent θ T} (he : e.Refused) :
    e.added = [] := by
  cases e with
  | put t x r =>
      cases he
      rfl
  | take t r =>
      rfl
  | silent =>
      rfl

theorem Refused.eq_default
    {e : QueueEvent θ T} (he : e.Refused) {x : T}
    (hx : x ∈ e.returned) :
    x = default := by
  cases e with
  | put t y r =>
      cases hx
  | take t r =>
      cases he
      exact List.mem_singleton.mp hx
  | silent =>
      cases hx

end QueueEvent

namespace BoundedBlockingQueue

/-- What a step does to the items. -/
structure Moves
    (q : BoundedBlockingQueue θ T) (e : QueueEvent θ T)
    (q' : BoundedBlockingQueue θ T) : Prop where
  room : q'.queue_.max_size = q.queue_.max_size
  moved :
    q.end_ = false →
      e.returned ++ q'.queue_.content = q.queue_.content ++ e.added
  refused :
    q.end_ = true →
      q'.queue_.content = q.queue_.content ∧ q'.end_ = true ∧ e.Refused

/-- Nothing but the places of the threads changes. -/
theorem moves_silent
    {q q' : BoundedBlockingQueue θ T}
    (hqueue : q'.queue_ = q.queue_) (hend : q.end_ = true → q'.end_ = true) :
    Moves q .silent q' where
  room := by
    rw [hqueue]
  moved := by
    intro _
    rw [hqueue]
    exact (List.append_nil _).symm
  refused := fun h => ⟨by rw [hqueue], hend h, trivial⟩

/-- Before giveUp() it is enough to follow the items. -/
theorem moves_of_open
    {q q' : BoundedBlockingQueue θ T} {e : QueueEvent θ T}
    (hend : q.end_ = false)
    (hroom : q'.queue_.max_size = q.queue_.max_size)
    (hmoved :
      e.returned ++ q'.queue_.content = q.queue_.content ++ e.added) :
    Moves q e q' where
  room := hroom
  moved := fun _ => hmoved
  refused := fun hended =>
    absurd (hend.symm.trans hended) Bool.false_ne_true

/-- After it a step leaves the queue. -/
theorem moves_of_refused
    {q : BoundedBlockingQueue θ T} {e : QueueEvent θ T}
    (hend : q.end_ = true) (he : e.Refused) :
    Moves q e q where
  room := rfl
  moved := fun hopen =>
    absurd (hopen.symm.trans hend) Bool.false_ne_true
  refused := fun _ => ⟨rfl, hend, he⟩

theorem put_moves
    {q q' : BoundedBlockingQueue θ T} {t : θ} {x : T} {pick : Nat}
    {r : PutResult} (hput : q.put t x pick = some (r, q')) :
    Moves q (.put t x r) q' := by
  rcases put_cases hput with
    ⟨rfl, _, hend, rfl⟩ | ⟨rfl, hend, rfl⟩ | ⟨rfl, hend, b, hb, rfl⟩
  · exact moves_of_open hend rfl (List.append_nil _).symm
  · exact moves_of_refused hend rfl
  · rcases q.queue_.enqueue_spec x with
      ⟨_, hnone⟩ | ⟨_, b', hb', hcontent, hroom⟩
    · rw [hb] at hnone
      cases hnone
    · rw [hb] at hb'
      cases hb'
      exact moves_of_open hend hroom hcontent

theorem take_moves
    {q q' : BoundedBlockingQueue θ T} {t : θ} {pick : Nat}
    {r : TakeResult T} (htake : q.take t pick = some (r, q')) :
    Moves q (.take t r) q' := by
  rcases take_cases htake with
    ⟨rfl, _, hend, rfl⟩ | ⟨rfl, hend, rfl⟩ | ⟨hend, x, b, rfl, hb, rfl⟩
  · exact moves_of_open hend rfl (List.append_nil _).symm
  · exact moves_of_refused hend rfl
  · rcases q.queue_.dequeue_spec default with
      ⟨_, hnone⟩ | ⟨_, x', b', hb', hcontent, hroom⟩
    · rw [hb] at hnone
      cases hnone
    · rw [hb] at hb'
      cases hb'
      exact moves_of_open hend hroom
        (hcontent.symm.trans (List.append_nil _).symm)

theorem perform_moves
    {q q' : BoundedBlockingQueue θ T} {l : QueueStep θ T}
    {e : QueueEvent θ T} (hperform : q.perform l = some (e, q')) :
    Moves q e q' := by
  cases perform_cases hperform with
  | put hput =>
      exact put_moves hput
  | putAgain hresume hput =>
      have hmoves := put_moves hput
      exact ⟨hmoves.room, hmoves.moved, hmoves.refused⟩
  | rousePut hrouse =>
      exact moves_silent rfl id
  | take htake =>
      exact take_moves htake
  | takeAgain hresume htake =>
      have hmoves := take_moves htake
      exact ⟨hmoves.room, hmoves.moved, hmoves.refused⟩
  | rouseTake hrouse =>
      exact moves_silent rfl id
  | giveUp =>
      exact moves_silent rfl fun _ => rfl

end BoundedBlockingQueue

/-- A queue with the values that its puts have added, and with those that its
takes have returned before giveUp() and after it. -/
structure QueueRun (θ T : Type) where
  queue : BoundedBlockingQueue θ T
  puts : List T
  takes : List T
  late : List T
deriving DecidableEq, Repr

namespace QueueRun

def initial (maxSize : Nat) : QueueRun θ T where
  queue := BoundedBlockingQueue.create maxSize
  puts := []
  takes := []
  late := []

def record (s : QueueRun θ T)
    (p : QueueEvent θ T × BoundedBlockingQueue θ T) : QueueRun θ T where
  queue := p.2
  puts := s.puts ++ p.1.added
  takes := if s.queue.end_ then s.takes else s.takes ++ p.1.returned
  late := if s.queue.end_ then s.late ++ p.1.returned else s.late

def step [DecidableEq θ] (s : QueueRun θ T) (l : QueueStep θ T) :
    Option (QueueRun θ T) :=
  if s.queue.admits l then (s.queue.perform l).map s.record else none

/-- The queue holds the values put and not taken, in the order of the puts. -/
structure FifoInv (maxSize : Nat) (s : QueueRun θ T) : Prop where
  room : s.queue.queue_.max_size = maxSize + 1
  fifo : s.puts = s.takes ++ s.queue.queue_.content
  late : ∀ x ∈ s.late, x = default

theorem initial_fifoInv
    (maxSize : Nat) :
    FifoInv maxSize (initial maxSize : QueueRun θ T) where
  room := rfl
  fifo := rfl
  late := by
    intro x hx
    cases hx

theorem step_eq_some [DecidableEq θ]
    {s s' : QueueRun θ T} {l : QueueStep θ T}
    (hstep : s.step l = some s') :
    ∃ e q', s.queue.perform l = some (e, q') ∧ s' = s.record (e, q') := by
  rw [step] at hstep
  split at hstep
  · obtain ⟨p, hp, rfl⟩ := Option.map_eq_some_iff.mp hstep
    exact ⟨p.1, p.2, hp, rfl⟩
  · cases hstep

theorem record_fifoInv
    {maxSize : Nat} {s : QueueRun θ T} (hs : FifoInv maxSize s)
    {e : QueueEvent θ T} {q' : BoundedBlockingQueue θ T}
    (hmoves : s.queue.Moves e q') :
    FifoInv maxSize (s.record (e, q')) := by
  cases hend : s.queue.end_ with
  | false =>
      refine ⟨hmoves.room.trans hs.room, ?_, ?_⟩
      · simp only [record, hend, Bool.false_eq_true, if_false]
        rw [hs.fifo, List.append_assoc, ← hmoves.moved hend,
          List.append_assoc]
      · simpa [record, hend] using hs.late
  | true =>
      obtain ⟨hcontent, _, hrefused⟩ := hmoves.refused hend
      refine ⟨hmoves.room.trans hs.room, ?_, ?_⟩
      · simp only [record, hend, if_true]
        rw [hrefused.added_eq_nil, List.append_nil, hcontent]
        exact hs.fifo
      · simp only [record, hend, if_true]
        intro x hx
        rcases List.mem_append.mp hx with hx | hx
        · exact hs.late x hx
        · exact hrefused.eq_default hx

theorem step_fifoInv [DecidableEq θ]
    {maxSize : Nat} {s s' : QueueRun θ T} {l : QueueStep θ T}
    (hs : FifoInv maxSize s) (hstep : s.step l = some s') :
    FifoInv maxSize s' := by
  obtain ⟨e, q', hperform, rfl⟩ := step_eq_some hstep
  exact record_fifoInv hs (BoundedBlockingQueue.perform_moves hperform)

theorem run_fifoInv [DecidableEq θ]
    {maxSize : Nat} {ls : List (QueueStep θ T)} {s : QueueRun θ T}
    (hrun : run step (initial maxSize) ls = some s) :
    FifoInv maxSize s :=
  invariant_of_run
    (P := fun _ => True)
    (fun _ _ _ hs _ hstep => step_fifoInv hs hstep)
    (initial_fifoInv maxSize) (fun _ _ => trivial) hrun

/-- For every capacity and every schedule: the bound, the order, no exception,
and what giveUp() leaves. -/
theorem bounded_queue_fifo [DecidableEq θ]
    (maxSize : Nat) (ls : List (QueueStep θ T)) {s : QueueRun θ T}
    (hrun : run step (initial maxSize) ls = some s) :
    s.queue.queue_.size ≤ maxSize ∧
      s.takes <+: s.puts ∧
      s.queue.queue_.content = s.puts.drop s.takes.length ∧
      (∀ l, s.queue.admits l = true →
        (s.queue.perform l).isSome = true) ∧
      (∀ x ∈ s.late, x = default) ∧
      (s.queue.end_ = true →
        ∀ l s', s.step l = some s' →
          s'.puts = s.puts ∧ s'.takes = s.takes ∧
          s'.queue.queue_.content = s.queue.queue_.content ∧
          ∀ e q', s.queue.perform l = some (e, q') → e.Refused) := by
  have hs := run_fifoInv hrun
  refine ⟨?_, ?_, ?_, ?_, hs.late, ?_⟩
  · have hlt := s.queue.queue_.size_lt
    have hroom := hs.room
    omega
  · rw [hs.fifo]
    exact List.prefix_append _ _
  · rw [hs.fifo, List.drop_left]
  · intro l hadmits
    exact BoundedBlockingQueue.perform_isSome hadmits
  · intro hend l s' hstep
    obtain ⟨e, q', hperform, rfl⟩ := step_eq_some hstep
    have hmoves := BoundedBlockingQueue.perform_moves hperform
    obtain ⟨hcontent, _, hrefused⟩ := hmoves.refused hend
    refine ⟨?_, by simp [record, hend], hcontent, ?_⟩
    · simp only [record]
      rw [hrefused.added_eq_nil, List.append_nil]
    · intro e' q'' hperform'
      rw [hperform] at hperform'
      cases hperform'
      exact hrefused

/-- Two threads at a queue of two: a third put waits, goes on after a take,
and giveUp() leaves what is still there. -/
def fillAndGiveUp : List (QueueStep Nat Nat) :=
  [.put 0 7 0, .put 0 8 0, .put 0 9 0, .take 1 0,
    .putAgain .signal 0 0, .giveUp, .take 1 0]

theorem bounded_queue_fifo_sample :
    ∃ s : QueueRun Nat Nat,
      run step (initial 2) fillAndGiveUp = some s ∧
      s.puts = [7, 8, 9] ∧ s.takes = [7] ∧
      s.takes <+: s.puts ∧
      s.queue.queue_.content = s.puts.drop s.takes.length := by
  obtain ⟨s, hrun, hlog⟩ :=
    Option.map_eq_some_iff.mp
      (show (run step (initial 2 : QueueRun Nat Nat) fillAndGiveUp).map
          (fun s => (s.puts, s.takes)) = some ([7, 8, 9], [7])
        by decide +kernel)
  obtain ⟨hputs, htakes⟩ := Prod.mk.inj hlog
  obtain ⟨_, hprefix, hcontent, _⟩ :=
    bounded_queue_fifo 2 fillAndGiveUp hrun
  exact ⟨s, hrun, hputs, htakes, hprefix, hcontent⟩

end QueueRun

end BlockingQueues

end Hohnor
