import Hohnor.MutexHolder
import Mathlib.Tactic.Common

/-!
# The start of a thread

`Thread::start`, `join` and the destructor of src/thread/Thread.cpp with
`threadStarter`, for one Thread object, its owner and the thread that it
starts.  The two meet in `latch_`, a CountDownLatch of one, whose methods are
taken here in the single steps of its mutex and its condition.

The new thread has references to `tid_` and `latch_` of the object.  When
start() has returned the owner may destroy the object, so the question is what
the new thread may still touch.  It is the clearing of currentHolder at the
end of Mutex::unlock, which comes after the pthread mutex has been released,
and nothing else.
-/

namespace Hohnor

open TransitionRuns

/-- Where the owner is, named by what it does next in start(). -/
inductive StarterPhase where
  | fresh
  | locking
  | assigning
  | testing
  | waitUnassigning
  | waitReleasing
  | sleeping
  | woken
  | unlocking
  | unassigning
  | returned
deriving DecidableEq, Repr

/-- Where the new thread is in threadStarter. -/
inductive ChildPhase where
  | unborn
  | settingTid
  | locking
  | assigning
  | counting
  | unlocking
  | unassigning
  | running
  | finished
deriving DecidableEq, Repr

/-- The phases of the owner in which it has the pthread mutex. -/
def StarterPhase.owns : StarterPhase → Bool
  | .assigning | .testing | .waitUnassigning => true
  | .waitReleasing | .unlocking => true
  | _ => false

/-- The steps that the owner still has to make, when it sleeps at the latch at
most once more. -/
def StarterPhase.left : StarterPhase → Nat
  | .fresh => 0
  | .locking | .woken => 10
  | .assigning => 9
  | .testing => 8
  | .waitUnassigning => 7
  | .waitReleasing => 6
  | .sleeping => 5
  | .unlocking => 2
  | .unassigning => 1
  | .returned => 0

def ChildPhase.owns : ChildPhase → Bool
  | .assigning | .counting | .unlocking => true
  | _ => false

/-- The phases whose step reads or writes the Thread object. -/
def ChildPhase.touches : ChildPhase → Bool
  | .unborn | .running | .finished => false
  | _ => true

/-- The steps that the new thread has made. -/
def ChildPhase.progress : ChildPhase → Nat
  | .unborn => 0
  | .settingTid => 1
  | .locking => 2
  | .assigning => 3
  | .counting => 4
  | .unlocking => 5
  | .unassigning => 6
  | .running => 7
  | .finished => 8

/-- The Thread object and the two threads.  `ran` counts the calls of func_, and
`strays` are the phases in which the new thread touched the object after its
destructor. -/
structure ThreadStart where
  starter : StarterPhase
  child : ChildPhase
  mutex_ : Mutex
  count_ : Int
  tid_ : Nat
  started_ : Bool
  joined_ : Bool
  destroyed : Bool
  ran : Nat
  strays : List ChildPhase
deriving DecidableEq, Repr

/-- `create` is start() up to pthread_create and its result, `starter` and
`child` are the next steps of the two threads, `wake` is a wake-up of the owner
without a reason. -/
inductive ThreadOp where
  | create (ok : Bool)
  | starter
  | child
  | wake
  | join
  | destroy
deriving DecidableEq, Repr

/-- A wake-up without a reason sends the owner through its loop again. -/
def ThreadOp.cost : ThreadOp → Nat
  | .wake => 6
  | _ => 0

namespace ThreadStart

/-- The constructor. -/
def initial : ThreadStart where
  starter := .fresh
  child := .unborn
  mutex_ := .create
  count_ := 1
  tid_ := 0
  started_ := false
  joined_ := false
  destroyed := false
  ran := 0
  strays := []

/-- The next step of the owner in latch_.wait() and start(), which asserts that
`tid_` is positive before it returns. -/
def starterStep (owner : Nat) (s : ThreadStart) : Option ThreadStart :=
  match s.starter with
  | .fresh => none
  | .locking =>
      (s.mutex_.pthreadLock owner).map fun m =>
        { s with mutex_ := m, starter := .assigning }
  | .assigning =>
      some
        { s with mutex_ := s.mutex_.assignHolder owner, starter := .testing }
  | .testing =>
      if 0 < s.count_ then
        some { s with starter := .waitUnassigning }
      else
        some { s with starter := .unlocking }
  | .waitUnassigning =>
      some
        { s with mutex_ := s.mutex_.unassignHolder, starter := .waitReleasing }
  | .waitReleasing =>
      some { s with mutex_ := s.mutex_.pthreadUnlock, starter := .sleeping }
  | .sleeping => none
  | .woken =>
      (s.mutex_.pthreadLock owner).map fun m =>
        { s with mutex_ := m, starter := .assigning }
  | .unlocking =>
      some { s with mutex_ := s.mutex_.pthreadUnlock, starter := .unassigning }
  | .unassigning =>
      if 0 < s.tid_ then
        some { s with mutex_ := s.mutex_.unassignHolder, starter := .returned }
      else
        none
  | .returned => none

/-- Record that the new thread touches an object that is gone. -/
def touch (s : ThreadStart) : ThreadStart :=
  if s.destroyed ∧ s.child.touches then
    { s with strays := s.strays ++ [s.child] }
  else
    s

/-- pthread_cond_broadcast at the latch, where only the owner may wait. -/
def notifyAll (s : ThreadStart) : ThreadStart :=
  if s.starter = .sleeping then { s with starter := .woken } else s

/-- `--count_` and the notification of countDown(). -/
def countDown (s : ThreadStart) : ThreadStart :=
  let s' := { s with count_ := s.count_ - 1 }
  if s'.count_ = 0 then s'.notifyAll else s'

/-- The next step of the new thread in threadStarter. -/
def childStep (tid : Nat) (s : ThreadStart) : Option ThreadStart :=
  match s.child with
  | .unborn => none
  | .settingTid => some { s.touch with tid_ := tid, child := .locking }
  | .locking =>
      (s.mutex_.pthreadLock tid).map fun m =>
        { s.touch with mutex_ := m, child := .assigning }
  | .assigning =>
      some
        { s.touch with
          mutex_ := s.mutex_.assignHolder tid, child := .counting }
  | .counting => some { s.touch.countDown with child := .unlocking }
  | .unlocking =>
      some
        { s.touch with
          mutex_ := s.mutex_.pthreadUnlock, child := .unassigning }
  | .unassigning =>
      some
        { s.touch with
          mutex_ := s.mutex_.unassignHolder, child := .running }
  | .running => some { s with ran := s.ran + 1, child := .finished }
  | .finished => none

/-- `owner` and `tid` are the thread ids of the two threads.  The owner does not
destroy the object in the middle of start(); join() has its two assertions, and
pthread_join waits for the end of the new thread. -/
def step (owner tid : Nat) (s : ThreadStart) : ThreadOp → Option ThreadStart
  | .create ok =>
      if s.starter = .fresh ∧ s.destroyed = false then
        if ok then
          some
            { s with
              started_ := true, starter := .locking, child := .settingTid }
        else
          some { s with started_ := false }
      else
        none
  | .starter => s.starterStep owner
  | .child => s.childStep tid
  | .wake =>
      if s.starter = .sleeping then some { s with starter := .woken } else none
  | .join =>
      if s.starter = .returned ∧ s.destroyed = false ∧ s.started_ = true ∧
          s.joined_ = false ∧ s.child = .finished then
        some { s with joined_ := true }
      else
        none
  | .destroy =>
      if (s.starter = .fresh ∨ s.starter = .returned) ∧
          s.destroyed = false then
        some { s with destroyed := true }
      else
        none

/-- The thread that has the pthread mutex, by where the two threads are. -/
def locker (owner tid : Nat) (s : ThreadStart) : Option Nat :=
  if s.starter.owns then some owner
  else if s.child.owns then some tid
  else none

/-- What each field says about the places of the two threads.  The owner sleeps
only before the count goes down, and leaves the latch only when the new thread
has given the pthread mutex back. -/
structure Sound (owner tid : Nat) (s : ThreadStart) : Prop where
  mutex : s.mutex_.mutex_t = s.locker owner tid
  apart : s.starter.owns = true → s.child.owns = false
  born : s.child = .unborn ↔ s.starter = .fresh
  count : s.count_ = if s.child.progress < 5 then 1 else 0
  tid : s.tid_ = if s.child.progress < 2 then 0 else tid
  asleep :
    s.starter = .waitUnassigning ∨ s.starter = .waitReleasing ∨
      s.starter = .sleeping → s.child.progress < 5
  passed :
    s.starter = .unlocking ∨ s.starter = .unassigning ∨
      s.starter = .returned → 6 ≤ s.child.progress
  holder :
    s.starter = .fresh ∨ s.starter = .returned →
      s.mutex_.currentHolder = 0
  joined : s.joined_ = true → s.child = .finished
  gone : s.destroyed = true → s.starter = .fresh ∨ s.starter = .returned
  strays :
    s.strays = [] ∨
      (s.strays = [.unassigning] ∧ 7 ≤ s.child.progress ∧
        s.destroyed = true ∧ s.joined_ = false)
  ran : s.ran = if s.child = .finished then 1 else 0

theorem initial_sound
    (owner tid : Nat) :
    Sound owner tid initial where
  mutex := rfl
  apart := fun h => by cases h
  born := Iff.rfl |>.trans ⟨fun _ => rfl, fun _ => rfl⟩
  count := rfl
  tid := rfl
  asleep := fun h => by simp [initial] at h
  passed := fun h => by simp [initial] at h
  holder := fun _ => rfl
  joined := fun h => by cases h
  gone := fun h => by cases h
  strays := Or.inl rfl
  ran := rfl

/-- Where there is a new thread, its owner has begun start(). -/
theorem Sound.started
    {owner tid : Nat} {s : ThreadStart} (hs : Sound owner tid s)
    (hborn : s.child ≠ .unborn) :
    s.starter ≠ .fresh :=
  fun hfresh => hborn (hs.born.mpr hfresh)

/-- pthread_mutex_lock returns where neither thread has the mutex. -/
theorem Sound.lock
    {owner tid t : Nat} {s : ThreadStart} (hs : Sound owner tid s)
    {m : Mutex} (hlock : s.mutex_.pthreadLock t = some m) :
    s.starter.owns = false ∧ s.child.owns = false ∧
      m = { s.mutex_ with mutex_t := some t } := by
  rw [Mutex.pthreadLock] at hlock
  split at hlock
  next hfree =>
    have hnone := hs.mutex.symm.trans hfree
    rw [locker] at hnone
    split at hnone
    next => cases hnone
    next hstarter =>
      split at hnone
      next => cases hnone
      next hchild =>
        exact ⟨eq_false_of_ne_true hstarter, eq_false_of_ne_true hchild,
          (Option.some.inj hlock).symm⟩
  next => cases hlock

theorem Sound.mutex_owner
    {owner tid : Nat} {s : ThreadStart} (hs : Sound owner tid s)
    (howns : s.starter.owns = true) :
    s.mutex_.mutex_t = some owner ∧ s.child.owns = false := by
  refine ⟨?_, hs.apart howns⟩
  rw [hs.mutex, locker, if_pos howns]

theorem Sound.mutex_child
    {owner tid : Nat} {s : ThreadStart} (hs : Sound owner tid s)
    (howns : s.child.owns = true) :
    s.mutex_.mutex_t = some tid ∧ s.starter.owns = false := by
  have hstarter : s.starter.owns = false := by
    cases hstarter : s.starter.owns with
    | false => rfl
    | true =>
        have hchild := hs.apart hstarter
        rw [howns] at hchild
        cases hchild
  refine ⟨?_, hstarter⟩
  rw [hs.mutex, locker, hstarter, if_neg Bool.false_ne_true, if_pos howns]

/-- The object is there as long as start() has not come back. -/
theorem Sound.there
    {owner tid : Nat} {s : ThreadStart} (hs : Sound owner tid s)
    (hinside : s.starter ≠ .fresh ∧ s.starter ≠ .returned) :
    s.destroyed = false := by
  cases hgone : s.destroyed with
  | false => rfl
  | true =>
      rcases hs.gone hgone with h | h
      · exact absurd h hinside.1
      · exact absurd h hinside.2

/-- What a place of the owner says about the mutex and the new thread. -/
structure StarterAt
    (owner tid : Nat) (m : Mutex) (child : ChildPhase)
    (p : StarterPhase) : Prop where
  mutex :
    m.mutex_t =
      if p.owns then some owner else if child.owns then some tid else none
  apart : p.owns = true → child.owns = false
  asleep :
    p = .waitUnassigning ∨ p = .waitReleasing ∨ p = .sleeping →
      child.progress < 5
  passed :
    p = .unlocking ∨ p = .unassigning ∨ p = .returned → 6 ≤ child.progress
  holder : p = .returned → m.currentHolder = 0

/-- The owner moves on inside of start(); the other fields stay. -/
theorem Sound.starterTo
    {owner tid : Nat} {s : ThreadStart} (hs : Sound owner tid s)
    (hinside : s.starter ≠ .fresh ∧ s.starter ≠ .returned)
    {m : Mutex} {p : StarterPhase} (hp : p ≠ .fresh)
    (hat : StarterAt owner tid m s.child p) :
    Sound owner tid { s with mutex_ := m, starter := p } where
  mutex := hat.mutex
  apart := hat.apart
  born :=
    ⟨fun h => absurd (hs.born.mp h) hinside.1, fun h => absurd h hp⟩
  count := hs.count
  tid := hs.tid
  asleep := hat.asleep
  passed := hat.passed
  holder := fun h => hat.holder (h.resolve_left hp)
  joined := hs.joined
  gone := fun h => absurd h (by rw [hs.there hinside]; decide)
  strays := hs.strays
  ran := hs.ran

/-- After the count the new thread has the mutex, or has given it back. -/
theorem ChildPhase.six_le_progress
    {c : ChildPhase} (hcounted : ¬ c.progress < 5)
    (howns : c.owns = false) :
    6 ≤ c.progress := by
  cases c with
  | unlocking => cases howns
  | unassigning | running | finished => decide
  | _ => exact absurd (by decide) hcounted

theorem ChildPhase.owns_of_six_le
    {c : ChildPhase} (hpassed : 6 ≤ c.progress) :
    c.owns = false := by
  cases c with
  | unassigning | running | finished => rfl
  | _ => exact absurd hpassed (by decide)

theorem Sound.starterStep
    {owner tid : Nat} {s s' : ThreadStart} (hs : Sound owner tid s)
    (hstep : s.starterStep owner = some s') :
    Sound owner tid s' := by
  cases hphase : s.starter with
  | fresh =>
      simp [ThreadStart.starterStep, hphase] at hstep
  | locking =>
      simp only [ThreadStart.starterStep, hphase] at hstep
      obtain ⟨m, hlock, rfl⟩ := Option.map_eq_some_iff.mp hstep
      obtain ⟨-, hchild, rfl⟩ := hs.lock hlock
      exact hs.starterTo (by simp [hphase]) StarterPhase.noConfusion
        { mutex := rfl
          apart := fun _ => hchild
          asleep := by simp
          passed := by simp
          holder := StarterPhase.noConfusion }
  | assigning =>
      obtain ⟨hmutex, hchild⟩ := hs.mutex_owner (by rw [hphase]; rfl)
      simp only [ThreadStart.starterStep, hphase] at hstep
      cases hstep
      exact hs.starterTo (by simp [hphase]) StarterPhase.noConfusion
        { mutex := hmutex
          apart := fun _ => hchild
          asleep := by simp
          passed := by simp
          holder := StarterPhase.noConfusion }
  | testing =>
      obtain ⟨hmutex, hchild⟩ := hs.mutex_owner (by rw [hphase]; rfl)
      have hcount := hs.count
      simp only [ThreadStart.starterStep, hphase] at hstep
      split at hstep
      next hpos =>
        have hbefore : s.child.progress < 5 := by
          by_contra hafter
          rw [if_neg hafter] at hcount
          omega
        cases hstep
        exact hs.starterTo (by simp [hphase]) StarterPhase.noConfusion
          { mutex := hmutex
            apart := fun _ => hchild
            asleep := fun _ => hbefore
            passed := by simp
            holder := StarterPhase.noConfusion }
      next hzero =>
        have hcounted : ¬ s.child.progress < 5 := by
          intro hbefore
          rw [if_pos hbefore] at hcount
          omega
        cases hstep
        exact hs.starterTo (by simp [hphase]) StarterPhase.noConfusion
          { mutex := hmutex
            apart := fun _ => hchild
            asleep := by simp
            passed := fun _ => ChildPhase.six_le_progress hcounted hchild
            holder := StarterPhase.noConfusion }
  | waitUnassigning =>
      obtain ⟨hmutex, hchild⟩ := hs.mutex_owner (by rw [hphase]; rfl)
      have hbefore := hs.asleep (Or.inl hphase)
      simp only [ThreadStart.starterStep, hphase] at hstep
      cases hstep
      exact hs.starterTo (by simp [hphase]) StarterPhase.noConfusion
        { mutex := hmutex
          apart := fun _ => hchild
          asleep := fun _ => hbefore
          passed := by simp
          holder := StarterPhase.noConfusion }
  | waitReleasing =>
      obtain ⟨-, hchild⟩ := hs.mutex_owner (by rw [hphase]; rfl)
      have hbefore := hs.asleep (Or.inr (Or.inl hphase))
      simp only [ThreadStart.starterStep, hphase] at hstep
      cases hstep
      exact hs.starterTo (by simp [hphase]) StarterPhase.noConfusion
        { mutex := by rw [hchild]; rfl
          apart := fun _ => hchild
          asleep := fun _ => hbefore
          passed := by simp
          holder := StarterPhase.noConfusion }
  | sleeping =>
      simp [ThreadStart.starterStep, hphase] at hstep
  | woken =>
      simp only [ThreadStart.starterStep, hphase] at hstep
      obtain ⟨m, hlock, rfl⟩ := Option.map_eq_some_iff.mp hstep
      obtain ⟨-, hchild, rfl⟩ := hs.lock hlock
      exact hs.starterTo (by simp [hphase]) StarterPhase.noConfusion
        { mutex := rfl
          apart := fun _ => hchild
          asleep := by simp
          passed := by simp
          holder := StarterPhase.noConfusion }
  | unlocking =>
      obtain ⟨-, hchild⟩ := hs.mutex_owner (by rw [hphase]; rfl)
      have hpassed := hs.passed (Or.inl hphase)
      simp only [ThreadStart.starterStep, hphase] at hstep
      cases hstep
      exact hs.starterTo (by simp [hphase]) StarterPhase.noConfusion
        { mutex := by rw [hchild]; rfl
          apart := fun _ => hchild
          asleep := by simp
          passed := fun _ => hpassed
          holder := StarterPhase.noConfusion }
  | unassigning =>
      have hmutex := hs.mutex
      rw [locker, hphase] at hmutex
      have hpassed := hs.passed (Or.inr (Or.inl hphase))
      simp only [ThreadStart.starterStep, hphase] at hstep
      split at hstep
      next htid =>
        cases hstep
        exact hs.starterTo (by simp [hphase]) StarterPhase.noConfusion
          { mutex := hmutex
            apart := fun h => Bool.noConfusion h
            asleep := by simp
            passed := fun _ => hpassed
            holder := fun _ => rfl }
      next => cases hstep
  | returned =>
      simp [ThreadStart.starterStep, hphase] at hstep

/-- While the object is gone the new thread has one step left that touches it:
the owner came back from start(), so the latch has been counted down and its
mutex given back. -/
theorem Sound.touches_gone
    {owner tid : Nat} {s : ThreadStart} (hs : Sound owner tid s)
    (hgone : s.destroyed = true) (htouches : s.child.touches = true) :
    s.child = .unassigning := by
  have hpassed : 6 ≤ s.child.progress := by
    rcases hs.gone hgone with hfresh | hreturned
    · rw [hs.born.mpr hfresh] at htouches
      cases htouches
    · exact hs.passed (Or.inr (Or.inr hreturned))
  cases hphase : s.child with
  | unassigning => rfl
  | unborn | running | finished =>
      rw [hphase] at htouches
      cases htouches
  | _ =>
      rw [hphase] at hpassed
      exact absurd hpassed (by decide)

theorem Sound.touch_eq
    {owner tid : Nat} {s : ThreadStart} (hs : Sound owner tid s)
    (hchild : s.child ≠ .unassigning) :
    s.touch = s := by
  rw [touch, if_neg]
  intro htouches
  exact hchild (hs.touches_gone htouches.1 htouches.2)

/-- Nothing strays before the new thread has left the latch. -/
theorem Sound.strays_nil
    {owner tid : Nat} {s : ThreadStart} (hs : Sound owner tid s)
    (hbefore : s.child.progress < 7) :
    s.strays = [] := by
  rcases hs.strays with h | h
  · exact h
  · exact absurd h.2.1 (Nat.not_le.mpr hbefore)

/-- What a place of the new thread says about the mutex and the owner. -/
structure ChildAt
    (owner tid : Nat) (m : Mutex) (starter : StarterPhase)
    (c : ChildPhase) : Prop where
  mutex :
    m.mutex_t =
      if starter.owns then some owner else if c.owns then some tid else none
  apart : starter.owns = true → c.owns = false
  holder : starter = .fresh ∨ starter = .returned → m.currentHolder = 0

/-- The new thread moves on in the latch, on one side of the count; `strays` apart
the other fields stay. -/
theorem Sound.childTo
    {owner tid : Nat} {s : ThreadStart} (hs : Sound owner tid s)
    (hinside : 2 ≤ s.child.progress ∧ s.child.progress < 7)
    {m : Mutex} (c : ChildPhase)
    (hnext : c.progress = s.child.progress + 1)
    (hside : c.progress < 5 ∨ 5 ≤ s.child.progress)
    (hat : ChildAt owner tid m s.starter c)
    {strays : List ChildPhase}
    (hstrays :
      strays = [] ∨
        (strays = [.unassigning] ∧ 7 ≤ c.progress ∧
          s.destroyed = true ∧ s.joined_ = false)) :
    Sound owner tid
      { s with mutex_ := m, child := c, strays := strays } := by
  have hborn : s.child ≠ .unborn := by
    intro h
    rw [h] at hinside
    exact absurd hinside.1 (by decide)
  have hends : s.child ≠ .finished := by
    intro h
    rw [h] at hinside
    exact absurd hinside.2 (by decide)
  have hborn' : c ≠ .unborn := by
    intro h
    rw [h, ChildPhase.progress] at hnext
    omega
  have hends' : c ≠ .finished := by
    intro h
    rw [h, ChildPhase.progress] at hnext
    omega
  exact
    { mutex := hat.mutex
      apart := hat.apart
      born :=
        ⟨fun h => absurd h hborn', fun h => absurd h (hs.started hborn)⟩
      count := by
        rw [hs.count]
        exact if_congr (by simp only; omega) rfl rfl
      tid := by
        rw [hs.tid]
        exact if_congr (by simp only; omega) rfl rfl
      asleep := fun h => by
        have hbefore := hs.asleep h
        simp only
        omega
      passed := fun h => by
        have hpassed := hs.passed h
        simp only
        omega
      holder := hat.holder
      joined := fun h => absurd (hs.joined h) hends
      gone := hs.gone
      strays := hstrays
      ran := by rw [hs.ran, if_neg hends, if_neg hends'] }

/-- The one call of countDown() opens the latch. -/
theorem countDown_one
    {s : ThreadStart} (hcount : s.count_ = 1) :
    s.countDown =
      if s.starter = .sleeping then
        { s with count_ := 0, starter := .woken }
      else
        { s with count_ := 0 } := by
  have hzero : s.count_ - 1 = 0 := by omega
  simp only [countDown, notifyAll, hzero, if_true]

/-- The new thread counts down; an owner that sleeps is woken. -/
theorem Sound.counted
    {owner tid : Nat} {s : ThreadStart} (hs : Sound owner tid s)
    (hphase : s.child = .counting) :
    Sound owner tid { s.countDown with child := .unlocking } := by
  obtain ⟨hmutex, hstarter⟩ := hs.mutex_child (by rw [hphase]; rfl)
  have hone : s.count_ = 1 := by
    rw [hs.count, hphase]
    rfl
  have htid : s.tid_ = tid := by
    rw [hs.tid, hphase]
    rfl
  have hran : s.ran = 0 := by
    rw [hs.ran, hphase]
    rfl
  have hstrays := hs.strays_nil (by rw [hphase]; decide)
  have hjoined : s.joined_ = true → ChildPhase.unlocking = .finished := by
    intro h
    have hfinished := hs.joined h
    rw [hphase] at hfinished
    cases hfinished
  rw [countDown_one hone]
  split
  next hsleep =>
    exact
      { mutex := hmutex
        apart := fun h => Bool.noConfusion h
        born := ⟨fun h => ChildPhase.noConfusion h,
          fun h => StarterPhase.noConfusion h⟩
        count := rfl
        tid := htid
        asleep := by simp
        passed := by simp
        holder := by simp
        joined := hjoined
        gone := fun h => absurd h (by
          rw [hs.there (by simp [hsleep])]
          decide)
        strays := Or.inl hstrays
        ran := hran }
  next hawake =>
    exact
      { mutex := by
          rw [locker, hstarter]
          exact hmutex
        apart := fun h => absurd h (by rw [hstarter]; decide)
        born := ⟨fun h => ChildPhase.noConfusion h,
          fun h => absurd h (hs.started (by rw [hphase]; decide))⟩
        count := rfl
        tid := htid
        asleep := by
          rintro (h | h | h)
          · rw [h] at hstarter
            cases hstarter
          · rw [h] at hstarter
            cases hstarter
          · exact absurd h hawake
        passed := fun h => by
          have hpassed := hs.passed h
          rw [hphase] at hpassed
          exact absurd hpassed (by decide)
        holder := hs.holder
        joined := hjoined
        gone := hs.gone
        strays := Or.inl hstrays
        ran := hran }

theorem Sound.childStep
    {owner tid : Nat} {s s' : ThreadStart} (hs : Sound owner tid s)
    (hstep : s.childStep tid = some s') :
    Sound owner tid s' := by
  cases hphase : s.child with
  | unborn =>
      simp [ThreadStart.childStep, hphase] at hstep
  | settingTid =>
      have hstarted := hs.started (by rw [hphase]; decide)
      simp only [ThreadStart.childStep, hphase,
        hs.touch_eq (by rw [hphase]; decide)] at hstep
      cases hstep
      exact
        { hs with
          mutex := hs.mutex.trans (by rw [locker, locker, hphase]; rfl)
          apart := fun _ => rfl
          born := ⟨fun h => ChildPhase.noConfusion h,
            fun h => absurd h hstarted⟩
          count := by rw [hs.count, hphase]; rfl
          tid := rfl
          asleep := fun _ => show 2 < 5 by decide
          passed := fun h => absurd (hs.passed h) (by rw [hphase]; decide)
          joined := fun h => absurd (hs.joined h) (by rw [hphase]; decide)
          strays := Or.inl (hs.strays_nil (by rw [hphase]; decide))
          ran := by rw [hs.ran, hphase]; rfl }
  | locking =>
      simp only [ThreadStart.childStep, hphase,
        hs.touch_eq (by rw [hphase]; decide)] at hstep
      obtain ⟨m, hlock, rfl⟩ := Option.map_eq_some_iff.mp hstep
      obtain ⟨hstarter, -, rfl⟩ := hs.lock hlock
      have hat :
          ChildAt owner tid { s.mutex_ with mutex_t := some tid } s.starter
            .assigning :=
        { mutex := by rw [hstarter]; rfl
          apart := fun h => absurd h (by rw [hstarter]; decide)
          holder := hs.holder }
      exact hs.childTo (by rw [hphase]; decide) .assigning
        (by rw [hphase]; rfl) (Or.inl (by decide)) hat
        (Or.inl (hs.strays_nil (by rw [hphase]; decide)))
  | assigning =>
      obtain ⟨hmutex, hstarter⟩ := hs.mutex_child (by rw [hphase]; rfl)
      simp only [ThreadStart.childStep, hphase,
        hs.touch_eq (by rw [hphase]; decide)] at hstep
      cases hstep
      have hinside : ¬ (s.starter = .fresh ∨ s.starter = .returned) := by
        rintro (h | h)
        · exact hs.started (by rw [hphase]; decide) h
        · have hpassed := hs.passed (Or.inr (Or.inr h))
          rw [hphase] at hpassed
          exact absurd hpassed (by decide)
      have hat :
          ChildAt owner tid (s.mutex_.assignHolder tid) s.starter
            .counting :=
        { mutex := by
            rw [hstarter]
            exact hmutex
          apart := fun h => absurd h (by rw [hstarter]; decide)
          holder := fun h => absurd h hinside }
      exact hs.childTo (by rw [hphase]; decide) .counting
        (by rw [hphase]; rfl) (Or.inl (by decide)) hat
        (Or.inl (hs.strays_nil (by rw [hphase]; decide)))
  | counting =>
      simp only [ThreadStart.childStep, hphase,
        hs.touch_eq (by rw [hphase]; decide)] at hstep
      cases hstep
      exact hs.counted hphase
  | unlocking =>
      obtain ⟨-, hstarter⟩ := hs.mutex_child (by rw [hphase]; rfl)
      simp only [ThreadStart.childStep, hphase,
        hs.touch_eq (by rw [hphase]; decide)] at hstep
      cases hstep
      have hat :
          ChildAt owner tid s.mutex_.pthreadUnlock s.starter .unassigning :=
        { mutex := by rw [hstarter]; rfl
          apart := fun _ => rfl
          holder := hs.holder }
      exact hs.childTo (by rw [hphase]; decide) .unassigning
        (by rw [hphase]; rfl) (Or.inr (by rw [hphase]; decide)) hat
        (Or.inl (hs.strays_nil (by rw [hphase]; decide)))
  | unassigning =>
      have hat :
          ChildAt owner tid s.mutex_.unassignHolder s.starter .running :=
        { mutex := hs.mutex.trans (by rw [locker, hphase]; rfl)
          apart := fun _ => rfl
          holder := fun _ => rfl }
      have hnone := hs.strays_nil (by rw [hphase]; decide)
      have hinside : 2 ≤ s.child.progress ∧ s.child.progress < 7 := by
        rw [hphase]
        decide
      simp only [ThreadStart.childStep, hphase] at hstep
      cases hstep
      rw [touch, hphase]
      split
      next hgone =>
        have hjoined : s.joined_ = false := by
          cases hjoined : s.joined_ with
          | false => rfl
          | true =>
              have hfinished := hs.joined hjoined
              rw [hphase] at hfinished
              cases hfinished
        rw [hnone]
        exact hs.childTo hinside .running (by rw [hphase]; rfl)
          (Or.inr (by rw [hphase]; decide)) hat
          (Or.inr ⟨rfl, Nat.le_refl 7, hgone.1, hjoined⟩)
      next hthere =>
        exact hs.childTo hinside .running (by rw [hphase]; rfl)
          (Or.inr (by rw [hphase]; decide)) hat (Or.inl hnone)
  | running =>
      simp only [ThreadStart.childStep, hphase] at hstep
      cases hstep
      exact
        { hs with
          mutex := hs.mutex.trans (by rw [locker, locker, hphase]; rfl)
          apart := fun _ => rfl
          born := ⟨fun h => ChildPhase.noConfusion h,
            fun h => absurd h (hs.started (by rw [hphase]; decide))⟩
          count := by rw [hs.count, hphase]; rfl
          tid := by rw [hs.tid, hphase]; rfl
          asleep := fun h => absurd (hs.asleep h) (by rw [hphase]; decide)
          passed := fun _ => show 6 ≤ 8 by decide
          joined := fun _ => rfl
          strays := hs.strays.imp id fun h =>
            ⟨h.1, show 7 ≤ 8 by decide, h.2.2⟩
          ran := by rw [hs.ran, hphase]; rfl }
  | finished =>
      simp [ThreadStart.childStep, hphase] at hstep

theorem Sound.step
    {owner tid : Nat} {s s' : ThreadStart} (hs : Sound owner tid s)
    {op : ThreadOp} (hstep : s.step owner tid op = some s') :
    Sound owner tid s' := by
  cases op with
  | create ok =>
      simp only [ThreadStart.step] at hstep
      split at hstep
      next hfresh =>
        obtain ⟨hstarter, hdestroyed⟩ := hfresh
        have hchild : s.child = .unborn := hs.born.mpr hstarter
        cases ok with
        | true =>
            cases hstep
            exact
              { mutex := hs.mutex.trans (by
                  rw [locker, hstarter, hchild]
                  rfl)
                apart := fun _ => rfl
                born := ⟨fun h => ChildPhase.noConfusion h,
                  fun h => StarterPhase.noConfusion h⟩
                count := by rw [hs.count, hchild]; rfl
                tid := by rw [hs.tid, hchild]; rfl
                asleep := by simp
                passed := by simp
                holder := by simp
                joined := fun h => absurd (hs.joined h) (by
                  rw [hchild]
                  decide)
                gone := fun h => absurd h (by rw [hdestroyed]; decide)
                strays := Or.inl (hs.strays_nil (by rw [hchild]; decide))
                ran := by rw [hs.ran, hchild]; rfl }
        | false =>
            cases hstep
            exact
              { hs with }
      next => cases hstep
  | starter =>
      exact hs.starterStep hstep
  | child =>
      exact hs.childStep hstep
  | wake =>
      simp only [ThreadStart.step] at hstep
      split at hstep
      next hsleep =>
        cases hstep
        have hmutex := hs.mutex
        rw [locker, hsleep] at hmutex
        exact hs.starterTo (by simp [hsleep]) StarterPhase.noConfusion
          { mutex := hmutex
            apart := fun h => Bool.noConfusion h
            asleep := by simp
            passed := by simp
            holder := StarterPhase.noConfusion }
      next => cases hstep
  | join =>
      simp only [ThreadStart.step] at hstep
      split at hstep
      next hready =>
        obtain ⟨-, hdestroyed, -, -, hfinished⟩ := hready
        cases hstep
        refine
          { hs with
            joined := fun _ => hfinished
            strays := ?_ }
        rcases hs.strays with h | h
        · exact Or.inl h
        · rw [hdestroyed] at h
          exact absurd h.2.2.1 (by decide)
      next => cases hstep
  | destroy =>
      simp only [ThreadStart.step] at hstep
      split at hstep
      next hready =>
        cases hstep
        refine
          { hs with
            gone := fun _ => hready.1
            strays := ?_ }
        rcases hs.strays with h | h
        · exact Or.inl h
        · exact Or.inr ⟨h.1, h.2.1, rfl, h.2.2.2⟩
      next => cases hstep

theorem run_sound
    {owner tid : Nat} {ops : List ThreadOp} {s : ThreadStart}
    (hrun : run (ThreadStart.step owner tid) initial ops = some s) :
    Sound owner tid s :=
  invariant_of_run (I := Sound owner tid) (P := fun _ => True)
    (fun _ _ _ hs _ hstep => hs.step hstep)
    (initial_sound owner tid) (fun _ _ => trivial) hrun

/-- Neither thread is in the mutex when the owner is not in start(). -/
theorem Sound.mutex_create
    {owner tid : Nat} {s : ThreadStart} (hs : Sound owner tid s)
    (houtside : s.starter = .fresh ∨ s.starter = .returned) :
    s.mutex_ = .create := by
  have hchild : s.child.owns = false := by
    rcases houtside with hfresh | hreturned
    · rw [hs.born.mpr hfresh]
      rfl
    · exact ChildPhase.owns_of_six_le
        (hs.passed (Or.inr (Or.inr hreturned)))
  have hfree : s.mutex_.mutex_t = none := by
    rw [hs.mutex, locker, hchild]
    rcases houtside with h | h
    · rw [h]
      rfl
    · rw [h]
      rfl
  have hholder := hs.holder houtside
  cases hm : s.mutex_ with
  | mk mutex_t currentHolder =>
      rw [hm] at hfree hholder
      cases hfree
      cases hholder
      rfl

/-- The run in which the owner destroys the object between the two steps of the
new thread's unlock(). -/
def detachOps : List ThreadOp :=
  [.create true, .child, .child, .child, .child, .child, .starter, .starter,
    .starter, .starter, .starter, .destroy, .child]

theorem detachOps_stray
    (owner : Nat) {tid : Nat} (htid : 0 < tid) :
    ∃ s, run (ThreadStart.step owner tid) initial detachOps = some s ∧
      s.strays = [.unassigning] := by
  simp [detachOps, run_cons, ThreadStart.step, initial,
    ThreadStart.childStep, ThreadStart.starterStep, touch, countDown,
    notifyAll, Mutex.create, Mutex.pthreadLock, Mutex.pthreadUnlock,
    Mutex.assignHolder, Mutex.unassignHolder, ChildPhase.touches, htid]

/-- In every run the assertion of start() holds, and start() comes back with
the id of the new thread, the latch open and the latch's mutex as it was made,
which is what its destructor asserts.  The function runs once.  All that the
new thread does to an object that is gone is the last write of unlock(), which
can happen, but not to an object whose thread was joined. -/
theorem start_hands_over
    (owner : Nat) {tid : Nat} (htid : 0 < tid) :
    (∀ ops s, run (ThreadStart.step owner tid) initial ops = some s →
      (s.starter = .unassigning → 0 < s.tid_) ∧
      (s.starter = .returned → s.tid_ = tid ∧ s.count_ = 0) ∧
      (s.starter = .fresh ∨ s.starter = .returned →
        s.mutex_ = .create) ∧
      s.ran ≤ 1 ∧
      (s.joined_ = true → s.ran = 1 ∧ s.strays = []) ∧
      (s.strays = [] ∨ s.strays = [.unassigning])) ∧
    ∃ ops s, run (ThreadStart.step owner tid) initial ops = some s ∧
      s.strays = [.unassigning] := by
  refine ⟨?_, detachOps, detachOps_stray owner htid⟩
  intro ops s hrun
  have hs := run_sound hrun
  have hran := hs.ran
  refine ⟨?_, ?_, hs.mutex_create, ?_, ?_, ?_⟩
  · intro hphase
    have hpassed := hs.passed (Or.inr (Or.inl hphase))
    rw [hs.tid, if_neg (by omega)]
    exact htid
  · intro hphase
    have hpassed := hs.passed (Or.inr (Or.inr hphase))
    rw [hs.tid, hs.count, if_neg (by omega), if_neg (by omega)]
    exact ⟨rfl, rfl⟩
  · split at hran <;> omega
  · intro hjoined
    refine ⟨by rw [hran, if_pos (hs.joined hjoined)], ?_⟩
    rcases hs.strays with h | h
    · exact h
    · rw [hjoined] at h
      exact absurd h.2.2.2 (by decide)
  · exact hs.strays.imp id fun h => h.1

theorem start_hands_over_thread :
    (∀ ops s, run (ThreadStart.step 1 2) initial ops = some s →
      (s.starter = .unassigning → 0 < s.tid_) ∧
      (s.starter = .returned → s.tid_ = 2 ∧ s.count_ = 0) ∧
      (s.starter = .fresh ∨ s.starter = .returned →
        s.mutex_ = .create) ∧
      s.ran ≤ 1 ∧
      (s.joined_ = true → s.ran = 1 ∧ s.strays = []) ∧
      (s.strays = [] ∨ s.strays = [.unassigning])) ∧
    ∃ ops s, run (ThreadStart.step 1 2) initial ops = some s ∧
      s.strays = [.unassigning] :=
  start_hands_over 1 (by decide)

/-- A step of the new thread counts more than the wake-up that it may cause. -/
def work (s : ThreadStart) : Nat :=
  s.starter.left + 6 * (8 - s.child.progress) +
    (if s.joined_ then 0 else 1) + (if s.destroyed then 0 else 1)

theorem starterStep_work
    {owner : Nat} {s s' : ThreadStart}
    (hstep : s.starterStep owner = some s') :
    s'.starter ≠ .fresh ∧ s'.work + 1 ≤ s.work := by
  cases hphase : s.starter with
  | fresh | sleeping | returned =>
      simp [starterStep, hphase] at hstep
  | locking | woken =>
      simp only [starterStep, hphase] at hstep
      obtain ⟨m, -, rfl⟩ := Option.map_eq_some_iff.mp hstep
      refine ⟨StarterPhase.noConfusion, ?_⟩
      simp only [work, hphase, StarterPhase.left]
      omega
  | testing | unassigning =>
      simp only [starterStep, hphase] at hstep
      split at hstep
      all_goals cases hstep
      all_goals refine ⟨StarterPhase.noConfusion, ?_⟩
      all_goals simp only [work, hphase, StarterPhase.left]
      all_goals omega
  | assigning | waitUnassigning | waitReleasing | unlocking =>
      simp only [starterStep, hphase] at hstep
      cases hstep
      refine ⟨StarterPhase.noConfusion, ?_⟩
      simp only [work, hphase, StarterPhase.left]
      omega

@[simp] theorem touch_starter
    (s : ThreadStart) :
    s.touch.starter = s.starter := by
  rw [touch]
  split <;> rfl

@[simp] theorem touch_joined_
    (s : ThreadStart) :
    s.touch.joined_ = s.joined_ := by
  rw [touch]
  split <;> rfl

@[simp] theorem touch_destroyed
    (s : ThreadStart) :
    s.touch.destroyed = s.destroyed := by
  rw [touch]
  split <;> rfl

/-- countDown() wakes the owner or leaves it where it is. -/
theorem countDown_cases
    (s : ThreadStart) :
    s.countDown = { s with count_ := s.count_ - 1 } ∨
      (s.starter = .sleeping ∧
        s.countDown =
          { s with count_ := s.count_ - 1, starter := .woken }) := by
  simp only [countDown, notifyAll]
  split
  · split
    next hsleep => exact Or.inr ⟨hsleep, rfl⟩
    next => exact Or.inl rfl
  · exact Or.inl rfl

theorem childStep_work
    {tid : Nat} {s s' : ThreadStart} (hstarted : s.starter ≠ .fresh)
    (hstep : s.childStep tid = some s') :
    s'.starter ≠ .fresh ∧ s'.work + 1 ≤ s.work := by
  cases hphase : s.child with
  | unborn | finished =>
      simp [childStep, hphase] at hstep
  | locking =>
      simp only [childStep, hphase] at hstep
      obtain ⟨m, -, rfl⟩ := Option.map_eq_some_iff.mp hstep
      refine ⟨by rwa [touch_starter], ?_⟩
      simp only [work, touch_starter, touch_joined_, touch_destroyed,
        hphase, ChildPhase.progress]
      omega
  | counting =>
      simp only [childStep, hphase] at hstep
      cases hstep
      rcases s.touch.countDown_cases with heq | ⟨hsleep, heq⟩
      · rw [heq]
        refine ⟨by rwa [touch_starter], ?_⟩
        simp only [work, touch_starter, touch_joined_, touch_destroyed,
          hphase, ChildPhase.progress]
        omega
      · rw [touch_starter] at hsleep
        rw [heq]
        refine ⟨StarterPhase.noConfusion, ?_⟩
        simp only [work, touch_joined_, touch_destroyed, hphase, hsleep,
          ChildPhase.progress, StarterPhase.left]
        omega
  | settingTid | assigning | unlocking | unassigning =>
      simp only [childStep, hphase] at hstep
      cases hstep
      refine ⟨by rwa [touch_starter], ?_⟩
      simp only [work, touch_starter, touch_joined_, touch_destroyed,
        hphase, ChildPhase.progress]
      omega
  | running =>
      simp only [childStep, hphase] at hstep
      cases hstep
      refine ⟨hstarted, ?_⟩
      simp only [work, hphase, ChildPhase.progress]
      omega

/-- Once the thread has been created every step is work done, a wake-up
without a reason aside. -/
theorem step_work
    {owner tid : Nat} {s s' : ThreadStart} (hstarted : s.starter ≠ .fresh)
    {op : ThreadOp} (hstep : s.step owner tid op = some s') :
    s'.starter ≠ .fresh ∧ s'.work + 1 ≤ s.work + op.cost := by
  cases op with
  | create ok =>
      simp [ThreadStart.step, hstarted] at hstep
  | starter =>
      exact starterStep_work hstep
  | child =>
      exact childStep_work hstarted hstep
  | wake =>
      simp only [ThreadStart.step] at hstep
      split at hstep
      next hsleep =>
        cases hstep
        refine ⟨StarterPhase.noConfusion, ?_⟩
        simp only [work, hsleep, StarterPhase.left, ThreadOp.cost]
        omega
      next => cases hstep
  | join =>
      simp only [ThreadStart.step] at hstep
      split at hstep
      next hready =>
        cases hstep
        refine ⟨hstarted, ?_⟩
        simp only [work, hready.2.2.2.1, ThreadOp.cost, if_true,
          Bool.false_eq_true, if_false]
        omega
      next => cases hstep
  | destroy =>
      simp only [ThreadStart.step] at hstep
      split at hstep
      next hready =>
        cases hstep
        refine ⟨hstarted, ?_⟩
        simp only [work, hready.2, ThreadOp.cost, if_true,
          Bool.false_eq_true, if_false]
        omega
      next => cases hstep

/-- The owner is never held up while it has the pthread mutex. -/
theorem starterStep_owns
    {owner : Nat} {s : ThreadStart} (howns : s.starter.owns = true) :
    s.starterStep owner ≠ none := by
  cases hphase : s.starter with
  | testing =>
      simp only [starterStep, hphase]
      split <;> simp
  | assigning | waitUnassigning | waitReleasing | unlocking =>
      simp [starterStep, hphase]
  | _ =>
      rw [hphase] at howns
      cases howns

/-- Where neither thread can go on, both are done: the one that has the mutex
can, and the owner does not sleep at an open latch. -/
theorem Sound.stuck
    {owner tid : Nat} (htid : 0 < tid) {s : ThreadStart}
    (hs : Sound owner tid s) (hstarted : s.starter ≠ .fresh)
    (hstarter : s.starterStep owner = none)
    (hchild : s.childStep tid = none) :
    s.starter = .returned ∧ s.child = .finished := by
  have hmutex := hs.mutex
  have howns : s.starter.owns = false := by
    cases howns : s.starter.owns with
    | false => rfl
    | true => exact absurd hstarter (starterStep_owns howns)
  have hfinished : s.child = .finished := by
    cases hphase : s.child with
    | unborn => exact absurd (hs.born.mp hphase) hstarted
    | finished => rfl
    | locking =>
        have hfree : s.mutex_.mutex_t = none := by
          rw [hmutex, locker, howns, hphase]
          rfl
        simp [ThreadStart.childStep, hphase, Mutex.pthreadLock, hfree]
          at hchild
    | _ =>
        simp [ThreadStart.childStep, hphase] at hchild
  have hfree : s.mutex_.mutex_t = none := by
    rw [hmutex, locker, howns, hfinished]
    rfl
  refine ⟨?_, hfinished⟩
  cases hphase : s.starter with
  | fresh => exact absurd hphase hstarted
  | returned => rfl
  | sleeping =>
      have hbefore := hs.asleep (Or.inr (Or.inr hphase))
      rw [hfinished] at hbefore
      exact absurd hbefore (by decide)
  | locking | woken =>
      simp [ThreadStart.starterStep, hphase, Mutex.pthreadLock, hfree]
        at hstarter
  | unassigning =>
      have hset : s.tid_ = tid := by
        rw [hs.tid, hfinished]
        rfl
      simp [ThreadStart.starterStep, hphase, hset, htid] at hstarter
  | _ =>
      rw [hphase] at howns
      cases howns

/-- From any state after pthread_create: a run of any steps of the two threads
is bounded up to the wake-ups without a reason, and where neither thread can go
on start() has returned and the function has run. -/
theorem start_comes_back
    {owner tid : Nat} (htid : 0 < tid)
    {ops : List ThreadOp} {s : ThreadStart}
    (hrun : run (ThreadStart.step owner tid) initial ops = some s)
    (hstarted : s.starter ≠ .fresh) :
    (∀ more t, run (ThreadStart.step owner tid) s more = some t →
      more.length ≤ 60 + totalCost ThreadOp.cost more) ∧
    (s.starterStep owner = none → s.childStep tid = none →
      s.starter = .returned ∧ s.tid_ = tid ∧ s.ran = 1) := by
  have hs := run_sound hrun
  constructor
  · intro more t hmore
    have hbound : s.work ≤ 60 := by
      have hleft : s.starter.left ≤ 10 := by
        cases s.starter <;> decide
      simp only [work]
      split <;> split <;> omega
    have hlen :=
      length_of_run (I := fun s : ThreadStart => s.starter ≠ .fresh)
        (P := fun _ => True) (W := work) (C := ThreadOp.cost)
        (fun _ _ _ hs _ hstep => step_work hs hstep)
        hstarted (fun _ _ => trivial) hmore
    omega
  · intro hstarter hchild
    obtain ⟨hreturned, hfinished⟩ :=
      hs.stuck htid hstarted hstarter hchild
    refine ⟨hreturned, ?_, ?_⟩
    · rw [hs.tid, hfinished]
      rfl
    · rw [hs.ran, if_pos hfinished]

theorem start_comes_back_created :
    ∃ s, run (ThreadStart.step 1 2) initial [.create true] = some s ∧
      (∀ more t, run (ThreadStart.step 1 2) s more = some t →
        more.length ≤ 60 + totalCost ThreadOp.cost more) ∧
      (s.starterStep 1 = none → s.childStep 2 = none →
        s.starter = .returned ∧ s.tid_ = 2 ∧ s.ran = 1) :=
  ⟨_, rfl, @start_comes_back 1 2 (by decide) [.create true] _ rfl
    (by decide)⟩

end ThreadStart

end Hohnor
