import Hohnor.BinaryHeap
import Hohnor.TransitionRuns
import Mathlib.Data.Prod.Lex

/-!
# The timer queue

`TimerHandler` and `TimerQueue` of src/core/Timer.cpp, as their operations run
in the loop thread.  A time is a number of microseconds without a bound, which
is what the int64 of the source holds as long as nothing overflows.  An interval
is none where it is not above 0.0, and otherwise the microseconds that `addTime`
truncates it to.

A handler is named by its sequence_, which no two handlers of a process share.
The heap and the pending functors hold names, the objects are shared.

`handleRead` is cut where a user callback runs: the callback may call any of
the public operations, so each of these is a step of its own.
-/

namespace Hohnor

open TransitionRuns

def kMicroSecondsPerSecond : Int :=
  1000 * 1000

/-- `addTime`, with the seconds truncated to microseconds. -/
def addTime (timestamp : Int) (delta : Nat) : Int :=
  timestamp + delta

structure Timespec where
  tv_sec : Int
  tv_nsec : Int
deriving DecidableEq, Repr

/-- When resetTimerfd reads the clock, and how many microseconds later it sets
the timer fd. -/
structure ResetTime where
  now : Int
  lag : Nat
deriving DecidableEq, Repr

/-- The time of the timerfd_settime. -/
def ResetTime.setAt (t : ResetTime) : Int :=
  t.now + t.lag

/-- `howMuchTimeFromNow`; the division truncates. -/
def howMuchTimeFromNow (now expiration : Int) : Timespec :=
  let microseconds := expiration - now
  let microseconds := if microseconds < 100 then 100 else microseconds
  { tv_sec := microseconds.tdiv kMicroSecondsPerSecond
    tv_nsec := microseconds.tmod kMicroSecondsPerSecond * 1000 }

/-- A timer fd: the deadline if it is armed or has expired and has not been
read, when it was set last, and the values of all calls of
timerfd_settime. -/
structure Timerfd where
  deadline : Option Int
  lastReset : Option ResetTime
  calls : List Timespec
deriving DecidableEq, Repr

namespace Timerfd

/-- timerfd_settime: it refuses a value that is out of range, and zero disarms.
The value counts from the time of the call. -/
def settime (fd : Timerfd) (t : ResetTime) (value : Timespec) : Timerfd :=
  { deadline :=
      if value.tv_sec < 0 ∨ value.tv_nsec < 0 ∨
          1000000000 ≤ value.tv_nsec then
        fd.deadline
      else if value.tv_sec = 0 ∧ value.tv_nsec = 0 then
        none
      else
        some
          (t.setAt + value.tv_sec * kMicroSecondsPerSecond +
            value.tv_nsec / 1000)
    lastReset := some t
    calls := fd.calls ++ [value] }

/-- read: it takes the expiration, if there has been one. -/
def read (fd : Timerfd) (now : Int) : Timerfd :=
  { fd with deadline := fd.deadline.filter (fun d => now < d) }

/-- `resetTimerfd`; howMuchTimeFromNow reads the clock before timerfd_settime is
called. -/
def resetTimerfd (fd : Timerfd) (t : ResetTime) (expiration : Int) :
    Timerfd :=
  fd.settime t (howMuchTimeFromNow t.now expiration)

end Timerfd

structure TimerHandler (κ : Type) where
  callback_ : Option κ
  expiration_ : Int
  interval_ : Option Nat
  disabled_ : Bool
  sequence_ : Nat
deriving DecidableEq, Repr

namespace TimerHandler

variable {κ : Type}

/-- The constructor. -/
def create
    (callback : κ) (expiration : Int) (interval : Option Nat)
    (sequence : Nat) : TimerHandler κ where
  callback_ := some callback
  expiration_ := expiration
  interval_ := interval
  disabled_ := false
  sequence_ := sequence

/-- What no name refers to. -/
def blank : TimerHandler κ where
  callback_ := none
  expiration_ := 0
  interval_ := none
  disabled_ := true
  sequence_ := 0

def isRepeat (h : TimerHandler κ) : Bool :=
  h.interval_.isSome

def disable (h : TimerHandler κ) : TimerHandler κ :=
  if h.disabled_ then h
  else
    { h with interval_ := none, disabled_ := true, callback_ := none }

def updateCallback (h : TimerHandler κ) (callback : κ) :
    TimerHandler κ :=
  if h.disabled_ then h else { h with callback_ := some callback }

/-- `run` after the callback. -/
def clearUnlessRepeat (h : TimerHandler κ) : TimerHandler κ :=
  if h.isRepeat then h else { h with callback_ := none }

/-- `reloadInLoop`; 0 is the invalid time. -/
def reloadInLoop (h : TimerHandler κ) : TimerHandler κ :=
  match h.interval_ with
  | some d => { h with expiration_ := addTime h.expiration_ d }
  | none => { h with expiration_ := 0 }

theorem disable_expiration
    (h : TimerHandler κ) :
    h.disable.expiration_ = h.expiration_ := by
  unfold disable
  split <;> rfl

theorem disable_sequence
    (h : TimerHandler κ) :
    h.disable.sequence_ = h.sequence_ := by
  unfold disable
  split <;> rfl

theorem updateCallback_expiration
    (h : TimerHandler κ) (callback : κ) :
    (h.updateCallback callback).expiration_ = h.expiration_ := by
  unfold updateCallback
  split <;> rfl

theorem updateCallback_sequence
    (h : TimerHandler κ) (callback : κ) :
    (h.updateCallback callback).sequence_ = h.sequence_ := by
  unfold updateCallback
  split <;> rfl

@[simp] theorem reloadInLoop_disabled
    (h : TimerHandler κ) :
    h.reloadInLoop.disabled_ = h.disabled_ := by
  unfold reloadInLoop
  split <;> rfl

end TimerHandler

def timerCmpLessThan {κ : Type} (lhs rhs : TimerHandler κ) : Bool :=
  if lhs.expiration_ < rhs.expiration_ then true
  else if lhs.expiration_ > rhs.expiration_ then false
  else lhs.sequence_ < rhs.sequence_

/-- Where `handleRead` is: not running, about to test the condition of its
loop, or inside of the callback of a handler.  `now` is the time that it took
at its start. -/
inductive ReadPhase where
  | idle
  | scanning (now : Int)
  | calling (now : Int) (seq : Nat)
deriving DecidableEq, Repr

/-- What is observed of timers: one is added, disable() returns, a callback is
called by a handler that expires at `expiration` at the time `now`. -/
inductive TimerEvent (κ : Type) where
  | added (seq : Nat) (expiration : Int) (interval : Option Nat)
  | disabled (seq : Nat)
  | ran (seq : Nat) (callback : κ) (expiration now : Int)
deriving DecidableEq, Repr

/-- The queue with the handlers that it has created, the pending
`addTimerInLoop` functors in order, and what has been observed. -/
structure TimerQueue (κ : Type) where
  handlers : Nat → TimerHandler κ
  created : List Nat
  s_numCreated_ : Nat
  heap_ : List Nat
  functors : List Nat
  phase : ReadPhase
  timerfd : Timerfd
  events : List (TimerEvent κ)

inductive TimerOp (κ : Type) where
  | createElsewhere
  | addTimer (cb : κ) (expiration : Int) (interval : Option Nat)
  | disable (seq : Nat)
  | updateCallback (seq : Nat) (callback : κ)
  | runFunctor (t : ResetTime)
  | handleRead (now : Int) (lag : Nat)
  | scan (t : ResetTime)
  | callbackReturns
deriving DecidableEq, Repr

namespace TimerQueue

variable {κ : Type}

def initial (numCreated : Nat) : TimerQueue κ where
  handlers := fun _ => .blank
  created := []
  s_numCreated_ := numCreated
  heap_ := []
  functors := []
  phase := .idle
  timerfd := { deadline := none, lastReset := none, calls := [] }
  events := []

def setHandler (s : TimerQueue κ) (seq : Nat) (h : TimerHandler κ) :
    TimerQueue κ :=
  { s with handlers := Function.update s.handlers seq h }

/-- The comparison of heap_. -/
def lessThanCmp_ (s : TimerQueue κ) (lhs rhs : Nat) : Bool :=
  timerCmpLessThan (s.handlers lhs) (s.handlers rhs)

/-- User code runs: inside of a callback, or in between. -/
def inUserCode (s : TimerQueue κ) : Bool :=
  match s.phase with
  | .scanning _ => false
  | _ => true

def addTimer
    (s : TimerQueue κ) (cb : κ) (expiration : Int)
    (interval : Option Nat) : TimerQueue κ :=
  let seq := s.s_numCreated_
  { s.setHandler seq (.create cb expiration interval seq) with
    created := s.created ++ [seq]
    s_numCreated_ := seq + 1
    functors := s.functors ++ [seq]
    events := s.events ++ [.added seq expiration interval] }

def addTimerInLoop (s : TimerQueue κ) (seq : Nat) (t : ResetTime) :
    TimerQueue κ :=
  let heap := BinaryHeap.insert s.lessThanCmp_ s.heap_ seq
  { s with
    heap_ := heap
    timerfd :=
      if BinaryHeap.top heap = some seq then
        s.timerfd.resetTimerfd t (s.handlers seq).expiration_
      else
        s.timerfd }

/-- The rest of an iteration of `handleRead` for the handler that it has
popped, once its callback has returned or was not called. -/
def afterCallback (s : TimerQueue κ) (seq : Nat) (now : Int) :
    TimerQueue κ :=
  let h := (s.handlers seq).clearUnlessRepeat
  if h.isRepeat then
    { s.setHandler seq h.reloadInLoop with
      functors := s.functors ++ [seq]
      phase := .scanning now }
  else
    { s.setHandler seq { h with disabled_ := true } with
      phase := .scanning now }

/-- `TimerHandler::run` of the handler that `handleRead` has popped, up to the
callback. -/
def runHandler (s : TimerQueue κ) (seq : Nat) (now : Int) :
    TimerQueue κ :=
  let h := s.handlers seq
  match h.disabled_, h.callback_ with
  | false, some cb =>
      { s with
        phase := .calling now seq
        events := s.events ++ [.ran seq cb h.expiration_ now] }
  | _, _ => s.afterCallback seq now

/-- `handleRead` after its loop. -/
def endScan (s : TimerQueue κ) (t : ResetTime) : TimerQueue κ :=
  { s with
    phase := .idle
    timerfd :=
      match BinaryHeap.top s.heap_ with
      | some seq =>
          s.timerfd.resetTimerfd t (s.handlers seq).expiration_
      | none => s.timerfd }

/-- The condition of the loop of `handleRead`, that took the time `started`,
and what follows it up to the next callback or the end. -/
def scan (s : TimerQueue κ) (started : Int) (t : ResetTime) :
    TimerQueue κ :=
  match BinaryHeap.top s.heap_,
      BinaryHeap.popTop s.lessThanCmp_ s.heap_ with
  | some top, some (timerHandler, heap) =>
      if (s.handlers top).expiration_ ≤ started then
        { s with heap_ := heap }.runHandler timerHandler started
      else
        s.endScan t
  | _, _ => s.endScan t

def step (s : TimerQueue κ) (op : TimerOp κ) : Option (TimerQueue κ) :=
  match op with
  | .createElsewhere =>
      some { s with s_numCreated_ := s.s_numCreated_ + 1 }
  | .addTimer cb expiration interval =>
      if s.inUserCode then some (s.addTimer cb expiration interval)
      else none
  | .disable seq =>
      if s.inUserCode ∧ seq ∈ s.created then
        some
          { s.setHandler seq (s.handlers seq).disable with
            events := s.events ++ [.disabled seq] }
      else
        none
  | .updateCallback seq callback =>
      if s.inUserCode ∧ seq ∈ s.created then
        some
          (s.setHandler seq ((s.handlers seq).updateCallback callback))
      else
        none
  | .runFunctor t =>
      match s.phase, s.functors with
      | .idle, seq :: rest =>
          some ({ s with functors := rest }.addTimerInLoop seq t)
      | _, _ => none
  | .handleRead now lag =>
      match s.phase with
      | .idle =>
          some
            { s with
              timerfd := s.timerfd.read (now + lag)
              phase := .scanning now }
      | _ => none
  | .scan t =>
      match s.phase with
      | .scanning started => some (s.scan started t)
      | _ => none
  | .callbackReturns =>
      match s.phase with
      | .calling now seq => some (s.afterCallback seq now)
      | _ => none

/-- The order of the heap: the earlier expiration, then the smaller
sequence number. -/
def key (s : TimerQueue κ) (seq : Nat) : Lex (Int × Nat) :=
  toLex ((s.handlers seq).expiration_, (s.handlers seq).sequence_)

theorem lessThanCmp_iff
    (s : TimerQueue κ) (lhs rhs : Nat) :
    s.lessThanCmp_ lhs rhs = true ↔ s.key lhs < s.key rhs := by
  unfold lessThanCmp_ timerCmpLessThan key
  rw [Prod.Lex.toLex_lt_toLex]
  split
  · rename_i hlt
    simp [hlt]
  · split
    · rename_i hge hgt
      simp
      omega
    · simp
      omega

/-- An iteration of `handleRead` finds nothing due, calls a callback, or drops
a handler that has none to call. -/
inductive Scans (s : TimerQueue κ) (started : Int) (t : ResetTime) :
    TimerQueue κ → Prop
  | ends
      (hdue :
        ∀ seq, BinaryHeap.top s.heap_ = some seq →
          started < (s.handlers seq).expiration_) :
      Scans s started t (s.endScan t)
  | calls
      {seq : Nat} {rest : List Nat} {cb : κ}
      (hpop : BinaryHeap.popTop s.lessThanCmp_ s.heap_ =
        some (seq, rest))
      (hdue : (s.handlers seq).expiration_ ≤ started)
      (hon : (s.handlers seq).disabled_ = false)
      (hcb : (s.handlers seq).callback_ = some cb) :
      Scans s started t
        { s with
          heap_ := rest
          phase := .calling started seq
          events := s.events ++
            [.ran seq cb (s.handlers seq).expiration_ started] }
  | drops
      {seq : Nat} {rest : List Nat}
      (hpop : BinaryHeap.popTop s.lessThanCmp_ s.heap_ =
        some (seq, rest))
      (hoff : (s.handlers seq).disabled_ = true ∨
        (s.handlers seq).callback_ = none) :
      Scans s started t
        ({ s with heap_ := rest }.afterCallback seq started)

theorem scan_scans
    (s : TimerQueue κ) (started : Int) (t : ResetTime) :
    Scans s started t (s.scan started t) := by
  unfold scan
  cases htop : BinaryHeap.top s.heap_ with
  | none =>
      exact .ends (by simp [htop])
  | some top =>
      obtain ⟨rest, hpop⟩ :=
        BinaryHeap.popTop_isSome s.lessThanCmp_ htop
      rw [hpop]
      simp only
      split
      · rename_i hdue
        cases hon : (s.handlers top).disabled_ with
        | true =>
            simp only [runHandler, hon]
            exact .drops hpop (.inl hon)
        | false =>
            cases hcb : (s.handlers top).callback_ with
            | none =>
                simp only [runHandler, hon, hcb]
                exact .drops hpop (.inr hcb)
            | some cb =>
                simp only [runHandler, hon, hcb]
                exact .calls hpop hdue hon hcb
      · rename_i hdue
        refine .ends ?_
        intro seq hseq
        rw [htop] at hseq
        cases hseq
        omega

end TimerQueue

end Hohnor
