import Hohnor.TransitionRuns
import Mathlib.Tactic

/-!
# The event loop and its threads

`EventLoop` of include/hohnor/core/EventLoop.h and src/core/EventLoop.cpp, with
any number of threads.  One step is one access to something that threads
share: a read or a write of `state_`, `quit_` or `threadId_`, a push to or the
swap of `pendingFunctors_` under its lock, a read or a write of the eventfd, a
use or a reset of one of the two handlers.

A thread is the stack of the calls it is in, above the place where its
`loop()` stands.  `Loop::t_loopInThisThread` is set exactly while a thread has
such a place.  User code is a frame that may call anything; what a thread was
doing when it called loop() is not recorded, it goes on as user code.

A step has no result where the program aborts (LOG_FATAL) or dereferences a
null handler.  `pushed`, `executed` and `taken` are history: no step reads
them.
-/

namespace Hohnor

abbrev Tid := Nat

/-- `EventLoop::LoopState`. -/
inductive LoopState where
  | Ready
  | Polling
  | IOHandling
  | PendingHandling
  | End
deriving DecidableEq, Repr

/-- What is queued: a user's function or `TimerQueue::addTimerInLoop`. -/
inductive Functor where
  | user
  | addTimerInLoop
deriving DecidableEq, Repr

/-- A ready file descriptor: the eventfd, the timerfd or one of a user. -/
inductive IOEvent where
  | wakeUp
  | timer
  | user
deriving DecidableEq, Repr

/-- A call in progress, at its next step. -/
inductive Frame where
  | user
  | runInLoop
  | runInLoopEnded
  | runInLoopTest
  | queueInLoop (f : Functor)
  | pushFunctor (f : Functor)
  | testLoopThread
  | testPendingHandling
  | testReady
  | wakeUp
  | writeEventfd
  | endLoop
  | endTestReady
  | endTestEnd
  | endTestAgain
  | handleWakeUp
  | handleRead
  | timerRead
  | addTimerInLoop
  | resetTimerfd
deriving DecidableEq, Repr

/-- The next step of `EventLoop::loop`. -/
inductive LoopPc where
  | enter
  | updateThread
  | assertThread
  | whileTest
  | setPolling
  | wait
  | setIOHandling (events : List IOEvent)
  | dispatch (events : List IOEvent)
  | setPendingHandling
  | swap
  | runFunctors (funcs : List (Nat × Functor))
  | setEnd
  | disableTimer
  | resetTimer
  | disableWakeUp
  | resetWakeUp
  | clear
  | leave
deriving DecidableEq, Repr

/-- The places in the body of the while loop. -/
def LoopPc.Iterates : LoopPc → Prop
  | .setPolling => True
  | .wait => True
  | .setIOHandling _ => True
  | .dispatch _ => True
  | .setPendingHandling => True
  | .swap => True
  | .runFunctors _ => True
  | _ => False

/-- The places after the while loop. -/
def LoopPc.CleansUp : LoopPc → Prop
  | .setEnd => True
  | .disableTimer => True
  | .resetTimer => True
  | .disableWakeUp => True
  | .resetWakeUp => True
  | .clear => True
  | .leave => True
  | _ => False

structure LoopThread where
  calls : List Frame
  loop : Option LoopPc
deriving DecidableEq, Repr

/-- The members that threads share; a handler is true while its pointer is not
null.  Functors carry the number of their push. -/
structure EventLoop where
  state_ : LoopState
  quit_ : Bool
  threadId_ : Tid
  pendingFunctors_ : List (Nat × Functor)
  eventfd : Nat
  wakeUpHandler_ : Bool
  timerFdIOHandle_ : Bool
  pushed : Nat
  executed : List Nat
  taken : Nat
deriving DecidableEq, Repr

/-- What user code may call. -/
inductive UserCall where
  | queueInLoop (f : Functor)
  | runInLoop
  | wakeUp
  | endLoop
  | loop
deriving DecidableEq, Repr

/-- What the code leaves open about a step. -/
inductive Choice where
  | step
  | call (c : UserCall)
  | ret
  | ready (events : List IOEvent)
deriving DecidableEq, Repr

/-- What a step does to the shared members. -/
inductive Effect where
  | nothing
  | push (f : Functor)
  | writeEventfd
  | readEventfd
  | setQuit
  | setState (state : LoopState)
  | setThreadId (t : Tid)
  | swap
  | execute (n : Nat)
  | resetTimer
  | resetWakeUp
  | clear
deriving DecidableEq, Repr

namespace EventLoop

/-- The members after the constructor and `create()` in a thread. -/
def create (creator : Tid) : EventLoop where
  state_ := .Ready
  quit_ := false
  threadId_ := creator
  pendingFunctors_ := []
  eventfd := 0
  wakeUpHandler_ := true
  timerFdIOHandle_ := true
  pushed := 0
  executed := []
  taken := 0

def apply (s : EventLoop) : Effect → EventLoop
  | .nothing => s
  | .push f =>
      { s with
        pendingFunctors_ := s.pendingFunctors_ ++ [(s.pushed, f)]
        pushed := s.pushed + 1 }
  | .writeEventfd => { s with eventfd := s.eventfd + 1 }
  | .readEventfd => { s with eventfd := 0 }
  | .setQuit => { s with quit_ := true }
  | .setState state => { s with state_ := state }
  | .setThreadId t => { s with threadId_ := t }
  | .swap => { s with pendingFunctors_ := [], taken := s.pushed }
  | .execute n => { s with executed := s.executed ++ [n] }
  | .resetTimer => { s with timerFdIOHandle_ := false }
  | .resetWakeUp => { s with wakeUpHandler_ := false }
  | .clear => { s with pendingFunctors_ := [] }

end EventLoop

/-- The call that a user's call starts with; loop() is not one of them. -/
def UserCall.frame : UserCall → Option Frame
  | .queueInLoop f => some (.queueInLoop f)
  | .runInLoop => some .runInLoop
  | .wakeUp => some .wakeUp
  | .endLoop => some .endLoop
  | .loop => none

/-- The callback of a ready file descriptor. -/
def IOEvent.frame : IOEvent → Frame
  | .wakeUp => .handleWakeUp
  | .timer => .handleRead
  | .user => .user

/-- The body of a functor. -/
def Functor.frame : Functor → Frame
  | .user => .user
  | .addTimerInLoop => .addTimerInLoop

namespace LoopThread

/-- Go on with other calls and leave the shared members alone. -/
def proceed (th : LoopThread) (calls : List Frame) :
    Option (LoopThread × Effect) :=
  some ({ th with calls := calls }, .nothing)

/-- Move to another place of loop(). -/
def goto (th : LoopThread) (pc : LoopPc) (e : Effect) :
    Option (LoopThread × Effect) :=
  some ({ th with loop := some pc }, e)

/-- loop() is called.  Inside of loop() it returns when the loop is ended and
aborts otherwise. -/
def enterLoop (s : EventLoop) (th : LoopThread) (rest : List Frame) :
    Option (LoopThread × Effect) :=
  match th.loop with
  | none => some ({ calls := [], loop := some .enter }, .nothing)
  | some _ => if s.state_ = .End then th.proceed rest else none

/-- loop() returns. -/
def leaveLoop (e : Effect) : Option (LoopThread × Effect) :=
  some ({ calls := [.user], loop := none }, e)

/-- One step of the call on top, called by `rest`.  The timers run after
`timerRead`, and the timerfd is set only if there is a timer that is first. -/
def callStep (s : EventLoop) (t : Tid) (th : LoopThread)
    (rest : List Frame) : Frame → Choice → Option (LoopThread × Effect)
  | .user, .call c =>
      match c.frame with
      | some frame => th.proceed (frame :: .user :: rest)
      | none => enterLoop s th (.user :: rest)
  | .user, .ret => th.proceed rest
  | .runInLoop, .step =>
      if s.state_ = .End then th.proceed (.runInLoopEnded :: rest)
      else th.proceed (.runInLoopTest :: rest)
  | .runInLoopEnded, .step =>
      if s.threadId_ = t then th.proceed (.user :: rest)
      else th.proceed rest
  | .runInLoopTest, .step =>
      if s.threadId_ = t then th.proceed (.user :: rest)
      else th.proceed (.queueInLoop .user :: rest)
  | .queueInLoop f, .step =>
      if s.state_ = .End then th.proceed rest
      else th.proceed (.pushFunctor f :: rest)
  | .pushFunctor f, .step =>
      some ({ th with calls := .testLoopThread :: rest }, .push f)
  | .testLoopThread, .step =>
      if s.threadId_ ≠ t then th.proceed (.wakeUp :: rest)
      else th.proceed (.testPendingHandling :: rest)
  | .testPendingHandling, .step =>
      if s.state_ = .PendingHandling then th.proceed (.wakeUp :: rest)
      else th.proceed (.testReady :: rest)
  | .testReady, .step =>
      if s.state_ = .Ready then th.proceed (.wakeUp :: rest)
      else th.proceed rest
  | .wakeUp, .step =>
      if s.state_ = .End then th.proceed rest
      else th.proceed (.writeEventfd :: rest)
  | .writeEventfd, .step =>
      if s.wakeUpHandler_ then
        some ({ th with calls := rest }, .writeEventfd)
      else none
  | .endLoop, .step =>
      some ({ th with calls := .endTestReady :: rest }, .setQuit)
  | .endTestReady, .step =>
      if s.state_ ≠ .Ready then th.proceed (.endTestEnd :: rest)
      else th.proceed (.endTestAgain :: rest)
  | .endTestEnd, .step =>
      if s.state_ ≠ .End then
        th.proceed (.wakeUp :: .endTestAgain :: rest)
      else th.proceed (.endTestAgain :: rest)
  | .endTestAgain, .step =>
      if s.state_ = .Ready then enterLoop s th rest
      else th.proceed rest
  | .handleWakeUp, .step =>
      if s.wakeUpHandler_ then
        some ({ th with calls := rest }, .readEventfd)
      else none
  | .handleRead, .step =>
      if s.threadId_ = t then th.proceed (.timerRead :: rest) else none
  | .timerRead, .step =>
      if s.timerFdIOHandle_ then
        th.proceed (.user :: .resetTimerfd :: rest)
      else none
  | .addTimerInLoop, .step =>
      if s.threadId_ = t then th.proceed (.resetTimerfd :: rest) else none
  | .resetTimerfd, .step =>
      if s.timerFdIOHandle_ then th.proceed rest else none
  | .resetTimerfd, .ret => th.proceed rest
  | _, _ => none

/-- One step of `EventLoop::loop`; its clean-up begins with `setEnd`. -/
def loopStep (s : EventLoop) (t : Tid) (th : LoopThread) :
    LoopPc → Choice → Option (LoopThread × Effect)
  | .enter, .step =>
      if s.state_ = .End then leaveLoop .nothing
      else th.goto .updateThread .nothing
  | .updateThread, .step =>
      if t ≠ s.threadId_ then th.goto .assertThread (.setThreadId t)
      else th.goto .assertThread .nothing
  | .assertThread, .step =>
      if s.threadId_ = t then th.goto .whileTest .nothing else none
  | .whileTest, .step =>
      if s.quit_ then th.goto .setEnd .nothing
      else th.goto .setPolling .nothing
  | .setPolling, .step => th.goto .wait (.setState .Polling)
  | .wait, .ready events =>
      if .wakeUp ∈ events ∧ s.eventfd = 0 then none
      else th.goto (.setIOHandling events) .nothing
  | .setIOHandling events, .step =>
      th.goto (.dispatch events) (.setState .IOHandling)
  | .dispatch [], .step => th.goto .setPendingHandling .nothing
  | .dispatch (event :: events), .step =>
      some
        ({ calls := [event.frame], loop := some (.dispatch events) },
          .nothing)
  | .setPendingHandling, .step =>
      th.goto .swap (.setState .PendingHandling)
  | .swap, .step => th.goto (.runFunctors s.pendingFunctors_) .swap
  | .runFunctors [], .step => th.goto .whileTest .nothing
  | .runFunctors ((n, f) :: funcs), .step =>
      some
        ({ calls := [f.frame], loop := some (.runFunctors funcs) },
          .execute n)
  | .setEnd, .step => th.goto .disableTimer (.setState .End)
  | .disableTimer, .step =>
      if s.timerFdIOHandle_ then th.goto .resetTimer .nothing else none
  | .resetTimer, .step => th.goto .disableWakeUp .resetTimer
  | .disableWakeUp, .step =>
      if s.wakeUpHandler_ then th.goto .resetWakeUp .nothing else none
  | .resetWakeUp, .step => th.goto .clear .resetWakeUp
  | .clear, .step => th.goto .leave .clear
  | .leave, .step => leaveLoop .nothing
  | _, _ => none

end LoopThread

/-- The loop and all threads. -/
structure LoopSystem where
  shared : EventLoop
  threads : Tid → LoopThread

/-- A thread takes a step. -/
structure LoopLabel where
  tid : Tid
  choice : Choice
deriving DecidableEq, Repr

namespace LoopSystem

/-- A new loop; every thread is in user code. -/
def create (creator : Tid) : LoopSystem where
  shared := .create creator
  threads := fun _ => { calls := [.user], loop := none }

/-- What the thread does. -/
def next (s : LoopSystem) (l : LoopLabel) :
    Option (LoopThread × Effect) :=
  match (s.threads l.tid).calls, (s.threads l.tid).loop with
  | frame :: rest, _ =>
      (s.threads l.tid).callStep s.shared l.tid rest frame l.choice
  | [], some pc =>
      (s.threads l.tid).loopStep s.shared l.tid pc l.choice
  | [], none => none

/-- The system after what the thread does. -/
def after (s : LoopSystem) (t : Tid) (r : LoopThread × Effect) :
    LoopSystem where
  shared := s.shared.apply r.2
  threads := Function.update s.threads t r.1

def step (s : LoopSystem) (l : LoopLabel) : Option LoopSystem :=
  (s.next l).map (s.after l.tid)

@[simp] theorem after_shared
    (s : LoopSystem) (t : Tid) (r : LoopThread × Effect) :
    (s.after t r).shared = s.shared.apply r.2 := by
  rfl

@[simp] theorem after_threads_self
    (s : LoopSystem) (t : Tid) (r : LoopThread × Effect) :
    (s.after t r).threads t = r.1 := by
  simp [after]

theorem after_threads_of_ne
    (s : LoopSystem) {t u : Tid} (r : LoopThread × Effect)
    (hu : u ≠ t) :
    (s.after t r).threads u = s.threads u := by
  simp [after, Function.update_of_ne hu]

theorem after_loop_of_eq
    {s : LoopSystem} {t : Tid} {r : LoopThread × Effect}
    (hloop : r.1.loop = (s.threads t).loop) (u : Tid) :
    ((s.after t r).threads u).loop = (s.threads u).loop := by
  by_cases hu : u = t
  · subst hu
    rw [after_threads_self]
    exact hloop
  · rw [after_threads_of_ne s r hu]

/-- Steps of a thread. -/
def steps (t : Tid) (n : Nat) : List LoopLabel :=
  List.replicate n ⟨t, .step⟩

/-- A thread without steps in a run stays where it is. -/
theorem run_threads_of_ne
    {s s' : LoopSystem} {u : Tid} {ls : List LoopLabel}
    (hls : ∀ l ∈ ls, l.tid ≠ u)
    (hrun : TransitionRuns.run step s ls = some s') :
    s'.threads u = s.threads u := by
  have hkeep :
      ∀ v l v', v.threads u = s.threads u → LoopLabel.tid l ≠ u →
        step v l = some v' → v'.threads u = s.threads u := by
    intro v l v' hv hl hstep
    obtain ⟨r, _, rfl⟩ := Option.map_eq_some_iff.mp hstep
    rw [after_threads_of_ne v r hl.symm]
    exact hv
  have hinit : s.threads u = s.threads u := rfl
  exact TransitionRuns.invariant_of_run hkeep hinit hls hrun

/-- What holds of the thread that took the step and of every other thread holds
of all. -/
theorem forall_after
    (P : EventLoop → Tid → LoopThread → Prop)
    {s : LoopSystem} {t : Tid} {r : LoopThread × Effect}
    (hself : P (s.shared.apply r.2) t r.1)
    (hothers :
      ∀ u, u ≠ t → P (s.shared.apply r.2) u (s.threads u)) :
    ∀ u, P (s.after t r).shared u ((s.after t r).threads u) := by
  intro u
  by_cases hu : u = t
  · subst hu
    rw [after_threads_self]
    exact hself
  · rw [after_threads_of_ne s r hu]
    exact hothers u hu

end LoopSystem

namespace Frame

/-- The thread is on its way to the eventfd, if nothing changes before it has
made its tests. -/
def WillWake (s : EventLoop) (t : Tid) : Frame → Prop
  | .testLoopThread =>
      s.threadId_ ≠ t ∨ s.state_ = .PendingHandling ∨ s.state_ = .Ready
  | .testPendingHandling =>
      s.state_ = .PendingHandling ∨ s.state_ = .Ready
  | .testReady => s.state_ = .Ready
  | .wakeUp => True
  | .writeEventfd => True
  | _ => False

/-- A step of endLoop after it has set `quit_`. -/
def AfterQuit : Frame → Prop
  | .endTestReady => True
  | .endTestEnd => True
  | .endTestAgain => True
  | _ => False

/-- The tests of `state_` after the thread has found that it is the loop
thread. -/
def TestsState : Frame → Prop
  | .testPendingHandling => True
  | .testReady => True
  | _ => False

/-- A frame that only loop() puts on a stack, and only while it stands at this
place. -/
def Fits (loop : Option LoopPc) : Frame → Prop
  | .handleWakeUp => ∃ events, loop = some (.dispatch events)
  | .handleRead => ∃ events, loop = some (.dispatch events)
  | .timerRead => ∃ events, loop = some (.dispatch events)
  | .addTimerInLoop => ∃ funcs, loop = some (.runFunctors funcs)
  | .resetTimerfd =>
      (∃ events, loop = some (.dispatch events)) ∨
        ∃ funcs, loop = some (.runFunctors funcs)
  | _ => True

end Frame

/-- The frames that replace a call on top of a stack when the shared members
stay as they are. -/
structure QuietFront
    (s : EventLoop) (t : Tid) (frame : Frame) (c : Choice)
    (front : List Frame) : Prop where
  writes :
    .writeEventfd ∈ front → front = [.writeEventfd] ∧ s.state_ ≠ .End
  fits :
    ∀ loop, frame.Fits loop → ∀ g ∈ front, Frame.Fits loop g
  afterQuit : ∀ g ∈ front, g.AfterQuit → frame.AfterQuit
  endLoop : .endLoop ∈ front → c = .call .endLoop
  testsState :
    ∀ g ∈ front, g.TestsState → frame.TestsState ∨ s.threadId_ = t
  willWake :
    frame.WillWake s t → s.state_ ≠ .End →
      ∃ g front', front = g :: front' ∧ g.WillWake s t

namespace QuietFront

variable {s : EventLoop} {t : Tid} {frame : Frame} {c : Choice}

/-- The call ends. -/
theorem nil
    (hwake : frame.WillWake s t → s.state_ = .End := by
      simp [Frame.WillWake]) :
    QuietFront s t frame c [] where
  writes := fun h => by cases h
  fits := fun _ _ _ h => by cases h
  afterQuit := fun _ h => by cases h
  endLoop := fun h => by cases h
  testsState := fun _ h => by cases h
  willWake := fun h hend => absurd (hwake h) hend

/-- The call goes on as another one. -/
theorem single
    (g : Frame)
    (hwake : frame.WillWake s t → s.state_ ≠ .End → g.WillWake s t := by
      simp [Frame.WillWake])
    (htests : g.TestsState → frame.TestsState ∨ s.threadId_ = t := by
      simp [Frame.TestsState])
    (hwrites : g = .writeEventfd → s.state_ ≠ .End := by simp)
    (hend : g ≠ .endLoop := by simp)
    (hquit : g.AfterQuit → frame.AfterQuit := by simp [Frame.AfterQuit])
    (hfits : ∀ loop, frame.Fits loop → g.Fits loop := by
      simp +contextual [Frame.Fits]) :
    QuietFront s t frame c [g] where
  writes := fun h =>
    have hg := (List.mem_singleton.mp h).symm
    ⟨congrArg (fun g => [g]) hg, hwrites hg⟩
  fits := fun loop h _ hg => List.mem_singleton.mp hg ▸ hfits loop h
  afterQuit := fun _ hg h => hquit (List.mem_singleton.mp hg ▸ h)
  endLoop := fun h => absurd (List.mem_singleton.mp h).symm hend
  testsState := fun _ hg h => htests (List.mem_singleton.mp hg ▸ h)
  willWake := fun h hend => ⟨g, [], rfl, hwake h hend⟩

/-- The call makes another one and goes on as `g` after it. -/
theorem pair
    (inner g : Frame)
    (hwake : ¬ frame.WillWake s t := by simp [Frame.WillWake])
    (htests : ¬ inner.TestsState ∧ ¬ g.TestsState := by
      simp [Frame.TestsState])
    (hwrites : inner ≠ .writeEventfd ∧ g ≠ .writeEventfd := by simp)
    (hend : .endLoop ∈ [inner, g] → c = .call .endLoop := by simp)
    (hquit : ∀ f ∈ [inner, g], f.AfterQuit → frame.AfterQuit := by
      simp [Frame.AfterQuit])
    (hfits : ∀ loop, frame.Fits loop → ∀ f ∈ [inner, g], f.Fits loop := by
      simp +contextual [Frame.Fits]) :
    QuietFront s t frame c [inner, g] where
  writes := fun h => by
    simp [Ne.symm hwrites.1, Ne.symm hwrites.2] at h
  fits := hfits
  afterQuit := hquit
  endLoop := hend
  testsState := fun f hf h => by
    rcases List.mem_pair.mp hf with rfl | rfl
    · exact absurd h htests.1
    · exact absurd h htests.2
  willWake := fun h => absurd h hwake

end QuietFront

/-- The moves of a call. -/
inductive CallMove
    (s : EventLoop) (t : Tid) (th : LoopThread) (rest : List Frame)
    (frame : Frame) (c : Choice) : LoopThread × Effect → Prop
  | quiet (front : List Frame) (hfront : QuietFront s t frame c front) :
      CallMove s t th rest frame c
        ({ th with calls := front ++ rest }, .nothing)
  | enters (hloop : th.loop = none)
      (hfrom :
        c = .call .loop ∧ frame = .user ∨
          frame = .endTestAgain ∧ s.state_ = .Ready) :
      CallMove s t th rest frame c
        ({ calls := [], loop := some .enter }, .nothing)
  | pushes (f : Functor) (hframe : frame = .pushFunctor f) :
      CallMove s t th rest frame c
        ({ th with calls := .testLoopThread :: rest }, .push f)
  | writes (hframe : frame = .writeEventfd)
      (hhandler : s.wakeUpHandler_ = true) :
      CallMove s t th rest frame c
        ({ th with calls := rest }, .writeEventfd)
  | reads (hframe : frame = .handleWakeUp)
      (hhandler : s.wakeUpHandler_ = true) :
      CallMove s t th rest frame c
        ({ th with calls := rest }, .readEventfd)
  | quits (hframe : frame = .endLoop) :
      CallMove s t th rest frame c
        ({ th with calls := .endTestReady :: rest }, .setQuit)

/-- The moves of loop(). -/
inductive LoopMove
    (s : EventLoop) (t : Tid) (th : LoopThread) :
    LoopPc → LoopThread × Effect → Prop
  | ended (hend : s.state_ = .End) :
      LoopMove s t th .enter
        ({ calls := [.user], loop := none }, .nothing)
  | entered (hend : s.state_ ≠ .End) :
      LoopMove s t th .enter
        ({ th with loop := some .updateThread }, .nothing)
  | updated :
      LoopMove s t th .updateThread
        ({ th with loop := some .assertThread }, .setThreadId t)
  | kept (ht : s.threadId_ = t) :
      LoopMove s t th .updateThread
        ({ th with loop := some .assertThread }, .nothing)
  | asserted (ht : s.threadId_ = t) :
      LoopMove s t th .assertThread
        ({ th with loop := some .whileTest }, .nothing)
  | stops (hquit : s.quit_ = true) :
      LoopMove s t th .whileTest
        ({ th with loop := some .setEnd }, .nothing)
  | iterates (hquit : s.quit_ = false) :
      LoopMove s t th .whileTest
        ({ th with loop := some .setPolling }, .nothing)
  | polls :
      LoopMove s t th .setPolling
        ({ th with loop := some .wait }, .setState .Polling)
  | returns (events : List IOEvent) :
      LoopMove s t th .wait
        ({ th with loop := some (.setIOHandling events) }, .nothing)
  | handles (events : List IOEvent) :
      LoopMove s t th (.setIOHandling events)
        ({ th with loop := some (.dispatch events) },
          .setState .IOHandling)
  | dispatched :
      LoopMove s t th (.dispatch [])
        ({ th with loop := some .setPendingHandling }, .nothing)
  | dispatches (event : IOEvent) (events : List IOEvent) :
      LoopMove s t th (.dispatch (event :: events))
        ({ calls := [event.frame], loop := some (.dispatch events) },
          .nothing)
  | pends :
      LoopMove s t th .setPendingHandling
        ({ th with loop := some .swap }, .setState .PendingHandling)
  | swaps :
      LoopMove s t th .swap
        ({ th with loop := some (.runFunctors s.pendingFunctors_) },
          .swap)
  | ran :
      LoopMove s t th (.runFunctors [])
        ({ th with loop := some .whileTest }, .nothing)
  | runs (n : Nat) (f : Functor) (funcs : List (Nat × Functor)) :
      LoopMove s t th (.runFunctors ((n, f) :: funcs))
        ({ calls := [f.frame], loop := some (.runFunctors funcs) },
          .execute n)
  | ends :
      LoopMove s t th .setEnd
        ({ th with loop := some .disableTimer }, .setState .End)
  | disablesTimer (hhandler : s.timerFdIOHandle_ = true) :
      LoopMove s t th .disableTimer
        ({ th with loop := some .resetTimer }, .nothing)
  | resetsTimer :
      LoopMove s t th .resetTimer
        ({ th with loop := some .disableWakeUp }, .resetTimer)
  | disablesWakeUp (hhandler : s.wakeUpHandler_ = true) :
      LoopMove s t th .disableWakeUp
        ({ th with loop := some .resetWakeUp }, .nothing)
  | resetsWakeUp :
      LoopMove s t th .resetWakeUp
        ({ th with loop := some .clear }, .resetWakeUp)
  | clears :
      LoopMove s t th .clear
        ({ th with loop := some .leave }, .clear)
  | leaves :
      LoopMove s t th .leave
        ({ calls := [.user], loop := none }, .nothing)

namespace LoopThread

/-- loop() goes on by itself, except where it waits for events. -/
theorem loopStep_choice
    {s : EventLoop} {t : Tid} {th : LoopThread} {pc : LoopPc}
    {c : Choice} {r : LoopThread × Effect}
    (hstep : th.loopStep s t pc c = some r) :
    c = .step ∨ pc = .wait ∧ ∃ events, c = .ready events := by
  unfold loopStep at hstep
  split at hstep
  all_goals first
    | exact .inl rfl
    | exact .inr ⟨rfl, _, rfl⟩
    | cases hstep

theorem loopStep_move
    {s : EventLoop} {t : Tid} {th : LoopThread} {pc : LoopPc}
    {c : Choice} {r : LoopThread × Effect}
    (hstep : th.loopStep s t pc c = some r) :
    LoopMove s t th pc r := by
  obtain rfl | ⟨rfl, events, rfl⟩ := loopStep_choice hstep
  · cases pc with
    | enter =>
        simp only [loopStep] at hstep
        split at hstep
        next hend =>
          cases hstep
          exact .ended hend
        next hend =>
          cases hstep
          exact .entered hend
    | updateThread =>
        simp only [loopStep] at hstep
        split at hstep
        next =>
          cases hstep
          exact .updated
        next ht =>
          cases hstep
          exact .kept (not_not.mp ht).symm
    | assertThread =>
        simp only [loopStep] at hstep
        split at hstep
        next ht =>
          cases hstep
          exact .asserted ht
        next => cases hstep
    | whileTest =>
        simp only [loopStep] at hstep
        split at hstep
        next hquit =>
          cases hstep
          exact .stops hquit
        next hquit =>
          cases hstep
          exact .iterates (Bool.not_eq_true _ ▸ hquit)
    | setPolling =>
        cases hstep
        exact .polls
    | wait =>
        cases hstep
    | setIOHandling events =>
        cases hstep
        exact .handles events
    | dispatch events =>
        cases events with
        | nil =>
            cases hstep
            exact .dispatched
        | cons event events =>
            cases hstep
            exact .dispatches event events
    | setPendingHandling =>
        cases hstep
        exact .pends
    | swap =>
        cases hstep
        exact .swaps
    | runFunctors funcs =>
        cases funcs with
        | nil =>
            cases hstep
            exact .ran
        | cons func funcs =>
            cases hstep
            exact .runs func.1 func.2 funcs
    | setEnd =>
        cases hstep
        exact .ends
    | disableTimer =>
        simp only [loopStep] at hstep
        split at hstep
        next hhandler =>
          cases hstep
          exact .disablesTimer hhandler
        next => cases hstep
    | resetTimer =>
        cases hstep
        exact .resetsTimer
    | disableWakeUp =>
        simp only [loopStep] at hstep
        split at hstep
        next hhandler =>
          cases hstep
          exact .disablesWakeUp hhandler
        next => cases hstep
    | resetWakeUp =>
        cases hstep
        exact .resetsWakeUp
    | clear =>
        cases hstep
        exact .clears
    | leave =>
        cases hstep
        exact .leaves
  · simp only [loopStep] at hstep
    split at hstep
    next => cases hstep
    next =>
      cases hstep
      exact .returns events

/-- The shared members stay as they are. -/
theorem proceed_move
    {s : EventLoop} {t : Tid} {th : LoopThread} {rest : List Frame}
    {frame : Frame} {c : Choice} {front : List Frame}
    {r : LoopThread × Effect}
    (hfront : QuietFront s t frame c front)
    (hstep : th.proceed (front ++ rest) = some r) :
    CallMove s t th rest frame c r := by
  cases hstep
  exact .quiet front hfront

/-- A call of loop() starts loop() or returns at once. -/
theorem enterLoop_move
    {s : EventLoop} {t : Tid} {th : LoopThread} {rest : List Frame}
    {frame : Frame} {c : Choice} (front : List Frame)
    {r : LoopThread × Effect}
    (hfrom :
      c = .call .loop ∧ frame = .user ∨
        frame = .endTestAgain ∧ s.state_ = .Ready)
    (hfront : QuietFront s t frame c front)
    (hstep : enterLoop s th (front ++ rest) = some r) :
    CallMove s t th rest frame c r := by
  unfold enterLoop proceed at hstep
  split at hstep
  · rename_i hloop
    cases hstep
    exact .enters hloop hfrom
  · split at hstep
    · cases hstep
      exact .quiet front hfront
    · cases hstep

/-- A call of user code ends or makes another call, and the timer fd is not set
when no timer is first; every other call goes on by itself. -/
theorem callStep_choice
    {s : EventLoop} {t : Tid} {th : LoopThread} {rest : List Frame}
    {frame : Frame} {c : Choice} {r : LoopThread × Effect}
    (hstep : th.callStep s t rest frame c = some r) :
    c = .step ∨ (frame = .user ∨ frame = .resetTimerfd) ∧ c = .ret ∨
      frame = .user ∧ ∃ call, c = .call call := by
  unfold callStep at hstep
  split at hstep
  all_goals first
    | exact .inl rfl
    | exact .inr (.inl ⟨.inl rfl, rfl⟩)
    | exact .inr (.inl ⟨.inr rfl, rfl⟩)
    | exact .inr (.inr ⟨rfl, _, rfl⟩)
    | cases hstep

/-- The step of a call that goes on by itself. -/
theorem callStep_step_move
    {s : EventLoop} {t : Tid} {th : LoopThread} {rest : List Frame}
    {frame : Frame} {r : LoopThread × Effect}
    (hstep : th.callStep s t rest frame .step = some r) :
    CallMove s t th rest frame .step r := by
  cases frame with
  | user => cases hstep
  | runInLoop =>
      simp only [callStep] at hstep
      split at hstep
      next => exact proceed_move (.single .runInLoopEnded) hstep
      next => exact proceed_move (.single .runInLoopTest) hstep
  | runInLoopEnded =>
      simp only [callStep] at hstep
      split at hstep
      next => exact proceed_move (.single .user) hstep
      next => exact proceed_move .nil hstep
  | runInLoopTest =>
      simp only [callStep] at hstep
      split at hstep
      next => exact proceed_move (.single .user) hstep
      next => exact proceed_move (.single (.queueInLoop .user)) hstep
  | queueInLoop f =>
      simp only [callStep] at hstep
      split at hstep
      next => exact proceed_move .nil hstep
      next => exact proceed_move (.single (.pushFunctor f)) hstep
  | pushFunctor f =>
      cases hstep
      exact .pushes f rfl
  | testLoopThread =>
      simp only [callStep] at hstep
      split at hstep
      next =>
        exact proceed_move (.single .wakeUp (fun _ _ => trivial)) hstep
      next ht =>
        have ht := not_not.mp ht
        exact proceed_move
          (.single .testPendingHandling
            (fun h _ => h.resolve_left (not_not.mpr ht))
            (fun _ => .inr ht))
          hstep
  | testPendingHandling =>
      simp only [callStep] at hstep
      split at hstep
      next =>
        exact proceed_move (.single .wakeUp (fun _ _ => trivial)) hstep
      next hstate =>
        exact proceed_move
          (.single .testReady (fun h _ => h.resolve_left hstate)
            (fun _ => .inl trivial))
          hstep
  | testReady =>
      simp only [callStep] at hstep
      split at hstep
      next =>
        exact proceed_move (.single .wakeUp (fun _ _ => trivial)) hstep
      next hstate =>
        exact proceed_move (.nil fun h => absurd h hstate) hstep
  | wakeUp =>
      simp only [callStep] at hstep
      split at hstep
      next hend => exact proceed_move (.nil fun _ => hend) hstep
      next hend =>
        exact proceed_move
          (.single .writeEventfd (fun _ _ => trivial) nofun (fun _ => hend)) hstep
  | writeEventfd =>
      simp only [callStep] at hstep
      split at hstep
      next hhandler =>
        cases hstep
        exact .writes rfl hhandler
      next => cases hstep
  | endLoop =>
      cases hstep
      exact .quits rfl
  | endTestReady =>
      simp only [callStep] at hstep
      split at hstep
      next => exact proceed_move (.single .endTestEnd) hstep
      next => exact proceed_move (.single .endTestAgain) hstep
  | endTestEnd =>
      simp only [callStep] at hstep
      split at hstep
      next => exact proceed_move (.pair .wakeUp .endTestAgain) hstep
      next => exact proceed_move (.single .endTestAgain) hstep
  | endTestAgain =>
      simp only [callStep] at hstep
      split at hstep
      next hready =>
        exact enterLoop_move [] (.inr ⟨rfl, hready⟩) .nil hstep
      next => exact proceed_move .nil hstep
  | handleWakeUp =>
      simp only [callStep] at hstep
      split at hstep
      next hhandler =>
        cases hstep
        exact .reads rfl hhandler
      next => cases hstep
  | handleRead =>
      simp only [callStep] at hstep
      split at hstep
      next => exact proceed_move (.single .timerRead) hstep
      next => cases hstep
  | timerRead =>
      simp only [callStep] at hstep
      split at hstep
      next => exact proceed_move (.pair .user .resetTimerfd) hstep
      next => cases hstep
  | addTimerInLoop =>
      simp only [callStep] at hstep
      split at hstep
      next => exact proceed_move (.single .resetTimerfd) hstep
      next => cases hstep
  | resetTimerfd =>
      simp only [callStep] at hstep
      split at hstep
      next => exact proceed_move .nil hstep
      next => cases hstep

theorem callStep_move
    {s : EventLoop} {t : Tid} {th : LoopThread} {rest : List Frame}
    {frame : Frame} {c : Choice} {r : LoopThread × Effect}
    (hstep : th.callStep s t rest frame c = some r) :
    CallMove s t th rest frame c r := by
  obtain rfl | ⟨rfl | rfl, rfl⟩ | ⟨rfl, call, rfl⟩ := callStep_choice hstep
  · exact callStep_step_move hstep
  · exact proceed_move .nil hstep
  · exact proceed_move .nil hstep
  · cases call with
    | queueInLoop f => exact proceed_move (.pair (.queueInLoop f) .user) hstep
    | runInLoop => exact proceed_move (.pair .runInLoop .user) hstep
    | wakeUp => exact proceed_move (.pair .wakeUp .user) hstep
    | endLoop =>
        exact proceed_move (.pair .endLoop .user) hstep
    | loop =>
        exact enterLoop_move [.user] (.inl ⟨rfl, rfl⟩) (.single .user) hstep

end LoopThread

namespace LoopSystem

/-- A step is a move of a call or a move of loop(). -/
theorem step_cases
    {s s' : LoopSystem} {l : LoopLabel}
    (hstep : s.step l = some s') :
    (∃ frame rest r,
      (s.threads l.tid).calls = frame :: rest ∧
      CallMove s.shared l.tid (s.threads l.tid) rest frame l.choice r ∧
      s' = s.after l.tid r) ∨
    (∃ pc r,
      (s.threads l.tid).calls = [] ∧
      (s.threads l.tid).loop = some pc ∧
      LoopMove s.shared l.tid (s.threads l.tid) pc r ∧
      s' = s.after l.tid r) := by
  obtain ⟨r, hnext, rfl⟩ := Option.map_eq_some_iff.mp hstep
  unfold next at hnext
  split at hnext
  · rename_i frame rest hcalls
    exact .inl
      ⟨frame, rest, r, hcalls, LoopThread.callStep_move hnext, rfl⟩
  · rename_i pc hcalls hloop
    exact .inr
      ⟨pc, r, hcalls, hloop, LoopThread.loopStep_move hnext, rfl⟩
  · cases hnext

end LoopSystem

/-- A stack of calls and the place of loop() below it fit together. -/
structure LoopThread.Ok (th : LoopThread) : Prop where
  writes : .writeEventfd ∉ th.calls.tail
  fits : ∀ f ∈ th.calls, f.Fits th.loop
  place :
    th.calls ≠ [] →
      th.loop = none ∨
      (∃ events, th.loop = some (.dispatch events)) ∨
      ∃ funcs, th.loop = some (.runFunctors funcs)

theorem CallMove.ok
    {s : EventLoop} {t : Tid} {th : LoopThread} {rest : List Frame}
    {frame : Frame} {c : Choice} {r : LoopThread × Effect}
    (hmove : CallMove s t th rest frame c r)
    (hcalls : th.calls = frame :: rest)
    (hok : th.Ok) :
    r.1.Ok := by
  have hwrites : .writeEventfd ∉ rest := by
    simpa [hcalls] using hok.writes
  have hfits : ∀ g ∈ rest, g.Fits th.loop := by
    intro g hg
    exact hok.fits g (by simp [hcalls, hg])
  have hframe : frame.Fits th.loop := hok.fits frame (by simp [hcalls])
  have hplace := hok.place (by simp [hcalls])
  have htop :
      ∀ g : Frame, g.Fits th.loop →
        ({ th with calls := g :: rest } : LoopThread).Ok := by
    intro g hg
    refine ⟨hwrites, ?_, fun _ => hplace⟩
    intro f hf
    rcases List.mem_cons.mp hf with rfl | hf
    · exact hg
    · exact hfits f hf
  have hpop : ({ th with calls := rest } : LoopThread).Ok :=
    ⟨fun h => hwrites (List.mem_of_mem_tail h), hfits,
      fun _ => hplace⟩
  cases hmove with
  | quiet front hfront =>
      refine ⟨?_, ?_, fun _ => hplace⟩
      · intro hmem
        cases front with
        | nil =>
            exact hwrites (List.mem_of_mem_tail hmem)
        | cons g front =>
            rcases List.mem_append.mp hmem with hfrontmem | hrest
            · obtain ⟨hone, _⟩ :=
                hfront.writes (List.mem_cons_of_mem g hfrontmem)
              obtain ⟨_, rfl⟩ := List.cons.inj hone
              simp at hfrontmem
            · exact hwrites hrest
      · intro f hf
        rcases List.mem_append.mp hf with hf | hf
        · exact hfront.fits th.loop hframe f hf
        · exact hfits f hf
  | enters =>
      exact ⟨by simp, by simp, by simp⟩
  | pushes =>
      exact htop .testLoopThread trivial
  | writes =>
      exact hpop
  | reads =>
      exact hpop
  | quits =>
      exact htop .endTestReady trivial

theorem LoopMove.ok
    {s : EventLoop} {t : Tid} {th : LoopThread} {pc : LoopPc}
    {r : LoopThread × Effect}
    (hmove : LoopMove s t th pc r)
    (hcalls : th.calls = []) :
    r.1.Ok := by
  cases hmove with
  | ended =>
      exact ⟨by simp, by simp [Frame.Fits], fun _ => .inl rfl⟩
  | leaves =>
      exact ⟨by simp, by simp [Frame.Fits], fun _ => .inl rfl⟩
  | dispatches event events =>
      refine ⟨by simp, ?_, fun _ => .inr (.inl ⟨events, rfl⟩)⟩
      cases event
      all_goals simp [IOEvent.frame, Frame.Fits]
  | runs n f funcs =>
      refine ⟨by simp, ?_, fun _ => .inr (.inr ⟨funcs, rfl⟩)⟩
      cases f
      all_goals simp [Functor.frame, Frame.Fits]
  | _ =>
      exact ⟨by simp [hcalls], by simp [hcalls], by simp [hcalls]⟩

namespace LoopSystem

/-- The stacks of all threads fit. -/
def StacksOk (s : LoopSystem) : Prop :=
  ∀ t, (s.threads t).Ok

theorem create_stacksOk (creator : Tid) :
    (create creator).StacksOk := by
  intro t
  exact ⟨by simp [create], by simp [create, Frame.Fits], fun _ => .inl rfl⟩

end LoopSystem

theorem CallMove.stacksOk
    {s : LoopSystem} {t : Tid} {rest : List Frame} {frame : Frame}
    {c : Choice} {r : LoopThread × Effect}
    (hmove : CallMove s.shared t (s.threads t) rest frame c r)
    (hcalls : (s.threads t).calls = frame :: rest)
    (hok : s.StacksOk) :
    (s.after t r).StacksOk :=
  LoopSystem.forall_after (fun _ _ th => th.Ok)
    (hmove.ok hcalls (hok t)) (fun u _ => hok u)

theorem LoopMove.stacksOk
    {s : LoopSystem} {t : Tid} {pc : LoopPc} {r : LoopThread × Effect}
    (hmove : LoopMove s.shared t (s.threads t) pc r)
    (hcalls : (s.threads t).calls = [])
    (hok : s.StacksOk) :
    (s.after t r).StacksOk :=
  LoopSystem.forall_after (fun _ _ th => th.Ok)
    (hmove.ok hcalls) (fun u _ => hok u)

end Hohnor
