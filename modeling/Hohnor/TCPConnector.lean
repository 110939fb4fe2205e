import Hohnor.IOHandler
import Hohnor.TransitionRuns

/-!
# Connectors

`TCPConnector` of src/net/TCPConnector.cpp, as its operations run in the loop
thread.  The fds that socket() returns, the errno after connect() and the
SO_ERROR of the socket are arguments; an errno of 0 is none.  A user callback
is a value of an arbitrary type, the empty std::function is none.  Every one of
them is called last, so what it calls is a later step of the run.

A failed attempt leaves the connector Disconnected until its retry timer fires.
A stop() in between returns without a trace, and the timer connects again.
-/

namespace Hohnor

open TransitionRuns

/-- `TCPConnector::State`. -/
inductive ConnectorState where
  | Disconnected
  | Connecting
  | Connected
deriving DecidableEq, Repr

/-- What the connector installs in its handler. -/
inductive ConnectorCallback where
  | handleConnectWrite
  | handleConnectError
deriving DecidableEq, Repr

/-- What a step of a connector does outside of it. -/
inductive ConnectorEffect (κ ι : Type) where
  | connect (fd : Nat) (addr : ι)
  | newConnection (cb : κ) (handler : IOHandler ConnectorCallback)
  | addTimer (delayMs : Int)
  | retrying (cb : κ)
  | failed (cb : κ)
deriving DecidableEq, Repr

structure TCPConnector (κ ι : Type) where
  socketHandler_ : Option (IOHandler ConnectorCallback)
  serverAddr_ : ι
  constantDelay_ : Bool
  retryDelayMs_ : Int
  maxRetries_ : Int
  currentRetries_ : Int
  newConnectionCallback_ : Option κ
  retryCallback_ : Option κ
  failedCallback_ : Option κ
  state_ : ConnectorState
deriving DecidableEq, Repr

section TCPConnector

variable {κ ι : Type}

namespace TCPConnector

def DefaultRetryDelayMs : Int :=
  500

/-- The constructor; `fd` is what socket() returns. -/
def create (fd : Nat) (addr : ι) : TCPConnector κ ι where
  socketHandler_ := some (IOHandler.create fd)
  serverAddr_ := addr
  constantDelay_ := false
  retryDelayMs_ := DefaultRetryDelayMs
  maxRetries_ := 0
  currentRetries_ := 0
  newConnectionCallback_ := none
  retryCallback_ := none
  failedCallback_ := none
  state_ := .Disconnected

def setRetryConstantDelay (c : TCPConnector κ ι) (delayMs : Int) :
    TCPConnector κ ι :=
  { c with retryDelayMs_ := delayMs, constantDelay_ := true }

def setRetries (c : TCPConnector κ ι) (retries : Int) :
    TCPConnector κ ι :=
  { c with maxRetries_ := retries }

/-- `stop`; the handler that it disables is dropped.  Without one there is no
result. -/
def stop (c : TCPConnector κ ι) (newFd : Nat) :
    Option (TCPConnector κ ι) :=
  let stopped :=
    { c with
      state_ := .Disconnected
      socketHandler_ := some (IOHandler.create newFd) }
  if c.state_ = .Disconnected then
    some c
  else if c.state_ = .Connected ∧ c.socketHandler_.isNone then
    some stopped
  else
    c.socketHandler_.map (fun _ => stopped)

/-- `connecting`.  A failed HCHECK and a null handler have no result. -/
def connecting (c : TCPConnector κ ι) : Option (TCPConnector κ ι) :=
  if c.state_ = .Connecting then
    c.socketHandler_.map fun h =>
      let h := (h.setWriteCallback (some .handleConnectWrite)).1
      let h := (h.setCloseCallback (some .handleConnectError)).1
      let h := (h.setErrorCallback (some .handleConnectError)).1
      { c with socketHandler_ := some h.enable.1 }
  else
    none

def retry (c : TCPConnector κ ι) (newFd : Nat) :
    Option (TCPConnector κ ι × List (ConnectorEffect κ ι)) :=
  (c.stop newFd).map fun c =>
    if c.maxRetries_ < 0 ∨ c.currentRetries_ < c.maxRetries_ then
      let c :=
        { c with
          currentRetries_ := c.currentRetries_ + 1
          retryDelayMs_ :=
            if c.constantDelay_ then c.retryDelayMs_
            else min (c.retryDelayMs_ * 2) 30000 }
      (c, .addTimer c.retryDelayMs_ ::
        c.retryCallback_.toList.map .retrying)
    else
      (c, c.failedCallback_.toList.map .failed)

/-- `handleConnectError`.  It asks the socket of its handler for SO_ERROR;
without a handler there is no result. -/
def handleConnectError (c : TCPConnector κ ι) (newFd : Nat) :
    Option (TCPConnector κ ι × List (ConnectorEffect κ ι)) :=
  if c.state_ = .Connected then
    some (c, [])
  else
    c.socketHandler_.bind fun _ => c.retry newFd

/-- `handleConnectWrite`; `err` is the SO_ERROR of its handler's socket. -/
def handleConnectWrite
    (c : TCPConnector κ ι) (err : Option Errno) (newFd : Nat) :
    Option (TCPConnector κ ι × List (ConnectorEffect κ ι)) :=
  if c.state_ ≠ .Connecting then
    some (c, [])
  else
    c.socketHandler_.bind fun h =>
      if err.isSome then
        c.retry newFd
      else
        let h := ((h.setWriteCallback none).1.setErrorCallback none).1
        some
          ({ c with state_ := .Connected, socketHandler_ := none },
            c.newConnectionCallback_.toList.map (.newConnection · h))

/-- The switch on the errno that `Socket::connect` leaves. -/
def afterConnect
    (c : TCPConnector κ ι) (savedErrno : Option Errno) (newFd : Nat) :
    Option (TCPConnector κ ι × List (ConnectorEffect κ ι)) :=
  match savedErrno with
  | none | some .EISCONN | some .EINPROGRESS | some .EINTR =>
      c.connecting.map fun c => (c, [])
  | some .EAGAIN | some .EADDRINUSE | some .EADDRNOTAVAIL
  | some .ECONNREFUSED | some .ENETUNREACH =>
      c.retry newFd
  | some _ => c.handleConnectError newFd

/-- `connect`.  A failed HCHECK and a null handler have no result. -/
def connect
    (c : TCPConnector κ ι) (addr : ι)
    (savedErrno : Option Errno) (newFd : Nat) :
    Option (TCPConnector κ ι × List (ConnectorEffect κ ι)) :=
  match c.socketHandler_ with
  | none => none
  | some h =>
      if c.state_ = .Disconnected then
        let h := ((h.setWriteCallback none).1.setErrorCallback none).1
        let c :=
          { c with socketHandler_ := some h, state_ := .Connecting }
        (c.afterConnect savedErrno newFd).map fun r =>
          (r.1, .connect h.fd addr :: r.2)
      else
        none

/-- `start`; `stopFd` is the fd of the stop() that it may call. -/
def start
    (c : TCPConnector κ ι) (savedErrno : Option Errno)
    (stopFd newFd : Nat) :
    Option (TCPConnector κ ι × List (ConnectorEffect κ ι)) :=
  (if c.state_ = .Disconnected then some c else c.stop stopFd).bind
    fun c =>
      let c :=
        { c with
          currentRetries_ := 0
          retryDelayMs_ :=
            if c.constantDelay_ then c.retryDelayMs_
            else DefaultRetryDelayMs }
      c.connect c.serverAddr_ savedErrno newFd

/-- The callback of a retry timer. -/
def retryTimer
    (c : TCPConnector κ ι) (savedErrno : Option Errno) (newFd : Nat) :
    Option (TCPConnector κ ι × List (ConnectorEffect κ ι)) :=
  if c.state_ = .Disconnected then
    c.connect c.serverAddr_ savedErrno newFd
  else
    some (c, [])

end TCPConnector

/-- What the handler of a connector calls for an event. -/
inductive ConnectorEvent where
  | close
  | error
  | read
  | write
deriving DecidableEq, Repr

inductive ConnectorOp (κ : Type) where
  | setNewConnectionCallback (cb : Option κ)
  | setRetryConnectionCallback (cb : Option κ)
  | setFailedConnectionCallback (cb : Option κ)
  | setRetryConstantDelay (delayMs : Int)
  | setRetries (retries : Int)
  | start (savedErrno : Option Errno) (stopFd newFd : Nat)
  | stop (newFd : Nat)
  | event (ev : ConnectorEvent) (err : Option Errno) (newFd : Nat)
  | timer (i : Nat) (savedErrno : Option Errno) (newFd : Nat)
deriving DecidableEq, Repr

/-- A connector, its pending retry timers in the order in which they were
added, and whether a stop() has returned since the last start(). -/
structure ConnectorRun (κ ι : Type) where
  connector : TCPConnector κ ι
  timers : List Int
  stopped : Bool
deriving DecidableEq, Repr

namespace TCPConnector

/-- The callback that the handler has for an event, if the handler is
enabled. -/
def callbackFor (c : TCPConnector κ ι) (ev : ConnectorEvent) :
    Option ConnectorCallback :=
  c.socketHandler_.bind fun h =>
    if h.isEnabled then
      match ev with
      | .close => h.closeCallback_
      | .error => h.errorCallback_
      | .read => h.readCallback_
      | .write => h.writeCallback_
    else
      none

def handleEvent
    (c : TCPConnector κ ι) (ev : ConnectorEvent)
    (err : Option Errno) (newFd : Nat) :
    Option (TCPConnector κ ι × List (ConnectorEffect κ ι)) :=
  match c.callbackFor ev with
  | none => some (c, [])
  | some .handleConnectWrite => c.handleConnectWrite err newFd
  | some .handleConnectError => c.handleConnectError newFd

end TCPConnector

def ConnectorEffect.delay? : ConnectorEffect κ ι → Option Int
  | .addTimer delayMs => some delayMs
  | _ => none

namespace ConnectorRun

/-- The connector has returned from an operation with these effects. -/
def finish
    (s : ConnectorRun κ ι) (stopped : Bool)
    (r : TCPConnector κ ι × List (ConnectorEffect κ ι)) :
    ConnectorRun κ ι × List (ConnectorEffect κ ι) :=
  ({ connector := r.1
     timers := s.timers ++ r.2.filterMap ConnectorEffect.delay?
     stopped := stopped }, r.2)

/-- One operation and its effects. -/
def perform (s : ConnectorRun κ ι) (op : ConnectorOp κ) :
    Option (ConnectorRun κ ι × List (ConnectorEffect κ ι)) :=
  let c := s.connector
  match op with
  | .setNewConnectionCallback cb =>
      some (s.finish s.stopped
        ({ c with newConnectionCallback_ := cb }, []))
  | .setRetryConnectionCallback cb =>
      some (s.finish s.stopped ({ c with retryCallback_ := cb }, []))
  | .setFailedConnectionCallback cb =>
      some (s.finish s.stopped ({ c with failedCallback_ := cb }, []))
  | .setRetryConstantDelay delayMs =>
      some (s.finish s.stopped (c.setRetryConstantDelay delayMs, []))
  | .setRetries retries =>
      some (s.finish s.stopped (c.setRetries retries, []))
  | .start savedErrno stopFd newFd =>
      (c.start savedErrno stopFd newFd).map (s.finish false)
  | .stop newFd =>
      (c.stop newFd).map fun c => s.finish true (c, [])
  | .event ev err newFd =>
      (c.handleEvent ev err newFd).map (s.finish s.stopped)
  | .timer i savedErrno newFd =>
      if i < s.timers.length then
        (c.retryTimer savedErrno newFd).map
          ({ s with timers := s.timers.eraseIdx i }.finish s.stopped)
      else
        none

def step (s : ConnectorRun κ ι) (op : ConnectorOp κ) :
    Option (ConnectorRun κ ι) :=
  (s.perform op).map (·.1)

def initial (fd : Nat) (addr : ι) : ConnectorRun κ ι where
  connector := TCPConnector.create fd addr
  timers := []
  stopped := false

end ConnectorRun

/-- An attempt to connect begins, or succeeds. -/
def ConnectorEffect.isAttempt : ConnectorEffect κ ι → Bool
  | .connect _ _ => true
  | .newConnection _ _ => true
  | _ => false

def ConnectorOp.isStart : ConnectorOp κ → Bool
  | .start _ _ _ => true
  | _ => false

def ConnectorOp.isStop : ConnectorOp κ → Bool
  | .stop _ => true
  | _ => false

def ConnectorOp.isTimer : ConnectorOp κ → Bool
  | .timer _ _ _ => true
  | _ => false

namespace TCPConnector

/-- The handler is moved out exactly while Connected, and the handler of a
Disconnected connector is not in epoll. -/
structure Holds (c : TCPConnector κ ι) : Prop where
  connected_iff :
    c.state_ = .Connected ↔ c.socketHandler_ = none
  idle :
    c.state_ = .Disconnected →
      ∀ h, c.socketHandler_ = some h → h.isEnabled = false

/-- A call that completes and leaves what a connector holds. -/
def Completes
    (r : Option (TCPConnector κ ι × List (ConnectorEffect κ ι))) :
    Prop :=
  ∃ c es, r = some (c, es) ∧ c.Holds

theorem create_holds
    (fd : Nat) (addr : ι) :
    (create fd addr : TCPConnector κ ι).Holds where
  connected_iff := by
    simp [create]
  idle := by
    intro _ h hh
    cases hh
    rfl

/-- The fields that `Holds` is about. -/
theorem Holds.congr
    {c c' : TCPConnector κ ι} (hc : c.Holds)
    (hstate : c'.state_ = c.state_)
    (hhandler : c'.socketHandler_ = c.socketHandler_) :
    c'.Holds where
  connected_iff := by
    rw [hstate, hhandler]
    exact hc.connected_iff
  idle := by
    rw [hstate, hhandler]
    exact hc.idle

theorem Holds.handler
    {c : TCPConnector κ ι} (hc : c.Holds)
    (hstate : c.state_ ≠ .Connected) :
    ∃ h, c.socketHandler_ = some h := by
  cases hh : c.socketHandler_ with
  | none =>
      exact absurd (hc.connected_iff.mpr hh) hstate
  | some h =>
      exact ⟨h, rfl⟩

/-- A Disconnected connector with a handler that epoll has never seen. -/
theorem holds_of_created
    {c : TCPConnector κ ι} {newFd : Nat}
    (hstate : c.state_ = .Disconnected)
    (hhandler : c.socketHandler_ = some (IOHandler.create newFd)) :
    c.Holds where
  connected_iff := by
    simp [hstate, hhandler]
  idle := by
    intro _ h hh
    rw [hhandler] at hh
    cases hh
    rfl

theorem stop_spec
    {c : TCPConnector κ ι} (hc : c.Holds) (newFd : Nat) :
    ∃ c', c.stop newFd = some c' ∧ c'.Holds ∧
      c'.state_ = .Disconnected := by
  cases hstate : c.state_ with
  | Disconnected =>
      exact ⟨c, by simp [stop, hstate], hc, hstate⟩
  | Connecting =>
      obtain ⟨h, hh⟩ := hc.handler (by simp [hstate])
      refine ⟨_, by simp only [stop, hstate, hh]; rfl, ?_, rfl⟩
      exact holds_of_created rfl rfl
  | Connected =>
      have hh := hc.connected_iff.mp hstate
      refine ⟨_, by simp only [stop, hstate, hh]; rfl, ?_, rfl⟩
      exact holds_of_created rfl rfl

theorem retry_spec
    {c : TCPConnector κ ι} (hc : c.Holds) (newFd : Nat) :
    Completes (c.retry newFd) := by
  obtain ⟨c', hstop, hc', _⟩ := stop_spec hc newFd
  simp only [retry, hstop, Option.map_some]
  split
  · exact ⟨_, _, rfl, hc'.congr rfl rfl⟩
  · exact ⟨_, _, rfl, hc'⟩

theorem handleConnectError_spec
    {c : TCPConnector κ ι} (hc : c.Holds) (newFd : Nat) :
    Completes (c.handleConnectError newFd) := by
  unfold handleConnectError
  split
  · exact ⟨c, [], rfl, hc⟩
  · rename_i hstate
    obtain ⟨h, hh⟩ := hc.handler hstate
    rw [hh]
    exact retry_spec hc newFd

theorem handleConnectWrite_spec
    {c : TCPConnector κ ι} (hc : c.Holds)
    (err : Option Errno) (newFd : Nat) :
    Completes (c.handleConnectWrite err newFd) := by
  unfold handleConnectWrite
  split
  · exact ⟨c, [], rfl, hc⟩
  · rename_i hstate
    have hconnecting : c.state_ = .Connecting := by
      simpa using hstate
    obtain ⟨h, hh⟩ := hc.handler (by simp [hconnecting])
    rw [hh, Option.bind_some]
    split
    · exact retry_spec hc newFd
    · exact ⟨_, _, rfl, ⟨by simp, by simp⟩⟩

/-- A connector that waits for its connection. -/
theorem holds_of_connecting
    {c : TCPConnector κ ι} {h : IOHandler ConnectorCallback}
    (hstate : c.state_ = .Connecting)
    (hhandler : c.socketHandler_ = some h) :
    c.Holds where
  connected_iff := by
    simp [hstate, hhandler]
  idle := by
    simp [hstate]

theorem afterConnect_spec
    {c : TCPConnector κ ι} {h : IOHandler ConnectorCallback}
    (hstate : c.state_ = .Connecting)
    (hhandler : c.socketHandler_ = some h)
    (savedErrno : Option Errno) (newFd : Nat) :
    Completes (c.afterConnect savedErrno newFd) := by
  have hc := holds_of_connecting hstate hhandler
  unfold afterConnect
  split
  all_goals first
    | exact retry_spec hc newFd
    | exact handleConnectError_spec hc newFd
    | skip
  all_goals
    simp only [connecting, if_pos hstate, hhandler, Option.map_some]
    exact ⟨_, _, rfl, holds_of_connecting hstate rfl⟩

/-- From a Disconnected connector an attempt begins. -/
theorem connect_spec
    {c : TCPConnector κ ι} (hc : c.Holds)
    (hstate : c.state_ = .Disconnected)
    (addr : ι) (savedErrno : Option Errno) (newFd : Nat) :
    ∃ c' fd es,
      c.connect addr savedErrno newFd =
        some (c', .connect fd addr :: es) ∧ c'.Holds := by
  obtain ⟨h, hh⟩ := hc.handler (by simp [hstate])
  simp only [connect, hh, hstate, if_true]
  obtain ⟨c', es, hafter, hc'⟩ :=
    afterConnect_spec
      (c := { c with
        socketHandler_ :=
          some ((h.setWriteCallback none).1.setErrorCallback none).1
        state_ := .Connecting })
      rfl rfl savedErrno newFd
  rw [hafter]
  exact ⟨c', _, es, rfl, hc'⟩

theorem start_spec
    {c : TCPConnector κ ι} (hc : c.Holds)
    (savedErrno : Option Errno) (stopFd newFd : Nat) :
    Completes (c.start savedErrno stopFd newFd) := by
  have hstop :
      ∃ c', (if c.state_ = .Disconnected then some c
          else c.stop stopFd) = some c' ∧ c'.Holds ∧
        c'.state_ = .Disconnected := by
    split
    · rename_i hstate
      exact ⟨c, rfl, hc, hstate⟩
    · exact stop_spec hc stopFd
  obtain ⟨c', hc', hholds, hstate⟩ := hstop
  simp only [start, hc', Option.bind_some]
  obtain ⟨c'', fd, es, hconnect, hc''⟩ :=
    connect_spec
      (c := { c' with
        currentRetries_ := 0
        retryDelayMs_ :=
          if c'.constantDelay_ then c'.retryDelayMs_
          else DefaultRetryDelayMs })
      (hholds.congr rfl rfl) hstate c'.serverAddr_ savedErrno newFd
  exact ⟨c'', _, hconnect, hc''⟩

theorem retryTimer_spec
    {c : TCPConnector κ ι} (hc : c.Holds)
    (savedErrno : Option Errno) (newFd : Nat) :
    Completes (c.retryTimer savedErrno newFd) := by
  unfold retryTimer
  split
  · rename_i hstate
    obtain ⟨c', fd, es, hconnect, hc'⟩ :=
      connect_spec hc hstate c.serverAddr_ savedErrno newFd
    exact ⟨c', _, hconnect, hc'⟩
  · exact ⟨c, [], rfl, hc⟩

theorem handleEvent_spec
    {c : TCPConnector κ ι} (hc : c.Holds)
    (ev : ConnectorEvent) (err : Option Errno) (newFd : Nat) :
    Completes (c.handleEvent ev err newFd) := by
  unfold handleEvent
  split
  · exact ⟨c, [], rfl, hc⟩
  · exact handleConnectWrite_spec hc err newFd
  · exact handleConnectError_spec hc newFd

/-- A Disconnected connector answers no event. -/
theorem handleEvent_idle
    {c : TCPConnector κ ι} (hc : c.Holds)
    (hstate : c.state_ = .Disconnected)
    (ev : ConnectorEvent) (err : Option Errno) (newFd : Nat) :
    c.handleEvent ev err newFd = some (c, []) := by
  obtain ⟨h, hh⟩ := hc.handler (by simp [hstate])
  have hoff := hc.idle hstate h hh
  simp [handleEvent, callbackFor, hh, hoff]

end TCPConnector

namespace ConnectorRun

open TCPConnector

theorem finish_completes
    {s : ConnectorRun κ ι} (stopped : Bool)
    {r : Option (TCPConnector κ ι × List (ConnectorEffect κ ι))}
    (hr : Completes r) :
    ∃ s' es, r.map (s.finish stopped) = some (s', es) ∧
      s'.connector.Holds := by
  obtain ⟨c, es, hcall, hc⟩ := hr
  rw [hcall]
  exact ⟨_, _, rfl, hc⟩

/-- Every operation completes, the timers that are not pending apart. -/
theorem perform_completes
    {s : ConnectorRun κ ι} (hs : s.connector.Holds)
    (op : ConnectorOp κ)
    (htimer :
      ∀ i savedErrno newFd,
        op = .timer i savedErrno newFd → i < s.timers.length) :
    ∃ s' es, s.perform op = some (s', es) ∧ s'.connector.Holds := by
  cases op with
  | start savedErrno stopFd newFd =>
      exact finish_completes false
        (start_spec hs savedErrno stopFd newFd)
  | stop newFd =>
      obtain ⟨c, hstop, hc, _⟩ := stop_spec hs newFd
      simp only [perform, hstop]
      exact ⟨_, _, rfl, hc⟩
  | event ev err newFd =>
      exact finish_completes s.stopped (handleEvent_spec hs ev err newFd)
  | timer i savedErrno newFd =>
      simp only [perform, if_pos (htimer i savedErrno newFd rfl)]
      exact finish_completes s.stopped
        (retryTimer_spec hs savedErrno newFd)
  | _ =>
      exact ⟨_, _, rfl, hs.congr rfl rfl⟩

/-- A step is a completed operation. -/
theorem perform_of_step
    {s s' : ConnectorRun κ ι} {op : ConnectorOp κ}
    (hstep : s.step op = some s') :
    ∃ es, s.perform op = some (s', es) := by
  obtain ⟨⟨s₁, es⟩, hperform, rfl⟩ := Option.map_eq_some_iff.mp hstep
  exact ⟨es, hperform⟩

theorem timer_pending
    {s : ConnectorRun κ ι} {op : ConnectorOp κ}
    {r : ConnectorRun κ ι × List (ConnectorEffect κ ι)}
    (hperform : s.perform op = some r) :
    ∀ i savedErrno newFd,
      op = .timer i savedErrno newFd → i < s.timers.length := by
  rintro i savedErrno newFd rfl
  by_contra hi
  simp [perform, hi] at hperform

theorem step_holds
    {s s' : ConnectorRun κ ι} {op : ConnectorOp κ}
    (hs : s.connector.Holds) (hstep : s.step op = some s') :
    s'.connector.Holds := by
  obtain ⟨es, hperform⟩ := perform_of_step hstep
  obtain ⟨s₁, es₁, hperform₁, hs₁⟩ :=
    perform_completes hs op (timer_pending hperform)
  obtain ⟨rfl, rfl⟩ :=
    Prod.mk.inj (Option.some.inj (hperform.symm.trans hperform₁))
  exact hs₁

/-- From stop() to the next start() no connection attempt begins and
newConnectionCallback_ is not invoked. -/
def StopIsFinal
    (s : ConnectorRun κ ι) (op : ConnectorOp κ)
    (_ : ConnectorRun κ ι) : Prop :=
  s.stopped = true → op.isStart = false →
    ∀ s' es, s.perform op = some (s', es) →
      ∀ e ∈ es, e.isAttempt = false

/-- From stop() to the next start() no retry timer fires. -/
def NoTimerWhileStopped
    (s : ConnectorRun κ ι) (op : ConnectorOp κ)
    (_ : ConnectorRun κ ι) : Prop :=
  s.stopped = true → op.isTimer = false

/-- While it is stopped the connector is Disconnected. -/
structure StoppedInv (s : ConnectorRun κ ι) : Prop where
  holds : s.connector.Holds
  disconnected : s.stopped = true → s.connector.state_ = .Disconnected

theorem initial_stoppedInv
    (fd : Nat) (addr : ι) :
    StoppedInv (initial fd addr : ConnectorRun κ ι) where
  holds := create_holds fd addr
  disconnected := by
    simp [initial]

/-- What a stopped connector does between two timers. -/
theorem stopped_perform
    {s s' : ConnectorRun κ ι} {op : ConnectorOp κ}
    {es : List (ConnectorEffect κ ι)}
    (hs : StoppedInv s) (hstopped : s.stopped = true)
    (hstart : op.isStart = false) (htimer : op.isTimer = false)
    (hperform : s.perform op = some (s', es)) :
    es = [] ∧ s'.connector.state_ = .Disconnected := by
  have hstate := hs.disconnected hstopped
  cases op with
  | start savedErrno stopFd newFd =>
      simp [ConnectorOp.isStart] at hstart
  | stop newFd =>
      simp only [perform, TCPConnector.stop, if_pos hstate] at hperform
      cases hperform
      exact ⟨rfl, hstate⟩
  | event ev err newFd =>
      simp only [perform, handleEvent_idle hs.holds hstate ev err newFd]
        at hperform
      cases hperform
      exact ⟨rfl, hstate⟩
  | timer i savedErrno newFd =>
      simp [ConnectorOp.isTimer] at htimer
  | _ =>
      cases hperform
      exact ⟨rfl, hstate⟩

/-- A retry timer that fires while the connector is stopped begins an
attempt. -/
theorem stopped_timer
    {s s' : ConnectorRun κ ι} {op : ConnectorOp κ}
    {es : List (ConnectorEffect κ ι)}
    (hs : StoppedInv s) (hstopped : s.stopped = true)
    (htimer : op.isTimer = true)
    (hperform : s.perform op = some (s', es)) :
    ∃ fd addr, .connect fd addr ∈ es := by
  cases op with
  | timer i savedErrno newFd =>
      have hi := timer_pending hperform i savedErrno newFd rfl
      have hstate := hs.disconnected hstopped
      obtain ⟨c, fd, es', hconnect, _⟩ :=
        connect_spec hs.holds hstate s.connector.serverAddr_
          savedErrno newFd
      simp only [perform, if_pos hi, retryTimer, if_pos hstate,
        hconnect] at hperform
      cases hperform
      exact ⟨fd, _, List.mem_cons_self ..⟩
  | _ =>
      simp [ConnectorOp.isTimer] at htimer

/-- Whether the connector is stopped after an operation. -/
def stoppedAfter (s : ConnectorRun κ ι) (op : ConnectorOp κ) : Bool :=
  if op.isStart then false else if op.isStop then true else s.stopped

/-- What an operation does to the timers, and whether the connector is stopped
after it. -/
theorem perform_frame
    {s s' : ConnectorRun κ ι} {op : ConnectorOp κ}
    {es : List (ConnectorEffect κ ι)}
    (hperform : s.perform op = some (s', es)) :
    s'.stopped = s.stoppedAfter op ∧
      (op.isTimer = false →
        s'.timers =
          s.timers ++ es.filterMap ConnectorEffect.delay?) := by
  have hfinish :
      ∀ {s₁ : ConnectorRun κ ι} {stopped : Bool}
        {r : Option (TCPConnector κ ι × List (ConnectorEffect κ ι))},
        r.map (s₁.finish stopped) = some (s', es) →
        s'.stopped = stopped ∧
          s'.timers =
            s₁.timers ++ es.filterMap ConnectorEffect.delay? := by
    intro s₁ stopped r hr
    obtain ⟨_, _, hr⟩ := Option.map_eq_some_iff.mp hr
    cases hr
    exact ⟨rfl, rfl⟩
  cases op with
  | start savedErrno stopFd newFd =>
      obtain ⟨hstopped, htimers⟩ := hfinish hperform
      exact ⟨hstopped, fun _ => htimers⟩
  | stop newFd =>
      obtain ⟨_, _, hr⟩ := Option.map_eq_some_iff.mp hperform
      cases hr
      exact ⟨rfl, fun _ => rfl⟩
  | event ev err newFd =>
      obtain ⟨hstopped, htimers⟩ := hfinish hperform
      exact ⟨hstopped, fun _ => htimers⟩
  | timer i savedErrno newFd =>
      have hi := timer_pending hperform i savedErrno newFd rfl
      simp only [perform, if_pos hi] at hperform
      exact ⟨(hfinish hperform).1, by simp [ConnectorOp.isTimer]⟩
  | _ =>
      cases hperform
      exact ⟨rfl, fun _ => rfl⟩

theorem stop_disconnects
    {s s' : ConnectorRun κ ι} {op : ConnectorOp κ}
    {es : List (ConnectorEffect κ ι)}
    (hs : s.connector.Holds) (hop : op.isStop = true)
    (hperform : s.perform op = some (s', es)) :
    s'.connector.state_ = .Disconnected := by
  cases op with
  | stop newFd =>
      obtain ⟨c, hstop, _, hstate⟩ := stop_spec hs newFd
      simp only [perform, hstop] at hperform
      cases hperform
      exact hstate
  | _ =>
      simp [ConnectorOp.isStop] at hop

/-- One step: an attempt begins while the connector is stopped exactly when a
timer fires, and otherwise the connector stays Disconnected. -/
theorem stopIsFinal_step
    {s s' : ConnectorRun κ ι} {op : ConnectorOp κ}
    (hs : StoppedInv s) (hstep : s.step op = some s') :
    (StopIsFinal s op s' ↔ NoTimerWhileStopped s op s') ∧
      (NoTimerWhileStopped s op s' → StoppedInv s') := by
  obtain ⟨es, hperform⟩ := perform_of_step hstep
  refine ⟨⟨?_, ?_⟩, ?_⟩
  · intro hfinal hstopped
    by_contra htimer
    rw [Bool.not_eq_false] at htimer
    obtain ⟨fd, addr, hmem⟩ :=
      stopped_timer hs hstopped htimer hperform
    have hstart : op.isStart = false := by
      cases op with
      | timer i savedErrno newFd => rfl
      | _ => simp [ConnectorOp.isTimer] at htimer
    have hquiet := hfinal hstopped hstart s' es hperform _ hmem
    cases hquiet
  · intro hnone hstopped hstart s₁ es₁ hperform₁ e he
    obtain ⟨rfl, _⟩ :=
      stopped_perform hs hstopped hstart (hnone hstopped) hperform₁
    cases he
  · intro hnone
    refine ⟨step_holds hs.holds hstep, ?_⟩
    intro hstopped'
    rw [(perform_frame hperform).1, stoppedAfter] at hstopped'
    cases hstart : op.isStart with
    | true =>
        simp [hstart] at hstopped'
    | false =>
        cases hstop : op.isStop with
        | true =>
            exact stop_disconnects hs.holds hstop hperform
        | false =>
            have hstopped : s.stopped = true := by
              simpa [hstart, hstop] using hstopped'
            exact (stopped_perform hs hstopped hstart
              (hnone hstopped) hperform).2

/-- In every run stop() is final exactly when no retry timer fires between a
stop() and the next start(). -/
theorem stop_final_iff
    (fd : Nat) (addr : ι) (ops : List (ConnectorOp κ)) :
    EveryStep step StopIsFinal (initial fd addr) ops ↔
      EveryStep step NoTimerWhileStopped (initial fd addr) ops := by
  refine everyStep_iff StoppedInv (P := fun _ => True) ?_
    (initial_stoppedInv fd addr) (fun _ _ => trivial)
  intro s op s' hs _ hstep
  exact stopIsFinal_step hs hstep

/-- A stop() that finds no pending retry timer is final. -/
theorem stop_final_of_no_timers
    (fd : Nat) (addr : ι) (ops : List (ConnectorOp κ))
    (hstops :
      EveryStep step
        (fun s op _ => op.isStop = true → s.timers = [])
        (initial fd addr) ops) :
    EveryStep step StopIsFinal (initial fd addr) ops := by
  refine everyStep_transfer
    (I := fun s => StoppedInv s ∧ (s.stopped = true → s.timers = []))
    (P := fun _ => True) ?_
    ⟨initial_stoppedInv fd addr, by simp [initial]⟩
    (fun _ _ => trivial) hstops
  intro s op s' hs _ hstep hstop
  obtain ⟨hinv, htimers⟩ := hs
  obtain ⟨es, hperform⟩ := perform_of_step hstep
  have hnone : NoTimerWhileStopped s op s' := by
    intro hstopped
    cases op with
    | timer i savedErrno newFd =>
        have hi := timer_pending hperform i savedErrno newFd rfl
        simp [htimers hstopped] at hi
    | _ =>
        rfl
  obtain ⟨hiff, hkeep⟩ := stopIsFinal_step hinv hstep
  refine ⟨⟨hkeep hnone, ?_⟩, hiff.mpr hnone⟩
  intro hstopped'
  rw [(perform_frame hperform).1, stoppedAfter] at hstopped'
  cases hstart : op.isStart with
  | true =>
      simp [hstart] at hstopped'
  | false =>
      cases hisStop : op.isStop with
      | true =>
          cases op with
          | stop newFd =>
              rw [(perform_frame hperform).2 rfl, hstop hisStop]
              obtain ⟨r, _, hr⟩ := Option.map_eq_some_iff.mp hperform
              cases hr
              rfl
          | _ =>
              simp [ConnectorOp.isStop] at hisStop
      | false =>
          have hstopped : s.stopped = true := by
            simpa [hstart, hisStop] using hstopped'
          have htimer := hnone hstopped
          obtain ⟨rfl, _⟩ :=
            stopped_perform hinv hstopped hstart htimer hperform
          rw [(perform_frame hperform).2 htimer, htimers hstopped]
          rfl

end ConnectorRun

end TCPConnector

/-- A refused attempt, stop(), and then the retry timer: it connects again. -/
theorem retry_timer_ignores_stop :
    ∃ s s' : ConnectorRun Nat Nat,
      run ConnectorRun.step (ConnectorRun.initial 3 80)
          [.setRetries 1, .start (some .ECONNREFUSED) 4 5, .stop 6] =
        some s ∧
      s.stopped = true ∧
      s.perform (.timer 0 (some .EINPROGRESS) 7) =
        some (s', [.connect 5 80]) ∧
      ¬ EveryStep ConnectorRun.step ConnectorRun.StopIsFinal
        (ConnectorRun.initial 3 80 : ConnectorRun Nat Nat)
        [.setRetries 1, .start (some .ECONNREFUSED) 4 5, .stop 6,
          .timer 0 (some .EINPROGRESS) 7] := by
  obtain ⟨s, hrun, hs⟩ :=
    Option.map_eq_some_iff.mp
      (show (run ConnectorRun.step
          (ConnectorRun.initial 3 80 : ConnectorRun Nat Nat)
          [.setRetries 1, .start (some .ECONNREFUSED) 4 5,
            .stop 6]).map
          (fun s => (s.stopped,
            (s.perform (.timer 0 (some .EINPROGRESS) 7)).map (·.2))) =
          some (true, some [.connect 5 80])
        by decide +kernel)
  obtain ⟨hstopped, htimer⟩ := Prod.mk.inj hs
  obtain ⟨⟨s', es⟩, hperform, rfl⟩ := Option.map_eq_some_iff.mp htimer
  refine ⟨s, s', hrun, hstopped, hperform, ?_⟩
  intro hfinal
  have hstep :
      s.step (.timer 0 (some .EINPROGRESS) 7) = some s' := by
    rw [ConnectorRun.step, hperform]
    rfl
  have hlast := @everyStep_at _ _ _ _ _ _ _
    [.setRetries 1, .start (some .ECONNREFUSED) 4 5, .stop 6] _ []
    hfinal hrun hstep
  have hquiet :=
    hlast hstopped rfl s' _ hperform _ (List.mem_singleton.mpr rfl)
  cases hquiet

end Hohnor
