import Hohnor.DisabledHandler
import Hohnor.TCPConnector

/-!
# Connectors that are used from their own callbacks

The loop thread as one connector sees it: retry timers, the events of its
handler, which `IOHandler::run` takes through its four tests, and user code.
A user callback that a method of the connector calls stays on the stack until
`callbackReturns`, and calls the connector again in between.

A socket is named by a number that no earlier one had, since the number of an
fd may come back.  A step that the loop takes and that has no result is a
failed HCHECK or a null handler.

`connector_consistent` gives what state_ says about the handler, and that every
attempt is made on a new socket.
-/

namespace Hohnor

open TransitionRuns

/-- What user code calls. -/
inductive ConnectorCall (κ : Type) where
  | start (savedErrno : Option Errno)
  | stop
  | setNewConnectionCallback (cb : Option κ)
  | setRetryConnectionCallback (cb : Option κ)
  | setFailedConnectionCallback (cb : Option κ)
  | setRetryConstantDelay (delayMs : Int)
  | setRetries (retries : Int)
deriving DecidableEq, Repr

inductive ConnectorStep (κ : Type) where
  | call (call : ConnectorCall κ)
  | timer (savedErrno : Option Errno)
  | event (revents : EventMask)
  | test (err : Option Errno)
  | callbackReturns
deriving DecidableEq, Repr

/-- The run() of a handler, named by its socket, with the tests left. -/
structure HandlerRun where
  socket : Nat
  revents : EventMask
  tests : List HandlerKind
deriving DecidableEq, Repr

/-- A connector in its loop: the number of the next socket, the pending retry
timers, the sockets of all attempts so far, the user callbacks on the stack and
the run() that is going on. -/
structure ConnectorLoop (κ ι : Type) where
  connector : TCPConnector κ ι
  nextSocket : Nat
  timers : Nat
  attempts : List Nat
  depth : Nat
  running : Option HandlerRun
deriving DecidableEq, Repr

section ConnectorLoop

variable {κ ι : Type}

/-- The socket of an attempt. -/
def ConnectorEffect.attempt? : ConnectorEffect κ ι → Option Nat
  | .connect fd _ => some fd
  | _ => none

def ConnectorEffect.isUserCall : ConnectorEffect κ ι → Bool
  | .newConnection _ _ => true
  | .retrying _ => true
  | .failed _ => true
  | _ => false

/-- The sockets that the attempts among the effects are made on. -/
def attemptsOf (es : List (ConnectorEffect κ ι)) : List Nat :=
  es.filterMap ConnectorEffect.attempt?

namespace ConnectorLoop

def initial (addr : ι) : ConnectorLoop κ ι where
  connector := TCPConnector.create 0 addr
  nextSocket := 1
  timers := 0
  attempts := []
  depth := 0
  running := none

/-- A method of the connector has come to its end, or to the user callback that
it calls last. -/
def absorb (s : ConnectorLoop κ ι)
    (r : TCPConnector κ ι × List (ConnectorEffect κ ι)) :
    ConnectorLoop κ ι :=
  { s with
    connector := r.1
    nextSocket := s.nextSocket + 2
    timers := s.timers + (r.2.filterMap ConnectorEffect.delay?).length
    attempts := s.attempts ++ attemptsOf r.2
    depth := s.depth + r.2.countP ConnectorEffect.isUserCall }

/-- A call of user code. -/
def perform (c : TCPConnector κ ι) (nextSocket : Nat) :
    ConnectorCall κ →
      Option (TCPConnector κ ι × List (ConnectorEffect κ ι))
  | .start savedErrno => c.start savedErrno nextSocket (nextSocket + 1)
  | .stop => (c.stop nextSocket).map fun c => (c, [])
  | .setNewConnectionCallback cb =>
      some ({ c with newConnectionCallback_ := cb }, [])
  | .setRetryConnectionCallback cb =>
      some ({ c with retryCallback_ := cb }, [])
  | .setFailedConnectionCallback cb =>
      some ({ c with failedCallback_ := cb }, [])
  | .setRetryConstantDelay delayMs =>
      some (c.setRetryConstantDelay delayMs, [])
  | .setRetries retries => some (c.setRetries retries, [])

/-- What the first test left of a run() calls.  The handler has been replaced
where stop() has disabled it, which has cleared its callbacks; where the write
branch has handed it over no test is left. -/
def testCalls (s : ConnectorLoop κ ι) (run : HandlerRun)
    (k : HandlerKind) : Option ConnectorCallback :=
  if k.triggered run.revents then
    s.connector.socketHandler_.bind fun h =>
      if h.fd = run.socket then h.callbackOf k else none
  else
    none

/-- The callback that a connector has installed. -/
def runCallback (s : ConnectorLoop κ ι) (err : Option Errno) :
    Option ConnectorCallback →
      Option (TCPConnector κ ι × List (ConnectorEffect κ ι))
  | none => some (s.connector, [])
  | some .handleConnectWrite =>
      s.connector.handleConnectWrite err s.nextSocket
  | some .handleConnectError =>
      s.connector.handleConnectError s.nextSocket

/-- The current handler is in epoll. -/
def listening (s : ConnectorLoop κ ι) : Bool :=
  match s.connector.socketHandler_ with
  | none => false
  | some h => h.isEnabled

/-- The steps that the loop thread may take next. -/
def admits (s : ConnectorLoop κ ι) : ConnectorStep κ → Bool
  | .call _ => 0 < s.depth || s.running.isNone
  | .timer _ => s.depth = 0 && s.running.isNone && 0 < s.timers
  | .event _ => s.depth = 0 && s.running.isNone && s.listening
  | .test _ => s.depth = 0 && s.running.isSome
  | .callbackReturns => 0 < s.depth

/-- A step that is admitted. -/
def advance (s : ConnectorLoop κ ι) :
    ConnectorStep κ → Option (ConnectorLoop κ ι)
  | .call call =>
      (perform s.connector s.nextSocket call).map s.absorb
  | .timer savedErrno =>
      (s.connector.retryTimer savedErrno s.nextSocket).map
        { s with timers := s.timers - 1 }.absorb
  | .event revents =>
      s.connector.socketHandler_.map fun h =>
        { s with running := some ⟨h.fd, revents, HandlerKind.runOrder⟩ }
  | .test err =>
      s.running.bind fun run =>
        match run.tests with
        | [] => some { s with running := none }
        | k :: ks =>
            (s.runCallback err (s.testCalls run k)).map
              { s with running := some { run with tests := ks } }.absorb
  | .callbackReturns => some { s with depth := s.depth - 1 }

def step (s : ConnectorLoop κ ι) (l : ConnectorStep κ) :
    Option (ConnectorLoop κ ι) :=
  if s.admits l then s.advance l else none

end ConnectorLoop

namespace TCPConnector

/-- Between two methods: the handler is moved out exactly while Connected, it
is enabled while Connecting, and while Disconnected it has never been. -/
structure Settled (c : TCPConnector κ ι) : Prop where
  connected_iff :
    c.state_ = .Connected ↔ c.socketHandler_ = none
  connecting :
    c.state_ = .Connecting →
      ∃ h, c.socketHandler_ = some h ∧ h.status_ = .Enabled
  disconnected :
    c.state_ = .Disconnected →
      ∃ h, c.socketHandler_ = some h ∧ h.status_ = .Created

/-- The sockets used by earlier attempts, all below `n`: none twice, and a
Disconnected connector holds one that has not been used. -/
structure SocketsFresh
    (c : TCPConnector κ ι) (used : List Nat) (n : Nat) : Prop where
  nodup : used.Nodup
  below : ∀ fd ∈ used, fd < n
  current : ∀ h, c.socketHandler_ = some h → h.fd < n
  unused :
    c.state_ = .Disconnected →
      ∀ h, c.socketHandler_ = some h → h.fd ∉ used

/-- A method that comes to its end with everything in order. -/
def EndsSettled
    (used : List Nat) (n : Nat)
    (r : Option (TCPConnector κ ι × List (ConnectorEffect κ ι))) :
    Prop :=
  ∃ c es, r = some (c, es) ∧ c.Settled ∧
    c.SocketsFresh (used ++ attemptsOf es) n

theorem SocketsFresh.mono
    {c : TCPConnector κ ι} {used : List Nat} {n m : Nat}
    (hc : c.SocketsFresh used n) (hnm : n ≤ m) :
    c.SocketsFresh used m where
  nodup := hc.nodup
  below := fun fd hfd => (hc.below fd hfd).trans_le hnm
  current := fun h hh => (hc.current h hh).trans_le hnm
  unused := hc.unused

theorem Settled.congr
    {c c' : TCPConnector κ ι} (hc : c.Settled)
    (hstate : c'.state_ = c.state_)
    (hhandler : c'.socketHandler_ = c.socketHandler_) :
    c'.Settled where
  connected_iff := by
    rw [hstate, hhandler]
    exact hc.connected_iff
  connecting := by
    rw [hstate, hhandler]
    exact hc.connecting
  disconnected := by
    rw [hstate, hhandler]
    exact hc.disconnected

theorem SocketsFresh.congr
    {c c' : TCPConnector κ ι} {used : List Nat} {n : Nat}
    (hc : c.SocketsFresh used n)
    (hstate : c'.state_ = c.state_)
    (hhandler : c'.socketHandler_ = c.socketHandler_) :
    c'.SocketsFresh used n where
  nodup := hc.nodup
  below := hc.below
  current := by
    rw [hhandler]
    exact hc.current
  unused := by
    rw [hstate, hhandler]
    exact hc.unused

theorem create_settled
    (fd : Nat) (addr : ι) :
    (create fd addr : TCPConnector κ ι).Settled where
  connected_iff := by
    simp [create]
  connecting := by
    simp [create]
  disconnected := fun _ => ⟨_, rfl, rfl⟩

theorem Settled.handler
    {c : TCPConnector κ ι} (hc : c.Settled)
    (hstate : c.state_ ≠ .Connected) :
    ∃ h, c.socketHandler_ = some h :=
  Option.ne_none_iff_exists'.mp
    (fun hnone => hstate (hc.connected_iff.mpr hnone))

/-- What stop() and retry() leave: Disconnected on a new socket. -/
theorem settled_of_new
    {c : TCPConnector κ ι} {newFd : Nat}
    (hstate : c.state_ = .Disconnected)
    (hhandler : c.socketHandler_ = some (IOHandler.create newFd)) :
    c.Settled where
  connected_iff := by
    simp [hstate, hhandler]
  connecting := by
    simp [hstate]
  disconnected := fun _ => ⟨_, hhandler, rfl⟩

theorem socketsFresh_of_new
    {c : TCPConnector κ ι} {used : List Nat} {newFd : Nat}
    (hnodup : used.Nodup) (hbelow : ∀ fd ∈ used, fd < newFd)
    (hhandler : c.socketHandler_ = some (IOHandler.create newFd)) :
    c.SocketsFresh used (newFd + 1) where
  nodup := hnodup
  below := fun fd hfd => Nat.lt_succ_of_lt (hbelow fd hfd)
  current := by
    intro h hh
    rw [hhandler] at hh
    cases hh
    exact Nat.lt_succ_self newFd
  unused := by
    intro _ h hh hmem
    rw [hhandler] at hh
    cases hh
    exact absurd (hbelow _ hmem) (Nat.lt_irrefl newFd)

theorem stop_settled
    {c : TCPConnector κ ι} {used : List Nat} {n newFd : Nat}
    (hc : c.Settled) (hs : c.SocketsFresh used n) (hn : n ≤ newFd) :
    ∃ c', c.stop newFd = some c' ∧ c'.Settled ∧
      c'.SocketsFresh used (newFd + 1) ∧
      c'.state_ = .Disconnected := by
  have hbelow : ∀ fd ∈ used, fd < newFd :=
    fun fd hfd => (hs.below fd hfd).trans_le hn
  cases hstate : c.state_ with
  | Disconnected =>
      exact ⟨c, by simp [stop, hstate], hc,
        hs.mono (hn.trans (Nat.le_succ newFd)), hstate⟩
  | Connecting =>
      obtain ⟨h, hh, _⟩ := hc.connecting hstate
      refine ⟨_, by simp only [stop, hstate, hh]; rfl, ?_, ?_, rfl⟩
      · exact settled_of_new rfl rfl
      · exact socketsFresh_of_new hs.nodup hbelow rfl
  | Connected =>
      have hh := hc.connected_iff.mp hstate
      refine ⟨_, by simp only [stop, hstate, hh]; rfl, ?_, ?_, rfl⟩
      · exact settled_of_new rfl rfl
      · exact socketsFresh_of_new hs.nodup hbelow rfl

/-- retry() tries nothing itself. -/
theorem attemptsOf_addTimer
    (delayMs : Int) (cb : Option κ) :
    attemptsOf
      (.addTimer delayMs :: cb.toList.map .retrying :
        List (ConnectorEffect κ ι)) = [] := by
  cases cb <;> rfl

theorem attemptsOf_failed
    (cb : Option κ) :
    attemptsOf (cb.toList.map .failed : List (ConnectorEffect κ ι)) =
      [] := by
  cases cb <;> rfl

theorem attemptsOf_newConnection
    (cb : Option κ) (h : IOHandler ConnectorCallback) :
    attemptsOf
      (cb.toList.map (.newConnection · h) :
        List (ConnectorEffect κ ι)) = [] := by
  cases cb <;> rfl

/-- retry() after its stop(). -/
theorem retry_settled_of_stop
    {c c' : TCPConnector κ ι} {used : List Nat} {newFd n : Nat}
    (hstop : c.stop newFd = some c') (hc : c'.Settled)
    (hs : c'.SocketsFresh used n) :
    EndsSettled used n (c.retry newFd) := by
  simp only [retry, hstop, Option.map_some]
  split
  · refine ⟨_, _, rfl, hc.congr rfl rfl, ?_⟩
    rw [attemptsOf_addTimer, List.append_nil]
    exact hs.congr rfl rfl
  · refine ⟨_, _, rfl, hc, ?_⟩
    rw [attemptsOf_failed, List.append_nil]
    exact hs

/-- An attempt is under way: the handler is there, enabled or not yet. -/
theorem retry_settled_of_connecting
    {c : TCPConnector κ ι} {h : IOHandler ConnectorCallback}
    {used : List Nat} {newFd : Nat}
    (hstate : c.state_ = .Connecting)
    (hh : c.socketHandler_ = some h)
    (hnodup : used.Nodup) (hbelow : ∀ fd ∈ used, fd < newFd) :
    EndsSettled used (newFd + 1) (c.retry newFd) := by
  refine retry_settled_of_stop
    (by simp only [stop, hstate, hh]; rfl) (settled_of_new rfl rfl) ?_
  exact socketsFresh_of_new hnodup hbelow rfl

theorem handleConnectError_settled
    {c : TCPConnector κ ι} {used : List Nat} {n newFd : Nat}
    (hc : c.Settled) (hs : c.SocketsFresh used n) (hn : n ≤ newFd) :
    EndsSettled used (newFd + 1) (c.handleConnectError newFd) := by
  unfold handleConnectError
  split
  · refine ⟨c, [], rfl, hc, ?_⟩
    rw [attemptsOf, List.filterMap_nil, List.append_nil]
    exact hs.mono (hn.trans (Nat.le_succ newFd))
  · rename_i hstate
    obtain ⟨c', hstop, hc', hs', _⟩ := stop_settled hc hs hn
    obtain ⟨h, hh⟩ := hc.handler hstate
    rw [hh]
    exact retry_settled_of_stop hstop hc' hs'

theorem handleConnectWrite_settled
    {c : TCPConnector κ ι} {used : List Nat} {n newFd : Nat}
    (hc : c.Settled) (hs : c.SocketsFresh used n) (hn : n ≤ newFd)
    (err : Option Errno) :
    EndsSettled used (newFd + 1) (c.handleConnectWrite err newFd) := by
  have hm : n ≤ newFd + 1 := hn.trans (Nat.le_succ newFd)
  unfold handleConnectWrite
  split
  · refine ⟨c, [], rfl, hc, ?_⟩
    rw [attemptsOf, List.filterMap_nil, List.append_nil]
    exact hs.mono hm
  · rename_i hstate
    have hconnecting : c.state_ = .Connecting := by
      simpa using hstate
    obtain ⟨h, hh, _⟩ := hc.connecting hconnecting
    rw [hh, Option.bind_some]
    split
    · obtain ⟨c', hstop, hc', hs', _⟩ := stop_settled hc hs hn
      exact retry_settled_of_stop hstop hc' hs'
    · refine ⟨_, _, rfl, ⟨by simp, by simp, by simp⟩, ?_⟩
      rw [attemptsOf_newConnection, List.append_nil]
      exact ⟨hs.nodup, (hs.mono hm).below, by simp, by simp⟩

/-- The handler that `connecting` leaves. -/
theorem connecting_handler
    {c : TCPConnector κ ι} {h : IOHandler ConnectorCallback}
    (hstate : c.state_ = .Connecting)
    (hh : c.socketHandler_ = some h) :
    ∃ h', c.connecting = some { c with socketHandler_ := some h' } ∧
      h'.fd = h.fd ∧ h'.status_ = .Enabled := by
  refine
    ⟨_, by simp only [connecting, if_pos hstate, hh, Option.map_some]; rfl,
      ?_, ?_⟩
  · simp [IOHandler.enable_fst, IOHandler.setErrorCallback,
      IOHandler.setErrorEvent, IOHandler.setCloseCallback,
      IOHandler.setCloseEvent, IOHandler.setWriteCallback,
      IOHandler.setWriteEvent, IOHandler.setEvents_fst]
  · simp [IOHandler.enable_fst]

theorem afterConnect_settled
    {c : TCPConnector κ ι} {h : IOHandler ConnectorCallback}
    {used : List Nat} {newFd : Nat}
    (hstate : c.state_ = .Connecting)
    (hh : c.socketHandler_ = some h)
    (hnodup : used.Nodup) (hbelow : ∀ fd ∈ used, fd < newFd)
    (hcurrent : h.fd < newFd) (savedErrno : Option Errno) :
    EndsSettled used (newFd + 1) (c.afterConnect savedErrno newFd) := by
  have hretry :=
    retry_settled_of_connecting hstate hh hnodup hbelow
  have herror :
      EndsSettled used (newFd + 1) (c.handleConnectError newFd) := by
    rw [handleConnectError, if_neg (by simp [hstate]), hh]
    exact hretry
  have hconnecting :
      EndsSettled used (newFd + 1)
        (c.connecting.map fun c => (c, [])) := by
    obtain ⟨h', hc', hfd, hon⟩ := connecting_handler hstate hh
    rw [hc']
    refine ⟨_, _, rfl, ⟨by simp [hstate], fun _ => ⟨h', rfl, hon⟩, ?_⟩, ?_⟩
    · simp [hstate]
    · rw [attemptsOf, List.filterMap_nil, List.append_nil]
      refine ⟨hnodup, fun fd hfd => Nat.lt_succ_of_lt (hbelow fd hfd),
        ?_, by simp [hstate]⟩
      intro h₁ hh₁
      cases hh₁
      rw [hfd]
      exact Nat.lt_succ_of_lt hcurrent
  unfold afterConnect
  split
  all_goals first
    | exact hretry
    | exact herror
    | exact hconnecting

/-- An attempt on the socket of a Disconnected connector. -/
theorem connect_settled
    {c : TCPConnector κ ι} {used : List Nat} {n newFd : Nat}
    (hc : c.Settled) (hs : c.SocketsFresh used n) (hn : n ≤ newFd)
    (hstate : c.state_ = .Disconnected)
    (addr : ι) (savedErrno : Option Errno) :
    EndsSettled used (newFd + 1) (c.connect addr savedErrno newFd) := by
  obtain ⟨h, hh, _⟩ := hc.disconnected hstate
  have hcurrent : h.fd < newFd := (hs.current h hh).trans_le hn
  have hunused : h.fd ∉ used := hs.unused hstate h hh
  simp only [connect, hh, if_pos hstate]
  obtain ⟨c', es, hafter, hc', hs'⟩ :=
    @afterConnect_settled _ _
      { c with
        socketHandler_ :=
          some ((h.setWriteCallback none).1.setErrorCallback none).1
        state_ := .Connecting }
      ((h.setWriteCallback none).1.setErrorCallback none).1
      (used ++ [h.fd]) newFd rfl rfl
      (by
        rw [List.nodup_append]
        refine ⟨hs.nodup, List.nodup_singleton _, ?_⟩
        rintro fd hfd _ hmem rfl
        rw [List.mem_singleton] at hmem
        exact hunused (hmem ▸ hfd))
      (by
        intro fd hfd
        rcases List.mem_append.mp hfd with hfd | hfd
        · exact (hs.below fd hfd).trans_le hn
        · rw [List.mem_singleton.mp hfd]
          exact hcurrent)
      (by
        simpa [IOHandler.setErrorCallback, IOHandler.setErrorEvent,
          IOHandler.setWriteCallback, IOHandler.setWriteEvent,
          IOHandler.setEvents_fst] using hcurrent)
      savedErrno
  rw [hafter]
  refine ⟨c', _, rfl, hc', ?_⟩
  have hfd :
      ((h.setWriteCallback none).1.setErrorCallback none).1.fd = h.fd := by
    simp [IOHandler.setErrorCallback, IOHandler.setErrorEvent,
      IOHandler.setWriteCallback, IOHandler.setWriteEvent,
      IOHandler.setEvents_fst]
  rw [hfd]
  rw [List.append_assoc] at hs'
  exact hs'

theorem start_settled
    {c : TCPConnector κ ι} {used : List Nat} {n : Nat}
    (hc : c.Settled) (hs : c.SocketsFresh used n)
    (savedErrno : Option Errno) :
    EndsSettled used (n + 2) (c.start savedErrno n (n + 1)) := by
  have hstop :
      ∃ c', (if c.state_ = .Disconnected then some c
          else c.stop n) = some c' ∧ c'.Settled ∧
        c'.SocketsFresh used (n + 1) ∧ c'.state_ = .Disconnected := by
    split
    · rename_i hstate
      exact ⟨c, rfl, hc, hs.mono (Nat.le_succ n), hstate⟩
    · exact stop_settled hc hs (Nat.le_refl n)
  obtain ⟨c', hc', hsettled, hfresh, hstate⟩ := hstop
  simp only [start, hc', Option.bind_some]
  exact connect_settled
    (c := { c' with
      currentRetries_ := 0
      retryDelayMs_ :=
        if c'.constantDelay_ then c'.retryDelayMs_
        else DefaultRetryDelayMs })
    (hsettled.congr rfl rfl) (hfresh.congr rfl rfl)
    (Nat.le_refl (n + 1)) hstate c'.serverAddr_ savedErrno

theorem retryTimer_settled
    {c : TCPConnector κ ι} {used : List Nat} {n : Nat}
    (hc : c.Settled) (hs : c.SocketsFresh used n)
    (savedErrno : Option Errno) :
    EndsSettled used (n + 1) (c.retryTimer savedErrno n) := by
  unfold retryTimer
  split
  · rename_i hstate
    exact connect_settled hc hs (Nat.le_refl n) hstate c.serverAddr_
      savedErrno
  · refine ⟨c, [], rfl, hc, ?_⟩
    rw [attemptsOf, List.filterMap_nil, List.append_nil]
    exact hs.mono (Nat.le_succ n)

theorem EndsSettled.mono
    {used : List Nat} {n m : Nat}
    {r : Option (TCPConnector κ ι × List (ConnectorEffect κ ι))}
    (hr : EndsSettled used n r) (hnm : n ≤ m) :
    EndsSettled used m r := by
  obtain ⟨c, es, hcall, hc, hs⟩ := hr
  exact ⟨c, es, hcall, hc, hs.mono hnm⟩

/-- A method without an attempt that leaves the connector where it was. -/
theorem endsSettled_of_same
    {c c' : TCPConnector κ ι} {used : List Nat} {n : Nat}
    (hc : c.Settled) (hs : c.SocketsFresh used n)
    (hstate : c'.state_ = c.state_)
    (hhandler : c'.socketHandler_ = c.socketHandler_) :
    EndsSettled used n (some (c', [])) := by
  refine ⟨c', [], rfl, hc.congr hstate hhandler, ?_⟩
  rw [attemptsOf, List.filterMap_nil, List.append_nil]
  exact hs.congr hstate hhandler

end TCPConnector

namespace ConnectorLoop

open TCPConnector

/-- The connector between two methods, and the sockets of its attempts. -/
structure SettledInv (s : ConnectorLoop κ ι) : Prop where
  settled : s.connector.Settled
  fresh : s.connector.SocketsFresh s.attempts s.nextSocket

theorem initial_settledInv
    (addr : ι) :
    SettledInv (initial addr : ConnectorLoop κ ι) where
  settled := create_settled 0 addr
  fresh :=
    socketsFresh_of_new List.nodup_nil (fun _ hfd => by cases hfd) rfl

/-- A method that ends settled is a step that does. -/
theorem absorb_settledInv
    {s : ConnectorLoop κ ι}
    {r : Option (TCPConnector κ ι × List (ConnectorEffect κ ι))}
    (hr : EndsSettled s.attempts (s.nextSocket + 2) r) :
    ∃ s', r.map s.absorb = some s' ∧ SettledInv s' := by
  obtain ⟨c, es, hcall, hc, hs⟩ := hr
  rw [hcall]
  exact ⟨_, rfl, hc, hs⟩

theorem perform_settled
    {s : ConnectorLoop κ ι} (hs : SettledInv s)
    (call : ConnectorCall κ) :
    EndsSettled s.attempts (s.nextSocket + 2)
      (perform s.connector s.nextSocket call) := by
  have hfresh := hs.fresh.mono (Nat.le_add_right s.nextSocket 2)
  cases call with
  | start savedErrno =>
      exact start_settled hs.settled hs.fresh savedErrno
  | stop =>
      obtain ⟨c, hstop, hc, hc', _⟩ :=
        stop_settled hs.settled hs.fresh (Nat.le_refl _)
      simp only [perform, hstop, Option.map_some]
      exact endsSettled_of_same hc
        (hc'.mono (Nat.le_succ (s.nextSocket + 1))) rfl rfl
  | _ =>
      exact endsSettled_of_same hs.settled hfresh rfl rfl

theorem runCallback_settled
    {s : ConnectorLoop κ ι} (hs : SettledInv s) (err : Option Errno)
    (cb : Option ConnectorCallback) :
    EndsSettled s.attempts (s.nextSocket + 2) (s.runCallback err cb) := by
  have hle : s.nextSocket + 1 ≤ s.nextSocket + 2 := Nat.le_succ _
  match cb with
  | none =>
      exact endsSettled_of_same hs.settled
        (hs.fresh.mono (Nat.le_add_right s.nextSocket 2)) rfl rfl
  | some .handleConnectWrite =>
      exact (handleConnectWrite_settled hs.settled hs.fresh
        (Nat.le_refl _) err).mono hle
  | some .handleConnectError =>
      exact (handleConnectError_settled hs.settled hs.fresh
        (Nat.le_refl _)).mono hle

/-- Every step that the loop takes has a result, which keeps the invariant. -/
theorem step_settledInv
    {s : ConnectorLoop κ ι} (hs : SettledInv s)
    {l : ConnectorStep κ} (hl : s.admits l = true) :
    ∃ s', s.step l = some s' ∧ SettledInv s' := by
  rw [step, if_pos hl]
  cases l with
  | call call =>
      exact absorb_settledInv (perform_settled hs call)
  | timer savedErrno =>
      exact absorb_settledInv
        (s := { s with timers := s.timers - 1 })
        ((retryTimer_settled hs.settled hs.fresh savedErrno).mono
          (Nat.le_succ _))
  | event revents =>
      cases hh : s.connector.socketHandler_ with
      | none =>
          simp [admits, listening, hh] at hl
      | some h =>
          simp only [advance, hh, Option.map_some]
          exact ⟨_, rfl, hs.settled, hs.fresh⟩
  | test err =>
      cases hrun : s.running with
      | none =>
          simp [admits, hrun] at hl
      | some run =>
          simp only [advance, hrun, Option.bind_some]
          split
          · exact ⟨_, rfl, hs.settled, hs.fresh⟩
          · rename_i k ks _
            exact absorb_settledInv
              (s := { s with running := some { run with tests := ks } })
              (runCallback_settled hs err (s.testCalls run k))
  | callbackReturns =>
      exact ⟨_, rfl, hs.settled, hs.fresh⟩

theorem run_settledInv
    {addr : ι} {ls : List (ConnectorStep κ)} {s : ConnectorLoop κ ι}
    (hrun : run step (initial addr) ls = some s) :
    SettledInv s := by
  refine invariant_of_run (I := SettledInv) (P := fun _ => True) ?_
    (initial_settledInv addr) (fun _ _ => trivial) hrun
  intro s l s' hs _ hstep
  have hl : s.admits l = true := by
    by_contra hl
    simp [step, hl] at hstep
  obtain ⟨t, ht, hinv⟩ := step_settledInv hs hl
  rw [ht] at hstep
  cases hstep
  exact hinv

/-- After every run, also inside of a user callback: state_ says what the
handler is, no attempt was made on a socket of an earlier one, and no step that
the loop can take next fails a check or uses a null handler. -/
theorem connector_consistent
    (addr : ι) (ls : List (ConnectorStep κ)) {s : ConnectorLoop κ ι}
    (hrun : run step (initial addr) ls = some s) :
    s.connector.Settled ∧ s.attempts.Nodup ∧
      ∀ l, s.admits l = true → ∃ s', s.step l = some s' := by
  have hs := run_settledInv hrun
  refine ⟨hs.settled, hs.fresh.nodup, ?_⟩
  intro l hl
  obtain ⟨s', hs', _⟩ := step_settledInv hs hl
  exact ⟨s', hs'⟩

/-- A refused attempt whose retry callback starts again, and a hang-up with
EPOLLOUT on the second attempt. -/
def restartingSteps : List (ConnectorStep Nat) :=
  [.call (.setRetries 1), .call (.setRetryConnectionCallback (some 1)),
    .call (.start (some .ECONNREFUSED)),
    .call (.start (some .EINPROGRESS)), .callbackReturns,
    .event ⟨false, false, true, false, false, true⟩, .test none,
    .callbackReturns, .test none, .test none, .test none, .test none]

theorem connector_consistent_sample :
    ∃ s : ConnectorLoop Nat Nat,
      run step (initial 80) restartingSteps = some s ∧
      s.attempts = [0, 6] ∧
      s.connector.Settled ∧ s.attempts.Nodup ∧
      ∀ l, s.admits l = true → ∃ s', s.step l = some s' := by
  obtain ⟨s, hrun, hattempts⟩ :=
    Option.map_eq_some_iff.mp
      (show (run step (initial 80 : ConnectorLoop Nat Nat)
          restartingSteps).map attempts = some [0, 6]
        by decide +kernel)
  exact ⟨s, hrun, hattempts, connector_consistent 80 restartingSteps hrun⟩

end ConnectorLoop

end ConnectorLoop

end Hohnor
