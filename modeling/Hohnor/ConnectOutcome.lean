import Hohnor.TCPConnector

/-!
# What an attempt to connect is judged by

`TCPConnector::connect` switches on errno, whatever `::connect` has returned.
A call that fails has set errno; a call that succeeds leaves the number that an
earlier call of the thread has left there.  In between `SocketFuncs::connect`
logs, and the library calls of the logging may leave another number.  The
callers of connect() ignore the value it returns.

`judged_by_outcome_iff_nextStep` compares two executions that differ in the errno
before the call and in what the logging does to it, and `judged_by_outcome_iff`
takes those whose logging keeps errno.
-/

namespace Hohnor

/-- The answer of `::connect`. -/
abbrev ConnectResult := Except Errno Unit

/-- What the thread has in errno when `::connect` is called, and what the logging
after the call makes of it. -/
structure ThreadErrno where
  before : Option Errno
  logged : Option Errno → Option Errno

/-- The logging leaves errno as it finds it. -/
def ThreadErrno.KeepsErrno (t : ThreadErrno) : Prop :=
  ∀ errno, t.logged errno = errno

/-- The errno after `SocketFuncs::connect`. -/
def SocketFuncs.connectErrno
    (t : ThreadErrno) : ConnectResult → Option Errno
  | .ok () => t.logged t.before
  | .error e => t.logged (some e)

/-- The three ways that the switch of connect() may go. -/
inductive NextStep where
  | connecting
  | retry
  | handleConnectError
deriving DecidableEq, Repr

/-- The case labels of the switch. -/
def nextStep : Option Errno → NextStep
  | none | some .EISCONN | some .EINPROGRESS | some .EINTR => .connecting
  | some .EAGAIN | some .EADDRINUSE | some .EADDRNOTAVAIL
  | some .ECONNREFUSED | some .ENETUNREACH => .retry
  | some _ => .handleConnectError

section ConnectOutcome

variable {κ ι : Type}

namespace TCPConnector

/-- `connect`, with the errno of the thread and the answer of `::connect`. -/
def attempt
    (c : TCPConnector κ ι) (addr : ι)
    (t : ThreadErrno) (r : ConnectResult) (newFd : Nat) :
    Option (TCPConnector κ ι × List (ConnectorEffect κ ι)) :=
  c.connect addr (SocketFuncs.connectErrno t r) newFd

/-- The attempt goes on to connecting(): no timer, no callback, and the
connector waits for its handler. -/
def Proceeds
    (c : TCPConnector κ ι) (addr : ι)
    (t : ThreadErrno) (r : ConnectResult) (newFd : Nat) : Prop :=
  ∃ c' h fd, c.attempt addr t r newFd = some (c', [.connect fd addr]) ∧
    c'.state_ = .Connecting ∧
    c'.socketHandler_ = some h ∧
    h.isEnabled = true ∧
    h.writeCallback_ = some .handleConnectWrite

/-- Two executions with the same answer of `::connect` take the same step, and a
call that succeeds proceeds in both of them. -/
structure JudgedByOutcome
    (c : TCPConnector κ ι) (addr : ι) (r : ConnectResult)
    (t₁ t₂ : ThreadErrno) (newFd : Nat) : Prop where
  sameStep :
    nextStep (SocketFuncs.connectErrno t₁ r) =
      nextStep (SocketFuncs.connectErrno t₂ r)
  sameResult :
    c.attempt addr t₁ r newFd = c.attempt addr t₂ r newFd
  proceeds :
    r = .ok () →
      c.Proceeds addr t₁ r newFd ∧ c.Proceeds addr t₂ r newFd

theorem afterConnect_eq
    (c : TCPConnector κ ι) (savedErrno : Option Errno) (newFd : Nat) :
    c.afterConnect savedErrno newFd =
      match nextStep savedErrno with
      | .connecting => c.connecting.map fun c => (c, [])
      | .retry => c.retry newFd
      | .handleConnectError => c.handleConnectError newFd := by
  cases savedErrno with
  | none =>
      rfl
  | some e =>
      cases e <;> rfl

/-- retry() leaves a connector that is not connecting. -/
theorem retry_disconnected
    {c c' : TCPConnector κ ι} {es : List (ConnectorEffect κ ι)}
    {newFd : Nat} (hc : c.Holds)
    (hretry : c.retry newFd = some (c', es)) :
    c'.state_ = .Disconnected := by
  obtain ⟨c₁, hstop, _, hstate⟩ := stop_spec hc newFd
  simp only [retry, hstop, Option.map_some] at hretry
  split at hretry
  all_goals
    cases hretry
    exact hstate

/-- Only connecting() leaves a connector that is connecting. -/
theorem afterConnect_connecting
    {c c' : TCPConnector κ ι} {es : List (ConnectorEffect κ ι)}
    {savedErrno : Option Errno} {newFd : Nat}
    (hc : c.Holds) (hstate : c.state_ = .Connecting)
    (hafter : c.afterConnect savedErrno newFd = some (c', es))
    (hstate' : c'.state_ = .Connecting) :
    nextStep savedErrno = .connecting := by
  have hnot :
      ∀ {p : Option (TCPConnector κ ι × List (ConnectorEffect κ ι))},
        p = c.retry newFd → p ≠ some (c', es) := by
    rintro p rfl hretry
    rw [retry_disconnected hc hretry] at hstate'
    cases hstate'
  rw [afterConnect_eq] at hafter
  cases hnext : nextStep savedErrno with
  | connecting =>
      rfl
  | retry =>
      rw [hnext] at hafter
      exact absurd hafter (hnot rfl)
  | handleConnectError =>
      rw [hnext] at hafter
      obtain ⟨h, hh⟩ := hc.handler (by simp [hstate])
      refine absurd hafter (hnot ?_)
      rw [handleConnectError, if_neg (by simp [hstate]), hh, Option.bind_some]

/-- connect() reaches its switch in one connector, whatever errno is. -/
theorem attempt_eq
    {c : TCPConnector κ ι} (hc : c.Holds)
    (hstate : c.state_ = .Disconnected) (addr : ι) :
    ∃ (c₁ : TCPConnector κ ι) (h : IOHandler ConnectorCallback),
      c₁.Holds ∧ c₁.state_ = .Connecting ∧ c₁.socketHandler_ = some h ∧
      ∀ t r newFd,
        c.attempt addr t r newFd =
          (c₁.afterConnect (SocketFuncs.connectErrno t r) newFd).map
            fun p => (p.1, .connect h.fd addr :: p.2) := by
  obtain ⟨h, hh⟩ := hc.handler (by simp [hstate])
  have hfd :
      ((h.setWriteCallback none).1.setErrorCallback none).1.fd = h.fd := by
    simp [IOHandler.setErrorCallback, IOHandler.setErrorEvent,
      IOHandler.setWriteCallback, IOHandler.setWriteEvent,
      IOHandler.setEvents_fst]
  refine
    ⟨{ c with
        socketHandler_ :=
          some ((h.setWriteCallback none).1.setErrorCallback none).1
        state_ := .Connecting },
      _, holds_of_connecting rfl rfl, rfl, rfl, ?_⟩
  intro t r newFd
  simp only [attempt, connect, hh, hstate, if_true, hfd]

/-- The switch is all that errno decides. -/
theorem attempt_congr
    {c : TCPConnector κ ι} (hc : c.Holds)
    (hstate : c.state_ = .Disconnected) (addr : ι)
    {t₁ t₂ : ThreadErrno} {r : ConnectResult} (newFd : Nat)
    (hstep :
      nextStep (SocketFuncs.connectErrno t₁ r) =
        nextStep (SocketFuncs.connectErrno t₂ r)) :
    c.attempt addr t₁ r newFd = c.attempt addr t₂ r newFd := by
  obtain ⟨c₁, h, _, _, _, hattempt⟩ := attempt_eq hc hstate addr
  rw [hattempt, hattempt, afterConnect_eq, afterConnect_eq, hstep]

theorem proceeds_iff
    {c : TCPConnector κ ι} (hc : c.Holds)
    (hstate : c.state_ = .Disconnected)
    (addr : ι) (t : ThreadErrno) (r : ConnectResult) (newFd : Nat) :
    c.Proceeds addr t r newFd ↔
      nextStep (SocketFuncs.connectErrno t r) = .connecting := by
  obtain ⟨c₁, h, hc₁, hstate₁, hh, hattempt⟩ := attempt_eq hc hstate addr
  constructor
  · rintro ⟨c', h', fd, hresult, hstate', _⟩
    rw [hattempt] at hresult
    obtain ⟨⟨c₂, es⟩, hafter, hp⟩ := Option.map_eq_some_iff.mp hresult
    obtain ⟨rfl, _⟩ := Prod.mk.inj hp
    exact afterConnect_connecting hc₁ hstate₁ hafter hstate'
  · intro hnext
    have hresult := hattempt t r newFd
    rw [afterConnect_eq, hnext] at hresult
    simp only [connecting, if_pos hstate₁, hh, Option.map_some] at hresult
    refine ⟨_, _, h.fd, hresult, hstate₁, rfl, ?_, ?_⟩
    · simp [IOHandler.enable_fst, IOHandler.isEnabled]
    · simp [IOHandler.enable_fst, IOHandler.setErrorCallback,
        IOHandler.setErrorEvent, IOHandler.setCloseCallback,
        IOHandler.setCloseEvent, IOHandler.setWriteCallback,
        IOHandler.setWriteEvent, IOHandler.setEvents_fst]

/-- An errno that does not mislead the switch when it is a stale one. -/
def Harmless (errno : Option Errno) : Prop :=
  errno = none ∨ errno = some .EISCONN ∨ errno = some .EINPROGRESS ∨
    errno = some .EINTR

theorem nextStep_connecting_iff (errno : Option Errno) :
    nextStep errno = .connecting ↔ Harmless errno := by
  cases errno with
  | none =>
      simp [nextStep, Harmless]
  | some e =>
      cases e <;> simp [nextStep, Harmless]

/-- Whatever the logging does to errno: an attempt is judged by its own outcome if
and only if what the logging leaves is one case of the switch in both
executions, and the case of connecting() when `::connect` has succeeded. -/
theorem judged_by_outcome_iff_nextStep
    {c : TCPConnector κ ι} (hc : c.Holds)
    (hstate : c.state_ = .Disconnected)
    (addr : ι) (r : ConnectResult) (t₁ t₂ : ThreadErrno) (newFd : Nat) :
    c.JudgedByOutcome addr r t₁ t₂ newFd ↔
      match r with
      | .ok () =>
          Harmless (t₁.logged t₁.before) ∧ Harmless (t₂.logged t₂.before)
      | .error e =>
          nextStep (t₁.logged (some e)) = nextStep (t₂.logged (some e)) := by
  cases r with
  | error e =>
      constructor
      · intro hjudged
        exact hjudged.sameStep
      · intro hstep
        refine ⟨hstep, attempt_congr hc hstate addr newFd hstep, ?_⟩
        intro h
        cases h
  | ok u =>
      have hiff :
          ∀ t, c.Proceeds addr t (.ok u) newFd ↔
            Harmless (t.logged t.before) :=
        fun t =>
          (proceeds_iff hc hstate addr t (.ok u) newFd).trans
            (nextStep_connecting_iff (t.logged t.before))
      constructor
      · intro hjudged
        obtain ⟨h₁, h₂⟩ := hjudged.proceeds rfl
        exact ⟨(hiff t₁).mp h₁, (hiff t₂).mp h₂⟩
      · rintro ⟨h₁, h₂⟩
        have hstep :
            nextStep (SocketFuncs.connectErrno t₁ (.ok u)) =
              nextStep (SocketFuncs.connectErrno t₂ (.ok u)) :=
          ((nextStep_connecting_iff (t₁.logged t₁.before)).mpr h₁).trans
            ((nextStep_connecting_iff (t₂.logged t₂.before)).mpr h₂).symm
        exact ⟨hstep, attempt_congr hc hstate addr newFd hstep,
          fun _ => ⟨(hiff t₁).mpr h₁, (hiff t₂).mpr h₂⟩⟩

/-- When the logging keeps errno, an attempt is judged by its own outcome if and
only if `::connect` has failed or what the thread has in errno before it is
harmless. -/
theorem judged_by_outcome_iff
    {c : TCPConnector κ ι} (hc : c.Holds)
    (hstate : c.state_ = .Disconnected)
    (addr : ι) (r : ConnectResult) (t₁ t₂ : ThreadErrno) (newFd : Nat)
    (hkeeps₁ : t₁.KeepsErrno) (hkeeps₂ : t₂.KeepsErrno) :
    c.JudgedByOutcome addr r t₁ t₂ newFd ↔
      r ≠ .ok () ∨ Harmless t₁.before ∧ Harmless t₂.before := by
  rw [judged_by_outcome_iff_nextStep hc hstate]
  cases r with
  | error e =>
      have hne : (.error e : ConnectResult) ≠ .ok () := nofun
      simp only [hkeeps₁ (some e), hkeeps₂ (some e), ne_eq, hne,
        not_false_eq_true, true_or]
  | ok u =>
      rw [hkeeps₁, hkeeps₂]
      exact ⟨Or.inr, fun h => h.resolve_left fun hne => hne rfl⟩

theorem judged_by_outcome_iff_interrupted :
    (create 3 0 : TCPConnector Nat Nat).JudgedByOutcome 0 (.ok ())
      ⟨none, id⟩ ⟨some .EINTR, id⟩ 7 :=
  (judged_by_outcome_iff (create_holds 3 0) rfl 0 (.ok ()) ⟨none, id⟩
    ⟨some .EINTR, id⟩ 7 (fun _ => rfl) (fun _ => rfl)).mpr
      (Or.inr ⟨Or.inl rfl, Or.inr (Or.inr (Or.inr rfl))⟩)

/-- A connection that is made at once is torn down for a retry when an earlier
call of the thread was refused; and an interrupted call fails for good when the
logging of it leaves another errno. -/
theorem stale_errno_tears_down :
    (¬ ((create 3 0 : TCPConnector Nat Nat).setRetries (-1)).JudgedByOutcome
        0 (.ok ()) ⟨none, id⟩ ⟨some .ECONNREFUSED, id⟩ 7 ∧
      (((create 3 0 : TCPConnector Nat Nat).setRetries (-1)).attempt 0
          ⟨some .ECONNREFUSED, id⟩ (.ok ()) 7).map (·.2) =
        some [.connect 3 0, .addTimer 1000]) ∧
    ¬ (create 3 0 : TCPConnector Nat Nat).JudgedByOutcome
        0 (.error .EINTR) ⟨none, id⟩ ⟨none, fun _ => some (.other 2)⟩ 7 := by
  refine ⟨⟨?_, rfl⟩, ?_⟩
  · intro hjudged
    have hstep := hjudged.sameStep
    simp [SocketFuncs.connectErrno, nextStep] at hstep
  · intro hjudged
    have hstep := hjudged.sameStep
    simp [SocketFuncs.connectErrno, nextStep] at hstep

end TCPConnector

end ConnectOutcome

end Hohnor
