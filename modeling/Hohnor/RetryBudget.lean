import Hohnor.TCPConnector

/-!
# The retry budget of a connector

From one start() to the next start() or stop() a connector may begin as many
attempts as it has retries and one more, call failedCallback_ once, and begin
nothing after it.

Each failed attempt arms a timer of its own, and nothing cancels one.  start()
sets the count of retries back while timers of an earlier start() are pending;
each of these that finds the connector Disconnected begins an attempt of the new
budget.  `budget_kept` says that this is the only way out of the budget.

A method calls a user callback last, so a start() in a callback is the next
operation.
-/

namespace Hohnor

open TransitionRuns

section RetryBudget

variable {κ ι : Type}

def ConnectorEffect.isConnect : ConnectorEffect κ ι → Bool
  | .connect _ _ => true
  | _ => false

def ConnectorEffect.isFailed : ConnectorEffect κ ι → Bool
  | .failed _ => true
  | _ => false

def ConnectorOp.setsRetries : ConnectorOp κ → Bool
  | .setRetries _ => true
  | _ => false

/-- A run of a connector.  The first `stale` of its pending timers were armed
before the last start(); `effects` are those since that start(), and none
where a stop() has come after it. -/
structure RetryRun (κ ι : Type) where
  run : ConnectorRun κ ι
  stale : Nat
  effects : Option (List (ConnectorEffect κ ι))
deriving DecidableEq, Repr

/-- `stale` after an operation. -/
def RetryRun.staleAfter (s : RetryRun κ ι) : ConnectorOp κ → Nat
  | .start _ _ _ => s.run.timers.length
  | .timer i _ _ => if i < s.stale then s.stale - 1 else s.stale
  | _ => s.stale

/-- `effects` after an operation with the effects `es`. -/
def RetryRun.effectsAfter (s : RetryRun κ ι)
    (es : List (ConnectorEffect κ ι)) (op : ConnectorOp κ) :
    Option (List (ConnectorEffect κ ι)) :=
  if op.isStart then some es
  else if op.isStop then none
  else s.effects.map (· ++ es)

namespace RetryRun

/-- A new connector with `r` retries. -/
def initial (fd : Nat) (addr : ι) (r : Nat) : RetryRun κ ι where
  run :=
    { connector := (TCPConnector.create fd addr).setRetries r
      timers := []
      stopped := false }
  stale := 0
  effects := none

def step (s : RetryRun κ ι) (op : ConnectorOp κ) :
    Option (RetryRun κ ι) :=
  (s.run.perform op).map fun p =>
    { run := p.1
      stale := s.staleAfter op
      effects := s.effectsAfter p.2 op }

/-- A timer of an earlier start() fires and finds the connector
Disconnected. -/
def firesStale (s : RetryRun κ ι) : ConnectorOp κ → Bool
  | .timer i _ _ =>
      s.effects.isSome && decide (i < s.stale) &&
        decide (s.run.connector.state_ = .Disconnected)
  | _ => false

end RetryRun

/-- At most `r + 1` attempts begin, failedCallback_ is called at most once, and
no attempt begins after it. -/
structure WithinBudget
    (r : Nat) (es : List (ConnectorEffect κ ι)) : Prop where
  attempts : es.countP ConnectorEffect.isConnect ≤ r + 1
  failures : es.countP ConnectorEffect.isFailed ≤ 1
  quiet :
    es.Pairwise fun e e' =>
      e.isFailed = true → e'.isConnect = false

/-- What is left of a budget of `r` retries, `k` of them used, when an attempt
has come to something: it goes on or has succeeded, the next retry is armed, or
there is none left. -/
inductive Outcome (r : Nat) (k : Int) (c : TCPConnector κ ι) :
    List (ConnectorEffect κ ι) → Prop
  | goes (es : List (ConnectorEffect κ ι))
      (hstate : c.state_ ≠ .Disconnected)
      (hretries : c.currentRetries_ = k)
      (hconnect : es.countP ConnectorEffect.isConnect = 0)
      (hfailed : es.countP ConnectorEffect.isFailed = 0)
      (hdelays : es.filterMap ConnectorEffect.delay? = []) :
      Outcome r k c es
  | armed (delayMs : Int) (cb : Option κ)
      (hstate : c.state_ = .Disconnected)
      (hretries : c.currentRetries_ = k + 1)
      (hleft : k < r) :
      Outcome r k c (.addTimer delayMs :: cb.toList.map .retrying)
  | exhausted (cb : Option κ)
      (hstate : c.state_ = .Disconnected)
      (hleft : ¬ k < r) :
      Outcome r k c (cb.toList.map .failed)

namespace TCPConnector

/-- A method that ends one attempt of a budget of `r` retries. -/
def HasOutcome
    (r : Nat) (k : Int)
    (p : Option (TCPConnector κ ι × List (ConnectorEffect κ ι))) : Prop :=
  ∃ c es, p = some (c, es) ∧ c.maxRetries_ = r ∧ Outcome r k c es

/-- stop() changes at most the state and the handler. -/
theorem stop_frame
    {c c' : TCPConnector κ ι} {newFd : Nat}
    (hstop : c.stop newFd = some c') :
    ∃ state handler,
      c' = { c with state_ := state, socketHandler_ := handler } := by
  simp only [stop] at hstop
  split at hstop
  · cases hstop
    exact ⟨c.state_, c.socketHandler_, rfl⟩
  · split at hstop
    · cases hstop
      exact ⟨_, _, rfl⟩
    · obtain ⟨_, _, rfl⟩ := Option.map_eq_some_iff.mp hstop
      exact ⟨_, _, rfl⟩

theorem retry_outcome
    {c : TCPConnector κ ι} {r : Nat} {newFd : Nat}
    (hr : c.maxRetries_ = r) (hc : c.Holds) :
    HasOutcome r c.currentRetries_ (c.retry newFd) := by
  obtain ⟨c', hstop, _, hstate⟩ := stop_spec hc newFd
  obtain ⟨_, _, rfl⟩ := stop_frame hstop
  simp only [retry, hstop, Option.map_some, hr]
  split
  · rename_i hleft
    refine ⟨_, _, rfl, rfl, .armed _ _ hstate rfl ?_⟩
    omega
  · rename_i hleft
    exact ⟨_, _, rfl, rfl, .exhausted _ hstate
      (fun h => hleft (Or.inr h))⟩

theorem handleConnectError_outcome
    {c : TCPConnector κ ι} {r : Nat} {newFd : Nat}
    (hr : c.maxRetries_ = r) (hc : c.Holds)
    (hstate : c.state_ = .Connecting) :
    HasOutcome r c.currentRetries_ (c.handleConnectError newFd) := by
  obtain ⟨h, hh⟩ := hc.handler (by simp [hstate])
  rw [handleConnectError, if_neg (by simp [hstate]), hh]
  exact retry_outcome hr hc

theorem handleConnectWrite_outcome
    {c : TCPConnector κ ι} {r : Nat} {newFd : Nat}
    (hr : c.maxRetries_ = r) (hc : c.Holds)
    (hstate : c.state_ = .Connecting) (err : Option Errno) :
    HasOutcome r c.currentRetries_ (c.handleConnectWrite err newFd) := by
  obtain ⟨h, hh⟩ := hc.handler (by simp [hstate])
  rw [handleConnectWrite, if_neg (by simp [hstate]), hh,
    Option.bind_some]
  split
  · exact retry_outcome hr hc
  · refine ⟨_, _, rfl, hr, .goes _ (by simp) rfl ?_ ?_ ?_⟩
    · cases c.newConnectionCallback_ <;> rfl
    · cases c.newConnectionCallback_ <;> rfl
    · cases c.newConnectionCallback_ <;> rfl

theorem afterConnect_outcome
    {c : TCPConnector κ ι} {h : IOHandler ConnectorCallback}
    {r : Nat} {newFd : Nat}
    (hr : c.maxRetries_ = r) (hstate : c.state_ = .Connecting)
    (hh : c.socketHandler_ = some h) (savedErrno : Option Errno) :
    HasOutcome r c.currentRetries_
      (c.afterConnect savedErrno newFd) := by
  have hc := holds_of_connecting hstate hh
  have hconnecting :
      HasOutcome r c.currentRetries_
        (c.connecting.map fun c => (c, [])) := by
    simp only [connecting, if_pos hstate, hh, Option.map_some]
    exact ⟨_, _, rfl, hr, .goes _ (by simp [hstate]) rfl rfl rfl rfl⟩
  unfold afterConnect
  split
  all_goals first
    | exact retry_outcome hr hc
    | exact handleConnectError_outcome hr hc hstate
    | exact hconnecting

/-- An attempt begins, and comes to something or goes on. -/
def BeginsAttempt
    (r : Nat) (k : Int)
    (p : Option (TCPConnector κ ι × List (ConnectorEffect κ ι))) : Prop :=
  ∃ c fd addr es, p = some (c, .connect fd addr :: es) ∧
    c.maxRetries_ = r ∧ Outcome r k c es

theorem connect_begins
    {c : TCPConnector κ ι} {r : Nat} {newFd : Nat}
    (hr : c.maxRetries_ = r) (hc : c.Holds)
    (hstate : c.state_ = .Disconnected)
    (addr : ι) (savedErrno : Option Errno) :
    BeginsAttempt r c.currentRetries_
      (c.connect addr savedErrno newFd) := by
  obtain ⟨h, hh⟩ := hc.handler (by simp [hstate])
  simp only [connect, hh, if_pos hstate]
  obtain ⟨c', es, hafter, hr', hout⟩ :=
    afterConnect_outcome
      (c := { c with
        socketHandler_ :=
          some ((h.setWriteCallback none).1.setErrorCallback none).1
        state_ := .Connecting })
      hr rfl rfl savedErrno
  rw [hafter]
  exact ⟨c', _, addr, es, rfl, hr', hout⟩

theorem start_begins
    {c : TCPConnector κ ι} {r : Nat} {stopFd newFd : Nat}
    (hr : c.maxRetries_ = r) (hc : c.Holds)
    (savedErrno : Option Errno) :
    BeginsAttempt r 0 (c.start savedErrno stopFd newFd) := by
  have hstop :
      ∃ c', (if c.state_ = .Disconnected then some c
          else c.stop stopFd) = some c' ∧ c'.Holds ∧
        c'.state_ = .Disconnected ∧ c'.maxRetries_ = r := by
    split
    · rename_i hstate
      exact ⟨c, rfl, hc, hstate, hr⟩
    · obtain ⟨c', hc', hholds, hstate⟩ := stop_spec hc stopFd
      refine ⟨c', hc', hholds, hstate, ?_⟩
      obtain ⟨_, _, rfl⟩ := stop_frame hc'
      exact hr
  obtain ⟨c', hc', hholds, hstate, hr'⟩ := hstop
  simp only [start, hc', Option.bind_some]
  exact connect_begins
    (c := { c' with
      currentRetries_ := 0
      retryDelayMs_ :=
        if c'.constantDelay_ then c'.retryDelayMs_
        else DefaultRetryDelayMs })
    hr' (hholds.congr rfl rfl) hstate c'.serverAddr_ savedErrno

end TCPConnector

/-- The connector inside of a budget of `r` retries, with the effects and the
`fresh` pending timers of this budget: an attempt goes on or has succeeded, the
next one waits for its timer, or there is none left. -/
inductive Phase (r : Nat) (c : TCPConnector κ ι) (fresh : Nat)
    (es : List (ConnectorEffect κ ι)) : Prop
  | going
      (hstate : c.state_ ≠ .Disconnected)
      (hfresh : fresh = 0)
      (hattempts :
        (es.countP ConnectorEffect.isConnect : Int) =
          c.currentRetries_ + 1)
      (hretries : c.currentRetries_ ≤ r)
      (hfailed : es.countP ConnectorEffect.isFailed = 0)
  | waiting
      (hstate : c.state_ = .Disconnected)
      (hfresh : fresh = 1)
      (hattempts :
        (es.countP ConnectorEffect.isConnect : Int) =
          c.currentRetries_)
      (hretries : c.currentRetries_ ≤ r)
      (hfailed : es.countP ConnectorEffect.isFailed = 0)
  | exhausted
      (hstate : c.state_ = .Disconnected)
      (hfresh : fresh = 0)
      (hbudget : WithinBudget r es)

/-- Where failedCallback_ has not been called nothing follows it. -/
theorem quiet_of_none_failed
    {es : List (ConnectorEffect κ ι)}
    (hfailed : es.countP ConnectorEffect.isFailed = 0) :
    es.Pairwise fun e e' =>
      e.isFailed = true → e'.isConnect = false := by
  rw [List.countP_eq_zero] at hfailed
  refine List.Pairwise.imp_of_mem ?_ (List.pairwise_of_forall
    (R := fun _ _ => True) (fun _ _ => trivial))
  intro e e' he _ _ hcalled
  exact absurd hcalled (hfailed e he)

theorem Phase.withinBudget
    {r fresh : Nat} {c : TCPConnector κ ι}
    {es : List (ConnectorEffect κ ι)} (h : Phase r c fresh es) :
    WithinBudget r es := by
  cases h with
  | going hstate hfresh hattempts hretries hfailed =>
      exact ⟨by omega, by omega, quiet_of_none_failed hfailed⟩
  | waiting hstate hfresh hattempts hretries hfailed =>
      exact ⟨by omega, by omega, quiet_of_none_failed hfailed⟩
  | exhausted hstate hfresh hbudget =>
      exact hbudget

theorem Phase.congr
    {r fresh : Nat} {c c' : TCPConnector κ ι}
    {es : List (ConnectorEffect κ ι)} (h : Phase r c fresh es)
    (hstate : c'.state_ = c.state_)
    (hretries : c'.currentRetries_ = c.currentRetries_) :
    Phase r c' fresh es := by
  cases h with
  | going hs hfresh hattempts hle hfailed =>
      exact .going (by rwa [hstate]) hfresh (by rwa [hretries])
        (by rwa [hretries]) hfailed
  | waiting hs hfresh hattempts hle hfailed =>
      exact .waiting (by rwa [hstate]) hfresh (by rwa [hretries])
        (by rwa [hretries]) hfailed
  | exhausted hs hfresh hbudget =>
      exact .exhausted (by rwa [hstate]) hfresh hbudget

/-- The attempt that the effects `before` end with comes to something. -/
theorem Outcome.phase
    {r : Nat} {k : Int} {c : TCPConnector κ ι}
    {before es : List (ConnectorEffect κ ι)}
    (h : Outcome r k c es)
    (hattempts : (before.countP ConnectorEffect.isConnect : Int) = k + 1)
    (hretries : k ≤ r)
    (hfailed : before.countP ConnectorEffect.isFailed = 0) :
    Phase r c (es.filterMap ConnectorEffect.delay?).length
      (before ++ es) := by
  cases h with
  | goes es hstate hk hconnect hnone hdelays =>
      refine .going hstate (by rw [hdelays]; rfl) ?_ (by omega) ?_
      · rw [List.countP_append, hconnect]
        omega
      · rw [List.countP_append, hnone, hfailed]
  | armed delayMs cb hstate hk hleft =>
      refine .waiting hstate ?_ ?_ (by omega) ?_
      · cases cb <;> rfl
      · cases cb <;>
          simp [List.countP_append, ConnectorEffect.isConnect] <;> omega
      · cases cb <;>
          simp [List.countP_append, ConnectorEffect.isFailed, hfailed]
  | exhausted cb hstate hleft =>
      refine .exhausted hstate (by cases cb <;> rfl) ⟨?_, ?_, ?_⟩
      · cases cb <;>
          simp [List.countP_append, ConnectorEffect.isConnect] <;> omega
      · cases cb <;>
          simp [List.countP_append, ConnectorEffect.isFailed, hfailed]
      · rw [List.pairwise_append]
        refine ⟨quiet_of_none_failed hfailed, ?_, ?_⟩
        · cases cb <;> simp
        · rw [List.countP_eq_zero] at hfailed
          intro e he _ _ hcalled
          exact absurd hcalled (hfailed e he)

namespace RetryRun

open TCPConnector

/-- What holds between two operations on a connector with `r` retries. -/
structure BudgetInv (r : Nat) (s : RetryRun κ ι) : Prop where
  holds : s.run.connector.Holds
  retries : s.run.connector.maxRetries_ = r
  staleTimers : s.stale ≤ s.run.timers.length
  phase :
    ∀ es, s.effects = some es →
      Phase r s.run.connector (s.run.timers.length - s.stale) es

theorem initial_budgetInv
    (fd : Nat) (addr : ι) (r : Nat) :
    BudgetInv r (initial fd addr r : RetryRun κ ι) where
  holds := (create_holds fd addr).congr rfl rfl
  retries := rfl
  staleTimers := Nat.le_refl 0
  phase := by
    intro es hes
    cases hes

/-- An operation without effects that leaves the retries and the timers. -/
theorem BudgetInv.keep
    {r : Nat} {s : RetryRun κ ι} (hs : BudgetInv r s)
    {c : TCPConnector κ ι}
    (hstate : c.state_ = s.run.connector.state_)
    (hhandler : c.socketHandler_ = s.run.connector.socketHandler_)
    (hmax : c.maxRetries_ = s.run.connector.maxRetries_)
    (hcurrent : c.currentRetries_ = s.run.connector.currentRetries_)
    (stopped : Bool) :
    BudgetInv r
      { run := (s.run.finish stopped (c, [])).1
        stale := s.stale
        effects := s.effects.map (· ++ []) } := by
  have htimers :
      (s.run.finish stopped (c, [])).1.timers = s.run.timers := by
    simp [ConnectorRun.finish]
  refine ⟨hs.holds.congr hstate hhandler, hmax.trans hs.retries, ?_, ?_⟩
  · simp only [htimers]
    exact hs.staleTimers
  · intro es hes
    simp only [htimers]
    obtain ⟨es', hes', rfl⟩ := Option.map_eq_some_iff.mp hes
    rw [List.append_nil]
    exact (hs.phase es' hes').congr hstate hcurrent

/-- start() opens a budget of its own. -/
theorem BudgetInv.start
    {r : Nat} {s s' : RetryRun κ ι} (hs : BudgetInv r s)
    {savedErrno : Option Errno} {stopFd newFd : Nat}
    (hstep : s.step (.start savedErrno stopFd newFd) = some s') :
    BudgetInv r s' := by
  obtain ⟨p, hp, rfl⟩ := Option.map_eq_some_iff.mp hstep
  obtain ⟨c, fd, addr, es, hstart, hr, hout⟩ :=
    @start_begins _ _ _ _ stopFd newFd hs.retries hs.holds savedErrno
  obtain ⟨c', es', hstart', hc'⟩ :=
    start_spec hs.holds savedErrno stopFd newFd
  rw [hstart] at hstart'
  cases hstart'
  simp only [ConnectorRun.perform, hstart, Option.map_some] at hp
  cases hp
  have hphase :=
    @Outcome.phase _ _ _ _ _ [.connect fd addr] _ hout rfl (by omega) rfl
  refine ⟨hc', hr, ?_, ?_⟩
  · simp [staleAfter, ConnectorRun.finish]
  · intro es₁ hes₁
    cases hes₁
    simpa [staleAfter, ConnectorRun.finish, List.filterMap_cons,
      ConnectorEffect.delay?] using hphase

/-- stop() ends the budget. -/
theorem BudgetInv.stop
    {r : Nat} {s s' : RetryRun κ ι} (hs : BudgetInv r s)
    {newFd : Nat} (hstep : s.step (.stop newFd) = some s') :
    BudgetInv r s' := by
  obtain ⟨p, hp, rfl⟩ := Option.map_eq_some_iff.mp hstep
  obtain ⟨c, hstop, hc, _⟩ := stop_spec hs.holds newFd
  simp only [ConnectorRun.perform, hstop, Option.map_some] at hp
  cases hp
  have hretries : c.maxRetries_ = r := by
    obtain ⟨_, _, rfl⟩ := stop_frame hstop
    exact hs.retries
  refine ⟨hc, hretries, ?_, ?_⟩
  · simpa [staleAfter, ConnectorRun.finish] using hs.staleTimers
  · intro es hes
    cases hes

/-- The attempt that goes on comes to something. -/
theorem BudgetInv.outcome
    {r : Nat} {s : RetryRun κ ι} (hs : BudgetInv r s)
    {c : TCPConnector κ ι} {es : List (ConnectorEffect κ ι)}
    (hstate : s.run.connector.state_ ≠ .Disconnected)
    (hc : c.Holds) (hr : c.maxRetries_ = r)
    (hout : Outcome r s.run.connector.currentRetries_ c es)
    (stopped : Bool) :
    BudgetInv r
      { run := (s.run.finish stopped (c, es)).1
        stale := s.stale
        effects := s.effects.map (· ++ es) } := by
  have hle := hs.staleTimers
  refine ⟨hc, hr, ?_, ?_⟩
  · simp only [ConnectorRun.finish, List.length_append]
    omega
  · intro es' hes'
    obtain ⟨before, hbefore, rfl⟩ := Option.map_eq_some_iff.mp hes'
    cases hs.phase before hbefore with
    | going _ hfresh hattempts hretries hfailed =>
        have hphase := hout.phase hattempts hretries hfailed
        have hlength :
            (s.run.finish stopped (c, es)).1.timers.length - s.stale =
              (es.filterMap ConnectorEffect.delay?).length := by
          simp only [ConnectorRun.finish, List.length_append]
          omega
        simp only [hlength]
        exact hphase
    | waiting hdisconnected _ _ _ _ =>
        exact absurd hdisconnected hstate
    | exhausted hdisconnected _ _ =>
        exact absurd hdisconnected hstate

/-- What an event of the current handler comes to. -/
theorem handleEvent_outcome
    {c : TCPConnector κ ι} {r : Nat} (hr : c.maxRetries_ = r)
    (hc : c.Holds) (ev : ConnectorEvent) (err : Option Errno)
    (newFd : Nat) :
    c.handleEvent ev err newFd = some (c, []) ∨
      (c.state_ ≠ .Disconnected ∧
        HasOutcome r c.currentRetries_ (c.handleEvent ev err newFd)) := by
  cases hstate : c.state_ with
  | Disconnected =>
      exact Or.inl (handleEvent_idle hc hstate ev err newFd)
  | Connected =>
      left
      have hnone := hc.connected_iff.mp hstate
      simp [handleEvent, callbackFor, hnone]
  | Connecting =>
      unfold handleEvent
      split
      · exact Or.inl rfl
      · exact Or.inr ⟨by simp,
          handleConnectWrite_outcome hr hc hstate err⟩
      · exact Or.inr ⟨by simp, handleConnectError_outcome hr hc hstate⟩

theorem BudgetInv.event
    {r : Nat} {s s' : RetryRun κ ι} (hs : BudgetInv r s)
    {ev : ConnectorEvent} {err : Option Errno} {newFd : Nat}
    (hstep : s.step (.event ev err newFd) = some s') :
    BudgetInv r s' := by
  obtain ⟨p, hp, rfl⟩ := Option.map_eq_some_iff.mp hstep
  rcases handleEvent_outcome hs.retries hs.holds ev err newFd with
    hidle | ⟨hstate, c, es, hcall, hr, hout⟩
  · simp only [ConnectorRun.perform, hidle, Option.map_some] at hp
    cases hp
    exact hs.keep rfl rfl rfl rfl s.run.stopped
  · obtain ⟨c', es', hcall', hc'⟩ :=
      handleEvent_spec hs.holds ev err newFd
    rw [hcall] at hcall'
    cases hcall'
    simp only [ConnectorRun.perform, hcall, Option.map_some] at hp
    cases hp
    exact hs.outcome hstate hc' hr hout s.run.stopped

/-- A timer that finds an attempt or a connection does nothing but go. -/
theorem BudgetInv.timerIdle
    {r : Nat} {s : RetryRun κ ι} (hs : BudgetInv r s) {i : Nat}
    (hi : i < s.run.timers.length)
    (hstate : s.run.connector.state_ ≠ .Disconnected)
    (stopped : Bool) :
    BudgetInv r
      { run :=
          ({ s.run with timers := s.run.timers.eraseIdx i }.finish
            stopped (s.run.connector, [])).1
        stale := if i < s.stale then s.stale - 1 else s.stale
        effects := s.effects.map (· ++ []) } := by
  have hle := hs.staleTimers
  have hlength :
      (s.run.timers.eraseIdx i).length = s.run.timers.length - 1 :=
    List.length_eraseIdx_of_lt hi
  refine ⟨hs.holds, hs.retries, ?_, ?_⟩
  · simp only [ConnectorRun.finish, List.filterMap_nil,
      List.append_nil, hlength]
    split <;> omega
  · intro es hes
    obtain ⟨es', hes', rfl⟩ := Option.map_eq_some_iff.mp hes
    have hphase := hs.phase es' hes'
    simp only [ConnectorRun.finish, List.filterMap_nil,
      List.append_nil, hlength]
    cases hphase with
    | going _ hfresh hattempts hretries hfailed =>
        refine .going hstate ?_ hattempts hretries hfailed
        split <;> omega
    | waiting hdisconnected _ _ _ _ =>
        exact absurd hdisconnected hstate
    | exhausted hdisconnected _ _ =>
        exact absurd hdisconnected hstate

/-- A timer that finds the connector Disconnected begins an attempt; inside of
a budget it is the one that this budget has armed. -/
theorem BudgetInv.timerConnects
    {r : Nat} {s : RetryRun κ ι} (hs : BudgetInv r s) {i : Nat}
    (hi : i < s.run.timers.length)
    (hstale : s.effects.isSome = true → ¬ i < s.stale)
    {c : TCPConnector κ ι} {fd : Nat} {addr : ι}
    {es : List (ConnectorEffect κ ι)}
    (hstate : s.run.connector.state_ = .Disconnected)
    (hc : c.Holds) (hr : c.maxRetries_ = r)
    (hout : Outcome r s.run.connector.currentRetries_ c es)
    (stopped : Bool) :
    BudgetInv r
      { run :=
          ({ s.run with timers := s.run.timers.eraseIdx i }.finish
            stopped (c, .connect fd addr :: es)).1
        stale := if i < s.stale then s.stale - 1 else s.stale
        effects := s.effects.map (· ++ .connect fd addr :: es) } := by
  have hle := hs.staleTimers
  have htimers :
      ({ s.run with timers := s.run.timers.eraseIdx i }.finish
        stopped (c, .connect fd addr :: es)).1.timers.length =
      s.run.timers.length - 1 +
        (es.filterMap ConnectorEffect.delay?).length := by
    simp [ConnectorRun.finish, List.filterMap_cons,
      ConnectorEffect.delay?, List.length_eraseIdx_of_lt hi]
  refine ⟨hc, hr, ?_, ?_⟩
  · simp only [htimers]
    split <;> omega
  · intro es' hes'
    obtain ⟨before, hbefore, rfl⟩ := Option.map_eq_some_iff.mp hes'
    have hfreshTimer : ¬ i < s.stale := hstale (by rw [hbefore]; rfl)
    simp only [htimers, if_neg hfreshTimer]
    cases hs.phase before hbefore with
    | going hgoing _ _ _ _ =>
        exact absurd hstate hgoing
    | waiting _ hfresh hattempts hretries hfailed =>
        have hphase :=
          @Outcome.phase _ _ _ _ _ (before ++ [.connect fd addr]) _ hout
            (by
              simp only [List.countP_append]
              simp [ConnectorEffect.isConnect, hattempts])
            hretries
            (by simp [hfailed, ConnectorEffect.isFailed])
        have hlength :
            s.run.timers.length - 1 +
                (es.filterMap ConnectorEffect.delay?).length - s.stale =
              (es.filterMap ConnectorEffect.delay?).length := by
          omega
        rw [List.append_assoc] at hphase
        rw [hlength]
        exact hphase
    | exhausted _ hfresh _ =>
        omega

theorem BudgetInv.timer
    {r : Nat} {s s' : RetryRun κ ι} (hs : BudgetInv r s)
    {i : Nat} {savedErrno : Option Errno} {newFd : Nat}
    (hstale : s.firesStale (.timer i savedErrno newFd) = false)
    (hstep : s.step (.timer i savedErrno newFd) = some s') :
    BudgetInv r s' := by
  obtain ⟨p, hp, rfl⟩ := Option.map_eq_some_iff.mp hstep
  have hi := ConnectorRun.timer_pending hp i savedErrno newFd rfl
  simp only [ConnectorRun.perform, if_pos hi] at hp
  by_cases hstate : s.run.connector.state_ = .Disconnected
  · obtain ⟨c, fd, addr, es, hcall, hr, hout⟩ :=
      @connect_begins _ _ _ _ newFd hs.retries hs.holds hstate
        s.run.connector.serverAddr_ savedErrno
    obtain ⟨c', fd', es', hcall', hc'⟩ :=
      connect_spec hs.holds hstate s.run.connector.serverAddr_
        savedErrno newFd
    rw [hcall] at hcall'
    cases hcall'
    simp only [retryTimer, if_pos hstate, hcall, Option.map_some] at hp
    cases hp
    refine hs.timerConnects hi ?_ hstate hc' hr hout s.run.stopped
    intro hcounting hlt
    simp [firesStale, hcounting, hlt, hstate] at hstale
  · simp only [retryTimer, if_neg hstate, Option.map_some] at hp
    cases hp
    exact hs.timerIdle hi hstate s.run.stopped

theorem step_budgetInv
    {r : Nat} {s s' : RetryRun κ ι} {op : ConnectorOp κ}
    (hs : BudgetInv r s) (hop : op.setsRetries = false)
    (hstale : s.firesStale op = false)
    (hstep : s.step op = some s') :
    BudgetInv r s' := by
  cases op with
  | start savedErrno stopFd newFd =>
      exact hs.start hstep
  | stop newFd =>
      exact hs.stop hstep
  | event ev err newFd =>
      exact hs.event hstep
  | timer i savedErrno newFd =>
      exact hs.timer hstale hstep
  | setRetries retries =>
      cases hop
  | setNewConnectionCallback cb =>
      cases hstep
      exact @BudgetInv.keep _ _ _ _ hs
        { s.run.connector with newConnectionCallback_ := cb }
        rfl rfl rfl rfl s.run.stopped
  | setRetryConnectionCallback cb =>
      cases hstep
      exact @BudgetInv.keep _ _ _ _ hs
        { s.run.connector with retryCallback_ := cb }
        rfl rfl rfl rfl s.run.stopped
  | setFailedConnectionCallback cb =>
      cases hstep
      exact @BudgetInv.keep _ _ _ _ hs
        { s.run.connector with failedCallback_ := cb }
        rfl rfl rfl rfl s.run.stopped
  | setRetryConstantDelay delayMs =>
      cases hstep
      exact @BudgetInv.keep _ _ _ _ hs
        (s.run.connector.setRetryConstantDelay delayMs)
        rfl rfl rfl rfl s.run.stopped

/-- In every run in which no timer of an earlier start() finds the connector
Disconnected, the connector stays within its budget. -/
theorem budget_kept
    (fd : Nat) (addr : ι) (r : Nat) (ops : List (ConnectorOp κ))
    (hops : ∀ op ∈ ops, op.setsRetries = false)
    (hstale :
      Along step (fun s op => s.firesStale op = false)
        (initial fd addr r) ops)
    {s : RetryRun κ ι}
    (hrun : TransitionRuns.run step (initial fd addr r) ops = some s)
    {es : List (ConnectorEffect κ ι)} (hes : s.effects = some es) :
    WithinBudget r es := by
  have hs : BudgetInv r s :=
    invariant_of_along
      (fun _ _ _ hinv hop hfresh hstep =>
        step_budgetInv hinv hop hfresh hstep)
      (initial_budgetInv fd addr r) hops hstale hrun
  exact (hs.phase es hes).withinBudget

/-- Two start() whose attempts are refused, and then both timers. -/
def staleTimerOps : List (ConnectorOp Nat) :=
  [.setFailedConnectionCallback (some 1),
    .start (some .ECONNREFUSED) 10 11,
    .start (some .ECONNREFUSED) 12 13,
    .timer 0 (some .ECONNREFUSED) 14,
    .timer 0 (some .ECONNREFUSED) 15]

/-- With one retry, three attempts and two calls of failedCallback_ since the
second start(). -/
theorem stale_timer_exceeds_budget :
    ∃ (s : RetryRun Nat Nat) (es : List (ConnectorEffect Nat Nat)),
      TransitionRuns.run step (initial 3 80 1) staleTimerOps = some s ∧
      s.effects = some es ∧
      es =
        [.connect 11 80, .addTimer 1000, .connect 13 80, .failed 1,
          .connect 14 80, .failed 1] ∧
      ¬ WithinBudget 1 es := by
  obtain ⟨s, hrun, heffects⟩ :=
    Option.map_eq_some_iff.mp
      (show (TransitionRuns.run step
          (initial 3 80 1 : RetryRun Nat Nat) staleTimerOps).map effects =
          some (some
            [.connect 11 80, .addTimer 1000, .connect 13 80, .failed 1,
              .connect 14 80, .failed 1])
        by decide +kernel)
  refine ⟨s, _, hrun, heffects, rfl, ?_⟩
  intro hbudget
  exact absurd hbudget.attempts (by decide)

/-- One start(), its two attempts, and failedCallback_. -/
def oneStartOps : List (ConnectorOp Nat) :=
  [.setFailedConnectionCallback (some 1),
    .start (some .EINPROGRESS) 10 11,
    .event .close (some .ECONNREFUSED) 12,
    .timer 0 (some .ECONNREFUSED) 13]

theorem budget_kept_sample :
    ∃ (s : RetryRun Nat Nat) (es : List (ConnectorEffect Nat Nat)),
      TransitionRuns.run step (initial 3 80 1) oneStartOps = some s ∧
      s.effects = some es ∧ WithinBudget 1 es := by
  obtain ⟨s, hrun, heffects⟩ :=
    Option.map_eq_some_iff.mp
      (show (TransitionRuns.run step
          (initial 3 80 1 : RetryRun Nat Nat) oneStartOps).map effects =
          some (some
            [.connect 3 80, .addTimer 1000, .connect 12 80, .failed 1])
        by decide +kernel)
  refine ⟨s, _, hrun, heffects, ?_⟩
  exact budget_kept 3 80 1 oneStartOps (by decide) (by decide +kernel)
    hrun heffects

end RetryRun

end RetryBudget

end Hohnor
