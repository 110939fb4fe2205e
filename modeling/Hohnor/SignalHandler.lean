import Hohnor.IOHandler
import Hohnor.TransitionRuns

/-!
# Signal handlers

`SignalHandler` of src/core/Signal.cpp under `EventLoop::handleSignal`, for one
signal on a running loop.  The kernel's side is whether the signal is blocked
and what its disposition is; the loop's side is the handler of the signalfd.

The calls that the source answers with an abort when they fail are taken to
succeed.  A callback is a value of an arbitrary type, the empty std::function
is none.

A switch to Handled gets the wrapper that consumes the siginfo, and blocks the
signal, only where no signalfd exists yet.  So the state depends on the history
exactly when the last action is Handled and an earlier one was, too.
-/

namespace Hohnor

open TransitionRuns

inductive SignalAction where
  | Ignored
  | Default
  | Handled
deriving DecidableEq, Repr

inductive Disposition where
  | SIG_DFL
  | SIG_IGN
deriving DecidableEq, Repr

/-- What the process does with the signal. -/
structure SignalProcess where
  blocked : Bool
  disposition : Disposition
deriving DecidableEq, Repr

/-- What runs when the signalfd is readable: signalFDRead and the user's
function, or that function alone. -/
inductive SignalRead (κ : Type) where
  | readAndCall (cb : Option κ)
  | callOnly (cb : κ)
deriving DecidableEq, Repr

/-- A step of the dispatch of a readable signalfd. -/
inductive SignalEffect (κ : Type) where
  | consumeSiginfo
  | call (cb : κ)
  | badFunctionCall
deriving DecidableEq, Repr

structure SignalHandler (κ : Type) where
  action_ : SignalAction
  ioHandler_ : Option (IOHandler (SignalRead κ))

/-- The process and the entry of the loop's signalMap_. -/
structure SignalState (κ : Type) where
  process : SignalProcess
  entry : Option (SignalHandler κ)

/-- A call of handleSignal with the fd that signalfd returns if it is
called. -/
structure SignalRequest (κ : Type) where
  action : SignalAction
  cb : Option κ
  sfd : Nat
  sfd_pos : 0 < sfd

section SignalHandler

variable {κ : Type}

/-- The free function handleSignal, without the signalfd that it makes for
Handled. -/
def handleSignal (action : SignalAction) : SignalProcess :=
  match action with
  | .Handled => { blocked := true, disposition := .SIG_DFL }
  | .Ignored => { blocked := false, disposition := .SIG_IGN }
  | .Default => { blocked := false, disposition := .SIG_DFL }

namespace SignalHandler

/-- `SignalHandler::createIOHandler`. -/
def createIOHandler (fd : Nat) (cb : Option κ) :
    IOHandler (SignalRead κ) :=
  ((IOHandler.create fd).setReadCallback
    (some (.readAndCall cb))).1.enable.1

/-- The constructor. -/
def create (r : SignalRequest κ) : SignalState κ where
  process := handleSignal r.action
  entry :=
    some
      { action_ := r.action
        ioHandler_ :=
          if r.action = .Handled then some (createIOHandler r.sfd r.cb)
          else none }

/-- `SignalHandler::update`; where it calls through a null ioHandler_ there is
no result. -/
def update (p : SignalProcess) (s : SignalHandler κ)
    (r : SignalRequest κ) : Option (SignalState κ) :=
  let s' := { s with action_ := r.action }
  if s.action_ = r.action ∧ r.action = .Handled then
    s.ioHandler_.map fun h =>
      { process := p
        entry :=
          some
            { s' with
              ioHandler_ :=
                some (h.setReadCallback (r.cb.map .callOnly)).1 } }
  else if s.action_ = .Handled ∧ r.action ≠ s.action_ then
    s.ioHandler_.map fun h =>
      { process := handleSignal r.action
        entry :=
          some { s' with ioHandler_ := some (h.disable false).1 } }
  else if r.action = .Handled then
    match s.ioHandler_ with
    | some h =>
        some
          { process := p
            entry :=
              some
                { s' with
                  ioHandler_ :=
                    some
                      (h.setReadCallback
                        (r.cb.map .callOnly)).1.enable.1 } }
    | none =>
        some
          { process := handleSignal r.action
            entry :=
              some
                { s' with
                  ioHandler_ := some (createIOHandler r.sfd r.cb) } }
  else
    some { process := handleSignal r.action, entry := some s' }

end SignalHandler

namespace SignalState

/-- `EventLoop::handleSignal`. -/
def handleSignal (s : SignalState κ) (r : SignalRequest κ) :
    Option (SignalState κ) :=
  match s.entry with
  | none => some (SignalHandler.create r)
  | some h => h.update s.process r

end SignalState

/-- The effects of a read callback. -/
def SignalRead.effects : SignalRead κ → List (SignalEffect κ)
  | .readAndCall none => [.consumeSiginfo, .badFunctionCall]
  | .readAndCall (some cb) => [.consumeSiginfo, .call cb]
  | .callOnly cb => [.call cb]

/-- The process state for one signal: the mask, the disposition, whether the
signalfd is in epoll, and what its read callback does. -/
structure SignalView (κ : Type) where
  process : SignalProcess
  enabled : Bool
  onDelivery : List (SignalEffect κ)
deriving DecidableEq, Repr

namespace SignalHandler

/-- The handler of the signalfd is enabled. -/
def enabled (s : SignalHandler κ) : Bool :=
  match s.ioHandler_ with
  | none => false
  | some h => h.isEnabled

/-- What a readable signalfd sets off. -/
def onDelivery (s : SignalHandler κ) : List (SignalEffect κ) :=
  match s.ioHandler_ with
  | none => []
  | some h =>
      match h.readCallback_ with
      | none => []
      | some cb => cb.effects

end SignalHandler

def SignalState.view (s : SignalState κ) : SignalView κ where
  process := s.process
  enabled := s.entry.elim false SignalHandler.enabled
  onDelivery := s.entry.elim [] SignalHandler.onDelivery

/-- A state that no handler has touched. -/
def SignalState.initial (p : SignalProcess) : SignalState κ where
  process := p
  entry := none

/-- A freshly constructed handler for Handled blocks the signal, is enabled,
and consumes a siginfo before it calls the user's function. -/
theorem SignalHandler.create_handled_view
    {r : SignalRequest κ} {cb : κ}
    (hr : r.action = .Handled) (hcb : r.cb = some cb) :
    (create r).view =
      { process := { blocked := true, disposition := .SIG_DFL }
        enabled := true
        onDelivery := [.consumeSiginfo, .call cb] } := by
  simp [SignalState.view, create, handleSignal, enabled, onDelivery,
    createIOHandler, SignalRead.effects, IOHandler.create,
    IOHandler.setReadCallback, IOHandler.setReadEvent,
    IOHandler.setEvents, IOHandler.isEnabled, IOHandler.enable,
    IOHandler.update, IOHandler.updateInLoop, hr, hcb]

/-- Disabling drops the callbacks. -/
theorem disable_inert
    (h : IOHandler (SignalRead κ)) :
    (h.disable false).1.isEnabled = false ∧
    (h.disable false).1.readCallback_ = none := by
  cases hst : h.status_ with
  | Created =>
      simp [IOHandler.disable, IOHandler.update,
        IOHandler.cleanCallbacks, IOHandler.isEnabled, hst]
  | Enabled =>
      simp [IOHandler.disable, IOHandler.update, IOHandler.updateInLoop,
        IOHandler.cleanCallbacks, IOHandler.isEnabled, hst]
  | Disabled =>
      simp [IOHandler.disable, IOHandler.update,
        IOHandler.cleanCallbacks, IOHandler.isEnabled, hst]

/-- What a history leaves: the entry has the last action, it has a signalfd if
some action was Handled, and that one is inert unless the last action was. -/
structure Follows
    (rs : List (SignalRequest κ)) (s : SignalState κ)
    (h : SignalHandler κ) : Prop where
  entry : s.entry = some h
  action : rs.getLast?.map (·.action) = some h.action_
  handler_iff :
    h.ioHandler_.isSome ↔ ∃ r ∈ rs, r.action = .Handled
  inert :
    h.action_ ≠ .Handled →
      s.process = handleSignal h.action_ ∧
      ∀ io, h.ioHandler_ = some io →
        io.isEnabled = false ∧ io.readCallback_ = none

theorem follows_create
    (r : SignalRequest κ) :
    ∃ h, Follows [r] (SignalHandler.create r) h := by
  refine ⟨_, rfl, rfl, ?_, ?_⟩
  · by_cases hr : r.action = .Handled
    · simp [hr]
    · simp [hr]
  · intro hne
    refine ⟨rfl, ?_⟩
    intro io hio
    simp only at hne
    rw [if_neg hne] at hio
    cases hio

theorem SignalState.view_of_entry
    {s : SignalState κ} {h : SignalHandler κ} (hs : s.entry = some h) :
    s.view =
      { process := s.process
        enabled := h.enabled
        onDelivery := h.onDelivery } := by
  simp [SignalState.view, hs]

/-- A signalfd handler that is missing or inert sets off nothing. -/
theorem SignalHandler.idle_of_inert
    {h : SignalHandler κ}
    (hinert :
      ∀ io, h.ioHandler_ = some io →
        io.isEnabled = false ∧ io.readCallback_ = none) :
    h.enabled = false ∧ h.onDelivery = [] := by
  cases hio : h.ioHandler_ with
  | none =>
      simp [enabled, onDelivery, hio]
  | some io =>
      obtain ⟨hoff, hnone⟩ := hinert io hio
      simp [enabled, onDelivery, hio, hoff, hnone]

theorem SignalHandler.create_unhandled_view
    {r : SignalRequest κ} (hr : r.action ≠ .Handled) :
    (create r).view =
      { process := handleSignal r.action
        enabled := false
        onDelivery := [] } := by
  simp [SignalState.view, create, enabled, onDelivery, hr]

/-- The wrapper of a fresh handler consumes a siginfo first. -/
theorem SignalHandler.create_consumes
    {r : SignalRequest κ} (hr : r.action = .Handled) :
    (create r).view.process.blocked = true ∧
    .consumeSiginfo ∈ (create r).view.onDelivery := by
  cases hcb : r.cb with
  | none =>
      simp [SignalState.view, create, handleSignal, onDelivery,
        createIOHandler, SignalRead.effects, IOHandler.create,
        IOHandler.setReadCallback, IOHandler.setReadEvent,
        IOHandler.setEvents, IOHandler.isEnabled, IOHandler.enable,
        IOHandler.update, IOHandler.updateInLoop, hr, hcb]
  | some cb =>
      rw [create_handled_view hr hcb]
      simp

/-- A function set without the wrapper does not. -/
theorem SignalHandler.not_consumes
    {h : SignalHandler κ} {cb : Option κ}
    (hread :
      ∀ io, h.ioHandler_ = some io →
        io.readCallback_ = cb.map .callOnly) :
    .consumeSiginfo ∉ h.onDelivery := by
  cases hio : h.ioHandler_ with
  | none =>
      simp [onDelivery, hio]
  | some io =>
      have hcb := hread io hio
      cases cb with
      | none =>
          simp [onDelivery, hio, hcb]
      | some cb =>
          simp [onDelivery, hio, hcb, SignalRead.effects]

theorem setReadCallback_readCallback
    (io : IOHandler (SignalRead κ)) (cb : Option (SignalRead κ)) :
    (io.setReadCallback cb).1.readCallback_ = cb := by
  unfold IOHandler.setReadCallback IOHandler.setReadEvent
    IOHandler.setEvents
  simp only
  split
  · simp [IOHandler.updateInLoop]
  · rfl

theorem Follows.mem_handled
    {rs : List (SignalRequest κ)} {s : SignalState κ}
    {h : SignalHandler κ} (hs : Follows rs s h)
    (hh : h.action_ = .Handled) :
    ∃ io, h.ioHandler_ = some io := by
  obtain ⟨r, hr, hact⟩ := Option.map_eq_some_iff.mp hs.action
  have hmem : r ∈ rs := List.mem_of_getLast? hr
  exact Option.isSome_iff_exists.mp
    (hs.handler_iff.mpr ⟨r, hmem, hact.trans hh⟩)

/-- The last action decides the state, as in a handler made for it, unless it
is Handled after an earlier Handled. -/
def LastDecides
    (rs : List (SignalRequest κ)) (r : SignalRequest κ) : Prop :=
  r.action = .Handled → ∀ r' ∈ rs, r'.action ≠ .Handled

/-- What one more request leaves follows the longer history, and looks like a
fresh handler exactly when the last action decides. -/
def Continues
    (rs : List (SignalRequest κ)) (s : SignalState κ)
    (r : SignalRequest κ) : Prop :=
  ∃ s' h', s.handleSignal r = some s' ∧
    Follows (rs ++ [r]) s' h' ∧
    (s'.view = (SignalHandler.create r).view ↔ LastDecides rs r)

theorem Follows.handleSignal_eq
    {rs : List (SignalRequest κ)} {s : SignalState κ}
    {h : SignalHandler κ} (hs : Follows rs s h)
    (r : SignalRequest κ) :
    s.handleSignal r = h.update s.process r := by
  simp [SignalState.handleSignal, hs.entry]

/-- An inert handler after a request that is not Handled looks like a fresh
one. -/
theorem view_of_inert
    {r : SignalRequest κ} (hr : r.action ≠ .Handled)
    {h : SignalHandler κ}
    (hinert :
      ∀ io, h.ioHandler_ = some io →
        io.isEnabled = false ∧ io.readCallback_ = none) :
    ({ process := handleSignal r.action,
       entry := some h } : SignalState κ).view =
      (SignalHandler.create r).view := by
  obtain ⟨hoff, hquiet⟩ := SignalHandler.idle_of_inert hinert
  rw [SignalState.view_of_entry rfl, hoff, hquiet,
    SignalHandler.create_unhandled_view hr]

/-- From Handled to Handled: the callback is set without the wrapper. -/
theorem Follows.handled_handled
    {rs : List (SignalRequest κ)} {s : SignalState κ}
    {h : SignalHandler κ} (hs : Follows rs s h)
    {r : SignalRequest κ}
    (hold : h.action_ = .Handled) (hnew : r.action = .Handled) :
    Continues rs s r := by
  obtain ⟨io, hio⟩ := hs.mem_handled hold
  obtain ⟨r₀, hr₀, hact₀⟩ := hs.handler_iff.mp (by simp [hio])
  let h' : SignalHandler κ :=
    { action_ := r.action
      ioHandler_ :=
        some (io.setReadCallback (r.cb.map .callOnly)).1 }
  refine ⟨{ process := s.process, entry := some h' }, h', ?_, ?_, ?_⟩
  · rw [hs.handleSignal_eq]
    simp [SignalHandler.update, hold, hnew, hio, h']
  · refine ⟨rfl, by simp [h'], ?_, fun hne => absurd hnew hne⟩
    simp only [h', Option.isSome_some, true_iff]
    exact ⟨r₀, List.mem_append_left _ hr₀, hact₀⟩
  · constructor
    · intro hview
      have hconsumes := (SignalHandler.create_consumes hnew).2
      rw [← hview, SignalState.view_of_entry rfl] at hconsumes
      have hnot : .consumeSiginfo ∉ h'.onDelivery := by
        refine @SignalHandler.not_consumes _ h' r.cb ?_
        intro io' hio'
        cases hio'
        exact setReadCallback_readCallback io _
      exact absurd hconsumes hnot
    · intro hdecides
      exact absurd hact₀ (hdecides hnew r₀ hr₀)

/-- From Handled to another action: the signalfd is disabled. -/
theorem Follows.handled_other
    {rs : List (SignalRequest κ)} {s : SignalState κ}
    {h : SignalHandler κ} (hs : Follows rs s h)
    {r : SignalRequest κ}
    (hold : h.action_ = .Handled) (hnew : r.action ≠ .Handled) :
    Continues rs s r := by
  obtain ⟨io, hio⟩ := hs.mem_handled hold
  obtain ⟨r₀, hr₀, hact₀⟩ := hs.handler_iff.mp (by simp [hio])
  let h' : SignalHandler κ :=
    { action_ := r.action, ioHandler_ := some (io.disable false).1 }
  have hinert :
      ∀ io', h'.ioHandler_ = some io' →
        io'.isEnabled = false ∧ io'.readCallback_ = none := by
    intro io' hio'
    cases hio'
    exact disable_inert io
  refine ⟨{ process := handleSignal r.action, entry := some h' },
    h', ?_, ?_, ?_⟩
  · have hne : ¬ SignalAction.Handled = r.action :=
      fun heq => hnew heq.symm
    rw [hs.handleSignal_eq]
    simp [SignalHandler.update, hold, hnew, hio, hne, h']
  · refine ⟨rfl, by simp [h'], ?_, fun _ => ⟨rfl, hinert⟩⟩
    simp only [h', Option.isSome_some, true_iff]
    exact ⟨r₀, List.mem_append_left _ hr₀, hact₀⟩
  · exact iff_of_true (view_of_inert hnew hinert)
      (fun heq => absurd heq hnew)

/-- To Handled where a signalfd is left: it is used again, and the signal stays
unblocked. -/
theorem Follows.other_handled_again
    {rs : List (SignalRequest κ)} {s : SignalState κ}
    {h : SignalHandler κ} (hs : Follows rs s h)
    {r : SignalRequest κ} {io : IOHandler (SignalRead κ)}
    (hold : h.action_ ≠ .Handled) (hnew : r.action = .Handled)
    (hio : h.ioHandler_ = some io) :
    Continues rs s r := by
  obtain ⟨hprocess, _⟩ := hs.inert hold
  obtain ⟨r₀, hr₀, hact₀⟩ := hs.handler_iff.mp (by simp [hio])
  let h' : SignalHandler κ :=
    { action_ := r.action
      ioHandler_ :=
        some (io.setReadCallback (r.cb.map .callOnly)).1.enable.1 }
  refine ⟨{ process := s.process, entry := some h' }, h', ?_, ?_, ?_⟩
  · rw [hs.handleSignal_eq]
    simp [SignalHandler.update, hold, hnew, hio, h']
  · refine ⟨rfl, by simp [h'], ?_, fun hne => absurd hnew hne⟩
    simp only [h', Option.isSome_some, true_iff]
    exact ⟨r₀, List.mem_append_left _ hr₀, hact₀⟩
  · constructor
    · intro hview
      have hblocked := (SignalHandler.create_consumes hnew).1
      rw [← hview, SignalState.view_of_entry rfl] at hblocked
      simp only [hprocess] at hblocked
      cases hact : h.action_ with
      | Ignored => simp [handleSignal, hact] at hblocked
      | Default => simp [handleSignal, hact] at hblocked
      | Handled => exact absurd hact hold
    · intro hdecides
      exact absurd hact₀ (hdecides hnew r₀ hr₀)

/-- To Handled for the first time: as in the constructor. -/
theorem Follows.other_handled_first
    {rs : List (SignalRequest κ)} {s : SignalState κ}
    {h : SignalHandler κ} (hs : Follows rs s h)
    {r : SignalRequest κ}
    (hold : h.action_ ≠ .Handled) (hnew : r.action = .Handled)
    (hio : h.ioHandler_ = none) :
    Continues rs s r := by
  have hnever : ∀ r' ∈ rs, r'.action ≠ .Handled := by
    intro r' hr' hact'
    have hsome := hs.handler_iff.mpr ⟨r', hr', hact'⟩
    simp [hio] at hsome
  refine ⟨SignalHandler.create r,
    { action_ := r.action
      ioHandler_ := some (SignalHandler.createIOHandler r.sfd r.cb) },
    ?_, ?_, ?_⟩
  · rw [hs.handleSignal_eq]
    simp [SignalHandler.update, SignalHandler.create, hold, hnew, hio]
  · refine ⟨?_, by simp, ?_, fun hne => absurd hnew hne⟩
    · simp [SignalHandler.create, hnew]
    · simp only [Option.isSome_some, true_iff]
      exact ⟨r, by simp, hnew⟩
  · exact iff_of_true rfl (fun _ => hnever)

/-- Between the other two actions: only the process changes. -/
theorem Follows.other_other
    {rs : List (SignalRequest κ)} {s : SignalState κ}
    {h : SignalHandler κ} (hs : Follows rs s h)
    {r : SignalRequest κ}
    (hold : h.action_ ≠ .Handled) (hnew : r.action ≠ .Handled) :
    Continues rs s r := by
  obtain ⟨_, hinert⟩ := hs.inert hold
  let h' : SignalHandler κ := { h with action_ := r.action }
  have hinert' :
      ∀ io, h'.ioHandler_ = some io →
        io.isEnabled = false ∧ io.readCallback_ = none :=
    hinert
  refine ⟨{ process := handleSignal r.action, entry := some h' },
    h', ?_, ?_, ?_⟩
  · rw [hs.handleSignal_eq]
    simp [SignalHandler.update, hold, hnew, h']
  · refine ⟨rfl, by simp [h'], ?_, fun _ => ⟨rfl, hinert'⟩⟩
    simp only [h', hs.handler_iff, List.mem_append, List.mem_singleton]
    constructor
    · rintro ⟨r', hr', hact'⟩
      exact ⟨r', Or.inl hr', hact'⟩
    · rintro ⟨r', hr' | rfl, hact'⟩
      · exact ⟨r', hr', hact'⟩
      · exact absurd hact' hnew
  · exact iff_of_true (view_of_inert hnew hinert')
      (fun heq => absurd heq hnew)

theorem Follows.step
    {rs : List (SignalRequest κ)} {s : SignalState κ}
    {h : SignalHandler κ} (hs : Follows rs s h)
    (r : SignalRequest κ) :
    Continues rs s r := by
  by_cases hold : h.action_ = .Handled
  · by_cases hnew : r.action = .Handled
    · exact hs.handled_handled hold hnew
    · exact hs.handled_other hold hnew
  · by_cases hnew : r.action = .Handled
    · cases hio : h.ioHandler_ with
      | some io =>
          exact hs.other_handled_again hold hnew hio
      | none =>
          exact hs.other_handled_first hold hnew hio
    · exact hs.other_other hold hnew

theorem initial_step
    (p : SignalProcess) (r : SignalRequest κ) :
    Continues [] (SignalState.initial p) r := by
  obtain ⟨h, hfollows⟩ := follows_create r
  refine ⟨SignalHandler.create r, h, rfl, hfollows, ?_⟩
  exact iff_of_true rfl (fun _ r' hr' => by cases hr')

/-- Every history of requests ends in a state that follows it. -/
theorem run_follows
    (p : SignalProcess) (rs : List (SignalRequest κ)) :
    ∃ s, run SignalState.handleSignal (SignalState.initial p) rs =
        some s ∧
      ((rs = [] ∧ s = SignalState.initial p) ∨ ∃ h, Follows rs s h) := by
  have hstep :
      ∀ (before : List (SignalRequest κ)) (s : SignalState κ)
        (r : SignalRequest κ),
        ((before = [] ∧ s = SignalState.initial p) ∨
          ∃ h, Follows before s h) → True → True →
        ∃ s', s.handleSignal r = some s' ∧
          ((before ++ [r] = [] ∧ s' = SignalState.initial p) ∨
            ∃ h, Follows (before ++ [r]) s' h) := by
    rintro before s r (⟨rfl, rfl⟩ | ⟨h, hs⟩) _ _
    · obtain ⟨s', h', hs', hfollows, _⟩ := initial_step p r
      exact ⟨s', hs', Or.inr ⟨h', hfollows⟩⟩
    · obtain ⟨s', h', hs', hfollows, _⟩ := hs.step r
      exact ⟨s', hs', Or.inr ⟨h', hfollows⟩⟩
  exact run_of_along
    (fun before s =>
      (before = [] ∧ s = SignalState.initial p) ∨
        ∃ h, Follows before s h)
    hstep (Or.inl ⟨rfl, rfl⟩) (fun _ _ => trivial)
    (along_true SignalState.handleSignal (SignalState.initial p) rs)

/-- The state after any sequence of requests looks like that of a handler which
was made for the last one exactly when the last action is not Handled or no
earlier one was. -/
theorem history_independent_iff
    (p : SignalProcess) (rs : List (SignalRequest κ))
    (r : SignalRequest κ) :
    ∃ s, run SignalState.handleSignal (SignalState.initial p)
          (rs ++ [r]) = some s ∧
      (s.view = (SignalHandler.create r).view ↔ LastDecides rs r) := by
  obtain ⟨s, hs, hcase⟩ := run_follows p rs
  have hcontinues : Continues rs s r := by
    rcases hcase with ⟨rfl, rfl⟩ | ⟨h, hfollows⟩
    · exact initial_step p r
    · exact hfollows.step r
  obtain ⟨s', _, hs', _, hiff⟩ := hcontinues
  refine ⟨s', ?_, hiff⟩
  rw [run_append, hs, Option.bind_some, run_cons, hs']
  rfl

end SignalHandler

/-- Two callbacks in turn: the second one is called without consuming the
siginfo.  After a switch to Default and back the signal is not even blocked. -/
theorem handled_signal_depends_on_history :
    (∃ s : SignalState Nat,
      run SignalState.handleSignal
          (SignalState.initial ⟨false, .SIG_DFL⟩)
          [⟨.Handled, some 1, 3, by decide⟩,
            ⟨.Handled, some 2, 4, by decide⟩] = some s ∧
      s.view =
        { process := { blocked := true, disposition := .SIG_DFL }
          enabled := true
          onDelivery := [.call 2] }) ∧
    ∃ s : SignalState Nat,
      run SignalState.handleSignal
          (SignalState.initial ⟨false, .SIG_DFL⟩)
          [⟨.Handled, some 1, 3, by decide⟩,
            ⟨.Default, none, 4, by decide⟩,
            ⟨.Handled, some 2, 4, by decide⟩] = some s ∧
      s.view ≠
        (SignalHandler.create
          ⟨.Handled, some 2, 4, by decide⟩).view ∧
      s.view.process.blocked = false := by
  refine ⟨Option.map_eq_some_iff.mp (by decide +kernel), ?_⟩
  obtain ⟨s, hrun, hview⟩ :=
    Option.map_eq_some_iff.mp
      (show (run SignalState.handleSignal
          (SignalState.initial ⟨false, .SIG_DFL⟩)
          [⟨.Handled, some 1, 3, by decide⟩,
            ⟨.Default, none, 4, by decide⟩,
            ⟨.Handled, some 2, 4, by decide⟩]).map SignalState.view =
          some
            { process := { blocked := false, disposition := .SIG_DFL }
              enabled := true
              onDelivery := [.call 2] }
        by decide +kernel)
  refine ⟨s, hrun, ?_, ?_⟩
  · rw [hview]
    decide +kernel
  · rw [hview]

end Hohnor
