import Hohnor.DispatchLifetime
import Hohnor.EnabledCallbacks

/-!
# Callbacks of a disabled handler

The dispatch loop of `EventLoop::loop` with `IOHandler::run`, one test at a
time, over any number of handlers that stay alive.  User callbacks call the
operations of any handler while a run() is going on.

run() asks for the status only once, before its four tests, and each test asks
only whether its callback is set.  disable() clears the callbacks, which stops
the tests that follow, unless one is installed again before its test.
-/

namespace Hohnor

open TransitionRuns
open Histories

namespace HandlerKind

/-- The test of `run` for a callback of this kind. -/
def triggered (revents : EventMask) : HandlerKind → Bool
  | .close => revents.EPOLLHUP && !revents.EPOLLIN
  | .error => revents.EPOLLERR
  | .read => revents.EPOLLIN || revents.EPOLLPRI || revents.EPOLLRDHUP
  | .write => revents.EPOLLOUT

/-- The tests of `run` in their order. -/
def runOrder : List HandlerKind :=
  [.close, .error, .read, .write]

theorem runPhases_eq_runOrder
    {κ : Type} :
    (HandlerWorld.runPhases : List (RunPhase κ)) =
      runOrder.map fun k =>
        ⟨fun revents => k.triggered revents, fun h => h.callbackOf k⟩ := by
  rfl

end HandlerKind

/-- The loop while it dispatches.  `running` is the handler whose run() is
going on, with the tests that are left; `calls` are the operations of that
handler that user code has called since. -/
structure DispatchLoop (ι κ : Type) where
  handlers : ι → IOHandler κ
  batch : List (ι × EventMask)
  running : Option (ι × List HandlerKind)
  inCallback : Bool
  calls : List (HandlerCall κ)

inductive DispatchStep (ι κ : Type) where
  | poll (batch : List (ι × EventMask))
  | next
  | test
  | operate (h : ι) (c : HandlerCall κ)
  | callbackReturns

namespace DispatchLoop

variable {ι κ : Type} [DecidableEq ι]

/-- A loop with no run() going on. -/
def initial (handlers : ι → IOHandler κ) : DispatchLoop ι κ where
  handlers := handlers
  batch := []
  running := none
  inCallback := false
  calls := []

/-- The callback that the next test of the running handler starts. -/
def starts (s : DispatchLoop ι κ) : Option (ι × HandlerKind × κ) :=
  match s.running with
  | some (h, k :: _) =>
      if k.triggered (s.handlers h).revents_ then
        ((s.handlers h).callbackOf k).map fun cb => (h, k, cb)
      else
        none
  | _ => none

/-- retEvents and the entry of run for the first event of the batch. -/
def enterRun (s : DispatchLoop ι κ) (h : ι) (revents : EventMask)
    (rest : List (ι × EventMask)) : DispatchLoop ι κ :=
  { s with
    handlers :=
      Function.update s.handlers h ((s.handlers h).retEvents revents)
    batch := rest
    running :=
      if (s.handlers h).isEnabled then some (h, HandlerKind.runOrder)
      else none
    calls := [] }

/-- User code calls an operation. -/
def operate (s : DispatchLoop ι κ) (h : ι) (c : HandlerCall κ) :
    DispatchLoop ι κ :=
  { s with
    handlers :=
      Function.update s.handlers h
        ((s.handlers h).perform c.quit c.op).1
    calls :=
      if s.running.map Prod.fst = some h then s.calls ++ [c]
      else s.calls }

def step (s : DispatchLoop ι κ) :
    DispatchStep ι κ → Option (DispatchLoop ι κ)
  | .poll batch =>
      if s.running.isNone && s.batch.isEmpty then
        some { s with batch := batch }
      else
        none
  | .next =>
      match s.running, s.batch with
      | none, (h, revents) :: rest => some (s.enterRun h revents rest)
      | _, _ => none
  | .test =>
      if s.inCallback then
        none
      else
        match s.running with
        | none => none
        | some (_, []) => some { s with running := none }
        | some (h, _ :: ks) =>
            some
              { s with
                running := some (h, ks)
                inCallback := s.starts.isSome }
  | .operate h c =>
      if s.inCallback || s.running.isNone then
        some (s.operate h c)
      else
        none
  | .callbackReturns =>
      if s.inCallback then some { s with inCallback := false } else none

/-- A callback that is started belongs to an enabled handler. -/
def StartsEnabled
    (s : DispatchLoop ι κ) (l : DispatchStep ι κ)
    (_ : DispatchLoop ι κ) : Prop :=
  l = .test → ∀ h k cb, s.starts = some (h, k, cb) →
    (s.handlers h).isEnabled = true

/-- disable() has been called, and enable() not since. -/
def LeftDisabled : List (HandlerCall κ) → Prop :=
  Since (fun _ c => c.op = .disable) (fun c => c.op ≠ .enable)

/-- After a disable() a callback of this kind has been installed, and since
then neither has its setter been called nor the status changed. -/
def Reinstalled (k : HandlerKind) : List (HandlerCall κ) → Prop :=
  Since
    (fun before c =>
      (∃ cb, c.op.sets k = some (some cb)) ∧ LeftDisabled before)
    (fun c =>
      c.op ≠ .enable ∧ c.op ≠ .disable ∧ c.op.sets k = none)

/-- What the calls since an enabled handler was entered have left of it. -/
structure LeavesHandler
    (calls : List (HandlerCall κ)) (h : IOHandler κ) : Prop where
  disabled :
    h.isEnabled = false ↔ LeftDisabled calls
  reinstalled :
    ∀ k, h.isEnabled = false ∧ (h.callbackOf k).isSome = true ↔
      Reinstalled k calls

theorem leavesHandler_of_enabled
    {h : IOHandler κ} (hon : h.isEnabled = true) :
    LeavesHandler [] h where
  disabled :=
    iff_of_false (by simp [hon]) (not_since_nil _ _)
  reinstalled := fun _ =>
    iff_of_false (by simp [hon]) (not_since_nil _ _)

theorem LeavesHandler.call
    {calls : List (HandlerCall κ)} {h : IOHandler κ}
    (hh : LeavesHandler calls h) (c : HandlerCall κ) :
    LeavesHandler (calls ++ [c]) (h.perform c.quit c.op).1 where
  disabled := by
    rw [IOHandler.perform_isEnabled, LeftDisabled, since_concat,
      ← LeftDisabled, ← hh.disabled]
    cases c.op <;> simp
  reinstalled := by
    intro k
    rw [IOHandler.perform_isEnabled, IOHandler.perform_callbackOf,
      Reinstalled, since_concat, ← Reinstalled, ← hh.reinstalled k,
      ← hh.disabled]
    cases hop : c.op with
    | enable =>
        simp [HandlerOp.sets]
    | disable =>
        simp [HandlerOp.sets]
    | _ =>
        simp only [reduceCtorEq, ne_eq, not_false_eq_true, true_and]
        cases hset : HandlerOp.sets _ k with
        | none =>
            simp
        | some cb =>
            cases cb <;> simp

/-- The running handler is what its calls have left. -/
def RunFollowed (s : DispatchLoop ι κ) : Prop :=
  ∀ h ks, s.running = some (h, ks) →
    LeavesHandler s.calls (s.handlers h)

theorem enterRun_followed
    (s : DispatchLoop ι κ) (h : ι) (revents : EventMask)
    (rest : List (ι × EventMask)) :
    (s.enterRun h revents rest).RunFollowed := by
  intro g ks hrunning
  simp only [enterRun] at hrunning
  split at hrunning
  · rename_i hon
    cases hrunning
    refine leavesHandler_of_enabled ?_
    simpa [enterRun, IOHandler.retEvents, IOHandler.isEnabled] using hon
  · cases hrunning

theorem RunFollowed.operate
    {s : DispatchLoop ι κ} (hs : s.RunFollowed) (h : ι)
    (c : HandlerCall κ) :
    (s.operate h c).RunFollowed := by
  intro g ks hrunning
  have hrun : s.running = some (g, ks) := hrunning
  by_cases hgh : g = h
  · subst hgh
    simpa [DispatchLoop.operate, hrun] using (hs g ks hrun).call c
  · have hother : ¬ s.running.map Prod.fst = some h := by
      simpa [hrun] using hgh
    simp only [DispatchLoop.operate, if_neg hother,
      Function.update_of_ne hgh]
    exact hs g ks hrun

theorem step_followed
    {s s' : DispatchLoop ι κ} {l : DispatchStep ι κ}
    (hs : s.RunFollowed) (hstep : s.step l = some s') :
    s'.RunFollowed := by
  cases l with
  | poll batch =>
      simp only [step, Option.ite_none_right_eq_some,
        Option.some.injEq] at hstep
      obtain ⟨_, rfl⟩ := hstep
      exact hs
  | next =>
      simp only [step] at hstep
      split at hstep
      · cases hstep
        exact enterRun_followed s _ _ _
      · cases hstep
  | test =>
      simp only [step, Option.ite_none_left_eq_some] at hstep
      obtain ⟨_, hstep⟩ := hstep
      split at hstep
      · cases hstep
      · cases hstep
        intro h ks hrunning
        cases hrunning
      · rename_i h k ks hrunning
        cases hstep
        intro g ks' hrunning'
        cases hrunning'
        exact hs _ _ hrunning
  | operate h c =>
      simp only [step, Option.ite_none_right_eq_some,
        Option.some.injEq] at hstep
      obtain ⟨_, rfl⟩ := hstep
      exact hs.operate h c
  | callbackReturns =>
      simp only [step, Option.ite_none_right_eq_some,
        Option.some.injEq] at hstep
      obtain ⟨_, rfl⟩ := hstep
      exact hs

/-- At a test that triggers, its callback has not been installed by user code
after a disable() that still stands. -/
def NoneReinstalled
    (s : DispatchLoop ι κ) (l : DispatchStep ι κ)
    (_ : DispatchLoop ι κ) : Prop :=
  l = .test → ∀ h k ks, s.running = some (h, k :: ks) →
    k.triggered (s.handlers h).revents_ = true →
    ¬ Reinstalled k s.calls

omit [DecidableEq ι] in
/-- One test starts a callback of a disabled handler exactly when that callback
has been installed again. -/
theorem RunFollowed.startsEnabled_iff
    {s s' : DispatchLoop ι κ} {l : DispatchStep ι κ}
    (hs : s.RunFollowed) :
    StartsEnabled s l s' ↔ NoneReinstalled s l s' := by
  constructor
  · intro hstarts hl h k ks hrunning htriggered hre
    obtain ⟨hoff, hset⟩ :=
      ((hs h (k :: ks) hrunning).reinstalled k).mpr hre
    obtain ⟨cb, hcb⟩ := Option.isSome_iff_exists.mp hset
    have hon := hstarts hl h k cb (by
      simp [starts, hrunning, htriggered, hcb])
    rw [hoff] at hon
    cases hon
  · intro hnone hl h k cb hstart
    unfold starts at hstart
    split at hstart
    · rename_i g k' ks hrunning
      simp only [Option.ite_none_right_eq_some,
        Option.map_eq_some_iff] at hstart
      obtain ⟨htriggered, cb', hcb, heq⟩ := hstart
      cases heq
      by_contra hoff
      exact hnone hl h k ks hrunning htriggered
        (((hs h (k :: ks) hrunning).reinstalled k).mp
          ⟨by simpa using hoff, by rw [hcb]; rfl⟩)
    · cases hstart

/-- In every run of the loop only callbacks of enabled handlers are started
exactly when no test finds a callback that user code has installed on its
handler after disabling it. -/
theorem starts_enabled_iff
    (handlers : ι → IOHandler κ) (ls : List (DispatchStep ι κ)) :
    EveryStep step StartsEnabled (initial handlers) ls ↔
      EveryStep step NoneReinstalled (initial handlers) ls := by
  refine everyStep_iff RunFollowed (P := fun _ => True) ?_ ?_
    (fun _ _ => trivial)
  · intro s l s' hs _ hstep
    exact ⟨hs.startsEnabled_iff, fun _ => step_followed hs hstep⟩
  · intro h ks hrunning
    cases hrunning

/-- An enabled handler with a close and an error callback. -/
def closingHandler : IOHandler Nat :=
  ((((IOHandler.create 5).setCloseCallback (some 1)).1.setErrorCallback
    (some 2)).1.enable).1

/-- EPOLLHUP and EPOLLERR; the close callback disables the handler and sets an
error callback. -/
def reinstallingSteps : List (DispatchStep Nat Nat) :=
  [.poll [(0, ⟨false, false, false, false, true, true⟩)], .next, .test,
    .operate 0 ⟨false, .disable⟩,
    .operate 0 ⟨false, .setErrorCallback (some 3)⟩,
    .callbackReturns]

/-- The next test starts the error callback of the disabled handler. -/
theorem disabled_handler_runs :
    ∃ s s', run step (initial fun _ => closingHandler)
        reinstallingSteps = some s ∧
      s.starts = some (0, .error, 3) ∧
      (s.handlers 0).status_ = .Disabled ∧
      s.step .test = some s' ∧
      ¬ EveryStep step StartsEnabled (initial fun _ => closingHandler)
        (reinstallingSteps ++ [.test]) := by
  refine ⟨_, _, rfl, rfl, rfl, rfl, ?_⟩
  intro hsteps
  have hlast := everyStep_at hsteps rfl rfl
  exact absurd (hlast rfl 0 .error 3 rfl) (by decide)

end DispatchLoop

end Hohnor
