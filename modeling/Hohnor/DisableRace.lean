import Hohnor.DisabledHandler

/-!
# disable() from another thread

`IOHandler::run` in the loop thread beside other threads that call the
operations of the handler.  The loop's tests and calls are single steps.
disable() in another thread is two: it clears the four callbacks at once, and
then queues the change of the status for the loop, or makes it itself when
the loop has quit.  All other operations of another thread are queued whole.

A branch of run() that has found its callback calls what is there a step later.
An empty std::function throws, which is a step without a result.
-/

namespace Hohnor

open TransitionRuns
open Histories

/-- Where the loop thread is with the handler. -/
inductive RunPlace where
  | idle
  | tests (ks : List HandlerKind)
  | calling (k : HandlerKind) (ks : List HandlerKind)
  | inCallback (ks : List HandlerKind)
deriving DecidableEq, Repr

/-- What another thread has queued for the handler. -/
inductive HandlerFunctor (κ : Type) where
  | update (nextStatus : Status)
  | operation (op : HandlerOp κ)

/-- A handler, the loop thread's place, the functors queued for the handler and
the threads that stand in the middle of disable(). -/
structure SharedHandler (θ κ : Type) where
  handler : IOHandler κ
  place : RunPlace
  functors : List (HandlerFunctor κ)
  disabling : θ → Bool

inductive SharedHandlerStep (θ κ : Type) where
  | event (revents : EventMask)
  | test
  | call
  | operate (c : HandlerCall κ)
  | callbackReturns
  | runFunctor (quit : Bool)
  | request (t : θ) (op : HandlerOp κ)
  | clearCallbacks (t : θ)
  | finishDisable (t : θ) (quit : Bool)

/-- An operation that another thread queues whole: all but disable(). -/
def HandlerOp.functor {κ : Type} :
    HandlerOp κ → Option (HandlerFunctor κ)
  | .enable => some (.update .Enabled)
  | .disable => none
  | op => some (.operation op)

namespace SharedHandler

variable {θ κ : Type}

/-- A handler that no one is using. -/
def initial (h : IOHandler κ) : SharedHandler θ κ where
  handler := h
  place := .idle
  functors := []
  disabling := fun _ => false

/-- retEvents and the entry of run. -/
def enterRun (s : SharedHandler θ κ) (revents : EventMask) :
    SharedHandler θ κ :=
  { s with
    handler := s.handler.retEvents revents
    place :=
      if s.handler.isEnabled then .tests HandlerKind.runOrder
      else .idle }

/-- The place after the test of `k`. -/
def placeAfterTest (s : SharedHandler θ κ) (k : HandlerKind)
    (ks : List HandlerKind) : RunPlace :=
  if k.triggered s.handler.revents_ && (s.handler.callbackOf k).isSome then
    .calling k ks
  else
    .tests ks

def runFunctor (s : SharedHandler θ κ) (quit : Bool) :
    HandlerFunctor κ → IOHandler κ
  | .update nextStatus => (s.handler.update nextStatus).1
  | .operation op => (s.handler.perform quit op).1

def step [DecidableEq θ] (s : SharedHandler θ κ) :
    SharedHandlerStep θ κ → Option (SharedHandler θ κ)
  | .event revents =>
      if s.place = .idle then some (s.enterRun revents) else none
  | .test =>
      match s.place with
      | .tests [] => some { s with place := .idle }
      | .tests (k :: ks) => some { s with place := s.placeAfterTest k ks }
      | _ => none
  | .call =>
      match s.place with
      | .calling k ks =>
          (s.handler.callbackOf k).map fun _ =>
            { s with place := .inCallback ks }
      | _ => none
  | .operate c =>
      match s.place with
      | .idle | .inCallback _ =>
          some { s with handler := (s.handler.perform c.quit c.op).1 }
      | _ => none
  | .callbackReturns =>
      match s.place with
      | .inCallback ks => some { s with place := .tests ks }
      | _ => none
  | .runFunctor quit =>
      match s.place, s.functors with
      | .idle, f :: fs =>
          some { s with handler := s.runFunctor quit f, functors := fs }
      | _, _ => none
  | .request t op =>
      if s.disabling t then
        none
      else
        op.functor.map fun f => { s with functors := s.functors ++ [f] }
  | .clearCallbacks t =>
      if s.disabling t then
        none
      else
        some
          { s with
            handler := s.handler.cleanCallbacks
            disabling := Function.update s.disabling t true }
  | .finishDisable t quit =>
      if s.disabling t then
        some
          { s with
            handler :=
              if quit then { s.handler with status_ := .Disabled }
              else s.handler
            functors :=
              if quit then s.functors
              else s.functors ++ [.update .Disabled]
            disabling := Function.update s.disabling t false }
      else
        none

/-- A branch of run() that is about to call its callback has one. -/
def CallsSet (s : SharedHandler θ κ) (l : SharedHandlerStep θ κ) : Prop :=
  l = .call → ∀ k ks, s.place = .calling k ks →
    (s.handler.callbackOf k).isSome = true

/-- Since the last test of the loop thread another thread has cleared the
callbacks. -/
def ClearedSinceTest : List (SharedHandlerStep θ κ) → Prop :=
  Since (fun _ l => ∃ t, l = .clearCallbacks t) (fun l => l ≠ .test)

theorem clearedSinceTest_concat
    (before : List (SharedHandlerStep θ κ))
    (l : SharedHandlerStep θ κ) :
    ClearedSinceTest (before ++ [l]) ↔
      (∃ t, l = .clearCallbacks t) ∨
        (l ≠ .test ∧ ClearedSinceTest before) :=
  since_concat _ _ before l

/-- A branch between its test and its call still has its callback exactly when
no other thread has cleared it. -/
def CallFollowed
    (before : List (SharedHandlerStep θ κ)) (s : SharedHandler θ κ) :
    Prop :=
  ∀ k ks, s.place = .calling k ks →
    ((s.handler.callbackOf k).isSome = true ↔ ¬ ClearedSinceTest before)

theorem callFollowed_of_place
    {before : List (SharedHandlerStep θ κ)} {s : SharedHandler θ κ}
    (hplace : ∀ k ks, s.place ≠ .calling k ks) :
    CallFollowed before s := by
  intro k ks hcalling
  exact absurd hcalling (hplace k ks)

/-- A step that is no test and leaves the callbacks. -/
theorem CallFollowed.keep
    {before : List (SharedHandlerStep θ κ)}
    {s s' : SharedHandler θ κ} (hs : CallFollowed before s)
    {l : SharedHandlerStep θ κ}
    (htest : l ≠ .test) (hclear : ∀ t, l ≠ .clearCallbacks t)
    (hplace : s'.place = s.place)
    (hcallback :
      ∀ k, s'.handler.callbackOf k = s.handler.callbackOf k) :
    CallFollowed (before ++ [l]) s' := by
  intro k ks hcalling
  rw [hcallback, hs k ks (hplace.symm.trans hcalling),
    clearedSinceTest_concat]
  simp [htest, hclear]

theorem callbackOf_status
    (h : IOHandler κ) (st : Status) (k : HandlerKind) :
    { h with status_ := st }.callbackOf k = h.callbackOf k := by
  cases k <;> rfl

theorem callbackOf_cleanCallbacks
    (h : IOHandler κ) (k : HandlerKind) :
    h.cleanCallbacks.callbackOf k = none := by
  cases k <;> rfl

/-- The test has found its callback, or goes on. -/
theorem placeAfterTest_calling
    {s : SharedHandler θ κ} {k k' : HandlerKind}
    {ks ks' : List HandlerKind}
    (hplace : s.placeAfterTest k ks = .calling k' ks') :
    (s.handler.callbackOf k').isSome = true := by
  simp only [placeAfterTest] at hplace
  split at hplace
  · rename_i hfound
    cases hplace
    simp only [Bool.and_eq_true] at hfound
    exact hfound.2
  · cases hplace

theorem step_callFollowed
    [DecidableEq θ]
    {before : List (SharedHandlerStep θ κ)}
    {s s' : SharedHandler θ κ} {l : SharedHandlerStep θ κ}
    (hs : CallFollowed before s) (hstep : s.step l = some s') :
    CallFollowed (before ++ [l]) s' := by
  cases l with
  | event revents =>
      simp only [step, Option.ite_none_right_eq_some,
        Option.some.injEq] at hstep
      obtain ⟨_, rfl⟩ := hstep
      refine callFollowed_of_place ?_
      intro k ks
      simp only [enterRun]
      split <;> simp
  | test =>
      simp only [step] at hstep
      split at hstep
      · cases hstep
        exact callFollowed_of_place (by simp)
      · cases hstep
        intro k ks hcalling
        rw [clearedSinceTest_concat]
        exact iff_of_true (placeAfterTest_calling hcalling) (by simp)
      · cases hstep
  | call =>
      simp only [step] at hstep
      split at hstep
      · obtain ⟨_, _, rfl⟩ := Option.map_eq_some_iff.mp hstep
        exact callFollowed_of_place (by simp)
      · cases hstep
  | operate c =>
      simp only [step] at hstep
      split at hstep
      · rename_i hplace
        cases hstep
        exact callFollowed_of_place (by simp [hplace])
      · rename_i hplace
        cases hstep
        exact callFollowed_of_place (by simp [hplace])
      · cases hstep
  | callbackReturns =>
      simp only [step] at hstep
      split at hstep
      · cases hstep
        exact callFollowed_of_place (by simp)
      · cases hstep
  | runFunctor quit =>
      simp only [step] at hstep
      split at hstep
      · rename_i hplace _
        cases hstep
        exact callFollowed_of_place (by simp [hplace])
      · cases hstep
  | request t op =>
      simp only [step, Option.ite_none_left_eq_some,
        Option.map_eq_some_iff] at hstep
      obtain ⟨_, _, _, rfl⟩ := hstep
      exact hs.keep (by simp) (by simp) rfl (fun _ => rfl)
  | clearCallbacks t =>
      simp only [step, Option.ite_none_left_eq_some,
        Option.some.injEq] at hstep
      obtain ⟨_, rfl⟩ := hstep
      intro k ks _
      rw [clearedSinceTest_concat, callbackOf_cleanCallbacks]
      simp
  | finishDisable t quit =>
      simp only [step, Option.ite_none_right_eq_some,
        Option.some.injEq] at hstep
      obtain ⟨_, rfl⟩ := hstep
      refine hs.keep (by simp) (by simp) rfl ?_
      intro k
      cases quit with
      | true =>
          exact callbackOf_status s.handler .Disabled k
      | false =>
          rfl

/-- For every schedule of the loop thread and the other threads run() calls no
empty callback exactly when no other thread's disable() clears the callbacks
between a test of run() and the call that follows it. -/
theorem calls_set_iff
    [DecidableEq θ]
    (h : IOHandler κ) (ls : List (SharedHandlerStep θ κ)) :
    Along step CallsSet (initial h) ls ↔
      ∀ before after s k ks, ls = before ++ .call :: after →
        run step (initial h) before = some s →
        s.place = .calling k ks →
        ¬ ClearedSinceTest before := by
  have hfollowed :
      ∀ {before : List (SharedHandlerStep θ κ)} {s},
        run step (initial h) before = some s →
        CallFollowed before s := by
    intro before s hrun
    have hstart : CallFollowed [] (initial h : SharedHandler θ κ) :=
      callFollowed_of_place (by simp [initial])
    exact history_of_run CallFollowed
      (fun _ _ _ _ hs hstep => step_callFollowed hs hstep) hstart hrun
  rw [along_iff_reached]
  constructor
  · intro hcalls before after s k ks hsplit hrun hplace
    have hset := hcalls before .call after s hsplit hrun rfl k ks hplace
    exact (hfollowed hrun k ks hplace).mp hset
  · rintro hclear before l after s hsplit hrun rfl k ks hplace
    exact (hfollowed hrun k ks hplace).mpr
      (hclear before after s k ks hsplit hrun hplace)

/-- An enabled handler with a read callback. -/
def readingHandler : SharedHandler Nat Nat :=
  initial ((IOHandler.create 5).setReadCallback (some 1)).1.enable.1

/-- EPOLLIN; between the test of the read branch and its call another thread
calls disable(). -/
def racingSteps : List (SharedHandlerStep Nat Nat) :=
  [.event ⟨true, false, false, false, false, false⟩, .test, .test, .test,
    .clearCallbacks 7]

/-- The read branch has found its callback and is about to call an empty
one. -/
theorem empty_callback_called :
    ∃ s, run step readingHandler racingSteps = some s ∧
      s.place = .calling .read [.write] ∧
      s.handler.readCallback_ = none ∧
      s.step .call = none ∧
      ¬ Along step CallsSet readingHandler
        (racingSteps ++ [.call]) := by
  obtain ⟨s, hrun, hplace, hcb, hcall⟩ :
      ∃ s, run step readingHandler racingSteps = some s ∧
        s.place = .calling .read [.write] ∧
        s.handler.readCallback_ = none ∧ s.step .call = none :=
    ⟨_, rfl, rfl, rfl, rfl⟩
  refine ⟨s, hrun, hplace, hcb, hcall, ?_⟩
  intro hcalls
  have hset := along_at hcalls hrun rfl .read [.write] hplace
  simp [IOHandler.callbackOf, hcb] at hset

end SharedHandler

end Hohnor
