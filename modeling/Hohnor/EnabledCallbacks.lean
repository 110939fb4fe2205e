import Hohnor.HandlerTable
import Hohnor.Histories

/-!
# Callbacks of an enabled handler

A callback setter of an IOHandler changes a callback and its bit in the event
mask together.  disable() clears the callbacks and leaves the mask as it is, so
an enable() after it may listen to events that no callback handles.

`enabled_has_callbacks_iff` says for which sequences of calls this happens.
-/

namespace Hohnor

open TransitionRuns
open Histories

/-- The four callbacks of a handler, in the order in which `run` calls
them. -/
inductive HandlerKind where
  | close
  | error
  | read
  | write
deriving DecidableEq, Repr

/-- The bit that the setter of such a callback changes. -/
def EventMask.listensTo (events : EventMask) : HandlerKind → Bool
  | .close => events.EPOLLRDHUP
  | .error => events.EPOLLERR
  | .read => events.EPOLLIN
  | .write => events.EPOLLOUT

namespace HandlerOp

variable {κ : Type}

/-- The callback that the operation installs, if it is a setter of this
kind. -/
def sets : HandlerOp κ → HandlerKind → Option (Option κ)
  | .setCloseCallback cb, .close => some cb
  | .setErrorCallback cb, .error => some cb
  | .setReadCallback cb, .read => some cb
  | .setWriteCallback cb, .write => some cb
  | _, _ => none

/-- A direct call of a `set*Event` function. -/
def setsEvent : HandlerOp κ → Bool
  | .setReadEvent _ => true
  | .setWriteEvent _ => true
  | .setCloseEvent _ => true
  | .setErrorEvent _ => true
  | _ => false

end HandlerOp

/-- A call of an operation, and the loop's quit_ at that moment. -/
structure HandlerCall (κ : Type) where
  quit : Bool
  op : HandlerOp κ

namespace IOHandler

variable {κ : Type}

def callbackOf (h : IOHandler κ) : HandlerKind → Option κ
  | .close => h.closeCallback_
  | .error => h.errorCallback_
  | .read => h.readCallback_
  | .write => h.writeCallback_

/-- The handler after one call in the loop thread. -/
def call (h : IOHandler κ) (c : HandlerCall κ) : Option (IOHandler κ) :=
  some (h.perform c.quit c.op).1

/-- While the handler is enabled it has a callback for what it reads and
writes. -/
def HasCallbacks (h : IOHandler κ) : Prop :=
  h.isEnabled = true →
    (h.events_.EPOLLIN = true → h.readCallback_.isSome = true) ∧
    (h.events_.EPOLLOUT = true → h.writeCallback_.isSome = true)

theorem perform_isEnabled
    (h : IOHandler κ) (quit : Bool) (op : HandlerOp κ) :
    (h.perform quit op).1.isEnabled =
      match op with
      | .enable => true
      | .disable => false
      | _ => h.isEnabled := by
  cases op with
  | enable =>
      simp [perform, enable_fst, isEnabled]
  | disable =>
      simp [perform, disable_fst, isEnabled]
  | setReadCallback cb =>
      simp [perform, setReadCallback, setReadEvent, setEvents_fst,
        isEnabled]
  | setWriteCallback cb =>
      simp [perform, setWriteCallback, setWriteEvent, setEvents_fst,
        isEnabled]
  | setCloseCallback cb =>
      simp [perform, setCloseCallback, setCloseEvent, setEvents_fst,
        isEnabled]
  | setErrorCallback cb =>
      simp [perform, setErrorCallback, setErrorEvent, setEvents_fst,
        isEnabled]
  | setReadEvent on =>
      simp [perform, setReadEvent, setEvents_fst, isEnabled]
  | setWriteEvent on =>
      simp [perform, setWriteEvent, setEvents_fst, isEnabled]
  | setCloseEvent on =>
      simp [perform, setCloseEvent, setEvents_fst, isEnabled]
  | setErrorEvent on =>
      simp [perform, setErrorEvent, setEvents_fst, isEnabled]

/-- A callback is what its setter last installed, until disable(). -/
theorem perform_callbackOf
    (h : IOHandler κ) (quit : Bool) (op : HandlerOp κ)
    (k : HandlerKind) :
    (h.perform quit op).1.callbackOf k =
      match op with
      | .disable => none
      | _ => (op.sets k).getD (h.callbackOf k) := by
  cases op with
  | enable =>
      cases k <;> simp [perform, enable_fst, callbackOf, HandlerOp.sets]
  | disable =>
      cases k <;>
        simp [perform, disable_fst, callbackOf, cleanCallbacks]
  | setReadCallback cb =>
      cases k <;>
        simp [perform, setReadCallback, setReadEvent, setEvents_fst,
          callbackOf, HandlerOp.sets]
  | setWriteCallback cb =>
      cases k <;>
        simp [perform, setWriteCallback, setWriteEvent, setEvents_fst,
          callbackOf, HandlerOp.sets]
  | setCloseCallback cb =>
      cases k <;>
        simp [perform, setCloseCallback, setCloseEvent, setEvents_fst,
          callbackOf, HandlerOp.sets]
  | setErrorCallback cb =>
      cases k <;>
        simp [perform, setErrorCallback, setErrorEvent, setEvents_fst,
          callbackOf, HandlerOp.sets]
  | setReadEvent on =>
      cases k <;>
        simp [perform, setReadEvent, setEvents_fst, callbackOf,
          HandlerOp.sets]
  | setWriteEvent on =>
      cases k <;>
        simp [perform, setWriteEvent, setEvents_fst, callbackOf,
          HandlerOp.sets]
  | setCloseEvent on =>
      cases k <;>
        simp [perform, setCloseEvent, setEvents_fst, callbackOf,
          HandlerOp.sets]
  | setErrorEvent on =>
      cases k <;>
        simp [perform, setErrorEvent, setEvents_fst, callbackOf,
          HandlerOp.sets]

/-- A bit of the mask is what the setter of its callback last made it. -/
theorem perform_listensTo
    (h : IOHandler κ) (quit : Bool) {op : HandlerOp κ}
    (hop : op.setsEvent = false) (k : HandlerKind) :
    (h.perform quit op).1.events_.listensTo k =
      ((op.sets k).map Option.isSome).getD (h.events_.listensTo k) := by
  cases op with
  | enable =>
      simp [perform, enable_fst, HandlerOp.sets]
  | disable =>
      simp [perform, disable_fst, cleanCallbacks, HandlerOp.sets]
  | setReadCallback cb =>
      cases k <;>
        simp [perform, setReadCallback, setReadEvent, setEvents_fst,
          EventMask.listensTo, HandlerOp.sets]
  | setWriteCallback cb =>
      cases k <;>
        simp [perform, setWriteCallback, setWriteEvent, setEvents_fst,
          EventMask.listensTo, HandlerOp.sets]
  | setCloseCallback cb =>
      cases k <;>
        simp [perform, setCloseCallback, setCloseEvent, setEvents_fst,
          EventMask.listensTo, HandlerOp.sets]
  | setErrorCallback cb =>
      cases k <;>
        simp [perform, setErrorCallback, setErrorEvent, setEvents_fst,
          EventMask.listensTo, HandlerOp.sets]
  | setReadEvent on =>
      simp [HandlerOp.setsEvent] at hop
  | setWriteEvent on =>
      simp [HandlerOp.setsEvent] at hop
  | setCloseEvent on =>
      simp [HandlerOp.setsEvent] at hop
  | setErrorEvent on =>
      simp [HandlerOp.setsEvent] at hop

/-- A callback of this kind has been set, and since then its setter has not
been called. -/
def Installed (k : HandlerKind) : List (HandlerCall κ) → Prop :=
  Since (fun _ c => ∃ cb, c.op.sets k = some (some cb))
    (fun c => c.op.sets k = none)

/-- After a callback of this kind was set disable() has been called, and the
setter has not been called again. -/
def Dropped (k : HandlerKind) : List (HandlerCall κ) → Prop :=
  Since (fun before c => c.op = .disable ∧ Installed k before)
    (fun c => c.op.sets k = none)

/-- The mask and the callbacks, as the calls determine them. -/
structure FollowsCalls
    (calls : List (HandlerCall κ)) (h : IOHandler κ) : Prop where
  installed :
    ∀ k, h.events_.listensTo k = true ↔ Installed k calls
  dropped :
    ∀ k, h.events_.listensTo k = true ∧ h.callbackOf k = none ↔
      Dropped k calls

theorem create_followsCalls
    (fd : Nat) :
    FollowsCalls [] (create fd : IOHandler κ) where
  installed := by
    intro k
    have hmask :
        (create fd : IOHandler κ).events_.listensTo k = false := by
      cases k <;> rfl
    rw [hmask]
    exact iff_of_false (by simp) (not_since_nil _ _)
  dropped := by
    intro k
    have hmask :
        (create fd : IOHandler κ).events_.listensTo k = false := by
      cases k <;> rfl
    rw [hmask]
    exact iff_of_false (by simp) (not_since_nil _ _)

theorem FollowsCalls.call
    {calls : List (HandlerCall κ)} {h : IOHandler κ}
    (hh : FollowsCalls calls h) {c : HandlerCall κ}
    (hc : c.op.setsEvent = false) :
    FollowsCalls (calls ++ [c]) (h.perform c.quit c.op).1 where
  installed := by
    intro k
    rw [perform_listensTo h c.quit hc, Installed, since_concat,
      ← Installed, ← hh.installed k]
    cases hset : c.op.sets k with
    | none =>
        simp
    | some cb =>
        cases cb <;> simp
  dropped := by
    intro k
    rw [perform_listensTo h c.quit hc, perform_callbackOf, Dropped,
      since_concat, ← Dropped, ← hh.dropped k, ← hh.installed k]
    cases hset : c.op.sets k with
    | none =>
        by_cases hop : c.op = .disable
        · rw [hop]
          simp
          tauto
        · have hkeep :
              (match c.op with
                | .disable => none
                | _ => (none : Option (Option κ)).getD
                    (h.callbackOf k)) = h.callbackOf k := by
            split
            · contradiction
            · rfl
          rw [hkeep]
          simp [hop]
    | some cb =>
        have hop : c.op ≠ .disable := by
          intro hop
          rw [hop] at hset
          cases hset
        have hnew :
            (match c.op with
              | .disable => none
              | _ => (some cb).getD (h.callbackOf k)) = cb := by
          split
          · contradiction
          · rfl
        rw [hnew]
        cases cb <;> simp [hop]

/-- An enabled handler lacks a callback exactly when one was dropped. -/
theorem FollowsCalls.hasCallbacks_iff
    {calls : List (HandlerCall κ)} {h : IOHandler κ}
    (hh : FollowsCalls calls h) (hon : h.isEnabled = true) :
    h.HasCallbacks ↔ ¬ Dropped .read calls ∧ ¬ Dropped .write calls := by
  rw [← hh.dropped .read, ← hh.dropped .write]
  simp [HasCallbacks, hon, EventMask.listensTo, callbackOf,
    Option.isSome_iff_ne_none]

/-- Only enable() can make a handler lack a callback. -/
theorem HasCallbacks.call
    {h : IOHandler κ} (hh : h.HasCallbacks) {c : HandlerCall κ}
    (hc : c.op.setsEvent = false) (hop : c.op ≠ .enable) :
    (h.perform c.quit c.op).1.HasCallbacks := by
  intro hon
  have hread := perform_listensTo h c.quit hc .read
  have hwrite := perform_listensTo h c.quit hc .write
  have hreadCb := perform_callbackOf h c.quit c.op .read
  have hwriteCb := perform_callbackOf h c.quit c.op .write
  rw [perform_isEnabled] at hon
  simp only [EventMask.listensTo, callbackOf] at hread hwrite hreadCb hwriteCb
  rw [hread, hwrite, hreadCb, hwriteCb]
  cases hc' : c.op with
  | enable =>
      exact absurd hc' hop
  | disable =>
      simp [hc'] at hon
  | setReadCallback cb =>
      simp only [hc'] at hon
      simpa [HandlerOp.sets] using (hh hon).2
  | setWriteCallback cb =>
      simp only [hc'] at hon
      simpa [HandlerOp.sets] using (hh hon).1
  | setCloseCallback cb =>
      simp only [hc'] at hon
      simpa [HandlerOp.sets] using hh hon
  | setErrorCallback cb =>
      simp only [hc'] at hon
      simpa [HandlerOp.sets] using hh hon
  | _ =>
      simp [hc', HandlerOp.setsEvent] at hc

end IOHandler

namespace IOHandler

variable {κ : Type}

/-- In every run of calls an enabled handler always has its callbacks exactly
when no enable() comes after a disable() that has cleared a callback which has
not been set again. -/
theorem enabled_has_callbacks_iff
    (fd : Nat) (calls : List (HandlerCall κ))
    (hcalls : ∀ c ∈ calls, c.op.setsEvent = false) :
    EveryStep call (fun _ _ h' => h'.HasCallbacks) (create fd) calls ↔
      ∀ before c after, calls = before ++ c :: after →
        c.op = .enable →
          ¬ Dropped .read before ∧ ¬ Dropped .write before := by
  rw [everyStep_iff_along]
  refine along_iff_prefixes
    (fun before h => FollowsCalls before h ∧ h.HasCallbacks)
    (C := fun before c => c.op = .enable →
      ¬ Dropped .read before ∧ ¬ Dropped .write before)
    ?_ ⟨create_followsCalls fd, by simp [HasCallbacks, create, isEnabled]⟩
    hcalls
  rintro before h c ⟨hfollows, hhas⟩ hc
  have hnext := hfollows.call hc
  have hq :
      (∀ h', h.call c = some h' → h'.HasCallbacks) ↔
        (h.perform c.quit c.op).1.HasCallbacks := by
    simp [call]
  rw [hq]
  refine ⟨?_, fun hhas' => ⟨_, rfl, hnext, hhas'⟩⟩
  by_cases hop : c.op = .enable
  · have hon : (h.perform c.quit c.op).1.isEnabled = true := by
      rw [perform_isEnabled, hop]
    rw [hnext.hasCallbacks_iff hon]
    have hkeep : ∀ k, Dropped k (before ++ [c]) ↔ Dropped k before := by
      intro k
      rw [Dropped, since_concat]
      simp [hop, HandlerOp.sets]
    rw [hkeep, hkeep]
    simp [hop]
  · exact iff_of_true (hhas.call hc hop) (fun h => absurd h hop)

/-- A handler that is enabled, disabled and enabled again. -/
def reenabledCalls : List (HandlerCall Nat) :=
  [⟨false, .setReadCallback (some 1)⟩, ⟨false, .enable⟩,
    ⟨false, .disable⟩, ⟨false, .enable⟩]

/-- A disable() between two enable() leaves EPOLLIN without a read
callback. -/
theorem enabled_without_callback :
    ∃ h, run call (create 3) reenabledCalls = some h ∧
      h.isEnabled = true ∧ h.events_.EPOLLIN = true ∧
      h.readCallback_ = none ∧
      ¬ EveryStep call (fun _ _ h' => h'.HasCallbacks) (create 3)
        reenabledCalls := by
  refine ⟨_, rfl, rfl, rfl, rfl, ?_⟩
  intro hsteps
  have hhas : HasCallbacks _ :=
    everyStep_last (by simp [HasCallbacks, create, isEnabled])
      hsteps rfl
  exact absurd ((hhas rfl).1 rfl) (by decide)

theorem enabled_has_callbacks_iff_sample :
    (∀ c ∈ reenabledCalls, c.op.setsEvent = false) ∧
      (EveryStep call (fun _ _ h' => h'.HasCallbacks) (create 3)
          reenabledCalls ↔
        ∀ before c after, reenabledCalls = before ++ c :: after →
          c.op = .enable →
            ¬ Dropped .read before ∧ ¬ Dropped .write before) :=
  have hcalls : ∀ c ∈ reenabledCalls, c.op.setsEvent = false := by
    decide
  ⟨hcalls, enabled_has_callbacks_iff 3 reenabledCalls hcalls⟩

end IOHandler

end Hohnor
