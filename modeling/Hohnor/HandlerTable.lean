import Hohnor.IOHandler
import Hohnor.TransitionRuns

/-!
# Handlers and the epoll interest set

Any number of IOHandlers in the loop thread beside the interest set that the
kernel keeps for the loop's epoll fd (src/core/IOHandler.cpp,
src/core/EventLoop.cpp, src/io/Epoll.cpp).

`Epoll::ctl` only logs a call that the kernel refuses.  So the set stays as it
was then, and the table collects such calls in `refused`.  A call is refused
exactly when it is not legal: an ADD of a registered fd, a MOD or a DEL of one
that is not registered.

The main result is that status and registration agree after every run of
operations, and that no call is ever refused.
-/

namespace Hohnor

open TransitionRuns

/-- The address of a handler. -/
abbrev HandlerAddr := Nat

/-- What the kernel keeps for a registered fd: the mask and `data.ptr`. -/
structure EpollItem where
  events : EventMask
  ptr : HandlerAddr
deriving DecidableEq, Repr

/-- The interest set of an epoll instance. -/
abbrev InterestSet := Nat → Option EpollItem

namespace EpollCtl

def fd : EpollCtl → Nat
  | .add fd _ => fd
  | .modify fd _ => fd
  | .remove fd => fd

/-- The kernel accepts the call. -/
def legal (e : InterestSet) : EpollCtl → Bool
  | .add fd _ => (e fd).isNone
  | .modify fd _ => (e fd).isSome
  | .remove fd => (e fd).isSome

/-- The entry of the fd after the call was accepted. -/
def entry (ptr : HandlerAddr) : EpollCtl → Option EpollItem
  | .add _ events => some ⟨events, ptr⟩
  | .modify _ events => some ⟨events, ptr⟩
  | .remove _ => none

end EpollCtl

/-- The operations of a handler that change what epoll has to know. -/
inductive HandlerOp (κ : Type) where
  | enable
  | disable
  | setReadCallback (cb : Option κ)
  | setWriteCallback (cb : Option κ)
  | setCloseCallback (cb : Option κ)
  | setErrorCallback (cb : Option κ)
  | setReadEvent (on : Bool)
  | setWriteEvent (on : Bool)
  | setCloseEvent (on : Bool)
  | setErrorEvent (on : Bool)

/-- A legal call on one fd, as it changes the mask registered for it. -/
inductive EpollCtl.Changes
    (fd : Nat) : EpollCtl → Option EventMask → Option EventMask → Prop
  | add (events : EventMask) :
      Changes fd (.add fd events) none (some events)
  | modify (old events : EventMask) :
      Changes fd (.modify fd events) (some old) (some events)
  | remove (old : EventMask) :
      Changes fd (.remove fd) (some old) none

namespace IOHandler

variable {κ : Type}

/-- Run one operation; `quit` is the loop's quit_. -/
def perform (quit : Bool) (h : IOHandler κ) :
    HandlerOp κ → IOHandler κ × List EpollCtl
  | .enable => h.enable
  | .disable => h.disable quit
  | .setReadCallback cb => h.setReadCallback cb
  | .setWriteCallback cb => h.setWriteCallback cb
  | .setCloseCallback cb => h.setCloseCallback cb
  | .setErrorCallback cb => h.setErrorCallback cb
  | .setReadEvent on => h.setReadEvent on
  | .setWriteEvent on => h.setWriteEvent on
  | .setCloseEvent on => h.setCloseEvent on
  | .setErrorEvent on => h.setErrorEvent on

/-- The mask that has to be registered for the handler's fd. -/
def registration (h : IOHandler κ) : Option EventMask :=
  if h.isEnabled then some h.events_ else none

/-- What every operation does: it issues no call and leaves the registration
due as it was, or one legal call that brings it up to date. -/
structure Updates
    (h : IOHandler κ) (r : IOHandler κ × List EpollCtl) : Prop where
  fd_eq : r.1.fd = h.fd
  calls :
    (r.2 = [] ∧ r.1.registration = h.registration) ∨
    ∃ c, r.2 = [c] ∧ c.Changes h.fd h.registration r.1.registration

theorem registration_of_isEnabled
    {h : IOHandler κ} (hon : h.isEnabled = true) :
    h.registration = some h.events_ := by
  unfold registration
  rw [if_pos hon]

theorem registration_of_not_isEnabled
    {h : IOHandler κ} (hoff : h.isEnabled = false) :
    h.registration = none := by
  unfold registration
  rw [hoff]
  rfl

/-- The tail of the four `set*Event` functions, also after a callback has been
stored. -/
theorem setEvents_updates
    (h h' : IOHandler κ)
    (hfd : h'.fd = h.fd) (hstatus : h'.status_ = h.status_)
    (events : EventMask) :
    Updates h (h'.setEvents events) := by
  have hsame : h'.isEnabled = h.isEnabled := by
    simp only [isEnabled, hstatus]
  cases hon : h.isEnabled with
  | true =>
      have hset :
          h'.setEvents events =
            ({ h' with events_ := events, status_ := .Enabled },
              [.modify h.fd events]) := by
        have hst : h'.status_ = .Enabled := by
          simpa [isEnabled, hstatus] using hon
        simp [setEvents, isEnabled, updateInLoop, updateIOHandler,
          hst, hfd]
      rw [hset]
      refine ⟨hfd, Or.inr ⟨_, rfl, ?_⟩⟩
      rw [registration_of_isEnabled hon,
        registration_of_isEnabled (by simp [isEnabled])]
      exact .modify _ _
  | false =>
      have hoff : h'.isEnabled = false := hsame.trans hon
      have hset :
          h'.setEvents events = ({ h' with events_ := events }, []) := by
        have hst : ¬ h'.status_ = .Enabled := by
          simpa [isEnabled] using hoff
        simp [setEvents, isEnabled, hst]
      rw [hset]
      refine ⟨hfd, Or.inl ⟨rfl, ?_⟩⟩
      rw [registration_of_not_isEnabled hon]
      exact registration_of_not_isEnabled hoff

theorem enable_updates
    (h : IOHandler κ) :
    Updates h h.enable := by
  cases hst : h.status_ with
  | Created =>
      refine ⟨by simp [enable, update, updateInLoop, hst], Or.inr ?_⟩
      refine ⟨.add h.fd h.events_, ?_, ?_⟩
      · simp [enable, update, updateInLoop, updateIOHandler, hst]
      · simp only [registration, isEnabled, enable, update,
          updateInLoop, hst]
        exact .add _
  | Enabled =>
      refine ⟨by simp [enable, update, updateInLoop, hst], Or.inr ?_⟩
      refine ⟨.modify h.fd h.events_, ?_, ?_⟩
      · simp [enable, update, updateInLoop, updateIOHandler,
          isEnabled, hst]
      · simp only [registration, isEnabled, enable, update,
          updateInLoop, hst]
        exact .modify _ _
  | Disabled =>
      refine ⟨by simp [enable, update, updateInLoop, hst], Or.inr ?_⟩
      refine ⟨.add h.fd h.events_, ?_, ?_⟩
      · simp [enable, update, updateInLoop, updateIOHandler, hst]
      · simp only [registration, isEnabled, enable, update,
          updateInLoop, hst]
        exact .add _

/-- Disabling before quit_ is set. -/
theorem disable_updates
    (h : IOHandler κ) :
    Updates h (h.disable false) := by
  cases hst : h.status_ with
  | Created =>
      refine ⟨by simp [disable, update, cleanCallbacks, hst], Or.inl ?_⟩
      simp [disable, update, cleanCallbacks, registration, isEnabled,
        hst]
  | Enabled =>
      refine ⟨by simp [disable, update, updateInLoop, cleanCallbacks,
        hst], Or.inr ?_⟩
      refine ⟨.remove h.fd, ?_, ?_⟩
      · simp [disable, update, updateInLoop, updateIOHandler,
          cleanCallbacks, isEnabled, hst]
      · simp only [registration, isEnabled, disable, update,
          updateInLoop, cleanCallbacks, hst]
        exact .remove _
  | Disabled =>
      refine ⟨by simp [disable, update, cleanCallbacks, hst], Or.inl ?_⟩
      simp [disable, update, cleanCallbacks, registration, isEnabled,
        hst]

/-- Every operation of a handler before quit_ is set issues the call that is
due, and that call is legal. -/
theorem perform_updates
    (h : IOHandler κ) (op : HandlerOp κ) :
    Updates h (h.perform false op) := by
  cases op with
  | enable =>
      exact h.enable_updates
  | disable =>
      exact h.disable_updates
  | setReadCallback cb =>
      exact setEvents_updates h { h with readCallback_ := cb }
        rfl rfl _
  | setWriteCallback cb =>
      exact setEvents_updates h { h with writeCallback_ := cb }
        rfl rfl _
  | setCloseCallback cb =>
      exact setEvents_updates h { h with closeCallback_ := cb }
        rfl rfl _
  | setErrorCallback cb =>
      exact setEvents_updates h { h with errorCallback_ := cb }
        rfl rfl _
  | setReadEvent on =>
      exact setEvents_updates h h rfl rfl _
  | setWriteEvent on =>
      exact setEvents_updates h h rfl rfl _
  | setCloseEvent on =>
      exact setEvents_updates h h rfl rfl _
  | setErrorEvent on =>
      exact setEvents_updates h h rfl rfl _

end IOHandler

/-- The entry due in the interest set for a handler at `p`: one exactly when
the status is Enabled, with the current events and that address. -/
def IOHandler.item
    {κ : Type} (p : HandlerAddr) (h : IOHandler κ) : Option EpollItem :=
  if h.status_ = .Enabled then some ⟨h.events_, p⟩ else none

/-- The handlers by address, the fds that their guards keep open, and the
interest set. -/
structure HandlerTable (κ : Type) where
  handlers : HandlerAddr → Option (IOHandler κ)
  guarded : Nat → Bool
  interest : InterestSet
  quit_ : Bool
  refused : List EpollCtl

inductive TableOp (κ : Type) where
  | create (p : HandlerAddr) (fd : Nat)
  | operate (p : HandlerAddr) (op : HandlerOp κ)
  | destroy (p : HandlerAddr)

namespace HandlerTable

variable {κ : Type}

/-- A loop without handlers. -/
def initial : HandlerTable κ where
  handlers := fun _ => none
  guarded := fun _ => false
  interest := fun _ => none
  quit_ := false
  refused := []

/-- `Epoll::ctl`, called for the handler at `p`. -/
def ctl (p : HandlerAddr) (t : HandlerTable κ) (c : EpollCtl) :
    HandlerTable κ :=
  if c.legal t.interest then
    { t with
      interest := Function.update t.interest c.fd (c.entry p) }
  else
    { t with refused := t.refused ++ [c] }

def store (t : HandlerTable κ) (p : HandlerAddr)
    (h : Option (IOHandler κ)) : HandlerTable κ :=
  { t with handlers := Function.update t.handlers p h }

/-- `EventLoop::removeFd`.  A removal does not use the address. -/
def removeFd (t : HandlerTable κ) (fd : Nat) : HandlerTable κ :=
  t.ctl 0 (.remove fd)

/-- `~FdGuard`: the kernel drops the registration of a closed fd and may hand
its number out again. -/
def closeFd (t : HandlerTable κ) (fd : Nat) : HandlerTable κ :=
  { t with
    guarded := Function.update t.guarded fd false
    interest := Function.update t.interest fd none }

/-- The constructor, on an fd that no other guard owns. -/
def create (t : HandlerTable κ) (p : HandlerAddr) (fd : Nat) :
    HandlerTable κ :=
  { t.store p (some (.create fd)) with
    guarded := Function.update t.guarded fd true }

/-- An operation of the handler at `p` with the calls that it issues. -/
def operate (t : HandlerTable κ) (p : HandlerAddr) (h : IOHandler κ)
    (op : HandlerOp κ) : HandlerTable κ :=
  (h.perform t.quit_ op).2.foldl (ctl p)
    (t.store p (some (h.perform t.quit_ op).1))

/-- `~IOHandler` in the loop thread, then `~FdGuard`. -/
def destroy (t : HandlerTable κ) (p : HandlerAddr) (h : IOHandler κ) :
    HandlerTable κ :=
  let t' := t.store p none
  (if h.isEnabled && !t.quit_ then t'.removeFd h.fd else t').closeFd
    h.fd

/-- One operation in the loop thread. -/
def step (t : HandlerTable κ) :
    TableOp κ → Option (HandlerTable κ)
  | .create p fd =>
      if (t.handlers p).isNone && !t.guarded fd then
        some (t.create p fd)
      else
        none
  | .operate p op => (t.handlers p).map (fun h => t.operate p h op)
  | .destroy p => (t.handlers p).map (t.destroy p)

/-- Status and registration agree: the fd of every live handler has the entry
that is due for that handler. -/
def Agrees (t : HandlerTable κ) : Prop :=
  ∀ p h, t.handlers p = some h → t.interest h.fd = h.item p

/-- Every live handler owns an fd of its own, and no other fd is
registered. -/
structure Owned (t : HandlerTable κ) : Prop where
  guarded : ∀ p h, t.handlers p = some h → t.guarded h.fd = true
  distinct :
    ∀ p q h h', t.handlers p = some h → t.handlers q = some h' →
      h.fd = h'.fd → p = q
  unregistered : ∀ fd, t.guarded fd = false → t.interest fd = none

end HandlerTable

theorem IOHandler.item_eq_registration
    {κ : Type} (p : HandlerAddr) (h : IOHandler κ) :
    h.item p = h.registration.map (fun events => ⟨events, p⟩) := by
  by_cases hon : h.status_ = .Enabled
  · simp [item, registration, isEnabled, hon]
  · simp [item, registration, isEnabled, hon]

namespace HandlerTable

variable {κ : Type}

/-- A legal call on the fd of a handler brings its entry up to date. -/
theorem ctl_of_changes
    {t : HandlerTable κ} {p : HandlerAddr} {fd : Nat} {c : EpollCtl}
    {old new : Option EventMask}
    (hc : c.Changes fd old new)
    (hold : t.interest fd = old.map (fun events => ⟨events, p⟩)) :
    t.ctl p c =
      { t with
        interest :=
          Function.update t.interest fd
            (new.map (fun events => ⟨events, p⟩)) } := by
  cases hc with
  | add events =>
      simp [ctl, EpollCtl.legal, EpollCtl.fd, EpollCtl.entry, hold]
  | modify old events =>
      simp [ctl, EpollCtl.legal, EpollCtl.fd, EpollCtl.entry, hold]
  | remove old =>
      simp [ctl, EpollCtl.legal, EpollCtl.fd, EpollCtl.entry, hold]

/-- What an operation of a handler changes. -/
theorem operate_eq
    {t : HandlerTable κ} {p : HandlerAddr} {h : IOHandler κ}
    (hquit : t.quit_ = false)
    (hitem : t.interest h.fd = h.item p)
    (op : HandlerOp κ) :
    t.operate p h op =
      { t.store p (some (h.perform false op).1) with
        interest :=
          Function.update t.interest h.fd
            ((h.perform false op).1.item p) } := by
  rw [IOHandler.item_eq_registration] at hitem ⊢
  unfold operate
  rw [hquit]
  obtain ⟨_, hcalls⟩ := h.perform_updates op
  rcases hcalls with ⟨hnone, hsame⟩ | ⟨c, hone, hchange⟩
  · rw [hnone, List.foldl_nil, hsame, ← hitem, Function.update_eq_self]
    rfl
  · rw [hone, List.foldl_cons, List.foldl_nil]
    exact ctl_of_changes hchange hitem

/-- The destructor leaves what closing the fd of a forgotten handler leaves,
since it has removed the registration itself. -/
theorem destroy_eq
    {t : HandlerTable κ} {p : HandlerAddr} {h : IOHandler κ}
    (hquit : t.quit_ = false)
    (hitem : t.interest h.fd = h.item p) :
    t.destroy p h = (t.store p none).closeFd h.fd := by
  unfold destroy
  cases hon : h.isEnabled with
  | true =>
      have hst : h.status_ = .Enabled := by
        simpa [IOHandler.isEnabled] using hon
      rw [IOHandler.item, if_pos hst] at hitem
      simp [removeFd, ctl, closeFd, store, EpollCtl.legal, EpollCtl.fd,
        EpollCtl.entry, hquit, hitem]
  | false =>
      simp [closeFd, store]

theorem store_cases
    {t : HandlerTable κ} {p q : HandlerAddr}
    {h : Option (IOHandler κ)} {h' : IOHandler κ}
    (hq : (t.store p h).handlers q = some h') :
    (q = p ∧ h = some h') ∨ (q ≠ p ∧ t.handlers q = some h') := by
  by_cases hqp : q = p
  · subst hqp
    exact Or.inl ⟨rfl, by simpa [store] using hq⟩
  · exact Or.inr ⟨hqp, by simpa [store, hqp] using hq⟩

theorem initial_agrees :
    (initial : HandlerTable κ).Agrees := by
  intro p h hp
  cases hp

theorem initial_owned :
    (initial : HandlerTable κ).Owned := by
  refine ⟨?_, ?_, fun _ _ => rfl⟩
  · intro p h hp
    cases hp
  · intro p q h h' hp
    cases hp

theorem Agrees.create
    {t : HandlerTable κ} (ht : t.Agrees) (howned : t.Owned)
    (p : HandlerAddr) {fd : Nat} (hfree : t.guarded fd = false) :
    (t.create p fd).Agrees := by
  intro q h hq
  rcases store_cases hq with ⟨_, hnew⟩ | ⟨_, hold⟩
  · cases hnew
    exact howned.unregistered fd hfree
  · exact ht q h hold

theorem Owned.create
    {t : HandlerTable κ} (howned : t.Owned)
    (p : HandlerAddr) {fd : Nat} (hfree : t.guarded fd = false) :
    (t.create p fd).Owned := by
  have hother : ∀ q h, t.handlers q = some h → h.fd ≠ fd := by
    intro q h hq hfd
    have hguarded := howned.guarded q h hq
    rw [hfd, hfree] at hguarded
    cases hguarded
  refine ⟨?_, ?_, ?_⟩
  · intro q h hq
    rcases store_cases hq with ⟨_, hnew⟩ | ⟨_, hold⟩
    · cases hnew
      simp [HandlerTable.create, IOHandler.create]
    · simp [HandlerTable.create, hother q h hold,
        howned.guarded q h hold]
  · intro q r h h' hq hr hfd
    rcases store_cases hq with ⟨rfl, hnew⟩ | ⟨_, hold⟩
    · rcases store_cases hr with ⟨rfl, _⟩ | ⟨_, hold'⟩
      · rfl
      · cases hnew
        exact absurd hfd.symm (hother r h' hold')
    · rcases store_cases hr with ⟨_, hnew'⟩ | ⟨_, hold'⟩
      · cases hnew'
        exact absurd hfd (hother q h hold)
      · exact howned.distinct q r h h' hold hold' hfd
  · intro other hother'
    by_cases hfd : other = fd
    · rw [hfd]
      exact howned.unregistered fd hfree
    · exact howned.unregistered other
        (by simpa [HandlerTable.create, hfd] using hother')

theorem Agrees.operate
    {t : HandlerTable κ} (ht : t.Agrees) (howned : t.Owned)
    (hquit : t.quit_ = false)
    {p : HandlerAddr} {h : IOHandler κ} (hp : t.handlers p = some h)
    (op : HandlerOp κ) :
    (t.operate p h op).Agrees := by
  have hfd := (h.perform_updates op).fd_eq
  rw [operate_eq hquit (ht p h hp)]
  intro q g hq
  rcases store_cases hq with ⟨rfl, hnew⟩ | ⟨hne, hold⟩
  · cases hnew
    simp [hfd]
  · have hother : g.fd ≠ h.fd :=
      fun heq => hne (howned.distinct q p g h hold hp heq)
    simp [hother, ht q g hold]

theorem Owned.operate
    {t : HandlerTable κ} (howned : t.Owned) (ht : t.Agrees)
    (hquit : t.quit_ = false)
    {p : HandlerAddr} {h : IOHandler κ} (hp : t.handlers p = some h)
    (op : HandlerOp κ) :
    (t.operate p h op).Owned := by
  have hfd := (h.perform_updates op).fd_eq
  have hlive :
      ∀ q g, (t.store p (some (h.perform false op).1)).handlers q =
          some g →
        ∃ g', t.handlers q = some g' ∧ g'.fd = g.fd := by
    intro q g hq
    rcases store_cases hq with ⟨rfl, hnew⟩ | ⟨_, hold⟩
    · cases hnew
      exact ⟨h, hp, hfd.symm⟩
    · exact ⟨g, hold, rfl⟩
  rw [operate_eq hquit (ht p h hp)]
  refine ⟨?_, ?_, ?_⟩
  · intro q g hq
    obtain ⟨g', hq', hg'⟩ := hlive q g hq
    rw [← hg']
    exact howned.guarded q g' hq'
  · intro q r g k hq hr heq
    obtain ⟨g', hq', hg'⟩ := hlive q g hq
    obtain ⟨k', hr', hk'⟩ := hlive r k hr
    exact howned.distinct q r g' k' hq' hr' (by rw [hg', hk', heq])
  · intro fd hfree
    have hfree' : t.guarded fd = false := hfree
    have hne : fd ≠ h.fd := by
      intro heq
      have hguarded := howned.guarded p h hp
      rw [← heq, hfree'] at hguarded
      cases hguarded
    simp [hne, howned.unregistered fd hfree']

theorem Agrees.store_none
    {t : HandlerTable κ} (ht : t.Agrees) (p : HandlerAddr) :
    (t.store p none).Agrees := by
  intro q g hq
  rcases store_cases hq with ⟨_, hnew⟩ | ⟨_, hold⟩
  · cases hnew
  · exact ht q g hold

theorem Owned.store_none
    {t : HandlerTable κ} (howned : t.Owned) (p : HandlerAddr) :
    (t.store p none).Owned := by
  have hlive :
      ∀ q g, (t.store p none).handlers q = some g →
        t.handlers q = some g := by
    intro q g hq
    rcases store_cases hq with ⟨_, hnew⟩ | ⟨_, hold⟩
    · cases hnew
    · exact hold
  refine ⟨?_, ?_, howned.unregistered⟩
  · intro q g hq
    exact howned.guarded q g (hlive q g hq)
  · intro q r g k hq hr
    exact howned.distinct q r g k (hlive q g hq) (hlive r k hr)

/-- Once a handler is gone, no live one has its fd. -/
theorem Owned.not_live
    {t : HandlerTable κ} (howned : t.Owned)
    {p : HandlerAddr} {h : IOHandler κ} (hp : t.handlers p = some h) :
    ∀ q g, (t.store p none).handlers q = some g → g.fd ≠ h.fd := by
  intro q g hq heq
  rcases store_cases hq with ⟨_, hnew⟩ | ⟨hne, hold⟩
  · cases hnew
  · exact hne (howned.distinct q p g h hold hp heq)

theorem Agrees.closeFd
    {t : HandlerTable κ} (ht : t.Agrees) {fd : Nat}
    (hdead : ∀ q g, t.handlers q = some g → g.fd ≠ fd) :
    (t.closeFd fd).Agrees := by
  intro q g hq
  have hq' : t.handlers q = some g := hq
  simp [HandlerTable.closeFd, hdead q g hq', ht q g hq']

theorem Owned.closeFd
    {t : HandlerTable κ} (howned : t.Owned) {fd : Nat}
    (hdead : ∀ q g, t.handlers q = some g → g.fd ≠ fd) :
    (t.closeFd fd).Owned := by
  refine ⟨?_, howned.distinct, ?_⟩
  · intro q g hq
    have hq' : t.handlers q = some g := hq
    simp [HandlerTable.closeFd, hdead q g hq', howned.guarded q g hq']
  · intro other hfree
    by_cases hfd : other = fd
    · simp [HandlerTable.closeFd, hfd]
    · have hfree' : t.guarded other = false := by
        simpa [HandlerTable.closeFd, hfd] using hfree
      simp [HandlerTable.closeFd, hfd, howned.unregistered other hfree']

/-- What holds before quit_ is set. -/
structure Registered (t : HandlerTable κ) : Prop where
  agrees : t.Agrees
  owned : t.Owned
  running : t.quit_ = false

theorem initial_registered :
    (initial : HandlerTable κ).Registered :=
  ⟨initial_agrees, initial_owned, rfl⟩

/-- What an operation of the table does. -/
inductive Steps (t : HandlerTable κ) :
    TableOp κ → HandlerTable κ → Prop
  | creates
      {p : HandlerAddr} {fd : Nat}
      (hfree : t.guarded fd = false) :
      Steps t (.create p fd) (t.create p fd)
  | operates
      {p : HandlerAddr} {h : IOHandler κ} {op : HandlerOp κ}
      (hp : t.handlers p = some h) :
      Steps t (.operate p op) (t.operate p h op)
  | destroys
      {p : HandlerAddr} {h : IOHandler κ}
      (hp : t.handlers p = some h) :
      Steps t (.destroy p) (t.destroy p h)

theorem step_steps
    {t t' : HandlerTable κ} {op : TableOp κ}
    (hstep : t.step op = some t') :
    t.Steps op t' := by
  cases op with
  | create p fd =>
      simp only [HandlerTable.step, Option.ite_none_right_eq_some,
        Option.some.injEq, Bool.and_eq_true, Bool.not_eq_true'] at hstep
      obtain ⟨⟨_, hfree⟩, rfl⟩ := hstep
      exact .creates hfree
  | operate p op =>
      obtain ⟨h, hp, rfl⟩ := Option.map_eq_some_iff.mp hstep
      exact .operates hp
  | destroy p =>
      obtain ⟨h, hp, rfl⟩ := Option.map_eq_some_iff.mp hstep
      exact .destroys hp

/-- Every operation keeps the agreement, and the kernel accepts its calls. -/
theorem Registered.step
    {t t' : HandlerTable κ} {op : TableOp κ}
    (ht : t.Registered) (hstep : t.step op = some t') :
    t'.Registered ∧ t'.refused = t.refused := by
  obtain ⟨hagrees, howned, hquit⟩ := ht
  cases step_steps hstep with
  | @creates p fd hfree =>
      exact ⟨⟨hagrees.create howned p hfree, howned.create p hfree,
        hquit⟩, rfl⟩
  | @operates p h op hp =>
      have heq := operate_eq hquit (hagrees p h hp) op
      refine ⟨⟨hagrees.operate howned hquit hp op,
        howned.operate hagrees hquit hp op, ?_⟩, ?_⟩
      · rw [heq]
        exact hquit
      · rw [heq]
        rfl
  | @destroys p h hp =>
      rw [destroy_eq hquit (hagrees p h hp)]
      have hdead := howned.not_live hp
      exact ⟨⟨(hagrees.store_none p).closeFd hdead,
        (howned.store_none p).closeFd hdead, hquit⟩, rfl⟩

/-- After every run of operations of any number of handlers, status and
registration agree, and every `epoll_ctl` call was legal. -/
theorem registration_agrees
    {ops : List (TableOp κ)} {t : HandlerTable κ}
    (hrun : run HandlerTable.step initial ops = some t) :
    t.Agrees ∧ t.refused = [] := by
  have hkeep :
      ∀ (s : HandlerTable κ) (op : TableOp κ) (s' : HandlerTable κ),
        s.Registered ∧ s.refused = [] → True → s.step op = some s' →
        s'.Registered ∧ s'.refused = [] := by
    rintro s op s' ⟨hs, haccepted⟩ _ hstep
    obtain ⟨hs', hsame⟩ := hs.step hstep
    exact ⟨hs', hsame.trans haccepted⟩
  obtain ⟨ht, haccepted⟩ :=
    invariant_of_run hkeep ⟨initial_registered, rfl⟩
      (fun _ _ => trivial) hrun
  exact ⟨ht.agrees, haccepted⟩

/-- Two handlers, of which one is disabled, enabled again and destroyed. -/
theorem registration_agrees_sample :
    ∃ t : HandlerTable Nat,
      run HandlerTable.step initial
          [.create 0 5, .operate 0 (.setReadCallback (some 1)),
            .operate 0 .enable, .create 1 7, .operate 1 .disable,
            .operate 1 .enable, .operate 0 .disable,
            .operate 0 .enable, .operate 1 (.setWriteEvent true),
            .destroy 0] = some t ∧
      (t.Agrees ∧ t.refused = []) ∧
      t.interest 5 = none ∧
      t.interest 7 = some ⟨{ EventMask.none with EPOLLOUT := true }, 1⟩ := by
  obtain ⟨t, hrun, hitems⟩ :=
    Option.map_eq_some_iff.mp
      (show (run HandlerTable.step (initial : HandlerTable Nat)
          [.create 0 5, .operate 0 (.setReadCallback (some 1)),
            .operate 0 .enable, .create 1 7, .operate 1 .disable,
            .operate 1 .enable, .operate 0 .disable,
            .operate 0 .enable, .operate 1 (.setWriteEvent true),
            .destroy 0]).map (fun t => (t.interest 5, t.interest 7)) =
          some (none,
            some ⟨{ EventMask.none with EPOLLOUT := true }, 1⟩)
        by decide +kernel)
  obtain ⟨hfive, hseven⟩ := Prod.mk.inj hitems
  exact ⟨t, hrun, registration_agrees hrun, hfive, hseven⟩

end HandlerTable

end Hohnor
