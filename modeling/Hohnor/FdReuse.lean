import Hohnor.HandlerTable

/-!
# Handlers that another thread destroys

A thread other than the loop's drops the last reference to a handler.  Its
destructor runs there: `~IOHandler` puts the removal of the fd into the loop's
queue, by number, and then `~FdGuard` closes the fd.  From then on the kernel
may give the number to the next fd that is opened, and the loop may have a new
handler on it before it comes to the queued removal.

A queued removal is harmless exactly when no handler is enabled on the number
at that moment.  That is so in particular when no handler is enabled on a
number while a removal of it is queued.
-/

namespace Hohnor

open TransitionRuns

/-- The loop's handlers, the queued `removeFd` functors in order, and the fds
whose `~IOHandler` has run in another thread but whose `~FdGuard` has not. -/
structure SharedTable (κ : Type) where
  table : HandlerTable κ
  pendingRemovals : List Nat
  closing : List Nat

inductive SharedOp (κ : Type) where
  | inLoop (op : TableOp κ)
  | destroyElsewhere (p : HandlerAddr)
  | closeElsewhere (fd : Nat)
  | runRemoval

namespace SharedTable

variable {κ : Type}

def initial : SharedTable κ where
  table := .initial
  pendingRemovals := []
  closing := []

/-- `~IOHandler` in another thread: runInLoop only queues the removal. -/
def destroyElsewhere
    (s : SharedTable κ) (p : HandlerAddr) (h : IOHandler κ) :
    SharedTable κ where
  table := s.table.store p none
  pendingRemovals :=
    if h.isEnabled && !s.table.quit_ then s.pendingRemovals ++ [h.fd]
    else s.pendingRemovals
  closing := h.fd :: s.closing

/-- `~FdGuard` in that thread. -/
def closeElsewhere (s : SharedTable κ) (fd : Nat) : SharedTable κ :=
  { s with
    table := s.table.closeFd fd
    closing := s.closing.erase fd }

/-- The loop runs the first queued removal. -/
def runRemoval (s : SharedTable κ) : Option (SharedTable κ) :=
  match s.pendingRemovals with
  | [] => none
  | fd :: fds =>
      some
        { s with
          table := s.table.removeFd fd
          pendingRemovals := fds }

/-- One step of the loop thread or of a thread that destroys a handler. -/
def step (s : SharedTable κ) :
    SharedOp κ → Option (SharedTable κ)
  | .inLoop op =>
      (s.table.step op).map (fun t => { s with table := t })
  | .destroyElsewhere p =>
      (s.table.handlers p).map (s.destroyElsewhere p)
  | .closeElsewhere fd =>
      if fd ∈ s.closing then some (s.closeElsewhere fd) else none
  | .runRemoval => s.runRemoval

/-- Every handler whose status is Enabled is in the interest set. -/
def EnabledRegistered (s : SharedTable κ) : Prop :=
  ∀ p h, s.table.handlers p = some h → h.status_ = .Enabled →
    s.table.interest h.fd = some ⟨h.events_, p⟩

/-- Where the step runs a queued removal, no live handler is enabled on the
number that it removes. -/
def RemovesNoEnabled (s : SharedTable κ) (op : SharedOp κ) : Prop :=
  op = .runRemoval →
    ∀ fd ∈ s.pendingRemovals.head?,
      ∀ p h, s.table.handlers p = some h → h.fd = fd →
        h.status_ ≠ .Enabled

/-- The loop's table is in order, and the fds that are about to be closed are
still owned, each by its guard alone. -/
structure Consistent (s : SharedTable κ) : Prop where
  registered : s.table.Registered
  closing_guarded : ∀ fd ∈ s.closing, s.table.guarded fd = true
  closing_dead :
    ∀ fd ∈ s.closing, ∀ p h, s.table.handlers p = some h → h.fd ≠ fd
  closing_nodup : s.closing.Nodup

theorem initial_consistent :
    (initial : SharedTable κ).Consistent where
  registered := HandlerTable.initial_registered
  closing_guarded := by simp [initial]
  closing_dead := by simp [initial]
  closing_nodup := List.nodup_nil

theorem Consistent.enabledRegistered
    {s : SharedTable κ} (hs : s.Consistent) :
    s.EnabledRegistered := by
  intro p h hp hon
  rw [hs.registered.agrees p h hp, IOHandler.item, if_pos hon]

/-- A removal leaves no entry, whether the kernel accepts it or not. -/
theorem removeFd_interest
    (t : HandlerTable κ) (fd : Nat) :
    (t.removeFd fd).interest = Function.update t.interest fd none := by
  unfold HandlerTable.removeFd HandlerTable.ctl
  by_cases hreg : EpollCtl.legal t.interest (.remove fd) = true
  · rw [if_pos hreg]
    rfl
  · rw [if_neg hreg]
    have hnone : t.interest fd = none := by
      simpa [EpollCtl.legal] using hreg
    rw [← hnone, Function.update_eq_self]

/-- A removal changes nothing else that the loop goes by. -/
theorem removeFd_frame
    (t : HandlerTable κ) (fd : Nat) :
    (t.removeFd fd).handlers = t.handlers ∧
    (t.removeFd fd).guarded = t.guarded ∧
    (t.removeFd fd).quit_ = t.quit_ := by
  unfold HandlerTable.removeFd HandlerTable.ctl
  split
  · exact ⟨rfl, rfl, rfl⟩
  · exact ⟨rfl, rfl, rfl⟩

end SharedTable

/-- A step of the loop thread gives no handler an fd that is guarded by another
one, and unguards only the fd of a handler that it destroys. -/
theorem HandlerTable.step_fds
    {κ : Type} {t t' : HandlerTable κ} {op : TableOp κ}
    (ht : t.Registered) (hstep : t.step op = some t') {fd : Nat}
    (hfd : t.guarded fd = true)
    (hdead : ∀ p h, t.handlers p = some h → h.fd ≠ fd) :
    t'.guarded fd = true ∧
    ∀ p h, t'.handlers p = some h → h.fd ≠ fd := by
  cases step_steps hstep with
  | @creates p other hfree =>
      have hne : other ≠ fd := by
        rintro rfl
        rw [hfd] at hfree
        cases hfree
      refine ⟨?_, ?_⟩
      · simp [HandlerTable.create, store, hne.symm, hfd]
      · intro q h hq
        rcases store_cases hq with ⟨_, hnew⟩ | ⟨_, hold⟩
        · cases hnew
          exact hne
        · exact hdead q h hold
  | @operates p h op hp =>
      rw [operate_eq ht.running (ht.agrees p h hp)]
      refine ⟨hfd, ?_⟩
      intro q g hq
      rcases store_cases hq with ⟨_, hnew⟩ | ⟨_, hold⟩
      · cases hnew
        rw [(h.perform_updates op).fd_eq]
        exact hdead p h hp
      · exact hdead q g hold
  | @destroys p h hp =>
      rw [destroy_eq ht.running (ht.agrees p h hp)]
      refine ⟨?_, ?_⟩
      · simp [closeFd, store, (hdead p h hp).symm, hfd]
      · intro q g hq
        rcases store_cases hq with ⟨_, hnew⟩ | ⟨_, hold⟩
        · cases hnew
        · exact hdead q g hold

namespace SharedTable

variable {κ : Type}

theorem Consistent.inLoop
    {s : SharedTable κ} (hs : s.Consistent)
    {op : TableOp κ} {t : HandlerTable κ}
    (hstep : s.table.step op = some t) :
    ({ s with table := t } : SharedTable κ).Consistent := by
  have hfds :
      ∀ fd ∈ s.closing, t.guarded fd = true ∧
        ∀ p h, t.handlers p = some h → h.fd ≠ fd :=
    fun fd hfd =>
      HandlerTable.step_fds hs.registered hstep
        (hs.closing_guarded fd hfd) (hs.closing_dead fd hfd)
  exact
    { registered := (hs.registered.step hstep).1
      closing_guarded := fun fd hfd => (hfds fd hfd).1
      closing_dead := fun fd hfd => (hfds fd hfd).2
      closing_nodup := hs.closing_nodup }

theorem Consistent.destroyElsewhere
    {s : SharedTable κ} (hs : s.Consistent)
    {p : HandlerAddr} {h : IOHandler κ}
    (hp : s.table.handlers p = some h) :
    (s.destroyElsewhere p h).Consistent := by
  have howned := hs.registered.owned
  have hdead := howned.not_live hp
  refine ⟨⟨hs.registered.agrees.store_none p, howned.store_none p,
    hs.registered.running⟩, ?_, ?_, ?_⟩
  · intro fd hfd
    rcases List.mem_cons.mp hfd with rfl | hold
    · exact howned.guarded p h hp
    · exact hs.closing_guarded fd hold
  · intro fd hfd q g hq
    rcases List.mem_cons.mp hfd with rfl | hold
    · exact hdead q g hq
    · rcases HandlerTable.store_cases hq with ⟨_, hnew⟩ | ⟨_, hlive⟩
      · cases hnew
      · exact hs.closing_dead fd hold q g hlive
  · have hnew : h.fd ∉ s.closing :=
      fun hmem => hs.closing_dead h.fd hmem p h hp rfl
    exact List.nodup_cons.mpr ⟨hnew, hs.closing_nodup⟩

theorem Consistent.closeElsewhere
    {s : SharedTable κ} (hs : s.Consistent)
    {fd : Nat} (hfd : fd ∈ s.closing) :
    (s.closeElsewhere fd).Consistent := by
  have hdead := hs.closing_dead fd hfd
  refine ⟨⟨hs.registered.agrees.closeFd hdead,
    hs.registered.owned.closeFd hdead, hs.registered.running⟩, ?_, ?_, ?_⟩
  · intro other hother
    obtain ⟨hne, hmem⟩ := hs.closing_nodup.mem_erase_iff.mp hother
    simpa [SharedTable.closeElsewhere, HandlerTable.closeFd, hne] using
      hs.closing_guarded other hmem
  · intro other hother q g hq
    exact hs.closing_dead other (List.mem_of_mem_erase hother) q g hq
  · exact hs.closing_nodup.erase fd

/-- The loop's table after a queued removal. -/
theorem Consistent.removeFd
    {s : SharedTable κ} (hs : s.Consistent)
    {fd : Nat} {fds : List Nat}
    (hsafe :
      ∀ p h, s.table.handlers p = some h → h.fd = fd →
        h.status_ ≠ .Enabled) :
    ({ s with
        table := s.table.removeFd fd
        pendingRemovals := fds } : SharedTable κ).Consistent := by
  obtain ⟨hhandlers, hguarded, hquit⟩ := removeFd_frame s.table fd
  have hinterest := removeFd_interest s.table fd
  have hregistered := hs.registered
  refine ⟨⟨?_, ⟨?_, ?_, ?_⟩, ?_⟩, ?_, ?_, hs.closing_nodup⟩
  · intro p h hp
    simp only [hhandlers] at hp
    rw [hinterest]
    by_cases hfd : h.fd = fd
    · rw [IOHandler.item, if_neg (hsafe p h hp hfd), hfd]
      exact Function.update_self ..
    · rw [Function.update_of_ne hfd]
      exact hregistered.agrees p h hp
  · rw [hhandlers, hguarded]
    exact hregistered.owned.guarded
  · rw [hhandlers]
    exact hregistered.owned.distinct
  · intro other hfree
    rw [hguarded] at hfree
    rw [hinterest]
    by_cases hfd : other = fd
    · rw [hfd]
      exact Function.update_self ..
    · rw [Function.update_of_ne hfd]
      exact hregistered.owned.unregistered other hfree
  · rw [hquit]
    exact hregistered.running
  · rw [hguarded]
    exact hs.closing_guarded
  · rw [hhandlers]
    exact hs.closing_dead

/-- What a step does. -/
inductive Steps (s : SharedTable κ) :
    SharedOp κ → SharedTable κ → Prop
  | inLoop
      {op : TableOp κ} {t : HandlerTable κ}
      (ht : s.table.step op = some t) :
      Steps s (.inLoop op) { s with table := t }
  | destroys
      {p : HandlerAddr} {h : IOHandler κ}
      (hp : s.table.handlers p = some h) :
      Steps s (.destroyElsewhere p) (s.destroyElsewhere p h)
  | closes
      {fd : Nat} (hfd : fd ∈ s.closing) :
      Steps s (.closeElsewhere fd) (s.closeElsewhere fd)
  | removes
      {fd : Nat} {fds : List Nat}
      (hpending : s.pendingRemovals = fd :: fds) :
      Steps s .runRemoval
        { s with
          table := s.table.removeFd fd
          pendingRemovals := fds }

theorem step_steps
    {s s' : SharedTable κ} {op : SharedOp κ}
    (hstep : s.step op = some s') :
    s.Steps op s' := by
  cases op with
  | inLoop op =>
      obtain ⟨t, ht, rfl⟩ := Option.map_eq_some_iff.mp hstep
      exact .inLoop ht
  | destroyElsewhere p =>
      obtain ⟨h, hp, rfl⟩ := Option.map_eq_some_iff.mp hstep
      exact .destroys hp
  | closeElsewhere fd =>
      simp only [SharedTable.step, Option.ite_none_right_eq_some,
        Option.some.injEq] at hstep
      obtain ⟨hfd, rfl⟩ := hstep
      exact .closes hfd
  | runRemoval =>
      simp only [SharedTable.step, SharedTable.runRemoval] at hstep
      cases hpending : s.pendingRemovals with
      | nil =>
          simp [hpending] at hstep
      | cons fd fds =>
          simp only [hpending, Option.some.injEq] at hstep
          subst hstep
          exact .removes hpending

/-- Under the condition every step keeps the tables in order. -/
theorem Consistent.step
    {s s' : SharedTable κ} {op : SharedOp κ}
    (hs : s.Consistent) (hsafe : s.RemovesNoEnabled op)
    (hstep : s.step op = some s') :
    s'.Consistent := by
  cases step_steps hstep with
  | inLoop ht =>
      exact hs.inLoop ht
  | destroys hp =>
      exact hs.destroyElsewhere hp
  | closes hfd =>
      exact hs.closeElsewhere hfd
  | @removes fd fds hpending =>
      exact hs.removeFd (hsafe rfl fd (by simp [hpending]))

/-- A removal that hits an enabled handler leaves it unregistered. -/
theorem removesNoEnabled_of_enabledRegistered
    {s s' : SharedTable κ} {op : SharedOp κ}
    (hstep : s.step op = some s') (hs' : s'.EnabledRegistered) :
    s.RemovesNoEnabled op := by
  rintro rfl fd hfd p h hp hfdh hon
  cases step_steps hstep with
  | @removes front fds hpending =>
      have hfront : front = fd := by simpa [hpending] using hfd
      have hlive : (s.table.removeFd front).handlers p = some h := by
        rw [(removeFd_frame s.table front).1]
        exact hp
      have hentry := hs' p h hlive hon
      simp [removeFd_interest, hfront, hfdh] at hentry

/-- The loop opens the number of a handler that another thread destroyed
again, and enables a handler on it before it runs the queued removal. -/
theorem removal_hits_other_handler :
    ∃ s : SharedTable Nat,
      run SharedTable.step initial
          [.inLoop (.create 0 7), .inLoop (.operate 0 .enable),
            .destroyElsewhere 0, .closeElsewhere 7,
            .inLoop (.create 1 7), .inLoop (.operate 1 .enable),
            .runRemoval] = some s ∧
      ¬ s.EnabledRegistered := by
  obtain ⟨s, hrun, hview⟩ :=
    Option.map_eq_some_iff.mp
      (show (run SharedTable.step (initial : SharedTable Nat)
          [.inLoop (.create 0 7), .inLoop (.operate 0 .enable),
            .destroyElsewhere 0, .closeElsewhere 7,
            .inLoop (.create 1 7), .inLoop (.operate 1 .enable),
            .runRemoval]).map
            (fun s => (s.table.interest 7,
              (s.table.handlers 1).map (fun h => (h.fd, h.status_)))) =
          some (none, some (7, .Enabled))
        by decide +kernel)
  obtain ⟨hentry, hlive⟩ := Prod.mk.inj hview
  obtain ⟨h, hh, hfields⟩ := Option.map_eq_some_iff.mp hlive
  obtain ⟨hfd, hon⟩ := Prod.mk.inj hfields
  refine ⟨s, hrun, ?_⟩
  intro hall
  have hregistered := hall 1 h hh hon
  rw [hfd, hentry] at hregistered
  cases hregistered

/-- Along every run, every enabled handler stays registered exactly when no
queued removal is run while a handler is enabled on its number. -/
theorem enabled_stay_registered_iff
    (ops : List (SharedOp κ)) :
    EveryStep SharedTable.step (fun _ _ s' => s'.EnabledRegistered)
        initial ops ↔
      EveryStep SharedTable.step (fun s op _ => s.RemovesNoEnabled op)
        initial ops := by
  refine everyStep_iff Consistent ?_ initial_consistent
    (fun _ _ => trivial)
  intro s op s' hs _ hstep
  refine ⟨⟨removesNoEnabled_of_enabledRegistered hstep, ?_⟩, ?_⟩
  · intro hsafe
    exact (hs.step hsafe hstep).enabledRegistered
  · intro hsafe
    exact hs.step hsafe hstep

/-- Where the step enables a handler, no removal of its fd is queued. -/
def EnablesUnqueued (s : SharedTable κ) (op : SharedOp κ) : Prop :=
  ∀ p h, op = .inLoop (.operate p .enable) →
    s.table.handlers p = some h → h.fd ∉ s.pendingRemovals

/-- No handler is enabled on a number whose removal is queued. -/
def QueuedDead (s : SharedTable κ) : Prop :=
  ∀ p h, s.table.handlers p = some h → h.status_ = .Enabled →
    h.fd ∉ s.pendingRemovals

theorem QueuedDead.removesNoEnabled
    {s : SharedTable κ} (hs : s.QueuedDead) (op : SharedOp κ) :
    s.RemovesNoEnabled op := by
  intro _ fd hfd p h hp hfdh hon
  have hmem : fd ∈ s.pendingRemovals := List.mem_of_mem_head? hfd
  rw [← hfdh] at hmem
  exact hs p h hp hon hmem

end SharedTable

/-- Only `enable` makes a handler enabled. -/
theorem IOHandler.status_of_perform
    {κ : Type} {h : IOHandler κ} {op : HandlerOp κ}
    (hop : op ≠ .enable)
    (hon : (h.perform false op).1.status_ = .Enabled) :
    h.status_ = .Enabled := by
  cases op with
  | enable =>
      exact absurd rfl hop
  | disable =>
      simp [perform, disable_fst] at hon
  | setReadCallback cb =>
      simpa [perform, setReadCallback, setReadEvent, setEvents_fst]
        using hon
  | setWriteCallback cb =>
      simpa [perform, setWriteCallback, setWriteEvent, setEvents_fst]
        using hon
  | setCloseCallback cb =>
      simpa [perform, setCloseCallback, setCloseEvent, setEvents_fst]
        using hon
  | setErrorCallback cb =>
      simpa [perform, setErrorCallback, setErrorEvent, setEvents_fst]
        using hon
  | setReadEvent on =>
      simpa [perform, IOHandler.setReadEvent, setEvents_fst] using hon
  | setWriteEvent on =>
      simpa [perform, IOHandler.setWriteEvent, setEvents_fst] using hon
  | setCloseEvent on =>
      simpa [perform, IOHandler.setCloseEvent, setEvents_fst] using hon
  | setErrorEvent on =>
      simpa [perform, IOHandler.setErrorEvent, setEvents_fst] using hon

namespace SharedTable

variable {κ : Type}

theorem QueuedDead.inLoop
    {s : SharedTable κ} (hs : s.QueuedDead) (hc : s.Consistent)
    {op : TableOp κ} {t : HandlerTable κ}
    (hguard : s.EnablesUnqueued (.inLoop op))
    (hstep : s.table.step op = some t) :
    ({ s with table := t } : SharedTable κ).QueuedDead := by
  cases HandlerTable.step_steps hstep with
  | creates hfree =>
      intro q h hq hon
      rcases HandlerTable.store_cases hq with ⟨_, hnew⟩ | ⟨_, hold⟩
      · cases hnew
        cases hon
      · exact hs q h hold hon
  | @operates p h op hp =>
      rw [HandlerTable.operate_eq hc.registered.running
        (hc.registered.agrees p h hp)]
      intro q g hq hon
      rcases HandlerTable.store_cases hq with ⟨_, hnew⟩ | ⟨_, hold⟩
      · cases hnew
        rw [(h.perform_updates op).fd_eq]
        by_cases hop : op = .enable
        · subst hop
          exact hguard p h rfl hp
        · exact hs p h hp (h.status_of_perform hop hon)
      · exact hs q g hold hon
  | @destroys p h hp =>
      rw [HandlerTable.destroy_eq hc.registered.running
        (hc.registered.agrees p h hp)]
      intro q g hq hon
      rcases HandlerTable.store_cases hq with ⟨_, hnew⟩ | ⟨_, hold⟩
      · cases hnew
      · exact hs q g hold hon

theorem QueuedDead.step
    {s s' : SharedTable κ} {op : SharedOp κ}
    (hs : s.QueuedDead) (hc : s.Consistent)
    (hguard : s.EnablesUnqueued op)
    (hstep : s.step op = some s') :
    s'.QueuedDead := by
  cases step_steps hstep with
  | inLoop ht =>
      exact hs.inLoop hc hguard ht
  | @destroys p h hp =>
      intro q g hq hon hmem
      have hne : g.fd ≠ h.fd := hc.registered.owned.not_live hp q g hq
      rcases HandlerTable.store_cases hq with ⟨_, hnew⟩ | ⟨_, hold⟩
      · cases hnew
      · refine hs q g hold hon ?_
        simp only [SharedTable.destroyElsewhere] at hmem
        split at hmem
        · simpa [hne] using hmem
        · exact hmem
  | closes hfd =>
      exact hs
  | @removes fd fds hpending =>
      intro p h hp hon hmem
      simp only [(removeFd_frame s.table fd).1] at hp
      refine hs p h hp hon ?_
      rw [hpending]
      exact List.mem_cons_of_mem fd hmem

/-- A loop that enables no handler on a number whose removal is queued runs no
removal that hits an enabled handler. -/
theorem removesNoEnabled_of_enablesUnqueued
    {ops : List (SharedOp κ)}
    (hguard :
      EveryStep SharedTable.step (fun s op _ => s.EnablesUnqueued op)
        initial ops) :
    EveryStep SharedTable.step (fun s op _ => s.RemovesNoEnabled op)
      initial ops := by
  have hstep :
      ∀ (s : SharedTable κ) (op : SharedOp κ) (s' : SharedTable κ),
        s.Consistent ∧ s.QueuedDead → True → s.step op = some s' →
        s.EnablesUnqueued op →
        (s'.Consistent ∧ s'.QueuedDead) ∧ s.RemovesNoEnabled op := by
    rintro s op s' ⟨hc, hs⟩ _ hs' hguard
    have hsafe := hs.removesNoEnabled op
    exact ⟨⟨hc.step hsafe hs', hs.step hc hguard hs'⟩, hsafe⟩
  refine everyStep_transfer hstep ⟨initial_consistent, ?_⟩
    (fun _ _ => trivial) hguard
  intro p h hp
  cases hp

end SharedTable

end Hohnor
