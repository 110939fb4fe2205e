import Hohnor.IOHandler
import Hohnor.TransitionRuns
import Mathlib.Tactic

/-!
# Lifetimes of handlers while a batch is dispatched

epoll stores a raw pointer to each registered handler, and
`EventLoop::loop` calls retEvents and run on the pointers of one batch.
Callbacks run in between; they may drop the last shared_ptr of any handler.
The destructor takes the handler out of epoll, but not out of the batch and
not from under a run() that is still going on.

A handler is a slot that ages: unborn, owned, destroyed.  A use of a handler
that is not owned has no result.  `dispatch_live_iff` says for which callbacks
a whole batch has a result.
-/

namespace Hohnor

open TransitionRuns

/-- The life of one handler object; `others` counts its owning shared_ptrs
beside one. -/
inductive HandlerSlot (κ : Type) where
  | unborn
  | owned (handler : IOHandler κ) (others : Nat)
  | destroyed
deriving DecidableEq, Repr

/-- What may become of a handler object. -/
inductive HandlerSlot.Ages {κ : Type} :
    HandlerSlot κ → HandlerSlot κ → Prop
  | born (slot : HandlerSlot κ) : Ages .unborn slot
  | used (x y : IOHandler κ) (n m : Nat) :
      Ages (.owned x n) (.owned y m)
  | dropped (x : IOHandler κ) (n : Nat) : Ages (.owned x n) .destroyed
  | gone : Ages .destroyed .destroyed

theorem HandlerSlot.Ages.refl
    {κ : Type} (slot : HandlerSlot κ) :
    Ages slot slot := by
  cases slot with
  | unborn =>
      exact .born _
  | owned x n =>
      exact .used x x n n
  | destroyed =>
      exact .gone

theorem HandlerSlot.Ages.trans
    {κ : Type} {a b c : HandlerSlot κ}
    (hab : Ages a b) (hbc : Ages b c) :
    Ages a c := by
  cases hab with
  | born slot =>
      exact .born c
  | used x y n m =>
      cases hbc with
      | used _ z _ l =>
          exact .used x z n l
      | dropped _ _ =>
          exact .dropped x n
  | dropped x n =>
      cases hbc with
      | gone =>
          exact .dropped x n
  | gone =>
      exact hbc

/-- All handler objects, and those whose pointers epoll holds. -/
structure HandlerWorld (κ : Type) where
  slots : Nat → HandlerSlot κ
  interest : List Nat

namespace HandlerWorld

variable {κ : Type}

def IsAlive (w : HandlerWorld κ) (h : Nat) : Prop :=
  ∃ x n, w.slots h = .owned x n

def IsDestroyed (w : HandlerWorld κ) (h : Nat) : Prop :=
  w.slots h = .destroyed

/-- Access a handler through its raw pointer. -/
def deref (w : HandlerWorld κ) (h : Nat) : Option (IOHandler κ) :=
  match w.slots h with
  | .owned x _ => some x
  | _ => none

/-- Store to the fields of a handler. -/
def setHandler (w : HandlerWorld κ) (h : Nat) (x : IOHandler κ) :
    HandlerWorld κ :=
  match w.slots h with
  | .owned _ n =>
      { w with slots := Function.update w.slots h (.owned x n) }
  | _ => w

/-- A shared_ptr to the handler is dropped.  With the last one goes the
handler, and its destructor takes it out of epoll. -/
def dropOwner (w : HandlerWorld κ) (h : Nat) : HandlerWorld κ :=
  match w.slots h with
  | .owned x (n + 1) =>
      { w with slots := Function.update w.slots h (.owned x n) }
  | .owned _ 0 =>
      { slots := Function.update w.slots h .destroyed
        interest := w.interest.filter (· ≠ h) }
  | _ => w

/-- epoll holds pointers to living handlers only. -/
def Registered (w : HandlerWorld κ) : Prop :=
  ∀ h ∈ w.interest, w.IsAlive h

/-- Every handler object of `w` has aged to what it is in `w'`. -/
def Ages (w w' : HandlerWorld κ) : Prop :=
  ∀ h, (w.slots h).Ages (w'.slots h)

/-- `h` is not destroyed between `w` and `w'`. -/
def KeepsAlive (w w' : HandlerWorld κ) (h : Nat) : Prop :=
  w.IsAlive h → w'.IsAlive h

theorem isAlive_iff_deref
    (w : HandlerWorld κ) (h : Nat) :
    w.IsAlive h ↔ ∃ x, w.deref h = some x := by
  rw [IsAlive, deref]
  cases w.slots h with
  | unborn =>
      simp
  | owned x n =>
      simp
  | destroyed =>
      simp

theorem deref_of_destroyed
    {w : HandlerWorld κ} {h : Nat}
    (hdestroyed : w.IsDestroyed h) :
    w.deref h = none := by
  rw [deref]
  rw [hdestroyed]

theorem Ages.refl
    (w : HandlerWorld κ) :
    w.Ages w :=
  fun h => .refl (w.slots h)

theorem Ages.trans
    {w w' w'' : HandlerWorld κ}
    (h : w.Ages w') (h' : w'.Ages w'') :
    w.Ages w'' :=
  fun i => (h i).trans (h' i)

/-- A destroyed handler stays destroyed. -/
theorem Ages.destroyed
    {w w' : HandlerWorld κ} (hages : w.Ages w') {h : Nat}
    (hdestroyed : w.IsDestroyed h) :
    w'.IsDestroyed h := by
  have hslot := hages h
  rw [IsDestroyed] at hdestroyed ⊢
  rw [hdestroyed] at hslot
  generalize w'.slots h = slot at hslot ⊢
  cases hslot
  rfl

theorem Ages.alive_or_destroyed
    {w w' : HandlerWorld κ} (hages : w.Ages w') {h : Nat}
    (halive : w.IsAlive h) :
    w'.IsAlive h ∨ w'.IsDestroyed h := by
  obtain ⟨x, n, hx⟩ := halive
  have hslot := hages h
  rw [hx] at hslot
  rw [IsAlive, IsDestroyed]
  generalize w'.slots h = slot at hslot ⊢
  cases hslot with
  | used _ y _ m =>
      exact Or.inl ⟨y, m, rfl⟩
  | dropped _ _ =>
      exact Or.inr rfl

theorem setHandler_ages
    (w : HandlerWorld κ) (h : Nat) (x : IOHandler κ) :
    w.Ages (w.setHandler h x) := by
  intro g
  rw [setHandler]
  split
  · rename_i y n hslot
    by_cases hg : g = h
    · subst hg
      simp only [hslot, Function.update_self]
      exact .used y x n n
    · simp only [Function.update_of_ne hg]
      exact .refl _
  · exact .refl _

/-- Storing to a handler destroys none. -/
theorem setHandler_alive
    {w : HandlerWorld κ} {h g : Nat} (x : IOHandler κ)
    (halive : w.IsAlive g) :
    (w.setHandler h x).IsAlive g := by
  rw [setHandler]
  split
  · rename_i y n hslot
    by_cases hg : g = h
    · subst hg
      exact ⟨x, n, Function.update_self ..⟩
    · obtain ⟨z, m, hz⟩ := halive
      exact ⟨z, m, (Function.update_of_ne hg ..).trans hz⟩
  · exact halive

theorem setHandler_registered
    {w : HandlerWorld κ} (hw : w.Registered) (h : Nat)
    (x : IOHandler κ) :
    (w.setHandler h x).Registered := by
  have hinterest : (w.setHandler h x).interest = w.interest := by
    rw [setHandler]
    split <;> rfl
  intro g hg
  rw [hinterest] at hg
  exact setHandler_alive x (hw g hg)

end HandlerWorld

/-- What each user callback does. -/
abbrev HandlerCode (κ : Type) := κ → HandlerWorld κ → HandlerWorld κ

/-- Callbacks cannot bring a destroyed handler back, and epoll holds no
destroyed handler after them: the destructor removes it. -/
structure LegalCode {κ : Type} (code : HandlerCode κ) : Prop where
  ages : ∀ k (w : HandlerWorld κ), w.Ages (code k w)
  registered :
    ∀ k (w : HandlerWorld κ), w.Registered → (code k w).Registered

/-- One of the four tests of `IOHandler::run` with the callback it calls. -/
structure RunPhase (κ : Type) where
  triggered : EventMask → Bool
  callback : IOHandler κ → Option κ

namespace HandlerWorld

variable {κ : Type}

/-- The tests of `IOHandler::run`, in their order. -/
def runPhases : List (RunPhase κ) :=
  [⟨fun revents => revents.EPOLLHUP && !revents.EPOLLIN,
      IOHandler.closeCallback_⟩,
    ⟨fun revents => revents.EPOLLERR, IOHandler.errorCallback_⟩,
    ⟨fun revents =>
        revents.EPOLLIN || revents.EPOLLPRI || revents.EPOLLRDHUP,
      IOHandler.readCallback_⟩,
    ⟨fun revents => revents.EPOLLOUT, IOHandler.writeCallback_⟩]

/-- One test on the fields of the handler, and the call. -/
def runPhase
    (code : HandlerCode κ) (p : RunPhase κ) (x : IOHandler κ)
    (w : HandlerWorld κ) : HandlerWorld κ :=
  if p.triggered x.revents_ then
    match p.callback x with
    | none => w
    | some k => code k w
  else
    w

/-- The tests one after the other; each reads the fields of the handler. -/
def runFrom (code : HandlerCode κ) (h : Nat) :
    List (RunPhase κ) → HandlerWorld κ → Option (HandlerWorld κ)
  | [], w => some w
  | p :: ps, w =>
      (w.deref h).bind fun x =>
        runFrom code h ps (runPhase code p x w)

/-- `IOHandler::run`. -/
def run (code : HandlerCode κ) (h : Nat) (w : HandlerWorld κ) :
    Option (HandlerWorld κ) :=
  (w.deref h).bind fun x =>
    if x.isEnabled then runFrom code h runPhases w else some w

/-- `IOHandler::retEvents`. -/
def retEvents (h : Nat) (revents : EventMask) (w : HandlerWorld κ) :
    Option (HandlerWorld κ) :=
  (w.deref h).map fun x => w.setHandler h (x.retEvents revents)

/-- The dispatch of one batch in `EventLoop::loop`. -/
def dispatch (code : HandlerCode κ) :
    List (Nat × EventMask) → HandlerWorld κ → Option (HandlerWorld κ)
  | [], w => some w
  | event :: events, w =>
      (retEvents event.1 event.2 w).bind fun w1 =>
        (run code event.1 w1).bind (dispatch code events)

theorem runPhase_ages
    {code : HandlerCode κ} (hcode : LegalCode code)
    (p : RunPhase κ) (x : IOHandler κ) (w : HandlerWorld κ) :
    w.Ages (runPhase code p x w) := by
  rw [runPhase]
  split
  · split
    · exact .refl w
    · exact hcode.ages _ w
  · exact .refl w

theorem runPhase_registered
    {code : HandlerCode κ} (hcode : LegalCode code)
    (p : RunPhase κ) (x : IOHandler κ) {w : HandlerWorld κ}
    (hw : w.Registered) :
    (runPhase code p x w).Registered := by
  unfold runPhase
  split
  · split
    · exact hw
    · exact hcode.registered _ w hw
  · exact hw

theorem runFrom_keeps
    {code : HandlerCode κ} (hcode : LegalCode code)
    {h : Nat} {ps : List (RunPhase κ)} {w w' : HandlerWorld κ}
    (hrun : runFrom code h ps w = some w') :
    w.Ages w' ∧ (w.Registered → w'.Registered) := by
  induction ps generalizing w with
  | nil =>
      cases hrun
      exact ⟨.refl _, id⟩
  | cons p ps ih =>
      obtain ⟨x, _, hrest⟩ := Option.bind_eq_some_iff.mp hrun
      obtain ⟨hages, hreg⟩ := ih hrest
      refine ⟨(runPhase_ages hcode p x w).trans hages, ?_⟩
      intro hw
      exact hreg (runPhase_registered hcode p x hw)

theorem run_keeps
    {code : HandlerCode κ} (hcode : LegalCode code)
    {h : Nat} {w w' : HandlerWorld κ}
    (hrun : run code h w = some w') :
    w.Ages w' ∧ (w.Registered → w'.Registered) := by
  obtain ⟨x, _, hrest⟩ := Option.bind_eq_some_iff.mp hrun
  split at hrest
  · exact runFrom_keeps hcode hrest
  · cases hrest
    exact ⟨.refl w, id⟩

theorem retEvents_keeps
    {h : Nat} {revents : EventMask} {w w' : HandlerWorld κ}
    (hret : retEvents h revents w = some w') :
    w.Ages w' ∧ (w.Registered → w'.Registered) ∧
    ∀ g, w.IsAlive g → w'.IsAlive g := by
  obtain ⟨x, _, rfl⟩ := Option.map_eq_some_iff.mp hret
  exact ⟨setHandler_ages w h _,
    fun hw => setHandler_registered hw h _,
    fun g hg => setHandler_alive _ hg⟩

theorem dispatch_keeps
    {code : HandlerCode κ} (hcode : LegalCode code)
    {events : List (Nat × EventMask)} {w w' : HandlerWorld κ}
    (hdispatch : dispatch code events w = some w') :
    w.Ages w' ∧ (w.Registered → w'.Registered) := by
  induction events generalizing w with
  | nil =>
      cases hdispatch
      exact ⟨.refl _, id⟩
  | cons event events ih =>
      obtain ⟨w1, hret, hrest⟩ := Option.bind_eq_some_iff.mp hdispatch
      obtain ⟨w2, hrun, hlater⟩ := Option.bind_eq_some_iff.mp hrest
      obtain ⟨hages1, hreg1, _⟩ := retEvents_keeps hret
      obtain ⟨hages2, hreg2⟩ := run_keeps hcode hrun
      obtain ⟨hages3, hreg3⟩ := ih hlater
      refine ⟨(hages1.trans hages2).trans hages3, ?_⟩
      intro hw
      exact hreg3 (hreg2 (hreg1 hw))

/-- A batch with a destroyed handler is not dispatched to its end. -/
theorem dispatch_of_destroyed
    {code : HandlerCode κ} (hcode : LegalCode code)
    {events : List (Nat × EventMask)} {w : HandlerWorld κ}
    {h : Nat}
    (hmem : h ∈ events.map Prod.fst)
    (hdestroyed : w.IsDestroyed h) :
    dispatch code events w = none := by
  induction events generalizing w with
  | nil =>
      simp at hmem
  | cons event events ih =>
      rw [Option.eq_none_iff_forall_not_mem]
      intro w' hdispatch
      obtain ⟨w1, hret, hrest⟩ := Option.bind_eq_some_iff.mp hdispatch
      obtain ⟨w2, hrun, hlater⟩ := Option.bind_eq_some_iff.mp hrest
      rw [List.map_cons, List.mem_cons] at hmem
      rcases hmem with hself | hlaterMem
      · subst hself
        unfold retEvents at hret
        rw [deref_of_destroyed hdestroyed] at hret
        exact absurd hret (by simp)
      · have hgone : w2.IsDestroyed h :=
          ((retEvents_keeps hret).1.trans
            (run_keeps hcode hrun).1).destroyed hdestroyed
        rw [ih hlaterMem hgone] at hlater
        exact absurd hlater (by simp)

/-- Along the tests of one run: a callback keeps the handlers of the events
that come later, and one that is not the last also keeps its own handler. -/
def RunKeeps (code : HandlerCode κ) (h : Nat) (later : List Nat) :
    List (RunPhase κ) → HandlerWorld κ → Prop
  | [], _ => True
  | p :: ps, w =>
      ∀ x, w.deref h = some x →
        (ps ≠ [] → w.KeepsAlive (runPhase code p x w) h) ∧
        (∀ g ∈ later, w.KeepsAlive (runPhase code p x w) g) ∧
        RunKeeps code h later ps (runPhase code p x w)

/-- Along the dispatch of a batch: no callback destroys the handler of an event
that comes later, and no close, error or read callback its own. -/
def BatchKeeps (code : HandlerCode κ) :
    List (Nat × EventMask) → HandlerWorld κ → Prop
  | [], _ => True
  | event :: events, w =>
      ∀ w1, retEvents event.1 event.2 w = some w1 →
        (∀ x, w1.deref event.1 = some x → x.isEnabled = true →
          RunKeeps code event.1 (events.map Prod.fst) runPhases w1) ∧
        ∀ w2, run code event.1 w1 = some w2 →
          BatchKeeps code events w2

/-- The tests of one run end with the later handlers alive exactly when the
callbacks keep what is still needed. -/
theorem runFrom_iff
    {code : HandlerCode κ} (hcode : LegalCode code)
    {h : Nat} {later : List Nat}
    (ps : List (RunPhase κ)) {w : HandlerWorld κ}
    (hself : ps ≠ [] → w.IsAlive h)
    (hlater : ∀ g ∈ later, w.IsAlive g) :
    (∃ w', runFrom code h ps w = some w' ∧
      ∀ g ∈ later, w'.IsAlive g) ↔
    RunKeeps code h later ps w := by
  induction ps generalizing w with
  | nil =>
      simp only [RunKeeps, iff_true]
      exact ⟨w, rfl, hlater⟩
  | cons p ps ih =>
      obtain ⟨x, hx⟩ :=
        (isAlive_iff_deref w h).mp (hself (List.cons_ne_nil p ps))
      have hages := runPhase_ages hcode p x w
      have hstep :
          runFrom code h (p :: ps) w =
            runFrom code h ps (runPhase code p x w) := by
        rw [runFrom, hx, Option.bind_some]
      rw [hstep]
      constructor
      · rintro ⟨w', hw', hend⟩ y hy
        rw [hx, Option.some.injEq] at hy
        subst hy
        have hselfNext :
            ps ≠ [] → (runPhase code p x w).IsAlive h := by
          intro hps
          rw [isAlive_iff_deref]
          cases ps with
          | nil =>
              exact absurd rfl hps
          | cons q qs =>
              obtain ⟨y, hy, _⟩ := Option.bind_eq_some_iff.mp hw'
              exact ⟨y, hy⟩
        have hlaterNext :
            ∀ g ∈ later, (runPhase code p x w).IsAlive g := by
          intro g hg
          rcases hages.alive_or_destroyed (hlater g hg) with
            halive | hgone
          · exact halive
          · -- a destroyed handler would still be destroyed at the end
            have hgone' := (runFrom_keeps hcode hw').1.destroyed hgone
            obtain ⟨z, n, hz⟩ := hend g hg
            rw [IsDestroyed] at hgone'
            rw [hz] at hgone'
            exact absurd hgone' (by simp)
        refine ⟨fun hps _ => hselfNext hps,
          fun g hg _ => hlaterNext g hg, ?_⟩
        exact (ih hselfNext hlaterNext).mp ⟨w', hw', hend⟩
      · intro hkeeps
        obtain ⟨hkeepSelf, hkeepLater, hrest⟩ := hkeeps x hx
        refine (ih ?_ ?_).mpr hrest
        · intro hps
          exact hkeepSelf hps (hself (List.cons_ne_nil p ps))
        · intro g hg
          exact hkeepLater g hg (hlater g hg)

/-- run() of a living handler. -/
theorem run_iff
    {code : HandlerCode κ} (hcode : LegalCode code)
    {h : Nat} (later : List Nat) {w : HandlerWorld κ}
    (hself : w.IsAlive h)
    (hlater : ∀ g ∈ later, w.IsAlive g) :
    (∃ w', run code h w = some w' ∧ ∀ g ∈ later, w'.IsAlive g) ↔
      ∀ x, w.deref h = some x → x.isEnabled = true →
        RunKeeps code h later runPhases w := by
  obtain ⟨x, hx⟩ := (isAlive_iff_deref w h).mp hself
  have hphases :=
    runFrom_iff hcode runPhases (fun _ => hself) hlater
  rw [run, hx, Option.bind_some]
  simp only [Option.some.injEq, forall_eq']
  by_cases henabled : x.isEnabled = true
  · rw [if_pos henabled, hphases]
    exact ⟨fun hkeeps _ => hkeeps, fun hkeeps => hkeeps henabled⟩
  · rw [if_neg henabled]
    exact ⟨fun _ h => absurd h henabled, fun _ => ⟨w, rfl, hlater⟩⟩

/-- A batch of living handlers is dispatched without a use of a destroyed one
exactly when the callbacks keep what is still needed. -/
theorem dispatch_iff
    {code : HandlerCode κ} (hcode : LegalCode code)
    (events : List (Nat × EventMask)) {w : HandlerWorld κ}
    (hw : ∀ h ∈ events.map Prod.fst, w.IsAlive h) :
    (∃ w', dispatch code events w = some w') ↔
      BatchKeeps code events w := by
  induction events generalizing w with
  | nil =>
      simp [dispatch, BatchKeeps]
  | cons event events ih =>
      rw [List.map_cons] at hw
      obtain ⟨x, hx⟩ :=
        (isAlive_iff_deref w event.1).mp
          (hw event.1 (List.mem_cons_self ..))
      have hret :
          retEvents event.1 event.2 w =
            some (w.setHandler event.1 (x.retEvents event.2)) := by
        rw [retEvents, hx, Option.map_some]
      obtain ⟨_, _, hsame⟩ := retEvents_keeps hret
      have hself := hsame event.1 (hw event.1 (List.mem_cons_self ..))
      have hlater : ∀ g ∈ events.map Prod.fst,
          (w.setHandler event.1 (x.retEvents event.2)).IsAlive g :=
        fun g hg => hsame g (hw g (List.mem_cons_of_mem _ hg))
      have hrun :=
        run_iff hcode (events.map Prod.fst) hself hlater
      rw [dispatch, hret, Option.bind_some, BatchKeeps]
      simp only [hret, Option.some.injEq, forall_eq']
      rw [← hrun]
      constructor
      · rintro ⟨w', hw'⟩
        obtain ⟨w2, hrun2, hrest⟩ := Option.bind_eq_some_iff.mp hw'
        have hlater2 :
            ∀ g ∈ events.map Prod.fst, w2.IsAlive g := by
          intro g hg
          rcases (run_keeps hcode hrun2).1.alive_or_destroyed
            (hlater g hg) with halive | hgone
          · exact halive
          · rw [dispatch_of_destroyed hcode hg hgone] at hrest
            exact absurd hrest (by simp)
        refine ⟨⟨w2, hrun2, hlater2⟩, ?_⟩
        intro w3 hrun3
        rw [hrun2, Option.some.injEq] at hrun3
        subst hrun3
        exact (ih hlater2).mp ⟨w', hrest⟩
      · rintro ⟨⟨w2, hrun2, hlater2⟩, hkeeps⟩
        obtain ⟨w', hw'⟩ := (ih hlater2).mpr (hkeeps w2 hrun2)
        exact ⟨w', by rw [hrun2]; exact hw'⟩

end HandlerWorld

/-- What the loop thread does with handlers: it dispatches a batch, or it runs
user code from its queue. -/
inductive DispatchOp (κ : Type) where
  | batch (events : List (Nat × EventMask))
  | functor (k : κ)

namespace HandlerWorld

variable {κ : Type}

def loopStep (code : HandlerCode κ) (w : HandlerWorld κ) :
    DispatchOp κ → Option (HandlerWorld κ)
  | .batch events => dispatch code events w
  | .functor k => some (code k w)

/-- epoll returns at most one event for each registered handler. -/
def FromEpoll (w : HandlerWorld κ) : DispatchOp κ → Prop
  | .batch events =>
      (events.map Prod.fst).Nodup ∧
        ∀ h ∈ events.map Prod.fst, h ∈ w.interest
  | .functor _ => True

/-- Every handler that the step dispatches to, or reads after a callback, is
alive. -/
def UsesLiving
    (code : HandlerCode κ) (w : HandlerWorld κ) (op : DispatchOp κ) :
    Prop :=
  ∃ w', loopStep code w op = some w'

/-- The callbacks that a batch calls keep what is still needed. -/
def CallbacksKeep (code : HandlerCode κ) (w : HandlerWorld κ) :
    DispatchOp κ → Prop
  | .batch events => BatchKeeps code events w
  | .functor _ => True

theorem loopStep_registered
    {code : HandlerCode κ} (hcode : LegalCode code)
    {w w' : HandlerWorld κ} {op : DispatchOp κ}
    (hw : w.Registered)
    (hstep : loopStep code w op = some w') :
    w'.Registered := by
  cases op with
  | batch events =>
      exact (dispatch_keeps hcode hstep).2 hw
  | functor k =>
      cases hstep
      exact hcode.registered k w hw

theorem usesLiving_iff
    {code : HandlerCode κ} (hcode : LegalCode code)
    {w : HandlerWorld κ} {op : DispatchOp κ}
    (hw : w.Registered)
    (hop : w.FromEpoll op) :
    UsesLiving code w op ↔ CallbacksKeep code w op := by
  cases op with
  | batch events =>
      exact dispatch_iff hcode events (fun h hh => hw h (hop.2 h hh))
  | functor k =>
      exact ⟨fun _ => trivial, fun _ => ⟨_, rfl⟩⟩

/-- Dropping an owner is legal for a callback. -/
theorem dropOwner_legal :
    LegalCode (fun (h : Nat) (w : HandlerWorld Nat) =>
      w.dropOwner h) := by
  refine ⟨?_, ?_⟩
  · intro h w g
    rw [dropOwner]
    split
    · rename_i x n hslot
      by_cases hg : g = h
      · subst hg
        simp only [hslot, Function.update_self]
        exact .used x x _ n
      · simp only [Function.update_of_ne hg]
        exact .refl _
    · rename_i x hslot
      by_cases hg : g = h
      · subst hg
        simp only [hslot, Function.update_self]
        exact .dropped x 0
      · simp only [Function.update_of_ne hg]
        exact .refl _
    · exact .refl _
  · intro h w hw g hg
    rw [dropOwner] at hg ⊢
    split at hg
    · rename_i x n hslot
      by_cases hgh : g = h
      · subst hgh
        exact ⟨x, n, Function.update_self ..⟩
      · obtain ⟨y, m, hy⟩ := hw g hg
        exact ⟨y, m, (Function.update_of_ne hgh ..).trans hy⟩
    · rename_i x hslot
      simp only [List.mem_filter, ne_eq, decide_not, Bool.not_eq_eq_eq_not,
        Bool.not_true, decide_eq_false_iff_not] at hg
      obtain ⟨y, m, hy⟩ := hw g hg.1
      exact ⟨y, m, (Function.update_of_ne hg.2 ..).trans hy⟩
    · exact hw g hg

end HandlerWorld

/-- No handler is used after its destruction, whatever the callbacks do. -/
def NoUseAfterDestruction : Prop :=
  ∀ (κ : Type) (code : HandlerCode κ) (w : HandlerWorld κ)
    (ops : List (DispatchOp κ)),
    LegalCode code →
    w.Registered →
    Along (HandlerWorld.loopStep code) HandlerWorld.FromEpoll w ops →
    Along (HandlerWorld.loopStep code)
      (HandlerWorld.UsesLiving code) w ops

/-- One client, owned only by the server's map, whose read callback erases it
from the map. -/
def oneClient : HandlerWorld Nat where
  slots := fun h =>
    if h = 0 then
      .owned
        { (IOHandler.create 5 : IOHandler Nat) with
          status_ := .Enabled
          events_ := { EventMask.none with EPOLLIN := true }
          readCallback_ := some 0 } 0
    else
      .unborn
  interest := [0]

/-- Its socket becomes readable. -/
def clientReadable : List (DispatchOp Nat) :=
  [.batch [(0, { EventMask.none with EPOLLIN := true })]]

theorem oneClient_registered :
    oneClient.Registered := by
  intro h hh
  simp only [oneClient, List.mem_singleton] at hh
  subst hh
  exact ⟨_, _, rfl⟩

theorem clientReadable_fromEpoll :
    Along
      (HandlerWorld.loopStep fun (h : Nat) (w : HandlerWorld Nat) =>
        w.dropOwner h)
      HandlerWorld.FromEpoll oneClient clientReadable := by
  refine ⟨⟨by simp, ?_⟩, fun _ _ => trivial⟩
  intro h hh
  simpa [oneClient] using hh

/-- run() reads `revents_` of the client that its read callback destroyed. -/
theorem run_reads_destroyed_handler :
    ¬ NoUseAfterDestruction := by
  intro hnone
  have hrun :=
    hnone Nat (fun h w => w.dropOwner h) oneClient clientReadable
      HandlerWorld.dropOwner_legal oneClient_registered
      clientReadable_fromEpoll
  obtain ⟨w', hw'⟩ := hrun.1
  have hlost :
      (HandlerWorld.loopStep
        (fun (h : Nat) (w : HandlerWorld Nat) => w.dropOwner h)
        oneClient
        (.batch [(0, { EventMask.none with EPOLLIN := true })])).isNone =
        true := by
    decide
  rw [hw'] at hlost
  exact absurd hlost (by simp)

/-- **Handler lifetimes.**  In every run of the loop, every handler that is
dispatched to or read after a callback is alive exactly when no callback called
for a batch destroys the handler of a later event of that batch, and no close,
error or read callback its own. -/
theorem dispatch_live_iff
    {κ : Type}
    (code : HandlerCode κ)
    (hcode : LegalCode code)
    (w : HandlerWorld κ)
    (hw : w.Registered)
    (ops : List (DispatchOp κ))
    (hops :
      Along (HandlerWorld.loopStep code) HandlerWorld.FromEpoll w
        ops) :
    Along (HandlerWorld.loopStep code)
        (HandlerWorld.UsesLiving code) w ops ↔
      Along (HandlerWorld.loopStep code)
        (HandlerWorld.CallbacksKeep code) w ops := by
  refine along_iff HandlerWorld.Registered ?_ ?_ hw
    (fun _ _ => trivial) hops
  · intro w op hw _ hop
    exact HandlerWorld.usesLiving_iff hcode hw hop
  · intro w op w' hw _ hstep
    exact HandlerWorld.loopStep_registered hcode hw hstep

theorem dispatch_live_iff_sample :
    Along
        (HandlerWorld.loopStep
          fun (h : Nat) (w : HandlerWorld Nat) => w.dropOwner h)
        (HandlerWorld.UsesLiving
          fun (h : Nat) (w : HandlerWorld Nat) => w.dropOwner h)
        oneClient clientReadable ↔
      Along
        (HandlerWorld.loopStep
          fun (h : Nat) (w : HandlerWorld Nat) => w.dropOwner h)
        (HandlerWorld.CallbacksKeep
          fun (h : Nat) (w : HandlerWorld Nat) => w.dropOwner h)
        oneClient clientReadable :=
  dispatch_live_iff (fun h w => w.dropOwner h)
    HandlerWorld.dropOwner_legal oneClient oneClient_registered
    clientReadable clientReadable_fromEpoll

end Hohnor
