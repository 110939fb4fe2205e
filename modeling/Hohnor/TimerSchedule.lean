import Hohnor.TimerQueue

/-!
# When timers run

The life of one timer is its handler, the runs of its callback so far, and where
the handler is: waiting in the heap or in a pending functor, inside of its
callback, or retired.  A repeating handler leaves the heap, may be disabled or
updated by its own callback, and goes back through the functors with its next
expiration.  So the expiration of a waiting handler counts its runs.

Every step of the queue is a step in the life of one timer at most.
-/

namespace Hohnor

open TransitionRuns

section TimerSchedule

variable {κ : Type}

/-- The expiration_ with which a callback was called, and the time. -/
structure TimerRun where
  expiration : Int
  now : Int
deriving DecidableEq, Repr

inductive TimerPlace where
  | waiting
  | running
  | retired
deriving DecidableEq, Repr

structure TimerLife (κ : Type) where
  handler : TimerHandler κ
  place : TimerPlace
  runs : List TimerRun

/-- After its callback, or without one to call, a handler goes back to wait if
it repeats, and is retired if not. -/
def TimerLife.next (t : TimerLife κ) : TimerLife κ :=
  if t.handler.isRepeat then
    { t with
      handler := t.handler.clearUnlessRepeat.reloadInLoop
      place := .waiting }
  else
    { t with
      handler := { t.handler.clearUnlessRepeat with disabled_ := true }
      place := .retired }

/-- A timer added for `expiration` with `interval` has run on schedule, and
waits for the next run unless it has been disabled. -/
structure OnSchedule
    (expiration : Int) (interval : Option Nat)
    (t : TimerLife κ) : Prop where
  runs :
    ∀ (k : Nat) (r : TimerRun), t.runs[k]? = some r →
      r.expiration = expiration + k * interval.getD 0 ∧
      r.expiration ≤ r.now
  once : interval = none → t.runs.length ≤ 1
  active :
    t.handler.disabled_ = false →
      t.handler.interval_ = interval ∧
      ∃ cb, t.handler.callback_ = some cb
  stopped : t.handler.disabled_ = true → t.handler.interval_ = none
  waiting :
    t.place = .waiting → t.handler.disabled_ = false →
      t.handler.expiration_ =
        expiration + t.runs.length * interval.getD 0 ∧
      (interval = none → t.runs = [])
  running :
    t.place = .running →
      t.handler.expiration_ + interval.getD 0 =
        expiration + t.runs.length * interval.getD 0
  retired : t.place = .retired → t.handler.disabled_ = true

namespace OnSchedule

variable {expiration : Int} {interval : Option Nat}
variable {t : TimerLife κ}

theorem added
    (cb : κ) (seq : Nat) :
    OnSchedule expiration interval
      { handler := .create cb expiration interval seq
        place := .waiting
        runs := [] } where
  runs := by
    simp
  once := by
    simp
  active := by
    simp [TimerHandler.create]
  stopped := by
    simp [TimerHandler.create]
  waiting := by
    simp [TimerHandler.create]
  running := by
    simp
  retired := by
    simp

theorem disable
    (ht : OnSchedule expiration interval t) :
    OnSchedule expiration interval
      { t with handler := t.handler.disable } := by
  unfold TimerHandler.disable
  split
  · exact ht
  · exact
      { runs := ht.runs
        once := ht.once
        active := by simp
        stopped := by simp
        waiting := by simp
        running := ht.running
        retired := by simp }

theorem updateCallback
    (ht : OnSchedule expiration interval t) (cb : κ) :
    OnSchedule expiration interval
      { t with handler := t.handler.updateCallback cb } := by
  unfold TimerHandler.updateCallback
  split
  · exact ht
  · rename_i hon
    rw [Bool.not_eq_true] at hon
    exact
      { runs := ht.runs
        once := ht.once
        active := fun _ => ⟨(ht.active hon).1, cb, rfl⟩
        stopped := ht.stopped
        waiting := ht.waiting
        running := ht.running
        retired := ht.retired }

/-- The callback of a waiting handler that is due is called. -/
theorem call
    (ht : OnSchedule expiration interval t)
    (hplace : t.place = .waiting)
    (hon : t.handler.disabled_ = false)
    {now : Int} (hdue : t.handler.expiration_ ≤ now) :
    OnSchedule expiration interval
      { t with
        place := .running
        runs := t.runs ++ [⟨t.handler.expiration_, now⟩] } := by
  obtain ⟨hexp, hfirst⟩ := ht.waiting hplace hon
  exact
    { runs := by
        intro k r hr
        rcases Nat.lt_or_ge k t.runs.length with hlt | hge
        · rw [List.getElem?_append_left hlt] at hr
          exact ht.runs k r hr
        · have hk : k = t.runs.length := by
            have := (List.getElem?_eq_some_iff.mp hr).1
            simp at this
            omega
          subst hk
          simp only [List.getElem?_concat_length,
            Option.some.injEq] at hr
          subst hr
          exact ⟨hexp, hdue⟩
      once := by
        intro hone
        simp [hfirst hone]
      active := ht.active
      stopped := ht.stopped
      waiting := by simp
      running := by
        intro _
        simp only [List.length_append, List.length_singleton]
        rw [hexp, Int.natCast_succ, Int.add_mul, Int.one_mul,
          Int.add_assoc]
      retired := by simp }

theorem next
    (ht : OnSchedule expiration interval t)
    (hnext :
      t.handler.disabled_ = false →
        t.handler.expiration_ + interval.getD 0 =
          expiration + t.runs.length * interval.getD 0) :
    OnSchedule expiration interval t.next := by
  unfold TimerLife.next TimerHandler.clearUnlessRepeat
  cases hint : t.handler.interval_ with
  | none =>
      simp only [TimerHandler.isRepeat, hint, Option.isSome_none,
        Bool.false_eq_true, if_false]
      exact
        { runs := ht.runs
          once := ht.once
          active := by simp
          stopped := fun _ => rfl
          waiting := by simp
          running := by simp
          retired := by simp }
  | some d =>
      have hon : t.handler.disabled_ = false := by
        cases hdis : t.handler.disabled_ with
        | false =>
            rfl
        | true =>
            rw [ht.stopped hdis] at hint
            cases hint
      have hsame : interval = some d := by
        rw [← (ht.active hon).1, hint]
      have hexp := hnext hon
      subst hsame
      simp only [TimerHandler.isRepeat, hint, Option.isSome_some,
        if_true, TimerHandler.reloadInLoop]
      exact
        { runs := ht.runs
          once := ht.once
          active := fun _ => ⟨rfl, (ht.active hon).2⟩
          stopped := by simp [hon]
          waiting := fun _ _ => ⟨hexp, by simp⟩
          running := by simp
          retired := by simp }

end OnSchedule

def TimerEvent.seq : TimerEvent κ → Nat
  | .added seq _ _ => seq
  | .disabled seq => seq
  | .ran seq _ _ _ => seq

def TimerEvent.run? (seq : Nat) : TimerEvent κ → Option TimerRun
  | .ran seq' _ expiration now =>
      if seq' = seq then some ⟨expiration, now⟩ else none
  | _ => none

/-- The runs of one timer. -/
def runsOf (seq : Nat) (es : List (TimerEvent κ)) : List TimerRun :=
  es.filterMap (TimerEvent.run? seq)

theorem runsOf_append
    (seq : Nat) (es es' : List (TimerEvent κ)) :
    runsOf seq (es ++ es') = runsOf seq es ++ runsOf seq es' :=
  List.filterMap_append

@[simp] theorem runsOf_added
    (seq seq' : Nat) (expiration : Int) (interval : Option Nat) :
    runsOf seq
      ([.added seq' expiration interval] : List (TimerEvent κ)) =
        [] := by
  rfl

@[simp] theorem runsOf_disabled
    (seq seq' : Nat) :
    runsOf seq ([.disabled seq'] : List (TimerEvent κ)) = [] := by
  rfl

@[simp] theorem runsOf_ran
    (seq : Nat) (cb : κ) (expiration now : Int) :
    runsOf seq [.ran seq cb expiration now] = [⟨expiration, now⟩] := by
  simp [runsOf, TimerEvent.run?]

theorem run?_of_ne
    {seq : Nat} {ev : TimerEvent κ} (hne : ev.seq ≠ seq) :
    ev.run? seq = none := by
  cases ev with
  | added seq' expiration interval =>
      rfl
  | disabled seq' =>
      rfl
  | ran seq' cb expiration now =>
      exact if_neg hne

theorem runsOf_eq_nil
    {seq : Nat} {es : List (TimerEvent κ)}
    (hes : ∀ ev ∈ es, ev.seq ≠ seq) :
    runsOf seq es = [] :=
  List.filterMap_eq_nil_iff.mpr (fun ev hev => run?_of_ne (hes ev hev))

/-- After disable() has returned no callback of the timer runs. -/
def QuietAfterDisable (es : List (TimerEvent κ)) : Prop :=
  ∀ before after seq, es = before ++ .disabled seq :: after →
    runsOf seq after = []

theorem QuietAfterDisable.concat
    {es : List (TimerEvent κ)} (hes : QuietAfterDisable es)
    {ev : TimerEvent κ}
    (hev : ∀ seq, .disabled seq ∈ es → ev.run? seq = none) :
    QuietAfterDisable (es ++ [ev]) := by
  intro before after seq hsplit
  rcases List.eq_nil_or_concat after with rfl | ⟨after, last, rfl⟩
  · rfl
  · rw [List.concat_eq_append, ← List.cons_append,
      ← List.append_assoc] at hsplit
    obtain ⟨rfl, hlast⟩ := List.append_inj' hsplit rfl
    cases hlast
    rw [List.concat_eq_append, runsOf_append,
      hes before after seq rfl, List.nil_append]
    have hnone := hev seq (by simp)
    simp [runsOf, hnone]

def ReadPhase.seq? : ReadPhase → Option Nat
  | .calling _ seq => some seq
  | _ => none

namespace TimerQueue

/-- Every place that holds a handler. -/
def names (s : TimerQueue κ) : List Nat :=
  s.heap_ ++ s.functors ++ s.phase.seq?.toList

def life (s : TimerQueue κ) (seq : Nat) : TimerLife κ where
  handler := s.handlers seq
  place :=
    if s.phase.seq? = some seq then .running
    else if seq ∈ s.heap_ ++ s.functors then .waiting
    else .retired
  runs := runsOf seq s.events

theorem life_congr
    {s s' : TimerQueue κ} {seq : Nat}
    (hhandler : s'.handlers seq = s.handlers seq)
    (hphase : s'.phase.seq? = some seq ↔ s.phase.seq? = some seq)
    (hmem :
      seq ∈ s'.heap_ ++ s'.functors ↔ seq ∈ s.heap_ ++ s.functors)
    (hruns : runsOf seq s'.events = runsOf seq s.events) :
    s'.life seq = s.life seq := by
  simp only [life, hhandler, hphase, hmem, hruns]

/-- What holds of a queue and its log at every point. -/
structure Scheduled (s : TimerQueue κ) : Prop where
  nodup : s.names.Nodup
  placed : ∀ seq ∈ s.names, seq ∈ s.created
  below : ∀ seq ∈ s.created, seq < s.s_numCreated_
  logged : ∀ ev ∈ s.events, ev.seq ∈ s.created
  lives :
    ∀ seq expiration interval,
      .added seq expiration interval ∈ s.events →
        OnSchedule expiration interval (s.life seq)
  disabled :
    ∀ seq, .disabled seq ∈ s.events →
      (s.handlers seq).disabled_ = true
  quiet : QuietAfterDisable s.events

theorem Scheduled.heap_created
    {s : TimerQueue κ} (hs : Scheduled s) {seq : Nat}
    (hseq : seq ∈ s.heap_) :
    seq ∈ s.created :=
  hs.placed seq
    (List.mem_append_left _ (List.mem_append_left _ hseq))

theorem initial_scheduled
    (numCreated : Nat) :
    Scheduled (initial numCreated : TimerQueue κ) where
  nodup := by
    simp [names, initial, ReadPhase.seq?]
  placed := by
    simp [names, initial, ReadPhase.seq?]
  below := by
    simp [initial]
  logged := by
    simp [initial]
  lives := by
    simp [initial]
  disabled := by
    simp [initial]
  quiet := by
    intro before after seq hsplit
    simp [initial] at hsplit

/-- The events that a step logs about timers that exist. -/
def Explains (s s' : TimerQueue κ) : TimerEvent κ → Prop
  | .added _ _ _ => False
  | .disabled seq =>
      seq ∈ s.created ∧ (s'.handlers seq).disabled_ = true
  | .ran seq _ _ _ =>
      seq ∈ s.created ∧ (s.handlers seq).disabled_ = false

/-- A step that adds no timer. -/
theorem Scheduled.keep
    {s s' : TimerQueue κ} (hs : Scheduled s)
    {dropped : List Nat} (ev? : Option (TimerEvent κ))
    (hcreated : s'.created = s.created)
    (hnum : s.s_numCreated_ ≤ s'.s_numCreated_)
    (hnames : (dropped ++ s'.names).Perm s.names)
    (hevents : s'.events = s.events ++ ev?.toList)
    (hev : ∀ ev, ev? = some ev → Explains s s' ev)
    (hdisabled :
      ∀ seq, (s.handlers seq).disabled_ = true →
        (s'.handlers seq).disabled_ = true)
    (hlife :
      ∀ seq expiration interval,
        OnSchedule expiration interval (s.life seq) →
          OnSchedule expiration interval (s'.life seq)) :
    Scheduled s' := by
  have hnodup : (dropped ++ s'.names).Nodup := hnames.nodup_iff.mpr hs.nodup
  have hmem : ∀ {ev}, ev ∈ s'.events → ev ∈ s.events ∨ ev? = some ev := by
    intro ev hin
    rw [hevents] at hin
    simpa using hin
  refine
    { nodup := (List.nodup_append.mp hnodup).2.1
      placed := ?_
      below := ?_
      logged := ?_
      lives := ?_
      disabled := ?_
      quiet := ?_ }
  · intro seq hseq
    rw [hcreated]
    exact hs.placed seq
      (hnames.mem_iff.mp (List.mem_append_right dropped hseq))
  · intro seq hseq
    rw [hcreated] at hseq
    exact lt_of_lt_of_le (hs.below seq hseq) hnum
  · intro ev hin
    rw [hcreated]
    rcases hmem hin with hold | hnew
    · exact hs.logged ev hold
    · have hexplains := hev ev hnew
      cases ev with
      | added seq expiration interval => exact hexplains.elim
      | disabled seq => exact hexplains.1
      | ran seq cb expiration now => exact hexplains.1
  · intro seq expiration interval hin
    rcases hmem hin with hold | hnew
    · exact hlife seq expiration interval
        (hs.lives seq expiration interval hold)
    · exact (hev _ hnew).elim
  · intro seq hin
    rcases hmem hin with hold | hnew
    · exact hdisabled seq (hs.disabled seq hold)
    · exact (hev _ hnew).2
  · rw [hevents]
    cases ev? with
    | none =>
        simpa using hs.quiet
    | some ev =>
        refine hs.quiet.concat ?_
        intro seq hdis
        have hexplains := hev ev rfl
        cases ev with
        | added seq' expiration interval => rfl
        | disabled seq' => rfl
        | ran seq' cb expiration now =>
            refine if_neg ?_
            rintro rfl
            have hoff := hs.disabled seq' hdis
            rw [hexplains.2] at hoff
            cases hoff

theorem createElsewhere_scheduled
    {s : TimerQueue κ} (hs : Scheduled s) :
    Scheduled { s with s_numCreated_ := s.s_numCreated_ + 1 } := by
  refine @Scheduled.keep _ s _ hs [] none rfl (Nat.le_succ _)
    (.refl _) ?_ ?_ ?_ ?_
  · simp
  · simp
  · exact fun _ hoff => hoff
  · exact fun _ _ _ ht => ht

/-- The events that are in the log are about older timers. -/
theorem Scheduled.fresh
    {s : TimerQueue κ} (hs : Scheduled s) :
    ∀ ev ∈ s.events, ev.seq ≠ s.s_numCreated_ := by
  intro ev hev hseq
  have hlt := hs.below ev.seq (hs.logged ev hev)
  omega

/-- The number of the next timer is not in use. -/
theorem Scheduled.next_notMem
    {s : TimerQueue κ} (hs : Scheduled s) :
    s.s_numCreated_ ∉ s.names := by
  intro hmem
  have hlt := hs.below _ (hs.placed _ hmem)
  omega

theorem addTimer_names
    (s : TimerQueue κ) (cb : κ) (expiration : Int)
    (interval : Option Nat) :
    (s.addTimer cb expiration interval).names.Perm
      (s.s_numCreated_ :: s.names) := by
  have hmid :=
    @List.perm_middle _ s.s_numCreated_ (s.heap_ ++ s.functors)
      s.phase.seq?.toList
  simpa [addTimer, setHandler, names] using hmid

theorem addTimer_life_of_ne
    {s : TimerQueue κ} {seq : Nat} (hne : seq ≠ s.s_numCreated_)
    (cb : κ) (expiration : Int) (interval : Option Nat) :
    (s.addTimer cb expiration interval).life seq = s.life seq := by
  refine life_congr (Function.update_of_ne hne _ _) Iff.rfl ?_ ?_
  · simp [addTimer, setHandler, hne]
  · simp [addTimer, setHandler, runsOf_append]

theorem addTimer_life_self
    {s : TimerQueue κ} (hs : Scheduled s)
    (cb : κ) (expiration : Int) (interval : Option Nat) :
    (s.addTimer cb expiration interval).life s.s_numCreated_ =
      { handler := .create cb expiration interval s.s_numCreated_
        place := .waiting
        runs := [] } := by
  have hphase : s.phase.seq? ≠ some s.s_numCreated_ := by
    intro hphase
    exact hs.next_notMem (by simp [names, hphase])
  have hruns : runsOf s.s_numCreated_ s.events = [] :=
    runsOf_eq_nil hs.fresh
  simp [life, addTimer, setHandler, hphase, runsOf_append, hruns]

theorem addTimer_scheduled
    {s : TimerQueue κ} (hs : Scheduled s)
    (cb : κ) (expiration : Int) (interval : Option Nat) :
    Scheduled (s.addTimer cb expiration interval) := by
  have hnames := addTimer_names s cb expiration interval
  exact
    { nodup := by
        rw [hnames.nodup_iff]
        exact List.nodup_cons.mpr ⟨hs.next_notMem, hs.nodup⟩
      placed := by
        intro seq hseq
        rcases List.mem_cons.mp (hnames.mem_iff.mp hseq) with rfl | hold
        · simp [addTimer]
        · simp [addTimer, hs.placed seq hold]
      below := by
        intro seq hseq
        simp only [addTimer, setHandler, List.mem_append,
          List.mem_singleton] at hseq ⊢
        rcases hseq with hold | rfl
        · have := hs.below seq hold
          omega
        · omega
      logged := by
        intro ev hev
        simp only [addTimer, setHandler, List.mem_append,
          List.mem_singleton] at hev ⊢
        rcases hev with hold | rfl
        · exact .inl (hs.logged ev hold)
        · exact .inr rfl
      lives := by
        intro seq e i hin
        rcases List.mem_append.mp hin with hold | hadded
        · have hne : seq ≠ s.s_numCreated_ := hs.fresh _ hold
          rw [addTimer_life_of_ne hne]
          exact hs.lives seq e i hold
        · cases List.mem_singleton.mp hadded
          rw [addTimer_life_self hs]
          exact .added cb s.s_numCreated_
      disabled := by
        intro seq hin
        have hold : .disabled seq ∈ s.events := by
          simpa [addTimer] using hin
        have hne : seq ≠ s.s_numCreated_ := hs.fresh _ hold
        simp only [addTimer, setHandler]
        rw [Function.update_of_ne hne]
        exact hs.disabled seq hold
      quiet := by
        refine hs.quiet.concat ?_
        intro seq _
        rfl }

/-- A step that only changes what one handler is. -/
theorem setHandler_scheduled
    {s : TimerQueue κ} (hs : Scheduled s)
    {seq : Nat} {h : TimerHandler κ}
    (ev? : Option (TimerEvent κ))
    (hev :
      ∀ ev, ev? = some ev →
        ev = .disabled seq ∧ seq ∈ s.created ∧ h.disabled_ = true)
    (hdisabled :
      (s.handlers seq).disabled_ = true → h.disabled_ = true)
    (hlife :
      ∀ expiration interval,
        OnSchedule expiration interval (s.life seq) →
          OnSchedule expiration interval
            { s.life seq with handler := h }) :
    Scheduled
      { s.setHandler seq h with
        events := s.events ++ ev?.toList } := by
  have hruns : ∀ seq',
      runsOf seq' (s.events ++ ev?.toList) = runsOf seq' s.events := by
    intro seq'
    cases ev? with
    | none =>
        simp
    | some ev =>
        obtain ⟨rfl, _⟩ := hev ev rfl
        simp [runsOf_append]
  refine @Scheduled.keep _ s _ hs [] ev? rfl (le_refl _) (.refl _) rfl
    ?_ ?_ ?_
  · intro ev hin
    obtain ⟨rfl, hmem, hoff⟩ := hev ev hin
    exact ⟨hmem, by simpa [setHandler] using hoff⟩
  · intro seq' hoff
    simp only [setHandler]
    by_cases hseq : seq' = seq
    · subst hseq
      rw [Function.update_self]
      exact hdisabled hoff
    · rw [Function.update_of_ne hseq]
      exact hoff
  · intro seq' expiration interval ht
    by_cases hseq : seq' = seq
    · subst hseq
      have hself :
          life { s.setHandler seq' h with
            events := s.events ++ ev?.toList } seq' =
            { s.life seq' with handler := h } := by
        simp [life, setHandler, hruns]
      rw [hself]
      exact hlife expiration interval ht
    · have hother :
          life { s.setHandler seq h with
            events := s.events ++ ev?.toList } seq' = s.life seq' :=
        life_congr (Function.update_of_ne hseq _ _) Iff.rfl Iff.rfl
          (hruns seq')
      rw [hother]
      exact ht

theorem disable_scheduled
    {s : TimerQueue κ} (hs : Scheduled s)
    {seq : Nat} (hseq : seq ∈ s.created) :
    Scheduled
      { s.setHandler seq (s.handlers seq).disable with
        events := s.events ++ [.disabled seq] } := by
  have hoff : (s.handlers seq).disable.disabled_ = true := by
    unfold TimerHandler.disable
    split
    · assumption
    · rfl
  refine setHandler_scheduled hs (some (.disabled seq)) ?_ ?_ ?_
  · rintro ev ⟨⟩
    exact ⟨rfl, hseq, hoff⟩
  · exact fun _ => hoff
  · exact fun _ _ ht => ht.disable

theorem updateCallback_scheduled
    {s : TimerQueue κ} (hs : Scheduled s) (seq : Nat) (cb : κ) :
    Scheduled
      (s.setHandler seq ((s.handlers seq).updateCallback cb)) := by
  have hset :=
    @setHandler_scheduled _ s hs seq
      ((s.handlers seq).updateCallback cb) none
  simp only [Option.toList_none, List.append_nil] at hset
  refine hset (by simp) ?_ (fun _ _ ht => ht.updateCallback cb)
  intro hoff
  rw [TimerHandler.updateCallback, if_pos hoff]
  exact hoff

/-- A step that only moves handlers between the heap and the functors. -/
theorem Scheduled.move
    {s s' : TimerQueue κ} (hs : Scheduled s)
    (hhandlers : s'.handlers = s.handlers)
    (hcreated : s'.created = s.created)
    (hnum : s'.s_numCreated_ = s.s_numCreated_)
    (hevents : s'.events = s.events)
    (hphase : s'.phase.seq? = s.phase.seq?)
    (hmoved :
      (s'.heap_ ++ s'.functors).Perm (s.heap_ ++ s.functors)) :
    Scheduled s' := by
  refine @Scheduled.keep _ s _ hs [] none hcreated hnum.ge ?_ ?_ ?_ ?_ ?_
  · simp only [names, hphase, List.nil_append]
    exact hmoved.append_right _
  · simpa using hevents
  · simp
  · rw [hhandlers]
    exact fun _ hoff => hoff
  · intro seq expiration interval ht
    rw [life_congr (by rw [hhandlers]) (by rw [hphase])
      hmoved.mem_iff (by rw [hevents])]
    exact ht

theorem runFunctor_scheduled
    {s : TimerQueue κ} (hs : Scheduled s)
    {seq : Nat} {rest : List Nat} (hfunctors : s.functors = seq :: rest)
    (t : ResetTime) :
    Scheduled ({ s with functors := rest }.addTimerInLoop seq t) := by
  refine hs.move rfl rfl rfl rfl rfl ?_
  rw [hfunctors]
  exact ((BinaryHeap.insert_perm _ s.heap_ seq).append_right rest).trans
    List.perm_middle.symm

theorem handleRead_scheduled
    {s : TimerQueue κ} (hs : Scheduled s) (hidle : s.phase = .idle)
    (now readAt : Int) :
    Scheduled
      { s with
        timerfd := s.timerfd.read readAt
        phase := .scanning now } := by
  refine hs.move rfl rfl rfl rfl ?_ (.refl _)
  rw [hidle]
  rfl

theorem endScan_scheduled
    {s : TimerQueue κ} (hs : Scheduled s) {started : Int}
    (hphase : s.phase = .scanning started) (t : ResetTime) :
    Scheduled (s.endScan t) := by
  refine hs.move rfl rfl rfl rfl ?_ (.refl _)
  rw [hphase]
  rfl

/-- What popping a handler does to the places of the others. -/
theorem mem_of_popped
    {s : TimerQueue κ} {seq : Nat} {rest : List Nat}
    (hnames : s.names.Perm (seq :: (rest ++ s.functors)))
    (hphase : ∀ x, s.phase.seq? = some x → x = seq)
    {x : Nat} (hx : x ≠ seq) :
    x ∈ rest ++ s.functors ↔ x ∈ s.heap_ ++ s.functors := by
  have hmem := @List.Perm.mem_iff _ x _ _ hnames
  rw [List.mem_cons] at hmem
  have hidle : x ∉ s.phase.seq?.toList := by
    intro hin
    exact hx (hphase x (Option.mem_toList.mp hin))
  constructor
  · intro hin
    have hold := hmem.mpr (.inr hin)
    rw [names, List.mem_append] at hold
    exact hold.resolve_right hidle
  · intro hin
    exact (hmem.mp (List.mem_append_left _ hin)).resolve_left hx

theorem popped_notMem
    {s : TimerQueue κ} (hs : Scheduled s)
    {seq : Nat} {rest : List Nat}
    (hnames : s.names.Perm (seq :: (rest ++ s.functors))) :
    seq ∉ rest ++ s.functors :=
  (List.nodup_cons.mp (hnames.nodup_iff.mp hs.nodup)).1

theorem afterCallback_of_repeat
    {s : TimerQueue κ} {seq : Nat} {rest : List Nat}
    (hrep : (s.handlers seq).isRepeat = true) (now : Int) :
    { s with heap_ := rest }.afterCallback seq now =
      { s.setHandler seq (s.handlers seq).reloadInLoop with
        heap_ := rest
        functors := s.functors ++ [seq]
        phase := .scanning now } := by
  simp [afterCallback, TimerHandler.clearUnlessRepeat, hrep,
    setHandler]

theorem afterCallback_of_once
    {s : TimerQueue κ} {seq : Nat} {rest : List Nat}
    (hrep : (s.handlers seq).isRepeat = false) (now : Int) :
    { s with heap_ := rest }.afterCallback seq now =
      { s.setHandler seq
          { s.handlers seq with callback_ := none, disabled_ := true } with
        heap_ := rest
        phase := .scanning now } := by
  have hrep' :
      ({ s.handlers seq with callback_ := none } :
        TimerHandler κ).isRepeat = false := hrep
  simp [afterCallback, TimerHandler.clearUnlessRepeat, hrep, hrep',
    setHandler]

theorem afterCallback_life
    {s : TimerQueue κ} {seq : Nat} {rest : List Nat}
    (hfree : seq ∉ rest ++ s.functors) (now : Int) :
    ({ s with heap_ := rest }.afterCallback seq now).life seq =
      (s.life seq).next := by
  cases hrep : (s.handlers seq).isRepeat with
  | true =>
      rw [afterCallback_of_repeat hrep]
      simp [life, TimerLife.next, TimerHandler.clearUnlessRepeat, hrep,
        setHandler, ReadPhase.seq?]
  | false =>
      rw [afterCallback_of_once hrep]
      simp only [List.mem_append, not_or] at hfree
      simp [life, TimerLife.next, TimerHandler.clearUnlessRepeat, hrep,
        setHandler, ReadPhase.seq?, hfree]

/-- The end of an iteration leaves the other timers. -/
theorem afterCallback_life_of_ne
    {s : TimerQueue κ} {seq x : Nat} {rest : List Nat}
    (hnames : s.names.Perm (seq :: (rest ++ s.functors)))
    (hphase : ∀ x, s.phase.seq? = some x → x = seq) (hx : x ≠ seq)
    (now : Int) :
    ({ s with heap_ := rest }.afterCallback seq now).life x =
      s.life x := by
  have hmem := mem_of_popped hnames hphase hx
  have hidle : s.phase.seq? ≠ some x :=
    fun hin => hx (hphase x hin)
  cases hrep : (s.handlers seq).isRepeat with
  | true =>
      rw [afterCallback_of_repeat hrep]
      refine life_congr (Function.update_of_ne hx _ _) ?_ ?_ rfl
      · simpa [ReadPhase.seq?] using hidle
      · simpa [setHandler, hx] using hmem
  | false =>
      rw [afterCallback_of_once hrep]
      refine life_congr (Function.update_of_ne hx _ _) ?_ hmem rfl
      simpa [ReadPhase.seq?] using hidle

/-- It sets no disabled timer going again. -/
theorem afterCallback_disabled
    {s : TimerQueue κ} {seq x : Nat} {rest : List Nat}
    (hnames : s.names.Perm (seq :: (rest ++ s.functors)))
    (hphase : ∀ x, s.phase.seq? = some x → x = seq)
    (hoff : (s.handlers x).disabled_ = true) (now : Int) :
    (({ s with heap_ := rest }.afterCallback seq now).handlers
      x).disabled_ = true := by
  by_cases hx : x = seq
  · subst hx
    cases hrep : (s.handlers x).isRepeat with
    | true =>
        rw [afterCallback_of_repeat hrep]
        simpa [setHandler] using hoff
    | false =>
        rw [afterCallback_of_once hrep]
        simp [setHandler]
  · have hsame :=
      congrArg TimerLife.handler
        (afterCallback_life_of_ne hnames hphase hx now)
    simp only [life] at hsame
    rw [hsame]
    exact hoff

/-- The end of an iteration for the handler that it has popped. -/
theorem afterCallback_scheduled
    {s : TimerQueue κ} (hs : Scheduled s)
    {seq : Nat} {rest : List Nat}
    (hnames : s.names.Perm (seq :: (rest ++ s.functors)))
    (hphase : ∀ x, s.phase.seq? = some x → x = seq)
    (hnext :
      ∀ expiration interval,
        OnSchedule expiration interval (s.life seq) →
        (s.handlers seq).disabled_ = false →
          (s.handlers seq).expiration_ + interval.getD 0 =
            expiration +
              (s.life seq).runs.length * interval.getD 0)
    (now : Int) :
    Scheduled ({ s with heap_ := rest }.afterCallback seq now) := by
  have hfree := popped_notMem hs hnames
  have hlife :
      ∀ x expiration interval,
        OnSchedule expiration interval (s.life x) →
          OnSchedule expiration interval
            (({ s with heap_ := rest }.afterCallback seq now).life
              x) := by
    intro x expiration interval ht
    by_cases hx : x = seq
    · subst hx
      rw [afterCallback_life hfree]
      exact ht.next (hnext expiration interval ht)
    · rw [afterCallback_life_of_ne hnames hphase hx]
      exact ht
  have hdisabled :
      ∀ x, (s.handlers x).disabled_ = true →
        (({ s with heap_ := rest }.afterCallback seq now).handlers
          x).disabled_ = true :=
    fun x hoff => afterCallback_disabled hnames hphase hoff now
  cases hrep : (s.handlers seq).isRepeat with
  | true =>
      refine @Scheduled.keep _ s _ hs [] none ?_ ?_ ?_ ?_ (by simp)
        hdisabled hlife
      all_goals rw [afterCallback_of_repeat hrep]
      · rfl
      · exact le_refl _
      · refine .trans ?_ hnames.symm
        simpa [names, ReadPhase.seq?, setHandler] using
          List.perm_append_singleton seq (rest ++ s.functors)
      · simp [setHandler]
  | false =>
      refine @Scheduled.keep _ s _ hs [seq] none ?_ ?_ ?_ ?_ (by simp)
        hdisabled hlife
      all_goals rw [afterCallback_of_once hrep]
      · rfl
      · exact le_refl _
      · refine .trans ?_ hnames.symm
        simp [names, ReadPhase.seq?, setHandler]
      · simp [setHandler]

theorem calling_names
    {s : TimerQueue κ} {now : Int} {seq : Nat}
    (hphase : s.phase = .calling now seq) :
    s.names.Perm (seq :: (s.heap_ ++ s.functors)) := by
  simpa [names, hphase, ReadPhase.seq?] using
    List.perm_append_singleton seq (s.heap_ ++ s.functors)

theorem callbackReturns_scheduled
    {s : TimerQueue κ} (hs : Scheduled s)
    {now : Int} {seq : Nat} (hphase : s.phase = .calling now seq) :
    Scheduled (s.afterCallback seq now) := by
  refine @afterCallback_scheduled _ s hs seq s.heap_
    (calling_names hphase) ?_ ?_ now
  · simp [hphase, ReadPhase.seq?]
  · intro expiration interval ht _
    refine ht.running ?_
    simp [life, hphase, ReadPhase.seq?]

theorem scanning_names
    {s : TimerQueue κ} {started : Int}
    (hphase : s.phase = .scanning started)
    {seq : Nat} {rest : List Nat}
    (hpop : BinaryHeap.popTop s.lessThanCmp_ s.heap_ =
      some (seq, rest)) :
    s.names.Perm (seq :: (rest ++ s.functors)) := by
  simp only [names, hphase, ReadPhase.seq?, Option.toList_none,
    List.append_nil]
  exact (BinaryHeap.popTop_perm hpop).append_right s.functors

/-- A handler in the heap waits, unless a callback runs. -/
theorem life_waiting
    {s : TimerQueue κ} {started : Int}
    (hphase : s.phase = .scanning started)
    {seq : Nat} (hmem : seq ∈ s.heap_) :
    (s.life seq).place = .waiting := by
  simp [life, hphase, ReadPhase.seq?, hmem]

theorem call_scheduled
    {s : TimerQueue κ} (hs : Scheduled s) {started : Int}
    (hphase : s.phase = .scanning started)
    {seq : Nat} {rest : List Nat} {cb : κ}
    (hpop : BinaryHeap.popTop s.lessThanCmp_ s.heap_ =
      some (seq, rest))
    (hdue : (s.handlers seq).expiration_ ≤ started)
    (hon : (s.handlers seq).disabled_ = false) :
    Scheduled
      { s with
        heap_ := rest
        phase := .calling started seq
        events := s.events ++
          [.ran seq cb (s.handlers seq).expiration_ started] } := by
  have hnames := scanning_names hphase hpop
  have hmem : seq ∈ s.heap_ :=
    (BinaryHeap.popTop_perm hpop).mem_iff.mpr (List.mem_cons_self ..)
  have hidle : ∀ x, s.phase.seq? = some x → x = seq := by
    simp [hphase, ReadPhase.seq?]
  refine @Scheduled.keep _ s _ hs []
    (some (.ran seq cb (s.handlers seq).expiration_ started))
    rfl (le_refl _) ?_ rfl ?_ (fun _ hoff => hoff) ?_
  · refine .trans ?_ hnames.symm
    simpa [names, ReadPhase.seq?] using
      List.perm_append_singleton seq (rest ++ s.functors)
  · rintro ev ⟨⟩
    exact ⟨hs.placed seq (hnames.mem_iff.mpr (List.mem_cons_self ..)),
      hon⟩
  · intro x expiration interval ht
    by_cases hx : x = seq
    · subst hx
      have hcall := ht.call (life_waiting hphase hmem) hon hdue
      simpa [life, ReadPhase.seq?, runsOf_append] using hcall
    · have hother :
          life { s with
            heap_ := rest
            phase := .calling started seq
            events := s.events ++
              [.ran seq cb (s.handlers seq).expiration_ started] } x =
            s.life x := by
        refine life_congr rfl ?_ (mem_of_popped hnames hidle hx) ?_
        · simp [hphase, ReadPhase.seq?, Ne.symm hx]
        · have hquiet :
              runsOf x [.ran seq cb (s.handlers seq).expiration_
                started] = [] :=
            runsOf_eq_nil (by simpa [TimerEvent.seq] using Ne.symm hx)
          rw [runsOf_append, hquiet, List.append_nil]
      rw [hother]
      exact ht

theorem scan_scheduled
    {s : TimerQueue κ} (hs : Scheduled s) {started : Int}
    (hphase : s.phase = .scanning started) (t : ResetTime) :
    Scheduled (s.scan started t) := by
  have hscans := s.scan_scans started t
  generalize s.scan started t = s' at hscans ⊢
  cases hscans with
  | ends hdue =>
      exact endScan_scheduled hs hphase t
  | calls hpop hdue hon hcb =>
      exact call_scheduled hs hphase hpop hdue hon
  | drops hpop hoff =>
      refine afterCallback_scheduled hs (scanning_names hphase hpop)
        (by simp [hphase, ReadPhase.seq?]) ?_ started
      intro expiration interval ht hon
      obtain ⟨_, cb, hcb⟩ := ht.active hon
      rcases hoff with hdis | hnone
      · rw [hon] at hdis
        cases hdis
      · simp only [life] at hcb
        rw [hnone] at hcb
        cases hcb

/-- Every step keeps the schedule. -/
theorem step_scheduled
    {s s' : TimerQueue κ} {op : TimerOp κ}
    (hs : Scheduled s) (hstep : s.step op = some s') :
    Scheduled s' := by
  cases op with
  | createElsewhere =>
      cases hstep
      exact createElsewhere_scheduled hs
  | addTimer cb expiration interval =>
      simp only [step] at hstep
      split at hstep
      · cases hstep
        exact addTimer_scheduled hs cb expiration interval
      · cases hstep
  | disable seq =>
      simp only [step] at hstep
      split at hstep
      · rename_i hmay
        cases hstep
        exact disable_scheduled hs hmay.2
      · cases hstep
  | updateCallback seq callback =>
      simp only [step] at hstep
      split at hstep
      · cases hstep
        exact updateCallback_scheduled hs seq callback
      · cases hstep
  | runFunctor t =>
      simp only [step] at hstep
      split at hstep
      · rename_i seq rest hphase hfunctors
        cases hstep
        exact runFunctor_scheduled hs hfunctors t
      · cases hstep
  | handleRead now lag =>
      simp only [step] at hstep
      split at hstep
      · rename_i hphase
        cases hstep
        exact handleRead_scheduled hs hphase now (now + lag)
      · cases hstep
  | scan t =>
      simp only [step] at hstep
      split at hstep
      · rename_i started hphase
        cases hstep
        exact scan_scheduled hs hphase t
      · cases hstep
  | callbackReturns =>
      simp only [step] at hstep
      split at hstep
      · rename_i now seq hphase
        cases hstep
        exact callbackReturns_scheduled hs hphase
      · cases hstep

theorem reachable_scheduled
    {numCreated : Nat} {ops : List (TimerOp κ)} {s : TimerQueue κ}
    (hrun : run step (initial numCreated) ops = some s) :
    Scheduled s :=
  invariant_of_run (P := fun _ => True)
    (fun _ _ _ hs _ hstep => step_scheduled hs hstep)
    (initial_scheduled numCreated) (fun _ _ => trivial) hrun

/-- A one-shot timer runs at most once and not early.  The run `k` of a
repeating timer, counted from 0, is for the expiration `k` intervals after the
first one and not before it.  After disable() no callback of the timer runs. -/
structure FiringLaw (es : List (TimerEvent κ)) : Prop where
  oneShot :
    ∀ seq expiration, .added seq expiration none ∈ es →
      (runsOf seq es).length ≤ 1 ∧
      ∀ r ∈ runsOf seq es, r.expiration = expiration ∧ expiration ≤ r.now
  repeating :
    ∀ seq expiration (d : Nat),
      .added seq expiration (some d) ∈ es →
      ∀ (k : Nat) (r : TimerRun), (runsOf seq es)[k]? = some r →
        r.expiration = expiration + k * d ∧ r.expiration ≤ r.now
  disabled : QuietAfterDisable es

theorem Scheduled.firingLaw
    {s : TimerQueue κ} (hs : Scheduled s) :
    FiringLaw s.events where
  oneShot := by
    intro seq expiration hadded
    have ht := hs.lives seq expiration none hadded
    refine ⟨ht.once rfl, ?_⟩
    intro r hr
    obtain ⟨k, hk⟩ := List.mem_iff_getElem?.mp hr
    obtain ⟨hexp, hdue⟩ := ht.runs k r hk
    rw [Option.getD_none, Int.natCast_zero, Int.mul_zero,
      Int.add_zero] at hexp
    rw [← hexp]
    exact ⟨rfl, hdue⟩
  repeating := by
    intro seq expiration d hadded k r hr
    exact (hs.lives seq expiration (some d) hadded).runs k r hr
  disabled := hs.quiet

/-- In every run no handler is in two places, and the timers keep their
schedule. -/
theorem timers_keep_schedule
    (numCreated : Nat) (ops : List (TimerOp κ)) {s : TimerQueue κ}
    (hrun : run step (initial numCreated) ops = some s) :
    (s.heap_ ++ s.functors).Nodup ∧ FiringLaw s.events := by
  have hs := reachable_scheduled hrun
  exact ⟨(List.nodup_append.mp hs.nodup).1, hs.firingLaw⟩

end TimerQueue

end TimerSchedule

/-- A repeating timer that gets another callback in its first run and disables
itself in its second one. -/
theorem timers_keep_schedule_sample :
    ∃ s : TimerQueue Nat,
      run TimerQueue.step (TimerQueue.initial 5)
          [.addTimer 7 100 (some 50), .runFunctor ⟨10, 0⟩,
            .handleRead 120 1, .scan ⟨121, 0⟩, .updateCallback 5 8,
            .callbackReturns, .scan ⟨121, 2⟩, .runFunctor ⟨122, 0⟩,
            .handleRead 150 0, .scan ⟨150, 0⟩, .disable 5,
            .callbackReturns, .scan ⟨151, 1⟩] = some s ∧
      runsOf 5 s.events = [⟨100, 120⟩, ⟨150, 150⟩] ∧
      (s.heap_ ++ s.functors).Nodup ∧
      TimerQueue.FiringLaw s.events := by
  obtain ⟨s, hrun, hruns⟩ :=
    Option.map_eq_some_iff.mp
      (show (run TimerQueue.step (TimerQueue.initial 5)
          [.addTimer 7 100 (some 50), .runFunctor ⟨10, 0⟩,
            .handleRead 120 1, .scan ⟨121, 0⟩, .updateCallback 5 8,
            .callbackReturns, .scan ⟨121, 2⟩, .runFunctor ⟨122, 0⟩,
            .handleRead 150 0, .scan ⟨150, 0⟩, .disable 5,
            .callbackReturns, .scan ⟨151, 1⟩]).map
          (fun s : TimerQueue Nat => runsOf 5 s.events) =
          some [⟨100, 120⟩, ⟨150, 150⟩]
        by decide +kernel)
  exact ⟨s, hrun, hruns, TimerQueue.timers_keep_schedule 5 _ hrun⟩

end Hohnor
