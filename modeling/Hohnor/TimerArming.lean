import Hohnor.TimerSchedule
import Mathlib.Data.Int.Order.Basic

/-!
# The timer fd and the earliest timer

An insertion arms the timer fd when the new timer becomes the top, and a batch
that leaves timers in the heap arms it for the top.  On every other path the top
is what it was when the timer fd was armed last: the heap order says which
timer that is, and the key of a timer in the heap does not change.
-/

namespace Hohnor

open TransitionRuns

/-- A value that timerfd_settime takes and that does not disarm. -/
structure Timespec.Arms (ts : Timespec) : Prop where
  sec_nonneg : 0 ≤ ts.tv_sec
  nsec_nonneg : 0 ≤ ts.tv_nsec
  nsec_lt : ts.tv_nsec < 1000000000
  positive : 0 < ts.tv_sec ∨ 0 < ts.tv_nsec

theorem howMuchTimeFromNow_eq
    (now expiration : Int) :
    howMuchTimeFromNow now expiration =
      { tv_sec := max 100 (expiration - now) / 1000000
        tv_nsec := max 100 (expiration - now) % 1000000 * 1000 } := by
  have hclamp :
      (if expiration - now < 100 then 100 else expiration - now) =
        max 100 (expiration - now) := by
    split <;> omega
  have hpos : 0 ≤ max 100 (expiration - now) := by
    omega
  simp only [howMuchTimeFromNow, hclamp, kMicroSecondsPerSecond]
  rw [Int.tdiv_eq_ediv_of_nonneg hpos, Int.tmod_eq_emod_of_nonneg hpos]
  rfl

theorem howMuchTimeFromNow_arms
    (now expiration : Int) :
    (howMuchTimeFromNow now expiration).Arms := by
  rw [howMuchTimeFromNow_eq]
  exact
    { sec_nonneg := by
        simp only
        omega
      nsec_nonneg := by
        simp only
        omega
      nsec_lt := by
        simp only
        omega
      positive := by
        simp only
        omega }

namespace Timerfd

/-- `resetTimerfd` arms for the expiration, later by the time that passes before
the call of timerfd_settime, or for 100 microseconds after that call. -/
theorem resetTimerfd_deadline
    (fd : Timerfd) (t : ResetTime) (expiration : Int) :
    (fd.resetTimerfd t expiration).deadline =
      some (max (expiration + t.lag) (t.setAt + 100)) := by
  have harms := howMuchTimeFromNow_arms t.now expiration
  have hrange :
      ¬((howMuchTimeFromNow t.now expiration).tv_sec < 0 ∨
        (howMuchTimeFromNow t.now expiration).tv_nsec < 0 ∨
        1000000000 ≤ (howMuchTimeFromNow t.now expiration).tv_nsec) := by
    have h1 := harms.sec_nonneg
    have h2 := harms.nsec_nonneg
    have h3 := harms.nsec_lt
    omega
  have hzero :
      ¬((howMuchTimeFromNow t.now expiration).tv_sec = 0 ∧
        (howMuchTimeFromNow t.now expiration).tv_nsec = 0) := by
    have h4 := harms.positive
    omega
  simp only [resetTimerfd, settime, if_neg hrange, if_neg hzero,
    Option.some.injEq]
  rw [howMuchTimeFromNow_eq]
  simp only [kMicroSecondsPerSecond, ResetTime.setAt]
  omega

@[simp] theorem resetTimerfd_lastReset
    (fd : Timerfd) (t : ResetTime) (expiration : Int) :
    (fd.resetTimerfd t expiration).lastReset = some t := by
  rfl

@[simp] theorem resetTimerfd_calls
    (fd : Timerfd) (t : ResetTime) (expiration : Int) :
    (fd.resetTimerfd t expiration).calls =
      fd.calls ++ [howMuchTimeFromNow t.now expiration] := by
  rfl

/-- The timer fd is armed, or has expired and has not been read, with a deadline
that is later than the expiration by no more than what lay between the reading
of the clock and the call of timerfd_settime, or not later than 100
microseconds after that call. -/
def ArmedFor (fd : Timerfd) (expiration : Int) : Prop :=
  ∃ deadline t, fd.deadline = some deadline ∧ fd.lastReset = some t ∧
    deadline ≤ max (expiration + t.lag) (t.setAt + 100)

/-- The same with no allowance for the time that passes in between. -/
def ArmedInTime (fd : Timerfd) (expiration : Int) : Prop :=
  ∃ deadline t, fd.deadline = some deadline ∧ fd.lastReset = some t ∧
    deadline ≤ max expiration (t.setAt + 100)

theorem resetTimerfd_armedFor
    (fd : Timerfd) (t : ResetTime) (expiration : Int) :
    (fd.resetTimerfd t expiration).ArmedFor expiration :=
  ⟨_, t, resetTimerfd_deadline fd t expiration, rfl, le_refl _⟩

end Timerfd

section TimerArming

variable {κ : Type}

namespace TimerQueue

/-- What the heap and the timer fd have at every point. -/
structure Arming (s : TimerQueue κ) : Prop where
  scheduled : Scheduled s
  ordered : BinaryHeap.HeapOrdered s.key s.heap_
  calls : ∀ value ∈ s.timerfd.calls, value.Arms
  armed :
    s.phase = .idle → ∀ seq, BinaryHeap.top s.heap_ = some seq →
      s.timerfd.ArmedFor (s.handlers seq).expiration_

theorem initial_arming
    (numCreated : Nat) :
    Arming (initial numCreated : TimerQueue κ) where
  scheduled := initial_scheduled numCreated
  ordered := .nil
  calls := by
    simp [initial]
  armed := by
    simp [initial, BinaryHeap.top]

/-- A step that leaves the heap, the keys in it and the timer fd. -/
theorem Arming.keep
    {s s' : TimerQueue κ} (hs : Arming s)
    (hscheduled : Scheduled s')
    (hheap : s'.heap_ = s.heap_)
    (hfd : s'.timerfd = s.timerfd)
    (hkey : ∀ seq ∈ s.heap_, s'.key seq = s.key seq)
    (hphase : s'.phase = .idle → s.phase = .idle) :
    Arming s' where
  scheduled := hscheduled
  ordered := by
    rw [hheap]
    exact hs.ordered.congr hkey
  calls := by
    rw [hfd]
    exact hs.calls
  armed := by
    intro hidle seq htop
    rw [hheap] at htop
    have hmem : seq ∈ s.heap_ := List.mem_of_head? htop
    have hexp : (s'.handlers seq).expiration_ =
        (s.handlers seq).expiration_ :=
      (Prod.mk.inj (hkey seq hmem)).1
    rw [hfd, hexp]
    exact hs.armed (hphase hidle) seq htop

/-- While handleRead runs the timer fd need not be armed. -/
theorem Arming.reading
    {s s' : TimerQueue κ} (hs : Arming s)
    (hscheduled : Scheduled s')
    (hordered : BinaryHeap.HeapOrdered s.key s'.heap_)
    (hcalls : s'.timerfd.calls = s.timerfd.calls)
    (hkey : ∀ seq ∈ s'.heap_, s'.key seq = s.key seq)
    (hphase : s'.phase ≠ .idle) :
    Arming s' where
  scheduled := hscheduled
  ordered := hordered.congr hkey
  calls := by
    rw [hcalls]
    exact hs.calls
  armed := fun hidle => absurd hidle hphase

/-- A handler whose key does not change. -/
theorem setHandler_key
    {s s' : TimerQueue κ} {seq : Nat} {h : TimerHandler κ}
    (hhandlers : s'.handlers = Function.update s.handlers seq h)
    (hexp : h.expiration_ = (s.handlers seq).expiration_)
    (hseq : h.sequence_ = (s.handlers seq).sequence_)
    (x : Nat) :
    s'.key x = s.key x := by
  unfold key
  rw [hhandlers]
  by_cases hx : x = seq
  · subst hx
    rw [Function.update_self, hexp, hseq]
  · rw [Function.update_of_ne hx]

/-- The keys of the other handlers. -/
theorem update_key
    {s s' : TimerQueue κ} {seq x : Nat} {h : TimerHandler κ}
    (hhandlers : s'.handlers = Function.update s.handlers seq h)
    (hx : x ≠ seq) :
    s'.key x = s.key x := by
  unfold key
  rw [hhandlers, Function.update_of_ne hx]

theorem afterCallback_handlers
    (s : TimerQueue κ) (seq : Nat) (now : Int) :
    ∃ h, (s.afterCallback seq now).handlers =
        Function.update s.handlers seq h ∧
      (s.afterCallback seq now).heap_ = s.heap_ ∧
      (s.afterCallback seq now).timerfd = s.timerfd ∧
      (s.afterCallback seq now).phase = .scanning now := by
  simp only [afterCallback]
  split
  · exact ⟨_, rfl, rfl, rfl, rfl⟩
  · exact ⟨_, rfl, rfl, rfl, rfl⟩

theorem addTimer_arming
    {s : TimerQueue κ} (hs : Arming s)
    (cb : κ) (expiration : Int) (interval : Option Nat) :
    Arming (s.addTimer cb expiration interval) := by
  refine hs.keep (addTimer_scheduled hs.scheduled cb expiration interval)
    rfl rfl ?_ id
  intro seq hseq
  have hlt := hs.scheduled.below seq (hs.scheduled.heap_created hseq)
  exact update_key rfl (Nat.ne_of_lt hlt)

/-- An insertion arms for the new timer if that is the top, and otherwise the
top is the old one. -/
theorem addTimerInLoop_arming
    {s : TimerQueue κ} (hs : Arming s) (hidle : s.phase = .idle)
    {seq : Nat} {rest : List Nat}
    (hfunctors : s.functors = seq :: rest) (t : ResetTime) :
    Arming ({ s with functors := rest }.addTimerInLoop seq t) where
  scheduled := runFunctor_scheduled hs.scheduled hfunctors t
  ordered := BinaryHeap.insert_ordered s.lessThanCmp_iff hs.ordered seq
  calls := by
    intro value hvalue
    simp only [addTimerInLoop] at hvalue
    split at hvalue
    · rw [Timerfd.resetTimerfd_calls, List.mem_append,
        List.mem_singleton] at hvalue
      rcases hvalue with hold | rfl
      · exact hs.calls value hold
      · exact howMuchTimeFromNow_arms t.now _
    · exact hs.calls value hvalue
  armed := by
    intro _ top htop
    simp only [addTimerInLoop] at htop ⊢
    split
    · rename_i hnew
      rw [hnew] at htop
      cases htop
      exact Timerfd.resetTimerfd_armedFor _ _ _
    · rename_i hold
      rcases BinaryHeap.top_insert s.lessThanCmp_ s.heap_ seq
        with hnew | hsame
      · exact absurd hnew hold
      · exact hs.armed hidle top (hsame.symm.trans htop)

theorem handleRead_arming
    {s : TimerQueue κ} (hs : Arming s) (hidle : s.phase = .idle)
    (now readAt : Int) :
    Arming
      { s with
        timerfd := s.timerfd.read readAt
        phase := .scanning now } := by
  refine hs.reading (handleRead_scheduled hs.scheduled hidle now readAt)
    hs.ordered rfl (fun _ _ => rfl) ?_
  simp

theorem endScan_arming
    {s : TimerQueue κ} (hs : Arming s) {started : Int}
    (hphase : s.phase = .scanning started) (t : ResetTime) :
    Arming (s.endScan t) where
  scheduled := endScan_scheduled hs.scheduled hphase t
  ordered := hs.ordered
  calls := by
    intro value hvalue
    simp only [endScan] at hvalue
    split at hvalue
    · rw [Timerfd.resetTimerfd_calls, List.mem_append,
        List.mem_singleton] at hvalue
      rcases hvalue with hold | rfl
      · exact hs.calls value hold
      · exact howMuchTimeFromNow_arms t.now _
    · exact hs.calls value hvalue
  armed := by
    intro _ seq htop
    have htop' : BinaryHeap.top s.heap_ = some seq := htop
    simp only [endScan, htop']
    exact Timerfd.resetTimerfd_armedFor _ _ _

theorem afterCallback_arming
    {s : TimerQueue κ} (hs : Arming s)
    {seq : Nat} {rest : List Nat} {now : Int}
    (hscheduled :
      Scheduled ({ s with heap_ := rest }.afterCallback seq now))
    (hordered : BinaryHeap.HeapOrdered s.key rest)
    (hfree : seq ∉ rest) :
    Arming ({ s with heap_ := rest }.afterCallback seq now) := by
  obtain ⟨h, hhandlers, hheap, hfd, hphase⟩ :=
    afterCallback_handlers { s with heap_ := rest } seq now
  refine hs.reading hscheduled ?_ ?_ ?_ ?_
  · rw [hheap]
    exact hordered
  · rw [hfd]
  · intro x hx
    rw [hheap] at hx
    refine update_key hhandlers ?_
    rintro rfl
    exact hfree hx
  · rw [hphase]
    simp

theorem scan_arming
    {s : TimerQueue κ} (hs : Arming s) {started : Int}
    (hphase : s.phase = .scanning started) (t : ResetTime) :
    Arming (s.scan started t) := by
  have hscheduled := scan_scheduled hs.scheduled hphase t
  have hscans := s.scan_scans started t
  generalize s.scan started t = s' at hscans hscheduled ⊢
  cases hscans with
  | ends hdue =>
      exact endScan_arming hs hphase t
  | calls hpop hdue hon hcb =>
      refine hs.reading hscheduled ?_ rfl (fun _ _ => rfl) (by simp)
      exact BinaryHeap.popTop_ordered s.lessThanCmp_iff hs.ordered hpop
  | drops hpop hoff =>
      have hfree :=
        popped_notMem hs.scheduled (scanning_names hphase hpop)
      refine afterCallback_arming hs hscheduled
        (BinaryHeap.popTop_ordered s.lessThanCmp_iff hs.ordered hpop) ?_
      exact fun hmem => hfree (List.mem_append_left _ hmem)

theorem callbackReturns_arming
    {s : TimerQueue κ} (hs : Arming s)
    {now : Int} {seq : Nat} (hphase : s.phase = .calling now seq) :
    Arming (s.afterCallback seq now) := by
  refine @afterCallback_arming _ s hs seq s.heap_ now
    (callbackReturns_scheduled hs.scheduled hphase) hs.ordered ?_
  have hfree :=
    popped_notMem hs.scheduled (calling_names hphase)
  exact fun hmem => hfree (List.mem_append_left _ hmem)

/-- Every step keeps the timer fd armed. -/
theorem step_arming
    {s s' : TimerQueue κ} {op : TimerOp κ}
    (hs : Arming s) (hstep : s.step op = some s') :
    Arming s' := by
  have hscheduled := step_scheduled hs.scheduled hstep
  cases op with
  | createElsewhere =>
      cases hstep
      exact hs.keep hscheduled rfl rfl (fun _ _ => rfl) id
  | addTimer cb expiration interval =>
      simp only [step] at hstep
      split at hstep
      · cases hstep
        exact addTimer_arming hs cb expiration interval
      · cases hstep
  | disable seq =>
      simp only [step] at hstep
      split at hstep
      · cases hstep
        refine hs.keep hscheduled rfl rfl (fun x _ => ?_) id
        exact setHandler_key rfl (TimerHandler.disable_expiration _)
          (TimerHandler.disable_sequence _) x
      · cases hstep
  | updateCallback seq callback =>
      simp only [step] at hstep
      split at hstep
      · cases hstep
        refine hs.keep hscheduled rfl rfl (fun x _ => ?_) id
        exact setHandler_key rfl
          (TimerHandler.updateCallback_expiration _ _)
          (TimerHandler.updateCallback_sequence _ _) x
      · cases hstep
  | runFunctor t =>
      simp only [step] at hstep
      split at hstep
      · rename_i seq rest hphase hfunctors
        cases hstep
        exact addTimerInLoop_arming hs hphase hfunctors t
      · cases hstep
  | handleRead now lag =>
      simp only [step] at hstep
      split at hstep
      · rename_i hphase
        cases hstep
        exact handleRead_arming hs hphase now (now + lag)
      · cases hstep
  | scan t =>
      simp only [step] at hstep
      split at hstep
      · rename_i started hphase
        cases hstep
        exact scan_arming hs hphase t
      · cases hstep
  | callbackReturns =>
      simp only [step] at hstep
      split at hstep
      · rename_i now seq hphase
        cases hstep
        exact callbackReturns_arming hs hphase
      · cases hstep

theorem reachable_arming
    {numCreated : Nat} {ops : List (TimerOp κ)} {s : TimerQueue κ}
    (hrun : run step (initial numCreated) ops = some s) :
    Arming s :=
  invariant_of_run (P := fun _ => True)
    (fun _ _ _ hs _ hstep => step_arming hs hstep)
    (initial_arming numCreated) (fun _ _ => trivial) hrun

/-- The top of the heap expires first. -/
theorem Arming.top_first
    {s : TimerQueue κ} (hs : Arming s) {top seq : Nat}
    (htop : BinaryHeap.top s.heap_ = some top) (hseq : seq ∈ s.heap_) :
    (s.handlers top).expiration_ ≤ (s.handlers seq).expiration_ := by
  have hle := hs.ordered.top_le htop hseq
  rw [key, key, Prod.Lex.toLex_le_toLex] at hle
  omega

/-- In every run: whenever the loop is not in handleRead and a timer is in the
heap, the timer fd is armed for the top of the heap, which expires first; and
every value given to timerfd_settime arms it. -/
theorem timerfd_armed
    (numCreated : Nat) (ops : List (TimerOp κ)) {s : TimerQueue κ}
    (hrun : run step (initial numCreated) ops = some s) :
    (s.phase = .idle → s.heap_ ≠ [] →
      ∃ top, BinaryHeap.top s.heap_ = some top ∧
        s.timerfd.ArmedFor (s.handlers top).expiration_ ∧
        ∀ seq ∈ s.heap_,
          (s.handlers top).expiration_ ≤
            (s.handlers seq).expiration_) ∧
    ∀ value ∈ s.timerfd.calls, value.Arms := by
  have hs := reachable_arming hrun
  refine ⟨?_, hs.calls⟩
  intro hidle hne
  obtain ⟨top, htop⟩ := Option.ne_none_iff_exists'.mp
    (fun hnone => hne (List.head?_eq_none_iff.mp hnone))
  exact ⟨top, htop, hs.armed hidle top htop,
    fun seq hseq => hs.top_first htop hseq⟩

end TimerQueue

end TimerArming

/-- Two timers that expire at once, a batch that runs the first one, and the
repeating one inserted again. -/
theorem timerfd_armed_sample :
    ∃ s : TimerQueue Nat,
      run TimerQueue.step (TimerQueue.initial 0)
          [.addTimer 7 100 (some 50), .addTimer 8 400 none,
            .runFunctor ⟨10, 3⟩, .runFunctor ⟨11, 0⟩, .handleRead 120 1,
            .scan ⟨120, 0⟩, .callbackReturns, .scan ⟨121, 0⟩,
            .runFunctor ⟨122, 2⟩] = some s ∧
      s.timerfd.deadline = some 224 ∧
      s.heap_ = [0, 1] ∧
      ((s.phase = .idle → s.heap_ ≠ [] →
        ∃ top, BinaryHeap.top s.heap_ = some top ∧
          s.timerfd.ArmedFor (s.handlers top).expiration_ ∧
          ∀ seq ∈ s.heap_,
            (s.handlers top).expiration_ ≤
              (s.handlers seq).expiration_) ∧
      ∀ value ∈ s.timerfd.calls, value.Arms) := by
  obtain ⟨s, hrun, hs⟩ :=
    Option.map_eq_some_iff.mp
      (show (run TimerQueue.step (TimerQueue.initial 0)
          [.addTimer 7 100 (some 50), .addTimer 8 400 none,
            .runFunctor ⟨10, 3⟩, .runFunctor ⟨11, 0⟩, .handleRead 120 1,
            .scan ⟨120, 0⟩, .callbackReturns, .scan ⟨121, 0⟩,
            .runFunctor ⟨122, 2⟩]).map
          (fun s : TimerQueue Nat => (s.timerfd.deadline, s.heap_)) =
          some (some 224, [0, 1])
        by decide +kernel)
  obtain ⟨hdeadline, hheap⟩ := Prod.mk.inj hs
  exact ⟨s, hrun, hdeadline, hheap, TimerQueue.timerfd_armed 0 _ hrun⟩

/-- Five microseconds between the reading of the clock and timerfd_settime: the
deadline of a timer for 1000 is 1005. -/
theorem timerfd_armed_late :
    ¬ ∀ (ops : List (TimerOp Nat)) (s : TimerQueue Nat),
        run TimerQueue.step (TimerQueue.initial 0) ops = some s →
        s.phase = .idle → s.heap_ ≠ [] →
        ∃ top, BinaryHeap.top s.heap_ = some top ∧
          s.timerfd.ArmedInTime (s.handlers top).expiration_ := by
  intro hall
  obtain ⟨s, hrun, hs⟩ :=
    Option.map_eq_some_iff.mp
      (show (run TimerQueue.step (TimerQueue.initial 0)
          [.addTimer 7 1000 none, .runFunctor ⟨10, 5⟩]).map
          (fun s : TimerQueue Nat =>
            (s.timerfd.deadline, s.timerfd.lastReset, s.heap_,
              (s.handlers 0).expiration_, decide (s.phase = .idle))) =
          some (some 1005, some ⟨10, 5⟩, [0], 1000, true)
        by decide +kernel)
  simp only [Prod.mk.injEq, decide_eq_true_eq] at hs
  obtain ⟨hdeadline, hlast, hheap, hexp, hidle⟩ := hs
  obtain ⟨top, htop, deadline, t, hd, ht, hle⟩ :=
    hall _ s hrun hidle (hheap ▸ List.cons_ne_nil 0 [])
  rw [hheap] at htop
  cases htop
  cases hdeadline.symm.trans hd
  cases hlast.symm.trans ht
  rw [hexp] at hle
  exact absurd hle (by decide)

end Hohnor
