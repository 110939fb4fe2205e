import Hohnor.TransitionRuns
import Mathlib.Logic.Function.Basic

/-!
# The holder of a mutex

`Mutex` of include/hohnor/thread/Mutex.h and the waits of
include/hohnor/thread/Condition.h, with any number of threads and their atomic
steps in any order.  The pthread mutex is locked or not, and a sleeping waiter
may wake at any time: by a signal, by its timeout or without a reason.

lock() assigns currentHolder while it has the pthread mutex, and a wait clears
it before the pthread mutex is released.  unlock() clears it afterwards, when
another thread may have locked the mutex and assigned itself.

`knows_holder_iff` says in which runs this does no harm.
-/

namespace Hohnor

open TransitionRuns

/-- The thread that has the pthread mutex, and the tid in currentHolder; no
thread has the tid 0. -/
structure Mutex where
  mutex_t : Option Nat
  currentHolder : Nat
deriving DecidableEq, Repr

namespace Mutex

def create : Mutex where
  mutex_t := none
  currentHolder := 0

def unassignHolder (m : Mutex) : Mutex :=
  { m with currentHolder := 0 }

def assignHolder (m : Mutex) (tid : Nat) : Mutex :=
  { m with currentHolder := tid }

/-- pthread_mutex_lock returns when no thread has the mutex. -/
def pthreadLock (m : Mutex) (tid : Nat) : Option Mutex :=
  match m.mutex_t with
  | none => some { m with mutex_t := some tid }
  | some _ => none

def pthreadUnlock (m : Mutex) : Mutex :=
  { m with mutex_t := none }

def isLockedByThisThread (m : Mutex) (tid : Nat) : Bool :=
  m.currentHolder == tid

/-- None where the assertion fails. -/
def assertLocked (m : Mutex) (tid : Nat) : Option Unit :=
  if m.isLockedByThisThread tid then some () else none

end Mutex

/-- Where a thread is, named by what it does next: `locking` and `assigning`
are the two steps of lock(), `unlocking` and `unassigning` those of unlock(),
and wait() and timedWait() go through `waitUnassigning`, `waitReleasing`,
`sleeping` and `assigning`; pthread_cond_wait returns from `sleeping` with the
pthread mutex locked again. -/
inductive MutexPhase where
  | outside
  | locking
  | assigning
  | holding
  | unlocking
  | unassigning
  | waitUnassigning
  | waitReleasing
  | sleeping
deriving DecidableEq, Repr

/-- The phases of a thread that has the pthread mutex. -/
def MutexPhase.owns : MutexPhase → Bool
  | .assigning | .holding | .unlocking => true
  | .waitUnassigning | .waitReleasing => true
  | _ => false

structure MutexThreads where
  mutex : Mutex
  phase : Nat → MutexPhase

/-- A thread calls lock(), unlock(), or a wait, or it takes the next step of the
function that it is in. -/
inductive MutexOp where
  | lock (tid : Nat)
  | unlock (tid : Nat)
  | wait (tid : Nat)
  | proceed (tid : Nat)
deriving DecidableEq, Repr

def MutexOp.tid : MutexOp → Nat
  | .lock tid | .unlock tid | .wait tid | .proceed tid => tid

namespace MutexThreads

def initial : MutexThreads where
  mutex := .create
  phase := fun _ => .outside

/-- One thread moves on, and the mutex is `m` then. -/
def goTo
    (s : MutexThreads) (m : Mutex) (tid : Nat) (p : MutexPhase) :
    MutexThreads where
  mutex := m
  phase := Function.update s.phase tid p

@[simp] theorem goTo_mutex
    (s : MutexThreads) (m : Mutex) (tid : Nat) (p : MutexPhase) :
    (s.goTo m tid p).mutex = m := by
  rfl

theorem goTo_self
    (s : MutexThreads) (m : Mutex) (tid : Nat) (p : MutexPhase) :
    (s.goTo m tid p).phase tid = p := by
  simp only [goTo, Function.update_self]

theorem goTo_of_ne
    (s : MutexThreads) (m : Mutex) {tid x : Nat} (p : MutexPhase)
    (hx : x ≠ tid) :
    (s.goTo m tid p).phase x = s.phase x := by
  simp only [goTo, Function.update_of_ne hx]

def step (s : MutexThreads) : MutexOp → Option MutexThreads
  | .lock tid =>
      if 0 < tid ∧ s.phase tid = .outside then
        some (s.goTo s.mutex tid .locking)
      else none
  | .unlock tid =>
      if s.phase tid = .holding then
        some (s.goTo s.mutex tid .unlocking)
      else none
  | .wait tid =>
      if s.phase tid = .holding then
        some (s.goTo s.mutex tid .waitUnassigning)
      else none
  | .proceed tid =>
      match s.phase tid with
      | .locking =>
          (s.mutex.pthreadLock tid).map fun m => s.goTo m tid .assigning
      | .assigning =>
          some (s.goTo (s.mutex.assignHolder tid) tid .holding)
      | .unlocking =>
          some (s.goTo s.mutex.pthreadUnlock tid .unassigning)
      | .unassigning =>
          some (s.goTo s.mutex.unassignHolder tid .outside)
      | .waitUnassigning =>
          some (s.goTo s.mutex.unassignHolder tid .waitReleasing)
      | .waitReleasing =>
          some (s.goTo s.mutex.pthreadUnlock tid .sleeping)
      | .sleeping =>
          (s.mutex.pthreadLock tid).map fun m => s.goTo m tid .assigning
      | .outside | .holding => none

/-- Whoever has returned from lock() or from a wait, and has called neither
unlock() nor a wait since, is the holder for every thread that asks. -/
structure HolderIs (s : MutexThreads) (tid : Nat) : Prop where
  holder : s.mutex.currentHolder = tid
  self : s.mutex.isLockedByThisThread tid = true
  others : ∀ other, other ≠ tid → s.mutex.isLockedByThisThread other = false
  asserted : s.mutex.assertLocked tid = some ()

def KnowsHolder (s : MutexThreads) : Prop :=
  ∀ tid, s.phase tid = .holding → s.HolderIs tid

/-- unlock() does not clear currentHolder while a thread is between lock() and
unlock(). -/
def ClearsInTime (s : MutexThreads) : MutexOp → Prop
  | .proceed tid =>
      s.phase tid = .unassigning → ∀ other, s.phase other ≠ .holding
  | _ => True

theorem holderIs_iff
    (s : MutexThreads) (tid : Nat) :
    s.HolderIs tid ↔ s.mutex.currentHolder = tid := by
  constructor
  · exact HolderIs.holder
  · intro hholder
    have hself : s.mutex.isLockedByThisThread tid = true :=
      beq_iff_eq.mpr hholder
    constructor
    case holder =>
      exact hholder
    case self =>
      exact hself
    case others =>
      intro other hne
      refine beq_eq_false_iff_ne.mpr ?_
      rw [hholder]
      exact hne.symm
    case asserted =>
      rw [Mutex.assertLocked, if_pos hself]

theorem knowsHolder_iff
    (s : MutexThreads) :
    s.KnowsHolder ↔
      ∀ tid, s.phase tid = .holding → s.mutex.currentHolder = tid :=
  forall_congr' fun tid => imp_congr_right fun _ => s.holderIs_iff tid

structure Excludes (s : MutexThreads) : Prop where
  owner : ∀ tid, s.mutex.mutex_t = some tid ↔ (s.phase tid).owns = true
  tids : ∀ tid, s.phase tid ≠ .outside → 0 < tid

theorem initial_excludes :
    Excludes initial := by
  constructor
  case owner =>
    intro tid
    simp [initial, Mutex.create, MutexPhase.owns]
  case tids =>
    intro tid hne
    exact absurd rfl hne

/-- Two threads never have the pthread mutex at once. -/
theorem Excludes.unique
    {s : MutexThreads} (hs : Excludes s) {tid other : Nat}
    (htid : (s.phase tid).owns = true)
    (hother : (s.phase other).owns = true) :
    tid = other := by
  have howner := (hs.owner tid).mpr htid
  rw [(hs.owner other).mpr hother] at howner
  exact (Option.some.inj howner).symm

/-- How a step may change the pthread mutex: the thread keeps what it has, or
takes the mutex when it is free, or gives it back. -/
inductive Passes (s : MutexThreads) (m : Mutex) (tid : Nat)
    (p : MutexPhase) : Prop
  | keeps
      (hmutex : m.mutex_t = s.mutex.mutex_t)
      (howns : p.owns = (s.phase tid).owns)
  | takes
      (hfree : s.mutex.mutex_t = none)
      (hmutex : m.mutex_t = some tid)
      (howns : p.owns = true)
  | gives
      (hhad : (s.phase tid).owns = true)
      (hmutex : m.mutex_t = none)
      (howns : p.owns = false)

theorem Excludes.goTo
    {s : MutexThreads} (hs : Excludes s)
    {m : Mutex} {tid : Nat} {p : MutexPhase}
    (hpos : 0 < tid) (hpasses : s.Passes m tid p) :
    Excludes (s.goTo m tid p) := by
  constructor
  case owner =>
    intro x
    by_cases hx : x = tid
    · subst hx
      rw [goTo_self, goTo_mutex]
      cases hpasses with
      | keeps hmutex howns =>
          rw [hmutex, howns]
          exact hs.owner x
      | takes hfree hmutex howns =>
          simp [hmutex, howns]
      | gives hhad hmutex howns =>
          simp [hmutex, howns]
    · rw [goTo_of_ne s m p hx, goTo_mutex, ← hs.owner x]
      cases hpasses with
      | keeps hmutex howns =>
          rw [hmutex]
      | takes hfree hmutex howns =>
          simp [hfree, hmutex, Ne.symm hx]
      | gives hhad hmutex howns =>
          rw [(hs.owner tid).mpr hhad, hmutex]
          simp [Ne.symm hx]
  case tids =>
    intro x hne
    by_cases hx : x = tid
    · exact hx ▸ hpos
    · rw [goTo_of_ne s m p hx] at hne
      exact hs.tids x hne

theorem clearsInTime_of_ne
    {s : MutexThreads} {op : MutexOp}
    (hphase : s.phase op.tid ≠ .unassigning) : s.ClearsInTime op := by
  cases op with
  | proceed tid =>
      intro hlate
      exact absurd hlate hphase
  | lock tid =>
      trivial
  | unlock tid =>
      trivial
  | wait tid =>
      trivial

/-- A step by what it does to currentHolder. -/
inductive Moves (s : MutexThreads) : MutexOp → MutexThreads → Prop
  | keeps
      {op : MutexOp} {m : Mutex} {p : MutexPhase}
      (hphase : s.phase op.tid ≠ .unassigning)
      (hpasses : s.Passes m op.tid p)
      (hholder : m.currentHolder = s.mutex.currentHolder)
      (hp : p ≠ .holding) :
      Moves s op (s.goTo m op.tid p)
  | assigns
      {tid : Nat}
      (hphase : s.phase tid = .assigning) :
      Moves s (.proceed tid)
        (s.goTo (s.mutex.assignHolder tid) tid .holding)
  | clears
      {tid : Nat}
      (hphase : s.phase tid = .waitUnassigning) :
      Moves s (.proceed tid)
        (s.goTo s.mutex.unassignHolder tid .waitReleasing)
  | clearsLate
      {tid : Nat}
      (hphase : s.phase tid = .unassigning) :
      Moves s (.proceed tid)
        (s.goTo s.mutex.unassignHolder tid .outside)

theorem pthreadLock_moves
    {s : MutexThreads} {tid : Nat} {s' : MutexThreads}
    (hphase : s.phase tid ≠ .unassigning)
    (hlock :
      (s.mutex.pthreadLock tid).map (fun m => s.goTo m tid .assigning) =
        some s') :
    Moves s (.proceed tid) s' := by
  obtain ⟨m, hm, rfl⟩ := Option.map_eq_some_iff.mp hlock
  rw [Mutex.pthreadLock] at hm
  split at hm
  · rename_i hfree
    cases hm
    exact @Moves.keeps s (.proceed tid) _ _ hphase
      (.takes hfree rfl rfl) rfl (by simp)
  · cases hm

/-- A call, or a step that gives the pthread mutex back. -/
theorem moves_of_passes
    {s : MutexThreads} {op : MutexOp} {m : Mutex} {p₀ p : MutexPhase}
    (hphase : s.phase op.tid = p₀) (hp₀ : p₀ ≠ .unassigning)
    (hpasses : s.Passes m op.tid p)
    (hholder : m.currentHolder = s.mutex.currentHolder)
    (hp : p ≠ .holding) :
    Moves s op (s.goTo m op.tid p) := by
  refine .keeps ?_ hpasses hholder hp
  rw [hphase]
  exact hp₀

theorem call_moves
    {s : MutexThreads} {op : MutexOp} {p₀ p : MutexPhase}
    (hphase : s.phase op.tid = p₀) (hp₀ : p₀ ≠ .unassigning)
    (howns : p.owns = p₀.owns) (hp : p ≠ .holding) :
    Moves s op (s.goTo s.mutex op.tid p) := by
  refine moves_of_passes hphase hp₀ (.keeps rfl ?_) rfl hp
  rw [hphase]
  exact howns

theorem release_moves
    {s : MutexThreads} {op : MutexOp} {p₀ p : MutexPhase}
    (hphase : s.phase op.tid = p₀) (hp₀ : p₀.owns = true)
    (howns : p.owns = false) :
    Moves s op (s.goTo s.mutex.pthreadUnlock op.tid p) := by
  refine moves_of_passes hphase ?_ (.gives ?_ rfl howns) rfl ?_
  · rintro rfl
    cases hp₀
  · rw [hphase]
    exact hp₀
  · rintro rfl
    cases howns

theorem step_moves
    {s s' : MutexThreads} {op : MutexOp}
    (hstep : s.step op = some s') : Moves s op s' := by
  cases op with
  | lock tid =>
      simp only [step] at hstep
      split at hstep
      · rename_i hlock
        cases hstep
        exact @call_moves s (.lock tid) _ _ hlock.2 (by simp) rfl (by simp)
      · cases hstep
  | unlock tid =>
      simp only [step] at hstep
      split at hstep
      · rename_i hphase
        cases hstep
        exact @call_moves s (.unlock tid) _ _ hphase (by simp) rfl (by simp)
      · cases hstep
  | wait tid =>
      simp only [step] at hstep
      split at hstep
      · rename_i hphase
        cases hstep
        exact @call_moves s (.wait tid) _ _ hphase (by simp) rfl (by simp)
      · cases hstep
  | proceed tid =>
      simp only [step] at hstep
      cases hphase : s.phase tid with
      | outside =>
          simp [hphase] at hstep
      | locking =>
          simp only [hphase] at hstep
          exact pthreadLock_moves (by simp [hphase]) hstep
      | assigning =>
          simp only [hphase] at hstep
          cases hstep
          exact .assigns hphase
      | holding =>
          simp [hphase] at hstep
      | unlocking =>
          simp only [hphase] at hstep
          cases hstep
          exact @release_moves s (.proceed tid) _ _ hphase rfl rfl
      | unassigning =>
          simp only [hphase] at hstep
          cases hstep
          exact .clearsLate hphase
      | waitUnassigning =>
          simp only [hphase] at hstep
          cases hstep
          exact .clears hphase
      | waitReleasing =>
          simp only [hphase] at hstep
          cases hstep
          exact @release_moves s (.proceed tid) _ _ hphase rfl rfl
      | sleeping =>
          simp only [hphase] at hstep
          exact pthreadLock_moves (by simp [hphase]) hstep

/-- Only a thread that exists takes a step. -/
theorem tid_pos
    {s s' : MutexThreads} (hs : Excludes s) {op : MutexOp}
    (hstep : s.step op = some s') : 0 < op.tid := by
  cases op with
  | lock tid =>
      simp only [step] at hstep
      split at hstep
      · rename_i hlock
        exact hlock.1
      · cases hstep
  | unlock tid =>
      simp only [step] at hstep
      split at hstep
      · rename_i hphase
        exact hs.tids tid (by simp [hphase])
      · cases hstep
  | wait tid =>
      simp only [step] at hstep
      split at hstep
      · rename_i hphase
        exact hs.tids tid (by simp [hphase])
      · cases hstep
  | proceed tid =>
      refine hs.tids tid ?_
      intro hphase
      simp [step, hphase] at hstep

theorem step_excludes
    {s s' : MutexThreads} (hs : Excludes s) {op : MutexOp}
    (hstep : s.step op = some s') : Excludes s' := by
  have hpos := tid_pos hs hstep
  cases step_moves hstep with
  | keeps hphase hpasses hholder hp =>
      exact hs.goTo hpos hpasses
  | assigns hphase =>
      exact hs.goTo hpos (.keeps rfl (by simp [hphase, MutexPhase.owns]))
  | clears hphase =>
      exact hs.goTo hpos (.keeps rfl (by simp [hphase, MutexPhase.owns]))
  | clearsLate hphase =>
      exact hs.goTo hpos (.keeps rfl (by simp [hphase, MutexPhase.owns]))

/-- A thread moves on and is not between lock() and unlock() then. -/
theorem knowsHolder_goTo_iff
    {s : MutexThreads} {m : Mutex} {tid : Nat} {p : MutexPhase}
    (hp : p ≠ .holding) :
    (s.goTo m tid p).KnowsHolder ↔
      ∀ x, x ≠ tid → s.phase x = .holding → m.currentHolder = x := by
  rw [knowsHolder_iff]
  constructor
  · intro h x hx hholding
    refine h x ?_
    rw [goTo_of_ne s m p hx]
    exact hholding
  · intro h x hholding
    by_cases hx : x = tid
    · subst hx
      rw [goTo_self] at hholding
      exact absurd hholding hp
    · rw [goTo_of_ne s m p hx] at hholding
      exact h x hx hholding

/-- A step from a state in which the holder is known leaves it known exactly
when it does not clear it late. -/
theorem step_knowsHolder
    {s s' : MutexThreads} (hs : Excludes s) (hknows : s.KnowsHolder)
    {op : MutexOp} (hstep : s.step op = some s') :
    s'.KnowsHolder ↔ s.ClearsInTime op := by
  rw [knowsHolder_iff] at hknows
  cases step_moves hstep with
  | keeps hphase hpasses hholder hp =>
      refine iff_of_true ?_ (clearsInTime_of_ne hphase)
      rw [knowsHolder_goTo_iff hp]
      intro x _ hholding
      exact hholder.trans (hknows x hholding)
  | @assigns tid hphase =>
      refine iff_of_true ?_
        (clearsInTime_of_ne (by simp [MutexOp.tid, hphase]))
      rw [knowsHolder_iff]
      intro x hholding
      by_cases hx : x = tid
      · exact hx.symm
      · rw [goTo_of_ne s _ _ hx] at hholding
        exact absurd
          (hs.unique (by simp [hholding, MutexPhase.owns])
            (by simp [hphase, MutexPhase.owns])) hx
  | @clears tid hphase =>
      refine iff_of_true ?_
        (clearsInTime_of_ne (by simp [MutexOp.tid, hphase]))
      rw [knowsHolder_goTo_iff (by simp)]
      intro x hx hholding
      exact absurd
        (hs.unique (by simp [hholding, MutexPhase.owns])
          (by simp [hphase, MutexPhase.owns])) hx
  | @clearsLate tid hphase =>
      rw [knowsHolder_goTo_iff (by simp)]
      constructor
      · intro h _ x hholding
        have hx : x ≠ tid := by
          rintro rfl
          rw [hphase] at hholding
          cases hholding
        have hpos := hs.tids x (by simp [hholding])
        have hzero : (0 : Nat) = x := h x hx hholding
        omega
      · intro hclears x _ hholding
        exact absurd hholding (hclears hphase x)

theorem initial_knowsHolder :
    initial.KnowsHolder := by
  intro tid hholding
  cases hholding

/-- In every run of any number of threads: the mutex knows its holder in all
states exactly when no unlock() clears currentHolder while another thread is
between lock(), or a wait, and unlock(). -/
theorem knows_holder_iff
    (ops : List MutexOp) :
    EveryStep step (fun _ _ s' => s'.KnowsHolder) initial ops ↔
      EveryStep step (fun s op _ => s.ClearsInTime op) initial ops := by
  refine everyStep_iff (fun s => Excludes s ∧ s.KnowsHolder)
    (P := fun _ => True) ?_ ⟨initial_excludes, initial_knowsHolder⟩
    (fun _ _ => trivial)
  rintro s op s' ⟨hs, hknows⟩ _ hstep
  have hiff := step_knowsHolder hs hknows hstep
  exact ⟨hiff, fun hclears => ⟨step_excludes hs hstep, hiff.mpr hclears⟩⟩

end MutexThreads

/-- Thread 1 unlocks, thread 2 locks in between, and thread 1 clears the holder
that thread 2 has assigned. -/
theorem holder_cleared_late :
    ∃ s : MutexThreads,
      run MutexThreads.step MutexThreads.initial
          [.lock 1, .proceed 1, .proceed 1, .lock 2, .unlock 1,
            .proceed 1, .proceed 2, .proceed 2, .proceed 1] = some s ∧
      s.phase 2 = .holding ∧
      s.mutex.isLockedByThisThread 2 = false ∧
      s.mutex.assertLocked 2 = none ∧
      ¬ EveryStep MutexThreads.step (fun _ _ s' => s'.KnowsHolder)
          MutexThreads.initial
          [.lock 1, .proceed 1, .proceed 1, .lock 2, .unlock 1,
            .proceed 1, .proceed 2, .proceed 2, .proceed 1] := by
  obtain ⟨s, hrun, hs⟩ :=
    Option.map_eq_some_iff.mp
      (show (run MutexThreads.step MutexThreads.initial
          [.lock 1, .proceed 1, .proceed 1, .lock 2, .unlock 1,
            .proceed 1, .proceed 2, .proceed 2, .proceed 1]).map
          (fun s : MutexThreads => (s.phase 2, s.mutex.currentHolder)) =
          some (.holding, 0)
        by decide +kernel)
  obtain ⟨hphase, hholder⟩ := Prod.mk.inj hs
  have hself : s.mutex.isLockedByThisThread 2 = false := by
    rw [Mutex.isLockedByThisThread, hholder]
    rfl
  refine ⟨s, hrun, hphase, hself, ?_, ?_⟩
  · rw [Mutex.assertLocked, hself]
    rfl
  · intro hevery
    have hknows :=
      everyStep_last MutexThreads.initial_knowsHolder hevery hrun
    have hwrong := (hknows 2 hphase).self
    rw [hself] at hwrong
    cases hwrong

end Hohnor
