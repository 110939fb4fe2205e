import Hohnor.Slots
import Hohnor.ThreadPool

/-!
# The tasks of a thread pool

Over whole runs of a pool: who waits at the queue, in whose hands the tasks
are, what busyThreads_ counts, and how far stop() has come.

`pool_runs_and_stops` says that each task is started at most once and in what
order tasks leave the queue, that busyThreads_ counts the running ones, and
what is left when stop() has returned.
-/

namespace Hohnor

open ConditionVariables Slots TransitionRuns

section PoolTasks

variable {ω : Type}

/-- The threads that wait to take, and those that wait to put with their tasks:
no thread waits twice, the takers are workers in take(), and no task is there
twice. -/
structure Lineup
    (takers : List (PoolThread ω))
    (putters : List (PoolThread ω × Option Nat))
    (puts : List (Option Nat)) (pool_ : List WorkerState)
    (next : Nat) : Prop where
  once : (takers ++ putters.map Prod.fst).Nodup
  taking :
    ∀ t ∈ takers, ∃ i, t = .worker i ∧ pool_[i]? = some .take
  tasks : ((puts ++ putters.map Prod.snd).filterMap id).Nodup
  below :
    ∀ k ∈ (puts ++ putters.map Prod.snd).filterMap id, k < next

namespace Lineup

variable {takers takers' : List (PoolThread ω)}
variable {putters putters' : List (PoolThread ω × Option Nat)}
variable {puts : List (Option Nat)} {pool_ : List WorkerState}
variable {next : Nat}

/-- A task that is not there yet. -/
def New
    (puts : List (Option Nat))
    (putters : List (PoolThread ω × Option Nat)) (next : Nat)
    (x : Option Nat) : Prop :=
  ∀ k, x = some k →
    k ∉ (puts ++ putters.map Prod.snd).filterMap id ∧ k < next

theorem perm
    (h : Lineup takers putters puts pool_ next)
    (htakers : takers'.Perm takers) (hputters : putters'.Perm putters) :
    Lineup takers' putters' puts pool_ next where
  once :=
    ((htakers.append (hputters.map Prod.fst)).nodup_iff).mpr h.once
  taking := fun t ht => h.taking t (htakers.mem_iff.mp ht)
  tasks :=
    ((((hputters.map Prod.snd).append_left puts).filterMap id).nodup_iff).mpr
      h.tasks
  below := fun k hk =>
    h.below k
      ((((hputters.map Prod.snd).append_left puts).filterMap id).mem_iff.mp
        hk)

/-- A worker in take() goes to wait. -/
theorem takerWaits
    (h : Lineup takers putters puts pool_ next) {t : PoolThread ω}
    (ht : t ∉ takers ++ putters.map Prod.fst)
    (htaking : ∃ i, t = .worker i ∧ pool_[i]? = some .take) :
    Lineup (t :: takers) putters puts pool_ next where
  once := List.nodup_cons.mpr ⟨ht, h.once⟩
  taking := by
    intro t' ht'
    rcases List.mem_cons.mp ht' with rfl | ht'
    · exact htaking
    · exact h.taking t' ht'
  tasks := h.tasks
  below := h.below

theorem takerLeaves
    {t : PoolThread ω} (h : Lineup (t :: takers) putters puts pool_ next) :
    Lineup takers putters puts pool_ next ∧
      t ∉ takers ++ putters.map Prod.fst ∧
      ∃ i, t = .worker i ∧ pool_[i]? = some .take := by
  obtain ⟨ht, honce⟩ := List.nodup_cons.mp h.once
  refine ⟨⟨honce, ?_, h.tasks, h.below⟩, ht,
    h.taking t (List.mem_cons_self ..)⟩
  intro t' ht'
  exact h.taking t' (List.mem_cons_of_mem t ht')

theorem tasks_perm
    (puts : List (Option Nat)) (t : PoolThread ω) (x : Option Nat)
    (putters : List (PoolThread ω × Option Nat)) :
    ((puts ++ ((t, x) :: putters).map Prod.snd).filterMap id).Perm
      (x.toList ++ (puts ++ putters.map Prod.snd).filterMap id) :=
  filterMap_middle id puts x (putters.map Prod.snd)

theorem putterWaits
    (h : Lineup takers putters puts pool_ next) {t : PoolThread ω}
    {x : Option Nat} (ht : t ∉ takers ++ putters.map Prod.fst)
    (hx : New puts putters next x) :
    Lineup takers ((t, x) :: putters) puts pool_ next where
  once := by
    rw [List.map_cons]
    exact (List.perm_middle.nodup_iff).mpr
      (List.nodup_cons.mpr ⟨ht, h.once⟩)
  taking := h.taking
  tasks := by
    rw [(tasks_perm puts t x putters).nodup_iff]
    cases x with
    | none =>
        exact h.tasks
    | some k =>
        exact List.nodup_cons.mpr ⟨(hx k rfl).1, h.tasks⟩
  below := by
    intro k hk
    rcases List.mem_append.mp
      ((tasks_perm puts t x putters).mem_iff.mp hk) with hk | hk
    · exact (hx k (Option.mem_toList.mp hk)).2
    · exact h.below k hk

theorem putterLeaves
    {t : PoolThread ω} {x : Option Nat}
    (h : Lineup takers ((t, x) :: putters) puts pool_ next) :
    Lineup takers putters puts pool_ next ∧
      t ∉ takers ++ putters.map Prod.fst ∧
      New puts putters next x := by
  have honce := h.once
  rw [List.map_cons, List.perm_middle.nodup_iff] at honce
  obtain ⟨ht, honce⟩ := List.nodup_cons.mp honce
  have htasks := h.tasks
  rw [(tasks_perm puts t x putters).nodup_iff, List.nodup_append]
    at htasks
  have hbelow : ∀ k ∈ x.toList ++ (puts ++ putters.map Prod.snd).filterMap
      id, k < next :=
    fun k hk => h.below k ((tasks_perm puts t x putters).mem_iff.mpr hk)
  refine ⟨⟨honce, h.taking, htasks.2.1, ?_⟩, ht, ?_⟩
  · intro k hk
    exact hbelow k (List.mem_append_right _ hk)
  · rintro k rfl
    refine ⟨?_, hbelow k (List.mem_append_left _ (by simp))⟩
    intro hk
    exact htasks.2.2 k (by simp) k hk rfl

/-- The task of a put is in the queue. -/
theorem adds
    (h : Lineup takers putters puts pool_ next) {x : Option Nat}
    (hx : New puts putters next x) :
    Lineup takers putters (puts ++ [x]) pool_ next := by
  have hperm :
      ((puts ++ [x] ++ putters.map Prod.snd).filterMap id).Perm
        (x.toList ++ (puts ++ putters.map Prod.snd).filterMap id) := by
    rw [List.append_assoc, List.singleton_append]
    exact filterMap_middle id puts x (putters.map Prod.snd)
  refine ⟨h.once, h.taking, ?_, ?_⟩
  · rw [hperm.nodup_iff]
    cases x with
    | none =>
        exact h.tasks
    | some k =>
        exact List.nodup_cons.mpr ⟨(hx k rfl).1, h.tasks⟩
  · intro k hk
    rcases List.mem_append.mp (hperm.mem_iff.mp hk) with hk | hk
    · exact (hx k (Option.mem_toList.mp hk)).2
    · exact h.below k hk

/-- A worker that does not wait to take goes on. -/
theorem workerMoves
    (h : Lineup takers putters puts pool_ next) {i : Nat}
    (hi : PoolThread.worker i ∉ takers) (w : WorkerState) :
    Lineup takers putters puts (pool_.set i w) next where
  once := h.once
  taking := by
    intro t ht
    obtain ⟨j, rfl, hj⟩ := h.taking t ht
    refine ⟨j, rfl, ?_⟩
    have hne : i ≠ j := by
      rintro rfl
      exact hi ht
    rw [List.getElem?_set_ne hne]
    exact hj
  tasks := h.tasks
  below := h.below

theorem next_mono
    (h : Lineup takers putters puts pool_ next) {n : Nat}
    (hn : next ≤ n) :
    Lineup takers putters puts pool_ n where
  once := h.once
  taking := h.taking
  tasks := h.tasks
  below := fun k hk => Nat.lt_of_lt_of_le (h.below k hk) hn

end Lineup

namespace PoolRun

/-- A put, of a new thread or of one that has just left its wait. -/
theorem put_lineup
    {q q' : BoundedBlockingQueue (PoolThread ω) (Option Nat)}
    {puts : List (Option Nat)} {pool_ : List WorkerState} {next : Nat}
    {t : PoolThread ω} {x : Option Nat} {pick : Nat} {r : PutResult}
    (h : Lineup q.notEmpty_.parked q.notFull_.parked puts pool_ next)
    (ht : t ∉ q.parked) (hx : Lineup.New puts q.notFull_.parked next x)
    (hput : q.put t x pick = some (r, q')) :
    Lineup q'.notEmpty_.parked q'.notFull_.parked
      (puts ++ (QueueEvent.put t x r).added) pool_ next := by
  rcases BoundedBlockingQueue.put_cases hput with
    ⟨rfl, _, _, rfl⟩ | ⟨rfl, _, rfl⟩ | ⟨rfl, _, b, _, rfl⟩
  · simp only [QueueEvent.added, List.append_nil]
    exact (h.putterWaits ht hx).perm (List.Perm.refl _)
      (CondVar.wait_parked _ _)
  · simpa [QueueEvent.added] using h
  · exact (h.adds hx).perm (CondVar.notify_parked _ _) (List.Perm.refl _)

/-- A take, of a worker that has come to it or has just left its wait. -/
theorem take_lineup
    {q q' : BoundedBlockingQueue (PoolThread ω) (Option Nat)}
    {puts : List (Option Nat)} {pool_ : List WorkerState} {next : Nat}
    {t : PoolThread ω} {pick : Nat} {r : TakeResult (Option Nat)}
    (h : Lineup q.notEmpty_.parked q.notFull_.parked puts pool_ next)
    (ht : t ∉ q.parked)
    (htaking : ∃ i, t = .worker i ∧ pool_[i]? = some .take)
    (htake : q.take t pick = some (r, q')) :
    Lineup q'.notEmpty_.parked q'.notFull_.parked puts
      (afterTake pool_ (.take t r)) next := by
  have hi : t ∉ q.notEmpty_.parked :=
    fun hmem => ht (List.mem_append_left _ hmem)
  obtain ⟨i, rfl, hget⟩ := htaking
  rcases BoundedBlockingQueue.take_cases htake with
    ⟨rfl, _, _, rfl⟩ | ⟨rfl, _, rfl⟩ | ⟨_, x, b, rfl, _, rfl⟩
  · exact (h.takerWaits ht ⟨i, rfl, hget⟩).perm
      (CondVar.wait_parked _ _) (List.Perm.refl _)
  · exact h.workerMoves hi _
  · exact (h.perm (List.Perm.refl _)
      (CondVar.notify_parked _ _)).workerMoves hi _

def lineup (s : PoolRun ω) : Prop :=
  Lineup s.pool.queue_.notEmpty_.parked s.pool.queue_.notFull_.parked
    s.puts s.pool.pool_ s.next

/-- A new run() brings a task that is not there yet. -/
theorem new_of_allows
    {s : PoolRun ω} (hs : s.lineup) {t : PoolThread ω} {x : Option Nat}
    {pick : Nat} (hallows : s.allows (.put t x pick) = true) :
    Lineup.New s.puts s.pool.queue_.notFull_.parked (s.next + 1) x := by
  rintro k rfl
  have hk : k = s.next := by
    simp only [allows, Bool.and_eq_true] at hallows
    simpa using hallows.2
  subst hk
  refine ⟨?_, Nat.lt_succ_self _⟩
  intro hmem
  exact Nat.lt_irrefl _ (hs.below _ hmem)

/-- The worker of a take is in take(). -/
def TakerTaking
    (pool_ : List WorkerState)
    (e : QueueEvent (PoolThread ω) (Option Nat)) : Prop :=
  ∀ t r, e = .take t r → ∃ i, t = .worker i ∧ pool_[i]? = some .take

theorem queueStep_lineup [DecidableEq ω]
    {s : PoolRun ω} (hs : s.lineup)
    {l : QueueStep (PoolThread ω) (Option Nat)}
    {e : QueueEvent (PoolThread ω) (Option Nat)}
    {q' : BoundedBlockingQueue (PoolThread ω) (Option Nat)}
    (hallows : s.allows l = true)
    (hadmits : s.pool.queue_.admits l = true)
    (hperform : s.pool.queue_.perform l = some (e, q')) :
    (s.queueStep l (e, q')).lineup ∧ TakerTaking s.pool.pool_ e := by
  have hno :
      ∀ t x r, TakerTaking s.pool.pool_
        (.put t x r : QueueEvent (PoolThread ω) (Option Nat)) := by
    intro t x r t' r' heq
    cases heq
  have hsilent :
      TakerTaking s.pool.pool_
        (.silent : QueueEvent (PoolThread ω) (Option Nat)) := by
    intro t' r' heq
    cases heq
  cases BoundedBlockingQueue.perform_cases hperform with
  | @put t x pick r q' hput =>
      have ht : t ∉ s.pool.queue_.parked := by
        simpa [BoundedBlockingQueue.admits] using hadmits
      exact ⟨put_lineup (hs.next_mono (Nat.le_succ _)) ht
        (new_of_allows hs hallows) hput, hno _ _ _⟩
  | @putAgain wake i pick t x v r q' hresume hput =>
      obtain ⟨hrest, ht, hx⟩ :=
        (hs.perm (List.Perm.refl _)
          (CondVar.resume_parked hresume).symm).putterLeaves
      exact ⟨put_lineup (q := { s.pool.queue_ with notFull_ := v })
        hrest ht hx hput, hno _ _ _⟩
  | rousePut hrouse =>
      refine ⟨?_, hsilent⟩
      have hline :=
        hs.perm (List.Perm.refl _) (CondVar.rouse_parked hrouse)
      simpa [lineup, queueStep, queueRun, QueueRun.record,
        QueueEvent.added, nextAfter, afterTake] using hline
  | @take t pick r q' htake =>
      have ht : t ∉ s.pool.queue_.parked := by
        simpa [BoundedBlockingQueue.admits] using hadmits
      have htaking :
          ∃ i, t = .worker i ∧ s.pool.pool_[i]? = some .take := by
        cases t with
        | worker i =>
            exact ⟨i, rfl, by simpa [allows] using hallows⟩
        | caller c =>
            cases hallows
      refine ⟨?_, ?_⟩
      · have hline := take_lineup hs ht htaking htake
        simpa [lineup, queueStep, queueRun, QueueRun.record,
          QueueEvent.added, nextAfter] using hline
      · intro t' r' heq
        cases heq
        exact htaking
  | @takeAgain wake i pick t v r q' hresume htake =>
      obtain ⟨hrest, ht, htaking⟩ :=
        (hs.perm (CondVar.resume_parked hresume).symm
          (List.Perm.refl _)).takerLeaves
      refine ⟨?_, ?_⟩
      · have hline :=
          take_lineup (q := { s.pool.queue_ with notEmpty_ := v })
            hrest ht htaking htake
        simpa [lineup, queueStep, queueRun, QueueRun.record,
          QueueEvent.added, nextAfter] using hline
      · intro t' r' heq
        cases heq
        exact htaking
  | rouseTake hrouse =>
      refine ⟨?_, hsilent⟩
      have hline :=
        hs.perm (CondVar.rouse_parked hrouse) (List.Perm.refl _)
      simpa [lineup, queueStep, queueRun, QueueRun.record,
        QueueEvent.added, nextAfter, afterTake] using hline
  | giveUp =>
      cases hallows

/-- A task that has been taken is started or held by a worker, one that has
been started has ended or is running, and busyThreads_ is exact. -/
structure TaskInv (s : PoolRun ω) : Prop where
  taken :
    (s.takes.filterMap id).Perm
      (s.started ++ s.pool.pool_.filterMap WorkerState.holds)
  ran :
    s.started.Perm (s.ended ++ s.pool.pool_.filterMap WorkerState.runs)
  busy : s.pool.busyThreads_ = s.pool.pool_.countP WorkerState.counted

/-- One step of a worker outside of take(). -/
theorem runInThread_spec
    {p : ThreadPool ω} {w : WorkerState} {r : WorkerState × Nat}
    (hbusy : w.counted = true → 0 < p.busyThreads_)
    (hrun : p.runInThread w = some r) :
    w.holds.toList = w.starts.toList ++ r.1.holds.toList ∧
      w.starts.toList = r.1.runs.toList ∧
      p.busyThreads_ + r.1.counted.toNat = r.2 + w.counted.toNat := by
  cases w with
  | test =>
      cases hrun
      cases p.running_ <;> exact ⟨rfl, rfl, rfl⟩
  | busy t =>
      cases t with
      | none =>
          cases hrun
          exact ⟨rfl, rfl, rfl⟩
      | some task =>
          cases hrun
          exact ⟨rfl, rfl, rfl⟩
  | leave =>
      cases hrun
      refine ⟨rfl, rfl, ?_⟩
      have hpos := hbusy rfl
      simp only [WorkerState.counted, Bool.toNat_false, Bool.toNat_true]
      omega
  | take =>
      cases hrun
  | exited =>
      cases hrun
  | _ =>
      cases hrun
      exact ⟨rfl, rfl, rfl⟩

theorem workStep_taskInv
    {s : PoolRun ω} (hs : TaskInv s) {i : Nat} {w : WorkerState}
    {r : WorkerState × Nat} (hget : s.pool.pool_[i]? = some w)
    (hrun : s.pool.runInThread w = some r) :
    TaskInv (s.workStep i w r) := by
  have hpos : w.counted = true → 0 < s.pool.busyThreads_ := by
    intro hw
    rw [hs.busy]
    exact List.countP_pos_iff.mpr ⟨w, List.mem_of_getElem? hget, hw⟩
  obtain ⟨hholds, hstarts, hbusy⟩ := runInThread_spec hpos hrun
  refine ⟨?_, ?_, ?_⟩
  · have hbefore :=
      hs.taken.trans ((filterMap_get hget WorkerState.holds).append_left _)
    have hafter :=
      (filterMap_set hget WorkerState.holds r.1).append_left
        (s.started ++ w.starts.toList)
    refine hbefore.trans (List.Perm.trans ?_ hafter.symm)
    rw [hholds, List.append_assoc, List.append_assoc]
  · have hbefore :=
      hs.ran.trans ((filterMap_get hget WorkerState.runs).append_left _)
    have hafter :=
      (filterMap_set hget WorkerState.runs r.1).append_left
        (s.ended ++ w.runs.toList)
    refine List.Perm.trans ?_ hafter.symm
    change (s.started ++ w.starts.toList).Perm _
    rw [hstarts]
    refine (hbefore.append_right _).trans ?_
    simp only [List.append_assoc]
    exact (List.perm_append_comm.append_left _).append_left _
  · have hcount := countP_set hget WorkerState.counted r.1
    have hexact := hs.busy
    change r.2 = (s.pool.pool_.set i r.1).countP WorkerState.counted
    omega

/-- The value that a take returns counts as taken where it is a task. -/
theorem taken_after
    {s : PoolRun ω} {l : QueueStep (PoolThread ω) (Option Nat)}
    {t : PoolThread ω} {x : Option Nat}
    {q' : BoundedBlockingQueue (PoolThread ω) (Option Nat)}
    (hmoves : s.pool.queue_.Moves (.take t (.returned x)) q') :
    (s.queueStep l (.take t (.returned x), q')).takes.filterMap id =
      s.takes.filterMap id ++ x.toList := by
  cases hend : s.pool.queue_.end_ with
  | false =>
      simp only [queueStep, queueRun, QueueRun.record, hend,
        QueueEvent.returned, Bool.false_eq_true, if_false,
        List.filterMap_append]
      cases x <;> rfl
  | true =>
      have hx := (hmoves.refused hend).2.2
      cases hx
      simp only [queueStep, queueRun, QueueRun.record, hend, if_true]
      exact (List.append_nil _).symm

/-- A worker in take() is given `x`. -/
theorem TaskInv.given
    {s s' : PoolRun ω} (hs : TaskInv s) {i : Nat} {x : Option Nat}
    (hget : s.pool.pool_[i]? = some .take)
    (hpool : s'.pool.pool_ = s.pool.pool_.set i (.taken x))
    (htakes :
      s'.takes.filterMap id = s.takes.filterMap id ++ x.toList)
    (hstarted : s'.started = s.started) (hended : s'.ended = s.ended)
    (hbusy : s'.pool.busyThreads_ = s.pool.busyThreads_) :
    TaskInv s' := by
  refine ⟨?_, ?_, ?_⟩
  · rw [htakes, hstarted, hpool]
    have hbefore :=
      hs.taken.trans ((filterMap_get hget WorkerState.holds).append_left _)
    have hafter :=
      (filterMap_set hget WorkerState.holds (.taken x)).append_left
        s.started
    refine List.Perm.trans ?_ hafter.symm
    refine (hbefore.append_right x.toList).trans ?_
    rw [List.append_assoc]
    exact List.perm_append_comm.append_left s.started
  · rw [hstarted, hended, hpool]
    have hbefore :=
      hs.ran.trans ((filterMap_get hget WorkerState.runs).append_left _)
    have hafter :=
      (filterMap_set hget WorkerState.runs (.taken x)).append_left s.ended
    exact hbefore.trans hafter.symm
  · have hcount := countP_set hget WorkerState.counted (.taken x)
    have hexact := hs.busy
    simp only [WorkerState.counted, Bool.toNat_false, Nat.add_zero]
      at hcount
    rw [hbusy, hpool]
    omega

/-- Only a take that returns hands a task to a worker. -/
theorem afterTake_taskInv
    {s : PoolRun ω} (hs : TaskInv s)
    {l : QueueStep (PoolThread ω) (Option Nat)}
    {e : QueueEvent (PoolThread ω) (Option Nat)}
    {q' : BoundedBlockingQueue (PoolThread ω) (Option Nat)}
    (htaking : TakerTaking s.pool.pool_ e)
    (hmoves : s.pool.queue_.Moves e q') :
    TaskInv (s.queueStep l (e, q')) := by
  have hkeep :
      e.returned = [] → afterTake s.pool.pool_ e = s.pool.pool_ →
        TaskInv (s.queueStep l (e, q')) := by
    intro hreturned hpool
    have htakes : (s.queueStep l (e, q')).takes = s.takes := by
      simp [queueStep, queueRun, QueueRun.record, hreturned]
    have hworkers :
        (s.queueStep l (e, q')).pool.pool_ = s.pool.pool_ := hpool
    refine ⟨?_, ?_, ?_⟩
    · rw [htakes, hworkers]
      exact hs.taken
    · rw [hworkers]
      exact hs.ran
    · rw [hworkers]
      exact hs.busy
  cases e with
  | put t x r =>
      exact hkeep rfl rfl
  | silent =>
      exact hkeep rfl rfl
  | take t r =>
      cases r with
      | waits =>
          refine hkeep rfl ?_
          cases t <;> rfl
      | returned x =>
          obtain ⟨i, rfl, hget⟩ := htaking t _ rfl
          exact hs.given hget rfl (taken_after hmoves) rfl rfl rfl

def gaveUp (s : PoolRun ω) : Bool :=
  match s.stop with
  | .joining _ => true
  | .returned => true
  | _ => false

/-- The workers that stop() has joined. -/
def joined (s : PoolRun ω) : Nat :=
  match s.stop with
  | .joining k => k
  | .returned => s.pool.pool_.length
  | _ => 0

structure StopInv (s : PoolRun ω) : Prop where
  gaveUp : s.gaveUp = true → s.pool.queue_.end_ = true
  joined : ∀ i < s.joined, s.pool.pool_[i]? = some .exited

theorem afterTake_length
    (pool_ : List WorkerState)
    (e : QueueEvent (PoolThread ω) (Option Nat)) :
    (afterTake pool_ e).length = pool_.length := by
  unfold afterTake
  split
  · exact List.length_set
  · rfl

/-- A worker that has left `runInThread` stays out of it. -/
theorem afterTake_exited
    {pool_ : List WorkerState}
    {e : QueueEvent (PoolThread ω) (Option Nat)}
    (htaking : TakerTaking pool_ e) {j : Nat}
    (hj : pool_[j]? = some .exited) :
    (afterTake pool_ e)[j]? = some .exited := by
  unfold afterTake
  split
  · rename_i i t
    obtain ⟨i', heq, hget⟩ := htaking _ _ rfl
    cases heq
    have hne : i ≠ j := by
      rintro rfl
      rw [hj] at hget
      cases hget
    rw [List.getElem?_set_ne hne]
    exact hj
  · exact hj

theorem set_exited
    {p : ThreadPool ω} {i j : Nat} {w : WorkerState}
    {r : WorkerState × Nat} (hget : p.pool_[i]? = some w)
    (hrun : p.runInThread w = some r)
    (hj : p.pool_[j]? = some .exited) :
    (p.pool_.set i r.1)[j]? = some .exited := by
  have hne : i ≠ j := by
    rintro rfl
    rw [hj] at hget
    cases hget
    cases hrun
  rw [List.getElem?_set_ne hne]
  exact hj

structure PoolInv (maxSize threadNum : Nat) (s : PoolRun ω) : Prop where
  fifo : s.queueRun.FifoInv maxSize
  wake : s.pool.queue_.NoLostWakeUp
  lineup : s.lineup
  tasks : TaskInv s
  stopping : StopInv s
  workers : s.pool.pool_.length = threadNum

/-- The size that setMaxQueueSize() settles for. -/
def maxQueueSize (size : Nat) : Nat :=
  if size < 2 then 42 else size

theorem initial_poolInv
    (b₁ b₂ b₃ b₄ : Bool) (size threadNum : Nat) :
    PoolInv (maxQueueSize size) threadNum
      (initial
        (((ThreadPool.create b₁ b₂ b₃ b₄ : ThreadPool ω).setMaxQueueSize
          size).start threadNum)) where
  fifo := QueueRun.initial_fifoInv _
  wake := BoundedBlockingQueue.create_noLostWakeUp _
  lineup :=
    ⟨List.nodup_nil, fun _ ht => absurd ht List.not_mem_nil,
      List.nodup_nil, fun _ hk => absurd hk List.not_mem_nil⟩
  tasks := by
    have hnone :
        ∀ {β : Type} (f : WorkerState → Option β),
          f .preThread = none →
            (List.replicate threadNum WorkerState.preThread).filterMap f =
              [] := by
      intro β f hf
      rw [List.filterMap_eq_nil_iff]
      intro w hw
      rw [List.eq_of_mem_replicate hw]
      exact hf
    refine ⟨?_, ?_, ?_⟩
    · simp [initial, ThreadPool.start, hnone WorkerState.holds rfl]
    · simp [initial, ThreadPool.start, hnone WorkerState.runs rfl]
    · simp only [initial, ThreadPool.start, ThreadPool.setMaxQueueSize,
        ThreadPool.create, List.countP_replicate]
      rfl
  stopping := by
    refine ⟨?_, ?_⟩
    · intro h
      cases h
    · intro i hi
      exact absurd hi (Nat.not_lt_zero i)
  workers := List.length_replicate

theorem queueStep_poolInv [DecidableEq ω]
    {maxSize threadNum : Nat} {s : PoolRun ω}
    (hs : PoolInv maxSize threadNum s)
    {l : QueueStep (PoolThread ω) (Option Nat)}
    {e : QueueEvent (PoolThread ω) (Option Nat)}
    {q' : BoundedBlockingQueue (PoolThread ω) (Option Nat)}
    (hallows : s.allows l = true)
    (hadmits : s.pool.queue_.admits l = true)
    (hperform : s.pool.queue_.perform l = some (e, q')) :
    PoolInv maxSize threadNum (s.queueStep l (e, q')) := by
  have hmoves := BoundedBlockingQueue.perform_moves hperform
  obtain ⟨hlineup, htaking⟩ :=
    queueStep_lineup hs.lineup hallows hadmits hperform
  refine ⟨?_, ?_, hlineup, ?_, ⟨?_, ?_⟩, ?_⟩
  · exact QueueRun.record_fifoInv hs.fifo hmoves
  · exact BoundedBlockingQueue.perform_noLostWakeUp hs.wake hperform
  · exact afterTake_taskInv hs.tasks htaking hmoves
  · intro hgaveUp
    exact (hmoves.refused (hs.stopping.gaveUp hgaveUp)).2.1
  · intro i hi
    have hi' : i < s.joined := by
      simpa [joined, queueStep, afterTake_length] using hi
    exact afterTake_exited htaking (hs.stopping.joined i hi')
  · exact (afterTake_length _ _).trans hs.workers

theorem workStep_poolInv
    {maxSize threadNum : Nat} {s : PoolRun ω}
    (hs : PoolInv maxSize threadNum s) {i : Nat} {w : WorkerState}
    {r : WorkerState × Nat}
    (hi : PoolThread.worker i ∉ s.pool.queue_.parked)
    (hget : s.pool.pool_[i]? = some w)
    (hrun : s.pool.runInThread w = some r) :
    PoolInv maxSize threadNum (s.workStep i w r) := by
  refine ⟨hs.fifo, hs.wake, ?_, workStep_taskInv hs.tasks hget hrun,
    ⟨hs.stopping.gaveUp, ?_⟩, List.length_set.trans hs.workers⟩
  · exact hs.lineup.workerMoves
      (fun hmem => hi (List.mem_append_left _ hmem)) r.1
  · intro j hj
    have hj' : j < s.joined := by
      simpa [joined, workStep] using hj
    exact set_exited hget hrun (hs.stopping.joined j hj')

theorem stopStep_poolInv
    {maxSize threadNum : Nat} {s s' : PoolRun ω}
    (hs : PoolInv maxSize threadNum s)
    (hstep : s.stopStep = some s') :
    PoolInv maxSize threadNum s' := by
  cases hstop : s.stop with
  | notCalled =>
      simp only [stopStep, hstop] at hstep
      cases hstep
      refine ⟨hs.fifo, hs.wake, hs.lineup, ?_, ⟨?_, ?_⟩, hs.workers⟩
      · exact ⟨hs.tasks.taken, hs.tasks.ran, hs.tasks.busy⟩
      · intro h
        cases h
      · intro i hi
        exact absurd hi (Nat.not_lt_zero i)
  | flagged =>
      simp only [stopStep, hstop] at hstep
      cases hstep
      refine ⟨⟨hs.fifo.room, hs.fifo.fifo, hs.fifo.late⟩, ?_, ?_, ?_,
        ⟨fun _ => rfl, ?_⟩, hs.workers⟩
      · exact BoundedBlockingQueue.perform_noLostWakeUp
          (l := .giveUp) hs.wake rfl
      · exact hs.lineup.perm (CondVar.notifyAll_parked _)
          (CondVar.notifyAll_parked _)
      · exact ⟨hs.tasks.taken, hs.tasks.ran, hs.tasks.busy⟩
      · intro i hi
        exact absurd hi (Nat.not_lt_zero i)
  | joining k =>
      have hend : s.pool.queue_.end_ = true :=
        hs.stopping.gaveUp (by rw [PoolRun.gaveUp, hstop])
      have hjoined : ∀ i < k, s.pool.pool_[i]? = some .exited := by
        have h := hs.stopping.joined
        rw [PoolRun.joined, hstop] at h
        exact h
      have htasks := hs.tasks
      simp only [stopStep, hstop] at hstep
      split at hstep
      · split at hstep
        · rename_i hexited
          cases hstep
          refine ⟨hs.fifo, hs.wake, hs.lineup, ⟨htasks.taken, htasks.ran,
            htasks.busy⟩, ⟨fun _ => hend, ?_⟩, hs.workers⟩
          intro i hi
          rcases Nat.lt_succ_iff_lt_or_eq.mp hi with hi | rfl
          · exact hjoined i hi
          · exact hexited
        · cases hstep
      · rename_i hall
        cases hstep
        refine ⟨hs.fifo, hs.wake, hs.lineup, ⟨htasks.taken, htasks.ran,
          htasks.busy⟩, ⟨fun _ => hend, ?_⟩, hs.workers⟩
        intro i hi
        exact hjoined i (Nat.lt_of_lt_of_le hi (Nat.le_of_not_lt hall))
  | returned =>
      simp only [stopStep, hstop] at hstep
      cases hstep

/-- What a step of a pool is. -/
theorem step_cases [DecidableEq ω]
    {s s' : PoolRun ω} {l : PoolStep ω} (hstep : s.step l = some s') :
    (∃ ql e q', l = .queue ql ∧ s.allows ql = true ∧
        s.pool.queue_.admits ql = true ∧
        s.pool.queue_.perform ql = some (e, q') ∧
        s' = s.queueStep ql (e, q')) ∨
      (∃ i w r, l = .work i ∧
        PoolThread.worker i ∉ s.pool.queue_.parked ∧
        s.pool.pool_[i]? = some w ∧ s.pool.runInThread w = some r ∧
        s' = s.workStep i w r) ∨
      (l = .stop ∧ s.stopStep = some s') := by
  cases l with
  | queue ql =>
      simp only [step] at hstep
      split at hstep
      · rename_i hguard
        rw [Bool.and_eq_true] at hguard
        obtain ⟨p, hp, rfl⟩ := Option.map_eq_some_iff.mp hstep
        exact Or.inl ⟨ql, p.1, p.2, rfl, hguard.1, hguard.2, hp, rfl⟩
      · cases hstep
  | work i =>
      simp only [step] at hstep
      split at hstep
      · cases hstep
      · rename_i hi
        obtain ⟨w, hw, hbody⟩ := Option.bind_eq_some_iff.mp hstep
        obtain ⟨r, hr, rfl⟩ := Option.map_eq_some_iff.mp hbody
        exact Or.inr (Or.inl ⟨i, w, r, rfl, hi, hw, hr, rfl⟩)
  | stop =>
      exact Or.inr (Or.inr ⟨rfl, hstep⟩)

theorem step_poolInv [DecidableEq ω]
    {maxSize threadNum : Nat} {s s' : PoolRun ω} {l : PoolStep ω}
    (hs : PoolInv maxSize threadNum s) (hstep : s.step l = some s') :
    PoolInv maxSize threadNum s' := by
  rcases step_cases hstep with
    ⟨ql, e, q', _, hallows, hadmits, hperform, rfl⟩ |
      ⟨i, w, r, _, hi, hw, hr, rfl⟩ | ⟨_, hstop⟩
  · exact queueStep_poolInv hs hallows hadmits hperform
  · exact workStep_poolInv hs hi hw hr
  · exact stopStep_poolInv hs hstop

variable {maxSize threadNum : Nat} {s : PoolRun ω}

/-- No task is in the queue twice, nor has been. -/
theorem PoolInv.puts_nodup
    (hs : PoolInv maxSize threadNum s) :
    (s.puts.filterMap id).Nodup := by
  have htasks := hs.lineup.tasks
  rw [List.filterMap_append] at htasks
  exact (List.nodup_append.mp htasks).1

theorem PoolInv.taken_sublist
    (hs : PoolInv maxSize threadNum s) :
    (s.takes.filterMap id).Sublist (s.puts.filterMap id) := by
  have hfifo : s.puts = s.takes ++ s.pool.queue_.queue_.content :=
    hs.fifo.fifo
  rw [hfifo]
  exact (List.sublist_append_left _ _).filterMap id

theorem PoolInv.started_nodup
    (hs : PoolInv maxSize threadNum s) :
    s.started.Nodup := by
  have htaken := hs.taken_sublist.nodup hs.puts_nodup
  rw [hs.tasks.taken.nodup_iff] at htaken
  exact (List.nodup_append.mp htaken).1

theorem PoolInv.started_taken
    (hs : PoolInv maxSize threadNum s) {k : Nat} (hk : k ∈ s.started) :
    some k ∈ s.takes := by
  have hmem : k ∈ s.takes.filterMap id :=
    hs.tasks.taken.mem_iff.mpr (List.mem_append_left _ hk)
  obtain ⟨x, hx, hid⟩ := List.mem_filterMap.mp hmem
  rw [id] at hid
  rw [hid] at hx
  exact hx

theorem PoolInv.takes_prefix
    (hs : PoolInv maxSize threadNum s) :
    s.takes <+: s.puts := by
  have hfifo : s.puts = s.takes ++ s.pool.queue_.queue_.content :=
    hs.fifo.fifo
  rw [hfifo]
  exact List.prefix_append _ _

/-- A running task is counted in busyThreads_. -/
theorem PoolInv.running_le_busy
    (hs : PoolInv maxSize threadNum s) :
    s.pool.pool_.countP (fun w => w.runs.isSome) ≤
      s.pool.busyThreads_ := by
  rw [hs.tasks.busy]
  refine List.countP_mono_left ?_
  intro w _ hw
  cases w <;> first | rfl | cases hw

theorem PoolInv.busy_le
    (hs : PoolInv maxSize threadNum s) :
    s.pool.busyThreads_ ≤ threadNum := by
  rw [hs.tasks.busy, ← hs.workers]
  exact List.countP_le_length

theorem PoolInv.all_exited
    (hs : PoolInv maxSize threadNum s) (hstop : s.stop = .returned) :
    ∀ w ∈ s.pool.pool_, w = .exited := by
  intro w hw
  obtain ⟨i, hi, rfl⟩ := List.mem_iff_getElem.mp hw
  have hexited :=
    hs.stopping.joined i (by rw [joined, hstop]; exact hi)
  rw [List.getElem?_eq_getElem hi] at hexited
  exact Option.some.inj hexited

/-- No step moves a worker that has left `runInThread`. -/
theorem step_returned [DecidableEq ω]
    {s' : PoolRun ω} {l : PoolStep ω}
    (hs : PoolInv maxSize threadNum s) (hstop : s.stop = .returned)
    (hstep : s.step l = some s') :
    s'.stop = .returned ∧ s'.started = s.started ∧
      s'.ended = s.ended := by
  rcases step_cases hstep with
    ⟨ql, e, q', _, _, _, _, rfl⟩ | ⟨i, w, r, _, _, hw, hr, rfl⟩ |
      ⟨_, hstopStep⟩
  · exact ⟨hstop, rfl, rfl⟩
  · have hexited := hs.all_exited hstop w (List.mem_of_getElem? hw)
    subst hexited
    cases hr
  · simp only [stopStep, hstop] at hstopStep
    cases hstopStep

/-- Once stop() has returned no task starts or ends. -/
theorem run_returned [DecidableEq ω]
    {s' : PoolRun ω} {ls : List (PoolStep ω)}
    (hs : PoolInv maxSize threadNum s) (hstop : s.stop = .returned)
    (hrun : run step s ls = some s') :
    s'.stop = .returned ∧ s'.started = s.started ∧
      s'.ended = s.ended ∧ PoolInv maxSize threadNum s' := by
  refine invariant_of_run
    (I := fun t => t.stop = .returned ∧ t.started = s.started ∧
      t.ended = s.ended ∧ PoolInv maxSize threadNum t)
    (P := fun _ => True) ?_ ⟨hstop, rfl, rfl, hs⟩
    (fun _ _ => trivial) hrun
  rintro t l t' ⟨hreturned, hstarted, hended, ht⟩ _ hstep
  obtain ⟨h₁, h₂, h₃⟩ := step_returned ht hreturned hstep
  exact ⟨h₁, h₂.trans hstarted, h₃.trans hended, step_poolInv ht hstep⟩

theorem run_poolInv [DecidableEq ω]
    {b₁ b₂ b₃ b₄ : Bool} {size threadNum : Nat}
    {ls : List (PoolStep ω)} {s : PoolRun ω}
    (hrun :
      run step
        (initial
          (((ThreadPool.create b₁ b₂ b₃ b₄).setMaxQueueSize size).start
            threadNum)) ls = some s) :
    PoolInv (maxQueueSize size) threadNum s :=
  invariant_of_run (P := fun _ => True)
    (fun _ _ _ hs _ hstep => step_poolInv hs hstep)
    (initial_poolInv b₁ b₂ b₃ b₄ size threadNum)
    (fun _ _ => trivial) hrun

/-- For any number of workers, from one on, and every schedule. -/
theorem pool_runs_and_stops [DecidableEq ω]
    (b₁ b₂ b₃ b₄ : Bool) (size n : Nat) (ls : List (PoolStep ω))
    {s : PoolRun ω}
    (hrun :
      run step
        (initial
          (((ThreadPool.create b₁ b₂ b₃ b₄).setMaxQueueSize size).start
            (n + 1))) ls = some s) :
    (s.started.Nodup ∧ ∀ k ∈ s.started, some k ∈ s.puts) ∧
      (s.takes <+: s.puts ∧
        s.pool.queue_.queue_.content = s.puts.drop s.takes.length) ∧
      (s.pool.pool_.countP (fun w => w.runs.isSome) ≤
          s.pool.busyThreads_ ∧
        s.pool.busyThreads_ ≤ n + 1) ∧
      (s.gaveUp = true →
        s.pool.queue_.notEmpty_.waiting = [] ∧
          s.pool.queue_.notFull_.waiting = [] ∧
          ∀ l e q', s.pool.queue_.perform l = some (e, q') →
            e.waits = false) ∧
      (s.stop = .returned →
        s.pool.busyThreads_ = 0 ∧
          (∀ w ∈ s.pool.pool_, w.runs = none) ∧
          ∀ ls' s', run step s ls' = some s' →
            s'.started = s.started ∧
              ∀ w ∈ s'.pool.pool_, w.runs = none) := by
  have hs := run_poolInv hrun
  have hquiet :
      ∀ {t : PoolRun ω}, PoolInv (maxQueueSize size) (n + 1) t →
        t.stop = .returned → ∀ w ∈ t.pool.pool_, w.runs = none := by
    intro t ht hstop w hw
    rw [ht.all_exited hstop w hw]
    rfl
  refine ⟨⟨hs.started_nodup, ?_⟩, ⟨hs.takes_prefix, ?_⟩,
    ⟨hs.running_le_busy, hs.busy_le⟩, ?_, ?_⟩
  · intro k hk
    exact hs.takes_prefix.subset (hs.started_taken hk)
  · have hfifo : s.puts = s.takes ++ s.pool.queue_.queue_.content :=
      hs.fifo.fifo
    rw [hfifo, List.drop_left]
  · intro hgaveUp
    have hend := hs.stopping.gaveUp hgaveUp
    refine ⟨(hs.wake.ended hend).1, (hs.wake.ended hend).2, ?_⟩
    intro l e q' hperform
    exact BoundedBlockingQueue.waits_of_refused
      ((BoundedBlockingQueue.perform_moves hperform).refused hend).2.2
  · intro hstop
    refine ⟨?_, hquiet hs hstop, ?_⟩
    · rw [hs.tasks.busy, List.countP_eq_zero]
      intro w hw
      rw [hs.all_exited hstop w hw]
      exact Bool.false_ne_true
    · intro ls' s' hrun'
      obtain ⟨hstop', hstarted, _, hs'⟩ := run_returned hs hstop hrun'
      exact ⟨hstarted, hquiet hs' hstop'⟩

/-- One worker, one task, and stop() while the task runs. -/
def oneTask : List (PoolStep Nat) :=
  [.queue (.put (.caller 0) (some 0) 0), .work 0, .work 0,
    .queue (.take (.worker 0) 0), .work 0, .work 0, .work 0, .stop,
    .work 0, .work 0, .work 0, .stop, .work 0, .work 0, .stop, .stop]

theorem pool_runs_and_stops_sample :
    ∃ s : PoolRun Nat,
      run step
        (initial
          (((ThreadPool.create false false true false).setMaxQueueSize
            2).start 1)) oneTask = some s ∧
      s.stop = .returned ∧ s.started = [0] ∧
      s.started.Nodup ∧ s.pool.busyThreads_ = 0 := by
  obtain ⟨s, hrun, hlog⟩ :=
    Option.map_eq_some_iff.mp
      (show (run step
          (initial
            (((ThreadPool.create false false true false).setMaxQueueSize
              2).start 1)) oneTask).map
          (fun s : PoolRun Nat => (s.stop, s.started)) =
            some (.returned, [0])
        by decide +kernel)
  obtain ⟨hstop, hstarted⟩ := Prod.mk.inj hlog
  obtain ⟨honce, _, _, _, hleft⟩ :=
    pool_runs_and_stops false false true false 2 0 oneTask hrun
  exact ⟨s, hrun, hstop, hstarted, honce.1, (hleft hstop).1⟩

end PoolRun

end PoolTasks

end Hohnor
