import Hohnor.PoolTasks

/-!
# What a shutdown does to accepted tasks

stop() gives up the queue: take() returns empty functions from then on, also
while tasks are waiting in the queue.  A worker that has taken a task runs it
to its end before it is joined; a task that is still in the queue is dropped.
The destructor of a pool that is running calls stop(), and
EventLoop::setThreadPools destroys the pool that it replaces.

`stop_ends_taken_tasks` says which tasks have been executed when stop() has
returned.
-/

namespace Hohnor

open TransitionRuns

section PoolShutdown

variable {ω : Type}

namespace PoolRun

variable {maxSize threadNum : Nat} {s : PoolRun ω}

/-- With all workers out of `runInThread`, every task that has been taken has
ended. -/
theorem PoolInv.taken_ended
    (hs : PoolInv maxSize threadNum s) (hstop : s.stop = .returned) :
    (s.takes.filterMap id).Perm s.ended := by
  have hnone :
      ∀ f : WorkerState → Option Nat, f .exited = none →
        s.pool.pool_.filterMap f = [] := by
    intro f hf
    rw [List.filterMap_eq_nil_iff]
    intro w hw
    rw [hs.all_exited hstop w hw]
    exact hf
  have htaken := hs.tasks.taken
  have hran := hs.tasks.ran
  rw [hnone _ rfl, List.append_nil] at htaken hran
  exact htaken.trans hran

/-- A task is taken or still in the queue, and not both. -/
theorem PoolInv.taken_or_queued
    (hs : PoolInv maxSize threadNum s) {k : Nat} (hk : some k ∈ s.puts) :
    (some k ∈ s.takes ∧ some k ∉ s.pool.queue_.queue_.content) ∨
      (some k ∈ s.pool.queue_.queue_.content ∧ some k ∉ s.takes) := by
  have hfifo : s.puts = s.takes ++ s.pool.queue_.queue_.content :=
    hs.fifo.fifo
  have hnodup := hs.puts_nodup
  rw [hfifo, List.filterMap_append, List.nodup_append] at hnodup
  have hdisjoint :
      some k ∈ s.takes → some k ∉ s.pool.queue_.queue_.content := by
    intro htaken hqueued
    exact hnodup.2.2 k (List.mem_filterMap.mpr ⟨some k, htaken, rfl⟩)
      k (List.mem_filterMap.mpr ⟨some k, hqueued, rfl⟩) rfl
  rw [hfifo] at hk
  rcases List.mem_append.mp hk with htaken | hqueued
  · exact Or.inl ⟨htaken, hdisjoint htaken⟩
  · exact Or.inr ⟨hqueued, fun htaken => hdisjoint htaken hqueued⟩

/-- When stop() has returned, a task that a worker took before the queue was
given up has been executed once, and one that was left in the queue has not
been started and never is. -/
theorem stop_ends_taken_tasks [DecidableEq ω]
    (b₁ b₂ b₃ b₄ : Bool) (size n : Nat) (ls : List (PoolStep ω))
    {s : PoolRun ω}
    (hrun :
      run step
        (initial
          (((ThreadPool.create b₁ b₂ b₃ b₄).setMaxQueueSize size).start
            (n + 1))) ls = some s)
    (hstop : s.stop = .returned) {k : Nat} (hk : some k ∈ s.puts) :
    (some k ∈ s.takes ∧ s.ended.count k = 1) ∨
      (some k ∈ s.pool.queue_.queue_.content ∧ some k ∉ s.takes ∧
        ∀ ls' s', run step s ls' = some s' →
          k ∉ s'.started ∧ k ∉ s'.ended) := by
  have hs := run_poolInv hrun
  have hended := hs.taken_ended hstop
  have hnodup : s.ended.Nodup :=
    hended.nodup_iff.mp (hs.taken_sublist.nodup hs.puts_nodup)
  rcases hs.taken_or_queued hk with ⟨htaken, _⟩ | ⟨hqueued, hnot⟩
  · refine Or.inl ⟨htaken, List.count_eq_one_of_mem hnodup ?_⟩
    exact hended.mem_iff.mp
      (List.mem_filterMap.mpr ⟨some k, htaken, rfl⟩)
  · refine Or.inr ⟨hqueued, hnot, ?_⟩
    intro ls' s' hrun'
    obtain ⟨_, hstarted, hended', _⟩ := run_returned hs hstop hrun'
    rw [hstarted, hended']
    refine ⟨fun hmem => hnot (hs.started_taken hmem), ?_⟩
    intro hmem
    exact hnot (hs.started_taken
      (hs.tasks.ran.mem_iff.mpr (List.mem_append_left _ hmem)))

/-- A run() that returns before stop() is called. -/
def acceptOne : List (PoolStep Nat) :=
  [.queue (.put (.caller 0) (some 0) 0)]

/-- stop() before the worker has come to its loop. -/
def stopEarly : List (PoolStep Nat) :=
  [.stop, .work 0, .work 0, .work 0, .stop, .stop, .stop]

/-- The accepted task is in the queue when stop() returns. -/
theorem accepted_task_dropped :
    ∃ s₁ s : PoolRun Nat,
      run step
        (initial
          (((ThreadPool.create false false false false).setMaxQueueSize
            2).start 1)) acceptOne = some s₁ ∧
      s₁.stop = .notCalled ∧ s₁.puts = [some 0] ∧
      s₁.pool.queue_.parked = [] ∧
      run step s₁ stopEarly = some s ∧
      s.stop = .returned ∧ s.ended.count 0 = 0 := by
  obtain ⟨s₁, hrun₁, hlog₁⟩ :=
    Option.map_eq_some_iff.mp
      (show (run step
          (initial
            (((ThreadPool.create false false false false).setMaxQueueSize
              2).start 1)) acceptOne).map
          (fun s : PoolRun Nat =>
            (s.stop, s.puts, s.pool.queue_.parked)) =
            some (.notCalled, [some 0], [])
        by decide +kernel)
  obtain ⟨s, hrun, hlog⟩ :=
    Option.map_eq_some_iff.mp
      (show (run step
          (initial
            (((ThreadPool.create false false false false).setMaxQueueSize
              2).start 1)) (acceptOne ++ stopEarly)).map
          (fun s : PoolRun Nat => (s.stop, s.ended)) =
            some (.returned, [])
        by decide +kernel)
  rw [run_append, hrun₁, Option.bind_some] at hrun
  obtain ⟨hstop₁, hrest⟩ := Prod.mk.inj hlog₁
  obtain ⟨hputs, hparked⟩ := Prod.mk.inj hrest
  obtain ⟨hstop, hended⟩ := Prod.mk.inj hlog
  refine ⟨s₁, s, hrun₁, hstop₁, hputs, hparked, hrun, hstop, ?_⟩
  rw [hended]
  rfl

/-- Of two tasks, the one that the worker has taken is executed. -/
def stopBetween : List (PoolStep Nat) :=
  [.queue (.put (.caller 0) (some 0) 0),
    .queue (.put (.caller 1) (some 1) 0), .work 0, .work 0,
    .queue (.take (.worker 0) 0), .stop, .stop, .work 0, .work 0,
    .work 0, .work 0, .work 0, .work 0, .work 0, .work 0, .stop, .stop]

theorem stop_ends_taken_tasks_sample :
    ∃ s : PoolRun Nat,
      run step
        (initial
          (((ThreadPool.create false false false false).setMaxQueueSize
            2).start 1)) stopBetween = some s ∧
      s.stop = .returned ∧ s.takes = [some 0] ∧ s.ended.count 0 = 1 := by
  obtain ⟨s, hrun, hlog⟩ :=
    Option.map_eq_some_iff.mp
      (show (run step
          (initial
            (((ThreadPool.create false false false false).setMaxQueueSize
              2).start 1)) stopBetween).map
          (fun s : PoolRun Nat => (s.stop, s.puts, s.takes)) =
            some (.returned, [some 0, some 1], [some 0])
        by decide +kernel)
  obtain ⟨hstop, hrest⟩ := Prod.mk.inj hlog
  obtain ⟨hputs, htakes⟩ := Prod.mk.inj hrest
  refine ⟨s, hrun, hstop, htakes, ?_⟩
  rcases stop_ends_taken_tasks false false false false 2 0 stopBetween
      hrun hstop (k := 0) (by rw [hputs]; simp) with
    ⟨_, hcount⟩ | ⟨_, hnot, _⟩
  · exact hcount
  · rw [htakes] at hnot
    exact absurd (List.mem_singleton_self _) hnot

end PoolRun

end PoolShutdown

end Hohnor
