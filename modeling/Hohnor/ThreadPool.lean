import Hohnor.QueueWakeUps

/-!
# The thread pool

`ThreadPool` of include/hohnor/thread/ThreadPool.h and src/thread/ThreadPool.cpp
with any number of workers and of other threads.  A worker takes one step at a
time through `runInThread`; where user code runs in it, that code may call
run(), and may wait there for a free place in the queue.

A task is named by the run() call that brings it; none is an empty function,
such as take() returns after giveUp().  Tasks end, throw nothing and do not
call stop().
-/

namespace Hohnor

open TransitionRuns

/-- The workers, and the threads outside of the pool. -/
inductive PoolThread (ω : Type) where
  | worker (i : Nat)
  | caller (c : ω)
deriving DecidableEq, Repr

/-- Where a worker is in `runInThread`. -/
inductive WorkerState where
  | preThread
  | test
  | take
  | taken (t : Option Nat)
  | busy (t : Option Nat)
  | preTask (task : Nat)
  | running (task : Nat)
  | postTask
  | leave
  | postThread
  | exited
deriving DecidableEq, Repr

/-- Where stop() is: it has set running_, or has given up the queue and has
joined some workers, or has returned. -/
inductive StopState where
  | notCalled
  | flagged
  | joining (joined : Nat)
  | returned
deriving DecidableEq, Repr

inductive PoolStep (ω : Type) where
  | queue (l : QueueStep (PoolThread ω) (Option Nat))
  | work (i : Nat)
  | stop
deriving DecidableEq, Repr

/-- Of a callback only whether it is set matters. -/
structure ThreadPool (ω : Type) where
  queue_ : BoundedBlockingQueue (PoolThread ω) (Option Nat)
  preThreadCallback_ : Bool
  postThreadCallback_ : Bool
  preTaskCallback_ : Bool
  postTaskCallback_ : Bool
  pool_ : List WorkerState
  busyThreads_ : Nat
  running_ : Bool
deriving DecidableEq, Repr

namespace WorkerState

/-- The task that the worker has taken and not yet started. -/
def holds : WorkerState → Option Nat
  | .taken t => t
  | .busy t => t
  | .preTask task => some task
  | _ => none

/-- The task that is running. -/
def runs : WorkerState → Option Nat
  | .running task => some task
  | _ => none

/-- Between the increment of busyThreads_ and the decrement. -/
def counted : WorkerState → Bool
  | .busy _ => true
  | .preTask _ => true
  | .running _ => true
  | .postTask => true
  | .leave => true
  | _ => false

/-- The task that the next step starts. -/
def starts : WorkerState → Option Nat
  | .preTask task => some task
  | _ => none

end WorkerState

section ThreadPool

variable {ω : Type}

namespace ThreadPool

/-- The constructor, with the callbacks that are set before start(). -/
def create (preThread postThread preTask postTask : Bool) :
    ThreadPool ω where
  queue_ := BoundedBlockingQueue.create 42
  preThreadCallback_ := preThread
  postThreadCallback_ := postThread
  preTaskCallback_ := preTask
  postTaskCallback_ := postTask
  pool_ := []
  busyThreads_ := 0
  running_ := false

def setMaxQueueSize (p : ThreadPool ω) (size : Nat) : ThreadPool ω :=
  { p with
    queue_ := BoundedBlockingQueue.create (if size < 2 then 42 else size) }

/-- A thread that has been created begins where `runInThread` does. -/
def start (p : ThreadPool ω) (threadNum : Nat) : ThreadPool ω :=
  { p with
    running_ := true
    pool_ := List.replicate threadNum .preThread }

/-- The steps of `runInThread` outside of take(): the next place of the worker
and busyThreads_. -/
def runInThread (p : ThreadPool ω) : WorkerState → Option (WorkerState × Nat)
  | .preThread => some (.test, p.busyThreads_)
  | .test =>
      some (if p.running_ then .take else .postThread, p.busyThreads_)
  | .take => none
  | .taken t => some (.busy t, p.busyThreads_ + 1)
  | .busy none => some (.leave, p.busyThreads_)
  | .busy (some task) => some (.preTask task, p.busyThreads_)
  | .preTask task => some (.running task, p.busyThreads_)
  | .running _ => some (.postTask, p.busyThreads_)
  | .postTask => some (.leave, p.busyThreads_)
  | .leave => some (.test, p.busyThreads_ - 1)
  | .postThread => some (.exited, p.busyThreads_)
  | .exited => none

/-- User code runs in the worker. -/
def inUserCode (p : ThreadPool ω) : WorkerState → Bool
  | .preThread => p.preThreadCallback_
  | .preTask _ => p.preTaskCallback_
  | .running _ => true
  | .postTask => p.postTaskCallback_
  | .postThread => p.postThreadCallback_
  | _ => false

def mayCallRun (p : ThreadPool ω) : PoolThread ω → Bool
  | .worker i => (p.pool_[i]?.map p.inUserCode).getD false
  | .caller _ => true

end ThreadPool

/-- A pool, with the state of the one call of stop(), the number
of the next run(), the tasks that have been put and taken, and those that have
been started and have ended. -/
structure PoolRun (ω : Type) where
  pool : ThreadPool ω
  stop : StopState
  next : Nat
  puts : List (Option Nat)
  takes : List (Option Nat)
  late : List (Option Nat)
  started : List Nat
  ended : List Nat
deriving DecidableEq, Repr

namespace PoolRun

def initial (p : ThreadPool ω) : PoolRun ω where
  pool := p
  stop := .notCalled
  next := 0
  puts := []
  takes := []
  late := []
  started := []
  ended := []

/-- The queue and what has gone through it. -/
def queueRun (s : PoolRun ω) : QueueRun (PoolThread ω) (Option Nat) where
  queue := s.pool.queue_
  puts := s.puts
  takes := s.takes
  late := s.late

/-- Whose queue steps are steps of the pool: run() puts its task, and a worker
takes where `runInThread` does.  There is a worker, so run() does not call the
task itself. -/
def allows (s : PoolRun ω) :
    QueueStep (PoolThread ω) (Option Nat) → Bool
  | .put t x _ =>
      !s.pool.pool_.isEmpty && s.pool.mayCallRun t &&
        (x.isNone || x = some s.next)
  | .take (.worker i) _ => s.pool.pool_[i]? = some .take
  | .take (.caller _) _ => false
  | .giveUp => false
  | _ => true

/-- A worker whose take() returns goes on with the task. -/
def afterTake (pool_ : List WorkerState) :
    QueueEvent (PoolThread ω) (Option Nat) → List WorkerState
  | .take (.worker i) (.returned t) => pool_.set i (.taken t)
  | _ => pool_

def nextAfter (s : PoolRun ω) :
    QueueStep (PoolThread ω) (Option Nat) → Nat
  | .put _ _ _ => s.next + 1
  | _ => s.next

def queueStep (s : PoolRun ω)
    (l : QueueStep (PoolThread ω) (Option Nat))
    (r : QueueEvent (PoolThread ω) (Option Nat) ×
      BoundedBlockingQueue (PoolThread ω) (Option Nat)) : PoolRun ω :=
  { s with
    pool :=
      { s.pool with
        queue_ := r.2
        pool_ := afterTake s.pool.pool_ r.1 }
    next := s.nextAfter l
    puts := (s.queueRun.record r).puts
    takes := (s.queueRun.record r).takes
    late := (s.queueRun.record r).late }

/-- Worker `i`, which is at `w`, goes on. -/
def workStep (s : PoolRun ω) (i : Nat) (w : WorkerState)
    (r : WorkerState × Nat) : PoolRun ω :=
  { s with
    pool :=
      { s.pool with
        pool_ := s.pool.pool_.set i r.1
        busyThreads_ := r.2 }
    started := s.started ++ w.starts.toList
    ended := s.ended ++ w.runs.toList }

/-- stop() sets running_, gives up the queue and joins the workers in order. -/
def stopStep (s : PoolRun ω) : Option (PoolRun ω) :=
  match s.stop with
  | .notCalled =>
      some
        { s with
          pool := { s.pool with running_ := false }
          stop := .flagged }
  | .flagged =>
      some
        { s with
          pool := { s.pool with queue_ := s.pool.queue_.giveUp }
          stop := .joining 0 }
  | .joining k =>
      if k < s.pool.pool_.length then
        if s.pool.pool_[k]? = some .exited then
          some { s with stop := .joining (k + 1) }
        else
          none
      else
        some { s with stop := .returned }
  | .returned => none

def step [DecidableEq ω] (s : PoolRun ω) :
    PoolStep ω → Option (PoolRun ω)
  | .queue l =>
      if s.allows l && s.pool.queue_.admits l then
        (s.pool.queue_.perform l).map (s.queueStep l)
      else
        none
  | .work i =>
      if .worker i ∈ s.pool.queue_.parked then
        none
      else
        s.pool.pool_[i]?.bind fun w =>
          (s.pool.runInThread w).map (s.workStep i w)
  | .stop => s.stopStep

end PoolRun

end ThreadPool

end Hohnor
