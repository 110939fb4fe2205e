import Hohnor.BatchQueue
import Hohnor.EventLoop

/-!
# The queue of pending functors

`queueInLoop()` in any number of threads, calls from functors of a running
batch included, and loop() in one of them.  The functors form a queue that is
served in batches: each step of the threads is one operation of that queue.
-/

namespace Hohnor

open BatchQueue

/-- What is left of the batch that a thread is running. -/
def LoopThread.funcs (th : LoopThread) : List (Nat × Functor) :=
  match th.loop with
  | some (.runFunctors funcs) => funcs
  | _ => []

/-- The operation of the queue that a step of the threads is. -/
def EventLoop.queueOp (s : EventLoop) : Effect → QueueOp Nat
  | .push _ => .push s.pushed
  | .swap => .take
  | .execute _ => .serve
  | .clear => .discard
  | _ => .skip

/-- loop() is called in one thread only. -/
def LoopLabel.LoopsIn (owner : Tid) (l : LoopLabel) : Prop :=
  l.choice = .call .loop → l.tid = owner

instance (owner : Tid) (l : LoopLabel) : Decidable (l.LoopsIn owner) :=
  inferInstanceAs (Decidable (_ → _))

namespace LoopSystem

/-- The functors by number, as a queue that the owner of the loop serves. -/
def queue (owner : Tid) (s : LoopSystem) : Queue Nat where
  history := List.range s.shared.pushed
  served := s.shared.executed
  batch := (s.threads owner).funcs.map Prod.fst
  waiting := s.shared.pendingFunctors_.map Prod.fst
  mark := s.shared.taken

/-- The owner is in the middle of a batch. -/
def InBatch (owner : Tid) (s : LoopSystem) : Prop :=
  ∃ funcs, (s.threads owner).loop = some (.runFunctors funcs)

/-- A loop() leaves the while loop by this step. -/
def StopsBatches (s : LoopSystem) (l : LoopLabel) (s' : LoopSystem) :
    Prop :=
  (s.threads l.tid).loop = some .whileTest ∧
    (s'.threads l.tid).loop = some .setEnd

/-- No batch will be taken anymore. -/
def Ended (s : LoopSystem) : Prop :=
  s.shared.state_ = .End ∨
    ∃ t pc, (s.threads t).loop = some pc ∧ pc.CleansUp

end LoopSystem

/-- Only the owner iterates, and the other places of its threads that follow
endLoop() come after `quit_` is set. -/
structure QuitOk
    (owner : Tid) (s : EventLoop) (t : Tid) (th : LoopThread) :
    Prop where
  others :
    ∀ pc, th.loop = some pc → t ≠ owner →
      s.quit_ = true ∧ ¬ pc.Iterates
  cleansUp :
    ∀ pc, th.loop = some pc → pc.CleansUp → s.quit_ = true
  afterQuit : ∀ f ∈ th.calls, f.AfterQuit → s.quit_ = true

/-- `quit_` is never reset. -/
theorem EventLoop.apply_quit
    {s : EventLoop} (hquit : s.quit_ = true) (e : Effect) :
    (s.apply e).quit_ = true := by
  cases e
  all_goals simp [EventLoop.apply, hquit]

theorem QuitOk.apply
    {owner : Tid} {s : EventLoop} {t : Tid} {th : LoopThread}
    (hok : QuitOk owner s t th) (e : Effect) :
    QuitOk owner (s.apply e) t th := by
  constructor
  · intro pc hpc ht
    obtain ⟨hquit, hpc'⟩ := hok.others pc hpc ht
    exact ⟨s.apply_quit hquit e, hpc'⟩
  · intro pc hpc hclean
    exact s.apply_quit (hok.cleansUp pc hpc hclean) e
  · intro f hf hafter
    exact s.apply_quit (hok.afterQuit f hf hafter) e

theorem CallMove.quitOk
    {owner : Tid} {s : EventLoop} {t : Tid} {th : LoopThread}
    {rest : List Frame} {frame : Frame} {c : Choice}
    {r : LoopThread × Effect}
    (hmove : CallMove s t th rest frame c r)
    (hcalls : th.calls = frame :: rest)
    (hlabel : c = .call .loop → t = owner)
    (hok : QuitOk owner s t th) :
    QuitOk owner (s.apply r.2) t r.1 := by
  have hrest : ∀ f ∈ rest, f.AfterQuit → s.quit_ = true := by
    intro f hf hafter
    exact hok.afterQuit f (by simp [hcalls, hf]) hafter
  have hframe : frame.AfterQuit → s.quit_ = true :=
    fun hafter => hok.afterQuit frame (by simp [hcalls]) hafter
  cases hmove with
  | quiet front hfront =>
      refine ⟨hok.others, hok.cleansUp, ?_⟩
      intro f hf hafter
      rcases List.mem_append.mp hf with hf | hf
      · exact hframe (hfront.afterQuit f hf hafter)
      · exact hrest f hf hafter
  | enters hloop hfrom =>
      refine ⟨?_, ?_, by simp⟩
      · rintro pc ⟨rfl⟩ ht
        rcases hfrom with ⟨hcall, _⟩ | ⟨rfl, _⟩
        · exact absurd (hlabel hcall) ht
        · exact ⟨hframe trivial, not_false⟩
      · rintro pc ⟨rfl⟩ hclean
        exact absurd hclean not_false
  | pushes f =>
      refine ⟨hok.others, hok.cleansUp, ?_⟩
      intro g hg hafter
      rcases List.mem_cons.mp hg with rfl | hg
      · exact absurd hafter not_false
      · exact hrest g hg hafter
  | writes =>
      exact ⟨hok.others, hok.cleansUp, hrest⟩
  | reads =>
      exact ⟨hok.others, hok.cleansUp, hrest⟩
  | quits =>
      refine ⟨?_, fun _ _ _ => rfl, fun _ _ _ => rfl⟩
      intro pc hpc ht
      exact ⟨rfl, (hok.others pc hpc ht).2⟩

theorem QuitOk.of_place
    {owner : Tid} {s : EventLoop} {t : Tid} {pc : LoopPc}
    {calls : List Frame}
    (hothers : t ≠ owner → s.quit_ = true ∧ ¬ pc.Iterates)
    (hclean : pc.CleansUp → s.quit_ = true)
    (hcalls : ∀ f ∈ calls, ¬ f.AfterQuit) :
    QuitOk owner s t { calls := calls, loop := some pc } := by
  constructor
  · rintro _ ⟨rfl⟩ ht
    exact hothers ht
  · rintro _ ⟨rfl⟩ hpc
    exact hclean hpc
  · intro f hf hafter
    exact absurd hafter (hcalls f hf)

theorem QuitOk.outside
    (owner : Tid) (s : EventLoop) (t : Tid) :
    QuitOk owner s t { calls := [.user], loop := none } := by
  constructor
  all_goals simp [Frame.AfterQuit]

theorem LoopMove.quitOk
    {owner : Tid} {s : EventLoop} {t : Tid} {th : LoopThread}
    {pc : LoopPc} {r : LoopThread × Effect}
    (hmove : LoopMove s t th pc r)
    (hcalls : th.calls = [])
    (hloop : th.loop = some pc)
    (hok : QuitOk owner s t th) :
    QuitOk owner (s.apply r.2) t r.1 := by
  have hothers : t ≠ owner → s.quit_ = true ∧ ¬ pc.Iterates :=
    hok.others pc hloop
  have hclean : pc.CleansUp → s.quit_ = true := hok.cleansUp pc hloop
  have hnil : ∀ f ∈ th.calls, ¬ f.AfterQuit := by simp [hcalls]
  cases hmove with
  | ended => exact .outside owner s t
  | leaves => exact .outside owner s t
  | stops hquit =>
      exact .of_place (fun _ => ⟨hquit, not_false⟩) (fun _ => hquit) hnil
  | iterates hquit =>
      refine .of_place ?_ (fun h => absurd h not_false) hnil
      intro ht
      rw [(hothers ht).1] at hquit
      cases hquit
  | dispatches event events =>
      refine .of_place hothers (fun h => absurd h not_false) ?_
      cases event
      all_goals simp [IOEvent.frame, Frame.AfterQuit]
  | runs n f funcs =>
      refine .of_place hothers (fun h => absurd h not_false) ?_
      cases f
      all_goals simp [Functor.frame, Frame.AfterQuit]
  | ran =>
      exact .of_place (fun ht => absurd trivial (hothers ht).2)
        (fun h => absurd h not_false) hnil
  | _ => exact .of_place hothers hclean hnil

namespace LoopSystem

/-- What other steps leave of the queue. -/
theorem queue_after_of_funcs
    {owner : Tid} {s : LoopSystem} {t : Tid} {r : LoopThread × Effect}
    (hfuncs : t = owner → r.1.funcs = (s.threads t).funcs)
    (hop : s.shared.queueOp r.2 ≠ .take)
    (hop' : s.shared.queueOp r.2 ≠ .serve) :
    (s.after t r).queue owner =
      (s.queue owner).apply (s.shared.queueOp r.2) := by
  have hbatch :
      ((s.after t r).threads owner).funcs = (s.threads owner).funcs := by
    by_cases ht : owner = t
    · subst ht
      rw [after_threads_self]
      exact hfuncs rfl
    · rw [after_threads_of_ne s r ht]
  unfold queue
  rw [hbatch]
  obtain ⟨th, e⟩ := r
  cases e with
  | swap => exact absurd rfl hop
  | execute n => exact absurd rfl hop'
  | push f =>
      simp [EventLoop.apply, EventLoop.queueOp, Queue.apply,
        List.range_succ]
  | _ => rfl

end LoopSystem

theorem CallMove.funcs
    {s : EventLoop} {t : Tid} {th : LoopThread}
    {rest : List Frame} {frame : Frame} {c : Choice}
    {r : LoopThread × Effect}
    (hmove : CallMove s t th rest frame c r) :
    r.1.funcs = th.funcs ∧ s.queueOp r.2 ≠ .take ∧
      s.queueOp r.2 ≠ .serve := by
  cases hmove with
  | enters hloop =>
      simp [LoopThread.funcs, hloop, EventLoop.queueOp]
  | _ =>
      simp [LoopThread.funcs, EventLoop.queueOp]

namespace LoopSystem

/-- The owner takes a batch. -/
theorem queue_after_swap
    {owner : Tid} {s : LoopSystem}
    (hloop : (s.threads owner).loop = some .swap) :
    (s.after owner
        ({ s.threads owner with
            loop := some (.runFunctors s.shared.pendingFunctors_) },
          .swap)).queue owner =
      (s.queue owner).apply .take := by
  simp [queue, Queue.apply, EventLoop.apply, LoopThread.funcs, hloop]

/-- The owner calls the next functor of its batch. -/
theorem queue_after_execute
    {owner : Tid} {s : LoopSystem} {n : Nat} {f : Functor}
    {funcs : List (Nat × Functor)}
    (hloop :
      (s.threads owner).loop = some (.runFunctors ((n, f) :: funcs))) :
    (s.after owner
        ({ calls := [f.frame], loop := some (.runFunctors funcs) },
          .execute n)).queue owner =
      (s.queue owner).apply .serve := by
  simp [queue, Queue.apply, EventLoop.apply, LoopThread.funcs, hloop]

/-- Every step is one operation of the queue, and functors are discarded only
when `quit_` is set. -/
theorem step_queue
    {owner : Tid} {s s' : LoopSystem} {l : LoopLabel}
    (hok : ∀ t, QuitOk owner s.shared t (s.threads t))
    (hstep : s.step l = some s') :
    ∃ op, s'.queue owner = (s.queue owner).apply op ∧
      (op = .discard → s.shared.quit_ = true) := by
  rcases step_cases hstep with
    ⟨frame, rest, r, hcalls, hmove, rfl⟩ |
    ⟨pc, r, hcalls, hloop, hmove, rfl⟩
  · obtain ⟨hfuncs, htake, hserve⟩ := hmove.funcs
    refine ⟨s.shared.queueOp r.2,
      queue_after_of_funcs (fun _ => hfuncs) htake hserve, ?_⟩
    intro hdiscard
    cases hmove
    all_goals cases hdiscard
  · have howner : pc.Iterates → l.tid = owner := by
      intro hpc
      by_contra ht
      exact ((hok l.tid).others pc hloop ht).2 hpc
    have hquiet :
        r.1.funcs = (s.threads l.tid).funcs →
        s.shared.queueOp r.2 = .skip →
        ∃ op, (s.after l.tid r).queue owner =
            (s.queue owner).apply op ∧
          (op = .discard → s.shared.quit_ = true) := by
      intro hfuncs hskip
      refine ⟨s.shared.queueOp r.2, ?_, by simp [hskip]⟩
      exact queue_after_of_funcs (fun _ => hfuncs) (by simp [hskip])
        (by simp [hskip])
    cases hmove with
    | swaps =>
        obtain rfl := howner trivial
        exact ⟨.take, queue_after_swap hloop, by simp⟩
    | runs n f funcs =>
        obtain rfl := howner trivial
        exact ⟨.serve, queue_after_execute hloop, by simp⟩
    | clears =>
        refine ⟨.discard, ?_, fun _ => (hok l.tid).cleansUp _ hloop trivial⟩
        exact queue_after_of_funcs (fun _ => by simp [LoopThread.funcs, hloop])
          (by simp [EventLoop.queueOp]) (by simp [EventLoop.queueOp])
    | _ =>
        exact hquiet (by simp [LoopThread.funcs, hloop]) rfl

/-- What holds of the pending functors in every state. -/
structure QueueInv (owner : Tid) (s : LoopSystem) : Prop where
  quit : ∀ t, QuitOk owner s.shared t (s.threads t)
  ended : s.shared.state_ = .End → s.shared.quit_ = true
  ordered : (s.queue owner).Ordered
  complete : s.shared.quit_ = false → (s.queue owner).Complete

theorem create_queueInv (creator owner : Tid) :
    (create creator).QueueInv owner := by
  constructor
  · exact fun t => .outside owner _ t
  · simp [create, EventLoop.create]
  · constructor
    all_goals simp [queue, Queue.total, LoopThread.funcs, create,
      EventLoop.create]
  · intro _
    simp [queue, Queue.Complete, Queue.total, LoopThread.funcs, create,
      EventLoop.create]

theorem step_quitOk
    {owner : Tid} {s s' : LoopSystem} {l : LoopLabel}
    (hok : ∀ t, QuitOk owner s.shared t (s.threads t))
    (hl : l.LoopsIn owner)
    (hstep : s.step l = some s') :
    ∀ t, QuitOk owner s'.shared t (s'.threads t) := by
  rcases step_cases hstep with
    ⟨frame, rest, r, hcalls, hmove, rfl⟩ |
    ⟨pc, r, hcalls, hloop, hmove, rfl⟩
  · exact forall_after (QuitOk owner)
      (hmove.quitOk hcalls hl (hok l.tid))
      (fun u _ => (hok u).apply r.2)
  · exact forall_after (QuitOk owner)
      (hmove.quitOk hcalls hloop (hok l.tid))
      (fun u _ => (hok u).apply r.2)

/-- The state is End only when `quit_` is set. -/
theorem step_ended
    {owner : Tid} {s s' : LoopSystem} {l : LoopLabel}
    (hs : s.QueueInv owner)
    (hstep : s.step l = some s')
    (hend : s'.shared.state_ = .End) :
    s'.shared.quit_ = true := by
  have hquit :
      ∀ r : LoopThread × Effect, s.shared.quit_ = true →
        (s.after l.tid r).shared.quit_ = true :=
    fun r hquit => s.shared.apply_quit hquit r.2
  rcases step_cases hstep with
    ⟨frame, rest, r, hcalls, hmove, rfl⟩ |
    ⟨pc, r, hcalls, hloop, hmove, rfl⟩
  · cases hmove with
    | quits => rfl
    | _ => exact hquit _ (hs.ended hend)
  · cases hmove with
    | ends =>
        exact hquit _ ((hs.quit l.tid).cleansUp _ hloop trivial)
    | polls => cases hend
    | handles => cases hend
    | pends => cases hend
    | _ => exact hquit _ (hs.ended hend)

theorem step_queueInv
    {owner : Tid} {s s' : LoopSystem} {l : LoopLabel}
    (hs : s.QueueInv owner)
    (hl : l.LoopsIn owner)
    (hstep : s.step l = some s') :
    s'.QueueInv owner := by
  obtain ⟨op, hqueue, hdiscard⟩ := step_queue hs.quit hstep
  constructor
  · exact step_quitOk hs.quit hl hstep
  · exact step_ended hs hstep
  · rw [hqueue]
    exact hs.ordered.apply op
  · intro hquit
    have hbefore : s.shared.quit_ = false := by
      by_contra hset
      obtain ⟨r, _, rfl⟩ := Option.map_eq_some_iff.mp hstep
      rw [Bool.not_eq_false] at hset
      rw [after_shared, s.shared.apply_quit hset r.2] at hquit
      cases hquit
    rw [hqueue]
    refine (hs.complete hbefore).apply ?_
    intro hop
    rw [hdiscard hop] at hbefore
    cases hbefore

/-- While a batch runs no other is taken. -/
theorem step_taken
    {owner : Tid} {s s' : LoopSystem} {l : LoopLabel}
    (hs : s.QueueInv owner)
    (hbatch : s.InBatch owner)
    (hstep : s.step l = some s') :
    s'.shared.taken = s.shared.taken := by
  rcases step_cases hstep with
    ⟨frame, rest, r, hcalls, hmove, rfl⟩ |
    ⟨pc, r, hcalls, hloop, hmove, rfl⟩
  · cases hmove
    all_goals rfl
  · cases hmove with
    | swaps =>
        obtain ⟨funcs, hfuncs⟩ := hbatch
        have howner : l.tid = owner := by
          by_contra ht
          exact ((hs.quit l.tid).others _ hloop ht).2 trivial
        rw [howner, hfuncs] at hloop
        cases hloop
    | _ => rfl

/-- loop() leaves the while loop only when it finds `quit_` set. -/
theorem step_stopsBatches
    {s s' : LoopSystem} {l : LoopLabel}
    (hstep : s.step l = some s')
    (hstops : s.StopsBatches l s') :
    s.shared.quit_ = true := by
  obtain ⟨hbefore, hafter⟩ := hstops
  rcases step_cases hstep with
    ⟨frame, rest, r, hcalls, hmove, rfl⟩ |
    ⟨pc, r, hcalls, hloop, hmove, rfl⟩
  · rw [after_threads_self] at hafter
    cases hmove with
    | enters => cases hafter
    | _ => cases hbefore.symm.trans hafter
  · obtain rfl := Option.some.inj (hloop.symm.trans hbefore)
    rw [after_threads_self] at hafter
    cases hmove with
    | stops hquit => exact hquit
    | iterates => cases hafter

/-- Everything executed while a batch runs was pushed before any state of that
batch. -/
theorem executed_lt_of_inBatch
    {owner : Tid} {s t : LoopSystem} {ls : List LoopLabel}
    (hs : s.QueueInv owner)
    (hls : ∀ l ∈ ls, l.LoopsIn owner)
    (hbatch : s.InBatch owner)
    (hrunning :
      TransitionRuns.EveryStep step (fun _ _ s' => s'.InBatch owner) s ls)
    (hrun : TransitionRuns.run step s ls = some t) :
    ∀ n ∈ t.shared.executed, n < s.shared.pushed := by
  have hkeep :
      ∀ u l u',
        (u.QueueInv owner ∧ u.InBatch owner ∧
          u.shared.taken = s.shared.taken) →
        l.LoopsIn owner →
        step u l = some u' →
        u'.InBatch owner →
        (u'.QueueInv owner ∧ u'.InBatch owner ∧
          u'.shared.taken = s.shared.taken) ∧
        (u'.QueueInv owner ∧ u'.shared.taken = s.shared.taken) := by
    rintro u l u' ⟨hu, hubatch, htaken⟩ hl hstep hbatch'
    have hu' := step_queueInv hu hl hstep
    have htaken' := (step_taken hu hubatch hstep).trans htaken
    exact ⟨⟨hu', hbatch', htaken'⟩, hu', htaken'⟩
  have hsteps :
      TransitionRuns.EveryStep step
        (fun _ _ v =>
          v.QueueInv owner ∧ v.shared.taken = s.shared.taken) s ls :=
    TransitionRuns.everyStep_transfer hkeep ⟨hs, hbatch, rfl⟩ hls hrunning
  obtain ⟨ht, htaken⟩ :=
    TransitionRuns.everyStep_last ⟨hs, rfl⟩ hsteps hrun
  intro n hn
  have hmem := ht.ordered.served.subset hn
  have hlt : n < t.shared.taken := by
    have hle := ht.ordered.mark
    simp [queue, List.take_range] at hmem
    omega
  have hmark := hs.ordered.mark
  simp [queue] at hmark
  omega

/-- Functors run in the order of their pushes and at most once; one pushed
while a batch runs does not run in it; none is lost before `quit_` is set, and
loop() takes batches until it finds `quit_` set. -/
theorem pendingFunctors_inOrder
    {creator owner : Tid} {ls : List LoopLabel} {s : LoopSystem}
    (hls : ∀ l ∈ ls, l.LoopsIn owner)
    (hrun : TransitionRuns.run step (create creator) ls = some s) :
    s.shared.executed.Sublist (List.range s.shared.pushed) ∧
    (∀ before rest u,
      ls = before ++ rest →
      TransitionRuns.run step (create creator) before = some u →
      u.InBatch owner →
      TransitionRuns.EveryStep step (fun _ _ v => v.InBatch owner) u rest →
      ∀ n ∈ s.shared.executed, n < u.shared.pushed) ∧
    (∀ n < s.shared.pushed, n ∉ s.shared.executed →
      s.shared.quit_ = false →
      (n ∈ (s.threads owner).funcs.map Prod.fst ∨
        n ∈ s.shared.pendingFunctors_.map Prod.fst) ∧
      ¬ s.Ended) ∧
    TransitionRuns.EveryStep step
      (fun u l v => u.StopsBatches l v → u.shared.quit_ = true)
      (create creator) ls := by
  have hinit := create_queueInv creator owner
  have hkeep :
      ∀ u l v, QueueInv owner u → LoopLabel.LoopsIn owner l →
        step u l = some v → QueueInv owner v :=
    fun u l v hu hl hstep => step_queueInv hu hl hstep
  have hs : s.QueueInv owner :=
    TransitionRuns.invariant_of_run hkeep hinit hls hrun
  refine ⟨?_, ?_, ?_, ?_⟩
  · exact hs.ordered.served.trans (List.take_sublist _ _)
  · intro before rest u hsplit hbefore hbatch hrunning
    have hu : u.QueueInv owner :=
      TransitionRuns.invariant_of_run hkeep hinit
        (fun l hl => hls l (by simp [hsplit, hl])) hbefore
    rw [hsplit, TransitionRuns.run_append, hbefore] at hrun
    exact executed_lt_of_inBatch hu
      (fun l hl => hls l (by simp [hsplit, hl])) hbatch hrunning hrun
  · intro n hn hnot hquit
    constructor
    · have hhistory : n ∈ (s.queue owner).history := List.mem_range.mpr hn
      rcases (hs.complete hquit).mem_cases hhistory with
        hserved | hbatch | hwaiting
      · exact absurd hserved hnot
      · exact .inl hbatch
      · exact .inr hwaiting
    · rintro (hend | ⟨t, pc, hpc, hclean⟩)
      · rw [hs.ended hend] at hquit
        cases hquit
      · rw [(hs.quit t).cleansUp pc hpc hclean] at hquit
        cases hquit
  · exact TransitionRuns.everyStep_of_invariant
      (fun u l v hu hl hstep =>
        ⟨step_queueInv hu hl hstep, step_stopsBatches hstep⟩)
      hinit hls

/-- A functor that thread 0 pushed pushes another one in the loop of thread 1. -/
def requeueRun : List LoopLabel :=
  [⟨0, .call (.queueInLoop .user)⟩] ++ steps 0 7 ++
    [⟨1, .call .loop⟩] ++ steps 1 5 ++
    [⟨1, .ready [.wakeUp]⟩] ++ steps 1 7 ++
    [⟨1, .call (.queueInLoop .user)⟩] ++ steps 1 6 ++ [⟨1, .ret⟩] ++
    steps 1 3 ++ [⟨1, .ready [.wakeUp]⟩] ++ steps 1 7

theorem pendingFunctors_inOrder_sample :
    ∃ s,
      TransitionRuns.run step (create 0) requeueRun = some s ∧
      s.shared.executed = [0, 1] ∧
      s.shared.executed.Sublist (List.range s.shared.pushed) ∧
      TransitionRuns.EveryStep step
        (fun u l v => u.StopsBatches l v → u.shared.quit_ = true)
        (create 0) requeueRun := by
  have hexecuted :
      (TransitionRuns.run step (create 0) requeueRun).map
        (fun s => s.shared.executed) = some [0, 1] := by
    decide +kernel
  obtain ⟨s, hrun, hs⟩ := Option.map_eq_some_iff.mp hexecuted
  have hls : ∀ l ∈ requeueRun, l.LoopsIn 1 := by decide +kernel
  obtain ⟨horder, _, _, hstops⟩ := pendingFunctors_inOrder hls hrun
  exact ⟨s, hrun, hs, horder, hstops⟩

end LoopSystem

end Hohnor
