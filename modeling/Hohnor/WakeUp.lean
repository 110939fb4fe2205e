import Hohnor.EventLoop

/-!
# Waking up the loop

`queueInLoop()` and `runInLoop()` in any number of threads and loop() in one of
them, which need not be the thread that created it.  While the loop waits with
functors queued, either the eventfd is readable or a producer will write it,
if the loop does not begin to poll while a producer that took itself for the
loop thread is still testing `state_`.
-/

namespace Hohnor

/-- Only queueInLoop() and runInLoop() are called, and loop() in one
thread. -/
def LoopLabel.Produces (owner : Tid) (l : LoopLabel) : Prop :=
  l.choice ≠ .call .endLoop ∧ l.choice ≠ .call .wakeUp ∧
    (l.choice = .call .loop → l.tid = owner)

instance (owner : Tid) (l : LoopLabel) : Decidable (l.Produces owner) :=
  inferInstanceAs (Decidable (_ ∧ _ ∧ (_ → _)))

/-- The steps of queueInLoop() after the push. -/
def Frame.AfterPush : Frame → Prop
  | .testLoopThread => True
  | .testPendingHandling => True
  | .testReady => True
  | .wakeUp => True
  | .writeEventfd => True
  | _ => False

namespace LoopSystem

/-- The next steps of a thread write the eventfd. -/
def StepsWrite (s : LoopSystem) (t : Tid) : Prop :=
  ∃ n s',
    TransitionRuns.run step s (List.replicate n ⟨t, .step⟩) = some s' ∧
    s.shared.eventfd < s'.shared.eventfd

/-- A thread has pushed a functor and is going to write the eventfd. -/
def WillWrite (s : LoopSystem) (t : Tid) : Prop :=
  (∃ frame rest, (s.threads t).calls = frame :: rest ∧ frame.AfterPush) ∧
    s.StepsWrite t

/-- No loop waits for an unrelated event while functors are queued. -/
def NoLostWakeUp (s : LoopSystem) : Prop :=
  ∀ t, (s.threads t).loop = some .wait →
    s.shared.pendingFunctors_ ≠ [] →
    0 < s.shared.eventfd ∨ ∃ u, s.WillWrite u

/-- When the loop begins to poll with functors queued and nothing to read at
the eventfd, no other thread is testing `state_`. -/
def PollsSettled (s : LoopSystem) (l : LoopLabel) : Prop :=
  (s.threads l.tid).loop = some .setPolling →
    s.shared.pendingFunctors_ ≠ [] →
    s.shared.eventfd = 0 →
    ∀ u, u ≠ l.tid →
      ∀ frame rest, (s.threads u).calls = frame :: rest →
        ¬ frame.TestsState

end LoopSystem

/-- The places between the return of epoll_wait and the swap. -/
def LoopPc.BeforeSwap : LoopPc → Prop
  | .setIOHandling _ => True
  | .dispatch _ => True
  | .setPendingHandling => True
  | .swap => True
  | _ => False

/-- The members as the loop thread left them. -/
def EventLoop.PlaceOk (s : EventLoop) (owner : Tid) :
    Option LoopPc → Prop
  | none => s.state_ = .Ready
  | some .enter => s.state_ = .Ready
  | some .updateThread => s.state_ = .Ready
  | some .assertThread => s.state_ = .Ready ∧ s.threadId_ = owner
  | some .whileTest =>
      (s.state_ = .Ready ∨ s.state_ = .PendingHandling) ∧
        s.threadId_ = owner
  | some .setPolling =>
      (s.state_ = .Ready ∨ s.state_ = .PendingHandling) ∧
        s.threadId_ = owner
  | some .wait => s.state_ = .Polling ∧ s.threadId_ = owner
  | some (.setIOHandling _) => s.state_ = .Polling ∧ s.threadId_ = owner
  | some (.dispatch _) => s.state_ = .IOHandling ∧ s.threadId_ = owner
  | some .setPendingHandling =>
      s.state_ = .IOHandling ∧ s.threadId_ = owner
  | some .swap => s.state_ = .PendingHandling ∧ s.threadId_ = owner
  | some (.runFunctors _) =>
      s.state_ = .PendingHandling ∧ s.threadId_ = owner
  | _ => False

/-- Before the owner has told its number the loop is as it was created. -/
theorem EventLoop.PlaceOk.ready
    {s : EventLoop} {owner : Tid} {place : Option LoopPc}
    (hplace : s.PlaceOk owner place) (hthread : s.threadId_ ≠ owner) :
    s.state_ = .Ready := by
  cases place with
  | none => exact hplace
  | some pc =>
      cases pc with
      | enter | updateThread => exact hplace
      | assertThread => exact hplace.1
      | whileTest | setPolling | wait | setIOHandling | dispatch
      | setPendingHandling | swap | runFunctors =>
          exact absurd hplace.2 hthread
      | setEnd | disableTimer | resetTimer | disableWakeUp | resetWakeUp
      | clear | leave => exact hplace.elim

/-- Only the owner is in loop(), and no thread is in endLoop(). -/
structure ProducerOk
    (owner : Tid) (t : Tid) (th : LoopThread) : Prop where
  owns : th.loop ≠ none → t = owner
  afterQuit : ∀ f ∈ th.calls, ¬ f.AfterQuit
  endLoop : .endLoop ∉ th.calls

theorem CallMove.producerOk
    {owner : Tid} {s : EventLoop} {t : Tid} {th : LoopThread}
    {rest : List Frame} {frame : Frame} {c : Choice}
    {r : LoopThread × Effect}
    (hmove : CallMove s t th rest frame c r)
    (hcalls : th.calls = frame :: rest)
    (hend : c ≠ .call .endLoop)
    (hlabel : c = .call .loop → t = owner)
    (hok : ProducerOk owner t th) :
    ProducerOk owner t r.1 := by
  have hframe : ¬ frame.AfterQuit :=
    hok.afterQuit frame (by simp [hcalls])
  have hrest : ∀ f ∈ rest, ¬ f.AfterQuit :=
    fun f hf => hok.afterQuit f (by simp [hcalls, hf])
  have hnot : .endLoop ∉ rest :=
    fun h => hok.endLoop (by simp [hcalls, h])
  cases hmove with
  | quiet front hfront =>
      refine ⟨hok.owns, ?_, ?_⟩
      · intro f hf hafter
        rcases List.mem_append.mp hf with hf | hf
        · exact hframe (hfront.afterQuit f hf hafter)
        · exact hrest f hf hafter
      · intro hmem
        rcases List.mem_append.mp hmem with hmem | hmem
        · exact hend (hfront.endLoop hmem)
        · exact hnot hmem
  | enters hloop hfrom =>
      refine ⟨fun _ => ?_, by simp, by simp⟩
      rcases hfrom with ⟨hcall, _⟩ | ⟨rfl, _⟩
      · exact hlabel hcall
      · exact absurd trivial hframe
  | pushes f =>
      refine ⟨hok.owns, ?_, by simpa using hnot⟩
      intro g hg
      rcases List.mem_cons.mp hg with rfl | hg
      · exact not_false
      · exact hrest g hg
  | writes => exact ⟨hok.owns, hrest, hnot⟩
  | reads => exact ⟨hok.owns, hrest, hnot⟩
  | quits hquits =>
      exact absurd (by simp [hcalls, hquits]) hok.endLoop

theorem LoopMove.producerOk
    {owner : Tid} {s : EventLoop} {t : Tid} {th : LoopThread}
    {pc : LoopPc} {r : LoopThread × Effect}
    (hmove : LoopMove s t th pc r)
    (hcalls : th.calls = [])
    (ht : t = owner) :
    ProducerOk owner t r.1 := by
  cases hmove with
  | dispatches event events =>
      refine ⟨fun _ => ht, ?_, ?_⟩
      all_goals cases event
      all_goals simp [IOEvent.frame, Frame.AfterQuit]
  | runs n f funcs =>
      refine ⟨fun _ => ht, ?_, ?_⟩
      all_goals cases f
      all_goals simp [Functor.frame, Frame.AfterQuit]
  | ended => exact ⟨fun _ => ht, by simp [Frame.AfterQuit], by simp⟩
  | leaves => exact ⟨fun _ => ht, by simp [Frame.AfterQuit], by simp⟩
  | _ => exact ⟨fun _ => ht, by simp [hcalls], by simp [hcalls]⟩

namespace LoopSystem

/-- The eventfd is readable or a thread is on its way to it. -/
def Woken (s : LoopSystem) : Prop :=
  0 < s.shared.eventfd ∨
    ∃ t frame rest, (s.threads t).calls = frame :: rest ∧
      frame.WillWake s.shared t

/-- What holds in every state while only producers and one loop run. -/
structure WakeInv (owner : Tid) (s : LoopSystem) : Prop where
  stacksOk : s.StacksOk
  threads : ∀ t, ProducerOk owner t (s.threads t)
  place : s.shared.PlaceOk owner (s.threads owner).loop
  quit : s.shared.quit_ = false
  handler : s.shared.wakeUpHandler_ = true
  wake :
    s.shared.pendingFunctors_ ≠ [] →
      (∃ pc, (s.threads owner).loop = some pc ∧ pc.BeforeSwap) ∨ s.Woken

/-- A step keeps a wake-up on its way if it leaves the eventfd and the frames
on their way alone. -/
theorem Woken.after
    {s : LoopSystem} {t : Tid} {r : LoopThread × Effect}
    (hs : s.Woken)
    (hcount : s.shared.eventfd ≤ (s.shared.apply r.2).eventfd)
    (hothers :
      ∀ u, u ≠ t → ∀ frame : Frame, frame.WillWake s.shared u →
        frame.WillWake (s.shared.apply r.2) u)
    (hself :
      ∀ frame rest, (s.threads t).calls = frame :: rest →
        frame.WillWake s.shared t →
        ∃ g rest', r.1.calls = g :: rest' ∧
          g.WillWake (s.shared.apply r.2) t) :
    (s.after t r).Woken := by
  rcases hs with hpos | ⟨u, frame, rest, hcalls, hwake⟩
  · exact .inl (Nat.lt_of_lt_of_le hpos hcount)
  · by_cases hu : u = t
    · subst hu
      obtain ⟨g, rest', hcalls', hwake'⟩ := hself frame rest hcalls hwake
      refine .inr ⟨u, g, rest', ?_, hwake'⟩
      rw [after_threads_self]
      exact hcalls'
    · refine .inr ⟨u, frame, rest, ?_, hothers u hu frame hwake⟩
      rw [after_threads_of_ne s r hu]
      exact hcalls

theorem create_wakeInv (creator owner : Tid) :
    (create creator).WakeInv owner := by
  refine ⟨create_stacksOk creator, ?_, rfl, rfl, rfl, ?_⟩
  · intro t
    exact ⟨fun h => absurd rfl h, by simp [create, Frame.AfterQuit],
      by simp [create]⟩
  · exact fun h => absurd rfl h

/-- The thread that pushes sees a member that makes it wake the loop up, or
the loop has yet to swap. -/
theorem WakeInv.pusher
    {owner : Tid} {s : LoopSystem} (hs : s.WakeInv owner) {t : Tid}
    (hcalls : (s.threads t).calls ≠ []) :
    (∃ pc, (s.threads owner).loop = some pc ∧ pc.BeforeSwap) ∨
      Frame.testLoopThread.WillWake s.shared t := by
  have hplace := hs.place
  by_cases ht : t = owner
  · subst ht
    rcases (hs.stacksOk t).place hcalls with
      hloop | ⟨events, hloop⟩ | ⟨funcs, hloop⟩
    · rw [hloop] at hplace
      exact .inr (.inr (.inr hplace))
    · exact .inl ⟨_, hloop, trivial⟩
    · rw [hloop] at hplace
      exact .inr (.inr (.inl hplace.1))
  · by_cases hthread : s.shared.threadId_ = owner
    · refine .inr (.inl ?_)
      rw [hthread]
      exact fun h => ht h.symm
    · exact .inr (.inr (.inr (hplace.ready hthread)))

theorem WakeInv.not_ended
    {owner : Tid} {s : LoopSystem} (hs : s.WakeInv owner) :
    s.shared.state_ ≠ .End := by
  have hplace := hs.place
  intro hend
  revert hplace
  cases (s.threads owner).loop with
  | none => simp [EventLoop.PlaceOk, hend]
  | some pc => cases pc <;> simp [EventLoop.PlaceOk, hend]

/-- Only user code of the owner calls loop(). -/
theorem WakeInv.enters
    {owner : Tid} {s : LoopSystem} (hs : s.WakeInv owner)
    {t : Tid} {frame : Frame} {rest : List Frame} {c : Choice}
    (hc : LoopLabel.Produces owner ⟨t, c⟩)
    (hcalls : (s.threads t).calls = frame :: rest)
    (hfrom :
      c = .call .loop ∧ frame = .user ∨
        frame = .endTestAgain ∧ s.shared.state_ = .Ready) :
    t = owner ∧ frame = .user := by
  rcases hfrom with ⟨hcall, hframe⟩ | ⟨rfl, _⟩
  · exact ⟨hc.2.2 hcall, hframe⟩
  · exact absurd trivial
      ((hs.threads t).afterQuit .endTestAgain (by simp [hcalls]))

theorem callMove_members
    {owner : Tid} {s : LoopSystem} {t : Tid} {frame : Frame}
    {rest : List Frame} {c : Choice} {r : LoopThread × Effect}
    (hs : s.WakeInv owner)
    (hcalls : (s.threads t).calls = frame :: rest)
    (hmove : CallMove s.shared t (s.threads t) rest frame c r) :
    (s.after t r).shared.quit_ = false ∧
      (s.after t r).shared.wakeUpHandler_ = true := by
  cases hmove with
  | quits hframe =>
      exact absurd (by simp [hcalls, hframe]) (hs.threads t).endLoop
  | _ => exact ⟨hs.quit, hs.handler⟩

theorem callMove_place
    {owner : Tid} {s : LoopSystem} {t : Tid} {frame : Frame}
    {rest : List Frame} {c : Choice} {r : LoopThread × Effect}
    (hs : s.WakeInv owner)
    (hc : LoopLabel.Produces owner ⟨t, c⟩)
    (hcalls : (s.threads t).calls = frame :: rest)
    (hmove : CallMove s.shared t (s.threads t) rest frame c r) :
    (s.after t r).shared.PlaceOk owner
      ((s.after t r).threads owner).loop := by
  have hplace := hs.place
  have hloop :
      r.1.loop = (s.threads t).loop →
        ((s.after t r).threads owner).loop = (s.threads owner).loop :=
    fun h => after_loop_of_eq h owner
  cases hmove with
  | enters hnone hfrom =>
      obtain ⟨rfl, _⟩ := hs.enters hc hcalls hfrom
      rw [hnone] at hplace
      rw [after_threads_self]
      exact hplace
  | _ =>
      rw [hloop rfl]
      exact hplace

/-- A call keeps the loop awake. -/
theorem callMove_wake
    {owner : Tid} {s : LoopSystem} {t : Tid} {frame : Frame}
    {rest : List Frame} {c : Choice} {r : LoopThread × Effect}
    (hs : s.WakeInv owner)
    (hc : LoopLabel.Produces owner ⟨t, c⟩)
    (hcalls : (s.threads t).calls = frame :: rest)
    (hmove : CallMove s.shared t (s.threads t) rest frame c r)
    (hpending : (s.after t r).shared.pendingFunctors_ ≠ []) :
    (∃ pc, ((s.after t r).threads owner).loop = some pc ∧
        pc.BeforeSwap) ∨
      (s.after t r).Woken := by
  have hloop :
      r.1.loop = (s.threads t).loop →
        ((s.after t r).threads owner).loop = (s.threads owner).loop :=
    fun h => after_loop_of_eq h owner
  cases hmove with
  | quiet front hfront =>
      rcases hs.wake hpending with hbefore | hwoken
      · rw [hloop rfl]
        exact .inl hbefore
      · refine .inr (hwoken.after (Nat.le_refl _) (fun _ _ _ h => h) ?_)
        intro frame' rest' hcalls' hwake
        rw [hcalls] at hcalls'
        obtain ⟨rfl, rfl⟩ := List.cons.inj hcalls'
        obtain ⟨g, front', rfl, hg⟩ := hfront.willWake hwake hs.not_ended
        exact ⟨g, front' ++ rest, rfl, hg⟩
  | enters hnone hfrom =>
      obtain ⟨rfl, rfl⟩ := hs.enters hc hcalls hfrom
      rcases hs.wake hpending with ⟨pc, hpc, _⟩ | hwoken
      · rw [hnone] at hpc
        cases hpc
      · refine .inr (hwoken.after (Nat.le_refl _) (fun _ _ _ h => h) ?_)
        intro frame' rest' hcalls' hwake
        rw [hcalls] at hcalls'
        obtain ⟨rfl, _⟩ := List.cons.inj hcalls'
        exact absurd hwake not_false
  | pushes f hframe =>
      have hbusy : (s.threads t).calls ≠ [] := by simp [hcalls]
      rcases hs.pusher hbusy with hbefore | hwake
      · rw [hloop rfl]
        exact .inl hbefore
      · refine .inr (.inr ⟨t, .testLoopThread, rest, ?_, hwake⟩)
        rw [after_threads_self]
  | writes hframe hhandler => exact .inr (.inl (Nat.succ_pos _))
  | reads hframe hhandler =>
      obtain ⟨events, hdispatch⟩ :
          Frame.handleWakeUp.Fits (s.threads t).loop :=
        (hs.stacksOk t).fits _ (by simp [hcalls, hframe])
      obtain rfl := (hs.threads t).owns (by simp [hdispatch])
      rw [hloop rfl]
      exact .inl ⟨_, hdispatch, trivial⟩
  | quits hframe =>
      exact absurd (by simp [hcalls, hframe]) (hs.threads t).endLoop

/-- A call keeps the invariant. -/
theorem callMove_wakeInv
    {owner : Tid} {s : LoopSystem} {t : Tid} {frame : Frame}
    {rest : List Frame} {c : Choice} {r : LoopThread × Effect}
    (hs : s.WakeInv owner)
    (hc : LoopLabel.Produces owner ⟨t, c⟩)
    (hcalls : (s.threads t).calls = frame :: rest)
    (hmove : CallMove s.shared t (s.threads t) rest frame c r) :
    (s.after t r).WakeInv owner := by
  obtain ⟨hquit, hhandler⟩ := callMove_members hs hcalls hmove
  refine ⟨hmove.stacksOk hcalls hs.stacksOk, ?_,
    callMove_place hs hc hcalls hmove, hquit, hhandler,
    callMove_wake hs hc hcalls hmove⟩
  exact forall_after (fun _ => ProducerOk owner)
    (hmove.producerOk hcalls hc.1 hc.2.2 (hs.threads t))
    (fun u _ => hs.threads u)

end LoopSystem

/-- A step of the loop thread leaves the members as its next place says. -/
theorem LoopMove.placeOk
    {s : EventLoop} {t : Tid} {th : LoopThread} {pc : LoopPc}
    {r : LoopThread × Effect}
    (hmove : LoopMove s t th pc r)
    (hplace : s.PlaceOk t (some pc))
    (hquit : s.quit_ = false) :
    (s.apply r.2).PlaceOk t r.1.loop := by
  cases hmove with
  | ended hend => exact absurd (hend.symm.trans hplace) (by simp)
  | updated => exact ⟨hplace, rfl⟩
  | kept ht => exact ⟨hplace, ht⟩
  | asserted => exact ⟨.inl hplace.1, hplace.2⟩
  | stops hset => exact absurd (hset.symm.trans hquit) (by simp)
  | polls => exact ⟨rfl, hplace.2⟩
  | handles => exact ⟨rfl, hplace.2⟩
  | pends => exact ⟨rfl, hplace.2⟩
  | ran => exact ⟨.inr hplace.1, hplace.2⟩
  | leaves => exact absurd hplace not_false
  | _ => exact hplace

theorem LoopMove.members
    {s : EventLoop} {t : Tid} {th : LoopThread} {pc : LoopPc}
    {r : LoopThread × Effect}
    (hmove : LoopMove s t th pc r)
    (hplace : s.PlaceOk t (some pc)) :
    (s.apply r.2).quit_ = s.quit_ ∧
      (s.apply r.2).wakeUpHandler_ = s.wakeUpHandler_ := by
  cases hmove with
  | resetsWakeUp => exact absurd hplace not_false
  | _ => exact ⟨rfl, rfl⟩

namespace LoopSystem

/-- When the loop begins to poll, the eventfd is readable or a producer that
is on its way stays so, if none is testing `state_`. -/
theorem WakeInv.polls
    {t : Tid} {s : LoopSystem} {c : Choice} (hs : s.WakeInv t)
    (hsettled : s.PollsSettled ⟨t, c⟩)
    (hcalls : (s.threads t).calls = [])
    (hloop : (s.threads t).loop = some .setPolling)
    (hpending : s.shared.pendingFunctors_ ≠ [])
    (hwoken : s.Woken) :
    (s.after t
      ({ s.threads t with loop := some .wait },
        .setState .Polling)).Woken := by
  have hplace := hs.place
  rw [hloop] at hplace
  rcases hwoken with hpos | ⟨u, frame, rest, hcalls', hwake⟩
  · exact .inl hpos
  · by_cases hcount : s.shared.eventfd = 0
    · have hu : u ≠ t := by
        rintro rfl
        rw [hcalls] at hcalls'
        cases hcalls'
      have htests :=
        hsettled hloop hpending hcount u hu frame rest hcalls'
      refine .inr ⟨u, frame, rest, ?_, ?_⟩
      · rw [after_threads_of_ne s _ hu]
        exact hcalls'
      · cases frame with
        | testLoopThread =>
            exact .inl (fun h => hu (h.symm.trans hplace.2))
        | testPendingHandling => exact absurd trivial htests
        | testReady => exact absurd trivial htests
        | _ => exact hwake
    · exact .inl (Nat.pos_of_ne_zero hcount)

/-- A step of loop() keeps the loop awake. -/
theorem loopMove_wake
    {t : Tid} {s : LoopSystem} {pc : LoopPc} {c : Choice}
    {r : LoopThread × Effect}
    (hs : s.WakeInv t)
    (hsettled : s.PollsSettled ⟨t, c⟩)
    (hcalls : (s.threads t).calls = [])
    (hloop : (s.threads t).loop = some pc)
    (hmove : LoopMove s.shared t (s.threads t) pc r)
    (hpending : (s.after t r).shared.pendingFunctors_ ≠ []) :
    (∃ pc, ((s.after t r).threads t).loop = some pc ∧ pc.BeforeSwap) ∨
      (s.after t r).Woken := by
  have hwoken :
      ¬ pc.BeforeSwap → s.shared.pendingFunctors_ ≠ [] → s.Woken := by
    intro hpc hqueued
    rcases hs.wake hqueued with ⟨pc', hpc', hbefore⟩ | hwoken
    · obtain rfl := Option.some.inj (hloop.symm.trans hpc')
      exact absurd hbefore hpc
    · exact hwoken
  have hself :
      ∀ frame rest, (s.threads t).calls = frame :: rest →
        frame.WillWake s.shared t →
        ∃ g rest', r.1.calls = g :: rest' ∧
          g.WillWake (s.shared.apply r.2) t := by
    intro frame rest hcalls'
    rw [hcalls] at hcalls'
    cases hcalls'
  have hbefore :
      ∀ pc', r.1.loop = some pc' → pc'.BeforeSwap →
        ∃ pc', ((s.after t r).threads t).loop = some pc' ∧
          pc'.BeforeSwap := by
    intro pc' hpc' hswap
    rw [after_threads_self]
    exact ⟨pc', hpc', hswap⟩
  have hplace := hs.place
  rw [hloop] at hplace
  cases hmove with
  | updated =>
      refine .inr ((hwoken not_false hpending).after (Nat.le_refl _) ?_
        hself)
      intro u hu frame hwake
      cases frame with
      | testLoopThread => exact .inl (fun h => hu h.symm)
      | _ => exact hwake
  | polls =>
      exact .inr (hs.polls hsettled hcalls hloop hpending
        (hwoken not_false hpending))
  | returns => exact .inl (hbefore _ rfl trivial)
  | handles => exact .inl (hbefore _ rfl trivial)
  | dispatched => exact .inl (hbefore _ rfl trivial)
  | dispatches => exact .inl (hbefore _ rfl trivial)
  | pends => exact .inl (hbefore _ rfl trivial)
  | swaps => exact absurd rfl hpending
  | clears => exact absurd rfl hpending
  | ends => exact absurd hplace not_false
  | _ =>
      exact .inr ((hwoken not_false hpending).after (Nat.le_refl _)
        (fun _ _ _ h => h) hself)

/-- A step of loop() keeps the invariant if it begins to poll only when no
producer is testing `state_`. -/
theorem loopMove_wakeInv
    {owner : Tid} {s : LoopSystem} {t : Tid} {pc : LoopPc} {c : Choice}
    {r : LoopThread × Effect}
    (hs : s.WakeInv owner)
    (hsettled : s.PollsSettled ⟨t, c⟩)
    (hcalls : (s.threads t).calls = [])
    (hloop : (s.threads t).loop = some pc)
    (hmove : LoopMove s.shared t (s.threads t) pc r) :
    (s.after t r).WakeInv owner := by
  obtain rfl := (hs.threads t).owns (by simp [hloop])
  have hplace := hs.place
  rw [hloop] at hplace
  obtain ⟨hquit, hhandler⟩ := hmove.members hplace
  refine ⟨hmove.stacksOk hcalls hs.stacksOk, ?_, ?_,
    hquit.trans hs.quit, hhandler.trans hs.handler,
    loopMove_wake hs hsettled hcalls hloop hmove⟩
  · exact forall_after (fun _ => ProducerOk t)
      (hmove.producerOk hcalls rfl) (fun u _ => hs.threads u)
  · rw [after_threads_self]
    exact hmove.placeOk hplace hs.quit

theorem step_wakeInv
    {owner : Tid} {s s' : LoopSystem} {l : LoopLabel}
    (hs : s.WakeInv owner)
    (hl : l.Produces owner)
    (hsettled : s.PollsSettled l)
    (hstep : s.step l = some s') :
    s'.WakeInv owner := by
  rcases step_cases hstep with
    ⟨frame, rest, r, hcalls, hmove, rfl⟩ |
    ⟨pc, r, hcalls, hloop, hmove, rfl⟩
  · exact callMove_wakeInv hs hl hcalls hmove
  · exact loopMove_wakeInv hs hsettled hcalls hloop hmove

theorem step_of_calls
    {s : LoopSystem} {t : Tid} {frame : Frame} {rest : List Frame}
    {r : LoopThread × Effect} {c : Choice}
    (hcalls : (s.threads t).calls = frame :: rest)
    (hcall :
      (s.threads t).callStep s.shared t rest frame c = some r) :
    s.step ⟨t, c⟩ = some (s.after t r) := by
  simp [step, next, hcalls, hcall]

/-- A step before the write changes nothing. -/
theorem StepsWrite.of_step
    {s s' : LoopSystem} {t : Tid}
    (hstep : s.step ⟨t, .step⟩ = some s')
    (hshared : s'.shared = s.shared)
    (hwrites : s'.StepsWrite t) :
    s.StepsWrite t := by
  obtain ⟨n, u, hrun, hlt⟩ := hwrites
  refine ⟨n + 1, u, ?_, ?_⟩
  · rw [List.replicate_succ, TransitionRuns.run_cons, hstep]
    exact hrun
  · rw [← hshared]
    exact hlt

theorem stepsWrite_writeEventfd
    {s : LoopSystem} {t : Tid} {rest : List Frame}
    (hcalls : (s.threads t).calls = .writeEventfd :: rest)
    (hhandler : s.shared.wakeUpHandler_ = true) :
    s.StepsWrite t := by
  let s' := s.after t ({ s.threads t with calls := rest }, .writeEventfd)
  have hstep : s.step ⟨t, .step⟩ = some s' :=
    step_of_calls hcalls (by simp [LoopThread.callStep, hhandler])
  refine ⟨1, s', ?_, Nat.lt_succ_self s.shared.eventfd⟩
  rw [List.replicate_one, TransitionRuns.run_cons, hstep]
  rfl

theorem stepsWrite_wakeUp
    {s : LoopSystem} {t : Tid} {rest : List Frame}
    (hcalls : (s.threads t).calls = .wakeUp :: rest)
    (hend : s.shared.state_ ≠ .End)
    (hhandler : s.shared.wakeUpHandler_ = true) :
    s.StepsWrite t := by
  let th : LoopThread :=
    { s.threads t with calls := .writeEventfd :: rest }
  have hstep : s.step ⟨t, .step⟩ = some (s.after t (th, .nothing)) :=
    step_of_calls hcalls
      (by simp [LoopThread.callStep, LoopThread.proceed, hend, th])
  have hcalls' :
      ((s.after t (th, .nothing)).threads t).calls =
        .writeEventfd :: rest := by
    rw [after_threads_self]
  exact .of_step hstep rfl (stepsWrite_writeEventfd hcalls' hhandler)

theorem stepsWrite_testLoopThread
    {s : LoopSystem} {t : Tid} {rest : List Frame}
    (hcalls : (s.threads t).calls = .testLoopThread :: rest)
    (ht : s.shared.threadId_ ≠ t)
    (hend : s.shared.state_ ≠ .End)
    (hhandler : s.shared.wakeUpHandler_ = true) :
    s.StepsWrite t := by
  let th : LoopThread := { s.threads t with calls := .wakeUp :: rest }
  have hstep : s.step ⟨t, .step⟩ = some (s.after t (th, .nothing)) :=
    step_of_calls hcalls
      (by simp [LoopThread.callStep, LoopThread.proceed, ht, th])
  have hcalls' :
      ((s.after t (th, .nothing)).threads t).calls = .wakeUp :: rest := by
    rw [after_threads_self]
  exact .of_step hstep rfl (stepsWrite_wakeUp hcalls' hend hhandler)

/-- While the loop waits, a thread on its way to the eventfd writes it. -/
theorem willWrite_of_willWake
    {s : LoopSystem} {t : Tid} {frame : Frame} {rest : List Frame}
    (hpolling : s.shared.state_ = .Polling)
    (hhandler : s.shared.wakeUpHandler_ = true)
    (hcalls : (s.threads t).calls = frame :: rest)
    (hwake : frame.WillWake s.shared t) :
    s.WillWrite t := by
  have hend : s.shared.state_ ≠ .End := by simp [hpolling]
  cases frame with
  | testLoopThread =>
      have ht : s.shared.threadId_ ≠ t := by
        simpa [Frame.WillWake, hpolling] using hwake
      exact ⟨⟨_, rest, hcalls, trivial⟩,
        stepsWrite_testLoopThread hcalls ht hend hhandler⟩
  | wakeUp =>
      exact ⟨⟨_, rest, hcalls, trivial⟩,
        stepsWrite_wakeUp hcalls hend hhandler⟩
  | writeEventfd =>
      exact ⟨⟨_, rest, hcalls, trivial⟩,
        stepsWrite_writeEventfd hcalls hhandler⟩
  | _ => simp [Frame.WillWake, hpolling] at hwake

theorem WakeInv.noLostWakeUp
    {owner : Tid} {s : LoopSystem} (hs : s.WakeInv owner) :
    s.NoLostWakeUp := by
  intro t hwait hpending
  obtain rfl := (hs.threads t).owns (by simp [hwait])
  have hplace := hs.place
  rw [hwait] at hplace
  rcases hs.wake hpending with ⟨pc, hpc, hbefore⟩ | hwoken
  · obtain rfl := Option.some.inj (hwait.symm.trans hpc)
    exact absurd hbefore not_false
  · rcases hwoken with hpos | ⟨u, frame, rest, hcalls, hwake⟩
    · exact .inl hpos
    · exact .inr
        ⟨u, willWrite_of_willWake hplace.1 hs.handler hcalls hwake⟩

/-- The loop thread is the one that `threadId_` names from the start, so no
other thread takes itself for it. -/
structure CreatorInv (owner : Tid) (s : LoopSystem) : Prop where
  wakeInv : s.WakeInv owner
  threadId : s.shared.threadId_ = owner
  tests : ∀ t, ∀ f ∈ (s.threads t).calls, f.TestsState → t = owner

theorem CreatorInv.settled
    {owner : Tid} {s : LoopSystem} (hs : s.CreatorInv owner)
    (l : LoopLabel) :
    s.PollsSettled l := by
  intro hloop _ _ u hu frame rest hcalls htests
  have howner := (hs.wakeInv.threads l.tid).owns (by simp [hloop])
  exact hu ((hs.tests u frame (by simp [hcalls]) htests).trans howner.symm)

end LoopSystem

theorem CallMove.tests
    {owner : Tid} {s : EventLoop} {t : Tid} {th : LoopThread}
    {rest : List Frame} {frame : Frame} {c : Choice}
    {r : LoopThread × Effect}
    (hmove : CallMove s t th rest frame c r)
    (hcalls : th.calls = frame :: rest)
    (howner : s.threadId_ = owner)
    (htests : ∀ f ∈ th.calls, f.TestsState → t = owner) :
    ∀ f ∈ r.1.calls, f.TestsState → t = owner := by
  have hrest : ∀ f ∈ rest, f.TestsState → t = owner :=
    fun f hf => htests f (by simp [hcalls, hf])
  cases hmove with
  | quiet front hfront =>
      intro f hf hf'
      rcases List.mem_append.mp hf with hf | hf
      · rcases hfront.testsState f hf hf' with hframe | ht
        · exact htests frame (by simp [hcalls]) hframe
        · exact ht.symm.trans howner
      · exact hrest f hf hf'
  | enters => simp
  | pushes => simpa [Frame.TestsState] using hrest
  | quits => simpa [Frame.TestsState] using hrest
  | writes => exact hrest
  | reads => exact hrest

theorem LoopMove.tests
    {s : EventLoop} {t : Tid} {th : LoopThread} {pc : LoopPc}
    {r : LoopThread × Effect}
    (hmove : LoopMove s t th pc r)
    (hcalls : th.calls = []) :
    ∀ f ∈ r.1.calls, ¬ f.TestsState := by
  cases hmove with
  | ended => simp [Frame.TestsState]
  | leaves => simp [Frame.TestsState]
  | dispatches event events =>
      cases event
      all_goals simp [IOEvent.frame, Frame.TestsState]
  | runs n f funcs =>
      cases f
      all_goals simp [Functor.frame, Frame.TestsState]
  | _ => simp [hcalls]

namespace LoopSystem

theorem step_threadId
    {owner : Tid} {s s' : LoopSystem} {l : LoopLabel}
    (hs : s.CreatorInv owner)
    (hstep : s.step l = some s') :
    s'.shared.threadId_ = owner := by
  rcases step_cases hstep with
    ⟨frame, rest, r, hcalls, hmove, rfl⟩ |
    ⟨pc, r, hcalls, hloop, hmove, rfl⟩
  · cases hmove
    all_goals exact hs.threadId
  · cases hmove with
    | updated => exact (hs.wakeInv.threads l.tid).owns (by simp [hloop])
    | _ => exact hs.threadId

theorem step_creatorInv
    {owner : Tid} {s s' : LoopSystem} {l : LoopLabel}
    (hs : s.CreatorInv owner)
    (hl : l.Produces owner)
    (hstep : s.step l = some s') :
    s'.CreatorInv owner := by
  refine ⟨step_wakeInv hs.wakeInv hl (hs.settled l) hstep,
    step_threadId hs hstep, ?_⟩
  rcases step_cases hstep with
    ⟨frame, rest, r, hcalls, hmove, rfl⟩ |
    ⟨pc, r, hcalls, hloop, hmove, rfl⟩
  · exact forall_after
      (fun _ t th => ∀ f ∈ th.calls, f.TestsState → t = owner)
      (hmove.tests hcalls hs.threadId (hs.tests l.tid))
      (fun u _ => hs.tests u)
  · exact forall_after
      (fun _ t th => ∀ f ∈ th.calls, f.TestsState → t = owner)
      (fun f hf h => absurd h (hmove.tests hcalls f hf))
      (fun u _ => hs.tests u)

/-- No wake-up is lost where loop() runs in the thread that created it. -/
theorem noLostWakeUp_of_creator
    {creator : Tid} {ls : List LoopLabel} {s : LoopSystem}
    (hls : ∀ l ∈ ls, l.Produces creator)
    (hrun : TransitionRuns.run step (create creator) ls = some s) :
    s.NoLostWakeUp := by
  have hinit : (create creator).CreatorInv creator := by
    refine ⟨create_wakeInv creator creator, rfl, ?_⟩
    simp [create, Frame.TestsState]
  have hs : s.CreatorInv creator :=
    TransitionRuns.invariant_of_run
      (fun _ _ _ hu hl hstep => step_creatorInv hu hl hstep)
      hinit hls hrun
  exact hs.wakeInv.noLostWakeUp

/-- Thread 0 created the loop and queues a functor; it takes itself for the
loop thread, and before its last test of `state_` thread 1 begins to poll. -/
def creatorOvertaken : List LoopLabel :=
  [⟨0, .call (.queueInLoop .user)⟩] ++ steps 0 4 ++
    [⟨1, .call .loop⟩] ++ steps 1 5 ++ steps 0 1

/-- Thread 0 queues a functor, and thread 1 begins to poll after it has woken
the loop up. -/
def creatorAhead : List LoopLabel :=
  [⟨0, .call (.queueInLoop .user)⟩] ++ steps 0 7 ++
    [⟨1, .call .loop⟩] ++ steps 1 5

/-- A functor is queued, the loop waits, and nobody will wake it up. -/
theorem wakeUp_lost :
    ¬ ∀ creator owner ls s,
      (∀ l ∈ ls, LoopLabel.Produces owner l) →
      TransitionRuns.run step (create creator) ls = some s →
      s.NoLostWakeUp := by
  intro hall
  have hlost :
      (TransitionRuns.run step (create 0) creatorOvertaken).map
        (fun s =>
          (s.shared.eventfd, s.shared.pendingFunctors_,
            s.threads 0, s.threads 1)) =
      some (0, [(0, .user)], ⟨[.user], none⟩, ⟨[], some .wait⟩) := by
    decide +kernel
  obtain ⟨s, hrun, hs⟩ := Option.map_eq_some_iff.mp hlost
  simp only [Prod.mk.injEq] at hs
  obtain ⟨hcount, hpending, hzero, hone⟩ := hs
  have hls : ∀ l ∈ creatorOvertaken, l.Produces 1 := by decide
  rcases hall 0 1 creatorOvertaken s hls hrun 1 (by rw [hone])
    (by simp [hpending]) with hpos | ⟨u, ⟨frame, rest, hcalls, hpush⟩, _⟩
  · omega
  · have hidle : (s.threads u).calls = [.user] ∨ (s.threads u).calls = [] := by
      by_cases hu0 : u = 0
      · subst hu0
        exact .inl (by rw [hzero])
      · by_cases hu1 : u = 1
        · subst hu1
          exact .inr (by rw [hone])
        · have hne : ∀ l ∈ creatorOvertaken, l.tid = 0 ∨ l.tid = 1 := by
            decide
          refine .inl ?_
          rw [run_threads_of_ne (fun l hl => by grind) hrun]
          rfl
    rcases hidle with hidle | hidle
    · rw [hidle] at hcalls
      obtain ⟨rfl, _⟩ := List.cons.inj hcalls
      exact hpush
    · rw [hidle] at hcalls
      cases hcalls

/-- No wake-up is lost in a run in which the loop never begins to poll while a
producer tests `state_` as the loop thread. -/
theorem noLostWakeUp_when_settled
    {creator owner : Tid} {ls : List LoopLabel} {s : LoopSystem}
    (hls : ∀ l ∈ ls, l.Produces owner)
    (hsettled : TransitionRuns.Along step PollsSettled (create creator) ls)
    (hrun : TransitionRuns.run step (create creator) ls = some s) :
    s.NoLostWakeUp := by
  have hs : s.WakeInv owner :=
    TransitionRuns.invariant_of_along
      (fun _ _ _ hu hl hguard hstep => step_wakeInv hu hl hguard hstep)
      (create_wakeInv creator owner) hls hsettled hrun
  exact hs.noLostWakeUp

/-- The loop begins to poll with something to read at the eventfd or with no
functor queued. -/
def PollsReadable (s : LoopSystem) (l : LoopLabel) : Prop :=
  (s.threads l.tid).loop = some .setPolling →
    s.shared.pendingFunctors_ = [] ∨ s.shared.eventfd ≠ 0

instance (s : LoopSystem) (l : LoopLabel) :
    Decidable (s.PollsReadable l) :=
  inferInstanceAs (Decidable (_ → _ ∨ _))

theorem PollsReadable.settled
    {s : LoopSystem} {l : LoopLabel} (h : s.PollsReadable l) :
    s.PollsSettled l := by
  intro hloop hpending hcount
  rcases h hloop with hnil | hpos
  · exact absurd hnil hpending
  · exact absurd hcount hpos

theorem noLostWakeUp_when_settled_sample :
    ∃ s,
      TransitionRuns.run step (create 0) creatorAhead = some s ∧
      (s.threads 1).loop = some .wait ∧ s.NoLostWakeUp := by
  have hwait :
      (TransitionRuns.run step (create 0) creatorAhead).map
        (fun s => (s.threads 1).loop) = some (some .wait) := by
    decide +kernel
  obtain ⟨s, hrun, hs⟩ := Option.map_eq_some_iff.mp hwait
  have hls : ∀ l ∈ creatorAhead, l.Produces 1 := by decide
  have hreadable :
      TransitionRuns.Along step PollsReadable (create 0) creatorAhead := by
    decide +kernel
  have hsettled :
      TransitionRuns.Along step PollsSettled (create 0) creatorAhead :=
    TransitionRuns.along_transfer
      (fun _ _ _ _ h => ⟨h.settled, fun _ _ => trivial⟩)
      trivial (fun _ _ => trivial) hreadable
  exact ⟨s, hrun, hs, noLostWakeUp_when_settled hls hsettled hrun⟩

end LoopSystem

end Hohnor
