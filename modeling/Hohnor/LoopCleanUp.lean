import Hohnor.EventLoop

/-!
# The handlers at the end of the loop

Any number of threads in `queueInLoop()`, `runInLoop()`, `wakeUp()`,
`endLoop()` and loop().  loop() resets the handlers of the timerfd and of the
eventfd when it ends.  Every use finds its handler if no thread passes the
first test of loop() while another is inside, and if the handler of the
eventfd is not reset while another thread is between the test of wakeUp() and
its write.
-/

namespace Hohnor

/-- The next step of the thread uses `wakeUpHandler_`. -/
def LoopThread.UsesWakeUp (th : LoopThread) : Prop :=
  th.calls.head? = some .writeEventfd ∨
    th.calls.head? = some .handleWakeUp ∨
    th.calls = [] ∧ th.loop = some .disableWakeUp

/-- The next step of the thread uses `timers_->timerFdIOHandle_`. -/
def LoopThread.UsesTimer (th : LoopThread) : Prop :=
  th.calls.head? = some .timerRead ∨
    th.calls.head? = some .resetTimerfd ∨
    th.calls = [] ∧ th.loop = some .disableTimer

instance (th : LoopThread) : Decidable th.UsesWakeUp :=
  inferInstanceAs (Decidable (_ ∨ _ ∨ _ ∧ _))

instance (th : LoopThread) : Decidable th.UsesTimer :=
  inferInstanceAs (Decidable (_ ∨ _ ∨ _ ∧ _))

/-- The places of loop() where its test of `state_` is behind it. -/
def LoopPc.Inside : LoopPc → Prop
  | .enter => False
  | _ => True

theorem LoopPc.inside_iff
    (pc : LoopPc) :
    pc.Inside ↔ pc ≠ .enter := by
  cases pc <;> simp [Inside]

instance : DecidablePred LoopPc.Inside :=
  fun pc => decidable_of_iff (pc ≠ .enter) pc.inside_iff.symm

namespace LoopSystem

/-- A step finds the handlers that it uses. -/
def FindsHandlers (s : LoopSystem) (l : LoopLabel) : Prop :=
  l.choice = .step →
    ((s.threads l.tid).UsesWakeUp → s.shared.wakeUpHandler_ = true) ∧
    ((s.threads l.tid).UsesTimer → s.shared.timerFdIOHandle_ = true)

instance (s : LoopSystem) (l : LoopLabel) :
    Decidable (s.FindsHandlers l) :=
  inferInstanceAs (Decidable (_ → (_ → _) ∧ (_ → _)))

/-- A thread goes on into loop() only when no other is inside. -/
def EntersAlone (s : LoopSystem) (l : LoopLabel) : Prop :=
  (s.threads l.tid).loop = some .enter →
    s.shared.state_ ≠ .End →
    ∀ u, u ≠ l.tid →
      ∀ pc, (s.threads u).loop = some pc → ¬ pc.Inside

/-- The handler of the eventfd is reset only when no other thread is about to
write. -/
def ResetsUnused (s : LoopSystem) (l : LoopLabel) : Prop :=
  (s.threads l.tid).loop = some .resetWakeUp →
    ∀ u, u ≠ l.tid →
      ∀ rest, (s.threads u).calls ≠ .writeEventfd :: rest

end LoopSystem

/-- The places after `state_` is set to End. -/
def LoopPc.AfterEnd : LoopPc → Prop
  | .disableTimer => True
  | .resetTimer => True
  | .disableWakeUp => True
  | .resetWakeUp => True
  | .clear => True
  | .leave => True
  | _ => False

/-- The places after the timerfd's handler is reset. -/
def LoopPc.AfterTimer : LoopPc → Prop
  | .disableWakeUp => True
  | .resetWakeUp => True
  | .clear => True
  | .leave => True
  | _ => False

/-- The places after the eventfd's handler is reset. -/
def LoopPc.AfterWakeUp : LoopPc → Prop
  | .clear => True
  | .leave => True
  | _ => False

/-- Where a thread can be, given the state and the handlers. -/
structure CleanUpOk (s : EventLoop) (th : LoopThread) : Prop where
  ended :
    s.state_ = .End →
      ∀ pc, th.loop = some pc → pc.Inside → pc.AfterEnd
  afterEnd :
    ∀ pc, th.loop = some pc → pc.AfterEnd → s.state_ = .End
  timer :
    s.timerFdIOHandle_ = false →
      ∀ pc, th.loop = some pc → pc.Inside → pc.AfterTimer
  wakeUp :
    s.wakeUpHandler_ = false →
      ∀ pc, th.loop = some pc → pc.Inside → pc.AfterWakeUp
  writes : s.wakeUpHandler_ = false → .writeEventfd ∉ th.calls

/-- A handler is reset only after the state is End. -/
structure EventLoop.ResetOk (s : EventLoop) : Prop where
  timer : s.timerFdIOHandle_ = false → s.state_ = .End
  wakeUp : s.wakeUpHandler_ = false → s.state_ = .End

theorem LoopPc.AfterEnd.inside
    {pc : LoopPc} (hpc : pc.AfterEnd) :
    pc.Inside := by
  cases pc with
  | enter => exact hpc
  | _ => trivial

namespace CleanUpOk

theorem usesWakeUp
    {s : EventLoop} {th : LoopThread}
    (hok : CleanUpOk s th) (hstack : th.Ok)
    (huses : th.UsesWakeUp) :
    s.wakeUpHandler_ = true := by
  by_contra hnull
  rw [Bool.not_eq_true] at hnull
  rcases huses with htop | htop | ⟨_, hloop⟩
  · exact hok.writes hnull (List.mem_of_mem_head? htop)
  · obtain ⟨events, hloop⟩ :=
      hstack.fits .handleWakeUp (List.mem_of_mem_head? htop)
    exact hok.wakeUp hnull _ hloop trivial
  · exact hok.wakeUp hnull _ hloop trivial

theorem usesTimer
    {s : EventLoop} {th : LoopThread}
    (hok : CleanUpOk s th) (hstack : th.Ok)
    (huses : th.UsesTimer) :
    s.timerFdIOHandle_ = true := by
  by_contra hnull
  rw [Bool.not_eq_true] at hnull
  rcases huses with htop | htop | ⟨_, hloop⟩
  · obtain ⟨events, hloop⟩ :=
      hstack.fits .timerRead (List.mem_of_mem_head? htop)
    exact hok.timer hnull _ hloop trivial
  · rcases hstack.fits .resetTimerfd (List.mem_of_mem_head? htop) with
      ⟨events, hloop⟩ | ⟨funcs, hloop⟩
    · exact hok.timer hnull _ hloop trivial
    · exact hok.timer hnull _ hloop trivial
  · exact hok.timer hnull _ hloop trivial

/-- A thread that is not inside of loop(). -/
theorem outside
    {s : EventLoop} {th : LoopThread}
    (houtside : ∀ pc, th.loop = some pc → ¬ pc.Inside)
    (hwrites : s.wakeUpHandler_ = false → .writeEventfd ∉ th.calls) :
    CleanUpOk s th := by
  constructor
  · intro _ pc hpc hinside
    exact absurd hinside (houtside pc hpc)
  · intro pc hpc hafter
    exact absurd hafter.inside (houtside pc hpc)
  · intro _ pc hpc hinside
    exact absurd hinside (houtside pc hpc)
  · intro _ pc hpc hinside
    exact absurd hinside (houtside pc hpc)
  · exact hwrites

/-- A thread before the end of the loop. -/
theorem before_end
    {s : EventLoop} {calls : List Frame} {pc : LoopPc}
    (hreset : s.ResetOk)
    (hend : s.state_ ≠ .End)
    (hpc : ¬ pc.AfterEnd) :
    CleanUpOk s { calls := calls, loop := some pc } := by
  constructor
  · exact fun h => absurd h hend
  · rintro _ ⟨rfl⟩ hafter
    exact absurd hafter hpc
  · exact fun h => absurd (hreset.timer h) hend
  · exact fun h => absurd (hreset.wakeUp h) hend
  · exact fun h => absurd (hreset.wakeUp h) hend

/-- A thread in the clean-up. -/
theorem after_end
    {s : EventLoop} {pc : LoopPc}
    (hend : s.state_ = .End)
    (hpc : pc.AfterEnd)
    (htimer : s.timerFdIOHandle_ = false → pc.AfterTimer)
    (hwakeUp : s.wakeUpHandler_ = false → pc.AfterWakeUp) :
    CleanUpOk s { calls := [], loop := some pc } := by
  constructor
  · rintro _ _ ⟨rfl⟩ _
    exact hpc
  · exact fun _ _ _ => hend
  · rintro h _ ⟨rfl⟩ _
    exact htimer h
  · rintro h _ ⟨rfl⟩ _
    exact hwakeUp h
  · simp

theorem congr
    {s s' : EventLoop} {th : LoopThread}
    (hok : CleanUpOk s th)
    (hstate : s'.state_ = s.state_)
    (htimer : s'.timerFdIOHandle_ = s.timerFdIOHandle_)
    (hwakeUp : s'.wakeUpHandler_ = s.wakeUpHandler_) :
    CleanUpOk s' th := by
  obtain ⟨h₁, h₂, h₃, h₄, h₅⟩ := hok
  constructor
  all_goals simpa only [hstate, htimer, hwakeUp]

end CleanUpOk

/-- A call leaves the state and the handlers alone. -/
theorem CallMove.members
    {s : EventLoop} {t : Tid} {th : LoopThread} {rest : List Frame}
    {frame : Frame} {c : Choice} {r : LoopThread × Effect}
    (hmove : CallMove s t th rest frame c r) :
    (s.apply r.2).state_ = s.state_ ∧
      (s.apply r.2).timerFdIOHandle_ = s.timerFdIOHandle_ ∧
      (s.apply r.2).wakeUpHandler_ = s.wakeUpHandler_ := by
  cases hmove
  all_goals exact ⟨rfl, rfl, rfl⟩

/-- A call of loop() stops before its first test. -/
theorem CallMove.loop_inside
    {s : EventLoop} {t : Tid} {th : LoopThread} {rest : List Frame}
    {frame : Frame} {c : Choice} {r : LoopThread × Effect} {pc : LoopPc}
    (hmove : CallMove s t th rest frame c r)
    (hloop : r.1.loop = some pc)
    (hinside : pc.Inside) :
    th.loop = some pc := by
  cases hmove with
  | enters =>
      cases hloop
      exact absurd hinside not_false
  | _ => exact hloop

theorem CallMove.cleanUpOk
    {s : EventLoop} {t : Tid} {th : LoopThread} {rest : List Frame}
    {frame : Frame} {c : Choice} {r : LoopThread × Effect}
    (hmove : CallMove s t th rest frame c r)
    (hcalls : th.calls = frame :: rest)
    (hreset : s.ResetOk)
    (hok : CleanUpOk s th) :
    CleanUpOk (s.apply r.2) r.1 := by
  obtain ⟨hstate, htimer, hwakeUp⟩ := hmove.members
  have hrest : s.wakeUpHandler_ = false → .writeEventfd ∉ rest := by
    intro hnull hmem
    exact hok.writes hnull (by simp [hcalls, hmem])
  refine CleanUpOk.congr ?_ hstate htimer hwakeUp
  cases hmove with
  | quiet front hfront =>
      refine ⟨hok.ended, hok.afterEnd, hok.timer, hok.wakeUp, ?_⟩
      intro hnull hmem
      rcases List.mem_append.mp hmem with hmem | hmem
      · exact (hfront.writes hmem).2 (hreset.wakeUp hnull)
      · exact hrest hnull hmem
  | enters =>
      refine .outside ?_ (by simp)
      rintro _ ⟨rfl⟩ hinside
      exact hinside
  | pushes =>
      refine ⟨hok.ended, hok.afterEnd, hok.timer, hok.wakeUp, ?_⟩
      simpa using hrest
  | writes => exact ⟨hok.ended, hok.afterEnd, hok.timer, hok.wakeUp, hrest⟩
  | reads => exact ⟨hok.ended, hok.afterEnd, hok.timer, hok.wakeUp, hrest⟩
  | quits =>
      refine ⟨hok.ended, hok.afterEnd, hok.timer, hok.wakeUp, ?_⟩
      simpa using hrest

/-- What a step of loop() makes of the members. -/
theorem LoopMove.resetOk
    {s : EventLoop} {t : Tid} {th : LoopThread} {pc : LoopPc}
    {r : LoopThread × Effect}
    (hmove : LoopMove s t th pc r)
    (hloop : th.loop = some pc)
    (hreset : s.ResetOk)
    (hok : CleanUpOk s th) :
    (s.apply r.2).ResetOk := by
  have hiterates :
      ¬ pc.AfterEnd → pc.Inside → s.state_ ≠ .End :=
    fun hpc hinside hend => hpc (hok.ended hend pc hloop hinside)
  have hrunning :
      s.state_ ≠ .End → ∀ state, EventLoop.ResetOk { s with state_ := state } := by
    intro hend state
    constructor
    · exact fun h => absurd (hreset.timer h) hend
    · exact fun h => absurd (hreset.wakeUp h) hend
  cases hmove with
  | polls => exact hrunning (hiterates not_false trivial) _
  | handles => exact hrunning (hiterates not_false trivial) _
  | pends => exact hrunning (hiterates not_false trivial) _
  | ends => exact ⟨fun _ => rfl, fun _ => rfl⟩
  | resetsTimer =>
      exact ⟨fun _ => hok.afterEnd _ hloop trivial, hreset.wakeUp⟩
  | resetsWakeUp =>
      exact ⟨hreset.timer, fun _ => hok.afterEnd _ hloop trivial⟩
  | _ => exact ⟨hreset.timer, hreset.wakeUp⟩

theorem LoopMove.cleanUpOk
    {s : EventLoop} {t : Tid} {th : LoopThread} {pc : LoopPc}
    {r : LoopThread × Effect}
    (hmove : LoopMove s t th pc r)
    (hcalls : th.calls = [])
    (hloop : th.loop = some pc)
    (hreset : s.ResetOk)
    (hok : CleanUpOk s th) :
    CleanUpOk (s.apply r.2) r.1 := by
  have hreset' := hmove.resetOk hloop hreset hok
  have hrunning : pc.Inside → ¬ pc.AfterEnd → s.state_ ≠ .End :=
    fun hinside hpc hend => hpc (hok.ended hend pc hloop hinside)
  have hafter : pc.AfterEnd → s.state_ = .End := hok.afterEnd pc hloop
  have hwakeUp : s.wakeUpHandler_ = false → pc.Inside → pc.AfterWakeUp :=
    fun h => hok.wakeUp h pc hloop
  have houtside : CleanUpOk s { calls := [.user], loop := none } :=
    .outside (by simp) (by simp)
  cases hmove with
  | ended => exact houtside
  | leaves => exact houtside
  | entered hend => exact .before_end hreset' hend not_false
  | polls => exact .before_end hreset' (by simp [EventLoop.apply]) not_false
  | handles =>
      exact .before_end hreset' (by simp [EventLoop.apply]) not_false
  | pends => exact .before_end hreset' (by simp [EventLoop.apply]) not_false
  | ends =>
      have hend := hrunning trivial not_false
      rw [hcalls]
      exact .after_end rfl trivial (fun h => absurd (hreset.timer h) hend)
        (fun h => absurd (hreset.wakeUp h) hend)
  | disablesTimer hhandler =>
      rw [hcalls]
      exact .after_end (hafter trivial) trivial
        (fun h => absurd (hhandler.symm.trans h) (by simp))
        (fun h => hwakeUp h trivial)
  | resetsTimer =>
      rw [hcalls]
      exact .after_end (hafter trivial) trivial (fun _ => trivial)
        (fun h => hwakeUp h trivial)
  | disablesWakeUp hhandler =>
      rw [hcalls]
      exact .after_end (hafter trivial) trivial (fun _ => trivial)
        (fun h => absurd (hhandler.symm.trans h) (by simp))
  | resetsWakeUp =>
      rw [hcalls]
      exact .after_end (hafter trivial) trivial (fun _ => trivial)
        (fun _ => trivial)
  | clears =>
      rw [hcalls]
      exact .after_end (hafter trivial) trivial (fun _ => trivial)
        (fun _ => trivial)
  | _ => exact .before_end hreset' (hrunning trivial not_false) not_false

/-- A step of loop() in one thread, seen by another. -/
theorem LoopMove.cleanUpOk_other
    {s : EventLoop} {t : Tid} {th th' : LoopThread} {pc : LoopPc}
    {r : LoopThread × Effect}
    (hmove : LoopMove s t th pc r)
    (hloop : th.loop = some pc)
    (hreset : s.ResetOk)
    (hok : CleanUpOk s th)
    (hok' : CleanUpOk s th')
    (halone :
      pc.Inside → ∀ pc', th'.loop = some pc' → ¬ pc'.Inside)
    (hunused : pc = .resetWakeUp → .writeEventfd ∉ th'.calls) :
    CleanUpOk (s.apply r.2) th' := by
  have hreset' := hmove.resetOk hloop hreset hok
  have hrunning : pc.Inside → ¬ pc.AfterEnd → s.state_ ≠ .End :=
    fun hinside hpc hend => hpc (hok.ended hend pc hloop hinside)
  cases hmove with
  | polls =>
      refine .outside (halone trivial) ?_
      exact fun h => absurd (hreset'.wakeUp h) (by simp [EventLoop.apply])
  | handles =>
      refine .outside (halone trivial) ?_
      exact fun h => absurd (hreset'.wakeUp h) (by simp [EventLoop.apply])
  | pends =>
      refine .outside (halone trivial) ?_
      exact fun h => absurd (hreset'.wakeUp h) (by simp [EventLoop.apply])
  | ends => exact .outside (halone trivial) hok'.writes
  | resetsTimer => exact .outside (halone trivial) hok'.writes
  | resetsWakeUp =>
      exact .outside (halone trivial) (fun _ => hunused rfl)
  | _ => exact hok'.congr rfl rfl rfl

namespace LoopSystem

structure CleanUpInv (s : LoopSystem) : Prop where
  stacksOk : s.StacksOk
  reset : s.shared.ResetOk
  threads : ∀ t, CleanUpOk s.shared (s.threads t)
  alone :
    ∀ t u pc pc', (s.threads t).loop = some pc → pc.Inside →
      (s.threads u).loop = some pc' → pc'.Inside → t = u

theorem create_cleanUpInv (creator : Tid) :
    (create creator).CleanUpInv := by
  refine ⟨create_stacksOk creator, ?_, ?_, ?_⟩
  · constructor
    all_goals simp [create, EventLoop.create]
  · intro t
    constructor
    all_goals simp [create, EventLoop.create]
  · intro t u pc pc' hpc
    cases hpc

/-- Only one thread is inside if the thread that took the step was inside, or
if no other is. -/
theorem alone_after
    {s : LoopSystem} {t : Tid} {r : LoopThread × Effect}
    (hs : s.CleanUpInv)
    (hself :
      ∀ pc', r.1.loop = some pc' → pc'.Inside →
        (∃ pc, (s.threads t).loop = some pc ∧ pc.Inside) ∨
        ∀ u, u ≠ t → ∀ pc, (s.threads u).loop = some pc → ¬ pc.Inside) :
    ∀ u v pc pc', ((s.after t r).threads u).loop = some pc → pc.Inside →
      ((s.after t r).threads v).loop = some pc' → pc'.Inside → u = v := by
  have hother :
      ∀ u, u ≠ t → ∀ pc pc', ((s.after t r).threads t).loop = some pc →
        pc.Inside → ((s.after t r).threads u).loop = some pc' →
        ¬ pc'.Inside := by
    intro u hu pc pc' hpc hinside hpc' hinside'
    rw [after_threads_self] at hpc
    rw [after_threads_of_ne s r hu] at hpc'
    rcases hself pc hpc hinside with ⟨pc₀, hpc₀, hinside₀⟩ | hnone
    · exact hu (hs.alone u t pc' pc₀ hpc' hinside' hpc₀ hinside₀)
    · exact hnone u hu pc' hpc' hinside'
  intro u v pc pc' hpc hinside hpc' hinside'
  by_cases hu : u = t
  · by_cases hv : v = t
    · exact hu.trans hv.symm
    · subst hu
      exact absurd hinside' (hother v hv pc pc' hpc hinside hpc')
  · by_cases hv : v = t
    · subst hv
      exact absurd hinside (hother u hu pc' pc hpc' hinside' hpc)
    · rw [after_threads_of_ne s r hu] at hpc
      rw [after_threads_of_ne s r hv] at hpc'
      exact hs.alone u v pc pc' hpc hinside hpc' hinside'

/-- A call keeps the invariant. -/
theorem callMove_cleanUpInv
    {s : LoopSystem} {t : Tid} {frame : Frame} {rest : List Frame}
    {c : Choice} {r : LoopThread × Effect}
    (hs : s.CleanUpInv)
    (hcalls : (s.threads t).calls = frame :: rest)
    (hmove : CallMove s.shared t (s.threads t) rest frame c r) :
    (s.after t r).CleanUpInv := by
  obtain ⟨hstate, htimer, hwakeUp⟩ := hmove.members
  constructor
  · exact hmove.stacksOk hcalls hs.stacksOk
  · constructor
    · intro h
      rw [after_shared, hstate]
      exact hs.reset.timer (htimer.symm.trans h)
    · intro h
      rw [after_shared, hstate]
      exact hs.reset.wakeUp (hwakeUp.symm.trans h)
  · exact forall_after (fun s _ th => CleanUpOk s th)
      (hmove.cleanUpOk hcalls hs.reset (hs.threads t))
      (fun u _ => (hs.threads u).congr hstate htimer hwakeUp)
  · refine alone_after hs ?_
    intro pc' hpc' hinside
    exact .inl ⟨pc', hmove.loop_inside hpc' hinside, hinside⟩

/-- A step of loop() keeps the invariant if it enters alone and resets an
unused handler. -/
theorem loopMove_cleanUpInv
    {s : LoopSystem} {t : Tid} {pc : LoopPc} {c : Choice}
    {r : LoopThread × Effect}
    (hs : s.CleanUpInv)
    (halone : s.EntersAlone ⟨t, c⟩)
    (hunused : s.ResetsUnused ⟨t, c⟩)
    (hcalls : (s.threads t).calls = [])
    (hloop : (s.threads t).loop = some pc)
    (hmove : LoopMove s.shared t (s.threads t) pc r) :
    (s.after t r).CleanUpInv := by
  have hothers :
      ∀ u, u ≠ t → pc.Inside →
        ∀ pc', (s.threads u).loop = some pc' → ¬ pc'.Inside :=
    fun u hu hinside pc' hpc' hinside' =>
      hu (hs.alone u t pc' pc hpc' hinside' hloop hinside)
  constructor
  · exact hmove.stacksOk hcalls hs.stacksOk
  · exact hmove.resetOk hloop hs.reset (hs.threads t)
  · refine forall_after (fun s _ th => CleanUpOk s th)
      (hmove.cleanUpOk hcalls hloop hs.reset (hs.threads t)) ?_
    intro u hu
    refine hmove.cleanUpOk_other hloop hs.reset (hs.threads t)
      (hs.threads u) (hothers u hu) ?_
    rintro rfl hmem
    cases hcallsu : (s.threads u).calls with
    | nil => simp [hcallsu] at hmem
    | cons frame rest =>
        rw [hcallsu] at hmem
        rcases List.mem_cons.mp hmem with rfl | hmem
        · exact hunused hloop u hu rest hcallsu
        · have hwrites := (hs.stacksOk u).writes
          rw [hcallsu] at hwrites
          exact hwrites hmem
  · refine alone_after hs ?_
    intro pc' hpc' hinside
    cases hmove with
    | entered hend => exact .inr (halone hloop hend)
    | ended => cases hpc'
    | leaves => cases hpc'
    | _ => exact .inl ⟨_, hloop, trivial⟩

/-- Under the invariant every step finds its handlers. -/
theorem CleanUpInv.findsHandlers
    {s : LoopSystem} (hs : s.CleanUpInv) (l : LoopLabel) :
    s.FindsHandlers l := by
  intro _
  constructor
  · exact (hs.threads l.tid).usesWakeUp (hs.stacksOk l.tid)
  · exact (hs.threads l.tid).usesTimer (hs.stacksOk l.tid)

theorem step_cleanUpInv
    {s s' : LoopSystem} {l : LoopLabel}
    (hs : s.CleanUpInv)
    (halone : s.EntersAlone l)
    (hunused : s.ResetsUnused l)
    (hstep : s.step l = some s') :
    s'.CleanUpInv := by
  rcases step_cases hstep with
    ⟨frame, rest, r, hcalls, hmove, rfl⟩ |
    ⟨pc, r, hcalls, hloop, hmove, rfl⟩
  · exact callMove_cleanUpInv hs hcalls hmove
  · exact loopMove_cleanUpInv hs halone hunused hcalls hloop hmove

/-- The loop of thread 1 ends while thread 0 is between the test of wakeUp() and
its write. -/
def wakeUpOvertaken : List LoopLabel :=
  [⟨1, .call .loop⟩] ++ steps 1 5 ++
    [⟨0, .call .wakeUp⟩] ++ steps 0 1 ++
    [⟨2, .call .endLoop⟩] ++ steps 2 6 ++
    [⟨1, .ready [.wakeUp]⟩] ++ steps 1 13 ++ steps 0 1

/-- Thread 0 ends a loop that thread 1 is entering, and both clean up. -/
def cleanUpTwice : List LoopLabel :=
  [⟨0, .call .endLoop⟩] ++ steps 0 3 ++
    [⟨1, .call .loop⟩] ++ steps 1 3 ++ steps 0 7 ++ steps 1 3

/-- A null handler of the eventfd and one of the timerfd are used. -/
theorem handlers_lost :
    ¬ TransitionRuns.Along step FindsHandlers (create 0) wakeUpOvertaken ∧
      ¬ TransitionRuns.Along step FindsHandlers (create 0) cleanUpTwice := by
  constructor
  all_goals decide +kernel

/-- Every use of a handler finds it in a run in which threads enter loop()
alone and the eventfd's handler is reset while no other thread is about to
write. -/
theorem handlers_found_when_exclusive
    {creator : Tid} {ls : List LoopLabel}
    (hguard :
      TransitionRuns.Along step
        (fun s l => s.EntersAlone l ∧ s.ResetsUnused l)
        (create creator) ls) :
    TransitionRuns.Along step FindsHandlers (create creator) ls := by
  have hstep :
      ∀ s l, CleanUpInv s → True → EntersAlone s l ∧ ResetsUnused s l →
        FindsHandlers s l ∧ ∀ s', step s l = some s' → CleanUpInv s' := by
    rintro s l hs _ ⟨halone, hunused⟩
    exact ⟨hs.findsHandlers l,
      fun s' hs' => step_cleanUpInv hs halone hunused hs'⟩
  exact TransitionRuns.along_transfer hstep (create_cleanUpInv creator)
    (fun _ _ => trivial) hguard

/-- The two guards of a step, for the other threads of a list. -/
def ExclusiveAmong
    (ts : List Tid) (s : LoopSystem) (l : LoopLabel) : Prop :=
  ((s.threads l.tid).loop = some .enter →
    s.shared.state_ ≠ .End →
    ∀ u ∈ ts, u ≠ l.tid →
      ∀ pc ∈ (s.threads u).loop, ¬ pc.Inside) ∧
  ((s.threads l.tid).loop = some .resetWakeUp →
    ∀ u ∈ ts, u ≠ l.tid →
      (s.threads u).calls.head? ≠ some .writeEventfd)

instance (ts : List Tid) (s : LoopSystem) (l : LoopLabel) :
    Decidable (ExclusiveAmong ts s l) :=
  inferInstanceAs (Decidable ((_ → _ → _) ∧ (_ → _)))

/-- A thread that has called nothing is in nobody's way. -/
theorem along_exclusive_of_among
    {creator : Tid} {ts : List Tid} {ls : List LoopLabel}
    (hls : ∀ l ∈ ls, l.tid ∈ ts)
    (hamong :
      TransitionRuns.Along step (ExclusiveAmong ts) (create creator) ls) :
    TransitionRuns.Along step
      (fun s l => s.EntersAlone l ∧ s.ResetsUnused l)
      (create creator) ls := by
  have hstep :
      ∀ s l,
        (∀ u, u ∉ ts → s.threads u = { calls := [.user], loop := none }) →
        LoopLabel.tid l ∈ ts → ExclusiveAmong ts s l →
        (EntersAlone s l ∧ ResetsUnused s l) ∧
        ∀ s', step s l = some s' →
          ∀ u, u ∉ ts →
            s'.threads u = { calls := [.user], loop := none } := by
    rintro s l hidle hl ⟨halone, hunused⟩
    refine ⟨⟨?_, ?_⟩, ?_⟩
    · intro henter hend u hu pc hpc
      by_cases hts : u ∈ ts
      · exact halone henter hend u hts hu pc hpc
      · rw [hidle u hts] at hpc
        cases hpc
    · intro hreset u hu rest hcalls
      by_cases hts : u ∈ ts
      · refine hunused hreset u hts hu ?_
        rw [hcalls, List.head?_cons]
      · rw [hidle u hts] at hcalls
        cases hcalls
    · intro s' hs' u hu
      obtain ⟨r, _, rfl⟩ := Option.map_eq_some_iff.mp hs'
      have hne : u ≠ l.tid := fun h => hu (h ▸ hl)
      rw [after_threads_of_ne s r hne]
      exact hidle u hu
  exact TransitionRuns.along_transfer hstep (fun _ _ => rfl) hls hamong

/-- Thread 0 ends the loop of thread 1, which waits and then cleans up. -/
def endedByAnother : List LoopLabel :=
  [⟨1, .call .loop⟩] ++ steps 1 5 ++ [⟨0, .call .endLoop⟩] ++ steps 0 6 ++
    [⟨1, .ready [.wakeUp]⟩] ++ steps 1 15

theorem handlers_found_when_exclusive_sample :
    (TransitionRuns.run step (create 0) endedByAnother).map
        (fun s => (s.shared.state_, s.shared.wakeUpHandler_,
          s.shared.timerFdIOHandle_)) =
      some (.End, false, false) ∧
    TransitionRuns.Along step FindsHandlers (create 0) endedByAnother := by
  have hls : ∀ l ∈ endedByAnother, l.tid ∈ [0, 1] := by decide
  have hamong :
      TransitionRuns.Along step (ExclusiveAmong [0, 1]) (create 0)
        endedByAnother := by
    decide +kernel
  exact ⟨by decide +kernel,
    handlers_found_when_exclusive (along_exclusive_of_among hls hamong)⟩

end LoopSystem

end Hohnor
