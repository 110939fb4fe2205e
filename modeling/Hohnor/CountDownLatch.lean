import Hohnor.ConditionVariables
import Hohnor.TransitionRuns

/-!
# The count-down latch

`CountDownLatch` of include/hohnor/thread/CountDownLatch.h, for threads of any
type.  A method is what its thread does with the lock, up to its end or to the
next wait; a thread that has been woken goes through the test of its loop
again.

countDown() notifies only when the count becomes exactly 0.  That is enough:
the count goes down by one at a time, so it passes 0 with every waiting thread
still there, and no thread waits any more afterwards.
-/

namespace Hohnor

open ConditionVariables TransitionRuns

section CountDownLatch

variable {θ : Type}

structure CountDownLatch (θ : Type) where
  count_ : Int
  cond_ : CondVar θ
deriving DecidableEq, Repr

namespace CountDownLatch

def create (countNum : Int) : CountDownLatch θ where
  count_ := countNum
  cond_ := CondVar.empty

/-- The loop of wait() from its test on; false where it goes to sleep. -/
def wait (l : CountDownLatch θ) (t : θ) : Bool × CountDownLatch θ :=
  if 0 < l.count_ then
    (false, { l with cond_ := l.cond_.wait t })
  else
    (true, l)

def getCount (l : CountDownLatch θ) : Int :=
  l.count_

/-- `countDown`; none where `--count_` overflows the int. -/
def countDown (l : CountDownLatch θ) : Option (CountDownLatch θ) :=
  if -2147483648 < l.count_ then
    let l' := { l with count_ := l.count_ - 1 }
    some (if l'.count_ = 0 then { l' with cond_ := l'.cond_.notifyAll } else l')
  else
    none

end CountDownLatch

/-- A step of a thread at a latch; the other ones are inside of their waits. -/
inductive LatchStep (θ : Type) where
  | wait (t : θ)
  | waitAgain (wake : Wake) (i : Nat)
  | rouse (i : Nat)
  | countDown (t : θ)
  | getCount (t : θ)
deriving DecidableEq, Repr

/-- A latch with the threads that have called wait(), those that have come back
from it and the number of calls of countDown(). -/
structure LatchRun (θ : Type) where
  latch : CountDownLatch θ
  called : List θ
  returned : List θ
  downs : Nat
deriving DecidableEq, Repr

namespace LatchRun

def create (countNum : Int) : LatchRun θ where
  latch := .create countNum
  called := []
  returned := []
  downs := 0

/-- The threads that are inside of wait(). -/
def parked (s : LatchRun θ) : List θ :=
  s.latch.cond_.parked

/-- A thread with the lock goes through the loop of wait(). -/
def look (s : LatchRun θ) (t : θ) : LatchRun θ :=
  { s with
    latch := (s.latch.wait t).2
    returned := if (s.latch.wait t).1 then s.returned ++ [t] else s.returned }

/-- A thread that is inside of wait() calls nothing. -/
def step [DecidableEq θ] (s : LatchRun θ) : LatchStep θ → Option (LatchRun θ)
  | .wait t =>
      if t ∉ s.parked then
        some ({ s with called := s.called ++ [t] }.look t)
      else
        none
  | .waitAgain wake i =>
      (s.latch.cond_.resume wake i).map fun r =>
        { s with latch := { s.latch with cond_ := r.2 } }.look r.1
  | .rouse i =>
      (s.latch.cond_.rouse i).map fun v =>
        { s with latch := { s.latch with cond_ := v } }
  | .countDown t =>
      if t ∉ s.parked then
        s.latch.countDown.map fun l =>
          { s with latch := l, downs := s.downs + 1 }
      else
        none
  | .getCount t => if t ∉ s.parked then some s else none

/-- The count, and who is where. -/
structure Sound (countNum : Int) (s : LatchRun θ) : Prop where
  count : s.latch.count_ = countNum - s.downs
  released : s.latch.count_ ≤ 0 → s.latch.cond_.waiting = []
  held : 0 < s.latch.count_ → s.returned = []
  places : s.called.Perm (s.returned ++ s.parked)

theorem create_sound
    (countNum : Int) :
    Sound countNum (create countNum : LatchRun θ) where
  count := by simp [create, CountDownLatch.create]
  released := fun _ => rfl
  held := fun _ => rfl
  places := List.Perm.refl _

/-- A thread that looks comes back exactly when the latch is open. -/
theorem Sound.look
    {countNum : Int} {s : LatchRun θ} {t : θ}
    (hcount : s.latch.count_ = countNum - s.downs)
    (hreleased : s.latch.count_ ≤ 0 → s.latch.cond_.waiting = [])
    (hheld : 0 < s.latch.count_ → s.returned = [])
    (hplaces : s.called.Perm (s.returned ++ t :: s.parked)) :
    Sound countNum (s.look t) := by
  by_cases hopen : 0 < s.latch.count_
  · have hlook : s.look t =
        { s with latch := { s.latch with cond_ := s.latch.cond_.wait t } } := by
      simp [LatchRun.look, CountDownLatch.wait, hopen]
    rw [hlook]
    refine ⟨hcount, fun hle => absurd hopen (Int.not_lt.mpr hle), hheld, ?_⟩
    exact hplaces.trans
      ((s.latch.cond_.wait_parked t).symm.append_left s.returned)
  · have hlook : s.look t = { s with returned := s.returned ++ [t] } := by
      simp [LatchRun.look, CountDownLatch.wait, hopen]
    rw [hlook]
    refine ⟨hcount, hreleased, fun hpos => absurd hpos hopen, ?_⟩
    simpa [parked] using hplaces

/-- The call that brings the count to 0 wakes all; after it nobody waits. -/
theorem Sound.countDown
    {countNum : Int} {s : LatchRun θ} (hs : Sound countNum s)
    {l : CountDownLatch θ} (hdown : s.latch.countDown = some l) :
    Sound countNum { s with latch := l, downs := s.downs + 1 } := by
  have hcount := hs.count
  rw [CountDownLatch.countDown] at hdown
  split at hdown
  case isFalse => cases hdown
  cases hdown
  by_cases hzero : s.latch.count_ - 1 = 0
  · rw [if_pos hzero]
    refine ⟨?_, fun _ => rfl, ?_, ?_⟩
    · simp only
      omega
    · intro hpos
      exact absurd hzero (Int.ne_of_gt hpos)
    · exact hs.places.trans
        ((CondVar.notifyAll_parked s.latch.cond_).symm.append_left
          s.returned)
  · rw [if_neg hzero]
    refine ⟨?_, ?_, ?_, hs.places⟩
    · simp only
      omega
    · intro hle
      have hle' : s.latch.count_ - 1 ≤ 0 := hle
      exact hs.released (by omega)
    · intro hpos
      have hpos' : 0 < s.latch.count_ - 1 := hpos
      exact hs.held (by omega)

theorem Sound.step
    [DecidableEq θ] {countNum : Int} {s s' : LatchRun θ}
    (hs : Sound countNum s) {l : LatchStep θ}
    (hstep : s.step l = some s') :
    Sound countNum s' := by
  cases l with
  | wait t =>
      simp only [LatchRun.step] at hstep
      split at hstep
      · cases hstep
        refine Sound.look hs.count hs.released hs.held ?_
        have hcalled := hs.places.append_right [t]
        rw [List.append_assoc] at hcalled
        exact hcalled.trans
          ((List.perm_append_singleton t s.parked).append_left s.returned)
      · cases hstep
  | waitAgain wake i =>
      obtain ⟨⟨t, v⟩, hresume, rfl⟩ := Option.map_eq_some_iff.mp hstep
      refine Sound.look hs.count ?_ hs.held ?_
      · intro hle
        exact (CondVar.resume_waiting hresume).trans (hs.released hle)
      · exact hs.places.trans
          ((CondVar.resume_parked hresume).append_left s.returned)
  | rouse i =>
      obtain ⟨v, hrouse, rfl⟩ := Option.map_eq_some_iff.mp hstep
      refine ⟨hs.count, ?_, hs.held, ?_⟩
      · intro hle
        rw [CondVar.rouse_waiting (hs.released hle)] at hrouse
        cases hrouse
      · exact hs.places.trans
          ((CondVar.rouse_parked hrouse).symm.append_left s.returned)
  | countDown t =>
      simp only [LatchRun.step] at hstep
      split at hstep
      · obtain ⟨l, hdown, rfl⟩ := Option.map_eq_some_iff.mp hstep
        exact hs.countDown hdown
      · cases hstep
  | getCount t =>
      simp only [LatchRun.step] at hstep
      split at hstep
      · cases hstep
        exact hs
      · cases hstep

/-- For any number of threads and any order of their steps, spurious wake-ups
included: nobody comes back from wait() before countDown() has been called
`countNum` times; nobody who called it is lost; and from that call on nobody
sleeps, and every thread inside of wait() comes back the next time it has the
lock. -/
theorem latch_releases
    [DecidableEq θ] (countNum : Int)
    {steps : List (LatchStep θ)} {s : LatchRun θ}
    (hrun : run step (create countNum) steps = some s) :
    s.latch.getCount = countNum - s.downs ∧
    (s.returned ≠ [] → countNum ≤ s.downs) ∧
    s.called.Perm (s.returned ++ s.parked) ∧
    (countNum ≤ s.downs →
      s.latch.cond_.waiting = [] ∧
      ∀ wake i t v, s.latch.cond_.resume wake i = some (t, v) →
        ∃ s', s.step (.waitAgain wake i) = some s' ∧
          s'.returned = s.returned ++ [t]) := by
  have hs : Sound countNum s :=
    invariant_of_run (I := Sound countNum) (P := fun _ => True)
      (fun s l s' hs _ hstep => hs.step hstep)
      (create_sound countNum) (fun _ _ => trivial) hrun
  have hcount := hs.count
  refine ⟨hcount, ?_, hs.places, ?_⟩
  · intro hreturned
    by_contra hless
    exact hreturned (hs.held (by omega))
  · intro hdowns
    refine ⟨hs.released (by omega), ?_⟩
    intro wake i t v hresume
    have hopen : ¬ 0 < s.latch.count_ := by omega
    refine ⟨_, by rw [step, hresume]; rfl, ?_⟩
    simp [look, CountDownLatch.wait, hopen]

/-- Two threads wait, one of them wakes without a reason and waits again, and
two calls of countDown() let both go. -/
def sampleSteps : List (LatchStep Nat) :=
  [.wait 1, .wait 2, .rouse 0, .countDown 3, .waitAgain .spurious 0,
    .countDown 3, .waitAgain .signal 1]

theorem latch_releases_two :
    ∃ s : LatchRun Nat, run step (create 2) sampleSteps = some s ∧
      s.latch.getCount = 2 - s.downs ∧
      (s.returned ≠ [] → (2 : Int) ≤ s.downs) ∧
      s.called.Perm (s.returned ++ s.parked) ∧
      ((2 : Int) ≤ s.downs →
        s.latch.cond_.waiting = [] ∧
        ∀ wake i t v, s.latch.cond_.resume wake i = some (t, v) →
          ∃ s', s.step (.waitAgain wake i) = some s' ∧
            s'.returned = s.returned ++ [t]) := by
  have hsome :
      (run step (create 2) sampleSteps).isSome = true := by
    decide +kernel
  obtain ⟨s, hs⟩ := Option.isSome_iff_exists.mp hsome
  exact ⟨s, hs, latch_releases 2 hs⟩

end LatchRun

end CountDownLatch

end Hohnor
