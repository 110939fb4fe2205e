import Hohnor.Slots
import Mathlib.Data.List.Basic

/-!
# Condition variables

The threads at one condition variable of a monitor, each with what it needs to
go on: those that wait, those that a signal has woken, and those that have woken
without one.  A woken thread is no longer waiting, but it has not had the lock
since.

A signal wakes one waiting thread, whichever, where there is one.  `Covers`
is the counting invariant against lost wake-ups: as long as a thread waits,
the units of what it waits for are not more than the signalled threads that
have yet to look.
-/

namespace ConditionVariables

open Slots

universe u

section ConditionVariables

variable {W : Type u}

structure CondVar (W : Type u) where
  waiting : List W
  signalled : List W
  roused : List W
deriving DecidableEq, Repr

/-- What has woken a thread. -/
inductive Wake where
  | signal
  | spurious
deriving DecidableEq, Repr

namespace CondVar

def empty : CondVar W where
  waiting := []
  signalled := []
  roused := []

def wait (v : CondVar W) (w : W) : CondVar W :=
  { v with waiting := v.waiting ++ [w] }

/-- A signal; `pick` counts around the waiting threads. -/
def notify (v : CondVar W) (pick : Nat) : CondVar W :=
  match v.waiting[pick % v.waiting.length]? with
  | none => v
  | some w =>
      { v with
        waiting := v.waiting.eraseIdx (pick % v.waiting.length)
        signalled := v.signalled ++ [w] }

def notifyAll (v : CondVar W) : CondVar W :=
  { v with
    waiting := []
    signalled := v.signalled ++ v.waiting }

/-- A spurious wake-up. -/
def rouse (v : CondVar W) (i : Nat) : Option (CondVar W) :=
  v.waiting[i]?.map fun w =>
    { v with
      waiting := v.waiting.eraseIdx i
      roused := v.roused ++ [w] }

/-- A woken thread has the lock again. -/
def resume (v : CondVar W) (wake : Wake) (i : Nat) :
    Option (W × CondVar W) :=
  match wake with
  | .signal =>
      v.signalled[i]?.map fun w =>
        (w, { v with signalled := v.signalled.eraseIdx i })
  | .spurious =>
      v.roused[i]?.map fun w =>
        (w, { v with roused := v.roused.eraseIdx i })

/-- The threads that are inside of their wait. -/
def parked (v : CondVar W) : List W :=
  v.waiting ++ (v.signalled ++ v.roused)

/-- As long as a thread waits, `n` units are left to signalled threads. -/
def Covers (v : CondVar W) (n : Nat) : Prop :=
  v.waiting ≠ [] → n ≤ v.signalled.length

theorem covers_empty
    (n : Nat) :
    (empty : CondVar W).Covers n := by
  intro hne
  exact absurd rfl hne

theorem covers_zero
    (v : CondVar W) :
    v.Covers 0 := by
  intro _
  exact Nat.zero_le _

theorem Covers.mono
    {v : CondVar W} {n m : Nat} (h : v.Covers n) (hle : m ≤ n) :
    v.Covers m := by
  intro hne
  exact Nat.le_trans hle (h hne)

/-- The unit that a signal announces is covered by it. -/
theorem Covers.notify
    {v : CondVar W} {n : Nat} (h : v.Covers n) (pick : Nat) :
    (v.notify pick).Covers (n + 1) := by
  intro hne
  rw [CondVar.notify] at hne ⊢
  cases hw : v.waiting[pick % v.waiting.length]? with
  | none =>
      simp only [hw] at hne
      have hlt : pick % v.waiting.length < v.waiting.length :=
        Nat.mod_lt _ (List.length_pos_iff.mpr hne)
      rw [List.getElem?_eq_getElem hlt] at hw
      cases hw
  | some w =>
      have hwaiting : v.waiting ≠ [] := by
        intro hnil
        simp [hnil] at hw
      have hcovered := h hwaiting
      simp only [List.length_append, List.length_singleton]
      omega

theorem Covers.rouse
    {v v' : CondVar W} {n i : Nat} (h : v.Covers n)
    (hrouse : v.rouse i = some v') :
    v'.Covers n := by
  obtain ⟨w, hw, rfl⟩ := Option.map_eq_some_iff.mp hrouse
  intro _
  apply h
  intro hnil
  simp [hnil] at hw

/-- A thread that looks takes one unit at most from the signalled ones. -/
theorem Covers.resume
    {v v' : CondVar W} {n i : Nat} {wake : Wake} {w : W}
    (h : v.Covers n) (hresume : v.resume wake i = some (w, v')) :
    v'.Covers (n - 1) := by
  cases wake with
  | signal =>
      obtain ⟨w', hw, heq⟩ := Option.map_eq_some_iff.mp hresume
      obtain ⟨rfl, rfl⟩ := Prod.mk.inj heq
      have hi := (List.getElem?_eq_some_iff.mp hw).1
      intro hne
      have hcovered := h hne
      rw [List.length_eraseIdx_of_lt hi]
      omega
  | spurious =>
      obtain ⟨w', hw, heq⟩ := Option.map_eq_some_iff.mp hresume
      obtain ⟨rfl, rfl⟩ := Prod.mk.inj heq
      intro hne
      have hcovered := h hne
      exact Nat.le_trans (Nat.sub_le n 1) hcovered

theorem notify_waiting
    {v : CondVar W} (hnil : v.waiting = []) (pick : Nat) :
    (v.notify pick).waiting = [] := by
  simp [notify, hnil]

theorem rouse_waiting
    {v : CondVar W} (hnil : v.waiting = []) (i : Nat) :
    v.rouse i = none := by
  simp [rouse, hnil]

theorem resume_waiting
    {v v' : CondVar W} {wake : Wake} {i : Nat} {w : W}
    (hresume : v.resume wake i = some (w, v')) :
    v'.waiting = v.waiting := by
  cases wake with
  | signal =>
      obtain ⟨_, _, heq⟩ := Option.map_eq_some_iff.mp hresume
      obtain ⟨rfl, rfl⟩ := Prod.mk.inj heq
      rfl
  | spurious =>
      obtain ⟨_, _, heq⟩ := Option.map_eq_some_iff.mp hresume
      obtain ⟨rfl, rfl⟩ := Prod.mk.inj heq
      rfl

theorem wait_parked
    (v : CondVar W) (w : W) :
    (v.wait w).parked.Perm (w :: v.parked) := by
  simp only [parked, wait]
  rw [List.append_assoc]
  exact List.perm_middle

/-- A thread goes from the waiting ones to another place. -/
theorem perm_of_eraseIdx
    {l : List W} {i : Nat} {w : W} (hw : l[i]? = some w)
    (before after : List W) :
    (l.eraseIdx i ++ (before ++ w :: after)).Perm
      (l ++ (before ++ after)) := by
  have hmoved :
      (l.eraseIdx i ++ (before ++ w :: after)).Perm
        (w :: l.eraseIdx i ++ (before ++ after)) := by
    rw [← List.append_assoc, List.cons_append, ← List.append_assoc]
    exact List.perm_middle
  exact hmoved.trans
    ((perm_of_get hw).symm.append_right (before ++ after))

theorem notify_parked
    (v : CondVar W) (pick : Nat) :
    (v.notify pick).parked.Perm v.parked := by
  rw [notify]
  split
  · exact List.Perm.refl _
  · rename_i w hw
    simp only [parked, List.append_assoc, List.singleton_append]
    exact perm_of_eraseIdx hw v.signalled v.roused

theorem rouse_parked
    {v v' : CondVar W} {i : Nat} (hrouse : v.rouse i = some v') :
    v'.parked.Perm v.parked := by
  obtain ⟨w, hw, rfl⟩ := Option.map_eq_some_iff.mp hrouse
  have hperm := perm_of_eraseIdx hw (v.signalled ++ v.roused) []
  simpa only [parked, List.append_assoc, List.append_nil] using hperm

theorem resume_parked
    {v v' : CondVar W} {wake : Wake} {i : Nat} {w : W}
    (hresume : v.resume wake i = some (w, v')) :
    v.parked.Perm (w :: v'.parked) := by
  cases wake with
  | signal =>
      obtain ⟨w', hw, heq⟩ := Option.map_eq_some_iff.mp hresume
      obtain ⟨rfl, rfl⟩ := Prod.mk.inj heq
      have hperm := (perm_of_get hw).append_right v.roused
      exact (hperm.append_left v.waiting).trans List.perm_middle
  | spurious =>
      obtain ⟨w', hw, heq⟩ := Option.map_eq_some_iff.mp hresume
      obtain ⟨rfl, rfl⟩ := Prod.mk.inj heq
      have hperm :=
        (perm_of_get hw).append_left (v.waiting ++ v.signalled)
      simp only [parked, ← List.append_assoc]
      exact hperm.trans List.perm_middle

theorem notifyAll_parked
    (v : CondVar W) :
    v.notifyAll.parked.Perm v.parked := by
  simp only [parked, notifyAll, List.nil_append, ← List.append_assoc]
  exact List.perm_append_comm.append_right v.roused

end CondVar

end ConditionVariables

end ConditionVariables
