import Hohnor.TimerArming
import Mathlib.Data.List.Nodup

/-!
# One batch of timers

From the moment that handleRead takes the time until it returns, the handlers
that are due leave the heap one by one, and the callbacks of those that are not
disabled run.  A callback may add, disable and update timers; an addition waits
in the functors, so the heap loses its top and nothing else happens to it, and
no key of a handler in it changes.

`handleRead_runs_due` says which handlers a batch pops, in which order, whose
callbacks it calls, and what becomes of each of them.
-/

namespace Hohnor

open TransitionRuns

section TimerBatch

variable {κ : Type}

/-- A handler that handleRead has popped, and its disabled_ at that moment. -/
structure PoppedTimer where
  seq : Nat
  disabled : Bool
deriving DecidableEq, Repr

namespace TimerQueue

/-- The pop that a step of handleRead makes. -/
def pops (s : TimerQueue κ) : TimerOp κ → Option PoppedTimer
  | .scan _ =>
      match s.phase, BinaryHeap.top s.heap_,
          BinaryHeap.popTop s.lessThanCmp_ s.heap_ with
      | .scanning started, some top, some (seq, _) =>
          if (s.handlers top).expiration_ ≤ started then
            some { seq, disabled := (s.handlers seq).disabled_ }
          else none
      | _, _, _ => none
  | _ => none

/-- A popped handler has nothing to call. -/
def skips (s : TimerQueue κ) (seq : Nat) : Bool :=
  (s.handlers seq).disabled_ || (s.handlers seq).callback_.isNone

/-- The test of isRepeat() that a step of handleRead makes, with its
result. -/
def tests (s : TimerQueue κ) : TimerOp κ → Option (Nat × Bool)
  | .callbackReturns =>
      match s.phase with
      | .calling _ seq =>
          some (seq, (s.handlers seq).clearUnlessRepeat.isRepeat)
      | _ => none
  | .scan t =>
      match s.pops (.scan t) with
      | some p =>
          if s.skips p.seq then
            some (p.seq, (s.handlers p.seq).clearUnlessRepeat.isRepeat)
          else none
      | none => none
  | _ => none

/-- The handlers whose callbacks have been called. -/
def calledSeqs (es : List (TimerEvent κ)) : List Nat :=
  es.filterMap fun ev =>
    match ev with
    | .ran seq _ _ _ => some seq
    | _ => none

end TimerQueue

/-- A queue during one handleRead, with the handlers popped and the results of
the isRepeat() tests so far. -/
structure TimerBatch (κ : Type) where
  queue : TimerQueue κ
  popped : List PoppedTimer
  tested : List (Nat × Bool)

namespace TimerBatch

def start (s : TimerQueue κ) : TimerBatch κ where
  queue := s
  popped := []
  tested := []

def step (b : TimerBatch κ) (op : TimerOp κ) : Option (TimerBatch κ) :=
  (b.queue.step op).map fun s =>
    { queue := s
      popped := b.popped ++ (b.queue.pops op).toList
      tested := b.tested ++ (b.queue.tests op).toList }

/-- One whole handleRead that takes the time `now`: it begins in an idle loop,
and the loop is idle again at its end and not before. -/
structure HandlesRead
    (s : TimerQueue κ) (now : Int) (ops : List (TimerOp κ))
    (b : TimerBatch κ) : Prop where
  begins :
    ∃ lag b₁, (start s).step (.handleRead now lag) = some b₁ ∧
      Along step (fun b _ => b.queue.phase ≠ .idle) b₁ ops ∧
      run step b₁ ops = some b
  ends : b.queue.phase = .idle

def seqs (b : TimerBatch κ) : List Nat :=
  b.popped.map PoppedTimer.seq

/-- The handlers that are due at the time. -/
def isDue (s : TimerQueue κ) (now : Int) (seq : Nat) : Bool :=
  (s.handlers seq).expiration_ ≤ now

/-- What a handleRead from `s` at the time `now` has done. -/
structure RunsDue
    (s : TimerQueue κ) (now : Int) (b : TimerBatch κ) : Prop where
  popped : b.seqs.Perm (s.heap_.filter (isDue s now))
  ordered : b.seqs.Pairwise fun x y => s.key x < s.key y
  called :
    TimerQueue.calledSeqs b.queue.events =
      TimerQueue.calledSeqs s.events ++
        (b.popped.filter fun p => !p.disabled).map PoppedTimer.seq
  remaining :
    b.queue.heap_.Perm (s.heap_.filter fun seq => !isDue s now seq)
  tested : b.tested.map Prod.fst = b.seqs
  requeued :
    ∀ seq, (seq, true) ∈ b.tested → b.queue.functors.count seq = 1
  retired :
    ∀ seq, (seq, false) ∈ b.tested →
      (b.queue.handlers seq).disabled_ = true ∧
        b.queue.functors.count seq = 0

end TimerBatch

namespace TimerHandler

/-- A handler is named by its sequence_, and has something to call until it is
disabled. -/
structure Formed (h : TimerHandler κ) (seq : Nat) : Prop where
  sequence : h.sequence_ = seq
  callable : h.disabled_ = false → h.callback_.isSome = true

@[simp] theorem clearUnlessRepeat_isRepeat
    (h : TimerHandler κ) :
    h.clearUnlessRepeat.isRepeat = h.isRepeat := by
  rw [clearUnlessRepeat]
  split <;> rfl

theorem Formed.disable
    {h : TimerHandler κ} {seq : Nat} (hh : h.Formed seq) :
    h.disable.Formed seq := by
  rw [TimerHandler.disable]
  split
  · exact hh
  · exact ⟨hh.sequence, fun hon => by cases hon⟩

theorem Formed.updateCallback
    {h : TimerHandler κ} {seq : Nat} (hh : h.Formed seq) (callback : κ) :
    (h.updateCallback callback).Formed seq := by
  rw [TimerHandler.updateCallback]
  split
  · exact hh
  · exact ⟨hh.sequence, fun _ => rfl⟩

/-- A repeating handler keeps its callback. -/
theorem Formed.reload
    {h : TimerHandler κ} {seq : Nat} (hh : h.Formed seq)
    (hrepeat : h.clearUnlessRepeat.isRepeat = true) :
    h.clearUnlessRepeat.reloadInLoop.Formed seq := by
  rw [clearUnlessRepeat_isRepeat] at hrepeat
  rw [clearUnlessRepeat, if_pos hrepeat]
  rw [reloadInLoop]
  split
  · exact ⟨hh.sequence, hh.callable⟩
  · exact ⟨hh.sequence, hh.callable⟩

theorem Formed.retire
    {h : TimerHandler κ} {seq : Nat} (hh : h.Formed seq) :
    ({ h.clearUnlessRepeat with disabled_ := true } :
      TimerHandler κ).Formed seq := by
  refine ⟨?_, fun hon => by cases hon⟩
  rw [clearUnlessRepeat]
  split
  · exact hh.sequence
  · exact hh.sequence

end TimerHandler

namespace TimerQueue

def HandlersFormed (s : TimerQueue κ) : Prop :=
  ∀ seq ∈ s.created, (s.handlers seq).Formed seq

/-- A step that creates no handler and replaces one. -/
theorem HandlersFormed.update
    {s s' : TimerQueue κ} (hs : HandlersFormed s)
    {seq : Nat} {h : TimerHandler κ}
    (hcreated : s'.created = s.created)
    (hhandlers : s'.handlers = Function.update s.handlers seq h)
    (hform : (s.handlers seq).Formed seq → h.Formed seq) :
    HandlersFormed s' := by
  intro x hx
  rw [hcreated] at hx
  rw [hhandlers]
  by_cases hxs : x = seq
  · subst hxs
    rw [Function.update_self]
    exact hform (hs x hx)
  · rw [Function.update_of_ne hxs]
    exact hs x hx

theorem HandlersFormed.congr
    {s s' : TimerQueue κ} (hs : HandlersFormed s)
    (hcreated : s'.created = s.created)
    (hhandlers : s'.handlers = s.handlers) :
    HandlersFormed s' := by
  intro x hx
  rw [hhandlers]
  exact hs x (hcreated ▸ hx)

theorem afterCallback_formed
    {s : TimerQueue κ} (hs : HandlersFormed s) (seq : Nat) (now : Int) :
    HandlersFormed (s.afterCallback seq now) := by
  simp only [afterCallback]
  split
  · rename_i hrepeat
    exact hs.update rfl rfl fun hh => hh.reload hrepeat
  · exact hs.update rfl rfl fun hh => hh.retire

theorem step_formed
    {s s' : TimerQueue κ} {op : TimerOp κ}
    (hs : HandlersFormed s) (hstep : s.step op = some s') :
    HandlersFormed s' := by
  cases op with
  | createElsewhere =>
      cases hstep
      exact hs
  | addTimer cb expiration interval =>
      simp only [step] at hstep
      split at hstep
      · cases hstep
        intro x hx
        simp only [addTimer, setHandler]
        by_cases hxs : x = s.s_numCreated_
        · subst hxs
          rw [Function.update_self]
          exact ⟨rfl, fun _ => rfl⟩
        · rw [Function.update_of_ne hxs]
          refine hs x ?_
          simpa [addTimer, hxs] using hx
      · cases hstep
  | disable seq =>
      simp only [step] at hstep
      split at hstep
      · cases hstep
        exact hs.update rfl rfl fun hh => hh.disable
      · cases hstep
  | updateCallback seq callback =>
      simp only [step] at hstep
      split at hstep
      · cases hstep
        exact hs.update rfl rfl fun hh => hh.updateCallback callback
      · cases hstep
  | runFunctor t =>
      simp only [step] at hstep
      split at hstep
      · cases hstep
        exact hs.congr rfl rfl
      · cases hstep
  | handleRead now lag =>
      simp only [step] at hstep
      split at hstep
      · cases hstep
        exact hs.congr rfl rfl
      · cases hstep
  | scan t =>
      simp only [step] at hstep
      split at hstep
      · rename_i started hphase
        cases hstep
        have hscans := s.scan_scans started t
        generalize s.scan started t = s' at hscans ⊢
        cases hscans with
        | ends hdue =>
            exact hs.congr rfl rfl
        | calls hpop hdue hon hcb =>
            exact hs.congr rfl rfl
        | drops hpop hoff =>
            refine afterCallback_formed ?_ _ _
            exact hs.congr rfl rfl
      · cases hstep
  | callbackReturns =>
      simp only [step] at hstep
      split at hstep
      · cases hstep
        exact afterCallback_formed hs _ _
      · cases hstep

theorem reachable_formed
    {numCreated : Nat} {ops : List (TimerOp κ)} {s : TimerQueue κ}
    (hrun : run step (initial numCreated) ops = some s) :
    HandlersFormed s :=
  invariant_of_run (P := fun _ => True)
    (fun _ _ _ hs _ hstep => step_formed hs hstep)
    (fun _ hx => by cases hx) (fun _ _ => trivial) hrun

/-- The test of the loop finds nothing due, or pops the top. -/
theorem scan_cases
    {s : TimerQueue κ} {started : Int}
    (hphase : s.phase = .scanning started) (t : ResetTime) :
    (s.pops (.scan t) = none ∧ s.scan started t = s.endScan t ∧
      ∀ seq, BinaryHeap.top s.heap_ = some seq →
        started < (s.handlers seq).expiration_) ∨
    ∃ seq rest,
      BinaryHeap.top s.heap_ = some seq ∧
      BinaryHeap.popTop s.lessThanCmp_ s.heap_ = some (seq, rest) ∧
      (s.handlers seq).expiration_ ≤ started ∧
      s.pops (.scan t) =
        some { seq, disabled := (s.handlers seq).disabled_ } ∧
      s.scan started t =
        { s with heap_ := rest }.runHandler seq started := by
  rw [scan, pops]
  rw [hphase]
  cases htop : BinaryHeap.top s.heap_ with
  | none =>
      left
      refine ⟨rfl, rfl, ?_⟩
      intro seq hseq
      cases hseq
  | some top =>
      obtain ⟨rest, hpop⟩ := BinaryHeap.popTop_isSome s.lessThanCmp_ htop
      rw [hpop]
      by_cases hdue : (s.handlers top).expiration_ ≤ started
      · right
        refine ⟨top, rest, rfl, rfl, hdue, ?_, ?_⟩
        · simp only [if_pos hdue]
        · simp only [if_pos hdue]
      · left
        refine ⟨?_, ?_, ?_⟩
        · simp only [if_neg hdue]
        · simp only [if_neg hdue]
        · intro seq hseq
          cases hseq
          omega

/-- A handler without anything to call goes straight to the end of its
iteration. -/
theorem runHandler_of_skips
    {s : TimerQueue κ} {seq : Nat} (hskips : s.skips seq = true)
    (now : Int) :
    s.runHandler seq now = s.afterCallback seq now := by
  rw [skips, Bool.or_eq_true] at hskips
  cases hdisabled : (s.handlers seq).disabled_ with
  | true =>
      simp only [runHandler, hdisabled]
  | false =>
      cases hcb : (s.handlers seq).callback_ with
      | none =>
          simp only [runHandler, hdisabled, hcb]
      | some cb =>
          simp [hdisabled, hcb] at hskips

theorem runHandler_of_not_skips
    {s : TimerQueue κ} {seq : Nat} (hskips : s.skips seq = false)
    (now : Int) :
    ∃ cb, s.runHandler seq now =
      { s with
        phase := .calling now seq
        events :=
          s.events ++ [.ran seq cb (s.handlers seq).expiration_ now] } := by
  rw [skips, Bool.or_eq_false_iff] at hskips
  obtain ⟨hdisabled, hnone⟩ := hskips
  cases hcb : (s.handlers seq).callback_ with
  | none =>
      simp [hcb] at hnone
  | some cb =>
      refine ⟨cb, ?_⟩
      simp only [runHandler, hdisabled, hcb]

/-- What is skipped is what is disabled. -/
theorem HandlersFormed.skips_eq
    {s : TimerQueue κ} (hs : HandlersFormed s)
    {seq : Nat} (hseq : seq ∈ s.created) :
    s.skips seq = (s.handlers seq).disabled_ := by
  rw [skips]
  cases hdisabled : (s.handlers seq).disabled_ with
  | true =>
      rfl
  | false =>
      have hsome := (hs seq hseq).callable hdisabled
      obtain ⟨cb, hcb⟩ := Option.isSome_iff_exists.mp hsome
      simp [hcb]

/-- What an operation of a callback leaves of the handlers that exist. -/
structure Frame (s s' : TimerQueue κ) : Prop where
  heap : s'.heap_ = s.heap_
  phase : s'.phase = s.phase
  called : calledSeqs s'.events = calledSeqs s.events
  created : ∀ x ∈ s.created, x ∈ s'.created
  functors : ∀ x ∈ s.created, (x ∈ s'.functors ↔ x ∈ s.functors)
  keys : ∀ x ∈ s.created, s'.key x = s.key x
  disabled :
    ∀ x ∈ s.created, (s.handlers x).disabled_ = true →
      (s'.handlers x).disabled_ = true

/-- A handler is replaced by one with its key, that stays disabled. -/
theorem Frame.setHandler
    {s s' : TimerQueue κ} {seq : Nat} {h : TimerHandler κ}
    (hs' : s' = { s.setHandler seq h with events := s'.events })
    (hcalled : calledSeqs s'.events = calledSeqs s.events)
    (hexp : h.expiration_ = (s.handlers seq).expiration_)
    (hseq : h.sequence_ = (s.handlers seq).sequence_)
    (hoff : (s.handlers seq).disabled_ = true → h.disabled_ = true) :
    Frame s s' := by
  have hhandlers : s'.handlers = Function.update s.handlers seq h := by
    rw [hs']
    rfl
  constructor
  case heap =>
    rw [hs']
    rfl
  case phase =>
    rw [hs']
    rfl
  case called =>
    exact hcalled
  case created =>
    intro x hx
    rw [hs']
    exact hx
  case functors =>
    intro x _
    rw [hs']
    rfl
  case keys =>
    exact fun x _ => setHandler_key hhandlers hexp hseq x
  case disabled =>
    intro x _ hx
    rw [hhandlers]
    by_cases hxs : x = seq
    · subst hxs
      rw [Function.update_self]
      exact hoff hx
    · rw [Function.update_of_ne hxs]
      exact hx

theorem calledSeqs_append
    (es fs : List (TimerEvent κ)) :
    calledSeqs (es ++ fs) = calledSeqs es ++ calledSeqs fs :=
  List.filterMap_append

theorem addTimer_frame
    {s : TimerQueue κ} (hs : Arming s)
    (cb : κ) (expiration : Int) (interval : Option Nat) :
    Frame s (s.addTimer cb expiration interval) := by
  have hne : ∀ x ∈ s.created, x ≠ s.s_numCreated_ :=
    fun x hx => Nat.ne_of_lt (hs.scheduled.below x hx)
  constructor
  case heap =>
    rfl
  case phase =>
    rfl
  case called =>
    simp only [addTimer, calledSeqs_append]
    exact List.append_nil _
  case created =>
    exact fun x hx => List.mem_append_left _ hx
  case functors =>
    intro x hx
    simp [addTimer, hne x hx]
  case keys =>
    exact fun x hx => update_key rfl (hne x hx)
  case disabled =>
    intro x hx hoff
    have hsame : (s.addTimer cb expiration interval).handlers x =
        s.handlers x :=
      Function.update_of_ne (hne x hx) _ _
    rw [hsame]
    exact hoff

theorem disable_frame
    (s : TimerQueue κ) (seq : Nat) :
    Frame s
      { s.setHandler seq (s.handlers seq).disable with
        events := s.events ++ [.disabled seq] } := by
  refine @Frame.setHandler _ _ _ seq (s.handlers seq).disable rfl ?_
    (TimerHandler.disable_expiration _)
    (TimerHandler.disable_sequence _) ?_
  · rw [calledSeqs_append]
    exact List.append_nil _
  · intro hoff
    rw [TimerHandler.disable, if_pos hoff]
    exact hoff

theorem updateCallback_frame
    (s : TimerQueue κ) (seq : Nat) (callback : κ) :
    Frame s
      (s.setHandler seq ((s.handlers seq).updateCallback callback)) := by
  refine @Frame.setHandler _ _ _ seq
    ((s.handlers seq).updateCallback callback) rfl rfl
    (TimerHandler.updateCallback_expiration _ _)
    (TimerHandler.updateCallback_sequence _ _) ?_
  intro hoff
  rw [TimerHandler.updateCallback, if_pos hoff]
  exact hoff

end TimerQueue

namespace TimerBatch

open TimerQueue

/-- What a step between the beginning and the end of handleRead does. -/
inductive Moves (b : TimerBatch κ) : TimerBatch κ → Prop
  | user
      {s' : TimerQueue κ}
      (hframe : TimerQueue.Frame b.queue s') :
      Moves b { b with queue := s' }
  | ends
      {started : Int} {t : ResetTime}
      (hphase : b.queue.phase = .scanning started)
      (hdue :
        ∀ seq, BinaryHeap.top b.queue.heap_ = some seq →
          started < (b.queue.handlers seq).expiration_) :
      Moves b { b with queue := b.queue.endScan t }
  | calls
      {started : Int} {seq : Nat} {rest : List Nat} {cb : κ}
      (hphase : b.queue.phase = .scanning started)
      (htop : BinaryHeap.top b.queue.heap_ = some seq)
      (hpop : BinaryHeap.popTop b.queue.lessThanCmp_ b.queue.heap_ =
        some (seq, rest))
      (hdue : (b.queue.handlers seq).expiration_ ≤ started)
      (hskips : b.queue.skips seq = false) :
      Moves b
        { queue :=
            { b.queue with
              heap_ := rest
              phase := .calling started seq
              events := b.queue.events ++
                [.ran seq cb (b.queue.handlers seq).expiration_ started] }
          popped := b.popped ++
            [{ seq, disabled := (b.queue.handlers seq).disabled_ }]
          tested := b.tested }
  | drops
      {started : Int} {seq : Nat} {rest : List Nat}
      (hphase : b.queue.phase = .scanning started)
      (htop : BinaryHeap.top b.queue.heap_ = some seq)
      (hpop : BinaryHeap.popTop b.queue.lessThanCmp_ b.queue.heap_ =
        some (seq, rest))
      (hdue : (b.queue.handlers seq).expiration_ ≤ started)
      (hskips : b.queue.skips seq = true) :
      Moves b
        { queue :=
            { b.queue with heap_ := rest }.afterCallback seq started
          popped := b.popped ++
            [{ seq, disabled := (b.queue.handlers seq).disabled_ }]
          tested := b.tested ++ [(seq, (b.queue.handlers seq).isRepeat)] }
  | returns
      {started : Int} {seq : Nat}
      (hphase : b.queue.phase = .calling started seq) :
      Moves b
        { queue := b.queue.afterCallback seq started
          popped := b.popped
          tested := b.tested ++ [(seq, (b.queue.handlers seq).isRepeat)] }

theorem scan_moves
    {b b' : TimerBatch κ} {t : ResetTime}
    (hstep : step b (.scan t) = some b') :
    Moves b b' := by
  rw [step, Option.map_eq_some_iff] at hstep
  obtain ⟨s', hs', rfl⟩ := hstep
  simp only [TimerQueue.step] at hs'
  split at hs'
  · rename_i started hphase
    cases hs'
    rcases scan_cases hphase t with ⟨hnone, hscan, hdue⟩ |
      ⟨seq, rest, htop, hpop, hdue, hpops, hscan⟩
    · simp only [hscan, tests, hnone, Option.toList_none, List.append_nil]
      exact .ends hphase hdue
    · cases hskips : b.queue.skips seq with
      | true =>
          have hrun := @runHandler_of_skips _
            { b.queue with heap_ := rest } seq hskips started
          simp only [hscan, hrun, tests, hpops, hskips, if_true,
            TimerHandler.clearUnlessRepeat_isRepeat, Option.toList_some]
          exact .drops hphase htop hpop hdue hskips
      | false =>
          obtain ⟨cb, hrun⟩ := @runHandler_of_not_skips _
            { b.queue with heap_ := rest } seq hskips started
          simp only [hscan, hrun, tests, hpops, hskips, Bool.false_eq_true,
            if_false, Option.toList_some, Option.toList_none,
            List.append_nil]
          exact .calls hphase htop hpop hdue hskips
  · cases hs'

theorem step_moves
    {b b' : TimerBatch κ} {op : TimerOp κ}
    (hb : Arming b.queue) (hphase : b.queue.phase ≠ .idle)
    (hstep : step b op = some b') :
    Moves b b' := by
  obtain ⟨s', hs', rfl⟩ := Option.map_eq_some_iff.mp hstep
  cases op with
  | createElsewhere =>
      cases hs'
      simp only [pops, tests, Option.toList_none, List.append_nil]
      exact .user ⟨rfl, rfl, rfl, fun _ hx => hx, fun _ _ => .rfl,
        fun _ _ => rfl, fun _ _ hx => hx⟩
  | addTimer cb expiration interval =>
      simp only [pops, tests, Option.toList_none, List.append_nil]
      simp only [TimerQueue.step] at hs'
      split at hs'
      · cases hs'
        exact .user (addTimer_frame hb cb expiration interval)
      · cases hs'
  | disable seq =>
      simp only [pops, tests, Option.toList_none, List.append_nil]
      simp only [TimerQueue.step] at hs'
      split at hs'
      · cases hs'
        exact .user (disable_frame b.queue seq)
      · cases hs'
  | updateCallback seq callback =>
      simp only [pops, tests, Option.toList_none, List.append_nil]
      simp only [TimerQueue.step] at hs'
      split at hs'
      · cases hs'
        exact .user (updateCallback_frame b.queue seq callback)
      · cases hs'
  | runFunctor t =>
      simp only [TimerQueue.step] at hs'
      split at hs'
      · rename_i hidle _
        exact absurd hidle hphase
      · cases hs'
  | handleRead now lag =>
      simp only [TimerQueue.step] at hs'
      cases hs'
  | scan t =>
      exact scan_moves hstep
  | callbackReturns =>
      simp only [TimerQueue.step] at hs'
      split at hs'
      · rename_i now seq hcalling
        cases hs'
        simp only [pops, tests, hcalling, Option.toList_none,
          Option.toList_some, List.append_nil,
          TimerHandler.clearUnlessRepeat_isRepeat]
        exact .returns hcalling
      · cases hs'

/-- Where a batch that has taken the time `now` can be. -/
def During (now : Int) (b : TimerBatch κ) : Prop :=
  match b.queue.phase with
  | .scanning started => started = now
  | .calling started _ => started = now
  | .idle =>
      ∀ x ∈ b.queue.heap_, now < (b.queue.handlers x).expiration_

/-- What holds of a batch that began with `s`. -/
structure Popped
    (s : TimerQueue κ) (now : Int) (b : TimerBatch κ) : Prop where
  during : During now b
  created : ∀ x ∈ s.heap_, x ∈ b.queue.created
  keys : ∀ x ∈ b.queue.heap_, b.queue.key x = s.key x
  split : (b.seqs ++ b.queue.heap_).Perm s.heap_
  due : ∀ x ∈ b.seqs, isDue s now x = true
  before : ∀ x ∈ b.seqs, ∀ y ∈ b.queue.heap_, s.key x < s.key y
  ordered : b.seqs.Pairwise fun x y => s.key x < s.key y
  called :
    calledSeqs b.queue.events =
      calledSeqs s.events ++
        (b.popped.filter fun p => !p.disabled).map PoppedTimer.seq
  tested :
    b.tested.map Prod.fst ++ b.queue.phase.seq?.toList = b.seqs
  requeued : ∀ x, (x, true) ∈ b.tested → x ∈ b.queue.functors
  retired :
    ∀ x, (x, false) ∈ b.tested →
      (b.queue.handlers x).disabled_ = true ∧ x ∉ b.queue.functors

theorem Popped.created_of_tested
    {s : TimerQueue κ} {now : Int} {b : TimerBatch κ}
    (hb : Popped s now b) {x : Nat} {again : Bool}
    (hx : (x, again) ∈ b.tested) :
    x ∈ b.seqs ∧ x ∈ b.queue.created := by
  have hseq : x ∈ b.seqs := by
    rw [← hb.tested]
    exact List.mem_append_left _ (List.mem_map_of_mem hx)
  have hheap : x ∈ s.heap_ :=
    hb.split.mem_iff.mp (List.mem_append_left _ hseq)
  exact ⟨hseq, hb.created x hheap⟩

theorem start_popped
    {s : TimerQueue κ} (hs : Arming s) (now readAt : Int) :
    Popped s now
      { start s with
        queue :=
          { s with
            timerfd := s.timerfd.read readAt
            phase := .scanning now } } where
  during := rfl
  created := fun _ hx => hs.scheduled.heap_created hx
  keys := fun _ _ => rfl
  split := .refl _
  due := fun _ hx => nomatch hx
  before := fun _ hx => nomatch hx
  ordered := .nil
  called := (List.append_nil _).symm
  tested := rfl
  requeued := fun _ hx => nomatch hx
  retired := fun _ hx => nomatch hx

theorem Popped.user
    {s s' : TimerQueue κ} {now : Int} {b : TimerBatch κ}
    (hb : Popped s now b) (hframe : TimerQueue.Frame b.queue s') :
    Popped s now { b with queue := s' } := by
  have hheap : ∀ x ∈ b.queue.heap_, x ∈ b.queue.created := fun x hx =>
    hb.created x (hb.split.mem_iff.mp (List.mem_append_right _ hx))
  constructor
  case during =>
    have hduring := hb.during
    simp only [During, hframe.phase, hframe.heap] at hduring ⊢
    split
    · rename_i hphase
      simpa only [hphase] using hduring
    · rename_i hphase
      simpa only [hphase] using hduring
    · rename_i hphase
      simp only [hphase] at hduring
      intro x hx
      have hkey := (Prod.mk.inj (hframe.keys x (hheap x hx))).1
      rw [hkey]
      exact hduring x hx
  case created =>
    exact fun x hx => hframe.created x (hb.created x hx)
  case keys =>
    intro x hx
    simp only [hframe.heap] at hx
    exact (hframe.keys x (hheap x hx)).trans (hb.keys x hx)
  case split =>
    simp only [hframe.heap]
    exact hb.split
  case due =>
    exact hb.due
  case before =>
    simp only [hframe.heap]
    exact hb.before
  case ordered =>
    exact hb.ordered
  case called =>
    simp only [hframe.called]
    exact hb.called
  case tested =>
    simp only [hframe.phase]
    exact hb.tested
  case requeued =>
    intro x hx
    exact (hframe.functors x (hb.created_of_tested hx).2).mpr
      (hb.requeued x hx)
  case retired =>
    intro x hx
    have hcreated := (hb.created_of_tested hx).2
    obtain ⟨hoff, hfree⟩ := hb.retired x hx
    exact ⟨hframe.disabled x hcreated hoff,
      fun hmem => hfree ((hframe.functors x hcreated).mp hmem)⟩

/-- The test of the loop fails: the top is not due, and so is nothing that the
heap holds. -/
theorem Popped.ends
    {s : TimerQueue κ} {now : Int} {b : TimerBatch κ}
    (hb : Popped s now b) (hqueue : Arming b.queue) {started : Int}
    (hphase : b.queue.phase = .scanning started)
    (hdue :
      ∀ seq, BinaryHeap.top b.queue.heap_ = some seq →
        started < (b.queue.handlers seq).expiration_)
    (later : ResetTime) :
    Popped s now { b with queue := b.queue.endScan later } := by
  have hnow : started = now := by
    simpa only [During, hphase] using hb.during
  subst hnow
  constructor
  case during =>
    intro x hx
    have hne : b.queue.heap_ ≠ [] := List.ne_nil_of_mem hx
    obtain ⟨top, htop⟩ := Option.ne_none_iff_exists'.mp
      (fun hnone => hne (List.head?_eq_none_iff.mp hnone))
    exact lt_of_lt_of_le (hdue top htop) (hqueue.top_first htop hx)
  case created =>
    exact hb.created
  case keys =>
    exact hb.keys
  case split =>
    exact hb.split
  case due =>
    exact hb.due
  case before =>
    exact hb.before
  case ordered =>
    exact hb.ordered
  case called =>
    exact hb.called
  case tested =>
    have htested := hb.tested
    rw [hphase] at htested
    exact htested
  case requeued =>
    exact hb.requeued
  case retired =>
    exact hb.retired

/-- Two handlers of an ordered heap never compare equal. -/
theorem top_lt
    {s : TimerQueue κ} (hs : Arming s) (hformed : HandlersFormed s)
    {seq : Nat} {rest : List Nat}
    (htop : BinaryHeap.top s.heap_ = some seq)
    (hpop : BinaryHeap.popTop s.lessThanCmp_ s.heap_ =
      some (seq, rest))
    {x : Nat} (hx : x ∈ rest) :
    s.key seq < s.key x := by
  have hperm := BinaryHeap.popTop_perm hpop
  have hnodup : s.heap_.Nodup :=
    (List.nodup_append.mp (List.nodup_append.mp hs.scheduled.nodup).1).1
  have hfree : seq ∉ rest :=
    (List.nodup_cons.mp (hperm.nodup_iff.mp hnodup)).1
  have hseq : seq ∈ s.heap_ := List.mem_of_head? htop
  have hxheap : x ∈ s.heap_ :=
    hperm.mem_iff.mpr (List.mem_cons_of_mem seq hx)
  refine lt_of_le_of_ne (hs.ordered.top_le htop hxheap) ?_
  intro heq
  have hsame := (Prod.mk.inj heq).2
  rw [(hformed seq (hs.scheduled.heap_created hseq)).sequence,
    (hformed x (hs.scheduled.heap_created hxheap)).sequence] at hsame
  exact hfree (hsame ▸ hx)

/-- The top of the heap is popped, and its callback called if it is not
disabled. -/
theorem Popped.pop
    {s : TimerQueue κ} {now : Int} {b : TimerBatch κ}
    (hb : Popped s now b) (hqueue : Arming b.queue)
    (hformed : HandlersFormed b.queue)
    {started : Int} {seq : Nat} {rest : List Nat}
    (hphase : b.queue.phase = .scanning started)
    (htop : BinaryHeap.top b.queue.heap_ = some seq)
    (hpop : BinaryHeap.popTop b.queue.lessThanCmp_ b.queue.heap_ =
      some (seq, rest))
    (hdue : (b.queue.handlers seq).expiration_ ≤ started)
    {e : List (TimerEvent κ)}
    (hcalled : calledSeqs e =
      calledSeqs b.queue.events ++
        if (b.queue.handlers seq).disabled_ then [] else [seq]) :
    Popped s now
      { queue :=
          { b.queue with
            heap_ := rest
            phase := .calling started seq
            events := e }
        popped := b.popped ++
          [{ seq, disabled := (b.queue.handlers seq).disabled_ }]
        tested := b.tested } := by
  have hnow : started = now := by
    simpa only [During, hphase] using hb.during
  have hseq : seq ∈ b.queue.heap_ := List.mem_of_head? htop
  have hperm := BinaryHeap.popTop_perm hpop
  have hrest : ∀ x ∈ rest, x ∈ b.queue.heap_ := fun x hx =>
    hperm.mem_iff.mpr (List.mem_cons_of_mem seq hx)
  have hseqs :
      ({ queue := b.queue
         popped := b.popped ++
          [{ seq, disabled := (b.queue.handlers seq).disabled_ }]
         tested := b.tested } : TimerBatch κ).seqs = b.seqs ++ [seq] :=
    List.map_append
  have hafter : ∀ y ∈ rest, s.key seq < s.key y := by
    intro y hy
    rw [← hb.keys seq hseq, ← hb.keys y (hrest y hy)]
    exact top_lt hqueue hformed htop hpop hy
  constructor
  case during =>
    exact hnow
  case created =>
    exact hb.created
  case keys =>
    exact fun x hx => hb.keys x (hrest x hx)
  case split =>
    refine .trans ?_ hb.split
    refine (List.Perm.of_eq ?_).trans (hperm.symm.append_left b.seqs)
    exact (congrArg (· ++ rest) hseqs).trans (List.append_assoc _ _ _)
  case due =>
    intro x hx
    rcases List.mem_append.mp (hseqs ▸ hx) with hold | hnew
    · exact hb.due x hold
    · rw [List.mem_singleton.mp hnew]
      have hexp := (Prod.mk.inj (hb.keys seq hseq)).1
      simpa only [isDue, ← hexp, ← hnow, decide_eq_true_eq] using hdue
  case before =>
    intro x hx y hy
    rcases List.mem_append.mp (hseqs ▸ hx) with hold | hnew
    · exact hb.before x hold y (hrest y hy)
    · rw [List.mem_singleton.mp hnew]
      exact hafter y hy
  case ordered =>
    have hpair :
        (b.seqs ++ [seq]).Pairwise fun x y => s.key x < s.key y := by
      refine List.pairwise_append.mpr
        ⟨hb.ordered, List.pairwise_singleton _ _, ?_⟩
      intro x hx y hy
      rw [List.mem_singleton.mp hy]
      exact hb.before x hx seq hseq
    exact hseqs ▸ hpair
  case called =>
    simp only [hcalled, hb.called, List.filter_append, List.map_append,
      List.append_assoc]
    cases (b.queue.handlers seq).disabled_ with
    | true =>
        rfl
    | false =>
        rfl
  case tested =>
    have htested := hb.tested
    rw [hphase] at htested
    refine .trans ?_ hseqs.symm
    rw [← htested]
    simp [ReadPhase.seq?]
  case requeued =>
    exact hb.requeued
  case retired =>
    exact hb.retired

theorem afterCallback_keeps
    (s : TimerQueue κ) (seq : Nat) (now : Int) :
    (s.afterCallback seq now).created = s.created ∧
      (s.afterCallback seq now).events = s.events := by
  simp only [afterCallback]
  split
  · exact ⟨rfl, rfl⟩
  · exact ⟨rfl, rfl⟩

/-- The end of an iteration: a handler that repeats is queued. -/
theorem afterCallback_requeues
    {s : TimerQueue κ} {seq : Nat}
    (hrepeat : (s.handlers seq).isRepeat = true) (now : Int) :
    (s.afterCallback seq now).functors = s.functors ++ [seq] :=
  congrArg TimerQueue.functors
    (@afterCallback_of_repeat _ s seq s.heap_ hrepeat now)

/-- Any other is disabled. -/
theorem afterCallback_retires
    {s : TimerQueue κ} {seq : Nat}
    (honce : (s.handlers seq).isRepeat = false) (now : Int) :
    (s.afterCallback seq now).functors = s.functors ∧
      ((s.afterCallback seq now).handlers seq).disabled_ = true := by
  have hafter := @afterCallback_of_once _ s seq s.heap_ honce now
  refine ⟨(congrArg TimerQueue.functors hafter).trans rfl, ?_⟩
  refine (congrArg
    (fun q : TimerQueue κ => (q.handlers seq).disabled_) hafter).trans ?_
  simp [setHandler]

theorem mem_functors_afterCallback
    (s : TimerQueue κ) {seq x : Nat} (hx : x ≠ seq) (now : Int) :
    x ∈ (s.afterCallback seq now).functors ↔ x ∈ s.functors := by
  cases hrepeat : (s.handlers seq).isRepeat with
  | true =>
      simp [afterCallback_requeues hrepeat now, hx]
  | false =>
      rw [(afterCallback_retires hrepeat now).1]

/-- No handler is tested twice. -/
theorem Popped.tested_ne
    {s : TimerQueue κ} {now : Int} {b : TimerBatch κ}
    (hb : Popped s now b)
    {started : Int} {seq : Nat}
    (hphase : b.queue.phase = .calling started seq)
    {x : Nat} {again : Bool} (hx : (x, again) ∈ b.tested) :
    x ≠ seq := by
  have htested : b.tested.map Prod.fst ++ [seq] = b.seqs := by
    have hold := hb.tested
    rw [hphase] at hold
    exact hold
  have hnodup : (b.tested.map Prod.fst ++ [seq]).Nodup := by
    rw [htested]
    exact hb.ordered.imp fun hlt heq => absurd (heq ▸ hlt) (lt_irrefl _)
  rintro rfl
  exact (List.nodup_append.mp hnodup).2.2 x (List.mem_map_of_mem hx) x
    (List.mem_singleton.mpr rfl) rfl

theorem Popped.returns
    {s : TimerQueue κ} {now : Int} {b : TimerBatch κ}
    (hb : Popped s now b)
    {started : Int} {seq : Nat}
    (hphase : b.queue.phase = .calling started seq)
    (hfree : seq ∉ b.queue.heap_ ++ b.queue.functors) :
    Popped s now
      { queue := b.queue.afterCallback seq started
        popped := b.popped
        tested :=
          b.tested ++ [(seq, (b.queue.handlers seq).isRepeat)] } := by
  have hnow : started = now := by
    simpa only [During, hphase] using hb.during
  obtain ⟨h, hhandlers, hheap, -, hphase'⟩ :=
    afterCallback_handlers b.queue seq started
  obtain ⟨hcreated, hevents⟩ := afterCallback_keeps b.queue seq started
  constructor
  case during =>
    simp only [During, hphase']
    exact hnow
  case created =>
    simp only [hcreated]
    exact hb.created
  case keys =>
    intro x hx
    simp only [hheap] at hx
    refine (update_key hhandlers ?_).trans (hb.keys x hx)
    rintro rfl
    exact hfree (List.mem_append_left _ hx)
  case split =>
    simp only [hheap]
    exact hb.split
  case due =>
    exact hb.due
  case before =>
    simp only [hheap]
    exact hb.before
  case ordered =>
    exact hb.ordered
  case called =>
    simp only [hevents]
    exact hb.called
  case tested =>
    have htested := hb.tested
    rw [hphase] at htested
    simp only [hphase', ReadPhase.seq?, Option.toList_none,
      List.append_nil, List.map_append, List.map_singleton]
    exact htested
  case requeued =>
    intro x hx
    rcases List.mem_append.mp hx with hold | hnew
    · exact (mem_functors_afterCallback b.queue (hb.tested_ne hphase hold)
        started).mpr (hb.requeued x hold)
    · obtain ⟨rfl, hrepeat⟩ := Prod.mk.inj (List.mem_singleton.mp hnew)
      simp only [afterCallback_requeues hrepeat.symm]
      exact List.mem_append_right _ (List.mem_singleton.mpr rfl)
  case retired =>
    intro x hx
    rcases List.mem_append.mp hx with hold | hnew
    · have hx' := hb.tested_ne hphase hold
      obtain ⟨hoff, hout⟩ := hb.retired x hold
      refine ⟨?_, ?_⟩
      · simp only [hhandlers, Function.update_of_ne hx']
        exact hoff
      · exact fun hmem =>
          hout ((mem_functors_afterCallback b.queue hx' started).mp hmem)
    · obtain ⟨rfl, honce⟩ := Prod.mk.inj (List.mem_singleton.mp hnew)
      obtain ⟨hfunctors, hoff⟩ := afterCallback_retires honce.symm started
      refine ⟨hoff, ?_⟩
      simp only [hfunctors]
      exact fun hmem => hfree (List.mem_append_right _ hmem)

/-- Every step of a batch keeps the invariant. -/
theorem Moves.popped
    {s : TimerQueue κ} {now : Int} {b b' : TimerBatch κ}
    (hmoves : Moves b b') (hb : Popped s now b)
    (hqueue : Arming b.queue) (hformed : HandlersFormed b.queue) :
    Popped s now b' := by
  cases hmoves with
  | user hframe =>
      exact hb.user hframe
  | ends hphase hdue =>
      exact hb.ends hqueue hphase hdue _
  | @calls started seq rest cb hphase htop hpop hdue hskips =>
      refine hb.pop hqueue hformed hphase htop hpop hdue ?_
      have hon : (b.queue.handlers seq).disabled_ = false :=
        (Bool.or_eq_false_iff.mp hskips).1
      rw [hon, calledSeqs_append]
      rfl
  | @drops started seq rest hphase htop hpop hdue hskips =>
      have hseq : seq ∈ b.queue.created :=
        hqueue.scheduled.heap_created (List.mem_of_head? htop)
      have hoff : (b.queue.handlers seq).disabled_ = true := by
        rw [← hformed.skips_eq hseq]
        exact hskips
      have hpopped := hb.pop (e := b.queue.events) hqueue hformed hphase
        htop hpop hdue (by simp [hoff])
      exact hpopped.returns rfl
        (popped_notMem hqueue.scheduled (scanning_names hphase hpop))
  | returns hphase =>
      exact hb.returns hphase
        (popped_notMem hqueue.scheduled (calling_names hphase))

/-- What holds at every point of a batch. -/
structure InBatch
    (s : TimerQueue κ) (now : Int) (b : TimerBatch κ) : Prop where
  arming : Arming b.queue
  formed : HandlersFormed b.queue
  popped : Popped s now b

theorem step_inBatch
    {s : TimerQueue κ} {now : Int} {b b' : TimerBatch κ}
    {op : TimerOp κ}
    (hb : InBatch s now b) (hphase : b.queue.phase ≠ .idle)
    (hstep : step b op = some b') :
    InBatch s now b' := by
  have hmoves := step_moves hb.arming hphase hstep
  obtain ⟨s', hs', rfl⟩ := Option.map_eq_some_iff.mp hstep
  exact
    { arming := step_arming hb.arming hs'
      formed := step_formed hb.formed hs'
      popped := hmoves.popped hb.popped hb.arming hb.formed }

/-- What the invariant says at the end of the batch. -/
theorem InBatch.runsDue
    {s : TimerQueue κ} {now : Int} {b : TimerBatch κ}
    (hb : InBatch s now b) (hidle : b.queue.phase = .idle) :
    RunsDue s now b := by
  have hpopped := hb.popped
  have hlate : ∀ x ∈ b.queue.heap_, isDue s now x = false := by
    intro x hx
    have hduring := hpopped.during
    simp only [During, hidle] at hduring
    have hexp := (Prod.mk.inj (hpopped.keys x hx)).1
    have hlt := hduring x hx
    rw [hexp] at hlt
    exact decide_eq_false (by omega)
  have hfunctors : b.queue.functors.Nodup :=
    (List.nodup_append.mp
      (List.nodup_append.mp hb.arming.scheduled.nodup).1).2.1
  have hnone : b.queue.heap_.filter (isDue s now) = [] := by
    rw [List.filter_eq_nil_iff]
    intro x hx
    simp [hlate x hx]
  have hall : b.seqs.filter (isDue s now) = b.seqs :=
    List.filter_eq_self.mpr hpopped.due
  constructor
  case popped =>
    have hfilter := hpopped.split.filter (isDue s now)
    rw [List.filter_append, hnone, hall, List.append_nil] at hfilter
    exact hfilter
  case ordered =>
    exact hpopped.ordered
  case called =>
    exact hpopped.called
  case remaining =>
    have hfilter := hpopped.split.filter fun x => !isDue s now x
    rw [List.filter_append] at hfilter
    have hout : b.seqs.filter (fun x => !isDue s now x) = [] := by
      rw [List.filter_eq_nil_iff]
      intro x hx
      simp [hpopped.due x hx]
    have hkeep :
        b.queue.heap_.filter (fun x => !isDue s now x) =
          b.queue.heap_ := by
      rw [List.filter_eq_self]
      intro x hx
      simp [hlate x hx]
    rw [hout, hkeep, List.nil_append] at hfilter
    exact hfilter
  case tested =>
    have htested := hpopped.tested
    rw [hidle] at htested
    exact (List.append_nil _).symm.trans htested
  case requeued =>
    intro x hx
    exact List.count_eq_one_of_mem hfunctors (hpopped.requeued x hx)
  case retired =>
    intro x hx
    obtain ⟨hoff, hout⟩ := hpopped.retired x hx
    exact ⟨hoff, List.count_eq_zero_of_not_mem hout⟩

end TimerBatch

namespace TimerQueue

open TimerBatch

/-- From every state that the loop reaches, whatever the callbacks do: a batch
at the time `now` pops exactly the handlers that are due, in the order of their
keys, calls the callbacks of those that are not disabled as they are popped,
leaves the others in the heap, queues once each of those that still repeat
after it, and leaves the rest disabled. -/
theorem handleRead_runs_due
    (numCreated : Nat) (before : List (TimerOp κ))
    {s : TimerQueue κ} (hreach : run step (initial numCreated) before = some s)
    (now : Int) (ops : List (TimerOp κ)) {b : TimerBatch κ}
    (hread : HandlesRead s now ops b) :
    RunsDue s now b := by
  obtain ⟨lag, b₁, hfirst, halong, hrun⟩ := hread.begins
  have hs := reachable_arming hreach
  have hformed := reachable_formed hreach
  have hstart : InBatch s now b₁ := by
    obtain ⟨s₁, hs₁, rfl⟩ := Option.map_eq_some_iff.mp hfirst
    have harming := step_arming hs hs₁
    have hformed₁ := step_formed hformed hs₁
    simp only [step] at hs₁
    split at hs₁
    · cases hs₁
      exact
        { arming := harming
          formed := hformed₁
          popped := start_popped hs now (now + lag) }
    · cases hs₁
  have hend : InBatch s now b :=
    invariant_of_along (P := fun _ => True)
      (fun _ _ _ hb _ hphase hstep => step_inBatch hb hphase hstep)
      hstart (fun _ _ => trivial) halong hrun
  exact hend.runsDue hread.ends

end TimerQueue

namespace TimerBatch

open TimerQueue

theorem step_of_queue
    {b : TimerBatch κ} {op : TimerOp κ} {s' : TimerQueue κ}
    (hs' : b.queue.step op = some s') :
    ∃ b', step b op = some b' ∧ b'.queue = s' := by
  refine
    ⟨{ queue := s'
       popped := b.popped ++ (b.queue.pops op).toList
       tested := b.tested ++ (b.queue.tests op).toList }, ?_, rfl⟩
  rw [step, hs', Option.map_some]

/-- A batch can be finished from any of its states, when every callback
returns. -/
def Finishes (b : TimerBatch κ) : Prop :=
  ∃ ops b', Along step (fun b _ => b.queue.phase ≠ .idle) b ops ∧
    run step b ops = some b' ∧ b'.queue.phase = .idle

theorem Finishes.cons
    {b b₁ : TimerBatch κ} {op : TimerOp κ}
    (hphase : b.queue.phase ≠ .idle) (hstep : step b op = some b₁)
    (hb₁ : b₁.Finishes) : b.Finishes := by
  obtain ⟨ops, b', halong, hrun, hidle⟩ := hb₁
  refine ⟨op :: ops, b', ⟨hphase, ?_⟩, ?_, hidle⟩
  · intro b₂ hb₂
    rw [hstep] at hb₂
    cases hb₂
    exact halong
  · rw [run_cons, hstep, Option.bind_some]
    exact hrun

theorem finishes_of_idle
    {b : TimerBatch κ} (hidle : b.queue.phase = .idle) : b.Finishes :=
  ⟨[], b, trivial, rfl, hidle⟩

theorem finishes_of_calling
    {b : TimerBatch κ} {now : Int} {seq : Nat}
    (hphase : b.queue.phase = .calling now seq)
    (hnext :
      ∀ b₁ : TimerBatch κ, b₁.queue.phase = .scanning now →
        b₁.queue.heap_ = b.queue.heap_ → b₁.Finishes) :
    b.Finishes := by
  have hqueue : b.queue.step .callbackReturns =
      some (b.queue.afterCallback seq now) := by
    simp only [TimerQueue.step, hphase]
  obtain ⟨b₁, hstep, hb₁⟩ := step_of_queue hqueue
  obtain ⟨h, -, hheap, -, hphase₁⟩ :=
    afterCallback_handlers b.queue seq now
  rw [← hb₁] at hheap hphase₁
  exact .cons (by simp [hphase]) hstep (hnext b₁ hphase₁ hheap)

/-- Every iteration takes a handler from the heap. -/
theorem finishes_of_scanning
    {b : TimerBatch κ} {now : Int}
    (hphase : b.queue.phase = .scanning now) : b.Finishes := by
  generalize hlength : b.queue.heap_.length = n
  induction n using Nat.strong_induction_on generalizing b with
  | h n ih =>
      have hbusy : b.queue.phase ≠ .idle := by
        simp [hphase]
      have hqueue : b.queue.step (.scan ⟨now, 0⟩) =
          some (b.queue.scan now ⟨now, 0⟩) := by
        simp only [TimerQueue.step, hphase]
      obtain ⟨b₁, hstep, hb₁⟩ := step_of_queue hqueue
      refine .cons hbusy hstep ?_
      rcases scan_cases hphase ⟨now, 0⟩ with ⟨-, hscan, -⟩ |
        ⟨seq, rest, -, hpop, -, -, hscan⟩
      · refine finishes_of_idle ?_
        rw [hb₁, hscan]
        rfl
      · have hshorter : rest.length < n := by
          have hperm := (BinaryHeap.popTop_perm hpop).length_eq
          rw [List.length_cons] at hperm
          omega
        rw [hscan] at hb₁
        cases hskips : b.queue.skips seq with
        | true =>
            rw [@runHandler_of_skips _
              { b.queue with heap_ := rest } seq hskips now] at hb₁
            obtain ⟨h, -, hheap, -, hphase₁⟩ :=
              afterCallback_handlers { b.queue with heap_ := rest } seq now
            rw [← hb₁] at hheap hphase₁
            exact ih rest.length hshorter hphase₁ (by rw [hheap])
        | false =>
            obtain ⟨cb, hrun⟩ := @runHandler_of_not_skips _
              { b.queue with heap_ := rest } seq hskips now
            rw [hrun] at hb₁
            refine @finishes_of_calling _ _ now seq ?_ ?_
            · rw [hb₁]
            · intro b₂ hphase₂ hheap
              refine ih rest.length hshorter hphase₂ ?_
              rw [hheap, hb₁]

/-- handleRead never waits for anything but a callback. -/
theorem handleRead_finishes
    (b : TimerBatch κ) : b.Finishes := by
  cases hphase : b.queue.phase with
  | idle =>
      exact finishes_of_idle hphase
  | scanning now =>
      exact finishes_of_scanning hphase
  | calling now seq =>
      exact finishes_of_calling hphase
        fun b₁ hphase₁ _ => finishes_of_scanning hphase₁

end TimerBatch

end TimerBatch

/-- Two timers that expire at once and a later one: the callback of the first,
that repeats, disables the second before that is popped. -/
theorem handleRead_runs_due_tie :
    ∃ (s : TimerQueue Nat) (b : TimerBatch Nat),
      run TimerQueue.step (TimerQueue.initial 0)
          [.addTimer 9 400 none, .addTimer 7 100 (some 50),
            .addTimer 8 100 none, .runFunctor ⟨10, 0⟩,
            .runFunctor ⟨11, 0⟩, .runFunctor ⟨12, 3⟩] = some s ∧
      TimerBatch.HandlesRead s 120
        [.scan ⟨120, 0⟩, .disable 2, .callbackReturns, .scan ⟨121, 0⟩,
          .scan ⟨122, 1⟩] b ∧
      b.popped =
        [{ seq := 1, disabled := false }, { seq := 2, disabled := true }] ∧
      b.tested = [(1, true), (2, false)] ∧
      TimerBatch.RunsDue s 120 b := by
  obtain ⟨b, hb, hvalues⟩ :=
    Option.map_eq_some_iff.mp
      (show ((run TimerQueue.step (TimerQueue.initial 0)
          [.addTimer 9 400 none, .addTimer 7 100 (some 50),
            .addTimer 8 100 none, .runFunctor ⟨10, 0⟩,
            .runFunctor ⟨11, 0⟩, .runFunctor ⟨12, 3⟩]).bind fun s =>
          ((TimerBatch.start s).step (.handleRead 120 2)).bind fun b =>
            if Along TimerBatch.step (fun b _ => b.queue.phase ≠ .idle) b
                [.scan ⟨120, 0⟩, .disable 2, .callbackReturns,
                  .scan ⟨121, 0⟩, .scan ⟨122, 1⟩] then
              run TimerBatch.step b
                [.scan ⟨120, 0⟩, .disable 2, .callbackReturns,
                  .scan ⟨121, 0⟩, .scan ⟨122, 1⟩]
            else none).map
          (fun b : TimerBatch Nat =>
            (b.queue.phase, b.popped, b.tested)) =
          some
            (.idle,
              [{ seq := 1, disabled := false },
                { seq := 2, disabled := true }],
              [(1, true), (2, false)])
        by decide +kernel)
  obtain ⟨s, hs, hb⟩ := Option.bind_eq_some_iff.mp hb
  obtain ⟨b₁, hfirst, hb⟩ := Option.bind_eq_some_iff.mp hb
  obtain ⟨hidle, hrest⟩ := Prod.mk.inj hvalues
  obtain ⟨hpopped, htested⟩ := Prod.mk.inj hrest
  split at hb
  · rename_i halong
    have hread : TimerBatch.HandlesRead s 120
        [.scan ⟨120, 0⟩, .disable 2, .callbackReturns, .scan ⟨121, 0⟩,
          .scan ⟨122, 1⟩] b :=
      ⟨⟨2, b₁, hfirst, halong, hb⟩, hidle⟩
    exact ⟨s, b, hs, hread, hpopped, htested,
      TimerQueue.handleRead_runs_due 0 _ hs 120 _ hread⟩
  · cases hb

end Hohnor
