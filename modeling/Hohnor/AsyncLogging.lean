import Hohnor.BlockingQueues

/-!
# The asynchronous log

`AsyncLog` of include/hohnor/log/AsyncLogging.h and src/log/AsyncLogging.cpp:
any threads put buffers into a blocking queue, a null buffer for a flush, and
the log thread takes them and passes them on.  The log thread is the only one
that takes, so it is the only one that ever waits.

output_append and output_flush are virtual, and AsyncLog's own bodies of them
are empty.  When ~AsyncLog begins, the part of the derived class is gone and the
object is an AsyncLog again: what the log thread passes on from then on goes to
the empty bodies.  Besides, the loop of the log thread tests stop_ before every
take, and passes its test no more once the destructor has set it.

So the null buffer that the destructor puts and the join write nothing.
`shutdown_loses_nothing_iff` says when nothing is lost all the same.
-/

namespace Hohnor

open ConditionVariables TransitionRuns

/-- Where the log thread is: about to test stop_, about to call take(), inside
of it, or with a buffer that it is about to pass on. -/
inductive LogPhase (β : Type) where
  | testing
  | taking
  | waiting
  | writing (buffer : Option β)
  | exited
deriving DecidableEq, Repr

/-- Where the destructor is: it has begun, it has set stop_, it has called
flush(), the join has returned. -/
inductive AsyncLogEnd where
  | alive
  | entered
  | stopping
  | joining
  | joined
deriving DecidableEq, Repr

/-- A log of a class derived from AsyncLog, with its thread.  `outputs` are the
calls of output_append, and none for those of output_flush; `ownOutputs` are
those that have reached the functions of the derived class, `puts` is all that
has ever been put. -/
structure AsyncLog (β : Type) where
  bufferQueue_ : BlockingQueue Unit (Option β)
  stop_ : Bool
  logThread : LogPhase β
  destructor : AsyncLogEnd
  outputs : List (Option β)
  ownOutputs : List (Option β)
  puts : List (Option β)
deriving DecidableEq, Repr

/-- A thread calls addLog, or flush with the buffer none; the others are the
steps of the log thread and of the destructor. -/
inductive AsyncLogOp (β : Type) where
  | addLog (buffer : Option β)
  | testStop
  | take
  | takeAgain (wake : Wake)
  | rouse
  | output
  | enter
  | setStop
  | flushAtEnd
  | join
deriving DecidableEq, Repr

section AsyncLogging

variable {β : Type}

namespace AsyncLog

def create : AsyncLog β where
  bufferQueue_ := .create
  stop_ := false
  logThread := .testing
  destructor := .alive
  outputs := []
  ownOutputs := []
  puts := []

def addLog (s : AsyncLog β) (buffer : Option β) : AsyncLog β :=
  { s with
    bufferQueue_ := s.bufferQueue_.put buffer 0
    puts := s.puts ++ [buffer] }

def flush (s : AsyncLog β) : AsyncLog β :=
  s.addLog none

/-- output_append or output_flush is called.  It is the derived class's one
until ~AsyncLog begins. -/
def output (s : AsyncLog β) (buffer : Option β) : AsyncLog β :=
  { s with
    logThread := .testing
    outputs := s.outputs ++ [buffer]
    ownOutputs :=
      if s.destructor = .alive then s.ownOutputs ++ [buffer]
      else s.ownOutputs }

/-- The log thread is inside of take(), or comes out of it. -/
def taken
    (s : AsyncLog β)
    (p : TakeResult (Option β) × BlockingQueue Unit (Option β)) :
    AsyncLog β :=
  { s with
    bufferQueue_ := p.2
    logThread :=
      match p.1 with
      | .waits => .waiting
      | .returned buffer => .writing buffer }

def step (s : AsyncLog β) : AsyncLogOp β → Option (AsyncLog β)
  | .addLog buffer =>
      match s.destructor with
      | .alive => some (s.addLog buffer)
      | _ => none
  | .testStop =>
      match s.logThread with
      | .testing =>
          some { s with logThread := if s.stop_ then .exited else .taking }
      | _ => none
  | .take =>
      match s.logThread with
      | .taking => (s.bufferQueue_.take ()).map s.taken
      | _ => none
  | .takeAgain wake =>
      match s.logThread with
      | .waiting =>
          (s.bufferQueue_.notEmpty_.resume wake 0).bind fun r =>
            (BlockingQueue.take
              { s.bufferQueue_ with notEmpty_ := r.2 } ()).map s.taken
      | _ => none
  | .rouse =>
      match s.logThread with
      | .waiting =>
          (s.bufferQueue_.notEmpty_.rouse 0).map fun v =>
            { s with bufferQueue_ := { s.bufferQueue_ with notEmpty_ := v } }
      | _ => none
  | .output =>
      match s.logThread with
      | .writing buffer => some (s.output buffer)
      | _ => none
  | .enter =>
      match s.destructor with
      | .alive => some { s with destructor := .entered }
      | _ => none
  | .setStop =>
      match s.destructor with
      | .entered => some { s with stop_ := true, destructor := .stopping }
      | _ => none
  | .flushAtEnd =>
      match s.destructor with
      | .stopping => some { s.flush with destructor := .joining }
      | _ => none
  | .join =>
      match s.destructor, s.logThread with
      | .joining, .exited => some { s with destructor := .joined }
      | _, _ => none

/-- A step by what it does to the queue, the log thread and the outputs. -/
inductive Moves (s : AsyncLog β) : AsyncLogOp β → AsyncLog β → Prop
  | adds
      (buffer : Option β)
      (halive : s.destructor = .alive) :
      Moves s (.addLog buffer) (s.addLog buffer)
  | goesOn
      (hphase : s.logThread = .testing)
      (hstop : s.stop_ = false) :
      Moves s .testStop { s with logThread := .taking }
  | exits
      (hphase : s.logThread = .testing)
      (hstop : s.stop_ = true) :
      Moves s .testStop { s with logThread := .exited }
  | waits
      {op : AsyncLogOp β} {q : BlockingQueue Unit (Option β)}
      (hop : op ≠ .output)
      (hphase : s.logThread = .taking ∨ s.logThread = .waiting)
      (hqueue : q.queue_ = s.bufferQueue_.queue_)
      (hend : q.end_ = s.bufferQueue_.end_) :
      Moves s op { s with bufferQueue_ := q, logThread := .waiting }
  | takes
      {op : AsyncLogOp β} {q : BlockingQueue Unit (Option β)}
      {buffer : Option β}
      (hop : op ≠ .output)
      (hphase : s.logThread = .taking ∨ s.logThread = .waiting)
      (hqueue : s.bufferQueue_.queue_ = buffer :: q.queue_)
      (hend : q.end_ = s.bufferQueue_.end_) :
      Moves s op
        { s with bufferQueue_ := q, logThread := .writing buffer }
  | outputs
      {buffer : Option β}
      (hphase : s.logThread = .writing buffer) :
      Moves s .output (s.output buffer)
  | enters
      (halive : s.destructor = .alive) :
      Moves s .enter { s with destructor := .entered }
  | setsStop
      (hentered : s.destructor = .entered) :
      Moves s .setStop { s with stop_ := true, destructor := .stopping }
  | flushes
      (hstopping : s.destructor = .stopping) :
      Moves s .flushAtEnd { s.flush with destructor := .joining }
  | joins
      (hjoining : s.destructor = .joining)
      (hphase : s.logThread = .exited) :
      Moves s .join { s with destructor := .joined }

theorem taken_moves
    {s : AsyncLog β} {op : AsyncLogOp β} (hop : op ≠ .output)
    (hphase : s.logThread = .taking ∨ s.logThread = .waiting)
    {q : BlockingQueue Unit (Option β)}
    (hqueue : q.queue_ = s.bufferQueue_.queue_)
    (hend : q.end_ = false) (hend' : s.bufferQueue_.end_ = false)
    {s' : AsyncLog β} (htaken : (q.take ()).map s.taken = some s') :
    Moves s op s' := by
  obtain ⟨p, hp, rfl⟩ := Option.map_eq_some_iff.mp htaken
  rw [BlockingQueue.take] at hp
  cases hitems : q.queue_ with
  | nil =>
      simp only [hitems, hend, List.isEmpty_nil, Bool.not_false,
        Bool.and_self, if_true] at hp
      cases hp
      exact .waits hop hphase (hitems.symm.trans hqueue) hend'.symm
  | cons buffer rest =>
      simp only [hitems, hend, List.isEmpty_cons, Bool.false_and,
        Bool.false_eq_true, if_false] at hp
      cases hp
      exact .takes hop hphase (hqueue.symm.trans hitems) hend'.symm

theorem step_moves
    {s s' : AsyncLog β} {op : AsyncLogOp β}
    (hend : s.bufferQueue_.end_ = false)
    (hstep : s.step op = some s') : Moves s op s' := by
  cases op with
  | addLog buffer =>
      simp only [step] at hstep
      split at hstep
      · rename_i halive
        cases hstep
        exact .adds buffer halive
      · cases hstep
  | testStop =>
      simp only [step] at hstep
      split at hstep
      · rename_i hphase
        cases hstep
        by_cases hstop : s.stop_ = true
        · rw [if_pos hstop]
          exact .exits hphase hstop
        · rw [if_neg hstop]
          exact .goesOn hphase (Bool.not_eq_true _ ▸ hstop)
      · cases hstep
  | take =>
      simp only [step] at hstep
      split at hstep
      · rename_i hphase
        exact taken_moves (by simp) (.inl hphase) rfl hend hend hstep
      · cases hstep
  | takeAgain wake =>
      simp only [step] at hstep
      split at hstep
      · rename_i hphase
        obtain ⟨r, _, htaken⟩ := Option.bind_eq_some_iff.mp hstep
        exact @taken_moves _ s _ (by simp) (.inr hphase)
          { s.bufferQueue_ with notEmpty_ := r.2 } rfl hend hend s' htaken
      · cases hstep
  | rouse =>
      simp only [step] at hstep
      split at hstep
      · rename_i hphase
        obtain ⟨v, _, rfl⟩ := Option.map_eq_some_iff.mp hstep
        have hmoves := @Moves.waits _ s .rouse
          { s.bufferQueue_ with notEmpty_ := v } (by simp) (.inr hphase)
          rfl rfl
        rw [← hphase] at hmoves
        exact hmoves
      · cases hstep
  | output =>
      simp only [step] at hstep
      split at hstep
      · rename_i buffer hphase
        cases hstep
        exact .outputs hphase
      · cases hstep
  | enter =>
      simp only [step] at hstep
      split at hstep
      · rename_i halive
        cases hstep
        exact .enters halive
      · cases hstep
  | setStop =>
      simp only [step] at hstep
      split at hstep
      · rename_i hentered
        cases hstep
        exact .setsStop hentered
      · cases hstep
  | flushAtEnd =>
      simp only [step] at hstep
      split at hstep
      · rename_i hstopping
        cases hstep
        exact .flushes hstopping
      · cases hstep
  | join =>
      simp only [step] at hstep
      split at hstep
      · rename_i hjoining hphase
        cases hstep
        exact .joins hjoining hphase
      · cases hstep

/-- The buffer that the log thread has taken and not passed on. -/
def inHand (s : AsyncLog β) : List (Option β) :=
  match s.logThread with
  | .writing buffer => [buffer]
  | _ => []

/-- What holds at every point: the buffers put are passed on in order, and to
the derived class until the destructor begins. -/
structure LogInOrder (s : AsyncLog β) : Prop where
  queueOpen : s.bufferQueue_.end_ = false
  inOrder : s.puts = s.outputs ++ s.inHand ++ s.bufferQueue_.queue_
  own : s.destructor = .alive → s.ownOutputs = s.outputs

theorem create_inOrder :
    LogInOrder (create : AsyncLog β) where
  queueOpen := rfl
  inOrder := rfl
  own := fun _ => rfl

theorem inHand_eq_nil
    {s : AsyncLog β}
    (hphase : s.logThread = .taking ∨ s.logThread = .waiting) :
    s.inHand = [] := by
  rcases hphase with hphase | hphase
  · rw [inHand, hphase]
  · rw [inHand, hphase]

theorem step_inOrder
    {s s' : AsyncLog β} {op : AsyncLogOp β} (hs : LogInOrder s)
    (hstep : s.step op = some s') : LogInOrder s' := by
  have horder := hs.inOrder
  cases step_moves hs.queueOpen hstep with
  | adds buffer halive =>
      refine ⟨hs.queueOpen, ?_, hs.own⟩
      simp only [addLog, BlockingQueue.put, horder, List.append_assoc]
      rfl
  | goesOn hphase hstop =>
      rw [inHand, hphase] at horder
      exact ⟨hs.queueOpen, horder, hs.own⟩
  | exits hphase hstop =>
      rw [inHand, hphase] at horder
      exact ⟨hs.queueOpen, horder, hs.own⟩
  | waits hop hphase hqueue hend =>
      rw [inHand_eq_nil hphase, ← hqueue] at horder
      exact ⟨hend.trans hs.queueOpen, horder, hs.own⟩
  | takes hop hphase hqueue hend =>
      refine ⟨hend.trans hs.queueOpen, ?_, hs.own⟩
      rw [inHand_eq_nil hphase, hqueue] at horder
      simp only [inHand, horder, List.append_nil, List.append_assoc]
      rfl
  | outputs hphase =>
      refine ⟨hs.queueOpen, ?_, ?_⟩
      · rw [inHand, hphase] at horder
        simp only [output, inHand, horder, List.append_nil]
      · intro halive
        change s.destructor = .alive at halive
        simp only [output, if_pos halive, hs.own halive]
  | enters halive =>
      exact ⟨hs.queueOpen, horder, fun h => by cases h⟩
  | setsStop hentered =>
      exact ⟨hs.queueOpen, horder, fun h => by cases h⟩
  | flushes hstopping =>
      refine ⟨hs.queueOpen, ?_, fun h => by cases h⟩
      simp only [flush, addLog, BlockingQueue.put, horder,
        List.append_assoc]
      rfl
  | joins hjoining hphase =>
      exact ⟨hs.queueOpen, horder, fun h => by cases h⟩

theorem reachable_inOrder
    {ops : List (AsyncLogOp β)} {s : AsyncLog β}
    (hrun : run step create ops = some s) : LogInOrder s :=
  invariant_of_run (P := fun _ => True)
    (fun _ _ _ hs _ hstep => step_inOrder hs hstep)
    create_inOrder (fun _ _ => trivial) hrun

/-- A state of the destruction that began in `s`: the derived class is called no
more, and only null buffers are put. -/
structure Dying (s t : AsyncLog β) : Prop where
  queueOpen : t.bufferQueue_.end_ = false
  begun : t.destructor ≠ .alive
  own : t.ownOutputs = s.ownOutputs
  puts : t.puts.filterMap id = s.puts.filterMap id

theorem step_dying
    {s t t' : AsyncLog β} {op : AsyncLogOp β} (ht : Dying s t)
    (hstep : t.step op = some t') : Dying s t' := by
  cases step_moves ht.queueOpen hstep with
  | adds buffer halive =>
      exact absurd halive ht.begun
  | goesOn hphase hstop =>
      exact ⟨ht.queueOpen, ht.begun, ht.own, ht.puts⟩
  | exits hphase hstop =>
      exact ⟨ht.queueOpen, ht.begun, ht.own, ht.puts⟩
  | waits hop hphase hqueue hend =>
      exact ⟨hend.trans ht.queueOpen, ht.begun, ht.own, ht.puts⟩
  | takes hop hphase hqueue hend =>
      exact ⟨hend.trans ht.queueOpen, ht.begun, ht.own, ht.puts⟩
  | outputs hphase =>
      refine ⟨ht.queueOpen, ht.begun, ?_, ht.puts⟩
      simp only [output, if_neg ht.begun, ht.own]
  | enters halive =>
      exact absurd halive ht.begun
  | setsStop hentered =>
      exact ⟨ht.queueOpen, by simp, ht.own, ht.puts⟩
  | flushes hstopping =>
      refine ⟨ht.queueOpen, by simp, ht.own, ?_⟩
      simp only [flush, addLog, List.filterMap_append, ht.puts]
      exact List.append_nil _
  | joins hjoining hphase =>
      exact ⟨ht.queueOpen, by simp, ht.own, ht.puts⟩

/-- The destructor begins once. -/
theorem enter_spec
    {s s' : AsyncLog β} (hstep : s.step .enter = some s') :
    s.destructor = .alive ∧ s' = { s with destructor := .entered } := by
  simp only [step] at hstep
  split at hstep
  · rename_i halive
    cases hstep
    exact ⟨halive, rfl⟩
  · cases hstep

/-- Whatever the destructor and the log thread do after it has begun. -/
theorem dying_of_run
    {s t : AsyncLog β} {ops : List (AsyncLogOp β)} (hs : LogInOrder s)
    (hrun : run step s (.enter :: ops) = some t) :
    s.destructor = .alive ∧ Dying s t := by
  obtain ⟨s₁, hfirst, hrest⟩ := run_cons_success hrun
  obtain ⟨halive, rfl⟩ := enter_spec hfirst
  refine ⟨halive, ?_⟩
  have hs₁ : Dying s { s with destructor := .entered } :=
    ⟨hs.queueOpen, by simp, rfl, rfl⟩
  exact invariant_of_run (P := fun _ => True)
    (fun _ _ _ ht _ hstep => step_dying ht hstep)
    hs₁ (fun _ _ => trivial) hrest

/-- Every buffer that has been put has reached the output_append of the derived
class once, in the order of the puts, and a flush has followed the last of
them. -/
structure LosesNothing (s : AsyncLog β) : Prop where
  written : s.ownOutputs.filterMap id = s.puts.filterMap id
  flushed :
    ∀ before buffer after,
      s.ownOutputs = before ++ some buffer :: after → none ∈ after

def NoBuffers (items : List (Option β)) : Prop :=
  ∀ buffer, some buffer ∉ items

/-- The last output, if there is one, was a flush. -/
def EndsFlushed (outputs : List (Option β)) : Prop :=
  ∀ buffer, outputs.getLast? ≠ some (some buffer)

/-- No buffer is queued or in the hand of the log thread, and the log has been
flushed after the last one that was passed on. -/
structure Drained (s : AsyncLog β) : Prop where
  inHand : NoBuffers s.inHand
  queue : NoBuffers s.bufferQueue_.queue_
  flushed : EndsFlushed s.outputs

theorem noBuffers_iff
    (items : List (Option β)) :
    NoBuffers items ↔ items.filterMap id = [] := by
  rw [List.filterMap_eq_nil_iff]
  constructor
  · intro h item hitem
    cases item with
    | none =>
        rfl
    | some buffer =>
        exact absurd hitem (h buffer)
  · intro h buffer hbuffer
    cases h (some buffer) hbuffer

/-- A flush follows each buffer exactly when the last output is no buffer. -/
theorem endsFlushed_iff
    (outputs : List (Option β)) :
    EndsFlushed outputs ↔
      ∀ before buffer after,
        outputs = before ++ some buffer :: after → none ∈ after := by
  constructor
  · intro h before buffer after hsplit
    rcases List.eq_nil_or_concat after with rfl | ⟨front, last, rfl⟩
    · refine absurd ?_ (h buffer)
      rw [hsplit, List.getLast?_append_cons]
      rfl
    · cases last with
      | none =>
          rw [List.concat_eq_append]
          exact List.mem_append_right _ (List.mem_singleton.mpr rfl)
      | some buffer' =>
          refine absurd ?_ (h buffer')
          rw [hsplit, List.concat_eq_append, ← List.cons_append,
            ← List.append_assoc, List.getLast?_concat]
  · intro h buffer hlast
    obtain ⟨before, hbefore⟩ := List.getLast?_eq_some_iff.mp hlast
    cases h before buffer [] hbefore

/-- Nothing is missing among the buffers passed on so far exactly when none is
queued or in hand. -/
theorem LogInOrder.written_iff
    {s : AsyncLog β} (hs : LogInOrder s) :
    s.outputs.filterMap id = s.puts.filterMap id ↔
      NoBuffers s.inHand ∧ NoBuffers s.bufferQueue_.queue_ := by
  rw [hs.inOrder, List.append_assoc, List.filterMap_append,
    List.self_eq_append_right, List.filterMap_append,
    List.append_eq_nil_iff, noBuffers_iff, noBuffers_iff]

/-- Whatever was put before the destructor begins, and however its steps and
those of the log thread interleave: at every point from then on, so also when
the join returns, nothing has been lost exactly when the log was drained as the
destructor began. -/
theorem shutdown_loses_nothing_iff
    {before after : List (AsyncLogOp β)} {s t : AsyncLog β}
    (hbefore : run step create before = some s)
    (hshutdown : run step s (.enter :: after) = some t) :
    t.LosesNothing ↔ s.Drained := by
  have hs := reachable_inOrder hbefore
  obtain ⟨halive, ht⟩ := dying_of_run hs hshutdown
  have hown : t.ownOutputs = s.outputs :=
    ht.own.trans (hs.own halive)
  constructor
  · rintro ⟨hwritten, hflushed⟩
    rw [hown, ht.puts, hs.written_iff] at hwritten
    rw [hown, ← endsFlushed_iff] at hflushed
    exact ⟨hwritten.1, hwritten.2, hflushed⟩
  · rintro ⟨hhand, hqueue, hflushed⟩
    constructor
    · rw [hown, ht.puts]
      exact hs.written_iff.mpr ⟨hhand, hqueue⟩
    · rw [hown, ← endsFlushed_iff]
      exact hflushed

end AsyncLog

end AsyncLogging

/-- One buffer and a flush, which the log thread has passed on before the
destructor begins. -/
theorem shutdown_loses_nothing_idle :
    ∃ s t : AsyncLog Nat,
      run AsyncLog.step AsyncLog.create
          [.addLog (some 7), .addLog none, .testStop, .take, .output,
            .testStop, .take, .output, .testStop, .take] = some s ∧
      run AsyncLog.step s
          [.enter, .setStop, .flushAtEnd, .takeAgain .signal, .output,
            .testStop, .join] = some t ∧
      t.destructor = .joined ∧
      t.ownOutputs = [some 7, none] ∧
      (t.LosesNothing ↔ s.Drained) := by
  obtain ⟨s, hs⟩ : ∃ s : AsyncLog Nat,
      run AsyncLog.step AsyncLog.create
          [.addLog (some 7), .addLog none, .testStop, .take, .output,
            .testStop, .take, .output, .testStop, .take] = some s :=
    Option.isSome_iff_exists.mp (by decide +kernel)
  obtain ⟨t, ht, hvalues⟩ :=
    Option.map_eq_some_iff.mp
      (show ((run AsyncLog.step AsyncLog.create
          [.addLog (some 7), .addLog none, .testStop, .take, .output,
            .testStop, .take, .output, .testStop,
            .take]).bind fun s : AsyncLog Nat =>
          run AsyncLog.step s
            [.enter, .setStop, .flushAtEnd, .takeAgain .signal, .output,
              .testStop, .join]).map
          (fun t : AsyncLog Nat => (t.destructor, t.ownOutputs)) =
          some (.joined, [some 7, none])
        by decide +kernel)
  rw [hs, Option.bind_some] at ht
  obtain ⟨hjoined, hown⟩ := Prod.mk.inj hvalues
  exact ⟨s, t, hs, ht, hjoined, hown,
    AsyncLog.shutdown_loses_nothing_iff hs ht⟩

/-- Two buffers are queued and the log thread has taken the first one: the
second is never taken, the first goes to the empty output_append of AsyncLog,
and nothing is flushed. -/
theorem shutdown_loses_backlog :
    ∃ s t : AsyncLog Nat,
      run AsyncLog.step AsyncLog.create
          [.addLog (some 7), .addLog (some 8), .testStop, .take] =
        some s ∧
      run AsyncLog.step s
          [.enter, .setStop, .flushAtEnd, .output, .testStop, .join] =
        some t ∧
      t.destructor = .joined ∧
      t.outputs = [some 7] ∧
      t.ownOutputs = [] ∧
      t.puts = [some 7, some 8, none] ∧
      ¬ t.LosesNothing := by
  obtain ⟨s, hs⟩ : ∃ s : AsyncLog Nat,
      run AsyncLog.step AsyncLog.create
          [.addLog (some 7), .addLog (some 8), .testStop, .take] =
        some s :=
    Option.isSome_iff_exists.mp (by decide +kernel)
  obtain ⟨t, ht, hvalues⟩ :=
    Option.map_eq_some_iff.mp
      (show ((run AsyncLog.step AsyncLog.create
          [.addLog (some 7), .addLog (some 8), .testStop,
            .take]).bind fun s : AsyncLog Nat =>
          run AsyncLog.step s
            [.enter, .setStop, .flushAtEnd, .output, .testStop,
              .join]).map
          (fun t : AsyncLog Nat =>
            (t.destructor, t.outputs, t.ownOutputs, t.puts)) =
          some (.joined, [some 7], [], [some 7, some 8, none])
        by decide +kernel)
  rw [hs, Option.bind_some] at ht
  obtain ⟨hjoined, hrest⟩ := Prod.mk.inj hvalues
  obtain ⟨houtputs, hrest⟩ := Prod.mk.inj hrest
  obtain ⟨hown, hputs⟩ := Prod.mk.inj hrest
  refine ⟨s, t, hs, ht, hjoined, houtputs, hown, hputs, ?_⟩
  intro hlost
  have hwritten := hlost.written
  rw [hown, hputs] at hwritten
  simp at hwritten

end Hohnor
