import Hohnor.AsyncLogging

/-!
# The record before an abort

The end of `Logger::~Logger` in src/log/Logging.cpp, for any number of threads
that log to one `AsyncLog`: the record goes into the queue, and where the level
is FATAL a flush goes after it and the process aborts.  flush() puts a null
buffer and returns, so that abort() waits for nothing.

`fatal_written_iff` says how far the log thread must have come by then.
-/

namespace Hohnor

open TransitionRuns

/-- Where a thread is in the destructor of its Logger: it is not in it, it has
put a FATAL record, or it has called flush() and is about to abort. -/
inductive LoggerPhase where
  | running
  | fatalAdded
  | aborting
deriving DecidableEq, Repr

/-- The process with its log; a record is named by the thread that logs it. -/
structure LoggingProcess (ρ : Type) where
  g_asynclog : AsyncLog (Nat × ρ)
  loggers : Nat → LoggerPhase
  aborted : Bool

inductive LoggingOp (ρ : Type) where
  | addLog (tid : Nat) (record : ρ) (fatal : Bool)
  | flush (tid : Nat)
  | abort (tid : Nat)
  | logThread (op : AsyncLogOp (Nat × ρ))
deriving DecidableEq, Repr

section FatalRecord

variable {ρ : Type}

namespace AsyncLogOp

/-- The steps of the log thread. -/
def isLogThread : AsyncLogOp (Nat × ρ) → Bool
  | .testStop | .take | .takeAgain _ | .rouse | .output => true
  | _ => false

end AsyncLogOp

namespace LoggingOp

/-- What an operation puts into the queue. -/
def put? : LoggingOp ρ → Option (Option (Nat × ρ))
  | .addLog tid record _ => some (some (tid, record))
  | .flush _ => some none
  | _ => none

/-- The log thread passes on what it has taken. -/
def isOutput : LoggingOp ρ → Bool
  | .logThread .output => true
  | _ => false

end LoggingOp

namespace LoggingProcess

def initial : LoggingProcess ρ where
  g_asynclog := .create
  loggers := fun _ => .running
  aborted := false

def step (s : LoggingProcess ρ) (op : LoggingOp ρ) :
    Option (LoggingProcess ρ) :=
  if s.aborted then none
  else
    match op with
    | .addLog tid record fatal =>
        match s.loggers tid with
        | .running =>
            (s.g_asynclog.step (.addLog (some (tid, record)))).map fun l =>
              { s with
                g_asynclog := l
                loggers :=
                  if fatal then
                    Function.update s.loggers tid .fatalAdded
                  else s.loggers }
        | _ => none
    | .flush tid =>
        match s.loggers tid with
        | .fatalAdded =>
            (s.g_asynclog.step (.addLog none)).map fun l =>
              { s with
                g_asynclog := l
                loggers := Function.update s.loggers tid .aborting }
        | _ => none
    | .abort tid =>
        match s.loggers tid with
        | .aborting => some { s with aborted := true }
        | _ => none
    | .logThread op =>
        if op.isLogThread then
          (s.g_asynclog.step op).map fun l => { s with g_asynclog := l }
        else none

/-- The records of one thread. -/
def recordsOf (tid : Nat) (items : List (Option (Nat × ρ))) : List ρ :=
  items.filterMap fun item =>
    match item with
    | some (x, record) => if x = tid then some record else none
    | none => none

theorem recordsOf_append
    (tid : Nat) (items items' : List (Option (Nat × ρ))) :
    recordsOf tid (items ++ items') =
      recordsOf tid items ++ recordsOf tid items' :=
  List.filterMap_append

def putsOf (ops : List (LoggingOp ρ)) : List (Option (Nat × ρ)) :=
  ops.filterMap LoggingOp.put?

/-- How often the log thread finishes an output. -/
def outputsIn (ops : List (LoggingOp ρ)) : Nat :=
  ops.countP LoggingOp.isOutput

/-- What has been put and not passed on. -/
def backlog (s : LoggingProcess ρ) : List (Option (Nat × ρ)) :=
  s.g_asynclog.inHand ++ s.g_asynclog.bufferQueue_.queue_

/-- All records of the thread have been passed on, and a flush after them. -/
def RecordsFlushed (s : LoggingProcess ρ) (tid : Nat) : Prop :=
  ∃ before after,
    s.g_asynclog.outputs = before ++ none :: after ∧
      recordsOf tid before = recordsOf tid s.g_asynclog.puts

end LoggingProcess

theorem AsyncLog.addLog_step
    {l l' : AsyncLog (Nat × ρ)} {buffer : Option (Nat × ρ)}
    (hstep : l.step (.addLog buffer) = some l') :
    l'.puts = l.puts ++ [buffer] ∧ l'.outputs = l.outputs := by
  simp only [AsyncLog.step] at hstep
  split at hstep
  · cases hstep
    exact ⟨rfl, rfl⟩
  · cases hstep

theorem isOutput_of_ne
    {op : AsyncLogOp (Nat × ρ)} (hop : op ≠ .output) :
    (LoggingOp.logThread op).isOutput = false := by
  cases op with
  | output =>
      exact absurd rfl hop
  | addLog buffer =>
      rfl
  | testStop =>
      rfl
  | take =>
      rfl
  | takeAgain wake =>
      rfl
  | rouse =>
      rfl
  | enter =>
      rfl
  | setStop =>
      rfl
  | flushAtEnd =>
      rfl
  | join =>
      rfl

theorem AsyncLog.logThread_step
    {l l' : AsyncLog (Nat × ρ)} (hl : l.LogInOrder)
    {op : AsyncLogOp (Nat × ρ)} (hop : op.isLogThread = true)
    (hstep : l.step op = some l') :
    l'.puts = l.puts ∧
      l'.outputs.length =
        l.outputs.length + (LoggingOp.logThread op).isOutput.toNat := by
  cases step_moves hl.queueOpen hstep with
  | adds buffer halive =>
      cases hop
  | goesOn hphase hstop =>
      exact ⟨rfl, rfl⟩
  | exits hphase hstop =>
      exact ⟨rfl, rfl⟩
  | waits hne hphase hqueue hend =>
      rw [isOutput_of_ne hne]
      exact ⟨rfl, rfl⟩
  | takes hne hphase hqueue hend =>
      rw [isOutput_of_ne hne]
      exact ⟨rfl, rfl⟩
  | outputs hphase =>
      refine ⟨rfl, ?_⟩
      rw [output, List.length_append]
      rfl
  | enters halive =>
      cases hop
  | setsStop hentered =>
      cases hop
  | flushes hstopping =>
      cases hop
  | joins hjoining hphase =>
      cases hop

namespace LoggingProcess

/-- How the threads of a process move on with an operation. -/
inductive LoggerMove (s : LoggingProcess ρ) :
    LoggingOp ρ → LoggingProcess ρ → Prop
  | logs
      {tid : Nat} {record : ρ} {s' : LoggingProcess ρ}
      (hrunning : s.loggers tid = .running)
      (hloggers : s'.loggers = s.loggers) :
      LoggerMove s (.addLog tid record false) s'
  | logsFatal
      {tid : Nat} {record : ρ} {s' : LoggingProcess ρ}
      (hrunning : s.loggers tid = .running)
      (hloggers :
        s'.loggers = Function.update s.loggers tid .fatalAdded) :
      LoggerMove s (.addLog tid record true) s'
  | flushes
      {tid : Nat} {s' : LoggingProcess ρ}
      (hadded : s.loggers tid = .fatalAdded)
      (hloggers : s'.loggers = Function.update s.loggers tid .aborting) :
      LoggerMove s (.flush tid) s'
  | aborts
      {tid : Nat} {s' : LoggingProcess ρ}
      (haborting : s.loggers tid = .aborting)
      (hloggers : s'.loggers = s.loggers) :
      LoggerMove s (.abort tid) s'
  | logThread
      {op : AsyncLogOp (Nat × ρ)} {s' : LoggingProcess ρ}
      (hloggers : s'.loggers = s.loggers) :
      LoggerMove s (.logThread op) s'

/-- What a step does: to the log, and to the threads. -/
structure Logs (s : LoggingProcess ρ) (op : LoggingOp ρ)
    (s' : LoggingProcess ρ) : Prop where
  inOrder : s'.g_asynclog.LogInOrder
  puts : s'.g_asynclog.puts = s.g_asynclog.puts ++ op.put?.toList
  outputs :
    s'.g_asynclog.outputs.length =
      s.g_asynclog.outputs.length + op.isOutput.toNat
  move : LoggerMove s op s'

theorem step_logs
    {s s' : LoggingProcess ρ} {op : LoggingOp ρ}
    (hs : s.g_asynclog.LogInOrder) (hstep : s.step op = some s') :
    Logs s op s' := by
  unfold step at hstep
  split at hstep
  · cases hstep
  · cases op with
    | addLog tid record fatal =>
        simp only at hstep
        split at hstep
        · rename_i hrunning
          obtain ⟨l, hl, rfl⟩ := Option.map_eq_some_iff.mp hstep
          obtain ⟨hputs, houtputs⟩ := AsyncLog.addLog_step hl
          refine ⟨AsyncLog.step_inOrder hs hl, hputs, ?_, ?_⟩
          · rw [houtputs]
            rfl
          · cases fatal with
            | true =>
                exact .logsFatal hrunning rfl
            | false =>
                exact .logs hrunning rfl
        · cases hstep
    | flush tid =>
        simp only at hstep
        split at hstep
        · rename_i hadded
          obtain ⟨l, hl, rfl⟩ := Option.map_eq_some_iff.mp hstep
          obtain ⟨hputs, houtputs⟩ := AsyncLog.addLog_step hl
          refine ⟨AsyncLog.step_inOrder hs hl, hputs, ?_,
            .flushes hadded rfl⟩
          rw [houtputs]
          rfl
        · cases hstep
    | abort tid =>
        simp only at hstep
        split at hstep
        · rename_i haborting
          cases hstep
          exact ⟨hs, (List.append_nil _).symm, rfl, .aborts haborting rfl⟩
        · cases hstep
    | logThread op =>
        simp only at hstep
        split at hstep
        · rename_i hop
          obtain ⟨l, hl, rfl⟩ := Option.map_eq_some_iff.mp hstep
          obtain ⟨hputs, houtputs⟩ := AsyncLog.logThread_step hs hop hl
          refine ⟨AsyncLog.step_inOrder hs hl, ?_, houtputs,
            .logThread rfl⟩
          exact hputs.trans (List.append_nil _).symm
        · cases hstep

theorem reachable_inOrder
    {ops : List (LoggingOp ρ)} {s : LoggingProcess ρ}
    (hrun : run step initial ops = some s) : s.g_asynclog.LogInOrder :=
  invariant_of_run (P := fun _ => True)
    (I := fun s : LoggingProcess ρ => s.g_asynclog.LogInOrder)
    (fun _ _ _ hs _ hstep => (step_logs hs hstep).inOrder)
    AsyncLog.create_inOrder (fun _ _ => trivial) hrun

/-- What has come of the operations `ops` since the thread put its FATAL record
into the log of `s`. -/
structure SinceFatal (s : LoggingProcess ρ) (tid : Nat) (record : ρ)
    (ops : List (LoggingOp ρ)) (t : LoggingProcess ρ) : Prop where
  inOrder : t.g_asynclog.LogInOrder
  puts :
    t.g_asynclog.puts =
      s.g_asynclog.puts ++ some (tid, record) :: putsOf ops
  outputs :
    t.g_asynclog.outputs.length =
      s.g_asynclog.outputs.length + outputsIn ops
  silent : recordsOf tid (putsOf ops) = []
  stays : t.loggers tid ≠ .running
  flushed : t.loggers tid = .aborting → none ∈ putsOf ops

theorem putsOf_concat
    (ops : List (LoggingOp ρ)) (op : LoggingOp ρ) :
    putsOf (ops ++ [op]) = putsOf ops ++ op.put?.toList := by
  rw [putsOf, List.filterMap_append]
  cases hput : op.put? with
  | none =>
      simp [putsOf, hput]
  | some item =>
      simp [putsOf, hput]

theorem outputsIn_concat
    (ops : List (LoggingOp ρ)) (op : LoggingOp ρ) :
    outputsIn (ops ++ [op]) = outputsIn ops + op.isOutput.toNat := by
  rw [outputsIn, List.countP_append, List.countP_singleton]
  cases op.isOutput with
  | true =>
      rfl
  | false =>
      rfl

/-- A thread that has put its FATAL record puts no other one, and is not about
to abort before it has called flush(). -/
theorem LoggerMove.of_fatal
    {t t' : LoggingProcess ρ} {op : LoggingOp ρ} {tid : Nat}
    (hmove : LoggerMove t op t') (hstays : t.loggers tid ≠ .running) :
    recordsOf tid op.put?.toList = [] ∧ t'.loggers tid ≠ .running ∧
      (t'.loggers tid = .aborting →
        t.loggers tid = .aborting ∨ op.put? = some none) := by
  have hother : ∀ x, t.loggers x = .running → x ≠ tid := by
    rintro x hrunning rfl
    exact hstays hrunning
  cases hmove with
  | @logs x record t' hrunning hloggers =>
      refine ⟨?_, ?_, ?_⟩
      · simp [recordsOf, LoggingOp.put?, hother x hrunning]
      · rw [hloggers]
        exact hstays
      · rw [hloggers]
        exact Or.inl
  | @logsFatal x record t' hrunning hloggers =>
      have hne := hother x hrunning
      have hsame : t'.loggers tid = t.loggers tid := by
        rw [hloggers, Function.update_of_ne (Ne.symm hne)]
      refine ⟨?_, ?_, ?_⟩
      · simp [recordsOf, LoggingOp.put?, hne]
      · rw [hsame]
        exact hstays
      · rw [hsame]
        exact Or.inl
  | @flushes x t' hadded hloggers =>
      refine ⟨rfl, ?_, fun _ => .inr rfl⟩
      by_cases hx : tid = x
      · subst hx
        simp [hloggers]
      · rw [hloggers, Function.update_of_ne hx]
        exact hstays
  | aborts haborting hloggers =>
      rw [hloggers]
      exact ⟨rfl, hstays, Or.inl⟩
  | logThread hloggers =>
      rw [hloggers]
      exact ⟨rfl, hstays, Or.inl⟩

theorem step_sinceFatal
    {s : LoggingProcess ρ} {tid : Nat} {record : ρ}
    {ops : List (LoggingOp ρ)} {t t' : LoggingProcess ρ}
    {op : LoggingOp ρ} (ht : SinceFatal s tid record ops t)
    (hstep : t.step op = some t') :
    SinceFatal s tid record (ops ++ [op]) t' := by
  have hlogs := step_logs ht.inOrder hstep
  obtain ⟨hsilent, hstays, hflushed⟩ := hlogs.move.of_fatal ht.stays
  constructor
  case inOrder =>
    exact hlogs.inOrder
  case puts =>
    rw [hlogs.puts, ht.puts, putsOf_concat, List.append_assoc,
      List.cons_append]
  case outputs =>
    rw [hlogs.outputs, ht.outputs, outputsIn_concat, Nat.add_assoc]
  case silent =>
    rw [putsOf_concat, recordsOf_append, ht.silent, hsilent,
      List.append_nil]
  case stays =>
    exact hstays
  case flushed =>
    intro haborting
    rw [putsOf_concat, List.mem_append]
    rcases hflushed haborting with hold | hnew
    · exact .inl (ht.flushed hold)
    · rw [hnew]
      exact .inr (List.mem_singleton.mpr rfl)

theorem logsFatal_sinceFatal
    {s s₁ : LoggingProcess ρ} (hs : s.g_asynclog.LogInOrder)
    {tid : Nat} {record : ρ}
    (hstep : s.step (.addLog tid record true) = some s₁) :
    SinceFatal s tid record [] s₁ := by
  have hlogs := step_logs hs hstep
  have hloggers :
      s₁.loggers = Function.update s.loggers tid .fatalAdded := by
    cases hlogs.move with
    | logsFatal _ hloggers =>
        exact hloggers
  constructor
  case inOrder =>
    exact hlogs.inOrder
  case puts =>
    exact hlogs.puts
  case outputs =>
    exact hlogs.outputs
  case silent =>
    rfl
  case stays =>
    simp [hloggers]
  case flushed =>
    simp [hloggers]

/-- How many items the log thread has to pass on for the first flush behind the
record: those ahead of the record, the record, and what is put between. -/
def aheadOfFlush
    (s : LoggingProcess ρ) (ops : List (LoggingOp ρ)) : Nat :=
  s.backlog.length + 1 + (putsOf ops).findIdx Option.isNone

/-- The first flush of a list stands where findIdx says. -/
theorem first_flush
    {items : List (Option (Nat × ρ))} (hmem : none ∈ items) :
    ∃ before after, items = before ++ none :: after ∧
      before.length = items.findIdx Option.isNone := by
  induction items with
  | nil =>
      cases hmem
  | cons item items ih =>
      cases item with
      | none =>
          exact ⟨[], items, rfl, rfl⟩
      | some p =>
          have hrest : none ∈ items := by
            simpa using hmem
          obtain ⟨before, after, rfl, hlength⟩ := ih hrest
          refine ⟨some p :: before, after, rfl, ?_⟩
          simp [List.findIdx_cons, hlength]

theorem first_flush_le
    (before after : List (Option (Nat × ρ))) :
    (before ++ none :: after).findIdx Option.isNone ≤ before.length := by
  induction before with
  | nil =>
      simp [List.findIdx_cons]
  | cons item before ih =>
      cases item with
      | none =>
          simp [List.findIdx_cons]
      | some p =>
          simpa [List.findIdx_cons] using ih

/-- Each flush of a list that begins as another one does, before the end of
that, is a flush of both. -/
theorem flush_of_prefix
    {items rest before after : List (Option (Nat × ρ))}
    (hitems : items ++ rest = before ++ none :: after)
    (hlt : before.length < items.length) :
    ∃ after', items = before ++ none :: after' := by
  rcases List.append_eq_append_iff.mp hitems with
    ⟨as, hbefore, _⟩ | ⟨bs, hsplit, hafter⟩
  · have hlength := congrArg List.length hbefore
    rw [List.length_append] at hlength
    omega
  · cases bs with
    | nil =>
        rw [hsplit, List.append_nil] at hlt
        omega
    | cons item bs =>
        obtain ⟨rfl, _⟩ := List.cons.inj hafter
        exact ⟨bs, hsplit⟩

/-- A flush that all records of the thread precede is behind the last one. -/
theorem flush_behind
    {items items' before rest : List (Option (Nat × ρ))}
    {tid : Nat} {record : ρ}
    (hsplit :
      items ++ some (tid, record) :: items' = before ++ none :: rest)
    (hsilent : recordsOf tid items' = [])
    (hall :
      recordsOf tid before =
        recordsOf tid (items ++ some (tid, record) :: items')) :
    ∃ between, before = items ++ some (tid, record) :: between ∧
      items' = between ++ none :: rest := by
  rcases List.append_eq_append_iff.mp hsplit with
    ⟨as, hbefore, hitems'⟩ | ⟨bs, hitems, _⟩
  · cases as with
    | nil =>
        cases hitems'
    | cons item between =>
        obtain ⟨rfl, htail⟩ := List.cons.inj hitems'
        exact ⟨between, hbefore, htail⟩
  · have hcons : recordsOf tid (some (tid, record) :: items') =
        record :: recordsOf tid items' := by
      simp [recordsOf]
    rw [recordsOf_append, hcons, hsilent] at hall
    rw [hitems, recordsOf_append] at hall
    have hlength := congrArg List.length hall
    simp at hlength

/-- A flush behind the FATAL record has been passed on exactly when the log
thread has passed on more than the items ahead of it. -/
theorem SinceFatal.recordsFlushed_iff
    {s : LoggingProcess ρ} (hs : s.g_asynclog.LogInOrder)
    {tid : Nat} {record : ρ} {ops : List (LoggingOp ρ)}
    {t : LoggingProcess ρ} (ht : SinceFatal s tid record ops t)
    (haborting : t.loggers tid = .aborting) :
    t.RecordsFlushed tid ↔ s.aheadOfFlush ops < outputsIn ops := by
  have hcount := ht.outputs
  have horder := ht.inOrder.inOrder
  have hahead :
      s.g_asynclog.puts.length =
        s.g_asynclog.outputs.length + s.backlog.length := by
    rw [hs.inOrder, List.append_assoc, List.length_append]
    rfl
  rw [List.append_assoc] at horder
  constructor
  · rintro ⟨before, after, houtputs, hrecords⟩
    rw [ht.puts] at hrecords horder
    rw [houtputs, List.append_assoc, List.cons_append] at horder
    obtain ⟨between, rfl, hbetween⟩ :=
      flush_behind horder ht.silent hrecords
    have hle := first_flush_le between
      (after ++ (t.g_asynclog.inHand ++ t.g_asynclog.bufferQueue_.queue_))
    rw [← hbetween] at hle
    rw [houtputs] at hcount
    simp only [List.length_append, List.length_cons] at hcount
    unfold aheadOfFlush
    omega
  · intro hlt
    obtain ⟨between, rest, hputs, hlength⟩ :=
      first_flush (ht.flushed haborting)
    have hsilent := ht.silent
    rw [hputs, recordsOf_append] at hsilent
    have hbetween : recordsOf tid between = [] :=
      (List.append_eq_nil_iff.mp hsilent).1
    have hsplit :
        t.g_asynclog.puts =
          (s.g_asynclog.puts ++ some (tid, record) :: between) ++
            none :: rest := by
      rw [ht.puts, hputs, List.append_assoc, List.cons_append]
    obtain ⟨after, hafter⟩ := flush_of_prefix (horder.symm.trans hsplit) (by
      simp only [List.length_append, List.length_cons]
      unfold aheadOfFlush at hlt
      omega)
    refine ⟨_, after, hafter, ?_⟩
    have hrest : recordsOf tid (none :: rest) = [] :=
      (List.append_eq_nil_iff.mp hsilent).2
    rw [hsplit, recordsOf_append tid _ (none :: rest), hrest,
      List.append_nil]

/-- Whatever the threads have logged before, and however they and the log thread
interleave afterwards: at the moment that a thread calls abort() for a FATAL
record, this and all its earlier records have been passed on and flushed exactly
when the log thread has passed on, since the record was put, more items than
there were ahead of the first flush behind it. -/
theorem fatal_written_iff
    {before after : List (LoggingOp ρ)} {s t : LoggingProcess ρ}
    {tid : Nat} {record : ρ}
    (hbefore : run step initial before = some s)
    (hfatal : run step s (.addLog tid record true :: after) = some t)
    (haborting : t.loggers tid = .aborting) :
    t.RecordsFlushed tid ↔ s.aheadOfFlush after < outputsIn after := by
  have hs := reachable_inOrder hbefore
  obtain ⟨s₁, hfirst, hrest⟩ := run_cons_success hfatal
  have ht : SinceFatal s tid record after t :=
    history_of_run (SinceFatal s tid record)
      (fun _ _ _ _ hr hstep => step_sinceFatal hr hstep)
      (logsFatal_sinceFatal hs hfirst) hrest
  exact ht.recordsFlushed_iff hs haborting

end LoggingProcess

end FatalRecord

/-- The log thread passes on the record and the flush before the abort, and also
the record that was ahead of them. -/
theorem fatal_written_in_time :
    ∃ s t : LoggingProcess Nat,
      run LoggingProcess.step LoggingProcess.initial
          [.addLog 1 5 false] = some s ∧
      run LoggingProcess.step s
          [.addLog 1 6 true, .flush 1,
            .logThread .testStop, .logThread .take, .logThread .output,
            .logThread .testStop, .logThread .take, .logThread .output,
            .logThread .testStop, .logThread .take, .logThread .output] =
        some t ∧
      t.loggers 1 = .aborting ∧
      t.RecordsFlushed 1 := by
  obtain ⟨s, hs, hahead⟩ :=
    Option.map_eq_some_iff.mp
      (show (run LoggingProcess.step LoggingProcess.initial
          [.addLog 1 5 false]).map
          (fun s : LoggingProcess Nat => s.backlog.length) = some 1
        by decide +kernel)
  obtain ⟨t, ht, haborting⟩ :=
    Option.map_eq_some_iff.mp
      (show ((run LoggingProcess.step LoggingProcess.initial
          [.addLog 1 5 false]).bind fun s : LoggingProcess Nat =>
          run LoggingProcess.step s
          [.addLog 1 6 true, .flush 1,
            .logThread .testStop, .logThread .take, .logThread .output,
            .logThread .testStop, .logThread .take, .logThread .output,
            .logThread .testStop, .logThread .take,
            .logThread .output]).map
          (fun t : LoggingProcess Nat => t.loggers 1) = some .aborting
        by decide +kernel)
  rw [hs, Option.bind_some] at ht
  refine ⟨s, t, hs, ht, haborting, ?_⟩
  refine (LoggingProcess.fatal_written_iff hs ht haborting).mpr ?_
  rw [LoggingProcess.aheadOfFlush, hahead]
  decide

/-- flush() returns before the log thread has taken anything: the process aborts
with the FATAL record in the queue. -/
theorem fatal_lost_at_abort :
    ∃ t : LoggingProcess Nat,
      run LoggingProcess.step LoggingProcess.initial
          [.addLog 1 6 true, .flush 1] = some t ∧
      (t.step (.abort 1)).isSome = true ∧
      t.g_asynclog.outputs = [] ∧
      ¬ t.RecordsFlushed 1 := by
  obtain ⟨t, ht, hvalues⟩ :=
    Option.map_eq_some_iff.mp
      (show (run LoggingProcess.step LoggingProcess.initial
          [.addLog 1 6 true, .flush 1]).map
          (fun t : LoggingProcess Nat =>
            ((t.step (.abort 1)).isSome, t.g_asynclog.outputs)) =
          some (true, [])
        by decide +kernel)
  obtain ⟨habort, houtputs⟩ := Prod.mk.inj hvalues
  refine ⟨t, ht, habort, houtputs, ?_⟩
  rintro ⟨before, after, hsplit, _⟩
  rw [houtputs] at hsplit
  simp at hsplit

end Hohnor
