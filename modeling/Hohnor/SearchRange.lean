import Hohnor.WriteInterest

/-!
# The range that readUntil searches

readUntil searches the last lastWriteBytes() bytes in front of beginWrite().
`lastWriteBytes_` is set by hasWritten, and so by the part of a read that does
not fit in place, and by unwrite.  A read that fits leaves it, and so do the
operations that take bytes out, shrink and swap.  After an earlier transfer
that was larger than what is readable now, the range starts in front of peek().

The range lies inside the readable bytes exactly as long as, at every read that
fits in place, the old `lastWriteBytes_` is not larger than the bytes left in
the buffer together with the bytes read.
-/

namespace Hohnor

open TransitionRuns

namespace Buffer

theorem Valid.readableBytes_readFd
    {b : Buffer} (hb : b.Valid) (data : Bytes) :
    (b.readFd (.delivers data)).readableBytes =
      b.readableBytes + data.length := by
  rw [← (hb.readFd _).length_readableSlice, hb.readFd_readableSlice,
    List.length_append, hb.length_readableSlice]

theorem lastWriteBytes_readFd_of_le
    {b : Buffer} {data : Bytes}
    (hfit : data.length ≤ b.writableBytes) :
    (b.readFd (.delivers data)).lastWriteBytes = b.lastWriteBytes := by
  rw [readFd_of_le hfit]
  rfl

/-- What a read appends from extrabuf is what the next search covers. -/
theorem lastWriteBytes_readFd_of_gt
    {b : Buffer} {data : Bytes}
    (hspill : b.writableBytes < data.length)
    (hoffered : data.length ≤ b.readFdOffered) :
    (b.readFd (.delivers data)).lastWriteBytes =
      ((data.length - b.writableBytes : Nat) : Int) := by
  have hsmall : data.length - b.writableBytes < 2 ^ 31 := by
    unfold readFdOffered kExtraBufSize at hoffered
    split at hoffered
    · omega
    · omega
  have hlast :
      (b.readFd (.delivers data)).lastWriteBytes_ =
        data.length - b.writableBytes := by
    rw [readFd_of_gt hspill]
    simp only [append, hasWritten, List.length_drop]
    exact sizeOfInt_of_lt hsmall
  rw [lastWriteBytes]
  rw [hlast, if_pos (by omega)]

end Buffer

namespace ConnRun

/-- The loop may dispatch a read event to handleRead here, with `data` for the
kernel to deliver. -/
def AdmitsRead (m : ConnRun) (data : Bytes) : Prop :=
  m.frames = [] ∧
    m.state.dispatchesTo (·.readCallback_) .handleRead = true ∧
    m.state.conn.readBuffer_.admits (.readFd (.delivers data)) = true

/-- At this label handleRead reads the bytes `data` and then tests a stop
condition that readUntil made, whether the search has a result or not. -/
def SearchesAfter (m : ConnRun) (op : ConnOp) (data : Bytes) : Prop :=
  op = .readEvent (.delivers data) ∧ m.AdmitsRead data ∧ data ≠ [] ∧
    ∃ delimiter,
      m.state.conn.readStopCondition_ = some (untilDelimiter delimiter)

/-- The range searched is no longer than the content. -/
def SearchInside (m : ConnRun) (op : ConnOp) : Prop :=
  ∀ data, m.SearchesAfter op data →
    (m.state.conn.readBuffer_.readFd (.delivers data)).lastWriteBytes ≤
      (m.state.conn.readBuffer_.readFd (.delivers data)).readableBytes

/-- The `lastWriteBytes_` that a read in place finds is covered by the bytes
left and the bytes read. -/
def LastWriteCovered (m : ConnRun) (op : ConnOp) : Prop :=
  ∀ data, m.SearchesAfter op data →
    data.length ≤ m.state.conn.readBuffer_.writableBytes →
      m.state.conn.readBuffer_.lastWriteBytes ≤
        m.state.conn.readBuffer_.readableBytes + data.length

/-- A read event brings no more than the kernel was offered. -/
theorem AdmitsRead.offered
    {m : ConnRun} {data : Bytes} (hadmits : m.AdmitsRead data) :
    data.length ≤ m.state.conn.readBuffer_.readFdOffered :=
  of_decide_eq_true hadmits.2.2

theorem searchInside_iff
    {m : ConnRun} (op : ConnOp)
    (hb : m.state.conn.readBuffer_.Valid) :
    m.SearchInside op ↔ m.LastWriteCovered op := by
  constructor
  · intro hinside data hsearches hfit
    have hlast := hinside data hsearches
    rw [Buffer.lastWriteBytes_readFd_of_le hfit,
      hb.readableBytes_readFd] at hlast
    omega
  · intro hcovered data hsearches
    rw [hb.readableBytes_readFd]
    rcases Nat.lt_or_ge m.state.conn.readBuffer_.writableBytes
        data.length with hspill | hfit
    · have hoffered := hsearches.2.1.offered
      rw [Buffer.lastWriteBytes_readFd_of_gt hspill hoffered]
      omega
    · rw [Buffer.lastWriteBytes_readFd_of_le hfit]
      have hlast := hcovered data hsearches hfit
      omega

end ConnRun

namespace ConnState

theorem onHandler_readBuffer
    {op : IOHandler ConnHandlerCallback →
      IOHandler ConnHandlerCallback × List EpollCtl}
    {s s' : ConnState} (hop : s.onHandler op = some s') :
    s'.conn.readBuffer_ = s.conn.readBuffer_ :=
  congrArg ReadView.readBuffer_ (onHandler_readView hop).1

theorem enableIfDisabled_readBuffer
    {s s' : ConnState} (hop : s.enableIfDisabled = some s') :
    s'.conn.readBuffer_ = s.conn.readBuffer_ := by
  unfold enableIfDisabled at hop
  split at hop
  · cases hop
    rfl
  · exact onHandler_readBuffer hop

theorem setWriteEvent_readBuffer
    (s : ConnState) (on : Bool) :
    (s.setWriteEvent on).conn.readBuffer_ = s.conn.readBuffer_ :=
  congrArg ReadView.readBuffer_ (setWriteEvent_readView s on).1

/-- Writing leaves the read buffer alone. -/
theorem readBuffer_kept :
    KeptByWriting fun s : ConnState => s.conn.readBuffer_ where
  issue := fun _ _ => rfl
  accept := fun _ _ => rfl
  setWriting := fun _ _ => rfl
  setWriteBuffer := fun _ _ => rfl
  setWriteEvent := setWriteEvent_readBuffer
  writeComplete := fun _ _ => rfl
  highWaterMark := fun _ _ => rfl
  error := fun _ _ => rfl

theorem handleClose_conn
    (s : ConnState) :
    s.handleClose.conn = s.conn := by
  unfold handleClose
  simp only
  split <;> split <;> rfl

theorem beginWrite_readBuffer
    {r : WriteResult} {message : Bytes} {s : ConnState}
    {out : ConnState × Option CallFrame}
    (hstep : s.beginWrite r message = some out) :
    out.1.conn.readBuffer_ = s.conn.readBuffer_ := by
  rcases readBuffer_kept.beginWrite hstep with
    ⟨_, _, hkeep⟩ | ⟨_, t, ht, henable⟩
  · exact hkeep
  · exact (enableIfDisabled_readBuffer henable).trans ht

theorem writePending_readBuffer
    {s s' : ConnState} (hstep : s.writePending = some s') :
    s'.conn.readBuffer_ = s.conn.readBuffer_ := by
  obtain ⟨t, ht, henable⟩ := readBuffer_kept.writePending hstep
  exact (enableIfDisabled_readBuffer henable).trans ht

theorem appendAndWrite_readBuffer
    {data : Bytes} {s s' : ConnState}
    (hstep : s.appendAndWrite data = some s') :
    s'.conn.readBuffer_ = s.conn.readBuffer_ := by
  obtain ⟨t, ht, henable⟩ := readBuffer_kept.appendAndWrite hstep
  exact (enableIfDisabled_readBuffer henable).trans ht

theorem readRaw_readBuffer
    {s s' : ConnState} (hstep : s.readRaw = some s') :
    s'.conn.readBuffer_ = s.conn.readBuffer_ := by
  have hkeep := enableIfDisabled_readBuffer hstep
  exact hkeep

theorem readUntilCondition_readBuffer
    {condition : ReadStopCondition} {s s' : ConnState}
    (hstep : s.readUntilCondition condition = some s') :
    s'.conn.readBuffer_ = s.conn.readBuffer_ := by
  have hkeep := enableIfDisabled_readBuffer hstep
  exact hkeep

theorem shrinkReadBuffer_valid
    {s : ConnState} (hs : s.conn.readBuffer_.Valid) :
    s.shrinkReadBuffer.conn.readBuffer_.Valid := by
  rw [shrinkReadBuffer]
  split
  · exact (s.conn.readBuffer_.shrink_valid 0).1
  · exact hs

theorem beginRead_valid
    {r : ReadResult} {s : ConnState} (hs : s.conn.readBuffer_.Valid)
    {out : ConnState × Option CallFrame}
    (hstep : s.beginRead r = some out) :
    out.1.conn.readBuffer_.Valid := by
  unfold beginRead at hstep
  split at hstep
  · cases hstep
    rw [handleError_conn]
    exact hs
  · cases hstep
    rw [handleClose_conn]
    exact hs
  · rename_i b data
    obtain ⟨stop, _, rfl⟩ := Option.map_eq_some_iff.mp hstep
    have hvalid := hs.readFd (.delivers (b :: data))
    split
    · exact shrinkReadBuffer_valid hvalid
    · exact hvalid

end ConnState

namespace ConnRun

/-- The read buffer keeps its layout in every step. -/
theorem step_readBuffer_valid
    {m m' : ConnRun} {op : ConnOp}
    (hm : m.state.conn.readBuffer_.Valid)
    (hstep : m.step op = some m') :
    m'.state.conn.readBuffer_.Valid := by
  have hsame :
      m'.state.conn.readBuffer_ = m.state.conn.readBuffer_ →
        m'.state.conn.readBuffer_.Valid := by
    intro heq
    rw [heq]
    exact hm
  have hwrite :
      ∀ r message,
        (m.state.beginWrite r message).map m.enter = some m' →
        m'.state.conn.readBuffer_.Valid := by
    intro r message hwrite
    obtain ⟨out, hout, rfl⟩ := Option.map_eq_some_iff.mp hwrite
    exact hsame (ConnState.beginWrite_readBuffer hout)
  have hset :
      ∀ out : Option ConnState, out.map m.setState = some m' →
        (∀ s, out = some s →
          s.conn.readBuffer_ = m.state.conn.readBuffer_) →
        m'.state.conn.readBuffer_.Valid := by
    intro out hout hkeep
    obtain ⟨s, hs, rfl⟩ := Option.map_eq_some_iff.mp hout
    exact hsame (hkeep s hs)
  cases op with
  | write r message =>
      exact hwrite r message hstep
  | writeBuffer r buffer =>
      simp only [step] at hstep
      split at hstep
      · exact hwrite r _ hstep
      · exact hsame (by cases hstep; rfl)
  | writePending =>
      exact hset _ hstep
        (fun _ hs => ConnState.writePending_readBuffer hs)
  | appendAndWrite data =>
      exact hset _ hstep
        (fun _ hs => ConnState.appendAndWrite_readBuffer hs)
  | readRaw =>
      exact hset _ hstep
        (fun _ hs => ConnState.readRaw_readBuffer hs)
  | readUntil delimiter =>
      exact hset _ hstep
        (fun _ hs => ConnState.readUntilCondition_readBuffer hs)
  | readBytes length =>
      exact hset _ hstep
        (fun _ hs => ConnState.readUntilCondition_readBuffer hs)
  | readUntilCondition condition =>
      exact hset _ hstep
        (fun _ hs => ConnState.readUntilCondition_readBuffer hs)
  | setTCPNoDelay on =>
      exact hsame (by cases hstep; rfl)
  | shutdown =>
      exact hsame (by cases hstep; rfl)
  | forceClose =>
      refine hsame ?_
      cases hstep
      simp only [ConnState.forceClose]
      split
      · rfl
      · rename_i s' hop
        exact ConnState.onHandler_readBuffer hop
  | setHighWaterMarkCallback highWaterMark cb =>
      exact hsame (by cases hstep; rfl)
  | setReadCompleteCallback cb =>
      exact hsame (by cases hstep; rfl)
  | setWriteCompleteCallback cb =>
      exact hsame (by cases hstep; rfl)
  | setCloseCallback cb =>
      exact hsame (by cases hstep; rfl)
  | setErrorCallback cb =>
      exact hsame (by cases hstep; rfl)
  | onReadBuffer op =>
      simp only [step, Option.ite_none_right_eq_some,
        Option.some.injEq] at hstep
      obtain ⟨hadmits, rfl⟩ := hstep
      exact (hm.perform hadmits).1
  | onWriteBuffer op =>
      simp only [step, Option.ite_none_right_eq_some,
        Option.some.injEq] at hstep
      exact hsame (by rw [← hstep.2]; rfl)
  | readEvent r =>
      simp only [step, Option.ite_none_right_eq_some,
        Option.map_eq_some_iff] at hstep
      obtain ⟨_, out, hout, rfl⟩ := hstep
      exact ConnState.beginRead_valid hm hout
  | writeEvent r =>
      simp only [step, Option.ite_none_right_eq_some,
        Option.some.injEq] at hstep
      obtain ⟨_, rfl⟩ := hstep
      exact hsame (ConnState.readBuffer_kept.handleWrite r m.state)
  | closeEvent =>
      simp only [step, Option.ite_none_right_eq_some,
        Option.some.injEq] at hstep
      obtain ⟨_, rfl⟩ := hstep
      exact hsame (by rw [setState, ConnState.handleClose_conn])
  | errorEvent =>
      simp only [step, Option.ite_none_right_eq_some,
        Option.some.injEq] at hstep
      obtain ⟨_, rfl⟩ := hstep
      exact hsame (by rw [setState, ConnState.handleError_conn])
  | runDisable =>
      simp only [step, runDisable, Option.ite_none_right_eq_some,
        Option.map_eq_some_iff] at hstep
      obtain ⟨_, s, hs, rfl⟩ := hstep
      exact hsame (ConnState.onHandler_readBuffer hs)
  | finishCall =>
      simp only [step, finishCall] at hstep
      split at hstep
      · cases hstep
      · rename_i frame frames _
        obtain ⟨s, hs, rfl⟩ := Option.map_eq_some_iff.mp hstep
        cases frame with
        | writeRest rest =>
            refine hsame ?_
            simp only
            rw [ConnState.enableIfDisabled_readBuffer hs,
              ConnState.readBuffer_kept.bufferRest]
        | readTail =>
            cases hs
            exact ConnState.shrinkReadBuffer_valid hm

theorem start_readBuffer_valid
    (handler : IOHandler ConnHandlerCallback) (quit : Bool) :
    (start handler quit).state.conn.readBuffer_.Valid := by
  have hview := (ConnState.create_readView handler quit).1
  have hbuffer := congrArg ReadView.readBuffer_ hview
  simp only [ConnState.readView] at hbuffer
  rw [start, hbuffer]
  exact Buffer.ofSize_valid kInitialSize

/-- readUntil arms its condition. -/
theorem step_readUntil_armed
    {m m' : ConnRun} {delimiter : Bytes}
    (hstep : m.step (.readUntil delimiter) = some m') :
    m'.state.conn.readStopCondition_ = some (untilDelimiter delimiter) := by
  obtain ⟨s, hs, rfl⟩ := Option.map_eq_some_iff.mp hstep
  have hopen := (ConnState.readUntilCondition_statusView hs).1
  obtain ⟨s', hs', hview, _⟩ :=
    @ConnState.enableIfDisabled_readView
      (m.state.setReadStopCondition (some (untilDelimiter delimiter)))
      hopen
  cases hs.symm.trans hs'
  exact congrArg ReadView.readStopCondition_ hview

/-- A step on a read event was admitted. -/
theorem admitsRead_of_step
    {m m' : ConnRun} {data : Bytes}
    (hstep : m.step (.readEvent (.delivers data)) = some m') :
    m.AdmitsRead data := by
  simp only [step, Option.ite_none_right_eq_some] at hstep
  exact hstep.1

/-- A read brings three bytes, and the consumer gives one back and takes the
other two.  The next read brings one byte, and readUntil searches two. -/
theorem search_starts_before_peek :
    ∃ m m',
      run step (start (.create 5) false)
          [.setReadCompleteCallback (some 1), .readRaw,
            .readEvent (.delivers [1, 2, 3]), .onReadBuffer (.unwrite 1),
            .onReadBuffer .retrieveAll, .finishCall, .readUntil [10]] =
        some m ∧
      m.step (.readEvent (.delivers [4])) = some m' ∧
      m'.state.conn.readBuffer_.lastWriteBytes = 2 ∧
      m'.state.conn.readBuffer_.readableBytes = 1 ∧
      ¬ m.SearchInside (.readEvent (.delivers [4])) := by
  obtain ⟨m₀, hrun₀, hview⟩ :=
    Option.map_eq_some_iff.mp
      (show (run step (start (.create 5) false)
          [.setReadCompleteCallback (some 1), .readRaw,
            .readEvent (.delivers [1, 2, 3]), .onReadBuffer (.unwrite 1),
            .onReadBuffer .retrieveAll, .finishCall]).map
            (fun m => (m.step (.readUntil [10])).map
              (fun m => ((m.state.conn.readBuffer_.readFd
                  (.delivers [4])).lastWriteBytes,
                (m.state.conn.readBuffer_.readFd
                  (.delivers [4])).readableBytes,
                (m.step (.readEvent (.delivers [4]))).map
                  (fun m => (m.state.conn.readBuffer_.lastWriteBytes,
                    m.state.conn.readBuffer_.readableBytes))))) =
          some (some (2, 1, some (2, 1)))
        by decide +kernel)
  obtain ⟨m, hm, hview⟩ := Option.map_eq_some_iff.mp hview
  obtain ⟨hlast, hrest⟩ := Prod.mk.inj hview
  obtain ⟨hreadable, hnext⟩ := Prod.mk.inj hrest
  obtain ⟨m', hm', hfinal⟩ := Option.map_eq_some_iff.mp hnext
  obtain ⟨hlast', hreadable'⟩ := Prod.mk.inj hfinal
  have hrun :
      run step (start (.create 5) false)
          [.setReadCompleteCallback (some 1), .readRaw,
            .readEvent (.delivers [1, 2, 3]), .onReadBuffer (.unwrite 1),
            .onReadBuffer .retrieveAll, .finishCall, .readUntil [10]] =
        some m := by
    have happend :=
      run_append step (start (.create 5) false)
        [.setReadCompleteCallback (some 1), .readRaw,
          .readEvent (.delivers [1, 2, 3]), .onReadBuffer (.unwrite 1),
          .onReadBuffer .retrieveAll, .finishCall] [.readUntil [10]]
    rw [hrun₀, Option.bind_some, run_cons, hm] at happend
    exact happend
  refine ⟨m, m', hrun, hm', hlast', hreadable', ?_⟩
  intro hinside
  have hsearches :
      m.SearchesAfter (.readEvent (.delivers [4])) [4] :=
    ⟨rfl, admitsRead_of_step hm', by simp, [10],
      step_readUntil_armed hm⟩
  have hle := hinside [4] hsearches
  rw [hlast, hreadable] at hle
  omega

/-- In every run of a connection, each search of readUntil stays inside the
readable bytes exactly when each read in place finds a `lastWriteBytes_` that
the bytes left and the bytes read cover.  The search that would leave the
storage is one of them, although the run has no step for it. -/
theorem search_inside_iff
    (handler : IOHandler ConnHandlerCallback) (quit : Bool)
    (ops : List ConnOp) :
    Along step (fun m op => m.SearchInside op)
        (start handler quit) ops ↔
      Along step (fun m op => m.LastWriteCovered op)
        (start handler quit) ops :=
  along_iff
    (fun m => m.state.conn.readBuffer_.Valid)
    (fun _ op hm _ _ => searchInside_iff op hm)
    (fun _ _ _ hm _ hstep => step_readBuffer_valid hm hstep)
    (start_readBuffer_valid handler quit) (fun _ _ => trivial)
    (along_true step (start handler quit) ops)

end ConnRun

end Hohnor
