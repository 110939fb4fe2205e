import Hohnor.ClosedConnection
import Hohnor.ReentrantWrite

/-!
# Write interest

Three pieces of state say that a connection has output waiting: the bytes in
`writeBuffer_`, EPOLLOUT in the events of the handler, and `writing_`.
writeInLoop and handleWrite move them together.  The argument-less write() only
asks for writable events, and handleWrite does nothing without `writing_`, so
bytes that were appended by hand stay where they are while the loop spins,
until the next data-carrying write takes them along.

EPOLLOUT and the backlog agree, and writable events make progress, exactly as
long as the bytes handed to the argument-less write() are not none and each
writable event finds `writing_` set or nothing to write.
-/

namespace Hohnor

open TransitionRuns

namespace TCPConnection

/-- The handler is enabled. -/
def enabled (c : TCPConnection) : Bool :=
  match c.socketHandler_ with
  | none => false
  | some h => h.isEnabled

/-- EPOLLOUT is in the handler's events. -/
def asksForOutput (c : TCPConnection) : Bool :=
  match c.socketHandler_ with
  | none => false
  | some h => h.events_.EPOLLOUT

/-- The readable bytes of the write buffer. -/
def backlog (c : TCPConnection) : Bytes :=
  c.writeBuffer_.readableSlice

/-- The three pieces of state in step.  EPOLLOUT may be ahead of the backlog
only while a write call waits to add to it (`waiting`). -/
structure InStep (c : TCPConnection) (waiting : Bool) : Prop where
  enabled : c.enabled = true
  valid : c.writeBuffer_.Valid
  backlog_of_writing : c.writing_ = true → c.backlog ≠ []
  asks_of_backlog : c.backlog ≠ [] → c.asksForOutput = true
  backlog_of_asks :
    c.asksForOutput = true → c.backlog ≠ [] ∨ waiting = true

theorem InStep.weaken
    {c : TCPConnection} {waiting : Bool} (hc : c.InStep false) :
    c.InStep waiting := by
  refine ⟨hc.enabled, hc.valid, hc.backlog_of_writing,
    hc.asks_of_backlog, ?_⟩
  intro hasks
  rcases hc.backlog_of_asks hasks with hback | hfalse
  · exact Or.inl hback
  · cases hfalse

end TCPConnection

namespace IOHandler

/-- Setting the write event changes the bit and not the status. -/
theorem setWriteEvent_bit
    {κ : Type} (h : IOHandler κ) (on : Bool) :
    (h.setWriteEvent on).1.events_.EPOLLOUT = on ∧
    (h.setWriteEvent on).1.isEnabled = h.isEnabled := by
  rw [setWriteEvent, setEvents]
  by_cases hon : h.status_ = .Enabled
  · simp [isEnabled, updateInLoop, updateIOHandler, hon]
  · simp [isEnabled, hon]

/-- Enabling changes the status and not the events. -/
theorem enable_events
    {κ : Type} (h : IOHandler κ) :
    h.enable.1.events_ = h.events_ ∧ h.enable.1.isEnabled = true := by
  rw [enable, update]
  cases hst : h.status_ with
  | Created => simp [updateInLoop, isEnabled]
  | Enabled => simp [updateInLoop, isEnabled]
  | Disabled => simp [updateInLoop, isEnabled]

end IOHandler

namespace ConnState

theorem setWriteEvent_conn_of_some
    {s : ConnState} {h : IOHandler ConnHandlerCallback}
    (hh : s.conn.socketHandler_ = some h) (on : Bool) :
    (s.setWriteEvent on).conn =
      { s.conn with socketHandler_ := some (h.setWriteEvent on).1 } := by
  simp [setWriteEvent, onHandler, addEvents, hh]

/-- The write side of the connection after its write event has been set. -/
theorem setWriteEvent_conn
    {s : ConnState} (henabled : s.conn.enabled = true) (on : Bool) :
    ∃ h, (s.setWriteEvent on).conn =
        { s.conn with socketHandler_ := some h } ∧
      h.isEnabled = true ∧ h.events_.EPOLLOUT = on := by
  unfold TCPConnection.enabled at henabled
  cases hh : s.conn.socketHandler_ with
  | none =>
      simp [hh] at henabled
  | some h =>
      simp only [hh] at henabled
      obtain ⟨hbit, hsame⟩ := h.setWriteEvent_bit on
      exact ⟨(h.setWriteEvent on).1, setWriteEvent_conn_of_some hh on,
        hsame.trans henabled, hbit⟩

theorem enableIfDisabled_of_enabled
    {s : ConnState} (henabled : s.conn.enabled = true) :
    s.enableIfDisabled = some s := by
  have hon : s.isEnabled = true := henabled
  rw [enableIfDisabled]
  rw [if_pos hon]

theorem isClosed_of_enabled
    {s : ConnState} (henabled : s.conn.enabled = true) :
    s.isClosed = false := by
  unfold TCPConnection.enabled at henabled
  cases hh : s.conn.socketHandler_ with
  | none =>
      simp [hh] at henabled
  | some h =>
      simp [isClosed, hh]

/-- The tail of writeInLoop brings the three pieces in step, also from where
EPOLLOUT was ahead. -/
theorem bufferRest_inStep
    {s : ConnState} {waiting : Bool}
    (hs : s.conn.InStep waiting)
    {rest : Bytes} (hrest : rest ≠ []) :
    (s.bufferRest rest).conn.InStep false := by
  have hvalid := hs.valid.append rest
  have hslice := hs.valid.append_readableSlice rest
  have hback : (s.conn.writeBuffer_.append rest).readableSlice ≠ [] := by
    rw [hslice]
    simp [hrest]
  rw [bufferRest]
  generalize ht :
    s.setWriteBuffer (s.conn.writeBuffer_.append rest) = t
  have hconn :
      t.conn =
        { s.conn with
          writeBuffer_ := s.conn.writeBuffer_.append rest } := by
    rw [← ht]
    rfl
  have henabled : t.conn.enabled = true := by
    rw [hconn]
    exact hs.enabled
  rw [startWriting]
  by_cases hwriting : t.conn.writing_ = true
  · rw [if_pos hwriting]
    rw [hconn] at hwriting ⊢
    have hasks := hs.asks_of_backlog (hs.backlog_of_writing hwriting)
    exact ⟨hs.enabled, hvalid, fun _ => hback, fun _ => hasks,
      fun _ => Or.inl hback⟩
  · rw [if_neg hwriting]
    obtain ⟨h, hevent, hon, hbit⟩ := setWriteEvent_conn henabled true
    simp only [setWriting, hevent, hconn]
    exact ⟨hon, hvalid, fun _ => hback, fun _ => hbit,
      fun _ => Or.inl hback⟩

theorem beginWrite_inStep
    {s : ConnState} {waiting : Bool}
    (hs : s.conn.InStep waiting)
    {r : WriteResult} {message : Bytes}
    {out : ConnState × Option CallFrame}
    (hstep : s.beginWrite r message = some out) :
    (out.2 = none ∧ out.1.conn.InStep waiting) ∨
    ∃ rest, out.2 = some (.writeRest rest) ∧ rest ≠ [] ∧
      out.1.conn.InStep true := by
  have hdirect :
      ((s.issue message).directWrite r message).after.conn = s.conn :=
    directWrite_conn r message (s.issue message)
  unfold beginWrite at hstep
  rw [if_neg (by simp [isClosed_of_enabled hs.enabled])] at hstep
  generalize (s.issue message).directWrite r message = d
    at hstep hdirect
  have hd : d.after.conn.InStep waiting := by
    rw [hdirect]
    exact hs
  simp only at hstep
  split at hstep
  · cases hstep
  · split at hstep
    · rename_i hleft
      have hrest : message.drop d.nwrote ≠ [] := by
        intro hnil
        have hlen := congrArg List.length hnil
        rw [List.length_drop] at hlen
        simp at hlen
        omega
      split at hstep
      · have hbuffered := bufferRest_inStep hd hrest
        rw [enableIfDisabled_of_enabled hbuffered.enabled] at hstep
        cases hstep
        exact Or.inl ⟨rfl, hbuffered.weaken⟩
      · cases hstep
        refine Or.inr ⟨_, rfl, hrest, ?_⟩
        exact ⟨hd.enabled, hd.valid, hd.backlog_of_writing,
          hd.asks_of_backlog, fun _ => Or.inr rfl⟩
    · rw [enableIfDisabled_of_enabled hd.enabled] at hstep
      cases hstep
      exact Or.inl ⟨rfl, hd⟩

/-- Bytes appended by hand and then write(): EPOLLOUT is set, `writing_` is
left. -/
theorem appendAndWrite_eq
    {s : ConnState} (henabled : s.conn.enabled = true) (data : Bytes) :
    s.appendAndWrite data =
      some
        ((s.setWriteBuffer
          (s.conn.writeBuffer_.append data)).setWriteEvent true) := by
  generalize ht :
    s.setWriteBuffer (s.conn.writeBuffer_.append data) = t
  have hon : t.conn.enabled = true := by
    rw [← ht]
    exact henabled
  have hopen := isClosed_of_enabled hon
  obtain ⟨t', ht'⟩ :=
    onHandler_isSome (fun h => h.setWriteEvent true) hopen
  have hevent : t.setWriteEvent true = t' := by
    rw [setWriteEvent]
    rw [ht']
  obtain ⟨h, hconn, henabled', _⟩ := setWriteEvent_conn hon true
  rw [appendAndWrite, writePending]
  rw [ht, if_neg (by simp [hopen]), ht', Option.bind_some, hevent]
  refine enableIfDisabled_of_enabled ?_
  rw [← hevent, hconn]
  exact henabled'

theorem appendAndWrite_inStep
    {s s' : ConnState} {waiting : Bool}
    (hs : s.conn.InStep waiting) {data : Bytes}
    (hsome : s.conn.backlog ++ data ≠ [] ∨ waiting = true)
    (hstep : s.appendAndWrite data = some s') :
    s'.conn.InStep waiting := by
  rw [appendAndWrite_eq hs.enabled] at hstep
  cases hstep
  have hvalid := hs.valid.append data
  have hslice := hs.valid.append_readableSlice data
  generalize ht :
    s.setWriteBuffer (s.conn.writeBuffer_.append data) = t
  have hconn :
      t.conn =
        { s.conn with
          writeBuffer_ := s.conn.writeBuffer_.append data } := by
    rw [← ht]
    rfl
  have hon : t.conn.enabled = true := by
    rw [hconn]
    exact hs.enabled
  obtain ⟨h, hevent, henabled, hbit⟩ := setWriteEvent_conn hon true
  rw [hevent, hconn]
  refine ⟨henabled, hvalid, ?_, fun _ => hbit, ?_⟩
  · intro hwriting hnil
    have hbacklog := hs.backlog_of_writing hwriting
    rw [TCPConnection.backlog, hslice] at hnil
    exact hbacklog (List.append_eq_nil_iff.mp hnil).1
  · intro _
    rcases hsome with hsome | hwaiting
    · rw [TCPConnection.backlog, hslice]
      exact Or.inl hsome
    · exact Or.inr hwaiting

theorem handleError_conn
    (s : ConnState) :
    s.handleError.conn = s.conn := by
  rw [handleError]
  split <;> rfl

/-- Shrinking replaces the storage and keeps the content. -/
theorem shrinkWriteBuffer_conn
    (s : ConnState) :
    ∃ b : Buffer,
      s.shrinkWriteBuffer.conn = { s.conn with writeBuffer_ := b } ∧
      (s.conn.writeBuffer_.Valid → b.Valid) ∧
      b.readableSlice = s.conn.backlog := by
  rw [shrinkWriteBuffer]
  split
  · obtain ⟨hvalid, hslice⟩ := s.conn.writeBuffer_.shrink_valid 0
    exact ⟨_, rfl, fun _ => hvalid, hslice⟩
  · exact ⟨s.conn.writeBuffer_, rfl, id, rfl⟩

theorem finishWriting_inStep
    {s : ConnState}
    (henabled : s.conn.enabled = true)
    (hvalid : s.conn.writeBuffer_.Valid)
    (hempty : s.conn.backlog = []) :
    s.finishWriting.conn.InStep false := by
  obtain ⟨h, hevent, hon, hbit⟩ := setWriteEvent_conn henabled false
  generalize ht :
    ((s.setWriteEvent false).setWriting false).queueWriteComplete = t
  have hconn :
      t.conn =
        { s.conn with socketHandler_ := some h, writing_ := false } := by
    rw [← ht, queueWriteComplete_conn]
    simp only [setWriting, hevent]
  obtain ⟨b, hshrunk, hvalid', hslice⟩ := shrinkWriteBuffer_conn t
  have hnil : b.readableSlice = [] := by
    rw [hslice, hconn]
    exact hempty
  rw [finishWriting]
  rw [ht, hshrunk, hconn]
  refine ⟨hon, hvalid' (by rw [hconn]; exact hvalid), ?_, ?_, ?_⟩
  · intro hwriting
    cases hwriting
  · intro hback
    exact absurd hnil hback
  · intro hasks
    have hbit' : h.events_.EPOLLOUT = true := hasks
    rw [hbit] at hbit'
    cases hbit'

theorem drained_inStep
    {s : ConnState} (hs : s.conn.InStep false) (n : Nat) :
    (s.drained n).conn.InStep false := by
  have hvalid := hs.valid.retrieve n
  have hnil := hvalid.readableSlice_eq_nil_iff
  rw [drained]
  by_cases hempty : (s.retrieveWritten n).conn.writeBuffer_.readableBytes = 0
  · rw [if_pos hempty]
    exact finishWriting_inStep hs.enabled hvalid (hnil.mpr hempty)
  · rw [if_neg hempty]
    have hback : (s.retrieveWritten n).conn.backlog ≠ [] :=
      fun heq => hempty (hnil.mp heq)
    have hbefore : s.conn.backlog ≠ [] := by
      intro heq
      refine hback ?_
      have hslice := hs.valid.retrieve_readableSlice n
      rw [TCPConnection.backlog] at heq
      rw [heq, List.drop_nil] at hslice
      exact hslice
    have hasks := hs.asks_of_backlog hbefore
    exact ⟨hs.enabled, hvalid, fun _ => hback, fun _ => hasks,
      fun _ => Or.inl hback⟩

/-- A write event brings the backlog down and takes EPOLLOUT away with the last
byte. -/
theorem handleWrite_inStep
    {s : ConnState} (hs : s.conn.InStep false) (r : WriteResult) :
    (s.handleWrite r).conn.InStep false := by
  rw [handleWrite]
  split
  · split
    · split
      · exact drained_inStep hs _
      · rw [handleError_conn]
        exact hs
    · rw [handleError_conn]
      exact hs
  · exact hs

theorem finishWriting_sent
    (s : ConnState) :
    s.finishWriting.sent = s.sent := by
  have hshrink : ∀ t : ConnState, t.shrinkWriteBuffer.sent = t.sent := by
    intro t
    rw [shrinkWriteBuffer]
    split <;> rfl
  have hqueue :=
    congrArg OutputView.sent
      (queueWriteComplete_outputView
        ((s.setWriteEvent false).setWriting false))
  have hevent :=
    congrArg OutputView.sent (setWriteEvent_outputView s false)
  rw [finishWriting]
  rw [hshrink]
  exact hqueue.trans hevent

theorem drained_sent
    (s : ConnState) (n : Nat) :
    (s.drained n).sent = s.sent ++ s.conn.backlog.take n := by
  rw [drained]
  split
  · rw [finishWriting_sent]
    rfl
  · rfl

/-- Whatever number of bytes the kernel takes in a write event, they are the
first ones of the write buffer. -/
def PassesFront (s : ConnState) : Prop :=
  s.conn.backlog ≠ [] →
    ∀ n, (s.handleWrite (.takes n)).sent =
      s.sent ++ s.conn.backlog.take n

theorem passesFront_iff
    (s : ConnState) :
    s.PassesFront ↔ s.conn.writing_ = true ∨ s.conn.backlog = [] := by
  constructor
  · intro hpasses
    by_cases hwriting : s.conn.writing_ = true
    · exact Or.inl hwriting
    · right
      by_contra hback
      -- without `writing_` nothing is sent, and one byte would have been
      have hone := hpasses hback 1
      have hsame : s.handleWrite (.takes 1) = s := by
        rw [handleWrite]
        rw [if_neg hwriting]
      rw [hsame] at hone
      have hnil : s.conn.backlog.take 1 = [] :=
        List.append_right_eq_self.mp hone.symm
      cases hlist : s.conn.backlog with
      | nil =>
          exact hback hlist
      | cons b bs =>
          simp [hlist] at hnil
  · rintro (hwriting | hempty) hback n
    · rw [handleWrite]
      rw [if_pos hwriting]
      simp only [WriteResult.returns]
      have htake :
          s.conn.backlog.take (min n s.conn.backlog.length) =
            s.conn.backlog.take n := by
        rw [← List.take_eq_take_min]
      split
      · rw [drained_sent]
        rw [← htake]
        rfl
      · rename_i hzero
        have hn : n = 0 := by
          have hpos := List.length_pos_of_ne_nil hback
          have hpos' : 0 < s.conn.writeBuffer_.readableSlice.length :=
            hpos
          omega
        have herror : s.handleError.sent = s.sent := by
          rw [handleError]
          split <;> rfl
        rw [herror, hn]
        simp
    · exact absurd hempty hback

end ConnState

/-- What the output side is driven with: data-carrying writes, appends with the
argument-less write(), writable events, and the return of a high-water-mark
callback. -/
def ConnOp.isOutput : ConnOp → Bool
  | .write _ _ => true
  | .writeBuffer _ _ => true
  | .appendAndWrite _ => true
  | .writeEvent _ => true
  | .finishCall => true
  | _ => false

namespace ConnRun

/-- When control returns to the loop EPOLLOUT is asked for exactly if bytes
wait, and a write event passes the front of the write buffer on. -/
structure InterestAgrees (m : ConnRun) (op : ConnOp) (m' : ConnRun) :
    Prop where
  asks_iff :
    m'.frames = [] →
      (m'.state.conn.asksForOutput = true ↔
        m'.state.conn.backlog ≠ [])
  passes : ∀ r, op = .writeEvent r → m.state.PassesFront

/-- The argument-less write() has bytes to ask for, and a write event finds
`writing_` set or nothing to write. -/
structure InterestNeeded (m : ConnRun) (op : ConnOp) : Prop where
  appended :
    ∀ data, op = .appendAndWrite data → m.frames = [] →
      m.state.conn.backlog ++ data ≠ []
  writing :
    ∀ r, op = .writeEvent r →
      m.state.conn.writing_ = true ∨ m.state.conn.backlog = []

/-- The connection is in step, and every waiting write has bytes to add. -/
structure OutputInStep (m : ConnRun) : Prop where
  inStep : m.state.conn.InStep !m.frames.isEmpty
  rests : ∀ frame ∈ m.frames, ∃ rest, frame = .writeRest rest ∧ rest ≠ []

theorem OutputInStep.asks_iff
    {m : ConnRun} (hm : m.OutputInStep) (hframes : m.frames = []) :
    m.state.conn.asksForOutput = true ↔ m.state.conn.backlog ≠ [] := by
  have hinStep := hm.inStep
  rw [hframes] at hinStep
  constructor
  · intro hasks
    rcases hinStep.backlog_of_asks hasks with hback | hfalse
    · exact hback
    · cases hfalse
  · exact hinStep.asks_of_backlog

theorem OutputInStep.enter
    {m m' : ConnRun} (hm : m.OutputInStep)
    {r : WriteResult} {message : Bytes}
    (hstep : (m.state.beginWrite r message).map m.enter = some m') :
    m'.OutputInStep := by
  rw [Option.map_eq_some_iff] at hstep
  obtain ⟨out, hout, rfl⟩ := hstep
  rcases ConnState.beginWrite_inStep hm.inStep hout with
    ⟨hnone, hinStep⟩ | ⟨rest, hframe, hrest, hinStep⟩
  · refine ⟨?_, ?_⟩
    · simpa [ConnRun.enter, hnone] using hinStep
    · simpa [ConnRun.enter, hnone] using hm.rests
  · refine ⟨?_, ?_⟩
    · simpa [ConnRun.enter, hframe] using hinStep
    · intro frame hmem
      simp only [ConnRun.enter, hframe, Option.toList_some,
        List.cons_append, List.nil_append, List.mem_cons] at hmem
      rcases hmem with rfl | hold
      · exact ⟨rest, rfl, hrest⟩
      · exact hm.rests frame hold

theorem OutputInStep.finishCall
    {m m' : ConnRun} (hm : m.OutputInStep)
    (hstep : m.finishCall = some m') :
    m'.OutputInStep := by
  unfold ConnRun.finishCall at hstep
  split at hstep
  · cases hstep
  · rename_i frame frames hframes
    rw [Option.map_eq_some_iff] at hstep
    obtain ⟨s, hs, rfl⟩ := hstep
    have hrests := hm.rests
    rw [hframes] at hrests
    obtain ⟨rest, rfl, hrest⟩ := hrests frame (List.mem_cons_self ..)
    have hbuffered := ConnState.bufferRest_inStep hm.inStep hrest
    have hsame :=
      ConnState.enableIfDisabled_of_enabled hbuffered.enabled
    cases hsame.symm.trans hs
    exact ⟨hbuffered.weaken,
      fun f hf => hrests f (List.mem_cons_of_mem _ hf)⟩

/-- Under the condition every step keeps the connection in step. -/
theorem OutputInStep.step
    {m m' : ConnRun} (hm : m.OutputInStep)
    {op : ConnOp} (hop : op.isOutput = true)
    (hneeded : m.InterestNeeded op) (hstep : m.step op = some m') :
    m'.OutputInStep := by
  cases op with
  | write r message =>
      exact hm.enter hstep
  | writeBuffer r buffer =>
      simp only [ConnRun.step] at hstep
      split at hstep
      · exact hm.enter hstep
      · cases hstep
        exact hm
  | appendAndWrite data =>
      simp only [ConnRun.step, Option.map_eq_some_iff] at hstep
      obtain ⟨s, hs, rfl⟩ := hstep
      have hsome :
          m.state.conn.backlog ++ data ≠ [] ∨
            (!m.frames.isEmpty) = true := by
        cases hframes : m.frames with
        | nil =>
            exact Or.inl (hneeded.appended data rfl hframes)
        | cons frame frames =>
            exact Or.inr rfl
      exact ⟨ConnState.appendAndWrite_inStep hm.inStep hsome hs, hm.rests⟩
  | writeEvent r =>
      simp only [ConnRun.step, Option.ite_none_right_eq_some,
        Option.some.injEq] at hstep
      obtain ⟨⟨hframes, _⟩, rfl⟩ := hstep
      have hinStep := hm.inStep
      rw [hframes] at hinStep
      refine ⟨?_, hm.rests⟩
      exact (ConnState.handleWrite_inStep hinStep r).weaken
  | finishCall =>
      exact hm.finishCall hstep
  | _ =>
      cases hop

/-- A step that has its outcome agree met the condition. -/
theorem interestNeeded_of_agrees
    {m m' : ConnRun} (hm : m.OutputInStep) {op : ConnOp}
    (hstep : m.step op = some m') (hagrees : InterestAgrees m op m') :
    m.InterestNeeded op := by
  refine ⟨?_, ?_⟩
  · rintro data rfl hframes
    simp only [ConnRun.step, Option.map_eq_some_iff] at hstep
    obtain ⟨s, hs, rfl⟩ := hstep
    rw [ConnState.appendAndWrite_eq hm.inStep.enabled] at hs
    cases hs
    have hon :
        (m.state.setWriteBuffer
          (m.state.conn.writeBuffer_.append data)).conn.enabled = true :=
      hm.inStep.enabled
    obtain ⟨h, hconn, _, hbit⟩ := ConnState.setWriteEvent_conn hon true
    have hasks :
        ((m.state.setWriteBuffer
          (m.state.conn.writeBuffer_.append data)).setWriteEvent
            true).conn.asksForOutput = true := by
      rw [hconn]
      exact hbit
    have hback := (hagrees.asks_iff hframes).mp hasks
    rw [setState, hconn] at hback
    have hslice := hm.inStep.valid.append_readableSlice data
    intro hnil
    exact hback (hslice.trans hnil)
  · intro r hop
    exact (ConnState.passesFront_iff m.state).mp (hagrees.passes r hop)

/-- An enabled connection that has nothing to write is in step. -/
theorem inStep_of_idle
    {c : TCPConnection} {h : IOHandler ConnHandlerCallback}
    (hh : c.socketHandler_ = some h)
    (hon : h.isEnabled = true) (hoff : h.events_.EPOLLOUT = false)
    (hwriting : c.writing_ = false) (hbuffer : c.writeBuffer_ = .empty) :
    c.InStep false := by
  have hvalid : c.writeBuffer_.Valid := by
    rw [hbuffer]
    exact Buffer.ofSize_valid kInitialSize
  have hempty : c.backlog = [] := by
    rw [TCPConnection.backlog, hbuffer]
    exact Buffer.ofSize_readableSlice kInitialSize
  refine ⟨?_, hvalid, ?_, ?_, ?_⟩
  · simpa [TCPConnection.enabled, hh] using hon
  · simp [hwriting]
  · simp [hempty]
  · simp [TCPConnection.asksForOutput, hh, hoff]

/-- A new connection that reads is in step. -/
theorem outputInStep_of_new
    {handler : IOHandler ConnHandlerCallback} {quit : Bool} {m : ConnRun}
    (hstep : (start handler quit).step .readRaw = some m) :
    m.OutputInStep := by
  obtain ⟨s, hs, rfl⟩ := Option.map_eq_some_iff.mp hstep
  obtain ⟨h, hh, hoff⟩ :
      ∃ h, (start handler quit).state.conn.socketHandler_ = some h ∧
        h.events_.EPOLLOUT = false :=
    ⟨_, rfl, (IOHandler.setWriteEvent_bit _ false).1⟩
  refine ⟨?_, by simp [setState, start]⟩
  simp only [ConnState.readRaw] at hs
  generalize ht :
    (start handler quit).state.setReadStopCondition none = t at hs
  have hth : t.conn.socketHandler_ = some h := by
    rw [← ht]
    exact hh
  have hwriting : t.conn.writing_ = false := by
    rw [← ht]
    rfl
  have hbuffer : t.conn.writeBuffer_ = .empty := by
    rw [← ht]
    rfl
  unfold ConnState.enableIfDisabled at hs
  split at hs
  · rename_i hon
    cases hs
    have hon' : h.isEnabled = true := by
      simpa [ConnState.isEnabled, hth] using hon
    exact inStep_of_idle hth hon' hoff hwriting hbuffer
  · obtain ⟨hevents, hon⟩ := h.enable_events
    simp only [ConnState.onHandler, hth, Option.some.injEq] at hs
    subst hs
    refine inStep_of_idle rfl hon ?_ hwriting hbuffer
    rw [hevents]
    exact hoff

/-- Bytes that were appended by hand are not sent by the writable event that
write() asked for. -/
theorem appended_bytes_stay :
    ∃ m m',
      run step (start (.create 5) false)
          [.readRaw, .appendAndWrite [1]] = some m ∧
      m.step (.writeEvent (.takes 1)) = some m' ∧
      m'.state.sent = [] ∧ m'.state.conn.backlog = [1] ∧
      m'.state.conn.asksForOutput = true ∧
      ¬ InterestAgrees m (.writeEvent (.takes 1)) m' := by
  obtain ⟨m', hrun', hview'⟩ :=
    Option.map_eq_some_iff.mp
      (show (run step (start (.create 5) false)
          [.readRaw, .appendAndWrite [1],
            .writeEvent (.takes 1)]).map
            (fun m => (m.state.sent, m.state.conn.backlog,
              m.state.conn.asksForOutput)) = some ([], [1], true)
        by decide +kernel)
  obtain ⟨m, hrun, hview⟩ :=
    Option.map_eq_some_iff.mp
      (show (run step (start (.create 5) false)
          [.readRaw, .appendAndWrite [1]]).map
            (fun m => (m.state.conn.writing_, m.state.conn.backlog)) =
          some (false, [1])
        by decide +kernel)
  obtain ⟨hsent, hrest⟩ := Prod.mk.inj hview'
  obtain ⟨hback', hasks⟩ := Prod.mk.inj hrest
  obtain ⟨hwriting, hback⟩ := Prod.mk.inj hview
  have hstep : m.step (.writeEvent (.takes 1)) = some m' := by
    have happend :=
      run_append step (start (.create 5) false)
        [.readRaw, .appendAndWrite [1]] [.writeEvent (.takes 1)]
    rw [hrun, Option.bind_some] at happend
    obtain ⟨n, hn, hlast⟩ :=
      run_cons_success (happend.symm.trans hrun')
    cases hlast
    exact hn
  refine ⟨m, m', hrun, hstep, hsent, hback', hasks, ?_⟩
  intro hagrees
  rcases (ConnState.passesFront_iff m.state).mp (hagrees.passes _ rfl) with
    hon | hnil
  · rw [hwriting] at hon
    cases hon
  · rw [hback] at hnil
    cases hnil

/-- Along every sequence of writes and writable events on an open enabled
connection, EPOLLOUT agrees with the backlog whenever control returns to the
loop and writable events make progress, exactly when the argument-less write()
has bytes to ask for and each writable event finds `writing_` set or nothing to
write. -/
theorem interest_agrees_iff
    {m : ConnRun} (hm : m.OutputInStep)
    {ops : List ConnOp} (hops : ∀ op ∈ ops, op.isOutput = true) :
    EveryStep ConnRun.step InterestAgrees m ops ↔
      EveryStep ConnRun.step (fun m op _ => m.InterestNeeded op) m ops := by
  refine everyStep_iff OutputInStep ?_ hm hops
  intro m op m' hm hop hstep
  have hkeep : m.InterestNeeded op → m'.OutputInStep :=
    fun hneeded => hm.step hop hneeded hstep
  refine ⟨⟨interestNeeded_of_agrees hm hstep, ?_⟩, hkeep⟩
  intro hneeded
  refine ⟨(hkeep hneeded).asks_iff, ?_⟩
  intro r hwrite
  exact (ConnState.passesFront_iff m.state).mpr (hneeded.writing r hwrite)

/-- A write that goes out in two parts, and bytes appended by hand while it
waits. -/
def interestOps : List ConnOp :=
  [.write (.takes 1) [1, 2, 3], .appendAndWrite [4],
    .writeEvent (.takes 2), .writeEvent (.takes 2)]

theorem interest_agrees_iff_sample :
    ∃ m, (start (.create 5) false).step .readRaw = some m ∧
      (EveryStep step InterestAgrees m interestOps ↔
        EveryStep step (fun m op _ => m.InterestNeeded op) m
          interestOps) ∧
      ((run step m interestOps).map
          (fun m => (m.state.sent, m.state.conn.asksForOutput)) =
        some ([1, 2, 3, 4], false)) := by
  have hview :
      ((start (.create 5) false).step .readRaw).map
          (fun m => (run step m interestOps).map
            (fun m => (m.state.sent, m.state.conn.asksForOutput))) =
        some (some ([1, 2, 3, 4], false)) := by
    decide +kernel
  obtain ⟨m, hm, hrun⟩ := Option.map_eq_some_iff.mp hview
  refine ⟨m, hm, ?_, hrun⟩
  have hops : ∀ op ∈ interestOps, op.isOutput = true := by
    simp [interestOps, ConnOp.isOutput]
  exact interest_agrees_iff (outputInStep_of_new hm) hops

end ConnRun

end Hohnor
