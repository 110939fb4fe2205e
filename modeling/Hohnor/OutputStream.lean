import Hohnor.TCPConnection
import Hohnor.TransitionRuns
import Hohnor.FifoChannel

/-!
# The output stream of a connection

The write side of TCPConnection refines a first-in first-out channel: what the
kernel took is delivered, what the write buffer holds is the backlog.  The
invariant that ties the three paths of the code together is that `writing_` is
set exactly when the write buffer is not empty: it is what makes writeInLoop
choose the direct `::write` only when nothing waits.

The refinement needs that the high-water-mark callback leaves the output side
alone.  A callback that writes on the same connection is the subject of
ReentrantWrite.
-/

namespace Hohnor

open TransitionRuns FifoChannel

/-- The part of the state that decides where output bytes go, with the
messages written so far. -/
structure OutputView where
  sent : Bytes
  issued : List Bytes
  writing_ : Bool
  writeBuffer_ : Buffer
  closed : Bool

namespace OutputView

/-- The channel that a write side stands for. -/
def channel (v : OutputView) : Channel Byte :=
  ⟨v.sent, v.writeBuffer_.readableSlice⟩

/-- The write side of an open connection between two operations. -/
structure Consistent (v : OutputView) : Prop where
  valid : v.writeBuffer_.Valid
  writing_iff :
    v.writing_ = true ↔ v.writeBuffer_.readableSlice ≠ []
  isOpen : v.closed = false

/-- A message is written. -/
def issue (v : OutputView) (message : Bytes) : OutputView :=
  { v with issued := v.issued ++ [message] }

/-- The kernel takes bytes. -/
def send (v : OutputView) (bytes : Bytes) : OutputView :=
  { v with sent := v.sent ++ bytes }

/-- Bytes are kept for the next writable event. -/
def buffer (v : OutputView) (rest : Bytes) : OutputView :=
  { v with
    writing_ := true
    writeBuffer_ := v.writeBuffer_.append rest }

theorem Consistent.issue
    {v : OutputView} (hv : v.Consistent) (message : Bytes) :
    (v.issue message).Consistent :=
  ⟨hv.valid, hv.writing_iff, hv.isOpen⟩

theorem Consistent.send
    {v : OutputView} (hv : v.Consistent) (bytes : Bytes) :
    (v.send bytes).Consistent :=
  ⟨hv.valid, hv.writing_iff, hv.isOpen⟩

/-- Appending a nonempty rest and setting `writing_` keeps the invariant. -/
theorem Consistent.buffer
    {v : OutputView} (hv : v.Consistent)
    {rest : Bytes} (hrest : rest ≠ []) :
    (v.buffer rest).Consistent := by
  refine ⟨hv.valid.append rest, ?_, hv.isOpen⟩
  simp [OutputView.buffer, hv.valid.append_readableSlice, hrest]

@[simp] theorem channel_issue
    (v : OutputView) (message : Bytes) :
    (v.issue message).channel = v.channel := by
  rfl

@[simp] theorem channel_send
    (v : OutputView) (bytes : Bytes) :
    (v.send bytes).channel =
      ⟨v.channel.delivered ++ bytes, v.channel.backlog⟩ := by
  rfl

theorem Consistent.channel_buffer
    {v : OutputView} (hv : v.Consistent) (rest : Bytes) :
    (v.buffer rest).channel =
      ⟨v.channel.delivered, v.channel.backlog ++ rest⟩ := by
  simp [channel, OutputView.buffer, hv.valid.append_readableSlice]

end OutputView

namespace ConnState

def outputView (s : ConnState) : OutputView where
  sent := s.sent
  issued := s.issued
  writing_ := s.conn.writing_
  writeBuffer_ := s.conn.writeBuffer_
  closed := s.isClosed

theorem output_eq_total
    (s : ConnState) :
    s.output = s.outputView.channel.total := by
  rfl

@[simp] theorem addEvents_outputView
    (s : ConnState) (es : List ConnEvent) :
    (s.addEvents es).outputView = s.outputView := by
  rfl

theorem onHandler_outputView
    {op : IOHandler ConnHandlerCallback →
      IOHandler ConnHandlerCallback × List EpollCtl}
    {s s' : ConnState}
    (hop : s.onHandler op = some s') :
    s'.outputView = s.outputView := by
  unfold onHandler at hop
  cases hh : s.conn.socketHandler_ with
  | none =>
      simp [hh] at hop
  | some h =>
      simp only [hh, Option.some.injEq] at hop
      subst hop
      simp [outputView, addEvents, isClosed, hh]

@[simp] theorem setWriteEvent_outputView
    (s : ConnState) (on : Bool) :
    (s.setWriteEvent on).outputView = s.outputView := by
  rw [setWriteEvent]
  split
  · rfl
  · rename_i s' hop
    exact onHandler_outputView hop

@[simp] theorem queueWriteComplete_outputView
    (s : ConnState) :
    s.queueWriteComplete.outputView = s.outputView := by
  rw [queueWriteComplete]
  split <;> rfl

@[simp] theorem handleError_outputView
    (s : ConnState) :
    s.handleError.outputView = s.outputView := by
  rw [handleError]
  split <;> rfl

theorem enableIfDisabled_outputView
    {s : ConnState}
    (hopen : s.outputView.closed = false) :
    ∃ s', s.enableIfDisabled = some s' ∧
      s'.outputView = s.outputView := by
  rw [enableIfDisabled]
  split
  · exact ⟨s, rfl, rfl⟩
  · obtain ⟨s', hop⟩ := onHandler_isSome IOHandler.enable hopen
    exact ⟨s', hop, onHandler_outputView hop⟩

end ConnState

/-- The callback returns and does not write on the connection. -/
def LeavesOutput (cb : UserCode) : Prop :=
  ∀ s, ∃ s', cb s = some s' ∧ s'.outputView = s.outputView

/-- Every answer of `::write` but the two errors that abort the program. -/
def WriteResult.Tolerated (r : WriteResult) : Prop :=
  r ≠ .fails .EPIPE ∧ r ≠ .fails .ECONNRESET

instance (r : WriteResult) : Decidable r.Tolerated :=
  inferInstanceAs (Decidable (_ ∧ _))

/-- Number of bytes that the kernel is ready to take. -/
def WriteResult.count : WriteResult → Nat
  | .takes n => n
  | .fails _ => 0

/-- The channel operation that an operation of the write side performs. -/
def OutputOp.channelOp : OutputOp → ChannelOp Byte
  | .writeInLoop _ r message => .offer r.count message
  | .write _ r message => .offer r.count message
  | .handleWrite r => .drain r.count
  | _ => .skip

/-- The message that an operation hands to the connection. -/
def OutputOp.message : OutputOp → Bytes
  | .writeInLoop _ _ message => message
  | .write _ _ message => message
  | _ => []

theorem OutputOp.channelOp_message
    (op : OutputOp) :
    op.channelOp.message = op.message := by
  cases op <;> rfl

/-- The bytes handed to the connection by a list of operations, in order. -/
def writtenBytes (ops : List OutputOp) : Bytes :=
  (ops.map OutputOp.message).flatten

/-- No abort, and a high-water-mark callback that does not write. -/
def OutputOp.Regular : OutputOp → Prop
  | .writeInLoop hw r _ => LeavesOutput hw ∧ r.Tolerated
  | .write hw r _ => LeavesOutput hw ∧ r.Tolerated
  | _ => True

namespace ConnState

@[simp] theorem issue_outputView
    (s : ConnState) (message : Bytes) :
    (s.issue message).outputView = s.outputView.issue message := by
  rfl

@[simp] theorem accept_outputView
    (s : ConnState) (bytes : Bytes) :
    (s.accept bytes).outputView = s.outputView.send bytes := by
  rfl

@[simp] theorem setWriting_outputView
    (s : ConnState) (on : Bool) :
    (s.setWriting on).outputView =
      { s.outputView with writing_ := on } := by
  rfl

@[simp] theorem setWriteBuffer_outputView
    (s : ConnState) (b : Buffer) :
    (s.setWriteBuffer b).outputView =
      { s.outputView with writeBuffer_ := b } := by
  rfl

/-- On a consistent write side the direct path is taken exactly when nothing
waits. -/
theorem writesDirectly_iff
    {s : ConnState}
    (hs : s.outputView.Consistent) :
    s.writesDirectly = true ↔
      s.outputView.channel.backlog = [] := by
  have hw := hs.writing_iff
  change _ ↔ s.outputView.writeBuffer_.readableSlice = []
  rw [Ne, hs.valid.readableSlice_eq_nil_iff] at hw
  rw [hs.valid.readableSlice_eq_nil_iff]
  simp only [outputView] at hw ⊢
  rw [writesDirectly]
  cases hwriting : s.conn.writing_ with
  | false =>
      simp
  | true =>
      simpa using hw.mp hwriting

theorem directWrite_taken
    (r : WriteResult) (message : Bytes) {s : ConnState}
    (hdirect : s.writesDirectly = true) :
    (directWrite r message s).nwrote =
      min r.count message.length ∧
    (directWrite r message s).after.outputView =
      s.outputView.send (message.take r.count) := by
  rw [directWrite]
  rw [if_pos hdirect]
  cases r with
  | takes n =>
      have htake :
          message.take (min n message.length) = message.take n := by
        rw [← List.take_eq_take_min]
      refine ⟨rfl, ?_⟩
      simp only [WriteResult.returns, WriteResult.count]
      split
      · simp [htake]
      · simp [htake]
  | fails e =>
      simp [WriteResult.returns, WriteResult.count, OutputView.send]

theorem directWrite_skipped
    (r : WriteResult) (message : Bytes) {s : ConnState}
    (hdirect : ¬ s.writesDirectly = true) :
    directWrite r message s =
      { nwrote := 0, faultError := false, after := s } := by
  rw [directWrite]
  rw [if_neg hdirect]

theorem directWrite_noFault
    {r : WriteResult} (hr : r.Tolerated)
    (message : Bytes) (s : ConnState) :
    (directWrite r message s).faultError = false := by
  rw [directWrite]
  split
  · cases r with
    | takes n =>
        rfl
    | fails e =>
        simpa [WriteResult.returns, WriteResult.Tolerated] using hr
  · rfl

theorem drop_min_length
    (message : Bytes) (n : Nat) :
    message.drop (min n message.length) = message.drop n := by
  rcases Nat.le_total n message.length with hle | hle
  · rw [Nat.min_eq_left hle]
  · rw [Nat.min_eq_right hle, List.drop_of_length_le hle]
    simp

theorem notifyHighWaterMark_outputView
    {cb : UserCode} (hcb : LeavesOutput cb)
    (remaining : Nat) (s : ConnState) :
    ∃ s', notifyHighWaterMark cb remaining s = some s' ∧
      s'.outputView = s.outputView := by
  rw [notifyHighWaterMark]
  split
  · split
    · exact ⟨s, rfl, rfl⟩
    · obtain ⟨s', hs', hview⟩ := hcb _
      exact ⟨s', hs', hview⟩
  · exact ⟨s, rfl, rfl⟩

theorem startWriting_outputView
    (s : ConnState) :
    s.startWriting.outputView =
      { s.outputView with writing_ := true } := by
  rw [startWriting]
  split
  · rename_i hwriting
    simp [outputView, hwriting]
  · simp

/-- After the tail of writeInLoop the rest is in the buffer and `writing_` is
set, whatever it was before. -/
@[simp] theorem bufferRest_outputView
    (rest : Bytes) (s : ConnState) :
    (bufferRest rest s).outputView = s.outputView.buffer rest := by
  rw [bufferRest]
  rw [startWriting_outputView]
  rfl

/-- The output side when writeInLoop returns, from its direct write: what was
not sent is buffered. -/
def outputAfter (d : DirectWrite) (message : Bytes) : OutputView :=
  if 0 < message.length - d.nwrote then
    d.after.outputView.buffer (message.drop d.nwrote)
  else
    d.after.outputView

theorem writeInLoop_outputView
    {cb : UserCode} (hcb : LeavesOutput cb)
    {r : WriteResult} (hr : r.Tolerated)
    (message : Bytes) (s : ConnState) :
    ∃ s', writeInLoop cb r message s = some s' ∧
      s'.outputView =
        outputAfter (directWrite r message (s.issue message))
          message := by
  rw [outputAfter]
  rw [writeInLoop]
  simp only [directWrite_noFault hr, Bool.false_eq_true, if_false]
  split
  · obtain ⟨s', hs', hview⟩ :=
      notifyHighWaterMark_outputView hcb
        (message.length -
          (directWrite r message (s.issue message)).nwrote)
        (directWrite r message (s.issue message)).after
    refine ⟨_, by rw [hs', Option.map_some], ?_⟩
    rw [bufferRest_outputView, hview]
  · exact ⟨_, rfl, rfl⟩

end ConnState

namespace ConnState

/-- writeInLoop offers its message to the channel. -/
theorem writeInLoop_refines
    {cb : UserCode} (hcb : LeavesOutput cb)
    {r : WriteResult} (hr : r.Tolerated)
    (message : Bytes) {s : ConnState}
    (hs : s.outputView.Consistent) :
    ∃ s', writeInLoop cb r message s = some s' ∧
      s'.outputView.Consistent ∧
      s'.issued = s.issued ++ [message] ∧
      s'.outputView.channel =
        s.outputView.channel.apply (.offer r.count message) := by
  obtain ⟨s', hs', hview⟩ :=
    writeInLoop_outputView hcb hr message s
  refine ⟨s', hs', ?_⟩
  have hi := hs.issue message
  rw [← issue_outputView] at hi
  unfold outputAfter at hview
  by_cases hdirect : (s.issue message).writesDirectly = true
  · have hempty := (writesDirectly_iff hi).mp hdirect
    obtain ⟨hn, hafter⟩ := directWrite_taken r message hdirect
    rw [hn, hafter, drop_min_length] at hview
    have happly :
        s.outputView.channel.apply (.offer r.count message) =
          ⟨s.outputView.sent ++ message.take r.count,
            message.drop r.count⟩ :=
      if_pos hempty
    rw [happly]
    split at hview
    · rename_i hrest
      have hne : message.drop r.count ≠ [] := by
        rw [Ne, List.drop_eq_nil_iff]
        omega
      have hsend := hi.send (message.take r.count)
      refine ⟨hview ▸ hsend.buffer hne,
        congrArg OutputView.issued hview, ?_⟩
      rw [hview, hsend.channel_buffer, OutputView.channel_send]
      rw [hempty]
      rfl
    · rename_i hdone
      have hnil : message.drop r.count = [] := by
        rw [List.drop_eq_nil_iff]
        omega
      refine ⟨hview ▸ hi.send _,
        congrArg OutputView.issued hview, ?_⟩
      rw [hview, OutputView.channel_send, hempty, hnil]
      rfl
  · have hback : s.outputView.channel.backlog ≠ [] :=
      fun h => hdirect ((writesDirectly_iff hi).mpr h)
    rw [directWrite_skipped r message hdirect] at hview
    simp only [Nat.sub_zero, List.drop_zero] at hview
    have happly :
        s.outputView.channel.apply (.offer r.count message) =
          ⟨s.outputView.sent,
            s.outputView.channel.backlog ++ message⟩ :=
      if_neg hback
    rw [happly]
    split at hview
    · rename_i hpos
      have hne : message ≠ [] := List.length_pos_iff.mp hpos
      refine ⟨hview ▸ hi.buffer hne,
        congrArg OutputView.issued hview, ?_⟩
      rw [hview, hi.channel_buffer]
      rfl
    · rename_i hzero
      have hnil : message = [] :=
        List.length_eq_zero_iff.mp (Nat.eq_zero_of_not_pos hzero)
      refine ⟨hview ▸ hi, congrArg OutputView.issued hview, ?_⟩
      rw [hview, hnil, List.append_nil]
      rfl

theorem shrinkWriteBuffer_outputView
    {s : ConnState}
    (hs : s.outputView.Consistent) :
    s.shrinkWriteBuffer.outputView.Consistent ∧
    s.shrinkWriteBuffer.outputView.channel =
      s.outputView.channel := by
  rw [shrinkWriteBuffer]
  split
  · obtain ⟨hvalid, hslice⟩ := s.conn.writeBuffer_.shrink_valid 0
    refine ⟨⟨hvalid, ?_, hs.isOpen⟩, ?_⟩
    · have hw := hs.writing_iff
      simp only [setWriteBuffer_outputView]
      rw [hslice]
      exact hw
    · simp only [setWriteBuffer_outputView, OutputView.channel]
      rw [hslice]
      rfl
  · exact ⟨hs, rfl⟩

@[simp] theorem retrieveWritten_outputView
    (n : Nat) (s : ConnState) :
    (s.retrieveWritten n).outputView =
      { s.outputView with
        sent := s.outputView.sent ++
          s.outputView.writeBuffer_.readableSlice.take n
        writeBuffer_ := s.outputView.writeBuffer_.retrieve n } := by
  rfl

/-- Draining delivers the front of the backlog; `writing_` is cleared exactly
when nothing is left. -/
theorem drained_refines
    (n : Nat) {s : ConnState}
    (hs : s.outputView.Consistent)
    (hwriting : s.conn.writing_ = true) :
    (s.drained n).outputView.Consistent ∧
    (s.drained n).outputView.channel =
      s.outputView.channel.apply (.drain n) := by
  have hvalid := hs.valid.retrieve n
  have hslice := hs.valid.retrieve_readableSlice n
  have hnil := hvalid.readableSlice_eq_nil_iff
  have hchannel :
      (s.retrieveWritten n).outputView.channel =
        s.outputView.channel.apply (.drain n) := by
    simp only [retrieveWritten_outputView, OutputView.channel,
      Channel.apply]
    rw [hslice]
  rw [drained]
  split
  · rename_i hzero
    have hempty := hnil.mpr hzero
    have hdone :
        (((s.retrieveWritten n).setWriteEvent false).setWriting
          false).queueWriteComplete.outputView.Consistent := by
      refine ⟨?_, ?_, ?_⟩
      · simpa using hvalid
      · simpa using hempty
      · simpa using hs.isOpen
    obtain ⟨hcons, hsame⟩ := shrinkWriteBuffer_outputView hdone
    refine ⟨hcons, hsame.trans ?_⟩
    rw [← hchannel]
    simp [OutputView.channel]
  · rename_i hpos
    have hne :
        (s.outputView.writeBuffer_.retrieve n).readableSlice ≠ [] :=
      fun h => hpos (hnil.mp h)
    have hset : s.outputView.writing_ = true := hwriting
    refine ⟨⟨hvalid, ?_, hs.isOpen⟩, hchannel⟩
    simp [hset, hne]

/-- handleWrite drains as many bytes as the kernel takes. -/
theorem handleWrite_refines
    (r : WriteResult) {s : ConnState}
    (hs : s.outputView.Consistent) :
    (s.handleWrite r).outputView.Consistent ∧
    (s.handleWrite r).outputView.channel =
      s.outputView.channel.apply (.drain r.count) := by
  have hw := hs.writing_iff
  rw [handleWrite]
  split
  · rename_i hwriting
    have hback : s.outputView.channel.backlog ≠ [] := hw.mp hwriting
    cases r with
    | takes n =>
        have hmin :=
          Channel.apply_drain_min s.outputView.channel n
        simp only [WriteResult.returns, WriteResult.count]
        split
        · obtain ⟨hcons, hsame⟩ :=
            drained_refines
              (min n s.conn.writeBuffer_.readableSlice.length)
              hs hwriting
          exact ⟨hcons, hsame.trans hmin⟩
        · rename_i hzero
          have hn : n = 0 := by
            have hlen := List.length_pos_iff.mpr hback
            simp only [OutputView.channel, outputView] at hlen
            omega
          subst hn
          simpa using hs
    | fails e =>
        simpa [WriteResult.returns, WriteResult.count] using hs
  · rename_i hidle
    have hempty : s.outputView.channel.backlog = [] := by
      by_contra hne
      exact hidle (hw.mpr hne)
    exact ⟨hs, (Channel.apply_drain_of_nil hempty _).symm⟩

theorem finishWriting_issued
    (s : ConnState) :
    s.finishWriting.issued = s.issued := by
  have hshrink : ∀ t : ConnState,
      t.shrinkWriteBuffer.issued = t.issued := by
    intro t
    rw [shrinkWriteBuffer]
    split <;> rfl
  have hqueue :=
    congrArg OutputView.issued
      (queueWriteComplete_outputView
        ((s.setWriteEvent false).setWriting false))
  have hevent :=
    congrArg OutputView.issued (setWriteEvent_outputView s false)
  rw [finishWriting]
  rw [hshrink]
  exact hqueue.trans hevent

/-- A writable event hands over no message. -/
theorem handleWrite_issued
    (r : WriteResult) (s : ConnState) :
    (s.handleWrite r).issued = s.issued := by
  have hdrained : ∀ n, (s.drained n).issued = s.issued := by
    intro n
    rw [drained]
    split
    · exact finishWriting_issued _
    · rfl
  have herror : s.handleError.issued = s.issued :=
    congrArg OutputView.issued (handleError_outputView s)
  rw [handleWrite]
  split
  · split
    · split
      · exact hdrained _
      · exact herror
    · exact herror
  · rfl

theorem write_refines
    {cb : UserCode} (hcb : LeavesOutput cb)
    {r : WriteResult} (hr : r.Tolerated)
    (message : Bytes) {s : ConnState}
    (hs : s.outputView.Consistent) :
    ∃ s', write cb r message s = some s' ∧
      s'.outputView.Consistent ∧
      s'.issued = s.issued ++ [message] ∧
      s'.outputView.channel =
        s.outputView.channel.apply (.offer r.count message) := by
  have hopen : ¬ s.isClosed = true := by
    have h := hs.isOpen
    simp only [outputView] at h
    simp [h]
  obtain ⟨t, ht, hcons, hissued, hchannel⟩ :=
    writeInLoop_refines hcb hr message hs
  obtain ⟨s', hs', hview⟩ :=
    enableIfDisabled_outputView hcons.isOpen
  refine ⟨s', ?_, ?_, ?_, ?_⟩
  · rw [write]
    rw [if_neg hopen, ht]
    exact hs'
  · rw [hview]
    exact hcons
  · rw [← hissued]
    exact congrArg OutputView.issued hview
  · rw [hview]
    exact hchannel

/-- Every operation of the write side acts on the channel as its label says. -/
theorem outputStep_refines
    (s : ConnState) (op : OutputOp)
    (hs : s.outputView.Consistent)
    (hop : op.Regular) :
    ∃ s', s.outputStep op = some s' ∧
      s'.outputView.Consistent ∧
      s'.outputView.channel =
        s.outputView.channel.apply op.channelOp := by
  cases op with
  | writeInLoop hw r message =>
      obtain ⟨s', hs', hcons, _, hchannel⟩ :=
        writeInLoop_refines hop.1 hop.2 message hs
      exact ⟨s', hs', hcons, hchannel⟩
  | write hw r message =>
      obtain ⟨s', hs', hcons, _, hchannel⟩ :=
        write_refines hop.1 hop.2 message hs
      exact ⟨s', hs', hcons, hchannel⟩
  | handleWrite r =>
      exact ⟨_, rfl, handleWrite_refines r hs⟩
  | shutdown =>
      exact ⟨_, rfl, hs, rfl⟩
  | setHighWaterMarkCallback mark cb =>
      exact ⟨_, rfl, hs, rfl⟩
  | setWriteCompleteCallback cb =>
      exact ⟨_, rfl, hs, rfl⟩
  | setErrorCallback cb =>
      exact ⟨_, rfl, hs, rfl⟩

/-- A new connection has an empty channel. -/
theorem create_outputView
    (handler : IOHandler ConnHandlerCallback) (quit : Bool) :
    (TCPConnection.create handler quit).outputView =
      { sent := [], issued := [], writing_ := false,
        writeBuffer_ := .empty, closed := false } := by
  rw [TCPConnection.create]
  rw [setWriteEvent_outputView]
  rfl

theorem create_consistent
    (handler : IOHandler ConnHandlerCallback) (quit : Bool) :
    (TCPConnection.create handler quit).outputView.Consistent := by
  rw [create_outputView]
  exact ⟨Buffer.ofSize_valid _, by simp [Buffer.empty], rfl⟩

/-- Every run of the write side completes, on a consistent connection whose
channel holds exactly what was written. -/
theorem run_output
    (handler : IOHandler ConnHandlerCallback) (quit : Bool)
    {ops : List OutputOp}
    (hops : ∀ op ∈ ops, op.Regular) :
    ∃ s, run outputStep (TCPConnection.create handler quit) ops =
        some s ∧
      s.outputView.Consistent ∧
      s.output = writtenBytes ops := by
  obtain ⟨s, hs, hcons, hchannel⟩ :=
    run_refines
      (fun s : ConnState => s.outputView.channel)
      (fun c op => c.apply op.channelOp)
      (fun s => s.outputView.Consistent)
      outputStep_refines (create_consistent handler quit) hops
  refine ⟨s, hs, hcons, ?_⟩
  have hfold :=
    Channel.total_foldl
      (TCPConnection.create handler quit).outputView.channel
      (ops.map OutputOp.channelOp)
  rw [List.foldl_map, ← hchannel, create_outputView] at hfold
  rw [output_eq_total, hfold]
  simp only [OutputView.channel, Channel.total, Buffer.empty,
    Buffer.ofSize_readableSlice, List.nil_append, List.map_map,
    writtenBytes]
  congr 2
  funext op
  exact op.channelOp_message

end ConnState

/-- **Output stream integrity.**  After every run of writes and writable
events, with any answers of the kernel that do not abort the program, the
bytes that the kernel accepted followed by the content of the write buffer
are the messages written so far, in order. -/
theorem outputStream_intact
    (handler : IOHandler ConnHandlerCallback) (quit : Bool)
    (ops : List OutputOp)
    (hops : ∀ op ∈ ops, op.Regular) :
    ∃ s,
      run ConnState.outputStep
        (TCPConnection.create handler quit) ops = some s ∧
      s.sent ++ s.conn.writeBuffer_.readableSlice =
        writtenBytes ops := by
  obtain ⟨s, hs, _, hout⟩ := ConnState.run_output handler quit hops
  exact ⟨s, hs, hout⟩

/-- A connection on a handler that was just accepted. -/
def freshConnection : ConnState :=
  TCPConnection.create (.create 7) false

theorem some_leavesOutput :
    LeavesOutput (some : UserCode) :=
  fun s => ⟨s, rfl, rfl⟩

/-- A partial direct write, a message behind the backlog, a partial writable
event and a failed one. -/
def sampleOps : List OutputOp :=
  [.writeInLoop some (.takes 2) [1, 2, 3],
    .writeInLoop some (.takes 9) [4, 5],
    .handleWrite (.takes 2),
    .handleWrite (.fails .EAGAIN)]

theorem sampleOps_regular :
    ∀ op ∈ sampleOps, op.Regular := by
  intro op hop
  simp only [sampleOps, List.mem_cons, List.not_mem_nil,
    or_false] at hop
  rcases hop with rfl | rfl | rfl | rfl
  · exact ⟨some_leavesOutput, by decide⟩
  · exact ⟨some_leavesOutput, by decide⟩
  · trivial
  · trivial

theorem outputStream_intact_sample :
    ∃ s,
      run ConnState.outputStep freshConnection sampleOps = some s ∧
      s.sent ++ s.conn.writeBuffer_.readableSlice =
        [1, 2, 3, 4, 5] :=
  outputStream_intact (.create 7) false sampleOps sampleOps_regular

/-- Every byte written before a shutdown has been accepted by the kernel when
SHUT_WR is issued, and none is left in the write buffer. -/
def ShutdownIsGraceful : Prop :=
  ∀ (handler : IOHandler ConnHandlerCallback) (quit : Bool)
    (ops : List OutputOp),
    (∀ op ∈ ops, op.Regular) →
    ∀ s t : ConnState,
      run ConnState.outputStep
        (TCPConnection.create handler quit) ops = some s →
      s.outputStep .shutdown = some t →
      t.sent = writtenBytes ops ∧
      t.conn.writeBuffer_.readableSlice = []

/-- The kernel takes two bytes of three and shutdown() comes before the next
writable event: the third byte stays behind. -/
theorem shutdown_not_graceful :
    ¬ ShutdownIsGraceful := by
  intro hgraceful
  have hregular :
      ∀ op ∈ [OutputOp.write some (.takes 2) [1, 2, 3]],
        op.Regular := by
    intro op hop
    rw [List.mem_singleton] at hop
    subst hop
    exact ⟨some_leavesOutput, by decide⟩
  obtain ⟨s, hs, _⟩ :=
    outputStream_intact (.create 7) false _ hregular
  obtain ⟨hsent, _⟩ :=
    hgraceful (.create 7) false _ hregular s s.shutdown hs rfl
  have hcomputed :
      (run ConnState.outputStep freshConnection
        [.write some (.takes 2) [1, 2, 3]]).map ConnState.sent =
        some [1, 2] := by
    decide +kernel
  have hs' := congrArg (Option.map ConnState.sent) hs
  rw [show TCPConnection.create (.create 7) false =
    freshConnection from rfl, hcomputed] at hs'
  simp only [Option.map_some, Option.some.injEq] at hs'
  have hbad : ([1, 2] : Bytes) = [1, 2, 3] := hs'.trans hsent
  exact absurd hbad (by decide)

/-- shutdown() issues SHUT_WR at once and moves no byte, to the kernel or out of
the write buffer.  What the kernel accepted by then, followed by the write
buffer, is what was written before; so everything written was accepted exactly
when no backlog was waiting for a writable event. -/
theorem shutdown_leaves_backlog
    (handler : IOHandler ConnHandlerCallback) (quit : Bool)
    (ops : List OutputOp)
    (hops : ∀ op ∈ ops, op.Regular) :
    ∃ s t : ConnState,
      run ConnState.outputStep
        (TCPConnection.create handler quit) ops = some s ∧
      s.outputStep .shutdown = some t ∧
      t.events = s.events ++ [.shutdownWrite] ∧
      t.sent = s.sent ∧
      t.conn.writeBuffer_ = s.conn.writeBuffer_ ∧
      t.sent ++ t.conn.writeBuffer_.readableSlice =
        writtenBytes ops ∧
      (t.sent = writtenBytes ops ∧
          t.conn.writeBuffer_.readableSlice = [] ↔
        s.conn.writing_ = false) := by
  obtain ⟨s, hs, hcons, hout⟩ :=
    ConnState.run_output handler quit hops
  refine ⟨s, s.shutdown, hs, rfl, rfl, rfl, rfl, hout, ?_⟩
  have hw := hcons.writing_iff
  simp only [ConnState.outputView] at hw
  have hslice : s.conn.writeBuffer_.readableSlice = [] ↔
      s.conn.writing_ = false := by
    rw [← Bool.not_eq_true, hw, Classical.not_not]
  rw [← hslice]
  constructor
  · exact fun h => h.2
  · intro hempty
    refine ⟨?_, hempty⟩
    rw [← hout, ConnState.output, hempty, List.append_nil]
    rfl

theorem shutdown_leaves_backlog_sample :
    ∃ s t : ConnState,
      run ConnState.outputStep freshConnection sampleOps = some s ∧
      s.outputStep .shutdown = some t ∧
      t.events = s.events ++ [.shutdownWrite] ∧
      t.sent = s.sent ∧
      t.conn.writeBuffer_ = s.conn.writeBuffer_ ∧
      t.sent ++ t.conn.writeBuffer_.readableSlice =
        writtenBytes sampleOps ∧
      (t.sent = writtenBytes sampleOps ∧
          t.conn.writeBuffer_.readableSlice = [] ↔
        s.conn.writing_ = false) :=
  shutdown_leaves_backlog (.create 7) false sampleOps
    sampleOps_regular

end Hohnor
