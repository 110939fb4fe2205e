import Hohnor.OutputStream

/-!
# Writes from inside the high-water-mark callback

writeInLoop calls the high-water-mark callback after a first part of its
message may have been sent, and before the rest is appended to the write
buffer.  A callback that writes on the same connection therefore gets its own
message in front of that rest.

`WriteCalls` is what a callback does: write calls, nested to any depth, and
anything else.  No byte is lost or duplicated by such a callback: the stream
is a permutation of the messages.  The order is kept by a run exactly when no
callback that is called hands over a byte.
-/

namespace Hohnor

open TransitionRuns FifoChannel

/-- What user code does on a connection while an operation waits for it.
Every write comes with the answer of the kernel and with what the
high-water-mark callback does if that write calls it. -/
inductive WriteCalls where
  | done
  | other (code : UserCode) (rest : WriteCalls)
  | write (r : WriteResult) (message : Bytes)
      (onHighWaterMark rest : WriteCalls)

namespace WriteCalls

def run : WriteCalls → UserCode
  | .done, s => some s
  | .other code rest, s => (code s).bind rest.run
  | .write r message onHighWaterMark rest, s =>
      (ConnState.write onHighWaterMark.run r message s).bind rest.run

/-- The kernel gives no answer that aborts the program, and all other code
leaves the output alone. -/
def Regular : WriteCalls → Prop
  | .done => True
  | .other code rest => LeavesOutput code ∧ rest.Regular
  | .write r _ onHighWaterMark rest =>
      r.Tolerated ∧ onHighWaterMark.Regular ∧ rest.Regular

/-- The bytes handed over by the calls themselves. -/
def bytes : WriteCalls → Bytes
  | .done => []
  | .other _ rest => rest.bytes
  | .write _ message _ rest => message ++ rest.bytes

/-- The bytes handed over by the calls and by all nested ones. -/
def allBytes : WriteCalls → Bytes
  | .done => []
  | .other _ rest => rest.allBytes
  | .write _ message onHighWaterMark rest =>
      message ++ onHighWaterMark.allBytes ++ rest.allBytes

end WriteCalls

namespace ConnState

/-- The stream holds whole messages in the order of the write calls. -/
def InOrder (s : ConnState) : Prop :=
  s.output = s.issued.flatten

/-- Number of bytes that the direct write of a message sends. -/
def directCount (r : WriteResult) (message : Bytes) (s : ConnState) :
    Nat :=
  if s.writesDirectly then min r.count message.length else 0

/-- This write calls the high-water-mark callback. -/
def callsHighWaterMark
    (r : WriteResult) (message : Bytes) (s : ConnState) : Prop :=
  s.directCount r message < message.length ∧
    s.crossesHighWaterMark (message.length - s.directCount r message) ∧
    s.conn.highWaterMarkCallback_.isSome

/-- From `s` to `s'` the bytes `added` went into the stream and the messages
`written` were handed over: the same bytes up to order. -/
structure Streams
    (s s' : ConnState) (added : Bytes) (written : List Bytes) :
    Prop where
  consistent : s'.outputView.Consistent
  output_eq : s'.output = s.output ++ added
  issued_eq : s'.issued = s.issued ++ written
  perm : added.Perm written.flatten

theorem Streams.refl
    {s : ConnState} (hs : s.outputView.Consistent) :
    Streams s s [] [] :=
  ⟨hs, by simp, by simp, List.Perm.refl _⟩

theorem Streams.trans
    {s s' s'' : ConnState} {x y : Bytes} {ms ns : List Bytes}
    (h : Streams s s' x ms) (h' : Streams s' s'' y ns) :
    Streams s s'' (x ++ y) (ms ++ ns) := by
  refine ⟨h'.consistent, ?_, ?_, ?_⟩
  · rw [h'.output_eq, h.output_eq, List.append_assoc]
  · rw [h'.issued_eq, h.issued_eq, List.append_assoc]
  · rw [List.flatten_append]
    exact h.perm.append h'.perm

theorem Streams.of_outputView
    {s s' t : ConnState} {x : Bytes} {ms : List Bytes}
    (h : Streams s s' x ms) (hview : t.outputView = s'.outputView) :
    Streams s t x ms := by
  refine ⟨hview ▸ h.consistent, ?_, ?_, h.perm⟩
  · rw [← h.output_eq, output_eq_total, output_eq_total, hview]
  · rw [← h.issued_eq]
    exact congrArg OutputView.issued hview

/-- A stream in order stays in order exactly when what was added is the
concatenation of what was written. -/
theorem Streams.inOrder_iff
    {s s' : ConnState} {x : Bytes} {ms : List Bytes}
    (h : Streams s s' x ms) (hs : s.InOrder) :
    s'.InOrder ↔ x = ms.flatten := by
  rw [InOrder] at hs ⊢
  rw [h.output_eq, h.issued_eq, List.flatten_append, hs]
  exact List.append_right_inj _

theorem queueWriteComplete_conn
    (s : ConnState) :
    s.queueWriteComplete.conn = s.conn := by
  rw [queueWriteComplete]
  split <;> rfl

theorem directWrite_conn
    (r : WriteResult) (message : Bytes) (s : ConnState) :
    (directWrite r message s).after.conn = s.conn := by
  rw [directWrite]
  split
  · split
    · simp only
      split
      · rw [queueWriteComplete_conn]
        rfl
      · rfl
    · rfl
  · rfl

theorem directWrite_nwrote
    (r : WriteResult) (message : Bytes) (s : ConnState) :
    (directWrite r message (s.issue message)).nwrote =
      s.directCount r message := by
  have hsame :
      (s.issue message).writesDirectly = s.writesDirectly := rfl
  rw [directCount]
  by_cases hdirect : s.writesDirectly = true
  · rw [if_pos hdirect]
    exact (directWrite_taken r message (hsame.trans hdirect)).1
  · rw [if_neg hdirect]
    rw [directWrite_skipped r message (hsame ▸ hdirect)]

/-- When the callback is about to be called, the message has been issued and
its first part has been sent. -/
theorem directWrite_outputView
    (r : WriteResult) (message : Bytes) (s : ConnState) :
    (directWrite r message (s.issue message)).after.outputView =
      (s.outputView.issue message).send
        (message.take (s.directCount r message)) := by
  have hsame :
      (s.issue message).writesDirectly = s.writesDirectly := rfl
  rw [directCount]
  by_cases hdirect : s.writesDirectly = true
  · have htaken :=
      (directWrite_taken r message (hsame.trans hdirect)).2
    rw [if_pos hdirect, htaken, issue_outputView,
      ← List.take_eq_take_min]
  · rw [if_neg hdirect]
    rw [directWrite_skipped r message (hsame ▸ hdirect)]
    simp [OutputView.send, OutputView.issue, outputView, issue,
      isClosed]

/-- A write that does not call the callback does not depend on it. -/
theorem writeInLoop_of_not_calls
    (hw : UserCode) {r : WriteResult} (hr : r.Tolerated)
    (message : Bytes) {s : ConnState}
    (hcalls : ¬ s.callsHighWaterMark r message) :
    writeInLoop hw r message s = writeInLoop some r message s := by
  have hconn := directWrite_conn r message (s.issue message)
  unfold writeInLoop
  simp only [directWrite_noFault hr, Bool.false_eq_true, if_false,
    directWrite_nwrote]
  split
  · rename_i hrest
    have hquiet : ∀ code : UserCode,
        notifyHighWaterMark code
          (message.length - s.directCount r message)
          (directWrite r message (s.issue message)).after =
        some (directWrite r message (s.issue message)).after := by
      intro code
      unfold notifyHighWaterMark
      split
      · rename_i hcross
        split
        · rfl
        · rename_i cb hcb
          refine absurd ⟨by omega, ?_, ?_⟩ hcalls
          · unfold crossesHighWaterMark at hcross ⊢
            rw [hconn] at hcross
            exact hcross
          · rw [hconn] at hcb
            simp only [issue] at hcb
            rw [hcb]
            rfl
      · rfl
    rw [hquiet, hquiet]
  · rfl

/-- A write that calls the callback buffers the rest of its message after the
callback has returned. -/
theorem writeInLoop_of_calls
    (hw : UserCode) {r : WriteResult} (hr : r.Tolerated)
    (message : Bytes) {s : ConnState}
    (hcalls : s.callsHighWaterMark r message) :
    ∃ t : ConnState,
      t.outputView =
        (s.outputView.issue message).send
          (message.take (s.directCount r message)) ∧
      writeInLoop hw r message s =
        (hw t).map
          (bufferRest (message.drop (s.directCount r message))) := by
  obtain ⟨hrest, hcross, hinstalled⟩ := hcalls
  obtain ⟨cb, hcb⟩ := Option.isSome_iff_exists.mp hinstalled
  have hconn := directWrite_conn r message (s.issue message)
  refine ⟨(directWrite r message (s.issue message)).after.addEvents
    [.highWaterMark cb], directWrite_outputView r message s, ?_⟩
  rw [writeInLoop]
  simp only [directWrite_noFault hr, Bool.false_eq_true, if_false,
    directWrite_nwrote]
  rw [if_pos (by omega)]
  rw [notifyHighWaterMark]
  rw [if_pos (by
    rw [crossesHighWaterMark] at hcross ⊢
    rw [hconn]
    exact hcross)]
  rw [hconn]
  simp only [issue, hcb]

/-- A write that does not call the callback adds its message to the stream. -/
theorem writeInLoop_streams_of_not_calls
    (hw : UserCode) {r : WriteResult} (hr : r.Tolerated)
    (message : Bytes) {s : ConnState}
    (hs : s.outputView.Consistent)
    (hcalls : ¬ s.callsHighWaterMark r message) :
    ∃ s', writeInLoop hw r message s = some s' ∧
      Streams s s' message [message] := by
  obtain ⟨s', hs', hcons, hissued, hchannel⟩ :=
    writeInLoop_refines some_leavesOutput hr message hs
  refine ⟨s', ?_, hcons, ?_, hissued, ?_⟩
  · rw [writeInLoop_of_not_calls hw hr message hcalls]
    exact hs'
  · rw [output_eq_total, output_eq_total, hchannel,
      Channel.total_apply]
    rfl
  · simp

/-- A first part of a message is sent directly only when nothing waits. -/
theorem output_after_directWrite
    (r : WriteResult) (message : Bytes) {s t : ConnState}
    (hs : s.outputView.Consistent)
    (hview :
      t.outputView =
        (s.outputView.issue message).send
          (message.take (s.directCount r message))) :
    t.output =
      s.output ++ message.take (s.directCount r message) := by
  rw [output_eq_total, output_eq_total, hview]
  rw [directCount]
  by_cases hdirect : s.writesDirectly = true
  · have hempty := (writesDirectly_iff hs).mp hdirect
    simp [Channel.total, hempty]
  · simp [hdirect, Channel.total]

/-- A write that calls the callback puts what the callback writes between the
two parts of its message. -/
theorem writeInLoop_streams_of_calls
    {hw : UserCode} {P : Bytes → List Bytes → Prop}
    (hhw :
      ∀ t : ConnState, t.outputView.Consistent →
        ∃ t' added written, hw t = some t' ∧
          Streams t t' added written ∧ P added written)
    {r : WriteResult} (hr : r.Tolerated)
    (message : Bytes) {s : ConnState}
    (hs : s.outputView.Consistent)
    (hcalls : s.callsHighWaterMark r message) :
    ∃ s' added written, writeInLoop hw r message s = some s' ∧
      Streams s s'
        (message.take (s.directCount r message) ++ added ++
          message.drop (s.directCount r message))
        (message :: written) ∧
      P added written := by
  obtain ⟨t, hview, hwrite⟩ :=
    writeInLoop_of_calls hw hr message hcalls
  have hout := output_after_directWrite r message hs hview
  have hissued : t.issued = s.issued ++ [message] :=
    congrArg OutputView.issued hview
  have hcons : t.outputView.Consistent := by
    rw [hview]
    exact (hs.issue message).send _
  obtain ⟨t', added, written, ht', hstreams, hP⟩ := hhw t hcons
  have hrest :
      message.drop (s.directCount r message) ≠ [] := by
    have hlt := hcalls.1
    rw [Ne, List.drop_eq_nil_iff]
    omega
  refine ⟨bufferRest (message.drop (s.directCount r message)) t',
    added, written, by rw [hwrite, ht', Option.map_some], ?_, hP⟩
  refine ⟨?_, ?_, ?_, ?_⟩
  · rw [bufferRest_outputView]
    exact hstreams.consistent.buffer hrest
  · have htotal := hstreams.consistent.channel_buffer
      (message.drop (s.directCount r message))
    have hbefore := hstreams.output_eq
    rw [output_eq_total, Channel.total, hout] at hbefore
    rw [output_eq_total, bufferRest_outputView, htotal,
      Channel.total, ← List.append_assoc, hbefore]
    simp
  · have h : (bufferRest
        (message.drop (s.directCount r message)) t').issued =
          t'.issued :=
      congrArg OutputView.issued (bufferRest_outputView _ t')
    rw [h, hstreams.issued_eq, hissued]
    simp
  · rw [List.flatten_cons]
    calc
      (message.take (s.directCount r message) ++ added ++
          message.drop (s.directCount r message)).Perm
          (message.take (s.directCount r message) ++
            message.drop (s.directCount r message) ++ added) := by
        rw [List.append_assoc, List.append_assoc]
        exact List.perm_append_comm.append_left _
      _ = message ++ added := by
        rw [List.take_append_drop]
      (message ++ added).Perm (message ++ written.flatten) :=
        hstreams.perm.append_left _

/-- One write call: its message goes into the stream in two parts, with what
the callback writes in between if it is called. -/
theorem write_streams
    {hw : UserCode} {P : Bytes → List Bytes → Prop}
    (hhw :
      ∀ t : ConnState, t.outputView.Consistent →
        ∃ t' added written, hw t = some t' ∧
          Streams t t' added written ∧ P added written)
    {r : WriteResult} (hr : r.Tolerated)
    (message : Bytes) {s : ConnState}
    (hs : s.outputView.Consistent) :
    ∃ s' added written, write hw r message s = some s' ∧
      Streams s s'
        (message.take (s.directCount r message) ++ added ++
          message.drop (s.directCount r message))
        (message :: written) ∧
      (s.callsHighWaterMark r message → P added written) ∧
      (¬ s.callsHighWaterMark r message →
        added = [] ∧ written = []) := by
  have hopen : ¬ s.isClosed = true := by
    have h := hs.isOpen
    simp only [outputView] at h
    simp [h]
  have hloop :
      ∃ s' added written, writeInLoop hw r message s = some s' ∧
        Streams s s'
          (message.take (s.directCount r message) ++ added ++
            message.drop (s.directCount r message))
          (message :: written) ∧
        (s.callsHighWaterMark r message → P added written) ∧
        (¬ s.callsHighWaterMark r message →
          added = [] ∧ written = []) := by
    by_cases hcalls : s.callsHighWaterMark r message
    · obtain ⟨s', added, written, hs', hstreams, hP⟩ :=
        writeInLoop_streams_of_calls hhw hr message hs hcalls
      exact ⟨s', added, written, hs', hstreams, fun _ => hP,
        fun h => absurd hcalls h⟩
    · obtain ⟨s', hs', hstreams⟩ :=
        writeInLoop_streams_of_not_calls hw hr message hs hcalls
      refine ⟨s', [], [], hs', ?_, fun h => absurd h hcalls,
        fun _ => ⟨rfl, rfl⟩⟩
      rw [List.append_nil, List.take_append_drop]
      exact hstreams
  obtain ⟨t, added, written, ht, hstreams, hP, hquiet⟩ := hloop
  obtain ⟨s', hs', hview⟩ :=
    enableIfDisabled_outputView hstreams.consistent.isOpen
  refine ⟨s', added, written, ?_, hstreams.of_outputView hview,
    hP, hquiet⟩
  rw [write]
  rw [if_neg hopen, ht]
  exact hs'

end ConnState

/-- What a callback put into the stream, as far as its text decides it: only
bytes of its calls, and nothing exactly when its own calls hand over
nothing. -/
def WriteCalls.Accounts
    (c : WriteCalls) (added : Bytes) (written : List Bytes) : Prop :=
  (∀ b ∈ added, b ∈ c.allBytes) ∧
    (written.flatten = [] ↔ c.bytes = [])

/-- Write calls nested to any depth complete, and add to the stream the bytes
of the messages they hand over. -/
theorem WriteCalls.run_streams
    (c : WriteCalls) (hc : c.Regular)
    (s : ConnState) (hs : s.outputView.Consistent) :
    ∃ s' added written, c.run s = some s' ∧
      ConnState.Streams s s' added written ∧
      c.Accounts added written := by
  induction c generalizing s with
  | done =>
      exact ⟨s, [], [], rfl, .refl hs, by simp,
        by simp [WriteCalls.bytes]⟩
  | other code rest ih =>
      obtain ⟨t, ht, hview⟩ := hc.1 s
      obtain ⟨s', added, written, hs', hstreams, hacc⟩ :=
        ih hc.2 t (hview ▸ hs)
      refine ⟨s', added, written, ?_, ?_, hacc⟩
      · rw [WriteCalls.run, ht]
        exact hs'
      · exact ((ConnState.Streams.refl hs).of_outputView hview).trans
          hstreams
  | write r message hw rest ihw ih =>
      obtain ⟨hr, hhw, hrest⟩ := hc
      obtain ⟨t, inner, written, ht, hstreams, hcalled, hquiet⟩ :=
        ConnState.write_streams (ihw hhw) hr message hs
      obtain ⟨s', added, after, hs', hstreams', hbytes, hnil⟩ :=
        ih hrest t hstreams.consistent
      have hinner : ∀ b ∈ inner, b ∈ hw.allBytes := by
        by_cases hcalls : s.callsHighWaterMark r message
        · exact (hcalled hcalls).1
        · rw [(hquiet hcalls).1]
          simp
      refine ⟨s', _, _, ?_, hstreams.trans hstreams', ?_, ?_⟩
      · rw [WriteCalls.run, ht]
        exact hs'
      · intro b hb
        simp only [List.mem_append] at hb
        simp only [WriteCalls.allBytes, List.mem_append]
        rcases hb with ((hb | hb) | hb) | hb
        · exact Or.inl (Or.inl (List.mem_of_mem_take hb))
        · exact Or.inl (Or.inr (hinner b hb))
        · exact Or.inl (Or.inl (List.mem_of_mem_drop hb))
        · exact Or.inr (hbytes b hb)
      · rcases List.eq_nil_or_concat message with hm | ⟨init, b, hm⟩
        · have hcalls : ¬ s.callsHighWaterMark r message := by
            rintro ⟨hlt, _⟩
            simp [hm] at hlt
          rw [(hquiet hcalls).2, hm]
          simpa [WriteCalls.bytes] using hnil
        · simp [WriteCalls.bytes, hm]

/-- One operation on the output side, where the callback may write. -/
inductive StreamOp where
  | write (r : WriteResult) (message : Bytes)
      (onHighWaterMark : WriteCalls)
  | handleWrite (r : WriteResult)
  | other (code : UserCode)

namespace StreamOp

def Regular : StreamOp → Prop
  | .write r _ onHighWaterMark =>
      r.Tolerated ∧ onHighWaterMark.Regular
  | .handleWrite _ => True
  | .other code => LeavesOutput code

/-- No byte of the message is also a byte that the callback writes. -/
def Distinguishable : StreamOp → Prop
  | .write _ message onHighWaterMark =>
      ∀ b ∈ message, b ∉ onHighWaterMark.allBytes
  | _ => True

/-- If the operation calls the callback, the callback's own write calls hand
over no byte. -/
def CallbackSilent (s : ConnState) : StreamOp → Prop
  | .write r message onHighWaterMark =>
      s.callsHighWaterMark r message → onHighWaterMark.bytes = []
  | _ => True

end StreamOp

namespace ConnState

/-- Run one operation of the output side in the loop thread. -/
def streamStep (s : ConnState) : StreamOp → Option ConnState
  | .write r message onHighWaterMark =>
      write onHighWaterMark.run r message s
  | .handleWrite r => some (handleWrite r s)
  | .other code => code s

/-- What was written between the two parts of a message is nothing exactly
when the messages written there have no bytes. -/
theorem Streams.inner_eq_nil_iff
    {s s' : ConnState} {message inner : Bytes} {n : Nat}
    {written : List Bytes}
    (h :
      Streams s s' (message.take n ++ inner ++ message.drop n)
        (message :: written)) :
    inner = [] ↔ written.flatten = [] := by
  have hlen := h.perm.length_eq
  simp only [List.flatten_cons, List.length_append,
    List.length_take, List.length_drop] at hlen
  rw [← List.length_eq_zero_iff, ← List.length_eq_zero_iff]
  omega

/-- Bytes inserted into a message, none of them a byte of it, keep the message
in one piece only if there are none. -/
theorem eq_nil_of_inserted
    {message inner behind : Bytes} {n : Nat}
    (hn : n < message.length)
    (heq :
      message.take n ++ inner ++ message.drop n = message ++ behind)
    (hnew : ∀ b ∈ message, b ∉ inner) :
    inner = [] := by
  have hsplit :
      inner ++ message.drop n = message.drop n ++ behind := by
    have h := heq
    nth_rewrite 3 [← List.take_append_drop n message] at h
    rw [List.append_assoc, List.append_assoc] at h
    exact List.append_cancel_left h
  cases inner with
  | nil =>
      rfl
  | cons b inner =>
      cases hrest : message.drop n with
      | nil =>
          rw [List.drop_eq_nil_iff] at hrest
          omega
      | cons c rest =>
          rw [hrest, List.cons_append, List.cons_append,
            List.cons.injEq] at hsplit
          have hmem : c ∈ message :=
            List.mem_of_mem_drop (hrest ▸ List.mem_cons_self ..)
          exact absurd (List.mem_cons.mpr (Or.inl hsplit.1.symm))
            (hnew c hmem)

/-- One operation completes and adds to the stream, up to order, the bytes
that it hands over.  In the order of the calls exactly when the callback is
silent, as far as the bytes show it. -/
theorem streamStep_streams
    (s : ConnState) (op : StreamOp)
    (hs : s.outputView.Consistent)
    (hop : op.Regular) :
    ∃ s' added written, s.streamStep op = some s' ∧
      Streams s s' added written ∧
      (op.CallbackSilent s → added = written.flatten) ∧
      (op.Distinguishable → added = written.flatten →
        op.CallbackSilent s) := by
  cases op with
  | write r message hw =>
      obtain ⟨s', added, written, hs', hstreams, hcalled, hquiet⟩ :=
        write_streams (hw.run_streams hop.2) hop.1 message hs
      refine ⟨s', _, _, hs', hstreams, ?_, ?_⟩
      · intro hsilent
        have hnil : added = [] ∧ written.flatten = [] := by
          by_cases hcalls : s.callsHighWaterMark r message
          · have hnothing := (hcalled hcalls).2.mpr (hsilent hcalls)
            exact ⟨(hstreams.inner_eq_nil_iff).mpr hnothing, hnothing⟩
          · obtain ⟨ha, hw⟩ := hquiet hcalls
            exact ⟨ha, by simp [hw]⟩
        simp [hnil.1, hnil.2]
      · intro hdist heq hcalls
        obtain ⟨hbytes, hnil⟩ := hcalled hcalls
        rw [List.flatten_cons] at heq
        rw [← hnil, ← hstreams.inner_eq_nil_iff]
        -- the rest of the message starts with a byte that the callback
        -- did not write
        refine eq_nil_of_inserted hcalls.1 heq ?_
        intro b hb hadded
        exact hdist b hb (hbytes b hadded)
  | handleWrite r =>
      obtain ⟨hcons, hchannel⟩ := handleWrite_refines r hs
      refine ⟨s.handleWrite r, [], [], rfl, ⟨hcons, ?_, ?_, .refl _⟩,
        fun _ => rfl, fun _ _ => trivial⟩
      · rw [output_eq_total, output_eq_total, hchannel,
          Channel.total_apply]
        rfl
      · rw [handleWrite_issued, List.append_nil]
  | other code =>
      obtain ⟨s', hs', hview⟩ := hop s
      exact ⟨s', [], [], hs', (Streams.refl hs).of_outputView hview,
        fun _ => rfl, fun _ _ => trivial⟩

/-- The stream holds every byte handed over exactly once, on a consistent
output side. -/
def Accounted (s : ConnState) : Prop :=
  s.outputView.Consistent ∧ s.output.Perm s.issued.flatten

theorem create_inOrder
    (handler : IOHandler ConnHandlerCallback) (quit : Bool) :
    (TCPConnection.create handler quit).InOrder := by
  have hview := create_outputView handler quit
  have hissued :
      (TCPConnection.create handler quit).issued = [] :=
    congrArg OutputView.issued hview
  rw [InOrder, output_eq_total, hview, hissued]
  simp [OutputView.channel, Channel.total, Buffer.empty]

/-- A consistent output side whose stream is in order. -/
def Ordered (s : ConnState) : Prop :=
  s.outputView.Consistent ∧ s.InOrder

/-- Every operation completes and loses or duplicates nothing. -/
theorem streamStep_accounted
    (s : ConnState) (op : StreamOp)
    (hs : s.Accounted)
    (hop : op.Regular) :
    ∃ s', s.streamStep op = some s' ∧ s'.Accounted := by
  obtain ⟨s', added, written, hs', hstreams, _, _⟩ :=
    streamStep_streams s op hs.1 hop
  refine ⟨s', hs', hstreams.consistent, ?_⟩
  rw [hstreams.output_eq, hstreams.issued_eq, List.flatten_append]
  exact hs.2.append hstreams.perm

/-- On a stream in order, one operation with a silent callback leaves it in
order. -/
theorem streamStep_inOrder
    {s s' : ConnState} {op : StreamOp}
    (hordered : s.Ordered)
    (hop : op.Regular)
    (hstep : s.streamStep op = some s') :
    (op.CallbackSilent s → s'.Ordered) ∧
    (op.Distinguishable → s'.InOrder →
      s'.Ordered ∧ op.CallbackSilent s) := by
  obtain ⟨hs, horder⟩ := hordered
  obtain ⟨t, added, written, ht, hstreams, hif, honly⟩ :=
    streamStep_streams s op hs hop
  have hst : t = s' := Option.some.inj (ht.symm.trans hstep)
  subst hst
  have hiff := hstreams.inOrder_iff horder
  refine ⟨?_, ?_⟩
  · intro hsilent
    exact ⟨hstreams.consistent, hiff.mpr (hif hsilent)⟩
  · intro hdist hafter
    exact ⟨⟨hstreams.consistent, hafter⟩,
      honly hdist (hiff.mp hafter)⟩

end ConnState

/-- A high-water-mark callback may write: after every step the output is the
messages in the order in which the write calls were issued. -/
def ReentrantWritesKeepOrder : Prop :=
  ∀ (handler : IOHandler ConnHandlerCallback) (quit : Bool)
    (ops : List StreamOp),
    (∀ op ∈ ops, op.Regular) →
    EveryStep ConnState.streamStep (fun _ _ s' => s'.InOrder)
      (TCPConnection.create handler quit) ops

/-- The mark is 2 and a callback is installed.  The kernel takes one byte of
1, 2, 3; the callback then writes 9. -/
def nestedWriteOps : List StreamOp :=
  [.other (fun s => some (s.setHighWaterMarkCallback 2 (some 0))),
    .write (.takes 1) [1, 2, 3]
      (.write (.takes 9) [9] .done .done)]

theorem nestedWriteOps_regular :
    ∀ op ∈ nestedWriteOps, op.Regular := by
  intro op hop
  simp only [nestedWriteOps, List.mem_cons, List.not_mem_nil,
    or_false] at hop
  rcases hop with rfl | rfl
  · exact fun s => ⟨_, rfl, rfl⟩
  · exact ⟨by decide, by decide, trivial, trivial⟩

/-- The output is 1, 9, 2, 3 although 1, 2, 3 was written before 9. -/
theorem reentrantWrites_out_of_order :
    ¬ ReentrantWritesKeepOrder := by
  intro hkeep
  have hsteps :=
    hkeep (.create 7) false nestedWriteOps nestedWriteOps_regular
  have hcomputed :
      (run ConnState.streamStep freshConnection nestedWriteOps).map
        (fun s => (s.output, s.issued)) =
        some ([1, 9, 2, 3], [[1, 2, 3], [9]]) := by
    decide +kernel
  obtain ⟨s, hs, hfields⟩ := Option.map_eq_some_iff.mp hcomputed
  have hlast : s.InOrder :=
    everyStep_last (ConnState.create_inOrder _ _) hsteps hs
  obtain ⟨hout, hissued⟩ := Prod.mk.inj hfields
  rw [ConnState.InOrder, hout, hissued] at hlast
  exact absurd hlast (by decide)

/-- **Re-entrant writes.**  Every run completes and sends or keeps each byte
handed over exactly once.  If no callback that is called hands over a byte,
the output is in order after every step; and where the bytes of a message
differ from those its callback writes, only then. -/
theorem reentrantWrites_inOrder_when_silent
    (handler : IOHandler ConnHandlerCallback) (quit : Bool)
    (ops : List StreamOp)
    (hops : ∀ op ∈ ops, op.Regular) :
    (∃ s,
      run ConnState.streamStep
        (TCPConnection.create handler quit) ops = some s ∧
      s.output.Perm s.issued.flatten) ∧
    (EveryStep ConnState.streamStep (fun s op _ => op.CallbackSilent s)
        (TCPConnection.create handler quit) ops →
      EveryStep ConnState.streamStep (fun _ _ s' => s'.InOrder)
        (TCPConnection.create handler quit) ops) ∧
    ((∀ op ∈ ops, op.Distinguishable) →
      EveryStep ConnState.streamStep (fun _ _ s' => s'.InOrder)
        (TCPConnection.create handler quit) ops →
      EveryStep ConnState.streamStep
        (fun s op _ => op.CallbackSilent s)
        (TCPConnection.create handler quit) ops) := by
  have hcons := ConnState.create_consistent handler quit
  have horder := ConnState.create_inOrder handler quit
  have hordered : (TCPConnection.create handler quit).Ordered :=
    ⟨hcons, horder⟩
  refine ⟨?_, ?_, ?_⟩
  · have hperm :
        (TCPConnection.create handler quit).Accounted :=
      ⟨hcons, List.Perm.of_eq horder⟩
    obtain ⟨s, hs, hacc⟩ :=
      run_completes ConnState.streamStep_accounted hperm hops
    exact ⟨s, hs, hacc.2⟩
  · refine everyStep_transfer ?_ hordered hops
    intro s op s' hs hop hstep hsilent
    have hafter :=
      (ConnState.streamStep_inOrder hs hop hstep).1 hsilent
    exact ⟨hafter, hafter.2⟩
  · intro hdist
    refine everyStep_transfer ?_ hordered
      (fun op hop => And.intro (hops op hop) (hdist op hop))
    rintro s op s' hs ⟨hop, hd⟩ hstep hafter
    exact (ConnState.streamStep_inOrder hs hop hstep).2 hd hafter

theorem reentrantWrites_sample :
    (∃ s,
      run ConnState.streamStep freshConnection nestedWriteOps =
        some s ∧
      s.output.Perm s.issued.flatten) ∧
    (EveryStep ConnState.streamStep (fun s op _ => op.CallbackSilent s)
        freshConnection nestedWriteOps →
      EveryStep ConnState.streamStep (fun _ _ s' => s'.InOrder)
        freshConnection nestedWriteOps) ∧
    ((∀ op ∈ nestedWriteOps, op.Distinguishable) →
      EveryStep ConnState.streamStep (fun _ _ s' => s'.InOrder)
        freshConnection nestedWriteOps →
      EveryStep ConnState.streamStep
        (fun s op _ => op.CallbackSilent s)
        freshConnection nestedWriteOps) :=
  reentrantWrites_inOrder_when_silent (.create 7) false
    nestedWriteOps nestedWriteOps_regular

end Hohnor
