import Hohnor.OutputStream

/-!
# Writes from other threads

In a thread other than the loop's, every data-carrying overload of
TCPConnection::write queues a functor that captures a StringPiece: a pointer
and a length, not the bytes.  The bytes are read when the loop runs the
functor.  Between the two, any thread may store to the storage, free it, or
append to the Buffer that it belongs to.

The storage is a set of blocks.  A Buffer keeps its chars in one of them and
moves to another when its vector grows.  Each queued functor carries, beside
its StringPiece, the bytes that were readable at the call; no step reads them.
-/

namespace Hohnor

open TransitionRuns ListSegments

/-- The chars of every allocated block. -/
abbrev Blocks := Nat → Option Bytes

/-- `StringPiece`: where the chars are, with its int `length_` as the size_t
that writeInLoop makes of it. -/
structure StringPiece where
  block : Nat
  offset : Nat
  size : Nat
deriving DecidableEq, Repr

namespace StringPiece

/-- The constructors narrow a size to int. -/
def of (block offset size : Nat) : StringPiece where
  block := block
  offset := offset
  size := sizeOfInt size

/-- The chars that a piece refers to; none is an access to freed storage or
past its end. -/
def read (p : StringPiece) (blocks : Blocks) : Option Bytes :=
  (blocks p.block).bind fun chars =>
    if p.offset + p.size ≤ chars.length then
      some (ListSegments.segment chars p.offset (p.offset + p.size))
    else
      none

end StringPiece

/-- A Buffer object of a caller: its vector is a block. -/
structure CallerBuffer where
  block : Nat
  capacity_ : Nat
  readerIndex_ : Nat
  writerIndex_ : Nat
  lastWriteBytes_ : Nat
deriving DecidableEq, Repr

namespace CallerBuffer

/-- The Buffer with the chars of its block. -/
def withChars (c : CallerBuffer) (chars : Bytes) : Buffer where
  buffer_ := chars
  capacity_ := c.capacity_
  readerIndex_ := c.readerIndex_
  writerIndex_ := c.writerIndex_
  lastWriteBytes_ := c.lastWriteBytes_

/-- The object after an operation on its Buffer, in the given block. -/
def ofBuffer (block : Nat) (b : Buffer) : CallerBuffer where
  block := block
  capacity_ := b.capacity_
  readerIndex_ := b.readerIndex_
  writerIndex_ := b.writerIndex_
  lastWriteBytes_ := b.lastWriteBytes_

end CallerBuffer

/-- What the callers own. -/
structure CallerState where
  blocks : Blocks
  buffers : Nat → Option CallerBuffer

/-- One step of a caller on its own storage. -/
inductive CallerOp where
  | alloc (block : Nat) (chars : Bytes)
  | free (block : Nat)
  | store (block offset : Nat) (data : Bytes)
  | newBuffer (id block initialSize : Nat)
  | append (id : Nat) (data : Bytes) (newBlock : Nat)
  | retrieveAll (id : Nat)

namespace CallerState

def setBlock (c : CallerState) (block : Nat) (chars : Option Bytes) :
    CallerState :=
  { c with blocks := Function.update c.blocks block chars }

def setBuffer (c : CallerState) (id : Nat) (b : CallerBuffer) :
    CallerState :=
  { c with buffers := Function.update c.buffers id (some b) }

/-- `Buffer::append`: in place, or in a new block when the vector grows. -/
def append (c : CallerState) (id : Nat) (data : Bytes) (newBlock : Nat) :
    Option CallerState :=
  (c.buffers id).bind fun cb =>
    (c.blocks cb.block).bind fun chars =>
      let b := (cb.withChars chars).append data
      if b.capacity_ = cb.capacity_ then
        some
          ((c.setBlock cb.block (some b.buffer_)).setBuffer id
            (.ofBuffer cb.block b))
      else if (c.blocks newBlock).isNone then
        some
          (((c.setBlock cb.block none).setBlock newBlock
            (some b.buffer_)).setBuffer id (.ofBuffer newBlock b))
      else
        none

/-- `Buffer::retrieveAll`: only the indices move. -/
def retrieveAll (c : CallerState) (id : Nat) : Option CallerState :=
  (c.buffers id).map fun cb =>
    c.setBuffer id
      (.ofBuffer cb.block (cb.withChars []).retrieveAll)

def step (c : CallerState) : CallerOp → Option CallerState
  | .alloc block chars =>
      if (c.blocks block).isNone then
        some (c.setBlock block (some chars))
      else
        none
  | .free block =>
      if (c.blocks block).isSome then
        some (c.setBlock block none)
      else
        none
  | .store block offset data =>
      (c.blocks block).bind fun chars =>
        if offset + data.length ≤ chars.length then
          some (c.setBlock block (some (splice chars offset data)))
        else
          none
  | .newBuffer id block initialSize =>
      if (c.blocks block).isNone then
        some
          ((c.setBlock block
            (some (Buffer.ofSize initialSize).buffer_)).setBuffer id
              (.ofBuffer block (.ofSize initialSize)))
      else
        none
  | .append id data newBlock => c.append id data newBlock
  | .retrieveAll id => c.retrieveAll id

end CallerState

/-- The functor that write() queues, and the bytes that were readable at the
call. -/
structure QueuedWrite where
  message : StringPiece
  bytesAtCall : Bytes

/-- Callers, the functors that the loop has not run yet in their order, and
the connection in its loop thread. -/
structure CrossState where
  callers : CallerState
  queue : List QueuedWrite
  conn : ConnState

/-- One step of a caller or of the loop thread. -/
inductive CrossOp where
  | caller (op : CallerOp)
  | writePiece (block offset size : Nat)
  | writeString (block : Nat)
  | writeBuffer (id : Nat)
  | runFunctor (onHighWaterMark : UserCode) (r : WriteResult)
  | output (op : OutputOp)

namespace CrossState

/-- write() of readable chars in a thread that is not the loop's. -/
def queueWrite (s : CrossState) (block offset : Nat) (chars : Bytes) :
    CrossState :=
  { s with
    queue :=
      s.queue ++ [⟨.of block offset chars.length, chars⟩] }

/-- The functor of write(): it does nothing on a closed connection. -/
def runWrite
    (onHighWaterMark : UserCode) (r : WriteResult) (q : QueuedWrite)
    (s : CrossState) : Option ConnState :=
  if s.conn.isClosed then
    some s.conn
  else
    (q.message.read s.callers.blocks).bind fun message =>
      s.conn.writeInLoop onHighWaterMark r message

/-- The readable chars of `[offset, offset + size)` in a block. -/
def charsAt (s : CrossState) (block offset size : Nat) :
    Option Bytes :=
  StringPiece.read ⟨block, offset, size⟩ s.callers.blocks

/-- One step of the callers or of the loop thread; the retrieveAll of
write(Buffer *) touches no char. -/
def step (s : CrossState) : CrossOp → Option CrossState
  | .caller op =>
      (s.callers.step op).map fun c => { s with callers := c }
  | .writePiece block offset size =>
      (s.charsAt block offset size).map (s.queueWrite block offset)
  | .writeString block =>
      (s.callers.blocks block).map (s.queueWrite block 0)
  | .writeBuffer id =>
      (s.callers.buffers id).bind fun cb =>
        if (cb.withChars []).readableBytes > 0 then
          (s.charsAt cb.block cb.readerIndex_
            (cb.withChars []).readableBytes).bind fun chars =>
              (s.callers.retrieveAll id).map fun c =>
                { s.queueWrite cb.block cb.readerIndex_ chars with
                  callers := c }
        else
          some s
  | .runFunctor onHighWaterMark r =>
      match s.queue with
      | [] => some s
      | q :: rest =>
          (runWrite onHighWaterMark r q s).map fun conn =>
            { s with queue := rest, conn := conn }
  | .output op =>
      (s.conn.outputStep op).map fun conn => { s with conn := conn }

end CrossState

/-- Answers of the kernel that do not abort, and a high-water-mark callback that
does not write. -/
def CrossOp.Regular : CrossOp → Prop
  | .runFunctor onHighWaterMark r =>
      LeavesOutput onHighWaterMark ∧ r.Tolerated
  | .output op => op.Regular
  | _ => True

namespace CrossState

/-- If this step runs a functor, exactly the bytes of its call are appended to
the output. -/
def SendsBytesOfCall (s : CrossState) : CrossOp → Prop
  | .runFunctor onHighWaterMark r =>
      ∀ q rest, s.queue = q :: rest →
        ∃ s', s.step (.runFunctor onHighWaterMark r) = some s' ∧
          s'.conn.output = s.conn.output ++ q.bytesAtCall
  | _ => True

/-- If this step runs a functor, the storage that its StringPiece refers to is
still there and still holds the bytes of the call. -/
def StorageIntact (s : CrossState) : CrossOp → Prop
  | .runFunctor _ _ =>
      ∀ q rest, s.queue = q :: rest →
        q.message.read s.callers.blocks = some q.bytesAtCall
  | _ => True

/-- A step of a caller that changes and frees no char of a queued message, and
a message that an int can measure. -/
def LeavesQueued (s : CrossState) : CrossOp → Prop
  | .caller op =>
      ∀ c, s.callers.step op = some c →
        ∀ q ∈ s.queue,
          q.message.read c.blocks = q.message.read s.callers.blocks
  | .writePiece _ _ size => size < 2 ^ 31
  | .writeString block =>
      ∀ chars, s.callers.blocks block = some chars →
        chars.length < 2 ^ 31
  | .writeBuffer id =>
      ∀ cb, s.callers.buffers id = some cb →
        (cb.withChars []).readableBytes < 2 ^ 31
  | _ => True

/-- The functor of write() appends what its storage holds now. -/
theorem runWrite_spec
    {onHighWaterMark : UserCode} {r : WriteResult}
    (hcb : LeavesOutput onHighWaterMark) (hr : r.Tolerated)
    (q : QueuedWrite) {s : CrossState}
    (hs : s.conn.outputView.Consistent) :
    (q.message.read s.callers.blocks = none →
      runWrite onHighWaterMark r q s = none) ∧
    ∀ message, q.message.read s.callers.blocks = some message →
      ∃ conn, runWrite onHighWaterMark r q s = some conn ∧
        conn.outputView.Consistent ∧
        conn.output = s.conn.output ++ message := by
  have hopen : s.conn.isClosed = false := hs.isOpen
  unfold runWrite
  rw [hopen, if_neg Bool.false_ne_true]
  refine ⟨fun hnone => by rw [hnone, Option.bind_none], ?_⟩
  intro message hread
  obtain ⟨conn, hconn, hcons, _, hchannel⟩ :=
    ConnState.writeInLoop_refines hcb hr message hs
  refine ⟨conn, by rw [hread]; exact hconn, hcons, ?_⟩
  rw [ConnState.output_eq_total, ConnState.output_eq_total, hchannel,
    FifoChannel.Channel.total_apply]
  rfl

/-- Every step keeps the output side consistent. -/
theorem step_consistent
    {s s' : CrossState} {op : CrossOp}
    (hs : s.conn.outputView.Consistent)
    (hop : op.Regular)
    (hstep : s.step op = some s') :
    s'.conn.outputView.Consistent := by
  cases op with
  | caller op =>
      obtain ⟨c, _, rfl⟩ := Option.map_eq_some_iff.mp hstep
      exact hs
  | writePiece block offset size =>
      obtain ⟨chars, _, rfl⟩ := Option.map_eq_some_iff.mp hstep
      exact hs
  | writeString block =>
      obtain ⟨chars, _, rfl⟩ := Option.map_eq_some_iff.mp hstep
      exact hs
  | writeBuffer id =>
      obtain ⟨cb, _, hbuffer⟩ := Option.bind_eq_some_iff.mp hstep
      split at hbuffer
      · obtain ⟨chars, _, hmap⟩ := Option.bind_eq_some_iff.mp hbuffer
        obtain ⟨c, _, rfl⟩ := Option.map_eq_some_iff.mp hmap
        exact hs
      · cases hbuffer
        exact hs
  | runFunctor hw r =>
      simp only [step] at hstep
      split at hstep
      · cases hstep
        exact hs
      · rename_i q rest hqueue
        obtain ⟨conn, hconn, rfl⟩ := Option.map_eq_some_iff.mp hstep
        obtain ⟨hnone, hsome⟩ := runWrite_spec hop.1 hop.2 q hs
        cases hread : q.message.read s.callers.blocks with
        | none =>
            rw [hnone hread] at hconn
            exact absurd hconn (by simp)
        | some message =>
            obtain ⟨t, ht, hcons, _⟩ := hsome message hread
            have htc : t = conn := Option.some.inj (ht.symm.trans hconn)
            subst htc
            exact hcons
  | output op =>
      obtain ⟨conn, hconn, rfl⟩ := Option.map_eq_some_iff.mp hstep
      obtain ⟨t, ht, hcons, _⟩ :=
        ConnState.outputStep_refines s.conn op hs hop
      have htc : t = conn := Option.some.inj (ht.symm.trans hconn)
      subst htc
      exact hcons

/-- A functor sends the bytes of its call exactly when its storage still holds
them. -/
theorem sendsBytesOfCall_iff
    {s : CrossState} {op : CrossOp}
    (hs : s.conn.outputView.Consistent)
    (hop : op.Regular) :
    s.SendsBytesOfCall op ↔ s.StorageIntact op := by
  cases op with
  | runFunctor hw r =>
      simp only [SendsBytesOfCall, StorageIntact]
      refine forall_congr' fun q => forall_congr' fun rest => ?_
      refine forall_congr' fun hqueue => ?_
      obtain ⟨hnone, hsome⟩ := runWrite_spec hop.1 hop.2 q hs
      have hstep :
          s.step (.runFunctor hw r) =
            (runWrite hw r q s).map fun conn =>
              { s with queue := rest, conn := conn } := by
        simp only [step, hqueue]
      rw [hstep]
      cases hread : q.message.read s.callers.blocks with
      | none =>
          rw [hnone hread]
          simp
      | some message =>
          obtain ⟨conn, hconn, _, hout⟩ := hsome message hread
          rw [hconn, Option.map_some]
          constructor
          · rintro ⟨s', hs', hout'⟩
            rw [← Option.some.inj hs', hout] at hout'
            rw [List.append_cancel_left hout']
          · intro heq
            refine ⟨_, rfl, ?_⟩
            rw [hout, Option.some.inj heq]
  | _ =>
      exact Iff.rfl

/-- Every queued functor would send the bytes of its call now. -/
structure QueueIntact (s : CrossState) : Prop where
  consistent : s.conn.outputView.Consistent
  intact :
    ∀ q ∈ s.queue,
      q.message.read s.callers.blocks = some q.bytesAtCall

/-- A message that an int can measure is referred to as it is. -/
theorem read_of
    {block offset : Nat} {chars : Bytes} {blocks : Blocks}
    (hread :
      StringPiece.read ⟨block, offset, chars.length⟩ blocks =
        some chars)
    (hlen : chars.length < 2 ^ 31) :
    (StringPiece.of block offset chars.length).read blocks =
      some chars := by
  unfold StringPiece.of
  rw [sizeOfInt_of_lt hlen]
  exact hread

theorem length_of_read
    {p : StringPiece} {blocks : Blocks} {chars : Bytes}
    (hread : p.read blocks = some chars) :
    chars.length = p.size := by
  obtain ⟨stored, _, hchars⟩ := Option.bind_eq_some_iff.mp hread
  split at hchars
  · rename_i hle
    rw [← Option.some.inj hchars, length_segment hle]
    omega
  · exact absurd hchars (by simp)

theorem QueueIntact.queueWrite
    {s : CrossState} (hs : s.QueueIntact)
    {block offset : Nat} {chars : Bytes}
    (hread :
      StringPiece.read ⟨block, offset, chars.length⟩
        s.callers.blocks = some chars)
    (hlen : chars.length < 2 ^ 31) :
    (s.queueWrite block offset chars).QueueIntact := by
  refine ⟨hs.consistent, ?_⟩
  intro q hq
  rcases List.mem_append.mp hq with hold | hnew
  · exact hs.intact q hold
  · rw [List.mem_singleton] at hnew
    subst hnew
    exact read_of hread hlen

/-- A queue stays intact over every step that leaves its messages alone. -/
theorem step_queueIntact
    {s s' : CrossState} {op : CrossOp}
    (hs : s.QueueIntact)
    (hop : op.Regular)
    (hleaves : s.LeavesQueued op)
    (hstep : s.step op = some s') :
    s'.QueueIntact := by
  have hcons := step_consistent hs.consistent hop hstep
  cases op with
  | caller op =>
      obtain ⟨c, hc, rfl⟩ := Option.map_eq_some_iff.mp hstep
      refine ⟨hcons, ?_⟩
      intro q hq
      exact (hleaves c hc q hq).trans (hs.intact q hq)
  | writePiece block offset size =>
      obtain ⟨chars, hchars, rfl⟩ := Option.map_eq_some_iff.mp hstep
      have hlen : chars.length = size := length_of_read hchars
      subst hlen
      exact hs.queueWrite hchars hleaves
  | writeString block =>
      obtain ⟨chars, hchars, rfl⟩ := Option.map_eq_some_iff.mp hstep
      refine hs.queueWrite ?_ (hleaves chars hchars)
      simp [StringPiece.read, hchars, ListSegments.segment]
  | writeBuffer id =>
      obtain ⟨cb, hcb, hbuffer⟩ := Option.bind_eq_some_iff.mp hstep
      split at hbuffer
      · obtain ⟨chars, hchars, hmap⟩ :=
          Option.bind_eq_some_iff.mp hbuffer
        obtain ⟨c, hc, rfl⟩ := Option.map_eq_some_iff.mp hmap
        have hblocks : c.blocks = s.callers.blocks := by
          obtain ⟨_, _, rfl⟩ := Option.map_eq_some_iff.mp hc
          rfl
        have hlen :
            chars.length = (cb.withChars []).readableBytes :=
          length_of_read hchars
        have hsmall := hleaves cb hcb
        rw [← hlen] at hsmall
        have hread :
            StringPiece.read
              ⟨cb.block, cb.readerIndex_, chars.length⟩
              s.callers.blocks = some chars := by
          rw [hlen]
          exact hchars
        have hqueue := hs.queueWrite hread hsmall
        refine ⟨hcons, ?_⟩
        intro q hq
        rw [hblocks]
        exact hqueue.intact q hq
      · cases hbuffer
        exact hs
  | runFunctor hw r =>
      refine ⟨hcons, ?_⟩
      simp only [step] at hstep
      split at hstep
      · cases hstep
        exact hs.intact
      · rename_i q rest hqueue
        obtain ⟨conn, _, rfl⟩ := Option.map_eq_some_iff.mp hstep
        intro q' hq'
        refine hs.intact q' ?_
        rw [hqueue]
        exact List.mem_cons_of_mem q hq'
  | output op =>
      obtain ⟨conn, _, rfl⟩ := Option.map_eq_some_iff.mp hstep
      exact ⟨hcons, hs.intact⟩

/-- In an intact queue the functor that is run is intact. -/
theorem QueueIntact.storageIntact
    {s : CrossState} (hs : s.QueueIntact)
    (op : CrossOp) :
    s.StorageIntact op := by
  cases op with
  | runFunctor hw r =>
      intro q rest hqueue
      refine hs.intact q ?_
      rw [hqueue]
      exact List.mem_cons_self ..
  | _ =>
      trivial

end CrossState

/-- Whatever the callers do with their storage after write() has returned, the
bytes of the call are what the loop sends. -/
def CrossThreadWritesCopy : Prop :=
  ∀ (s : CrossState) (ops : List CrossOp),
    s.conn.outputView.Consistent →
    s.queue = [] →
    (∀ op ∈ ops, op.Regular) →
    Along CrossState.step CrossState.SendsBytesOfCall s ops

/-- A caller without storage, and a new connection. -/
def idleCaller : CrossState where
  callers := { blocks := fun _ => none, buffers := fun _ => none }
  queue := []
  conn := freshConnection

/-- write(Buffer*) of 1, 2, 3, then an append of 7, 8, 9 to the same
Buffer. -/
def reusedBufferOps : List CrossOp :=
  [.caller (.newBuffer 0 0 16),
    .caller (.append 0 [1, 2, 3] 1),
    .writeBuffer 0,
    .caller (.append 0 [7, 8, 9] 1)]

/-- Then the loop runs the functor. -/
def runsQueued : CrossOp :=
  .runFunctor some (.takes 3)

theorem reusedBufferOps_regular :
    ∀ op ∈ reusedBufferOps ++ [runsQueued], op.Regular := by
  intro op hop
  simp only [reusedBufferOps, runsQueued, List.cons_append,
    List.nil_append, List.mem_cons, List.not_mem_nil, or_false] at hop
  rcases hop with rfl | rfl | rfl | rfl | rfl
  · trivial
  · trivial
  · trivial
  · trivial
  · exact ⟨some_leavesOutput, by decide⟩

/-- The append has overwritten the chars that the functor refers to: 7, 8, 9 is
sent. -/
theorem crossThreadWrite_sends_later_bytes :
    ¬ CrossThreadWritesCopy := by
  intro hcopy
  have hall :=
    hcopy idleCaller (reusedBufferOps ++ [runsQueued])
      (ConnState.create_consistent (.create 7) false) rfl
      reusedBufferOps_regular
  have hqueued :
      (run CrossState.step idleCaller reusedBufferOps).map
        (fun t => (t.queue.map QueuedWrite.bytesAtCall,
          t.conn.output,
          (t.step runsQueued).map fun s' => s'.conn.output)) =
        some ([[1, 2, 3]], [], some [7, 8, 9]) := by
    decide +kernel
  obtain ⟨t, ht, hfields⟩ := Option.map_eq_some_iff.mp hqueued
  obtain ⟨hcalls, hrest⟩ := Prod.mk.inj hfields
  obtain ⟨hout, hsent⟩ := Prod.mk.inj hrest
  obtain ⟨q, rest, hqueue⟩ :
      ∃ q rest, t.queue = q :: rest := by
    cases hq : t.queue with
    | nil =>
        rw [hq] at hcalls
        exact absurd hcalls (by simp)
    | cons q rest =>
        exact ⟨q, rest, rfl⟩
  have hq : q.bytesAtCall = [1, 2, 3] := by
    rw [hqueue, List.map_cons] at hcalls
    exact (List.cons.inj hcalls).1
  obtain ⟨s', hs', hsends⟩ := along_at hall ht q rest hqueue
  obtain ⟨t', ht', hout'⟩ := Option.map_eq_some_iff.mp hsent
  have hst : t' = s' := Option.some.inj (ht'.symm.trans hs')
  subst hst
  rw [hout', hout, hq] at hsends
  exact absurd hsends (by decide)

/-- **Writes from other threads.**  In every run, the functors send the bytes
of their calls exactly when, each time one is run, its storage still holds
them; and that is so in every run in which no caller changes or frees the
chars of a queued message and every message is shorter than 2^31. -/
theorem crossThreadWrite_copies_iff
    (s : CrossState)
    (hs : s.conn.outputView.Consistent)
    (hqueue : s.queue = [])
    (ops : List CrossOp)
    (hops : ∀ op ∈ ops, op.Regular) :
    (Along CrossState.step CrossState.SendsBytesOfCall s ops ↔
      Along CrossState.step CrossState.StorageIntact s ops) ∧
    (Along CrossState.step CrossState.LeavesQueued s ops →
      Along CrossState.step CrossState.SendsBytesOfCall s ops) := by
  have hiff :
      Along CrossState.step CrossState.SendsBytesOfCall s ops ↔
        Along CrossState.step CrossState.StorageIntact s ops := by
    refine along_iff
      (fun s : CrossState => s.conn.outputView.Consistent) ?_ ?_ hs
      hops (along_true _ _ _)
    · intro s op hcons hop _
      exact CrossState.sendsBytesOfCall_iff hcons hop
    · intro s op s' hcons hop hstep
      exact CrossState.step_consistent hcons hop hstep
  refine ⟨hiff, ?_⟩
  intro hleaves
  have hintact : s.QueueIntact := by
    refine ⟨hs, ?_⟩
    rw [hqueue]
    simp
  refine hiff.mpr ?_
  refine along_transfer ?_ hintact hops hleaves
  intro s op hbefore hop hquiet
  refine ⟨hbefore.storageIntact op, ?_⟩
  intro s' hstep
  exact CrossState.step_queueIntact hbefore hop hquiet hstep

theorem crossThreadWrite_copies_sample :
    (Along CrossState.step CrossState.SendsBytesOfCall idleCaller
        (reusedBufferOps ++ [runsQueued]) ↔
      Along CrossState.step CrossState.StorageIntact idleCaller
        (reusedBufferOps ++ [runsQueued])) ∧
    (Along CrossState.step CrossState.LeavesQueued idleCaller
        (reusedBufferOps ++ [runsQueued]) →
      Along CrossState.step CrossState.SendsBytesOfCall idleCaller
        (reusedBufferOps ++ [runsQueued])) :=
  crossThreadWrite_copies_iff idleCaller
    (ConnState.create_consistent (.create 7) false) rfl
    (reusedBufferOps ++ [runsQueued]) reusedBufferOps_regular

end Hohnor
