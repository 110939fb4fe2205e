import Hohnor.Buffer
import Hohnor.TransitionRuns

/-!
# The buffer as a byte queue

What a `Buffer` is for: a sequence of bytes that is added to at the back or at
the front and taken from at the front or at the back.  `BufferOp` are the
operations of the class, `ByteQueueOp` what each does to that sequence.  The
operations run on any number of buffers, since `swap` takes two.

An operation whose assert fails has no result.  Every run of the others
refines the sequences, whichever way the bytes are placed in the storage.
-/

namespace Hohnor

open ListSegments
open TransitionRuns

/-- The operations of a Buffer; `hasWritten` comes with the bytes that the
caller has stored at beginWrite(). -/
inductive BufferOp where
  | append (data : Bytes)
  | prepend (data : Bytes)
  | retrieve (len : Nat)
  | retrieveAsString (len : Nat)
  | retrieveAll
  | retrieveAllAsString
  | ensureWritable (len : Nat)
  | hasWritten (data : Bytes)
  | unwrite (len : Nat)
  | shrink (reserve : Nat)
  | readFd (r : ReadResult)
deriving DecidableEq, Repr

namespace Buffer

/-- The assert at the head of the operation, and for `readFd` that the kernel
delivers no more than it was offered. -/
def admits (b : Buffer) : BufferOp → Bool
  | .prepend data => data.length ≤ b.prependableBytes
  | .retrieve len => len ≤ b.readableBytes
  | .retrieveAsString len => len ≤ b.readableBytes
  | .hasWritten data => data.length ≤ b.writableBytes
  | .unwrite len => len ≤ b.readableBytes
  | .readFd (.delivers data) => data.length ≤ b.readFdOffered
  | _ => true

def perform (b : Buffer) : BufferOp → Buffer
  | .append data => b.append data
  | .prepend data => b.prepend data
  | .retrieve len => b.retrieve len
  | .retrieveAsString len => (b.retrieveAsString len).2
  | .retrieveAll => b.retrieveAll
  | .retrieveAllAsString => b.retrieveAllAsString.2
  | .ensureWritable len => b.ensureWritable len
  | .hasWritten data => (b.copyIn data).hasWritten data.length
  | .unwrite len => b.unwrite len
  | .shrink reserve => b.shrink reserve
  | .readFd r => b.readFd r

/-- The string that the operation returns, if it returns one. -/
def returnedString (b : Buffer) : BufferOp → List Bytes
  | .retrieveAsString len => [(b.retrieveAsString len).1]
  | .retrieveAllAsString => [b.retrieveAllAsString.1]
  | _ => []

end Buffer

/-- What an operation means for the sequence of readable bytes. -/
inductive ByteQueueOp where
  | addBack (data : Bytes)
  | addFront (data : Bytes)
  | dropFront (len : Nat)
  | takeFront (len : Nat)
  | dropAll
  | takeAll
  | dropBack (len : Nat)
  | keep
deriving DecidableEq, Repr

namespace ByteQueueOp

def act (q : Bytes) : ByteQueueOp → Bytes
  | .addBack data => q ++ data
  | .addFront data => data ++ q
  | .dropFront len => q.drop len
  | .takeFront len => q.drop len
  | .dropAll => []
  | .takeAll => []
  | .dropBack len => q.take (q.length - len)
  | .keep => q

/-- The bytes removed, where the operation returns them. -/
def removed (q : Bytes) : ByteQueueOp → List Bytes
  | .takeFront len => [q.take len]
  | .takeAll => [q]
  | _ => []

end ByteQueueOp

/-- The meaning of each operation. -/
def BufferOp.queueOp : BufferOp → ByteQueueOp
  | .append data => .addBack data
  | .prepend data => .addFront data
  | .retrieve len => .dropFront len
  | .retrieveAsString len => .takeFront len
  | .retrieveAll => .dropAll
  | .retrieveAllAsString => .takeAll
  | .ensureWritable _ => .keep
  | .hasWritten data => .addBack data
  | .unwrite len => .dropBack len
  | .shrink _ => .keep
  | .readFd (.delivers data) => .addBack data
  | .readFd (.fails _) => .keep

namespace Buffer

/-- The content is moved down only from beyond the cheap prepend area, so that
`std::copy`, which goes from the first char to the last, moves it intact. -/
theorem Valid.makeSpace_copiesForward
    {b : Buffer}
    (hb : b.Valid)
    {len : Nat}
    (hlen : b.writableBytes < len)
    (hroom : len + kCheapPrepend ≤ b.writableBytes + b.prependableBytes) :
    kCheapPrepend < b.readerIndex_ ∧
    (b.makeSpace len).buffer_ =
      copyForward b.buffer_ b.readerIndex_ kCheapPrepend
        b.readableBytes := by
  have hreader : kCheapPrepend < b.readerIndex_ := by
    unfold prependableBytes at hroom
    omega
  have hr := hb.reader_le
  have hw := hb.writer_le
  have hend : b.readerIndex_ + b.readableBytes = b.writerIndex_ := by
    unfold readableBytes
    omega
  refine ⟨hreader, ?_⟩
  rw [copyForward_eq_splice (Nat.le_of_lt hreader) (by omega), hend]
  simp only [Buffer.makeSpace, if_neg (Nat.not_lt_of_le hroom)]
  rfl

theorem Valid.prepend
    {b : Buffer}
    (hb : b.Valid)
    {data : Bytes}
    (hroom : data.length ≤ b.prependableBytes) :
    (b.prepend data).Valid ∧
    (b.prepend data).readableSlice = data ++ b.readableSlice := by
  have hr := hb.reader_le
  have hw := hb.writer_le
  unfold prependableBytes at hroom
  have hstart :
      b.readerIndex_ - data.length + data.length = b.readerIndex_ := by
    omega
  have hfit :
      b.readerIndex_ - data.length + data.length ≤ b.buffer_.length := by
    omega
  have hlen := length_splice hfit
  refine ⟨⟨?_, ?_, ?_⟩, ?_⟩
  · simp only [Buffer.prepend]
    omega
  · simp only [Buffer.prepend, hlen]
    exact hw
  · simp only [Buffer.prepend, hlen]
    exact hb.prepend_le
  · simp only [Buffer.prepend, readableSlice]
    rw [segment_splice_before data hfit (by omega), hstart]

theorem Valid.unwrite
    {b : Buffer}
    (hb : b.Valid)
    {len : Nat}
    (hlen : len ≤ b.readableBytes) :
    (b.unwrite len).Valid ∧
    (b.unwrite len).readableSlice =
      b.readableSlice.take (b.readableSlice.length - len) := by
  have hr := hb.reader_le
  have hw := hb.writer_le
  rw [hb.length_readableSlice]
  unfold readableBytes at hlen ⊢
  refine ⟨⟨?_, ?_, hb.prepend_le⟩, ?_⟩
  · simp only [Buffer.unwrite]
    omega
  · simp only [Buffer.unwrite]
    omega
  · have hend :
        b.readerIndex_ + (b.writerIndex_ - b.readerIndex_ - len) =
          b.writerIndex_ - len := by
      omega
    simp only [Buffer.unwrite, readableSlice]
    rw [take_segment _ (by omega), hend]

theorem Valid.hasWritten
    {b : Buffer}
    (hb : b.Valid)
    {data : Bytes}
    (hroom : data.length ≤ b.writableBytes) :
    ((b.copyIn data).hasWritten data.length).Valid ∧
    ((b.copyIn data).hasWritten data.length).readableSlice =
      b.readableSlice ++ data :=
  hb.written hroom _

/-- Every operation whose assert holds keeps the layout and does to the content
what it means. -/
theorem Valid.perform
    {b : Buffer}
    (hb : b.Valid)
    {op : BufferOp}
    (hadmits : b.admits op = true) :
    (b.perform op).Valid ∧
    (b.perform op).readableSlice = op.queueOp.act b.readableSlice := by
  cases op with
  | append data =>
      exact ⟨hb.append data, hb.append_readableSlice data⟩
  | prepend data =>
      exact hb.prepend (of_decide_eq_true hadmits)
  | retrieve len =>
      exact ⟨hb.retrieve len, hb.retrieve_readableSlice len⟩
  | retrieveAsString len =>
      exact ⟨hb.retrieve len, hb.retrieve_readableSlice len⟩
  | retrieveAll =>
      exact ⟨hb.retrieveAll, retrieveAll_readableSlice b⟩
  | retrieveAllAsString =>
      refine ⟨hb.retrieve _, ?_⟩
      have hslice := hb.retrieve_readableSlice b.readableBytes
      rw [← hb.length_readableSlice, List.drop_length,
        hb.length_readableSlice] at hslice
      exact hslice
  | ensureWritable len =>
      obtain ⟨hvalid, _, hsame⟩ := hb.ensureWritable len
      exact ⟨hvalid, hsame⟩
  | hasWritten data =>
      exact hb.hasWritten (of_decide_eq_true hadmits)
  | unwrite len =>
      exact hb.unwrite (of_decide_eq_true hadmits)
  | shrink reserve =>
      exact b.shrink_valid reserve
  | readFd r =>
      cases r with
      | fails savedErrno =>
          exact ⟨hb, rfl⟩
      | delivers data =>
          exact ⟨hb.readFd (.delivers data),
            hb.readFd_readableSlice data⟩

/-- The strings returned are exactly the bytes removed. -/
theorem Valid.returnedString
    {b : Buffer}
    (hb : b.Valid)
    {op : BufferOp}
    (hadmits : b.admits op = true) :
    b.returnedString op = op.queueOp.removed b.readableSlice := by
  cases op with
  | retrieveAsString len =>
      have hlen : len ≤ b.readableBytes := of_decide_eq_true hadmits
      simp only [Buffer.returnedString, BufferOp.queueOp,
        ByteQueueOp.removed, retrieveAsString_fst hlen]
  | retrieveAllAsString =>
      have htake := retrieveAsString_fst (Nat.le_refl b.readableBytes)
      rw [← hb.length_readableSlice, List.take_length,
        hb.length_readableSlice] at htake
      simp only [Buffer.returnedString, BufferOp.queueOp,
        ByteQueueOp.removed, retrieveAllAsString, htake]
  | readFd r =>
      cases r with
      | fails savedErrno =>
          rfl
      | delivers data =>
          rfl
  | append data =>
      rfl
  | prepend data =>
      rfl
  | retrieve len =>
      rfl
  | retrieveAll =>
      rfl
  | ensureWritable len =>
      rfl
  | hasWritten data =>
      rfl
  | unwrite len =>
      rfl
  | shrink reserve =>
      rfl

end Buffer

/-- Buffers by name, and the strings that were returned so far. -/
structure BufferBank (ι : Type) where
  buffers : ι → Buffer
  strings : List Bytes

inductive BankOp (ι : Type) where
  | on (i : ι) (op : BufferOp)
  | swap (i j : ι)

/-- The sequences that the buffers stand for. -/
structure QueueBank (ι : Type) where
  queues : ι → Bytes
  strings : List Bytes

section Banks

variable {ι : Type}

namespace BufferBank

/-- Buffers as their constructor makes them. -/
def fresh (initialSize : ι → Nat) : BufferBank ι where
  buffers := fun i => .ofSize (initialSize i)
  strings := []

def content (s : BufferBank ι) : QueueBank ι where
  queues := fun i => (s.buffers i).readableSlice
  strings := s.strings

/-- Every buffer has its layout in order. -/
def Valid (s : BufferBank ι) : Prop :=
  ∀ i, (s.buffers i).Valid

/-- `ensureWritable` has left the room it was asked for. -/
def RoomMade (op : BankOp ι) (s' : BufferBank ι) : Prop :=
  ∀ i len, op = .on i (.ensureWritable len) →
    len ≤ (s'.buffers i).writableBytes

end BufferBank

/-- Empty sequences. -/
def QueueBank.empty : QueueBank ι where
  queues := fun _ => []
  strings := []

theorem BufferBank.fresh_valid
    (initialSize : ι → Nat) :
    (fresh initialSize).Valid :=
  fun i => Buffer.ofSize_valid (initialSize i)

theorem BufferBank.content_fresh
    (initialSize : ι → Nat) :
    (fresh initialSize).content = QueueBank.empty := by
  simp [content, fresh, QueueBank.empty]

variable [DecidableEq ι]

def BufferBank.step (s : BufferBank ι) :
    BankOp ι → Option (BufferBank ι)
  | .on i op =>
      if (s.buffers i).admits op then
        some
          { buffers :=
              Function.update s.buffers i ((s.buffers i).perform op)
            strings := s.strings ++ (s.buffers i).returnedString op }
      else
        none
  | .swap i j =>
      let r := (s.buffers i).swap (s.buffers j)
      some
        { s with
          buffers :=
            Function.update (Function.update s.buffers i r.1) j r.2 }

def QueueBank.step (q : QueueBank ι) : BankOp ι → QueueBank ι
  | .on i op =>
      { queues :=
          Function.update q.queues i (op.queueOp.act (q.queues i))
        strings := q.strings ++ op.queueOp.removed (q.queues i) }
  | .swap i j =>
      { q with
        queues :=
          Function.update (Function.update q.queues i (q.queues j)) j
            (q.queues i) }

namespace BufferBank

/-- The content of an updated buffer. -/
theorem readableSlice_update
    (f : ι → Buffer) (i : ι) (b : Buffer) :
    (fun j => (Function.update f i b j).readableSlice) =
      Function.update (fun j => (f j).readableSlice) i
        b.readableSlice := by
  funext j
  by_cases hj : j = i
  · subst hj
    simp
  · simp [hj]

theorem valid_update
    {f : ι → Buffer} (hf : ∀ i, (f i).Valid)
    (i : ι) {b : Buffer} (hb : b.Valid) :
    ∀ j, (Function.update f i b j).Valid := by
  intro j
  by_cases hj : j = i
  · subst hj
    simpa using hb
  · simpa [hj] using hf j

/-- One operation keeps every layout and does to the contents what it means. -/
theorem Valid.step
    {s s' : BufferBank ι} (hs : s.Valid)
    {op : BankOp ι} (hstep : s.step op = some s') :
    s'.Valid ∧ s'.content = s.content.step op := by
  cases op with
  | on i op =>
      simp only [BufferBank.step, Option.ite_none_right_eq_some,
        Option.some.injEq] at hstep
      obtain ⟨hadmits, rfl⟩ := hstep
      obtain ⟨hvalid, hslice⟩ := (hs i).perform hadmits
      refine ⟨valid_update hs i hvalid, ?_⟩
      simp only [content, QueueBank.step, readableSlice_update, hslice,
        (hs i).returnedString hadmits]
  | swap i j =>
      simp only [BufferBank.step, Option.some.injEq] at hstep
      subst hstep
      have hleft : ((s.buffers i).swap (s.buffers j)).1.Valid :=
        ⟨(hs j).reader_le, (hs j).writer_le, (hs j).prepend_le⟩
      have hright : ((s.buffers i).swap (s.buffers j)).2.Valid :=
        ⟨(hs i).reader_le, (hs i).writer_le, (hs i).prepend_le⟩
      refine ⟨valid_update (valid_update hs i hleft) j hright, ?_⟩
      simp only [content, QueueBank.step, readableSlice_update]
      rfl

theorem Valid.roomMade
    {s s' : BufferBank ι} (hs : s.Valid)
    {op : BankOp ι} (hstep : s.step op = some s') :
    RoomMade op s' := by
  rintro i len rfl
  simp only [BufferBank.step, Option.ite_none_right_eq_some,
    Option.some.injEq] at hstep
  obtain ⟨_, rfl⟩ := hstep
  simpa [Buffer.perform] using ((hs i).ensureWritable len).2.1

/-- Every run of operations whose asserts hold, on any number of buffers, keeps
the indices in order and the readable bytes equal to the abstract sequences,
returns the bytes it removes, and makes the room it is asked for. -/
theorem buffers_refine_queues
    {initialSize : ι → Nat} {ops : List (BankOp ι)}
    {t : BufferBank ι}
    (hrun : run BufferBank.step (fresh initialSize) ops = some t) :
    (∀ i, (t.buffers i).readerIndex_ ≤ (t.buffers i).writerIndex_ ∧
      (t.buffers i).writerIndex_ ≤ (t.buffers i).buffer_.length) ∧
    t.content = ops.foldl QueueBank.step QueueBank.empty ∧
    EveryStep BufferBank.step (fun _ op s' => RoomMade op s')
      (fresh initialSize) ops := by
  have hstep :
      ∀ (s : BufferBank ι) (op : BankOp ι) (s' : BufferBank ι),
        s.Valid → True → s.step op = some s' →
        s'.Valid ∧ s'.content = s.content.step op :=
    fun _ _ _ hs _ hs' => hs.step hs'
  obtain ⟨hvalid, hcontent⟩ :=
    run_simulates content QueueBank.step Valid hstep
      (fresh_valid initialSize) (fun _ _ => trivial) hrun
  rw [content_fresh] at hcontent
  refine ⟨fun i => ⟨(hvalid i).reader_le, (hvalid i).writer_le⟩,
    hcontent, ?_⟩
  have hroom :
      ∀ (s : BufferBank ι) (op : BankOp ι) (s' : BufferBank ι),
        s.Valid → True → s.step op = some s' →
        s'.Valid ∧ RoomMade op s' :=
    fun _ _ _ hs _ hs' => ⟨(hs.step hs').1, hs.roomMade hs'⟩
  exact everyStep_of_invariant hroom (fresh_valid initialSize)
    (fun _ _ => trivial)

/-- Content that is moved down, content that is exchanged, and a read that goes
past the end of the storage. -/
def sampleOps : List (BankOp Bool) :=
  [.on true (.append [1, 2, 3, 4]), .on true (.retrieve 3),
    .on true (.append [5, 6]), .on true (.prepend [0]),
    .on true (.unwrite 1), .swap true false,
    .on false (.ensureWritable 9),
    .on true (.readFd (.delivers [7, 8, 9, 10, 11, 12])),
    .on false (.retrieveAsString 2)]

theorem buffers_refine_queues_sample :
    ∃ t : BufferBank Bool,
      run BufferBank.step (fresh (fun _ => 4)) sampleOps = some t ∧
      ((∀ i, (t.buffers i).readerIndex_ ≤ (t.buffers i).writerIndex_ ∧
          (t.buffers i).writerIndex_ ≤ (t.buffers i).buffer_.length) ∧
        t.content = sampleOps.foldl QueueBank.step QueueBank.empty ∧
        EveryStep BufferBank.step (fun _ op s' => RoomMade op s')
          (fresh (fun _ => 4)) sampleOps) ∧
      (t.buffers true).readableSlice = [7, 8, 9, 10, 11, 12] ∧
      t.strings = [[0, 4]] := by
  obtain ⟨t, hrun, hview⟩ :=
    Option.map_eq_some_iff.mp
      (show (run BufferBank.step (fresh (fun _ => 4)) sampleOps).map
            (fun t => ((t.buffers true).readableSlice, t.strings)) =
          some ([7, 8, 9, 10, 11, 12], [[0, 4]])
        by decide +kernel)
  obtain ⟨hslice, hstrings⟩ := Prod.mk.inj hview
  exact ⟨t, hrun, buffers_refine_queues hrun, hslice, hstrings⟩

end BufferBank

end Banks

end Hohnor
