import Hohnor.ListSegments
import Hohnor.SystemCalls
import Mathlib.Tactic

/-!
# The byte buffer

`Buffer` of include/hohnor/common/Buffer.h and src/net/Buffer.cpp: a vector of
chars with a read and a write index.  The bytes between the two indices are
the content; those before are prependable and those after are writable.

The operations are translated as they stand.  The C++ asserts are the
preconditions of the lemmas, not tests in the code.  `capacity_` is what
std::vector reserves; its growth is that of libstdc++.  The abstract value of
a buffer is its `readableSlice`, and every operation has one lemma that says
what it does to that value.
-/

namespace Hohnor

open ListSegments

def kCheapPrepend : Nat := 8

def kInitialSize : Nat := 1024

structure Buffer where
  buffer_ : Bytes
  capacity_ : Nat
  readerIndex_ : Nat
  writerIndex_ : Nat
  lastWriteBytes_ : Nat
deriving DecidableEq, Repr

/-- `static_cast<int>` of a size, stored back into a size_t. -/
def sizeOfInt (len : Nat) : Nat :=
  if len % 2 ^ 32 < 2 ^ 31 then
    len % 2 ^ 32
  else
    2 ^ 64 - 2 ^ 32 + len % 2 ^ 32

/-- A small length survives the cast to int. -/
theorem sizeOfInt_of_lt
    {len : Nat}
    (hlen : len < 2 ^ 31) :
    sizeOfInt len = len := by
  have hmod : len % 2 ^ 32 = len := Nat.mod_eq_of_lt (by omega)
  unfold sizeOfInt
  rw [hmod, if_pos hlen]

namespace Buffer

/-- The constructor, with the storage zeroed. -/
def ofSize (initialSize : Nat) : Buffer where
  buffer_ := List.replicate (kCheapPrepend + initialSize) 0
  capacity_ := kCheapPrepend + initialSize
  readerIndex_ := kCheapPrepend
  writerIndex_ := kCheapPrepend
  lastWriteBytes_ := 0

/-- The buffer that the default constructor makes. -/
def empty : Buffer := ofSize kInitialSize

def readableBytes (b : Buffer) : Nat :=
  b.writerIndex_ - b.readerIndex_

def writableBytes (b : Buffer) : Nat :=
  b.buffer_.length - b.writerIndex_

def prependableBytes (b : Buffer) : Nat :=
  b.readerIndex_

def capacity (b : Buffer) : Nat :=
  b.capacity_

/-- The content: what peek() points to, readableBytes() long. -/
def readableSlice (b : Buffer) : Bytes :=
  segment b.buffer_ b.readerIndex_ b.writerIndex_

/-- The stored size_t read back as an ssize_t. -/
def lastWriteBytes (b : Buffer) : Int :=
  if b.lastWriteBytes_ < 2 ^ 63 then
    (b.lastWriteBytes_ : Int)
  else
    (b.lastWriteBytes_ : Int) - 2 ^ 64

def retrieveAll (b : Buffer) : Buffer :=
  { b with
    readerIndex_ := kCheapPrepend
    writerIndex_ := kCheapPrepend }

def retrieve (b : Buffer) (len : Nat) : Buffer :=
  if len < b.readableBytes then
    { b with readerIndex_ := b.readerIndex_ + len }
  else
    b.retrieveAll

def retrieveAsString (b : Buffer) (len : Nat) : Bytes × Buffer :=
  (segment b.buffer_ b.readerIndex_ (b.readerIndex_ + len),
    b.retrieve len)

def retrieveAllAsString (b : Buffer) : Bytes × Buffer :=
  b.retrieveAsString b.readableBytes

/-- `std::vector::resize`: new chars are zero, and storage that is too small
is replaced by one of at least twice the old size. -/
def resize (b : Buffer) (n : Nat) : Buffer :=
  { b with
    buffer_ :=
      b.buffer_.take n ++
        List.replicate (n - b.buffer_.length) 0
    capacity_ :=
      if n ≤ b.capacity_ then b.capacity_
      else max (2 * b.buffer_.length) n }

def makeSpace (b : Buffer) (len : Nat) : Buffer :=
  if b.writableBytes + b.prependableBytes < len + kCheapPrepend then
    b.resize (b.writerIndex_ + len)
  else
    { b with
      buffer_ := splice b.buffer_ kCheapPrepend b.readableSlice
      readerIndex_ := kCheapPrepend
      writerIndex_ := kCheapPrepend + b.readableBytes }

def ensureWritable (b : Buffer) (len : Nat) : Buffer :=
  if b.writableBytes < len then b.makeSpace len else b

/-- `std::copy(data, data + len, beginWrite())`. -/
def copyIn (b : Buffer) (data : Bytes) : Buffer :=
  { b with buffer_ := splice b.buffer_ b.writerIndex_ data }

def hasWritten (b : Buffer) (len : Nat) : Buffer :=
  { b with
    writerIndex_ := b.writerIndex_ + len
    lastWriteBytes_ := sizeOfInt len }

def append (b : Buffer) (data : Bytes) : Buffer :=
  ((b.ensureWritable data.length).copyIn data).hasWritten data.length

def prepend (b : Buffer) (data : Bytes) : Buffer :=
  { b with
    buffer_ :=
      splice b.buffer_ (b.readerIndex_ - data.length) data
    readerIndex_ := b.readerIndex_ - data.length }

def unwrite (b : Buffer) (len : Nat) : Buffer :=
  { b with
    writerIndex_ := b.writerIndex_ - len
    lastWriteBytes_ := b.writerIndex_ - len - b.readerIndex_ }

/-- Both buffers after `swap`; `lastWriteBytes_` is not exchanged. -/
def swap (b rhs : Buffer) : Buffer × Buffer :=
  ({ rhs with lastWriteBytes_ := b.lastWriteBytes_ },
    { b with lastWriteBytes_ := rhs.lastWriteBytes_ })

def shrink (b : Buffer) (reserve : Nat) : Buffer :=
  let other := empty.ensureWritable (b.readableBytes + reserve)
  (b.swap (other.append b.readableSlice)).1

/-- Size of the stack buffer that readFd offers after the writable area. -/
def kExtraBufSize : Nat := 65536

/-- Number of bytes that readFd offers to `::readv`. -/
def readFdOffered (b : Buffer) : Nat :=
  if b.writableBytes < kExtraBufSize then
    b.writableBytes + kExtraBufSize
  else
    b.writableBytes

/-- `Buffer::readFd`, given what `::readv` answers. -/
def readFd (b : Buffer) : ReadResult → Buffer
  | .fails _ => b
  | .delivers data =>
      if data.length ≤ b.writableBytes then
        { b.copyIn data with
          writerIndex_ := b.writerIndex_ + data.length }
      else
        ({ b.copyIn (data.take b.writableBytes) with
          writerIndex_ := b.buffer_.length }).append
            (data.drop b.writableBytes)

/-- The layout drawn in the header: prependable, readable and writable bytes
follow each other inside the storage. -/
structure Valid (b : Buffer) : Prop where
  reader_le : b.readerIndex_ ≤ b.writerIndex_
  writer_le : b.writerIndex_ ≤ b.buffer_.length
  prepend_le : kCheapPrepend ≤ b.buffer_.length

theorem ofSize_valid
    (initialSize : Nat) :
    (ofSize initialSize).Valid := by
  refine ⟨Nat.le_refl _, ?_, ?_⟩ <;>
    simp [ofSize]

@[simp] theorem ofSize_readableSlice
    (initialSize : Nat) :
    (ofSize initialSize).readableSlice = [] := by
  exact segment_self _ _

/-- The content has as many bytes as readableBytes() says. -/
theorem Valid.length_readableSlice
    {b : Buffer}
    (hb : b.Valid) :
    b.readableSlice.length = b.readableBytes :=
  length_segment hb.writer_le

theorem Valid.readableSlice_eq_nil_iff
    {b : Buffer}
    (hb : b.Valid) :
    b.readableSlice = [] ↔ b.readableBytes = 0 := by
  rw [← List.length_eq_zero_iff, hb.length_readableSlice]

@[simp] theorem retrieveAll_readableSlice
    (b : Buffer) :
    b.retrieveAll.readableSlice = [] := by
  exact segment_self _ _

theorem Valid.retrieveAll
    {b : Buffer}
    (hb : b.Valid) :
    b.retrieveAll.Valid :=
  ⟨Nat.le_refl _, hb.prepend_le, hb.prepend_le⟩

theorem Valid.retrieve
    {b : Buffer}
    (hb : b.Valid)
    (len : Nat) :
    (b.retrieve len).Valid := by
  rw [Buffer.retrieve]
  split
  · rename_i hlt
    have h := hb.reader_le
    unfold readableBytes at hlt
    exact ⟨by simp only; omega, hb.writer_le, hb.prepend_le⟩
  · exact hb.retrieveAll

/-- `retrieve` removes bytes from the front. -/
theorem Valid.retrieve_readableSlice
    {b : Buffer}
    (hb : b.Valid)
    (len : Nat) :
    (b.retrieve len).readableSlice = b.readableSlice.drop len := by
  unfold Buffer.retrieve
  split
  · exact (drop_segment _ _ _ _).symm
  · rename_i hge
    rw [retrieveAll_readableSlice]
    rw [List.drop_of_length_le]
    rw [hb.length_readableSlice]
    omega

/-- `retrieveAsString` returns exactly the bytes it removes. -/
theorem retrieveAsString_fst
    {b : Buffer} {len : Nat}
    (hlen : len ≤ b.readableBytes) :
    (b.retrieveAsString len).1 = b.readableSlice.take len := by
  rcases Nat.eq_zero_or_pos len with hzero | hpos
  · subst hzero
    exact segment_self _ _
  · unfold readableBytes at hlen
    exact (take_segment _ (by omega)).symm

theorem Valid.makeSpace
    {b : Buffer}
    (hb : b.Valid)
    {len : Nat}
    (hlen : b.writableBytes < len) :
    (b.makeSpace len).Valid ∧
    len ≤ (b.makeSpace len).writableBytes ∧
    (b.makeSpace len).readableSlice = b.readableSlice := by
  have hr := hb.reader_le
  have hw := hb.writer_le
  have hp := hb.prepend_le
  unfold Buffer.makeSpace
  split
  · rename_i hsmall
    unfold writableBytes at hlen
    have htake : b.buffer_.take (b.writerIndex_ + len) = b.buffer_ :=
      List.take_of_length_le (by omega)
    refine ⟨⟨hr, ?_, ?_⟩, ?_, ?_⟩
    · simp [resize, htake]
      omega
    · simp [resize, htake]
      omega
    · simp [resize, writableBytes, htake]
      omega
    · simp only [readableSlice, resize, htake]
      exact segment_append_left _ hw
  · rename_i hlarge
    -- the storage is large enough, so the content lies past the cheap
    -- prepend area and moves down to it
    rw [writableBytes, prependableBytes, kCheapPrepend] at *
    have hlength := hb.length_readableSlice
    unfold readableBytes at hlength
    have hfit : 8 + b.readableSlice.length ≤ b.buffer_.length := by
      omega
    have hsplice := length_splice hfit
    refine ⟨⟨Nat.le_add_right _ _, ?_, ?_⟩, ?_, ?_⟩
    · simp only [hsplice, readableBytes]
      omega
    · simp only [kCheapPrepend, hsplice]
      omega
    · simp only [hsplice, readableBytes]
      omega
    · have hself :
          segment (splice b.buffer_ 8 b.readableSlice)
            8 (8 + b.readableSlice.length) = b.readableSlice :=
        segment_splice_self _ hp
      rw [hb.length_readableSlice] at hself
      exact hself

/-- `ensureWritable` keeps the content and leaves the room asked for. -/
theorem Valid.ensureWritable
    {b : Buffer}
    (hb : b.Valid)
    (len : Nat) :
    (b.ensureWritable len).Valid ∧
    len ≤ (b.ensureWritable len).writableBytes ∧
    (b.ensureWritable len).readableSlice = b.readableSlice := by
  rw [Buffer.ensureWritable]
  split
  · rename_i hlt
    exact hb.makeSpace hlt
  · rename_i hge
    exact ⟨hb, Nat.le_of_not_lt hge, rfl⟩

/-- Bytes copied into the writable area and then counted as written are at
the end of the content. -/
theorem Valid.written
    {b : Buffer}
    (hb : b.Valid)
    {data : Bytes}
    (hfit : data.length ≤ b.writableBytes)
    (last : Nat) :
    ({ b.copyIn data with
        writerIndex_ := b.writerIndex_ + data.length
        lastWriteBytes_ := last } : Buffer).Valid ∧
    ({ b.copyIn data with
        writerIndex_ := b.writerIndex_ + data.length
        lastWriteBytes_ := last } : Buffer).readableSlice =
      b.readableSlice ++ data := by
  have hr := hb.reader_le
  have hw := hb.writer_le
  have hp := hb.prepend_le
  unfold writableBytes at hfit
  have hlen : b.writerIndex_ + data.length ≤ b.buffer_.length := by
    omega
  refine ⟨⟨?_, ?_, ?_⟩, ?_⟩
  · exact Nat.le_trans hr (Nat.le_add_right _ _)
  · simpa [copyIn, length_splice hlen] using hlen
  · simpa [copyIn, length_splice hlen] using hp
  · exact segment_splice_extend data hr hw

theorem Valid.append
    {b : Buffer}
    (hb : b.Valid)
    (data : Bytes) :
    (b.append data).Valid := by
  obtain ⟨hvalid, hroom, _⟩ := hb.ensureWritable data.length
  exact (hvalid.written hroom _).1

/-- `append` adds bytes at the back. -/
theorem Valid.append_readableSlice
    {b : Buffer}
    (hb : b.Valid)
    (data : Bytes) :
    (b.append data).readableSlice = b.readableSlice ++ data := by
  obtain ⟨hvalid, hroom, hsame⟩ := hb.ensureWritable data.length
  have hwritten :=
    (hvalid.written hroom (sizeOfInt data.length)).2
  rw [hsame] at hwritten
  exact hwritten

/-- A read that fits is delivered in place; nothing records its length. -/
theorem readFd_of_le
    {b : Buffer} {data : Bytes}
    (hfit : data.length ≤ b.writableBytes) :
    b.readFd (.delivers data) =
      { b.copyIn data with
        writerIndex_ := b.writerIndex_ + data.length
        lastWriteBytes_ := b.lastWriteBytes_ } := by
  simp [readFd, hfit, copyIn]

/-- A longer read fills the storage and appends the rest from extrabuf. -/
theorem readFd_of_gt
    {b : Buffer} {data : Bytes}
    (hspill : b.writableBytes < data.length) :
    b.readFd (.delivers data) =
      ({ b.copyIn (data.take b.writableBytes) with
        writerIndex_ := b.buffer_.length
        lastWriteBytes_ := b.lastWriteBytes_ } : Buffer).append
          (data.drop b.writableBytes) := by
  simp [readFd, Nat.not_le_of_lt hspill, copyIn]

/-- The storage filled to its end by the first part of a read. -/
theorem Valid.filled
    {b : Buffer}
    (hb : b.Valid)
    {data : Bytes}
    (hspill : b.writableBytes < data.length) :
    ({ b.copyIn (data.take b.writableBytes) with
        writerIndex_ := b.buffer_.length
        lastWriteBytes_ := b.lastWriteBytes_ } : Buffer).Valid ∧
    ({ b.copyIn (data.take b.writableBytes) with
        writerIndex_ := b.buffer_.length
        lastWriteBytes_ := b.lastWriteBytes_ } : Buffer).readableSlice =
      b.readableSlice ++ data.take b.writableBytes := by
  have hw := hb.writer_le
  have hlen : (data.take b.writableBytes).length =
      b.writableBytes := by
    rw [List.length_take]
    omega
  have hend : b.writerIndex_ + b.writableBytes =
      b.buffer_.length := by
    rw [writableBytes]
    omega
  have hfull :=
    hb.written (Nat.le_of_eq hlen) b.lastWriteBytes_
  rw [hlen, hend] at hfull
  exact hfull

theorem Valid.readFd
    {b : Buffer}
    (hb : b.Valid)
    (r : ReadResult) :
    (b.readFd r).Valid := by
  cases r with
  | fails savedErrno =>
      exact hb
  | delivers data =>
      rcases Nat.lt_or_ge b.writableBytes data.length with
        hspill | hfit
      · rw [readFd_of_gt hspill]
        exact (hb.filled hspill).1.append _
      · rw [readFd_of_le hfit]
        exact (hb.written hfit _).1

/-- `readFd` adds the bytes read at the back, whichever branch it takes. -/
theorem Valid.readFd_readableSlice
    {b : Buffer}
    (hb : b.Valid)
    (data : Bytes) :
    (b.readFd (.delivers data)).readableSlice =
      b.readableSlice ++ data := by
  rcases Nat.lt_or_ge b.writableBytes data.length with
    hspill | hfit
  · obtain ⟨hvalid, hslice⟩ := hb.filled hspill
    rw [readFd_of_gt hspill]
    rw [hvalid.append_readableSlice, hslice]
    rw [List.append_assoc, List.take_append_drop]
  · rw [readFd_of_le hfit]
    exact (hb.written hfit _).2

/-- `shrink` moves the content to new storage. -/
theorem shrink_valid
    (b : Buffer)
    (reserve : Nat) :
    (b.shrink reserve).Valid ∧
    (b.shrink reserve).readableSlice = b.readableSlice := by
  obtain ⟨hroom, _, hempty⟩ :=
    (ofSize_valid kInitialSize).ensureWritable
      (b.readableBytes + reserve)
  have hvalid := hroom.append b.readableSlice
  have hslice := hroom.append_readableSlice b.readableSlice
  rw [hempty, ofSize_readableSlice, List.nil_append] at hslice
  exact ⟨⟨hvalid.reader_le, hvalid.writer_le,
    hvalid.prepend_le⟩, hslice⟩

end Buffer

end Hohnor
