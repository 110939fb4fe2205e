import Hohnor.RingBuffers
import Mathlib.Data.List.Basic

/-!
# The circular buffer

`CircularBuffer` of include/hohnor/common/CircularBuffer.h.  One cell of the
array stays free, so that a full buffer and an empty one differ.  An exception
is the result none.  What a default-initialised item holds is given: any value
at all where its type has no default constructor of its own.

`enqueue` and `dequeue` are the two ends of a queue with room for
`max_size - 1` items.
-/

namespace Hohnor

open RingBuffers

/-- The array, and the places of the first item and of the first free cell. -/
structure CircularBuffer (T : Type) where
  buffer : List T
  head : Nat
  tail : Nat
  max_size : Nat
  length_buffer : buffer.length = max_size
  head_lt : head < max_size
  tail_lt : tail < max_size
deriving DecidableEq, Repr

namespace CircularBuffer

section CircularBuffer

variable {T : Type}

/-- A new buffer with the cells that the allocation has left. -/
def ofCells (cells : List T) (maxSize : Nat)
    (hcells : cells.length = maxSize + 1) : CircularBuffer T where
  buffer := cells
  head := 0
  tail := 0
  max_size := maxSize + 1
  length_buffer := hcells
  head_lt := Nat.succ_pos maxSize
  tail_lt := Nat.succ_pos maxSize

/-- A new buffer of items whose type has a default constructor. -/
def create [Inhabited T] (maxSize : Nat) : CircularBuffer T :=
  ofCells (List.replicate (maxSize + 1) default) maxSize
    List.length_replicate

def empty (b : CircularBuffer T) : Bool :=
  b.head == b.tail

def full (b : CircularBuffer T) : Bool :=
  (b.tail + 1) % b.max_size == b.head

def size (b : CircularBuffer T) : Nat :=
  if b.tail ≥ b.head then b.tail - b.head
  else b.max_size - (b.head - b.tail)

def front (b : CircularBuffer T) : T :=
  b.buffer.get ⟨b.head, b.length_buffer.symm ▸ b.head_lt⟩

theorem max_size_pos
    (b : CircularBuffer T) :
    0 < b.max_size :=
  Nat.zero_lt_of_lt b.head_lt

/-- `enqueue` after its test. -/
def push (b : CircularBuffer T) (item : T) : CircularBuffer T :=
  { b with
    buffer := b.buffer.set b.tail item
    tail := (b.tail + 1) % b.max_size
    length_buffer := List.length_set.trans b.length_buffer
    tail_lt := Nat.mod_lt _ b.max_size_pos }

def enqueue (b : CircularBuffer T) (item : T) :
    Option (CircularBuffer T) :=
  if b.full then none else some (b.push item)

/-- `dequeue` after its test; `emptyItem` is its local of that name. -/
def pop (b : CircularBuffer T) (emptyItem : T) : CircularBuffer T :=
  { b with
    buffer := b.buffer.set b.head emptyItem
    head := (b.head + 1) % b.max_size
    length_buffer := List.length_set.trans b.length_buffer
    head_lt := Nat.mod_lt _ b.max_size_pos }

def dequeue (b : CircularBuffer T) (emptyItem : T) :
    Option (T × CircularBuffer T) :=
  if b.empty then none else some (b.front, b.pop emptyItem)

/-- The items, the first one to leave first. -/
def content (b : CircularBuffer T) : List T :=
  segment b.buffer b.head b.size

theorem size_lt
    (b : CircularBuffer T) :
    b.size < b.max_size := by
  have hhead := b.head_lt
  have htail := b.tail_lt
  rw [size]
  split <;> omega

@[simp] theorem length_content
    (b : CircularBuffer T) :
    b.content.length = b.size := by
  refine length_segment ?_ b.head
  rw [b.length_buffer]
  exact b.size_lt.le

/-- The first free cell is behind the last item. -/
theorem tail_eq
    (b : CircularBuffer T) :
    b.tail = (b.size + b.head) % b.max_size := by
  have hhead := b.head_lt
  have htail := b.tail_lt
  rw [size]
  split
  · rw [Nat.sub_add_cancel (by assumption), Nat.mod_eq_of_lt htail]
  · have hwrap :
        b.max_size - (b.head - b.tail) + b.head =
          b.tail + b.max_size := by
      omega
    rw [hwrap, Nat.add_mod_right, Nat.mod_eq_of_lt htail]

theorem next_eq
    {i n : Nat} (hi : i < n) :
    (i + 1) % n = if i + 1 = n then 0 else i + 1 := by
  split
  · rename_i hlast
    rw [hlast, Nat.mod_self]
  · exact Nat.mod_eq_of_lt (by omega)

theorem empty_iff
    (b : CircularBuffer T) :
    b.empty = true ↔ b.size = 0 := by
  have hhead := b.head_lt
  have htail := b.tail_lt
  rw [empty, beq_iff_eq, size]
  split <;> omega

theorem full_iff
    (b : CircularBuffer T) :
    b.full = true ↔ b.size + 1 = b.max_size := by
  have hhead := b.head_lt
  have htail := b.tail_lt
  rw [full, beq_iff_eq, size, next_eq htail]
  split <;> split <;> omega

theorem push_size
    {b : CircularBuffer T} (hfull : b.full = false) (item : T) :
    (b.push item).size = b.size + 1 := by
  have hhead := b.head_lt
  have htail := b.tail_lt
  have hroom : ¬ b.size + 1 = b.max_size := by
    rw [← full_iff, hfull]
    exact Bool.false_ne_true
  rw [size] at hroom
  simp only [size, push, next_eq htail]
  split_ifs at hroom ⊢ <;> omega

theorem push_content
    {b : CircularBuffer T} (hfull : b.full = false) (item : T) :
    (b.push item).content = b.content ++ [item] := by
  have hcount : b.size < b.buffer.length := by
    rw [b.length_buffer]
    exact b.size_lt
  have hset := segment_set_end hcount b.head item
  rw [b.length_buffer, ← b.tail_eq] at hset
  rw [content, push_size hfull]
  exact hset

theorem pop_size
    {b : CircularBuffer T} (hempty : b.empty = false) (emptyItem : T) :
    b.size = (b.pop emptyItem).size + 1 := by
  have hhead := b.head_lt
  have htail := b.tail_lt
  have hsome : b.size ≠ 0 := by
    rw [Ne, ← empty_iff, hempty]
    exact Bool.false_ne_true
  rw [size] at hsome
  simp only [size, pop, next_eq hhead]
  split_ifs at hsome ⊢ <;> omega

theorem pop_content
    {b : CircularBuffer T} (hempty : b.empty = false) (emptyItem : T) :
    b.content = b.front :: (b.pop emptyItem).content := by
  have hhead : b.head % b.buffer.length = b.head := by
    rw [b.length_buffer]
    exact Nat.mod_eq_of_lt b.head_lt
  have hcount : (b.pop emptyItem).size < b.buffer.length := by
    have hlt := b.size_lt
    have hsize := pop_size hempty emptyItem
    rw [b.length_buffer]
    omega
  have hfront : b.buffer[b.head % b.buffer.length]? = some b.front := by
    rw [hhead, front]
    simp
  have hbefore := segment_set_before hcount b.head emptyItem
  have hring :=
    segment_mod (b.buffer.set b.head emptyItem) (b.head + 1)
      (b.pop emptyItem).size
  rw [hhead] at hbefore
  rw [List.length_set, b.length_buffer, hbefore] at hring
  rw [content, pop_size hempty emptyItem, segment_succ hcount b.head hfront,
    ← hring]
  rfl

theorem enqueue_spec
    (b : CircularBuffer T) (item : T) :
    (b.full = true ∧ b.enqueue item = none) ∨
      (b.full = false ∧ ∃ b', b.enqueue item = some b' ∧
        b'.content = b.content ++ [item] ∧
        b'.max_size = b.max_size) := by
  cases hfull : b.full with
  | true =>
      exact Or.inl ⟨rfl, by rw [enqueue, if_pos hfull]⟩
  | false =>
      refine Or.inr ⟨rfl, b.push item, ?_, push_content hfull item, rfl⟩
      rw [enqueue, if_neg (by simp [hfull])]

theorem dequeue_spec
    (b : CircularBuffer T) (emptyItem : T) :
    (b.empty = true ∧ b.dequeue emptyItem = none) ∨
      (b.empty = false ∧ ∃ x b', b.dequeue emptyItem = some (x, b') ∧
        b.content = x :: b'.content ∧
        b'.max_size = b.max_size) := by
  cases hempty : b.empty with
  | true =>
      exact Or.inl ⟨rfl, by rw [dequeue, if_pos hempty]⟩
  | false =>
      refine Or.inr ⟨rfl, b.front, b.pop emptyItem, ?_,
        pop_content hempty emptyItem, rfl⟩
      rw [dequeue, if_neg (by simp [hempty])]

end CircularBuffer

end CircularBuffer

end Hohnor
