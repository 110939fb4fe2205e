import Hohnor.CircularBuffer

/-!
# Bounded queues

The abstract queue has room for `capacity` items; a call that does not fit is
answered with an exception and changes nothing.

`CircularBuffer::Fields` are the members of the circular buffer with the
indices in the width of `size_t`.  The result none of a call is a division by
zero or an index outside of the array.  What the allocation of the array gives,
and what a default-initialised item holds, are arguments.  The fields stand for
a circular buffer over natural numbers as long as one more cell than `maxSize`
can be counted and allocated, and then the calls are those of the abstract
queue.
-/

namespace Hohnor

/-- What a call gives back: an item or nothing, or an exception. -/
abbrev RingReply (T : Type) :=
  Except String (Option T)

/-- A call.  `emptyItem` is what the local `T empty_item;` of dequeue holds: the
item that the default constructor makes, or any value where T has none. -/
inductive RingOp (T : Type) where
  | enqueue (item : T)
  | dequeue (emptyItem : T)

/-- What `new T[n]` gives: n cells with some items in them, or an exception. -/
abbrev NewArray (T : Type) :=
  (n : Nat) → Option { cells : List T // cells.length = n }

structure BoundedQueue (T : Type) (capacity : Nat) where
  items : List T
  length_le : items.length ≤ capacity

namespace BoundedQueue

variable {T : Type} {capacity : Nat}

def nil : BoundedQueue T capacity where
  items := []
  length_le := Nat.zero_le capacity

def enqueue (q : BoundedQueue T capacity) (item : T) :
    RingReply T × BoundedQueue T capacity :=
  if hroom : q.items.length < capacity then
    (.ok none,
      { items := q.items ++ [item]
        length_le := by
          rw [List.length_append, List.length_singleton]
          exact hroom })
  else (.error "buffer is full", q)

def dequeue (q : BoundedQueue T capacity) :
    RingReply T × BoundedQueue T capacity :=
  match hitems : q.items with
  | [] => (.error "buffer is empty", q)
  | item :: items =>
      (.ok (some item),
        { items
          length_le := by
            have hle := q.length_le
            rw [hitems, List.length_cons] at hle
            exact Nat.le_of_succ_le hle })

def exec (op : RingOp T) (q : BoundedQueue T capacity) :
    RingReply T × BoundedQueue T capacity :=
  match op with
  | .enqueue item => q.enqueue item
  | .dequeue _ => q.dequeue

/-- The replies of a sequence of calls, and the queue behind them. -/
def run (ops : List (RingOp T)) (q : BoundedQueue T capacity) :
    List (RingReply T) × BoundedQueue T capacity :=
  match ops with
  | [] => ([], q)
  | op :: ops =>
      let (reply, q) := exec op q
      let (replies, q) := run ops q
      (reply :: replies, q)

theorem dequeue_nil
    {q : BoundedQueue T capacity} (hitems : q.items = []) :
    q.dequeue = (.error "buffer is empty", q) := by
  rw [dequeue]
  split
  · rfl
  · rename_i hcons
    rw [hitems] at hcons
    cases hcons

theorem dequeue_cons
    {q : BoundedQueue T capacity} {item : T} {items : List T}
    (hitems : q.items = item :: items) :
    q.dequeue.1 = .ok (some item) ∧ q.dequeue.2.items = items := by
  rw [dequeue]
  split
  · rename_i hnil
    rw [hitems] at hnil
    cases hnil
  · rename_i hcons
    rw [hitems] at hcons
    cases hcons
    exact ⟨rfl, rfl⟩

end BoundedQueue

namespace CircularBuffer

structure Fields (w : Nat) (T : Type) where
  buffer : List T
  head : BitVec w
  tail : BitVec w
  max_size : BitVec w

namespace Fields

section Fields

variable {w : Nat} {T : Type}

/-- The constructor, with the exception of new and its assertion. -/
def construct (alloc : NewArray T) (maxSize : BitVec w) :
    Option (Except String (Fields w T)) :=
  match alloc (maxSize + 1).toNat with
  | none => some (.error "std::bad_alloc")
  | some cells =>
      if 2 ≤ maxSize.toNat then
        some
          (.ok
            { buffer := cells.val
              head := 0
              tail := 0
              max_size := maxSize + 1 })
      else none

/-- `(i + 1) % max_size`. -/
def next (b : Fields w T) (i : BitVec w) : Option (BitVec w) :=
  if b.max_size = 0 then none else some ((i + 1) % b.max_size)

def empty (b : Fields w T) : Bool :=
  b.head == b.tail

def full (b : Fields w T) : Option Bool :=
  (b.next b.tail).map fun i => i == b.head

def size (b : Fields w T) : BitVec w :=
  if b.tail ≥ b.head then b.tail - b.head
  else b.max_size - (b.head - b.tail)

/-- `buffer[i] = item`. -/
def put (b : Fields w T) (i : BitVec w) (item : T) : Option (Fields w T) :=
  if i.toNat < b.buffer.length then
    some { b with buffer := b.buffer.set i.toNat item }
  else none

def enqueue (b : Fields w T) (item : T) :
    Option (RingReply T × Fields w T) := do
  if ← b.full then
    return (.error "buffer is full", b)
  else
    let b ← b.put b.tail item
    let tail ← b.next b.tail
    return (.ok none, { b with tail })

def dequeue (b : Fields w T) (emptyItem : T) :
    Option (RingReply T × Fields w T) := do
  if b.empty then
    return (.error "buffer is empty", b)
  else
    let item ← b.buffer[b.head.toNat]?
    let b ← b.put b.head emptyItem
    let head ← b.next b.head
    return (.ok (some item), { b with head })

def exec (op : RingOp T) (b : Fields w T) :
    Option (RingReply T × Fields w T) :=
  match op with
  | .enqueue item => b.enqueue item
  | .dequeue emptyItem => b.dequeue emptyItem

def run (ops : List (RingOp T)) (b : Fields w T) :
    Option (List (RingReply T) × Fields w T) :=
  match ops with
  | [] => some ([], b)
  | op :: ops => do
      let (reply, b) ← exec op b
      let (replies, b) ← run ops b
      return (reply :: replies, b)

/-- The fields are those of a circular buffer over natural numbers. -/
structure Represents (b : Fields w T) (c : CircularBuffer T) : Prop where
  buffer : b.buffer = c.buffer
  head : b.head.toNat = c.head
  tail : b.tail.toNat = c.tail
  max_size : b.max_size.toNat = c.max_size

variable {b : Fields w T} {c : CircularBuffer T}

/-- The next index does not wrap in the width of the indices. -/
theorem Represents.next_eq
    (h : b.Represents c) {i : BitVec w} (hi : i.toNat < c.max_size) :
    ∃ i', b.next i = some i' ∧ i'.toNat = (i.toNat + 1) % c.max_size := by
  have hmax := b.max_size.isLt
  rw [h.max_size] at hmax
  have hzero : b.max_size ≠ 0 := by
    intro hzero
    have hnat := h.max_size
    rw [hzero] at hnat
    have hpos := c.max_size_pos
    simp at hnat
    omega
  have hone : (1 : BitVec w).toNat = 1 % 2 ^ w := by
    simp
  have hsum : (i + 1).toNat = i.toNat + 1 := by
    rw [BitVec.toNat_add, hone, Nat.add_mod_mod]
    exact Nat.mod_eq_of_lt (by omega)
  exact ⟨(i + 1) % b.max_size, if_neg hzero,
    by rw [BitVec.toNat_umod, hsum, h.max_size]⟩

theorem Represents.empty_eq
    (h : b.Represents c) :
    b.empty = c.empty := by
  rw [empty, CircularBuffer.empty, Bool.eq_iff_iff, beq_iff_eq, beq_iff_eq,
    ← BitVec.toNat_inj, h.head, h.tail]

theorem Represents.full_eq
    (h : b.Represents c) :
    b.full = some c.full := by
  obtain ⟨i, hnext, hi⟩ := h.next_eq (h.tail.symm ▸ c.tail_lt)
  rw [full, hnext, Option.map_some, Option.some_inj, CircularBuffer.full,
    Bool.eq_iff_iff, beq_iff_eq, beq_iff_eq, ← BitVec.toNat_inj, hi, h.head,
    h.tail]

theorem Represents.size_eq
    (h : b.Represents c) :
    b.size.toNat = c.size := by
  have hhead := c.head_lt
  have htail := c.tail_lt
  have hmax := b.max_size.isLt
  rw [h.max_size] at hmax
  have hle : b.tail ≥ b.head ↔ c.tail ≥ c.head := by
    rw [ge_iff_le, BitVec.le_def, h.head, h.tail]
  rw [size, CircularBuffer.size]
  simp only [hle]
  split
  · rename_i hge
    rw [BitVec.toNat_sub_of_le (hle.mpr hge), h.head, h.tail]
  · rename_i hlt
    have hback : b.tail ≤ b.head := by
      rw [BitVec.le_def, h.head, h.tail]
      omega
    have hdiff : (b.head - b.tail).toNat = c.head - c.tail := by
      rw [BitVec.toNat_sub_of_le hback, h.head, h.tail]
    rw [BitVec.toNat_sub_of_le (by
        rw [BitVec.le_def, hdiff, h.max_size]
        omega),
      hdiff, h.max_size]

theorem Represents.put_tail
    (h : b.Represents c) (item : T) :
    b.put b.tail item =
      some { b with buffer := b.buffer.set b.tail.toNat item } := by
  refine if_pos ?_
  rw [h.buffer, c.length_buffer, h.tail]
  exact c.tail_lt

/-- Where there is room, `enqueue` writes behind the last item. -/
theorem Represents.enqueue
    (h : b.Represents c) (hfull : c.full = false) (item : T) :
    ∃ b', b.enqueue item = some (.ok none, b') ∧
      b'.Represents (c.push item) := by
  obtain ⟨tail, hnext, htail⟩ := h.next_eq (h.tail.symm ▸ c.tail_lt)
  refine
    ⟨{ b with buffer := b.buffer.set b.tail.toNat item, tail }, ?_, ?_⟩
  · have hnext' : next
        { b with buffer := b.buffer.set b.tail.toNat item } b.tail =
          some tail := hnext
    simp only [Fields.enqueue, h.full_eq, hfull, h.put_tail item,
      Option.bind_eq_bind, Option.bind_some, Option.pure_def, hnext',
      Bool.false_eq_true, if_false]
  · refine ⟨?_, h.head, ?_, h.max_size⟩
    · rw [h.buffer, h.tail]
      rfl
    · rw [htail, h.tail]
      rfl

theorem Represents.enqueue_full
    (h : b.Represents c) (hfull : c.full = true) (item : T) :
    b.enqueue item = some (.error "buffer is full", b) := by
  simp only [Fields.enqueue, h.full_eq, hfull, Option.bind_eq_bind,
    Option.bind_some, if_true, Option.pure_def]

/-- `dequeue` takes the first item and overwrites its cell. -/
theorem Represents.dequeue
    (h : b.Represents c) (hempty : c.empty = false) (emptyItem : T) :
    ∃ b', b.dequeue emptyItem = some (.ok (some c.front), b') ∧
      b'.Represents (c.pop emptyItem) := by
  obtain ⟨head, hnext, hhead⟩ := h.next_eq (h.head.symm ▸ c.head_lt)
  have hlt : b.head.toNat < b.buffer.length := by
    rw [h.buffer, c.length_buffer, h.head]
    exact c.head_lt
  have hfront : b.buffer[b.head.toNat]? = some c.front := by
    rw [h.buffer, h.head, front]
    exact List.getElem?_eq_getElem _
  refine
    ⟨{ b with buffer := b.buffer.set b.head.toNat emptyItem, head },
      ?_, ?_⟩
  · have hput : b.put b.head emptyItem =
        some { b with buffer := b.buffer.set b.head.toNat emptyItem } :=
      if_pos hlt
    have hnext' : next
        { b with buffer := b.buffer.set b.head.toNat emptyItem } b.head =
          some head := hnext
    simp only [Fields.dequeue, h.empty_eq, hempty, hfront, hput,
      Option.bind_eq_bind, Option.bind_some, Option.pure_def, hnext',
      Bool.false_eq_true, if_false]
  · refine ⟨?_, ?_, h.tail, h.max_size⟩
    · rw [h.buffer, h.head]
      rfl
    · rw [hhead, h.head]
      rfl

theorem Represents.dequeue_empty
    (h : b.Represents c) (hempty : c.empty = true) (emptyItem : T) :
    b.dequeue emptyItem = some (.error "buffer is empty", b) := by
  simp only [Fields.dequeue, h.empty_eq, hempty, if_true, Option.pure_def]

/-- The ring holds the items of the queue and has one cell more than its
capacity. -/
structure Holds {capacity : Nat}
    (b : Fields w T) (q : BoundedQueue T capacity)
    (c : CircularBuffer T) : Prop where
  represents : b.Represents c
  content : c.content = q.items
  max_size : c.max_size = capacity + 1

variable {capacity : Nat} {q : BoundedQueue T capacity}

theorem Holds.size_eq
    (h : b.Holds q c) :
    c.size = q.items.length := by
  rw [← h.content, c.length_content]

theorem Holds.full_iff
    (h : b.Holds q c) :
    c.full = true ↔ q.items.length = capacity := by
  rw [CircularBuffer.full_iff, h.max_size, h.size_eq]
  exact Nat.add_right_cancel_iff

theorem Holds.empty_iff
    (h : b.Holds q c) :
    c.empty = true ↔ q.items.length = 0 := by
  rw [CircularBuffer.empty_iff, h.size_eq]

/-- Each call replies as the queue does. -/
theorem Holds.exec
    (h : b.Holds q c) (op : RingOp T) :
    ∃ b' c', exec op b = some ((BoundedQueue.exec op q).1, b') ∧
      b'.Holds (BoundedQueue.exec op q).2 c' := by
  cases op with
  | enqueue item =>
      rw [BoundedQueue.exec, BoundedQueue.enqueue]
      cases hfull : c.full with
      | true =>
          have hroom : ¬ q.items.length < capacity := by
            have hlength := h.full_iff.mp hfull
            omega
          rw [dif_neg hroom]
          exact ⟨b, c, h.represents.enqueue_full hfull item, h⟩
      | false =>
          have hroom : q.items.length < capacity := by
            refine lt_of_le_of_ne q.length_le ?_
            rw [Ne, ← h.full_iff, hfull]
            exact Bool.false_ne_true
          obtain ⟨b', henqueue, hrep⟩ := h.represents.enqueue hfull item
          rw [dif_pos hroom]
          refine ⟨b', c.push item, henqueue, hrep, ?_, h.max_size⟩
          rw [push_content hfull, h.content]
  | dequeue emptyItem =>
      rw [BoundedQueue.exec]
      cases hempty : c.empty with
      | true =>
          have hitems := List.length_eq_zero_iff.mp (h.empty_iff.mp hempty)
          rw [BoundedQueue.dequeue_nil hitems]
          exact ⟨b, c, h.represents.dequeue_empty hempty emptyItem, h⟩
      | false =>
          have hcontent := pop_content hempty emptyItem
          rw [h.content] at hcontent
          obtain ⟨hreply, hitems⟩ := BoundedQueue.dequeue_cons hcontent
          obtain ⟨b', hdequeue, hrep⟩ :=
            h.represents.dequeue hempty emptyItem
          rw [hreply]
          exact ⟨b', c.pop emptyItem, hdequeue, hrep, hitems.symm,
            h.max_size⟩

theorem Holds.run
    (h : b.Holds q c) (ops : List (RingOp T)) :
    ∃ b' c', run ops b = some ((BoundedQueue.run ops q).1, b') ∧
      b'.Holds (BoundedQueue.run ops q).2 c' := by
  induction ops generalizing b q c with
  | nil =>
      exact ⟨b, c, rfl, h⟩
  | cons op ops ih =>
      obtain ⟨b', c', hexec, h'⟩ := h.exec op
      obtain ⟨b'', c'', hrun, h''⟩ := ih h'
      refine ⟨b'', c'', ?_, h''⟩
      simp only [Fields.run, hexec, hrun, Option.bind_eq_bind,
        Option.bind_some, Option.pure_def, BoundedQueue.run]

/-- The buffer is the queue: its indices, its slots and its answers. -/
structure IsQueue {capacity : Nat}
    (b : Fields w T) (q : BoundedQueue T capacity) : Prop where
  head_lt : b.head.toNat < b.max_size.toNat
  tail_lt : b.tail.toNat < b.max_size.toNat
  tail_eq :
    b.tail.toNat = (q.items.length + b.head.toNat) % b.max_size.toNat
  slots : RingBuffers.segment b.buffer b.head.toNat q.items.length = q.items
  size_eq : b.size.toNat = q.items.length
  empty_iff : b.empty = true ↔ q.items.length = 0
  full_iff : b.full = some (decide (q.items.length = capacity))
  enqueue_full :
    q.items.length = capacity →
      ∀ item, b.enqueue item = some (.error "buffer is full", b)
  dequeue_empty :
    q.items.length = 0 →
      ∀ emptyItem,
        b.dequeue emptyItem = some (.error "buffer is empty", b)
  dequeue_oldest :
    ∀ item items, q.items = item :: items →
      ∀ emptyItem,
        ∃ b', b.dequeue emptyItem = some (.ok (some item), b') ∧
          b'.buffer[b.head.toNat]? = some emptyItem

theorem Holds.isQueue
    (h : b.Holds q c) :
    b.IsQueue q where
  head_lt := by
    rw [h.represents.head, h.represents.max_size]
    exact c.head_lt
  tail_lt := by
    rw [h.represents.tail, h.represents.max_size]
    exact c.tail_lt
  tail_eq := by
    rw [h.represents.head, h.represents.tail, h.represents.max_size,
      ← h.size_eq]
    exact c.tail_eq
  slots := by
    rw [h.represents.head, h.represents.buffer, ← h.size_eq, ← h.content]
    rfl
  size_eq := h.represents.size_eq.trans h.size_eq
  empty_iff := by
    rw [h.represents.empty_eq]
    exact h.empty_iff
  full_iff := by
    rw [h.represents.full_eq, Option.some_inj, Bool.eq_iff_iff,
      decide_eq_true_iff]
    exact h.full_iff
  enqueue_full hlength item :=
    h.represents.enqueue_full (h.full_iff.mpr hlength) item
  dequeue_empty hlength emptyItem :=
    h.represents.dequeue_empty (h.empty_iff.mpr hlength) emptyItem
  dequeue_oldest := by
    intro item items hitems emptyItem
    have hempty : c.empty = false := by
      rw [Bool.eq_false_iff, Ne, h.empty_iff, hitems]
      exact Nat.succ_ne_zero _
    have hcontent := pop_content hempty emptyItem
    rw [h.content, hitems] at hcontent
    obtain ⟨hfront, -⟩ := List.cons.inj hcontent
    obtain ⟨b', hdequeue, hrep⟩ := h.represents.dequeue hempty emptyItem
    refine ⟨b', hfront ▸ hdequeue, ?_⟩
    rw [hrep.buffer, h.represents.head]
    refine List.getElem?_set_self ?_
    rw [c.length_buffer]
    exact c.head_lt

theorem toNat_max_size
    {maxSize : BitVec w} (hfits : maxSize.toNat + 1 < 2 ^ w) :
    (maxSize + 1).toNat = maxSize.toNat + 1 := by
  have hone : (1 : BitVec w).toNat = 1 % 2 ^ w := by
    simp
  rw [BitVec.toNat_add, hone, Nat.add_mod_mod]
  exact Nat.mod_eq_of_lt hfits

/-- The fields of a new buffer stand for the empty queue. -/
theorem construct_holds
    {maxSize : BitVec w} (hfits : maxSize.toNat + 1 < 2 ^ w)
    {cells : List T} (hcells : cells.length = maxSize.toNat + 1) :
    Holds
      { buffer := cells
        head := 0
        tail := 0
        max_size := maxSize + 1 }
      (BoundedQueue.nil : BoundedQueue T maxSize.toNat)
      (ofCells cells maxSize.toNat hcells) where
  represents :=
    ⟨rfl, BitVec.toNat_zero, BitVec.toNat_zero, toNat_max_size hfits⟩
  content := by
    rw [content]
    rfl
  max_size := rfl

theorem put_max_size
    {b' : Fields w T} {i : BitVec w} {item : T}
    (hput : b.put i item = some b') :
    b'.max_size = b.max_size := by
  rw [put] at hput
  split at hput
  · cases hput
    rfl
  · cases hput

/-- No call changes the number of cells. -/
theorem exec_max_size
    {op : RingOp T} {reply : RingReply T} {b' : Fields w T}
    (hexec : exec op b = some (reply, b')) :
    b'.max_size = b.max_size := by
  cases op with
  | enqueue item =>
      obtain ⟨isFull, -, hrest⟩ := Option.bind_eq_some_iff.mp hexec
      split at hrest
      · cases hrest
        rfl
      · obtain ⟨b₁, hput, hrest⟩ := Option.bind_eq_some_iff.mp hrest
        obtain ⟨tail, -, hrest⟩ := Option.bind_eq_some_iff.mp hrest
        cases hrest
        have hmax := put_max_size hput
        exact hmax
  | dequeue emptyItem =>
      rw [exec, Fields.dequeue] at hexec
      split at hexec
      · cases hexec
        rfl
      · obtain ⟨item, -, hrest⟩ := Option.bind_eq_some_iff.mp hexec
        obtain ⟨b₁, hput, hrest⟩ := Option.bind_eq_some_iff.mp hrest
        obtain ⟨head, -, hrest⟩ := Option.bind_eq_some_iff.mp hrest
        cases hrest
        have hmax := put_max_size hput
        exact hmax

theorem run_max_size
    {ops : List (RingOp T)} {replies : List (RingReply T)}
    {b' : Fields w T} (hrun : run ops b = some (replies, b')) :
    b'.max_size = b.max_size := by
  induction ops generalizing b replies with
  | nil =>
      cases hrun
      rfl
  | cons op ops ih =>
      obtain ⟨⟨reply, b₁⟩, hexec, hrest⟩ := Option.bind_eq_some_iff.mp hrun
      obtain ⟨⟨replies', b₂⟩, hrun', hrest⟩ :=
        Option.bind_eq_some_iff.mp hrest
      cases hrest
      exact (ih hrun').trans (exec_max_size hexec)

/-- A run of calls on a new buffer gives the replies of the queue with
`maxSize` places, and ends with a buffer that is this queue. -/
def RefinesQueue
    (alloc : NewArray T) (maxSize : BitVec w) (ops : List (RingOp T)) :
    Prop :=
  let queue : BoundedQueue T maxSize.toNat := BoundedQueue.nil
  ∃ b b', construct alloc maxSize = some (.ok b) ∧
    run ops b = some ((BoundedQueue.run ops queue).1, b') ∧
    b'.IsQueue (BoundedQueue.run ops queue).2

/-- A buffer that has been constructed has got its cells. -/
theorem construct_spec
    {alloc : NewArray T} {maxSize : BitVec w} {b : Fields w T}
    (hconstruct : construct alloc maxSize = some (.ok b)) :
    (alloc (maxSize + 1).toNat).isSome = true ∧
      b.max_size = maxSize + 1 := by
  rw [construct] at hconstruct
  split at hconstruct
  · cases hconstruct
  · rename_i cells halloc
    rw [halloc]
    split at hconstruct
    · cases hconstruct
      exact ⟨rfl, rfl⟩
    · cases hconstruct

/-- The array has a cell more than `maxSize`: their number must not wrap around,
and there must be memory for them. -/
theorem refinesQueue_iff
    (alloc : NewArray T) {maxSize : BitVec w} (hsize : 2 ≤ maxSize.toNat)
    (ops : List (RingOp T)) :
    RefinesQueue alloc maxSize ops ↔
      maxSize.toNat + 1 < 2 ^ w ∧
        (alloc (maxSize.toNat + 1)).isSome = true := by
  constructor
  · rintro ⟨b, b', hconstruct, hrun, hqueue⟩
    obtain ⟨halloc, hmax⟩ := construct_spec hconstruct
    have hfits : maxSize.toNat + 1 < 2 ^ w := by
      by_contra hwrap
      have hlt := maxSize.isLt
      have hlast : maxSize.toNat + 1 = 2 ^ w := by
        omega
      have hzero : b'.max_size.toNat = 0 := by
        rw [run_max_size hrun, hmax, BitVec.toNat_add]
        simp [hlast]
      have hhead := hqueue.head_lt
      omega
    rw [toNat_max_size hfits] at halloc
    exact ⟨hfits, halloc⟩
  · rintro ⟨hfits, halloc⟩
    rw [← toNat_max_size hfits] at halloc
    obtain ⟨⟨cells, hcells⟩, halloc⟩ := Option.isSome_iff_exists.mp halloc
    have hcells' : cells.length = maxSize.toNat + 1 :=
      hcells.trans (toNat_max_size hfits)
    obtain ⟨b', c', hrun, hholds⟩ :=
      (construct_holds hfits hcells').run ops
    refine ⟨_, b', ?_, hrun, hholds.isQueue⟩
    rw [construct, halloc]
    exact if_pos hsize

/-- Cells that all hold 0, up to a million of them. -/
def zeroedArray : NewArray Nat := fun n =>
  if n ≤ 1000000 then
    some ⟨List.replicate n 0, List.length_replicate⟩
  else none

/-- Three places, filled past their number and emptied past it. -/
theorem refinesQueue_iff_three :
    RefinesQueue zeroedArray (3 : BitVec 64)
        [.enqueue 1, .enqueue 2, .enqueue 3, .enqueue 4, .dequeue 0,
          .dequeue 9, .enqueue 5, .dequeue 2, .dequeue 0, .dequeue 0] ↔
      (3 : BitVec 64).toNat + 1 < 2 ^ 64 ∧
        (zeroedArray ((3 : BitVec 64).toNat + 1)).isSome = true :=
  refinesQueue_iff zeroedArray (by decide) _

/-- The greatest `maxSize`, which the int -1 becomes, leaves no cell, and the
first call divides by 0. -/
theorem enqueue_maxSize_wraps :
    (∃ b : Fields 64 Nat,
      construct zeroedArray (BitVec.allOnes 64) = some (.ok b) ∧
      b.enqueue 7 = none) ∧
    ¬ RefinesQueue zeroedArray (BitVec.allOnes 64) [.enqueue 7] := by
  refine ⟨⟨_, rfl, rfl⟩, ?_⟩
  rintro ⟨b, b', hconstruct, hrun, -⟩
  cases hconstruct
  cases hrun

end Fields

end Fields

end CircularBuffer

end Hohnor
