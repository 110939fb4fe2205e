import Mathlib.Data.List.Rotate
import Mathlib.Data.Nat.ModEq

/-!
# Lists in a ring of cells

A ring is a list of cells; the cell after the last one is the first.  The list
of `count` elements that begins at the cell `head` is `segment`.

The lemmas say what writing behind the segment and dropping its first cell do
to it.
-/

namespace RingBuffers

universe u

section RingBuffers

variable {α : Type u}

/-- The elements in the `count` cells from `head` on. -/
def segment (cells : List α) (head count : Nat) : List α :=
  (cells.rotate head).take count

theorem length_segment
    {cells : List α} {count : Nat}
    (hcount : count ≤ cells.length) (head : Nat) :
    (segment cells head count).length = count := by
  rw [segment, List.length_take, List.length_rotate]
  exact Nat.min_eq_left hcount

theorem getElem?_segment
    {cells : List α} {count : Nat}
    (hcount : count ≤ cells.length) (head k : Nat) :
    (segment cells head count)[k]? =
      if k < count then cells[(k + head) % cells.length]? else none := by
  rw [segment, List.getElem?_take]
  split
  · rename_i hk
    exact List.getElem?_rotate (hk.trans_le hcount)
  · rfl

/-- Two cells of a ring are the same only at the same distance. -/
theorem offset_inj
    {n k j head : Nat} (hk : k < n) (hj : j < n)
    (h : (k + head) % n = (j + head) % n) :
    k = j :=
  (Nat.ModEq.add_right_cancel' head h).eq_of_lt_of_lt hk hj

/-- Writing to the cell behind the segment makes it longer. -/
theorem segment_set_end
    {cells : List α} {count : Nat}
    (hcount : count < cells.length) (head : Nat) (x : α) :
    segment (cells.set ((count + head) % cells.length) x) head (count + 1) =
      segment cells head count ++ [x] := by
  have hlength :
      (cells.set ((count + head) % cells.length) x).length =
        cells.length :=
    List.length_set
  have hcell : (count + head) % cells.length < cells.length :=
    Nat.mod_lt _ (Nat.zero_lt_of_lt hcount)
  apply List.ext_getElem?
  intro k
  rw [getElem?_segment (by omega), hlength, List.getElem?_append,
    length_segment hcount.le, getElem?_segment hcount.le,
    List.getElem?_set]
  rcases Nat.lt_trichotomy k count with hk | rfl | hk
  · have hne :
        (count + head) % cells.length ≠ (k + head) % cells.length := by
      intro heq
      have := offset_inj hcount (hk.trans hcount) heq
      omega
    rw [if_pos (by omega), if_neg hne, if_pos hk, if_pos hk]
  · rw [if_pos (by omega), if_pos rfl, if_pos hcell,
      if_neg (Nat.lt_irrefl k)]
    simp
  · rw [if_neg (by omega), if_neg (by omega)]
    have hpos : k - count ≠ 0 := by
      omega
    simp [hpos]

/-- Writing to the cell before the segment does not change it. -/
theorem segment_set_before
    {cells : List α} {count : Nat}
    (hcount : count < cells.length) (head : Nat) (x : α) :
    segment (cells.set (head % cells.length) x) (head + 1) count =
      segment cells (head + 1) count := by
  have hlength :
      (cells.set (head % cells.length) x).length = cells.length :=
    List.length_set
  apply List.ext_getElem?
  intro k
  rw [getElem?_segment (by omega), hlength,
    getElem?_segment hcount.le, List.getElem?_set]
  split
  · rename_i hk
    have hne :
        head % cells.length ≠ (k + (head + 1)) % cells.length := by
      intro heq
      have h : (0 + head) % cells.length =
          (k + 1 + head) % cells.length := by
        rw [Nat.zero_add, heq]
        congr 1
        omega
      have := offset_inj (Nat.zero_lt_of_lt hcount) (by omega) h
      omega
    rw [if_neg hne]
  · rfl

/-- The first cell and those behind it. -/
theorem segment_succ
    {cells : List α} {count : Nat}
    (hcount : count < cells.length) (head : Nat) {x : α}
    (hx : cells[head % cells.length]? = some x) :
    segment cells head (count + 1) =
      x :: segment cells (head + 1) count := by
  apply List.ext_getElem?
  intro k
  cases k with
  | zero =>
      rw [getElem?_segment (by omega), if_pos (by omega), Nat.zero_add]
      exact hx
  | succ k =>
      rw [getElem?_segment (by omega), List.getElem?_cons_succ,
        getElem?_segment hcount.le]
      have hcell : k + 1 + head = k + (head + 1) := by
        omega
      by_cases hk : k < count
      · rw [if_pos (by omega), if_pos hk, hcell]
      · rw [if_neg (by omega), if_neg hk]

/-- Only the place of the head in the ring counts. -/
theorem segment_mod
    (cells : List α) (head count : Nat) :
    segment cells (head % cells.length) count =
      segment cells head count := by
  rw [segment, segment, List.rotate_mod]

end RingBuffers

end RingBuffers
