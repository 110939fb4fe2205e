import Mathlib.Data.List.Basic
import Mathlib.Data.List.Infix

/-!
# Segments of a list and in-place overwriting

`segment xs i j` is the part of `xs` at the positions from `i` up to `j`, and
`splice xs i ys` is `xs` with the positions from `i` on overwritten by `ys`.
They are the two views of a block of storage that index-based code takes: the
range between two indices, and a copy to a position.
-/

namespace ListSegments

universe u

section ListSegments

variable {α : Type u}

/-- Elements at the positions from `i` up to `j`. -/
def segment (xs : List α) (i j : Nat) : List α :=
  (xs.drop i).take (j - i)

/-- Overwrite the positions from `i` on by `ys`. -/
def splice (xs : List α) (i : Nat) (ys : List α) : List α :=
  xs.take i ++ ys ++ xs.drop (i + ys.length)

@[simp] theorem segment_self
    (xs : List α) (i : Nat) :
    segment xs i i = [] := by
  simp [segment]

theorem length_segment
    {xs : List α} {i j : Nat}
    (hj : j ≤ xs.length) :
    (segment xs i j).length = j - i := by
  simp only [segment, List.length_take, List.length_drop]
  omega

theorem length_splice
    {xs ys : List α} {i : Nat}
    (h : i + ys.length ≤ xs.length) :
    (splice xs i ys).length = xs.length := by
  simp only [splice, List.length_append, List.length_take,
    List.length_drop]
  omega

/-- A segment splits at any position inside it. -/
theorem segment_split
    (xs : List α) {i j k : Nat}
    (hij : i ≤ j) (hjk : j ≤ k) :
    segment xs i k = segment xs i j ++ segment xs j k := by
  have hk : k - i = (j - i) + (k - j) := by omega
  have hd : xs.drop j = (xs.drop i).drop (j - i) := by
    rw [List.drop_drop]
    congr 1
    omega
  unfold segment
  rw [hk, List.take_add, hd]

/-- Dropping from a segment moves its start. -/
theorem drop_segment
    (xs : List α) (i j n : Nat) :
    (segment xs i j).drop n = segment xs (i + n) j := by
  unfold segment
  rw [List.drop_take, List.drop_drop, Nat.sub_sub]

/-- Taking from a segment moves its end. -/
theorem take_segment
    (xs : List α) {i j n : Nat}
    (hn : i + n ≤ j) :
    (segment xs i j).take n = segment xs i (i + n) := by
  unfold segment
  rw [List.take_take]
  congr 1
  omega

/-- Elements past the end of a segment do not matter to it. -/
theorem segment_append_left
    {xs : List α} (ys : List α) {i j : Nat}
    (hj : j ≤ xs.length) :
    segment (xs ++ ys) i j = segment xs i j := by
  unfold segment
  by_cases hi : i ≤ xs.length
  · rw [List.drop_append_of_le_length hi]
    rw [List.take_append_of_le_length]
    rw [List.length_drop]
    omega
  · have hz : j - i = 0 := by omega
    simp [hz]

/-- Overwriting at or after the end of a segment keeps it. -/
theorem segment_splice_of_le
    {xs : List α} (ys : List α) {i j k : Nat}
    (hjk : j ≤ k) (hk : k ≤ xs.length) :
    segment (splice xs k ys) i j = segment xs i j := by
  have hlen : (xs.take k).length = k := by
    rw [List.length_take]
    omega
  unfold splice
  rw [List.append_assoc]
  rw [segment_append_left _ (by omega)]
  conv_rhs => rw [← List.take_append_drop k xs]
  rw [segment_append_left _ (by omega)]

/-- The overwritten positions hold what was written. -/
theorem segment_splice_self
    {xs : List α} (ys : List α) {i : Nat}
    (hi : i ≤ xs.length) :
    segment (splice xs i ys) i (i + ys.length) = ys := by
  have hlen : (xs.take i).length = i := by
    rw [List.length_take]
    omega
  unfold segment splice
  rw [List.append_assoc]
  rw [List.drop_append_of_le_length (by omega)]
  rw [List.drop_of_length_le (by omega)]
  simp

/-- Overwriting right after a segment extends it by what was written. -/
theorem segment_splice_extend
    {xs : List α} (ys : List α) {i j : Nat}
    (hij : i ≤ j) (hj : j ≤ xs.length) :
    segment (splice xs j ys) i (j + ys.length) =
      segment xs i j ++ ys := by
  rw [segment_split _ hij (Nat.le_add_right j ys.length)]
  rw [segment_splice_of_le ys (Nat.le_refl j) hj]
  rw [segment_splice_self ys hj]

/-- Overwriting at the end of a front part extends that part. -/
theorem segment_zero_splice
    {xs : List α} (ys : List α) {j : Nat}
    (hj : j ≤ xs.length) :
    segment (splice xs j ys) 0 (j + ys.length) = xs.take j ++ ys := by
  rw [segment_splice_extend ys (Nat.zero_le j) hj]
  simp [segment]

/-- What stands after the overwritten positions stays. -/
theorem segment_splice_before
    {xs : List α} (ys : List α) {k j : Nat}
    (hk : k + ys.length ≤ xs.length) (hj : k + ys.length ≤ j) :
    segment (splice xs k ys) k j =
      ys ++ segment xs (k + ys.length) j := by
  have hlen : (xs.take k ++ ys).length = k + ys.length := by
    rw [List.length_append, List.length_take]
    omega
  have hdrop :
      (splice xs k ys).drop (k + ys.length) =
        xs.drop (k + ys.length) := by
    unfold splice
    rw [← hlen, List.drop_left]
  rw [segment_split _ (Nat.le_add_right k ys.length) hj]
  rw [segment_splice_self ys (by omega)]
  simp only [segment, hdrop]

/-- Copy `n` elements inside a list, one after the other from the first, from
position `i` to position `j`. -/
def copyForward (xs : List α) (i j : Nat) : Nat → List α
  | 0 => xs
  | n + 1 =>
      match xs[i]? with
      | none => xs
      | some x => copyForward (xs.set j x) (i + 1) (j + 1) n

theorem splice_set
    {xs : List α} (ys : List α) {j : Nat} (x : α)
    (hj : j < xs.length) :
    splice (xs.set j x) (j + 1) ys = splice xs j (x :: ys) := by
  have hdrop :
      (xs.set j x).drop (j + 1 + ys.length) =
        xs.drop (j + 1 + ys.length) :=
    List.drop_set_of_lt (by omega)
  have htake : (xs.set j x).take (j + 1) = xs.take j ++ [x] := by
    rw [List.take_add_one, List.getElem?_set_self hj,
      List.take_set_of_le (Nat.le_refl j)]
    rfl
  unfold splice
  rw [hdrop, htake, List.length_cons]
  have hsum : j + 1 + ys.length = j + (ys.length + 1) := by omega
  rw [hsum]
  simp

/-- A forward copy to a lower or the same position, overlapping or not, moves
the segment as it was. -/
theorem copyForward_eq_splice
    {xs : List α} {i j n : Nat}
    (hji : j ≤ i) (hi : i + n ≤ xs.length) :
    copyForward xs i j n = splice xs j (segment xs i (i + n)) := by
  induction n generalizing xs i j with
  | zero =>
      simp [copyForward, splice]
  | succ n ih =>
      have hlt : i < xs.length := by omega
      have hget : xs[i]? = some xs[i] := List.getElem?_eq_getElem hlt
      have hkeep :
          segment (xs.set j xs[i]) (i + 1) (i + 1 + n) =
            segment xs (i + 1) (i + 1 + n) := by
        unfold segment
        rw [List.drop_set_of_lt (by omega)]
      have hsplit :
          segment xs i (i + (n + 1)) =
            xs[i] :: segment xs (i + 1) (i + 1 + n) := by
        unfold segment
        rw [List.drop_eq_getElem_cons hlt]
        have hcount : i + (n + 1) - i = n + 1 := by omega
        have hcount' : i + 1 + n - (i + 1) = n := by omega
        rw [hcount, hcount', List.take_succ_cons]
      simp only [copyForward, hget]
      rw [ih (by omega) (by rw [List.length_set]; omega)]
      rw [hkeep, hsplit, splice_set _ _ (by omega)]

/-- A write right behind an overwritten range extends it. -/
theorem set_splice
    {xs : List α} (ys : List α) {i : Nat} (x : α)
    (h : i + ys.length < xs.length) :
    (splice xs i ys).set (i + ys.length) x = splice xs i (ys ++ [x]) := by
  have hlen : (xs.take i ++ ys).length = i + ys.length := by
    rw [List.length_append, List.length_take]
    omega
  have hdrop :
      xs.drop (i + ys.length) =
        xs[i + ys.length] :: xs.drop (i + ys.length + 1) :=
    List.drop_eq_getElem_cons h
  unfold splice
  rw [List.set_append_right _ _ (by omega), hlen, Nat.sub_self, hdrop,
    List.set_cons_zero, List.length_append, List.length_singleton,
    ← Nat.add_assoc]
  simp

/-- Overwriting the beginning of an overwritten range. -/
theorem splice_splice
    {xs ys ys' zs : List α} {i : Nat}
    (h : i + (ys ++ zs).length ≤ xs.length)
    (hlength : ys'.length = ys.length) :
    splice (splice xs i (ys ++ zs)) i ys' = splice xs i (ys' ++ zs) := by
  have htake : (xs.take i).length = i := by
    rw [List.length_take]
    rw [List.length_append] at h
    omega
  have hfront : (splice xs i (ys ++ zs)).take i = xs.take i := by
    unfold splice
    rw [List.append_assoc, List.take_left' htake]
  have hback :
      (splice xs i (ys ++ zs)).drop (i + ys'.length) =
        zs ++ xs.drop (i + (ys ++ zs).length) := by
    have hlen : (xs.take i ++ ys).length = i + ys'.length := by
      rw [List.length_append, htake, hlength]
    unfold splice
    rw [← List.append_assoc, List.append_assoc (xs.take i ++ ys),
      List.drop_left' hlen]
  have hsame : (ys' ++ zs).length = (ys ++ zs).length := by
    rw [List.length_append, List.length_append, hlength]
  rw [splice, hfront, hback, splice, hsame, List.append_assoc,
    List.append_assoc, List.append_assoc]

/-- What stands before the overwritten positions, and they. -/
theorem take_splice
    {xs ys zs : List α} {i : Nat}
    (h : i + (ys ++ zs).length ≤ xs.length) :
    (splice xs i (ys ++ zs)).take (i + ys.length) = xs.take i ++ ys := by
  have hlen : (xs.take i ++ ys).length = i + ys.length := by
    rw [List.length_append, List.length_take]
    rw [List.length_append] at h
    omega
  unfold splice
  rw [← List.append_assoc, List.append_assoc (xs.take i ++ ys),
    List.take_left' hlen]

end ListSegments

end ListSegments
