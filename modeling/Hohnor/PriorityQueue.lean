import Hohnor.BinaryHeap

/-!
# Priority queues

The operations of `BinaryHeap` over a vector whose slots may have been moved
from.  The result none is an index out of range, a comparison with a value that
was moved away, or a failed assertion; a slot that was moved from may be moved
from again, as in the vector of one element that is popped.

The slots compute what the vector of values does, in which the moved value is
kept aside: the hole of a percolation is the only slot without a value.  Every
run of insertions and pops then keeps the order of the heap.
-/

namespace Hohnor

universe u v

namespace HeapSlots

open BinaryHeap (parent lChild rChild)

section HeapSlots

variable {α : Type u}

/-- A comparison reads a value that has not been moved away. -/
def read (vec : List (Option α)) (i : Nat) : Option α :=
  vec[i]?.join

/-- `T save = std::move(vec_[i])`. -/
def moveFrom (vec : List (Option α)) (i : Nat) :
    Option (α × List (Option α)) :=
  (read vec i).map fun x => (x, vec.set i none)

/-- `vec_[i] = std::move(save)`. -/
def moveTo (vec : List (Option α)) (i : Nat) (save : α) :
    Option (List (Option α)) :=
  if i < vec.length then some (vec.set i (some save)) else none

/-- `vec_[i] = std::move(vec_[j])`; what is moved to its own slot is lost. -/
def move (vec : List (Option α)) (i j : Nat) : Option (List (Option α)) :=
  match vec[j]? with
  | none => none
  | some x =>
      if i < vec.length then some ((vec.set i x).set j none) else none

theorem length_move
    {vec vec' : List (Option α)} {i j : Nat}
    (hmove : move vec i j = some vec') :
    vec'.length = vec.length := by
  rw [move] at hmove
  split at hmove
  · cases hmove
  · split at hmove
    · cases hmove
      rw [List.length_set, List.length_set]
    · cases hmove

variable (lessThanCmp : α → α → Bool)

/-- The loop of `percolateUp`. -/
def percolateUpLoop
    (save : α) (vec : List (Option α)) (index : Nat) :
    Option (List (Option α)) :=
  if hne : parent index ≠ index then
    match read vec (parent index) with
    | none => none
    | some x =>
        if lessThanCmp x save then
          moveTo vec index save
        else
          match move vec index (parent index) with
          | none => none
          | some vec =>
              have : parent index < index := BinaryHeap.parent_lt_of_ne hne
              percolateUpLoop save vec (parent index)
  else
    moveTo vec index save
termination_by index

def percolateUp (vec : List (Option α)) : Option (List (Option α)) :=
  (moveFrom vec (vec.length - 1)).bind fun (save, vec) =>
    percolateUpLoop lessThanCmp save vec (vec.length - 1)

def properParent (vec : List (Option α)) (save : α) (p lc rc : Nat) :
    Option Nat :=
  if p < vec.length then
    let lcValid := decide (lc < vec.length)
    let rcValid := decide (rc < vec.length)
    if !lcValid && !rcValid then
      some p
    else if lcValid && !rcValid then
      (read vec lc).map fun l => if lessThanCmp l save then lc else p
    else if !lcValid && rcValid then
      (read vec rc).map fun r => if lessThanCmp r save then rc else p
    else
      (read vec rc).bind fun r =>
        (read vec lc).bind fun l =>
          let LRMax := if lessThanCmp r l then rc else lc
          (read vec LRMax).map fun m =>
            if lessThanCmp m save then LRMax else p
  else none

variable {lessThanCmp}

/-- The place is the old one or that of a child in use. -/
theorem properParent_cases
    {vec : List (Option α)} {save : α} {p lc rc q : Nat}
    (hq : properParent lessThanCmp vec save p lc rc = some q) :
    q = p ∨ ((q = lc ∨ q = rc) ∧ q < vec.length) := by
  rw [properParent] at hq
  split at hq
  case isFalse => cases hq
  by_cases hl : lc < vec.length
  all_goals by_cases hr : rc < vec.length
  all_goals simp only [hl, hr, decide_true, decide_false, Bool.not_true,
    Bool.not_false, Bool.and_true, Bool.and_false, Bool.and_self, if_true,
    Bool.false_eq_true, if_false] at hq
  · obtain ⟨r, hread, hq⟩ := Option.bind_eq_some_iff.mp hq
    obtain ⟨l, hread', hq⟩ := Option.bind_eq_some_iff.mp hq
    obtain ⟨m, hread'', rfl⟩ := Option.map_eq_some_iff.mp hq
    split_ifs
    · exact .inr ⟨.inr rfl, hr⟩
    · exact .inr ⟨.inl rfl, hl⟩
    · exact .inl rfl
  · obtain ⟨l, hread, rfl⟩ := Option.map_eq_some_iff.mp hq
    split
    · exact .inr ⟨.inl rfl, hl⟩
    · exact .inl rfl
  · obtain ⟨r, hread, rfl⟩ := Option.map_eq_some_iff.mp hq
    split
    · exact .inr ⟨.inr rfl, hr⟩
    · exact .inl rfl
  · cases hq
    exact .inl rfl

theorem properParent_bounds
    {vec : List (Option α)} {save : α} {p q : Nat}
    (hq : properParent lessThanCmp vec save p (lChild p) (rChild p) = some q)
    (hne : p ≠ q) :
    p < q ∧ q < vec.length := by
  have hl := BinaryHeap.lChild_eq p
  have hr := BinaryHeap.rChild_eq p
  rcases properParent_cases hq with hsame | ⟨hchild, hlt⟩
  · exact absurd hsame.symm hne
  · exact ⟨by omega, hlt⟩

variable (lessThanCmp)

/-- The loop of `perolateDown`. -/
def perolateDownLoop
    (save : α) (vec : List (Option α)) (index : Nat) :
    Option (List (Option α)) :=
  match hq : properParent lessThanCmp vec save index
      (lChild index) (rChild index) with
  | none => none
  | some newParent =>
      if hne : index ≠ newParent then
        match hmove : move vec index newParent with
        | none => none
        | some vec' =>
            have : vec'.length - newParent < vec.length - index := by
              have hbounds := properParent_bounds hq hne
              rw [length_move hmove]
              omega
            perolateDownLoop save vec' newParent
      else
        moveTo vec index save
termination_by vec.length - index

variable {lessThanCmp}

theorem perolateDownLoop_stop
    {save : α} {vec : List (Option α)} {index : Nat}
    (hq : properParent lessThanCmp vec save index
      (lChild index) (rChild index) = some index) :
    perolateDownLoop lessThanCmp save vec index = moveTo vec index save := by
  rw [perolateDownLoop]
  split
  · rename_i hq'
    rw [hq] at hq'
    cases hq'
  · rename_i q hq'
    rw [hq] at hq'
    cases hq'
    exact dif_neg (not_not.mpr rfl)

theorem perolateDownLoop_move
    {save : α} {vec vec' : List (Option α)} {index q : Nat}
    (hq : properParent lessThanCmp vec save index
      (lChild index) (rChild index) = some q)
    (hne : index ≠ q) (hmove : move vec index q = some vec') :
    perolateDownLoop lessThanCmp save vec index =
      perolateDownLoop lessThanCmp save vec' q := by
  rw [perolateDownLoop]
  split
  · rename_i hq'
    rw [hq] at hq'
    cases hq'
  · rename_i q' hq'
    rw [hq] at hq'
    cases hq'
    rw [dif_pos hne]
    split
    · rename_i hmove'
      rw [hmove] at hmove'
      cases hmove'
    · rename_i vec'' hmove'
      rw [hmove] at hmove'
      cases hmove'
      rfl

variable (lessThanCmp)

def perolateDown (vec : List (Option α)) : Option (List (Option α)) :=
  (moveFrom vec 0).bind fun (save, vec) =>
    perolateDownLoop lessThanCmp save vec 0

def top (vec : List (Option α)) : Option α :=
  read vec 0

/-- `popTop`, with the assertion that the heap is not empty. -/
def popTop (vec : List (Option α)) : Option (α × List (Option α)) :=
  if vec.length > 0 then
    (moveFrom vec 0).bind fun (res, vec) =>
      (move vec 0 (vec.length - 1)).bind fun vec =>
        let vec := vec.dropLast
        if vec.length ≠ 0 then
          (perolateDown lessThanCmp vec).map fun vec => (res, vec)
        else some (res, vec)
  else none

/-- `insert`, which returns the size. -/
def insert (vec : List (Option α)) (item : α) :
    Option (Nat × List (Option α)) :=
  (percolateUp lessThanCmp (vec ++ [some item])).map fun vec =>
    (vec.length, vec)

/-- The slots of a vector of values, with one that was moved from. -/
def withHole (vec : List α) (hole : Nat) : List (Option α) :=
  (vec.map some).set hole none

@[simp] theorem length_withHole
    (vec : List α) (hole : Nat) :
    (withHole vec hole).length = vec.length := by
  rw [withHole, List.length_set, List.length_map]

theorem read_map
    (vec : List α) (i : Nat) :
    read (vec.map some) i = vec[i]? := by
  rw [read, List.getElem?_map]
  cases vec[i]? <;> rfl

theorem read_withHole
    (vec : List α) {hole i : Nat} (hne : i ≠ hole) :
    read (withHole vec hole) i = vec[i]? := by
  rw [read, withHole, List.getElem?_set_ne (Ne.symm hne)]
  exact read_map vec i

theorem moveFrom_map
    {vec : List α} {i : Nat} {x : α} (hx : vec[i]? = some x) :
    moveFrom (vec.map some) i = some (x, withHole vec i) := by
  rw [moveFrom, read_map, hx]
  rfl

/-- The value that was kept aside fills the hole. -/
theorem moveTo_withHole
    {vec : List α} {hole : Nat} (hhole : hole < vec.length) (save : α) :
    moveTo (withHole vec hole) hole save =
      some ((vec.set hole save).map some) := by
  rw [moveTo, length_withHole, if_pos hhole, withHole, List.set_set,
    List.map_set]

/-- A value that is moved into the hole leaves a hole behind. -/
theorem move_withHole
    {vec : List α} {hole j : Nat} {x : α} (hhole : hole < vec.length)
    (hx : vec[j]? = some x) (hne : j ≠ hole) :
    move (withHole vec hole) hole j = some (withHole (vec.set hole x) j) := by
  have hslot : (withHole vec hole)[j]? = some (some x) := by
    rw [withHole, List.getElem?_set_ne (Ne.symm hne), List.getElem?_map, hx]
    rfl
  simp only [move, hslot, length_withHole, if_pos hhole]
  rw [withHole, withHole, List.set_set, List.map_set]

variable {lessThanCmp}

theorem percolateUpLoop_withHole
    {save : α} {vec : List α} {index : Nat} (hindex : index < vec.length) :
    percolateUpLoop lessThanCmp save (withHole vec index) index =
      some ((BinaryHeap.percolateUpLoop lessThanCmp save vec index).map
        some) := by
  fun_induction BinaryHeap.percolateUpLoop lessThanCmp save vec index with
  | case1 vec index hne hout =>
      have hlt := BinaryHeap.parent_lt_of_ne hne
      rw [List.getElem?_eq_none_iff] at hout
      omega
  | case2 vec index hne x hx hstop =>
      rw [percolateUpLoop, dif_pos hne, read_withHole vec hne, hx]
      simp only [if_pos hstop]
      exact moveTo_withHole hindex save
  | case3 vec index hne x hx hgo hlt ih =>
      rw [percolateUpLoop, dif_pos hne, read_withHole vec hne, hx]
      simp only [if_neg hgo, move_withHole hindex hx hne]
      exact ih (by rw [List.length_set]; omega)
  | case4 vec index htop =>
      rw [percolateUpLoop, dif_neg htop]
      exact moveTo_withHole hindex save

/-- The children are compared, and they are not the hole. -/
theorem properParent_withHole
    {vec : List α} {save : α} {p lc rc : Nat} (hp : p < vec.length)
    (hlc : lc ≠ p) (hrc : rc ≠ p) :
    properParent lessThanCmp (withHole vec p) save p lc rc =
      some (BinaryHeap.properParent lessThanCmp vec save p lc rc) := by
  rw [properParent, length_withHole, if_pos hp, BinaryHeap.properParent,
    read_withHole vec hlc, read_withHole vec hrc]
  by_cases hl : lc < vec.length
  all_goals by_cases hr : rc < vec.length
  all_goals simp only [hl, hr, decide_true, decide_false, Bool.not_true,
    Bool.not_false, Bool.and_true, Bool.and_false, Bool.and_self, if_true,
    Bool.false_eq_true, if_false]
  · rw [List.getElem?_eq_getElem hl, List.getElem?_eq_getElem hr]
    simp only [Option.bind_some]
    split
    · rw [read_withHole vec hrc, List.getElem?_eq_getElem hr]
      rfl
    · rw [read_withHole vec hlc, List.getElem?_eq_getElem hl]
      rfl
  · rw [List.getElem?_eq_getElem hl,
      List.getElem?_eq_none (Nat.not_lt.mp hr)]
    rfl
  · rw [List.getElem?_eq_getElem hr,
      List.getElem?_eq_none (Nat.not_lt.mp hl)]
    rfl
  · rw [List.getElem?_eq_none (Nat.not_lt.mp hl),
      List.getElem?_eq_none (Nat.not_lt.mp hr)]

theorem perolateDownLoop_withHole
    {save : α} {vec : List α} {index : Nat} (hindex : index < vec.length) :
    perolateDownLoop lessThanCmp save (withHole vec index) index =
      some ((BinaryHeap.perolateDownLoop lessThanCmp save vec index).map
        some) := by
  have hl := fun p => BinaryHeap.lChild_eq p
  have hr := fun p => BinaryHeap.rChild_eq p
  fun_induction BinaryHeap.perolateDownLoop lessThanCmp save vec index with
  | case1 vec index newParent hne hout =>
      have hlt := (BinaryHeap.properParent_bounds lessThanCmp hne).2
      rw [List.getElem?_eq_none_iff] at hout
      omega
  | case2 vec index newParent hne x hx hdec ih =>
      have hlt := (BinaryHeap.properParent_bounds lessThanCmp hne).2
      rw [perolateDownLoop_move
        (properParent_withHole hindex (by rw [hl]; omega) (by rw [hr]; omega))
        hne (move_withHole hindex hx (Ne.symm hne))]
      exact ih (by rw [List.length_set]; exact hlt)
  | case3 vec index newParent hstop =>
      have hplace := @properParent_withHole _ lessThanCmp vec save index
        (lChild index) (rChild index) hindex (by rw [hl]; omega)
        (by rw [hr]; omega)
      rw [perolateDownLoop_stop (hplace.trans
        (congrArg some (not_not.mp hstop).symm))]
      exact moveTo_withHole hindex save

theorem insert_map
    (vec : List α) (item : α) :
    insert lessThanCmp (vec.map some) item =
      some (vec.length + 1,
        (BinaryHeap.insert lessThanCmp vec item).map some) := by
  have hpush : vec.map some ++ [some item] = (vec ++ [item]).map some := by
    rw [List.map_append, List.map_singleton]
  have hlast : (vec ++ [item])[vec.length]? = some item :=
    List.getElem?_concat_length
  have hlength : ((vec ++ [item]).map some).length - 1 = vec.length := by
    rw [List.length_map, List.length_append, List.length_singleton,
      Nat.add_sub_cancel]
  have hhole : (withHole (vec ++ [item]) vec.length).length - 1 =
      vec.length := by
    rw [length_withHole, List.length_append, List.length_singleton,
      Nat.add_sub_cancel]
  have hsize :
      (BinaryHeap.insert lessThanCmp vec item).length = vec.length + 1 :=
    (BinaryHeap.insert_perm lessThanCmp vec item).length_eq
  rw [insert, hpush, percolateUp, hlength, moveFrom_map hlast,
    Option.bind_some]
  simp only
  rw [hhole, percolateUpLoop_withHole (by
      rw [List.length_append, List.length_singleton]
      exact Nat.lt_succ_self _),
    ← BinaryHeap.percolateUp_concat, Option.map_some, List.length_map, hsize]

theorem perolateDown_map
    (save : α) (vec : List α) :
    perolateDown lessThanCmp ((save :: vec).map some) =
      some ((BinaryHeap.perolateDown lessThanCmp (save :: vec)).map some) := by
  have hhead : (save :: vec)[0]? = some save := rfl
  rw [perolateDown, moveFrom_map hhead, Option.bind_some]
  exact perolateDownLoop_withHole (Nat.succ_pos _)

/-- The last slot is empty when it is dropped. -/
theorem dropLast_withHole
    (vec : List α) (last : α) :
    (withHole (vec ++ [last]) vec.length).dropLast = vec.map some := by
  have hlength : (vec.map some).length = vec.length :=
    List.length_map some
  rw [withHole, List.map_append, List.map_singleton, ← hlength,
    List.set_append_right _ _ (le_refl _), Nat.sub_self, List.set_cons_zero,
    List.dropLast_concat]

/-- A heap of more than one element: the last value comes to the top. -/
theorem popTop_concat
    (t : α) (xs : List α) (last : α) :
    popTop lessThanCmp ((t :: (xs ++ [last])).map some) =
      some (t,
        (BinaryHeap.perolateDown lessThanCmp (last :: xs)).map some) := by
  have hhead : (t :: (xs ++ [last]))[0]? = some t := rfl
  have hlength : (t :: (xs ++ [last])).length - 1 = (t :: xs).length := by
    rw [List.length_cons, List.length_append, List.length_singleton,
      List.length_cons, Nat.add_sub_cancel]
  have hlast : (t :: (xs ++ [last]))[(t :: xs).length]? = some last := by
    rw [← List.cons_append]
    exact List.getElem?_concat_length
  rw [popTop, if_pos (by rw [List.length_map]; exact Nat.succ_pos _),
    moveFrom_map hhead, Option.bind_some]
  simp only
  rw [length_withHole, hlength,
    move_withHole (Nat.succ_pos _) hlast (Nat.succ_ne_zero _),
    Option.bind_some, List.set_cons_zero, ← List.cons_append]
  have hdrop : (withHole (last :: xs ++ [last]) (t :: xs).length).dropLast =
      (last :: xs).map some :=
    dropLast_withHole (last :: xs) last
  rw [hdrop, if_pos (by rw [List.length_map]; exact Nat.succ_ne_zero _),
    perolateDown_map, Option.map_some]

theorem popTop_map
    (vec : List α) :
    popTop lessThanCmp (vec.map some) =
      (BinaryHeap.popTop lessThanCmp vec).map fun (t, rest) =>
        (t, rest.map some) := by
  cases vec with
  | nil =>
      rfl
  | cons t ys =>
      rcases List.eq_nil_or_concat ys with rfl | ⟨xs, last, rfl⟩
      · rfl
      · rw [List.concat_eq_append, popTop_concat, BinaryHeap.popTop_concat]
        rfl

theorem top_map
    (vec : List α) :
    top (vec.map some) = BinaryHeap.top vec := by
  rw [top, read_map, BinaryHeap.top, List.head?_eq_getElem?]

end HeapSlots

end HeapSlots

inductive HeapOp (α : Type u) where
  | insert (item : α)
  | popTop

namespace HeapOp

variable {α : Type u}

/-- A pop stands where the heap has an element. -/
def Permitted : Nat → List (HeapOp α) → Prop
  | _, [] => True
  | n, insert _ :: ops => Permitted (n + 1) ops
  | n, popTop :: ops => 0 < n ∧ Permitted (n - 1) ops

def inserted : List (HeapOp α) → List α
  | [] => []
  | insert item :: ops => item :: inserted ops
  | popTop :: ops => inserted ops

end HeapOp

namespace HeapSlots

open BinaryHeap (HeapOrdered)

section Runs

variable {α : Type u}
variable (lessThanCmp : α → α → Bool)

/-- One operation; what is popped is kept in order. -/
def exec (op : HeapOp α) (s : List (Option α) × List α) :
    Option (List (Option α) × List α) :=
  match op with
  | .insert item =>
      (insert lessThanCmp s.1 item).map fun (_, vec) => (vec, s.2)
  | .popTop =>
      (popTop lessThanCmp s.1).map fun (t, vec) => (vec, s.2 ++ [t])

def run (ops : List (HeapOp α)) (s : List (Option α) × List α) :
    Option (List (Option α) × List α) :=
  match ops with
  | [] => some s
  | op :: ops => (exec lessThanCmp op s).bind (run ops)

variable {lessThanCmp}

section Keys

variable {K : Type v} [LinearOrder K] {key : α → K}

/-- The heap is ordered, and together with what was popped it has the items. -/
structure RunInv
    (key : α → K) (items vec popped : List α) : Prop where
  ordered : HeapOrdered key vec
  contents : (vec ++ popped).Perm items

variable
  (hcmp : ∀ a b, lessThanCmp a b = true ↔ key a < key b)

include hcmp

theorem not_less_of_le
    {a b : α} (hle : key a ≤ key b) :
    lessThanCmp b a = false := by
  rw [Bool.eq_false_iff, Ne, hcmp]
  exact not_lt.mpr hle

theorem exec_insert
    {items vec popped : List α} (hinv : RunInv key items vec popped)
    (item : α) :
    ∃ vec', exec lessThanCmp (.insert item) (vec.map some, popped) =
        some (vec'.map some, popped) ∧
      vec'.length = vec.length + 1 ∧
      RunInv key (items ++ [item]) vec' popped := by
  have hperm := BinaryHeap.insert_perm lessThanCmp vec item
  refine ⟨BinaryHeap.insert lessThanCmp vec item, ?_, hperm.length_eq,
    BinaryHeap.insert_ordered hcmp hinv.ordered item, ?_⟩
  · rw [exec, insert_map]
    rfl
  · exact ((hperm.append_right popped).trans
      (hinv.contents.cons item)).trans
        (List.perm_append_singleton item items).symm

theorem exec_popTop
    {items vec popped : List α} (hinv : RunInv key items vec popped)
    (hpos : 0 < vec.length) :
    ∃ t vec', BinaryHeap.top vec = some t ∧
      BinaryHeap.popTop lessThanCmp vec = some (t, vec') ∧
      exec lessThanCmp .popTop (vec.map some, popped) =
        some (vec'.map some, popped ++ [t]) ∧
      vec'.length = vec.length - 1 ∧
      RunInv key items vec' (popped ++ [t]) := by
  have htop : BinaryHeap.top vec =
      some (vec.head (List.ne_nil_of_length_pos hpos)) :=
    List.head?_eq_some_head _
  obtain ⟨vec', hpop⟩ := BinaryHeap.popTop_isSome lessThanCmp htop
  have hperm := BinaryHeap.popTop_perm hpop
  refine ⟨_, vec', htop, hpop, ?_, ?_,
    BinaryHeap.popTop_ordered hcmp hinv.ordered hpop, ?_⟩
  · rw [exec, popTop_map, hpop]
    rfl
  · rw [hperm.length_eq, List.length_cons, Nat.add_sub_cancel]
  · refine List.Perm.trans ?_ hinv.contents
    rw [← List.append_assoc]
    refine (List.perm_append_singleton _ _).trans ?_
    exact (hperm.append_right popped).symm

theorem run_inv
    (ops : List (HeapOp α)) {items vec popped : List α}
    (hinv : RunInv key items vec popped)
    (hops : HeapOp.Permitted vec.length ops) :
    ∃ vec' popped', run lessThanCmp ops (vec.map some, popped) =
        some (vec'.map some, popped') ∧
      RunInv key (items ++ HeapOp.inserted ops) vec' popped' := by
  induction ops generalizing items vec popped with
  | nil =>
      refine ⟨vec, popped, rfl, ?_⟩
      rw [HeapOp.inserted, List.append_nil]
      exact hinv
  | cons op ops ih =>
      cases op with
      | insert item =>
          obtain ⟨vec', hexec, hlength, hinv'⟩ := exec_insert hcmp hinv item
          rw [HeapOp.Permitted, ← hlength] at hops
          rw [run, hexec, HeapOp.inserted, List.append_cons]
          exact ih hinv' hops
      | popTop =>
          obtain ⟨hpos, hrest⟩ := hops
          obtain ⟨t, vec', -, -, hexec, hlength, hinv'⟩ :=
            exec_popTop hcmp hinv hpos
          rw [← hlength] at hrest
          rw [run, hexec, HeapOp.inserted]
          exact ih hinv' hrest

/-- Each popped element is the least of those that are popped after it. -/
theorem run_drain
    (n : Nat) {items vec popped : List α}
    (hinv : RunInv key items vec popped) (hlength : vec.length = n) :
    ∃ sorted, run lessThanCmp (List.replicate n .popTop)
        (vec.map some, popped) = some ([], popped ++ sorted) ∧
      sorted.Perm vec ∧
      sorted.Pairwise fun a b => key a ≤ key b := by
  induction n generalizing vec popped with
  | zero =>
      rw [List.length_eq_zero_iff] at hlength
      subst hlength
      exact ⟨[], by rw [List.append_nil]; rfl, .refl _, .nil⟩
  | succ n ih =>
      obtain ⟨t, vec', htop, hpop, hexec, hlength', hinv'⟩ :=
        exec_popTop hcmp hinv (by omega)
      obtain ⟨sorted, hrun, hsorted, hpairwise⟩ := ih hinv' (by omega)
      have hperm := BinaryHeap.popTop_perm hpop
      refine ⟨t :: sorted, ?_, (hsorted.cons t).trans hperm.symm, ?_⟩
      · rw [List.replicate_succ, run, hexec, Option.bind_some, hrun,
          List.append_assoc, List.singleton_append]
      · refine List.pairwise_cons.mpr ⟨?_, hpairwise⟩
        intro x hx
        have hmem : x ∈ vec :=
          hperm.mem_iff.mpr (List.mem_cons_of_mem t (hsorted.mem_iff.mp hx))
        exact hinv.ordered.top_le htop hmem

end Keys

variable (lessThanCmp)

/-- What holds of the values in a heap, and of those that were popped. -/
structure IsPriorityQueue
    (items vec popped : List α) : Prop where
  notLessThanParent :
    ∀ i child above, 0 < i → vec[i]? = some child →
      vec[BinaryHeap.parent i]? = some above →
      lessThanCmp child above = false
  contents : (vec ++ popped).Perm items
  topLeast :
    ∀ t, top (vec.map some) = some t →
      ∀ x ∈ vec, lessThanCmp x t = false
  popsTop :
    0 < vec.length →
      ∃ (t : α) (rest : List α), top (vec.map some) = some t ∧
        popTop lessThanCmp (vec.map some) = some (t, rest.map some)
  drains :
    ∃ sorted, run lessThanCmp (List.replicate vec.length .popTop)
        (vec.map some, []) = some ([], sorted) ∧
      sorted.Perm vec ∧
      sorted.Pairwise fun a b => lessThanCmp b a = false

variable {lessThanCmp}

theorem isPriorityQueue
    {K : Type v} [LinearOrder K] {key : α → K}
    (hcmp : ∀ a b, lessThanCmp a b = true ↔ key a < key b)
    {items vec popped : List α} (hinv : RunInv key items vec popped) :
    IsPriorityQueue lessThanCmp items vec popped where
  notLessThanParent := by
    intro i child above hi hchild habove
    have hle := hinv.ordered i hi
    rw [← BinaryHeap.parent_eq, BinaryHeap.keyAt_of_getElem? hchild,
      BinaryHeap.keyAt_of_getElem? habove, WithTop.coe_le_coe] at hle
    exact not_less_of_le hcmp hle
  contents := hinv.contents
  topLeast := by
    intro t ht x hx
    rw [top_map] at ht
    exact not_less_of_le hcmp (hinv.ordered.top_le ht hx)
  popsTop := by
    intro hpos
    obtain ⟨t, rest, htop, hpop, -⟩ := exec_popTop hcmp hinv hpos
    refine ⟨t, rest, (top_map vec).trans htop, ?_⟩
    rw [popTop_map, hpop]
    rfl
  drains := by
    obtain ⟨sorted, hrun, hperm, hpairwise⟩ :=
      @run_drain _ lessThanCmp _ _ _ hcmp vec.length vec vec []
        ⟨hinv.ordered, by rw [List.append_nil]⟩ rfl
    exact ⟨sorted, hrun, hperm,
      hpairwise.imp fun hle => not_less_of_le hcmp hle⟩

/-- Every sequence of operations runs without an error, and leaves a priority
queue behind. -/
theorem run_isPriorityQueue
    [IsStrictWeakOrder α fun a b => lessThanCmp a b = true]
    (ops : List (HeapOp α)) (hops : HeapOp.Permitted 0 ops) :
    ∃ vec popped : List α, run lessThanCmp ops ([], []) =
        some (vec.map some, popped) ∧
      IsPriorityQueue lessThanCmp (HeapOp.inserted ops) vec popped := by
  obtain ⟨K, _, key, hcmp⟩ :=
    ImplicitHeap.exists_key fun a b => lessThanCmp a b = true
  obtain ⟨vec, popped, hrun, hinv⟩ :=
    @run_inv _ lessThanCmp _ _ key hcmp ops [] [] []
      ⟨HeapOrdered.nil, .refl _⟩ hops
  exact ⟨vec, popped, hrun, isPriorityQueue hcmp hinv⟩

/-- Three numbers, two of which are popped. -/
theorem run_isPriorityQueue_nat :
    ∃ vec popped : List Nat,
      run (fun a b => decide (a < b))
        [.insert 2, .insert 1, .popTop, .insert 3, .popTop] ([], []) =
          some (vec.map some, popped) ∧
      IsPriorityQueue (fun a b => decide (a < b)) [2, 1, 3] vec popped :=
  @run_isPriorityQueue Nat (fun a b => decide (a < b))
    { irrefl := by simp
      trans := by
        simp only [decide_eq_true_eq]
        exact fun a b c => Nat.lt_trans
      incomp_trans := by
        simp only [decide_eq_true_eq]
        omega }
    [.insert 2, .insert 1, .popTop, .insert 3, .popTop]
    ⟨by decide, by decide, trivial⟩

end Runs

end HeapSlots

end Hohnor
