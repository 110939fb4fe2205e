import Hohnor.ImplicitHeap
import Mathlib.Data.List.Perm.Basic
import Mathlib.Order.WithBot

/-!
# Binary heaps

`BinaryHeap` of include/hohnor/common/BinaryHeap.h over its vector.  The value
that a percolation moves is kept beside the vector until it has found its
place; what the vector holds at that place meanwhile is never read.

The results are for a comparison that is the order of some key: the contents
are those of the vector before, and the keys are ordered as in a binary heap
again.
-/

namespace Hohnor

open ImplicitHeap

universe u v

namespace BinaryHeap

section BinaryHeap

variable {α : Type u}
variable (lessThanCmp : α → α → Bool)

/-- `BinaryHeap::parent`. -/
def parent (child : Nat) : Nat :=
  if child ≠ 0 then (child - 1) >>> 1 else child

def lChild (parent : Nat) : Nat :=
  parent <<< 1 + 1

def rChild (parent : Nat) : Nat :=
  (parent + 1) <<< 1

theorem parent_eq
    (child : Nat) :
    parent child = ImplicitHeap.parent child := by
  unfold parent ImplicitHeap.parent
  rw [Nat.shiftRight_eq_div_pow]
  split
  · rfl
  · omega

theorem lChild_eq
    (p : Nat) :
    lChild p = 2 * p + 1 := by
  unfold lChild
  rw [Nat.shiftLeft_eq]
  omega

theorem rChild_eq
    (p : Nat) :
    rChild p = 2 * p + 2 := by
  unfold rChild
  rw [Nat.shiftLeft_eq]
  omega

/-- The children of a position. -/
theorem eq_child_of_parent
    {i p : Nat} (hi : 0 < i) (hparent : ImplicitHeap.parent i = p) :
    i = lChild p ∨ i = rChild p := by
  rw [lChild_eq, rChild_eq]
  exact (parent_eq_iff hi).mp hparent

theorem parent_lt_of_ne
    {index : Nat} (hne : parent index ≠ index) :
    parent index < index := by
  have hpos : 0 < index := by
    by_contra h0
    have : index = 0 := by omega
    subst this
    exact hne rfl
  rw [parent_eq]
  exact parent_lt hpos

/-- The loop of `percolateUp`. -/
def percolateUpLoop (save : α) (vec : List α) (index : Nat) : List α :=
  if hne : parent index ≠ index then
    match vec[parent index]? with
    | none => vec
    | some x =>
        if lessThanCmp x save then
          vec.set index save
        else
          have : parent index < index := parent_lt_of_ne hne
          percolateUpLoop save (vec.set index x) (parent index)
  else
    vec.set index save
termination_by index

def percolateUp (vec : List α) : List α :=
  match vec.getLast? with
  | none => vec
  | some save => percolateUpLoop lessThanCmp save vec (vec.length - 1)

def properParent (vec : List α) (save : α) (p lc rc : Nat) : Nat :=
  match vec[lc]?, vec[rc]? with
  | none, none => p
  | some l, none => if lessThanCmp l save then lc else p
  | none, some r => if lessThanCmp r save then rc else p
  | some l, some r =>
      let LRMax := if lessThanCmp r l then (rc, r) else (lc, l)
      if lessThanCmp LRMax.2 save then LRMax.1 else p

/-- The new place is the old one or that of a child in use. -/
theorem properParent_cases
    (vec : List α) (save : α) (p lc rc : Nat) :
    let q := properParent lessThanCmp vec save p lc rc
    q = p ∨ ((q = lc ∨ q = rc) ∧ q < vec.length) := by
  have hused : ∀ {i : Nat} {x : α}, vec[i]? = some x →
      i < vec.length :=
    fun hx => (List.getElem?_eq_some_iff.mp hx).1
  simp only
  unfold properParent
  cases hl : vec[lc]? with
  | none =>
      cases hr : vec[rc]? with
      | none =>
          exact .inl rfl
      | some r =>
          simp only
          split
          · exact .inr ⟨.inr rfl, hused hr⟩
          · exact .inl rfl
  | some l =>
      cases hr : vec[rc]? with
      | none =>
          simp only
          split
          · exact .inr ⟨.inl rfl, hused hl⟩
          · exact .inl rfl
      | some r =>
          by_cases hrl : lessThanCmp r l = true
          · simp only [if_pos hrl]
            split
            · exact .inr ⟨.inr rfl, hused hr⟩
            · exact .inl rfl
          · simp only [if_neg hrl]
            split
            · exact .inr ⟨.inl rfl, hused hl⟩
            · exact .inl rfl

theorem properParent_bounds
    {vec : List α} {save : α} {p : Nat}
    (hne : p ≠
      properParent lessThanCmp vec save p (lChild p) (rChild p)) :
    p < properParent lessThanCmp vec save p (lChild p) (rChild p) ∧
      properParent lessThanCmp vec save p (lChild p) (rChild p) <
        vec.length := by
  have hl := lChild_eq p
  have hr := rChild_eq p
  rcases properParent_cases lessThanCmp vec save p (lChild p)
    (rChild p) with hsame | ⟨hchild, hlt⟩
  · exact absurd hsame.symm hne
  · refine ⟨?_, hlt⟩
    omega

/-- The loop of `perolateDown`. -/
def perolateDownLoop
    (save : α) (vec : List α) (index : Nat) : List α :=
  let newParent :=
    properParent lessThanCmp vec save index
      (lChild index) (rChild index)
  if hne : index ≠ newParent then
    match vec[newParent]? with
    | none => vec
    | some x =>
        have : vec.length - newParent < vec.length - index := by
          have := properParent_bounds lessThanCmp hne
          omega
        perolateDownLoop save (vec.set index x) newParent
  else
    vec.set index save
termination_by vec.length - index

def perolateDown (vec : List α) : List α :=
  match vec.head? with
  | none => vec
  | some save => perolateDownLoop lessThanCmp save vec 0

/-- `top`, none on an empty heap. -/
def top (vec : List α) : Option α :=
  vec.head?

/-- `popTop`, none on an empty heap. -/
def popTop (vec : List α) : Option (α × List α) :=
  match vec.head?, vec.getLast? with
  | some res, some last =>
      let vec := (vec.set 0 last).dropLast
      some
        (res, if vec.length ≠ 0 then perolateDown lessThanCmp vec
          else vec)
  | _, _ => none

def insert (vec : List α) (item : α) : List α :=
  percolateUp lessThanCmp (vec ++ [item])

variable {lessThanCmp}

/-- Moving the hole from one place to another exchanges their values. -/
theorem set_set_perm
    {vec : List α} {save x : α} {i j : Nat}
    (hi : i < vec.length) (hj : vec[j]? = some x) (hne : i ≠ j) :
    ((vec.set i x).set j save).Perm (vec.set i save) := by
  obtain ⟨hjlt, hx⟩ := List.getElem?_eq_some_iff.mp hj
  have hswap :=
    @List.set_set_perm α (vec.set i save) i j (by simpa using hi)
      (by simpa using hjlt)
  rw [List.getElem_set_self, List.getElem_set_ne hne, hx,
    List.set_set] at hswap
  exact hswap

theorem percolateUpLoop_perm
    {save : α} {vec : List α} {index : Nat}
    (hindex : index < vec.length) :
    (percolateUpLoop lessThanCmp save vec index).Perm
      (vec.set index save) := by
  fun_induction percolateUpLoop lessThanCmp save vec index with
  | case1 vec index hne hout =>
      have hlt := parent_lt_of_ne hne
      rw [List.getElem?_eq_none_iff] at hout
      omega
  | case2 vec index hne x hx hstop =>
      exact .refl _
  | case3 vec index hne x hx hgo hlt ih =>
      refine (ih (by simp; omega)).trans ?_
      exact set_set_perm hindex hx (Ne.symm hne)
  | case4 vec index htop =>
      exact .refl _

/-- What an insertion can do to the top: the new item, or the old top. -/
theorem percolateUpLoop_head
    {save : α} {vec : List α} {index : Nat}
    (hindex : index < vec.length) :
    (percolateUpLoop lessThanCmp save vec index).head? = some save ∨
      (0 < index ∧
        (percolateUpLoop lessThanCmp save vec index).head? =
          vec.head?) := by
  simp only [List.head?_eq_getElem?]
  fun_induction percolateUpLoop lessThanCmp save vec index with
  | case1 vec index hne hout =>
      have hlt := parent_lt_of_ne hne
      rw [List.getElem?_eq_none_iff] at hout
      omega
  | case2 vec index hne x hx hstop =>
      have hlt := parent_lt_of_ne hne
      refine .inr ⟨by omega, ?_⟩
      exact List.getElem?_set_ne (by omega)
  | case3 vec index hne x hx hgo hlt ih =>
      rcases ih (by simp; omega) with hsave | ⟨hpos, hold⟩
      · exact .inl hsave
      · refine .inr ⟨by omega, ?_⟩
        rw [hold]
        exact List.getElem?_set_ne (by omega)
  | case4 vec index htop =>
      have hpos : ¬ 0 < index := by
        intro hpos
        have hlt := parent_lt hpos
        rw [not_not, parent_eq] at htop
        omega
      have h0 : index = 0 := by omega
      subst h0
      exact .inl (List.getElem?_set_self hindex)

theorem percolateUp_concat
    (lessThanCmp : α → α → Bool) (vec : List α) (item : α) :
    insert lessThanCmp vec item =
      percolateUpLoop lessThanCmp item (vec ++ [item]) vec.length := by
  simp [insert, percolateUp]

theorem insert_perm
    (lessThanCmp : α → α → Bool) (vec : List α) (item : α) :
    (insert lessThanCmp vec item).Perm (item :: vec) := by
  rw [percolateUp_concat]
  refine (percolateUpLoop_perm (by simp)).trans ?_
  simp

theorem top_insert
    (lessThanCmp : α → α → Bool) (vec : List α) (item : α) :
    top (insert lessThanCmp vec item) = some item ∨
      top (insert lessThanCmp vec item) = top vec := by
  rw [percolateUp_concat]
  rcases @percolateUpLoop_head _ lessThanCmp item (vec ++ [item])
    vec.length (by simp) with hnew | ⟨hpos, hold⟩
  · exact .inl hnew
  · refine .inr (hold.trans ?_)
    exact List.head?_append_of_ne_nil _ (List.ne_nil_of_length_pos hpos)

theorem perolateDownLoop_perm
    {save : α} {vec : List α} {index : Nat}
    (hindex : index < vec.length) :
    (perolateDownLoop lessThanCmp save vec index).Perm
      (vec.set index save) := by
  fun_induction perolateDownLoop lessThanCmp save vec index with
  | case1 vec index newParent hne hout =>
      have hlt := (properParent_bounds lessThanCmp hne).2
      rw [List.getElem?_eq_none_iff] at hout
      omega
  | case2 vec index newParent hne x hx hdec ih =>
      have hlt := (properParent_bounds lessThanCmp hne).2
      refine (ih (by simpa using hlt)).trans ?_
      exact set_set_perm hindex hx hne
  | case3 vec index newParent hstop =>
      exact .refl _

theorem perolateDown_perm
    (lessThanCmp : α → α → Bool) (vec : List α) :
    (perolateDown lessThanCmp vec).Perm vec := by
  cases vec with
  | nil =>
      exact .refl _
  | cons save vec =>
      exact perolateDownLoop_perm (by simp)

theorem popTop_singleton
    (lessThanCmp : α → α → Bool) (t : α) :
    popTop lessThanCmp [t] = some (t, []) := by
  rfl

theorem popTop_concat
    (lessThanCmp : α → α → Bool) (t : α) (xs : List α) (last : α) :
    popTop lessThanCmp (t :: (xs ++ [last])) =
      some (t, perolateDown lessThanCmp (last :: xs)) := by
  have hlast : (t :: (xs ++ [last])).getLast? = some last := by
    rw [← List.cons_append]
    exact List.getLast?_concat
  have hvec :
      ((t :: (xs ++ [last])).set 0 last).dropLast = last :: xs := by
    rw [List.set_cons_zero, ← List.cons_append]
    exact List.dropLast_concat
  simp only [popTop, List.head?_cons, hlast, hvec]
  simp

/-- A heap from which something is popped. -/
theorem popTop_cases
    {vec rest : List α} {t : α}
    (hpop : popTop lessThanCmp vec = some (t, rest)) :
    (vec = [t] ∧ rest = []) ∨
    ∃ xs last, vec = t :: (xs ++ [last]) ∧
      rest = perolateDown lessThanCmp (last :: xs) := by
  cases vec with
  | nil =>
      cases hpop
  | cons x ys =>
      rcases List.eq_nil_or_concat ys with rfl | ⟨xs, last, rfl⟩
      · rw [popTop_singleton] at hpop
        obtain ⟨rfl, rfl⟩ := Prod.mk.inj (Option.some.inj hpop)
        exact .inl ⟨rfl, rfl⟩
      · rw [List.concat_eq_append, popTop_concat] at hpop
        obtain ⟨rfl, rfl⟩ := Prod.mk.inj (Option.some.inj hpop)
        exact .inr ⟨xs, last, by rw [List.concat_eq_append], rfl⟩

theorem popTop_perm
    {vec rest : List α} {t : α}
    (hpop : popTop lessThanCmp vec = some (t, rest)) :
    vec.Perm (t :: rest) := by
  rcases popTop_cases hpop with ⟨rfl, rfl⟩ | ⟨xs, last, rfl, rfl⟩
  · exact .refl _
  · refine .cons t (.trans ?_ (perolateDown_perm lessThanCmp _).symm)
    exact List.perm_append_singleton last xs

theorem popTop_isSome
    (lessThanCmp : α → α → Bool) {vec : List α} {t : α}
    (htop : top vec = some t) :
    ∃ rest, popTop lessThanCmp vec = some (t, rest) := by
  cases vec with
  | nil =>
      cases htop
  | cons x ys =>
      cases htop
      rcases List.eq_nil_or_concat ys with rfl | ⟨xs, last, rfl⟩
      · exact ⟨_, popTop_singleton lessThanCmp t⟩
      · rw [List.concat_eq_append, popTop_concat]
        exact ⟨_, rfl⟩

variable {K : Type v}
variable {key : α → K}

/-- The key at a position, the greatest value where there is none. -/
def keyAt (key : α → K) (vec : List α) (i : Nat) : WithTop K :=
  match vec[i]? with
  | none => ⊤
  | some x => key x

theorem keyAt_of_getElem?
    {vec : List α} {i : Nat} {x : α} (hx : vec[i]? = some x) :
    keyAt key vec i = key x := by
  simp [keyAt, hx]

theorem keyAt_of_le
    {vec : List α} {i : Nat} (hi : vec.length ≤ i) :
    keyAt key vec i = ⊤ := by
  simp [keyAt, List.getElem?_eq_none hi]

theorem keyAt_set
    {vec : List α} {i : Nat} (hi : i < vec.length) (x : α) :
    keyAt key (vec.set i x) =
      Function.update (keyAt key vec) i (key x) := by
  funext k
  by_cases hk : k = i
  · subst hk
    rw [Function.update_self]
    exact keyAt_of_getElem? (List.getElem?_set_self hi)
  · rw [Function.update_of_ne hk]
    simp [keyAt, List.getElem?_set_ne (Ne.symm hk)]

theorem keyAt_set_ne
    (vec : List α) (x : α) {i k : Nat} (hk : k ≠ i) :
    keyAt key (vec.set i x) k = keyAt key vec k := by
  simp [keyAt, List.getElem?_set_ne (Ne.symm hk)]

theorem keyAt_set_self
    {vec : List α} {i : Nat} (hi : i < vec.length) (x : α) :
    keyAt key (vec.set i x) i = key x :=
  keyAt_of_getElem? (List.getElem?_set_self hi)

theorem keyAt_concat
    (vec : List α) (x : α) :
    keyAt key (vec ++ [x]) =
      Function.update (keyAt key vec) vec.length (key x) := by
  funext k
  rcases Nat.lt_trichotomy k vec.length with hlt | rfl | hgt
  · rw [Function.update_of_ne (Nat.ne_of_lt hlt)]
    simp [keyAt, List.getElem?_append_left hlt]
  · rw [Function.update_self]
    exact keyAt_of_getElem? (by simp)
  · rw [Function.update_of_ne (Nat.ne_of_gt hgt),
      keyAt_of_le (by simp; omega), keyAt_of_le (by omega)]

theorem keyAt_dropLast
    (vec : List α) :
    keyAt key vec.dropLast =
      Function.update (keyAt key vec) (vec.length - 1) ⊤ := by
  funext k
  by_cases hk : k = vec.length - 1
  · subst hk
    rw [Function.update_self]
    exact keyAt_of_le (by simp)
  · rw [Function.update_of_ne hk]
    rcases Nat.lt_or_ge k (vec.length - 1) with hlt | hge
    · simp only [keyAt, List.getElem?_dropLast, if_pos hlt]
    · rw [keyAt_of_le (by simpa using hge), keyAt_of_le (by omega)]

/-- The keys when the hole moves. -/
theorem keyAt_set_set
    {vec : List α} {save x : α} {i j : Nat}
    (hi : i < vec.length) (hj : vec[j]? = some x) (hne : i ≠ j) :
    keyAt key ((vec.set i x).set j save) =
      exchange (keyAt key (vec.set i save)) i j := by
  have hjlt := (List.getElem?_eq_some_iff.mp hj).1
  funext k
  by_cases hki : k = i
  · subst hki
    rw [exchange_left, keyAt_set_ne _ _ hne, keyAt_set_self hi,
      keyAt_set_ne _ _ (Ne.symm hne), keyAt_of_getElem? hj]
  · by_cases hkj : k = j
    · subst hkj
      rw [exchange_right, keyAt_set_self (by simpa using hjlt),
        keyAt_set_self hi]
    · rw [exchange_of_ne _ hki hkj, keyAt_set_ne _ _ hkj,
        keyAt_set_ne _ _ hki, keyAt_set_ne _ _ hki]

variable [LinearOrder K]

/-- The order of a binary heap. -/
def HeapOrdered (key : α → K) (vec : List α) : Prop :=
  Ordered (keyAt key vec)

/-- The top of an ordered heap has the least key. -/
theorem HeapOrdered.top_le
    {vec : List α} (hvec : HeapOrdered key vec) {t x : α}
    (ht : top vec = some t) (hx : x ∈ vec) :
    key t ≤ key x := by
  obtain ⟨i, hi⟩ := List.mem_iff_getElem?.mp hx
  rw [top, List.head?_eq_getElem?] at ht
  have hle := hvec.root_le i
  rw [keyAt_of_getElem? ht, keyAt_of_getElem? hi] at hle
  exact WithTop.coe_le_coe.mp hle

/-- The order depends on the keys of the items in the heap only. -/
theorem HeapOrdered.congr
    {key' : α → K} {vec : List α} (hvec : HeapOrdered key vec)
    (hkey : ∀ x ∈ vec, key' x = key x) :
    HeapOrdered key' vec := by
  have hsame : keyAt key' vec = keyAt key vec := by
    funext i
    unfold keyAt
    cases hi : vec[i]? with
    | none =>
        rfl
    | some x =>
        simp only [hkey x (List.mem_of_getElem? hi)]
  unfold HeapOrdered
  rw [hsame]
  exact hvec

theorem HeapOrdered.nil :
    HeapOrdered key ([] : List α) := by
  intro i _
  rw [keyAt_of_le (by simp), keyAt_of_le (by simp)]

theorem HeapOrdered.dropLast
    {vec : List α} (hvec : HeapOrdered key vec) :
    HeapOrdered key vec.dropLast := by
  unfold HeapOrdered
  rw [keyAt_dropLast]
  exact hvec.drop_last (fun i hi => keyAt_of_le (by omega))

/-- A comparison picks the position with the smaller key. -/
theorem pick_least
    {g : Nat → WithTop K} {i j : Nat} {c : Bool}
    (hc : c = true ↔ g i < g j) :
    g (if c then i else j) ≤ g i ∧ g (if c then i else j) ≤ g j := by
  cases c with
  | true =>
      exact ⟨le_refl _, (hc.mp rfl).le⟩
  | false =>
      refine ⟨not_lt.mp ?_, le_refl _⟩
      intro hlt
      cases hc.mpr hlt

section Comparison

variable
  (hcmp : ∀ a b, lessThanCmp a b = true ↔ key a < key b)

include hcmp

theorem percolateUpLoop_ordered
    {save : α} {vec : List α} {index : Nat}
    (hindex : index < vec.length)
    (hvec : OrderedAbove (keyAt key (vec.set index save)) index) :
    HeapOrdered key
      (percolateUpLoop lessThanCmp save vec index) := by
  fun_induction percolateUpLoop lessThanCmp save vec index with
  | case1 vec index hne hout =>
      have hlt := parent_lt_of_ne hne
      rw [List.getElem?_eq_none_iff] at hout
      omega
  | case2 vec index hne x hx hstop =>
      refine hvec.ordered ?_
      intro _
      rw [← parent_eq, keyAt_set_ne _ _ hne, keyAt_set_self hindex,
        keyAt_of_getElem? hx]
      exact WithTop.coe_le_coe.mpr ((hcmp x save).mp hstop).le
  | case3 vec index hne x hx hgo hlt ih =>
      refine ih (by simp; omega) ?_
      rw [keyAt_set_set hindex hx (Ne.symm hne), parent_eq]
      refine hvec.exchange (by omega) ?_
      rw [← parent_eq, keyAt_set_ne _ _ hne, keyAt_set_self hindex,
        keyAt_of_getElem? hx]
      rw [hcmp, not_lt] at hgo
      exact WithTop.coe_le_coe.mpr hgo
  | case4 vec index htop =>
      refine hvec.ordered ?_
      intro hpos
      have hlt := parent_lt hpos
      rw [not_not, parent_eq] at htop
      omega

theorem insert_ordered
    {vec : List α} (hvec : HeapOrdered key vec) (item : α) :
    HeapOrdered key (insert lessThanCmp vec item) := by
  rw [percolateUp_concat]
  refine percolateUpLoop_ordered hcmp (by simp) ?_
  have hsame : (vec ++ [item]).set vec.length item = vec ++ [item] := by
    simp
  rw [hsame, keyAt_concat]
  exact hvec.place_last (fun i hi => keyAt_of_le hi) _

/-- `properParent` finds the least of the moving key and its children. -/
theorem properParent_least
    {vec : List α} {save : α} {p : Nat} (hp : p < vec.length) :
    let q := properParent lessThanCmp vec save p (lChild p) (rChild p)
    let g := keyAt key (vec.set p save)
    g q ≤ g p ∧ g q ≤ g (lChild p) ∧ g q ≤ g (rChild p) := by
  have hl := lChild_eq p
  have hr := rChild_eq p
  intro q g
  have hfree : ∀ {i}, i ≠ p → vec[i]? = none → g i = ⊤ := by
    intro i hi hnone
    exact (keyAt_set_ne vec save hi).trans (by simp [keyAt, hnone])
  have hkey : ∀ {i x}, i ≠ p → vec[i]? = some x → g i = key x := by
    intro i x hi hx
    exact (keyAt_set_ne vec save hi).trans (keyAt_of_getElem? hx)
  have hsave : g p = key save := keyAt_set_self hp save
  have hcmpSave : ∀ {i x}, i ≠ p → vec[i]? = some x →
      (lessThanCmp x save = true ↔ g i < g p) := by
    intro i x hi hx
    rw [hkey hi hx, hsave, WithTop.coe_lt_coe]
    exact hcmp x save
  have hlp : lChild p ≠ p := by omega
  have hrp : rChild p ≠ p := by omega
  simp only [q, properParent]
  cases hlc : vec[lChild p]? with
  | none =>
      cases hrc : vec[rChild p]? with
      | none =>
          simp only [hfree hlp hlc, hfree hrp hrc]
          exact ⟨le_refl _, le_top, le_top⟩
      | some r =>
          obtain ⟨hqr, hqp⟩ := pick_least (hcmpSave hrp hrc)
          simp only [hfree hlp hlc]
          exact ⟨hqp, le_top, hqr⟩
  | some l =>
      cases hrc : vec[rChild p]? with
      | none =>
          obtain ⟨hql, hqp⟩ := pick_least (hcmpSave hlp hlc)
          simp only [hfree hrp hrc]
          exact ⟨hqp, hql, le_top⟩
      | some r =>
          have hrl : lessThanCmp r l = true ↔
              g (rChild p) < g (lChild p) := by
            rw [hkey hrp hrc, hkey hlp hlc, WithTop.coe_lt_coe]
            exact hcmp r l
          by_cases hless : lessThanCmp r l = true
          · obtain ⟨hqr, hqp⟩ := pick_least (hcmpSave hrp hrc)
            simp only [if_pos hless]
            exact ⟨hqp, hqr.trans (hrl.mp hless).le, hqr⟩
          · obtain ⟨hql, hqp⟩ := pick_least (hcmpSave hlp hlc)
            have hle := not_lt.mp (fun hlt => hless (hrl.mpr hlt))
            simp only [if_neg hless]
            exact ⟨hqp, hql, hql.trans hle⟩

theorem perolateDownLoop_ordered
    {save : α} {vec : List α} {index : Nat}
    (hindex : index < vec.length)
    (hvec : OrderedBelow (keyAt key (vec.set index save)) index) :
    HeapOrdered key
      (perolateDownLoop lessThanCmp save vec index) := by
  fun_induction perolateDownLoop lessThanCmp save vec index with
  | case1 vec index newParent hne hout =>
      have hlt := (properParent_bounds lessThanCmp hne).2
      rw [List.getElem?_eq_none_iff] at hout
      omega
  | case2 vec index newParent hne x hx hdec ih =>
      have hlt := (properParent_bounds lessThanCmp hne).2
      obtain ⟨hself, hleft, hright⟩ :=
        @properParent_least _ _ _ _ _ hcmp vec save _ hindex
      refine ih (by simpa using hlt) ?_
      rw [keyAt_set_set hindex hx hne]
      have hpos : 0 < newParent := by
        have := (properParent_bounds lessThanCmp hne).1
        omega
      have hparent : ImplicitHeap.parent newParent = index := by
        rw [parent_eq_iff hpos, ← lChild_eq, ← rChild_eq]
        rcases properParent_cases lessThanCmp vec save index
          (lChild index) (rChild index) with hsame | ⟨hchild, _⟩
        · exact absurd hsame.symm hne
        · exact hchild
      refine hvec.exchange hpos hparent hself ?_
      intro i hi hchild
      rcases eq_child_of_parent hi hchild with rfl | rfl
      · exact hleft
      · exact hright
  | case3 vec index newParent hstop =>
      obtain ⟨_, hleft, hright⟩ :=
        @properParent_least _ _ _ _ _ hcmp vec save _ hindex
      rw [not_not] at hstop
      refine hvec.ordered ?_
      intro i hi hchild
      rcases eq_child_of_parent hi hchild with rfl | rfl
      · exact (congrArg (keyAt key (vec.set index save)) hstop).le.trans
          hleft
      · exact (congrArg (keyAt key (vec.set index save)) hstop).le.trans
          hright

theorem perolateDown_ordered
    {vec : List α} {save : α}
    (hvec : OrderedBelow (keyAt key (vec.set 0 save)) 0)
    (hhead : vec.head? = some save) :
    HeapOrdered key (perolateDown lessThanCmp vec) := by
  have hlen : 0 < vec.length :=
    List.length_pos_of_ne_nil (by rintro rfl; cases hhead)
  simp only [perolateDown, hhead]
  exact perolateDownLoop_ordered hcmp hlen hvec

theorem popTop_ordered
    {vec rest : List α} {t : α} (hvec : HeapOrdered key vec)
    (hpop : popTop lessThanCmp vec = some (t, rest)) :
    HeapOrdered key rest := by
  rcases popTop_cases hpop with ⟨rfl, rfl⟩ | ⟨xs, last, rfl, rfl⟩
  · exact HeapOrdered.nil
  · refine perolateDown_ordered hcmp ?_ rfl
    have hkeys : keyAt key (last :: xs) =
        Function.update (keyAt key (t :: xs)) 0 (key last) :=
      @keyAt_set _ _ key (t :: xs) 0 (by simp) last
    have hdrop : HeapOrdered key (t :: xs) := by
      have hlast := hvec.dropLast
      rwa [← List.cons_append, List.dropLast_concat] at hlast
    rw [List.set_cons_zero, hkeys]
    exact hdrop.place_root _

end Comparison

end BinaryHeap

end BinaryHeap

end Hohnor
