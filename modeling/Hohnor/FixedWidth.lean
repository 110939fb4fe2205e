import Mathlib.Data.List.Lex
import Mathlib.Tactic

/-!
# Texts of fixed width

A numeral of a fixed width has that many digits, with zeros in front.  Among
the numerals of one width the order of the texts is the order of the numbers,
which fails when the widths differ.

A template is a list of columns, each a number of a fixed width behind a fixed
text.  The texts that one template makes are ordered as the lists of their
numbers are: the first number that differs decides.
-/

namespace FixedWidth

universe u

section FixedWidth

variable {α : Type u} [LinearOrder α]

/-- Of lists that are equally long in front, the front decides first. -/
theorem append_lt_append_iff
    {xs ys us vs : List α} (hlength : xs.length = ys.length) :
    xs ++ us < ys ++ vs ↔ xs < ys ∨ xs = ys ∧ us < vs := by
  induction xs generalizing ys with
  | nil =>
      cases ys with
      | nil => simp
      | cons y ys => cases hlength
  | cons x xs ih =>
      cases ys with
      | nil => cases hlength
      | cons y ys =>
          have htail := ih (Nat.succ.inj hlength)
          simp only [List.cons_append, List.cons_lt_cons_iff, htail,
            List.cons.injEq]
          tauto

theorem append_lt_append_left
    (xs : List α) {us vs : List α} :
    xs ++ us < xs ++ vs ↔ us < vs := by
  rw [append_lt_append_iff rfl]
  simp

theorem append_lt_append_right
    {xs ys : List α} (us : List α) (hlength : xs.length = ys.length) :
    xs ++ us < ys ++ us ↔ xs < ys := by
  rw [append_lt_append_iff hlength]
  simp

/-- Values that are ordered alike are equal alike. -/
theorem eq_iff_of_lt_iff
    {β γ : Type*} [LinearOrder β] [LinearOrder γ]
    {u v : β} {x y : γ}
    (hlt : u < v ↔ x < y) (hgt : v < u ↔ y < x) :
    u = v ↔ x = y := by
  rw [le_antisymm_iff, le_antisymm_iff, ← not_lt, ← not_lt, ← not_lt,
    ← not_lt, hlt, hgt]

variable (digit : Nat → α) (b : Nat)

/-- The numeral of width `w` in base `b`, over the digits below the base. -/
def numeral : Nat → Nat → List α
  | 0, _ => []
  | w + 1, n => numeral w (n / b) ++ [digit (n % b)]

omit [LinearOrder α] in
@[simp] theorem length_numeral
    (w n : Nat) :
    (numeral digit b w n).length = w := by
  induction w generalizing n with
  | zero =>
      rfl
  | succ w ih =>
      rw [numeral, List.length_append, ih]
      rfl

/-- The quotient decides first, then the remainder. -/
theorem lt_iff_div_mod
    {b : Nat} (hb : 0 < b) (m n : Nat) :
    m < n ↔ m / b < n / b ∨ m / b = n / b ∧ m % b < n % b := by
  have hm := Nat.div_add_mod m b
  have hn := Nat.div_add_mod n b
  have hmod := Nat.mod_lt m hb
  have hmod' := Nat.mod_lt n hb
  constructor
  · intro hlt
    rcases Nat.lt_or_eq_of_le (Nat.div_le_div_right (c := b) hlt.le) with
      hquot | hquot
    · exact Or.inl hquot
    · rw [hquot] at hm
      exact Or.inr ⟨hquot, by omega⟩
  · rintro (hquot | ⟨hquot, hrem⟩)
    · have hmul := Nat.mul_le_mul_left b (Nat.succ_le_of_lt hquot)
      rw [Nat.mul_succ] at hmul
      omega
    · rw [hquot] at hm
      omega

theorem div_lt_pow
    {b w n : Nat} (hn : n < b ^ (w + 1)) :
    n / b < b ^ w := by
  rw [Nat.pow_succ] at hn
  exact Nat.div_lt_of_lt_mul (by rwa [Nat.mul_comm])

variable {digit b}

/-- Numerals of one width are ordered as their numbers. -/
theorem numeral_lt_iff
    (hb : 0 < b) (hdigit : ∀ c d, c < d → d < b → digit c < digit d)
    {w m n : Nat} (hm : m < b ^ w) (hn : n < b ^ w) :
    numeral digit b w m < numeral digit b w n ↔ m < n := by
  have hiff : ∀ c d, c < b → d < b → (digit c < digit d ↔ c < d) := by
    intro c d hc hd
    refine ⟨?_, fun h => hdigit c d h hd⟩
    intro hlt
    by_contra hge
    rcases Nat.lt_or_eq_of_le (Nat.le_of_not_lt hge) with h | rfl
    · exact lt_asymm hlt (hdigit d c h hc)
    · exact lt_irrefl _ hlt
  induction w generalizing m n with
  | zero =>
      rw [Nat.pow_zero, Nat.lt_one_iff] at hm hn
      rw [hm, hn]
      simp [numeral]
  | succ w ih =>
      have hm' := div_lt_pow hm
      have hn' := div_lt_pow hn
      have hlast := hiff (m % b) (n % b) (Nat.mod_lt m hb) (Nat.mod_lt n hb)
      have hquot :
          numeral digit b w (m / b) < numeral digit b w (n / b) ↔
            m / b < n / b := ih hm' hn'
      have heq := eq_iff_of_lt_iff hquot (ih hn' hm')
      rw [numeral, numeral, append_lt_append_iff (by simp), hquot, heq,
        lt_iff_div_mod hb m n, ← hlast, List.cons_lt_cons_iff]
      simp

/-- A number of a fixed width behind a fixed text. -/
structure Column (α : Type u) where
  text : List α
  width : Nat

variable (digit b) in
/-- The text of a template with these numbers. -/
def render : List (Column α) → List Nat → List α
  | f :: fs, n :: ns => f.text ++ numeral digit b f.width n ++ render fs ns
  | _, _ => []

variable (b) in
/-- There is one number for each column, and it is not too wide. -/
def Fits : List (Column α) → List Nat → Prop
  | [], [] => True
  | f :: fs, n :: ns => n < b ^ f.width ∧ Fits fs ns
  | _, _ => False

omit [LinearOrder α] in
/-- Only the widths of the columns count. -/
theorem Fits.congr
    {fs gs : List (Column α)} {ns : List Nat}
    (hwidths : fs.map Column.width = gs.map Column.width)
    (hns : Fits b fs ns) :
    Fits b gs ns := by
  induction fs generalizing gs ns with
  | nil =>
      match gs, hwidths with
      | [], _ => exact hns
  | cons f fs ih =>
      match gs, ns, hwidths, hns with
      | g :: gs, n :: ns, hwidths, hns =>
          obtain ⟨hwidth, hrest⟩ := List.cons.inj hwidths
          exact ⟨hwidth ▸ hns.1, ih hrest hns.2⟩

omit [LinearOrder α] in
theorem length_render
    {fs : List (Column α)} {ns ms : List Nat}
    (hns : Fits b fs ns) (hms : Fits b fs ms) :
    (render digit b fs ns).length = (render digit b fs ms).length := by
  induction fs generalizing ns ms with
  | nil =>
      rw [render.eq_def, render.eq_def]
  | cons f fs ih =>
      match ns, ms, hns, hms with
      | n :: ns, m :: ms, hns, hms =>
          simp [render, ih hns.2 hms.2]

omit [LinearOrder α] in
theorem Fits.append
    {fs gs : List (Column α)} {ns ms : List Nat}
    (hns : Fits b fs ns) (hms : Fits b gs ms) :
    Fits b (fs ++ gs) (ns ++ ms) := by
  induction fs generalizing ns with
  | nil =>
      match ns, hns with
      | [], _ => exact hms
  | cons f fs ih =>
      match ns, hns with
      | n :: ns, hns => exact ⟨hns.1, ih hns.2⟩

omit [LinearOrder α] in
theorem render_append
    {fs : List (Column α)} {ns : List Nat} (hns : Fits b fs ns)
    (gs : List (Column α)) (ms : List Nat) :
    render digit b (fs ++ gs) (ns ++ ms) =
      render digit b fs ns ++ render digit b gs ms := by
  induction fs generalizing ns with
  | nil =>
      match ns, hns with
      | [], _ => rfl
  | cons f fs ih =>
      match ns, hns with
      | n :: ns, hns =>
          simp only [List.cons_append, render, ih hns.2, List.append_assoc]

/-- The texts of one template are ordered as the lists of their numbers. -/
theorem render_lt_iff
    (hb : 0 < b) (hdigit : ∀ c d, c < d → d < b → digit c < digit d)
    {fs : List (Column α)} {ns ms : List Nat}
    (hns : Fits b fs ns) (hms : Fits b fs ms) :
    render digit b fs ns < render digit b fs ms ↔ ns < ms := by
  induction fs generalizing ns ms with
  | nil =>
      match ns, ms, hns, hms with
      | [], [], _, _ => simp [render]
  | cons f fs ih =>
      match ns, ms, hns, hms with
      | n :: ns, m :: ms, hns, hms =>
          have hnumeral := numeral_lt_iff hb hdigit hns.1 hms.1
          have heq :=
            eq_iff_of_lt_iff hnumeral (numeral_lt_iff hb hdigit hms.1 hns.1)
          rw [render, render, List.append_assoc, List.append_assoc,
            append_lt_append_left, append_lt_append_iff (by simp),
            hnumeral, heq, ih hns.2 hms.2, List.cons_lt_cons_iff]

end FixedWidth

end FixedWidth
