import Mathlib.Data.Nat.Digits.Lemmas

/-!
# Numerals in the base of a table of digits

The digit `d` is the character at the position `d` of the table, whose length
is the base.  A numeral of a number is a text of digits, the last one of the
least weight, without a digit zero in front of others.  A number has exactly
one numeral.
-/

namespace Numerals

universe u

section Numerals

variable {α : Type u} [DecidableEq α]

/-- The number that is read from a text. -/
def readBack (table text : List α) : Nat :=
  Nat.ofDigits table.length (text.map table.idxOf).reverse

/-- A text of digits without superfluous zeros that is read as the number. -/
structure IsNumeral (table text : List α) (n : Nat) : Prop where
  nonempty : text ≠ []
  digits : ∀ c ∈ text, c ∈ table
  leading : text.head? = table.head? → text.length = 1
  value : readBack table text = n

variable {table text : List α} {n : Nat}

theorem readBack_concat
    (text : List α) (c : α) :
    readBack table (text ++ [c]) =
      table.idxOf c + table.length * readBack table text := by
  rw [readBack, List.map_append, List.reverse_append, List.map_singleton,
    List.reverse_singleton, List.singleton_append, Nat.ofDigits_cons]
  rfl

/-- A numeral that begins with the digit zero is that of zero. -/
theorem IsNumeral.head_ne
    (h : IsNumeral table text n) (hpos : 0 < n) :
    text.head? ≠ table.head? := by
  intro hhead
  obtain ⟨c, rfl⟩ := List.length_eq_one_iff.mp (h.leading hhead)
  have hzero : table.idxOf c = 0 := by
    cases table with
    | nil =>
        cases hhead
    | cons d table =>
        rw [List.head?_cons, List.head?_cons, Option.some_inj] at hhead
        rw [hhead]
        exact List.idxOf_cons_self
  have hvalue := @readBack_concat _ _ table [] c
  rw [List.nil_append, h.value, hzero] at hvalue
  simp [readBack] at hvalue
  omega

/-- The digits below the base. -/
theorem isNumeral_digit
    (hnodup : table.Nodup) {c : α} (hc : table[n]? = some c) :
    IsNumeral table [c] n where
  nonempty := List.cons_ne_nil c []
  digits := by
    intro x hx
    rw [List.mem_singleton] at hx
    rw [hx]
    exact List.mem_of_getElem? hc
  leading _ := rfl
  value := by
    obtain ⟨hn, rfl⟩ := List.getElem?_eq_some_iff.mp hc
    have hvalue := @readBack_concat _ _ table [] table[n]
    rw [List.nil_append, hnodup.idxOf_getElem n hn] at hvalue
    rw [hvalue]
    rfl

/-- One more digit. -/
theorem IsNumeral.concat
    (h : IsNumeral table text n) (hpos : 0 < n) (hnodup : table.Nodup)
    {d : Nat} {c : α} (hc : table[d]? = some c) :
    IsNumeral table (text ++ [c]) (d + table.length * n) where
  nonempty := List.append_ne_nil_of_right_ne_nil text (List.cons_ne_nil c [])
  digits := by
    intro x hx
    rcases List.mem_append.mp hx with htext | hlast
    · exact h.digits x htext
    · rw [List.mem_singleton] at hlast
      rw [hlast]
      exact List.mem_of_getElem? hc
  leading hhead := by
    rw [List.head?_append_of_ne_nil _ h.nonempty] at hhead
    exact absurd hhead (h.head_ne hpos)
  value := by
    obtain ⟨hd, rfl⟩ := List.getElem?_eq_some_iff.mp hc
    rw [readBack_concat, h.value, hnodup.idxOf_getElem d hd]

/-- A text that is made of the last digit and the text of the quotient. -/
theorem isNumeral_of_steps
    (hnodup : table.Nodup) (hbase : 1 < table.length)
    {toText : Nat → List α}
    (hdigit : ∀ n, n < table.length →
      ∃ c, table[n]? = some c ∧ toText n = [c])
    (hstep : ∀ n, table.length ≤ n →
      ∃ c, table[n % table.length]? = some c ∧
        toText n = toText (n / table.length) ++ [c])
    (n : Nat) :
    IsNumeral table (toText n) n := by
  induction n using Nat.strong_induction_on with
  | h n ih =>
      by_cases hn : n < table.length
      · obtain ⟨c, hc, htext⟩ := hdigit n hn
        rw [htext]
        exact isNumeral_digit hnodup hc
      · rw [not_lt] at hn
        obtain ⟨c, hc, htext⟩ := hstep n hn
        have hquot := ih (n / table.length) (Nat.div_lt_self (by omega) hbase)
        have hpos : 0 < n / table.length := Nat.div_pos hn (by omega)
        have hnumeral := hquot.concat hpos hnodup hc
        rw [Nat.mod_add_div] at hnumeral
        rw [htext]
        exact hnumeral

theorem getElem?_idxOf
    {c : α} (hc : c ∈ table) :
    table[table.idxOf c]? = some c := by
  rw [List.getElem?_eq_getElem (List.idxOf_lt_length_of_mem hc),
    List.getElem_idxOf]

/-- What does not begin with the digit zero is greater than zero. -/
theorem readBack_pos
    (hne : text ≠ []) (hdigits : ∀ c ∈ text, c ∈ table)
    (hhead : text.head? ≠ table.head?) :
    0 < readBack table text := by
  induction text using List.reverseRecOn with
  | nil =>
      exact absurd rfl hne
  | append_singleton s c ih =>
      rw [readBack_concat]
      have hc : c ∈ table := hdigits c (by simp)
      have hbase : 0 < table.length := List.length_pos_of_mem hc
      by_cases hs : s = []
      · subst hs
        have hzero : table.idxOf c ≠ 0 := by
          intro hzero
          have hget := getElem?_idxOf hc
          rw [hzero, ← List.head?_eq_getElem?] at hget
          exact hhead hget.symm
        omega
      · rw [List.head?_append_of_ne_nil _ hs] at hhead
        have hpos := ih hs
          (fun x hx => hdigits x (List.mem_append_left [c] hx)) hhead
        have hmul := Nat.mul_pos hbase hpos
        omega

/-- A numeral is one digit, or the numeral of the quotient and one more. -/
theorem IsNumeral.digit_or_concat
    (h : IsNumeral table text n) :
    (n < table.length ∧ ∃ c, text = [c] ∧ table[n]? = some c) ∨
      (table.length ≤ n ∧ ∃ s c, text = s ++ [c] ∧
        IsNumeral table s (n / table.length) ∧
        table[n % table.length]? = some c) := by
  obtain ⟨s, c, rfl⟩ :=
    (List.eq_nil_or_concat' text).resolve_left h.nonempty
  have hc : c ∈ table := h.digits c (by simp)
  have hlt : table.idxOf c < table.length := List.idxOf_lt_length_of_mem hc
  have hvalue := h.value
  rw [readBack_concat] at hvalue
  by_cases hs : s = []
  · subst hs
    have hn : table.idxOf c = n := by
      simpa [readBack] using hvalue
    rw [hn] at hlt
    refine .inl ⟨hlt, c, rfl, ?_⟩
    rw [← hn]
    exact getElem?_idxOf hc
  · have hhead : s.head? ≠ table.head? := by
      intro hhead
      have hlength := h.leading (by
        rw [List.head?_append_of_ne_nil _ hs, hhead])
      rw [List.length_append, List.length_singleton] at hlength
      exact hs (List.length_eq_zero_iff.mp (by omega))
    have hdigits : ∀ x ∈ s, x ∈ table :=
      fun x hx => h.digits x (List.mem_append_left [c] hx)
    have hpos := readBack_pos hs hdigits hhead
    have hquot : n / table.length = readBack table s := by
      rw [← hvalue, Nat.add_mul_div_left _ _ (by omega),
        Nat.div_eq_of_lt hlt, Nat.zero_add]
    have hmod : n % table.length = table.idxOf c := by
      rw [← hvalue, Nat.add_mul_mod_self_left, Nat.mod_eq_of_lt hlt]
    have hle : table.length ≤ n := by
      have hmul := Nat.le_mul_of_pos_right table.length hpos
      omega
    refine .inr ⟨hle, s, c, rfl, ?_, ?_⟩
    · exact ⟨hs, hdigits, fun heq => absurd heq hhead, hquot.symm⟩
    · rw [hmod]
      exact getElem?_idxOf hc

/-- A number has one numeral only. -/
theorem IsNumeral.unique
    (hbase : 1 < table.length) {text' : List α}
    (h : IsNumeral table text n) (h' : IsNumeral table text' n) :
    text = text' := by
  induction n using Nat.strong_induction_on generalizing text text' with
  | h n ih =>
      rcases h.digit_or_concat with
        ⟨hlt, c, rfl, hc⟩ | ⟨hle, s, c, rfl, hs, hc⟩ <;>
      rcases h'.digit_or_concat with
        ⟨hlt', c', rfl, hc'⟩ | ⟨hle', s', c', rfl, hs', hc'⟩
      · rw [Option.some.inj (hc.symm.trans hc')]
      · omega
      · omega
      · have hless : n / table.length < n :=
          Nat.div_lt_self (by omega) hbase
        rw [ih _ hless hs hs', Option.some.inj (hc.symm.trans hc')]

variable {sep : α} {toText : Nat → List α} {numbers : List Nat}

def separated (sep : α) (toText : Nat → List α) (numbers : List Nat) :
    List α :=
  [sep].intercalate (numbers.map toText)

def readSeparated (sep : α) (table text : List α) : List Nat :=
  (text.splitOn sep).map (readBack table)

theorem readSeparated_separated
    (hsep : sep ∉ table) (htext : ∀ n, IsNumeral table (toText n) n)
    (hne : numbers ≠ []) :
    readSeparated sep table (separated sep toText numbers) = numbers := by
  rw [readSeparated, separated, List.splitOn_intercalate, List.map_map]
  · exact (List.map_congr_left fun n _ => (htext n).value).trans
      (List.map_id numbers)
  · intro text hmem hin
    obtain ⟨n, -, rfl⟩ := List.mem_map.mp hmem
    exact hsep ((htext n).digits sep hin)
  · simpa using hne

omit [DecidableEq α] in
/-- There are no other characters than digits and separators. -/
theorem mem_separated
    {c : α} (hc : c ∈ separated sep toText numbers) :
    c = sep ∨ ∃ n ∈ numbers, c ∈ toText n := by
  induction numbers with
  | nil =>
      simp [separated] at hc
  | cons n numbers ih =>
      cases numbers with
      | nil =>
          exact Or.inr ⟨n, List.mem_cons_self, by simpa [separated] using hc⟩
      | cons m numbers =>
          rw [separated, List.map_cons, List.map_cons,
            List.intercalate_cons_cons] at hc
          simp only [List.mem_append, List.mem_singleton] at hc
          rcases hc with (hc | hc) | hc
          · exact Or.inr ⟨n, List.mem_cons_self, hc⟩
          · exact Or.inl hc
          · rcases ih (by simpa [separated] using hc) with h | ⟨k, hk, h⟩
            · exact Or.inl h
            · exact Or.inr ⟨k, List.mem_cons_of_mem n hk, h⟩

omit [DecidableEq α] in
theorem sep_mem_separated
    (m n : Nat) (numbers : List Nat) :
    sep ∈ separated sep toText (m :: n :: numbers) := by
  rw [separated, List.map_cons, List.map_cons, List.intercalate_cons_cons]
  simp

end Numerals

end Numerals
