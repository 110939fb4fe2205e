import Mathlib.Data.List.Basic

/-!
# Runs of a labelled transition system

A system is a partial step function: from a state and a label to the next
state, or to none when the label is not enabled there.  A run is a list of
labels.

The rules below are the ones every run argument uses: an invariant that each
step keeps holds after the whole run, also when the steps keep it only under
a guard, and a property of single steps that is equivalent to a guard under an
invariant is equivalent to it along the whole run.
-/

namespace TransitionRuns

universe u v w

section TransitionRuns

variable {σ : Type u}
variable {Λ : Type v}

/-- State reached by a list of labels. -/
def run (step : σ → Λ → Option σ) :
    σ → List Λ → Option σ
  | s, [] => some s
  | s, l :: ls => (step s l).bind (fun s' => run step s' ls)

/-- `Q` holds of the state before, the label and the state after of every
step that the run takes. -/
def EveryStep
    (step : σ → Λ → Option σ)
    (Q : σ → Λ → σ → Prop) :
    σ → List Λ → Prop
  | _, [] => True
  | s, l :: ls =>
      ∀ s', step s l = some s' →
        Q s l s' ∧ EveryStep step Q s' ls

/-- `Q` holds of the state before and the label at every step of the run, also
where the step has no result. -/
def Along
    (step : σ → Λ → Option σ)
    (Q : σ → Λ → Prop) :
    σ → List Λ → Prop
  | _, [] => True
  | s, l :: ls =>
      Q s l ∧ ∀ s', step s l = some s' → Along step Q s' ls

instance decidableAlong
    {step : σ → Λ → Option σ}
    {Q : σ → Λ → Prop}
    [∀ s l, Decidable (Q s l)] :
    ∀ s ls, Decidable (Along step Q s ls)
  | _, [] => isTrue trivial
  | s, l :: ls =>
      match hstep : step s l with
      | none =>
          decidable_of_iff (Q s l) (by simp [Along, hstep])
      | some s' =>
          have : Decidable (Along step Q s' ls) := decidableAlong s' ls
          decidable_of_iff (Q s l ∧ Along step Q s' ls)
            (by simp [Along, hstep])

@[simp] theorem run_nil
    (step : σ → Λ → Option σ) (s : σ) :
    run step s [] = some s := by
  rfl

theorem run_cons
    (step : σ → Λ → Option σ)
    (s : σ) (l : Λ) (ls : List Λ) :
    run step s (l :: ls) =
      (step s l).bind (fun s' => run step s' ls) := by
  rfl

/-- Peel the first step from a completed nonempty run. -/
theorem run_cons_success
    {step : σ → Λ → Option σ}
    {s t : σ} {l : Λ} {ls : List Λ}
    (hrun : run step s (l :: ls) = some t) :
    ∃ s' : σ,
      step s l = some s' ∧
      run step s' ls = some t := by
  rw [run_cons] at hrun
  exact Option.bind_eq_some_iff.mp hrun

/-- A run over a concatenation is the second run from where the first ends. -/
theorem run_append
    (step : σ → Λ → Option σ)
    (s : σ) (ls ls' : List Λ) :
    run step s (ls ++ ls') =
      (run step s ls).bind (fun s' => run step s' ls') := by
  induction ls generalizing s with
  | nil =>
      rfl
  | cons l ls ih =>
      rw [List.cons_append, run_cons, run_cons]
      cases hstep : step s l with
      | none =>
          rfl
      | some s' =>
          simpa using ih s'

/-- An invariant kept by every guarded step holds after a guarded run. -/
theorem invariant_of_guarded_run
    {step : σ → Λ → Option σ}
    {I : σ → Prop}
    {G : σ → Λ → σ → Prop}
    (hstep :
      ∀ s l s', I s → G s l s' →
        step s l = some s' → I s')
    {s t : σ} {ls : List Λ}
    (hI : I s)
    (hG : EveryStep step G s ls)
    (hrun : run step s ls = some t) :
    I t := by
  induction ls generalizing s with
  | nil =>
      rw [run_nil] at hrun
      cases hrun
      exact hI
  | cons l ls ih =>
      obtain ⟨s', hfirst, hrest⟩ :=
        run_cons_success hrun
      obtain ⟨hg, hGs⟩ := hG s' hfirst
      exact ih (hstep s l s' hI hg hfirst) hGs hrest

/-- What holds at first and after every step holds at the end. -/
theorem everyStep_last
    {step : σ → Λ → Option σ}
    {J : σ → Prop}
    {s t : σ} {ls : List Λ}
    (hJ : J s)
    (hsteps : EveryStep step (fun _ _ s' => J s') s ls)
    (hrun : run step s ls = some t) :
    J t := by
  have hstep : ∀ s l s', J s → (fun _ _ s' => J s') s l s' →
      step s l = some s' → J s' :=
    fun _ _ _ _ hafter _ => hafter
  exact invariant_of_guarded_run hstep hJ hsteps hrun

/-- Refinement: if under an invariant every permitted step is enabled and acts
on the abstract state as `astep` does, then so does every permitted run. -/
theorem run_refines
    {τ : Type w}
    {step : σ → Λ → Option σ}
    (abs : σ → τ)
    (astep : τ → Λ → τ)
    (I : σ → Prop)
    {P : Λ → Prop}
    (hstep :
      ∀ s l, I s → P l →
        ∃ s', step s l = some s' ∧ I s' ∧
          abs s' = astep (abs s) l)
    {s : σ} {ls : List Λ}
    (hI : I s)
    (hP : ∀ l ∈ ls, P l) :
    ∃ t : σ,
      run step s ls = some t ∧ I t ∧
      abs t = ls.foldl astep (abs s) := by
  induction ls generalizing s with
  | nil =>
      exact ⟨s, rfl, hI, rfl⟩
  | cons l ls ih =>
      obtain ⟨s', hfirst, hI', habs⟩ :=
        hstep s l hI (hP l (List.mem_cons_self ..))
      obtain ⟨t, hrest, hIt, habst⟩ :=
        ih hI' (fun l' hl' => hP l' (List.mem_cons_of_mem l hl'))
      refine ⟨t, ?_, hIt, ?_⟩
      · rw [run_cons, hfirst]
        exact hrest
      · rw [habst, habs, List.foldl_cons]

/-- Simulation: if under an invariant every permitted step that is taken acts on
the abstract state as `astep` does, then so does every permitted run that
completes. -/
theorem run_simulates
    {τ : Type w}
    {step : σ → Λ → Option σ}
    (abs : σ → τ)
    (astep : τ → Λ → τ)
    (I : σ → Prop)
    {P : Λ → Prop}
    (hstep :
      ∀ s l s', I s → P l → step s l = some s' →
        I s' ∧ abs s' = astep (abs s) l)
    {s t : σ} {ls : List Λ}
    (hI : I s)
    (hP : ∀ l ∈ ls, P l)
    (hrun : run step s ls = some t) :
    I t ∧ abs t = ls.foldl astep (abs s) := by
  induction ls generalizing s with
  | nil =>
      rw [run_nil] at hrun
      cases hrun
      exact ⟨hI, rfl⟩
  | cons l ls ih =>
      obtain ⟨s', hfirst, hrest⟩ := run_cons_success hrun
      obtain ⟨hI', habs⟩ :=
        hstep s l s' hI (hP l (List.mem_cons_self ..)) hfirst
      rw [List.foldl_cons, ← habs]
      exact ih hI'
        (fun l' hl' => hP l' (List.mem_cons_of_mem l hl')) hrest

/-- If under an invariant every permitted step is enabled and keeps the
invariant, then every permitted run completes and keeps it. -/
theorem run_completes
    {step : σ → Λ → Option σ}
    {I : σ → Prop}
    {P : Λ → Prop}
    (hstep :
      ∀ s l, I s → P l →
        ∃ s', step s l = some s' ∧ I s')
    {s : σ} {ls : List Λ}
    (hI : I s)
    (hP : ∀ l ∈ ls, P l) :
    ∃ t : σ, run step s ls = some t ∧ I t := by
  obtain ⟨t, hrun, hIt, _⟩ :=
    run_refines (fun _ => ()) (fun _ _ => ()) I
      (fun s l hs hl => by
        obtain ⟨s', hs', hI'⟩ := hstep s l hs hl
        exact ⟨s', hs', hI', rfl⟩)
      hI hP
  exact ⟨t, hrun, hIt⟩

/-- If under an invariant every step with `Q` keeps the invariant and has
`Q'`, then a run whose steps all have `Q` has steps that all have `Q'`. -/
theorem everyStep_transfer
    {step : σ → Λ → Option σ}
    {I : σ → Prop}
    {P : Λ → Prop}
    {Q Q' : σ → Λ → σ → Prop}
    (hstep :
      ∀ s l s', I s → P l → step s l = some s' →
        Q s l s' → I s' ∧ Q' s l s')
    {s : σ} {ls : List Λ}
    (hI : I s)
    (hP : ∀ l ∈ ls, P l)
    (hQ : EveryStep step Q s ls) :
    EveryStep step Q' s ls := by
  induction ls generalizing s with
  | nil =>
      trivial
  | cons l ls ih =>
      intro s' hs'
      obtain ⟨hq, hQs⟩ := hQ s' hs'
      obtain ⟨hI', hq'⟩ :=
        hstep s l s' hI (hP l (List.mem_cons_self ..)) hs' hq
      exact ⟨hq', ih hI'
        (fun l' hl' => hP l' (List.mem_cons_of_mem l hl')) hQs⟩

/-- A property that every permitted step has under a kept invariant holds of
every step of a permitted run. -/
theorem everyStep_of_invariant
    {step : σ → Λ → Option σ}
    {I : σ → Prop}
    {P : Λ → Prop}
    {Q : σ → Λ → σ → Prop}
    (hstep :
      ∀ s l s', I s → P l → step s l = some s' → I s' ∧ Q s l s')
    {s : σ} {ls : List Λ}
    (hI : I s)
    (hP : ∀ l ∈ ls, P l) :
    EveryStep step Q s ls := by
  induction ls generalizing s with
  | nil =>
      trivial
  | cons l ls ih =>
      intro s' hs'
      obtain ⟨hI', hq⟩ :=
        hstep s l s' hI (hP l (List.mem_cons_self ..)) hs'
      exact ⟨hq, ih hI'
        (fun l' hl' => hP l' (List.mem_cons_of_mem l hl'))⟩

/-- An invariant kept by every permitted step with `Q` holds after every
permitted run whose steps all have `Q`. -/
theorem invariant_of_along
    {step : σ → Λ → Option σ}
    {I : σ → Prop}
    {P : Λ → Prop}
    {Q : σ → Λ → Prop}
    (hstep :
      ∀ s l s', I s → P l → Q s l → step s l = some s' → I s')
    {s t : σ} {ls : List Λ}
    (hI : I s)
    (hP : ∀ l ∈ ls, P l)
    (hQ : Along step Q s ls)
    (hrun : run step s ls = some t) :
    I t := by
  induction ls generalizing s with
  | nil =>
      rw [run_nil] at hrun
      cases hrun
      exact hI
  | cons l ls ih =>
      obtain ⟨s', hfirst, hrest⟩ := run_cons_success hrun
      have hI' : I s' :=
        hstep s l s' hI (hP l (List.mem_cons_self ..)) hQ.1 hfirst
      exact ih hI'
        (fun l' hl' => hP l' (List.mem_cons_of_mem l hl'))
        (hQ.2 s' hfirst) hrest

/-- A property of the steps taken is one of the states and labels alone. -/
theorem everyStep_iff_along
    {step : σ → Λ → Option σ}
    {Q : σ → Λ → σ → Prop}
    {s : σ} {ls : List Λ} :
    EveryStep step Q s ls ↔
      Along step (fun s l => ∀ s', step s l = some s' → Q s l s')
        s ls := by
  induction ls generalizing s with
  | nil =>
      exact Iff.rfl
  | cons l ls ih =>
      constructor
      · intro hQ
        exact ⟨fun s' hs' => (hQ s' hs').1,
          fun s' hs' => ih.mp (hQ s' hs').2⟩
      · rintro ⟨hq, hrest⟩ s' hs'
        exact ⟨hq s' hs', ih.mpr (hrest s' hs')⟩

theorem along_true
    (step : σ → Λ → Option σ)
    (s : σ) (ls : List Λ) :
    Along step (fun _ _ => True) s ls := by
  induction ls generalizing s with
  | nil =>
      trivial
  | cons l ls ih =>
      exact ⟨trivial, fun s' _ => ih s'⟩

/-- An invariant kept by every permitted step holds after every permitted
run. -/
theorem invariant_of_run
    {step : σ → Λ → Option σ}
    {I : σ → Prop}
    {P : Λ → Prop}
    (hstep :
      ∀ s l s', I s → P l → step s l = some s' → I s')
    {s t : σ} {ls : List Λ}
    (hI : I s)
    (hP : ∀ l ∈ ls, P l)
    (hrun : run step s ls = some t) :
    I t :=
  invariant_of_along
    (fun s l s' hs hl _ hs' => hstep s l s' hs hl hs')
    hI hP (along_true step s ls) hrun

/-- What the labels of a run put on a measure. -/
def totalCost (C : Λ → Nat) : List Λ → Nat
  | [] => 0
  | l :: ls => C l + totalCost C ls

@[simp] theorem totalCost_zero
    (ls : List Λ) :
    totalCost (fun _ => 0) ls = 0 := by
  induction ls with
  | nil =>
      rfl
  | cons l ls ih =>
      rw [totalCost, ih]

/-- Where every step lowers a measure, up to what the label puts on it, the
measure bounds the number of steps. -/
theorem length_of_run
    {step : σ → Λ → Option σ}
    {I : σ → Prop}
    {P : Λ → Prop}
    {W : σ → Nat}
    {C : Λ → Nat}
    (hstep :
      ∀ s l s', I s → P l → step s l = some s' →
        I s' ∧ W s' + 1 ≤ W s + C l)
    {s t : σ} {ls : List Λ}
    (hI : I s)
    (hP : ∀ l ∈ ls, P l)
    (hrun : run step s ls = some t) :
    I t ∧ ls.length + W t ≤ W s + totalCost C ls := by
  induction ls generalizing s with
  | nil =>
      rw [run_nil] at hrun
      cases hrun
      exact ⟨hI, by simp [totalCost]⟩
  | cons l ls ih =>
      obtain ⟨s', hfirst, hrest⟩ := run_cons_success hrun
      obtain ⟨hI', hless⟩ :=
        hstep s l s' hI (hP l (List.mem_cons_self ..)) hfirst
      obtain ⟨hIt, hbound⟩ :=
        ih hI' (fun l' hl' => hP l' (List.mem_cons_of_mem l hl')) hrest
      refine ⟨hIt, ?_⟩
      rw [List.length_cons, totalCost]
      omega

/-- Two properties of steps that agree under a kept invariant agree along
every run of permitted labels whose steps all have `P`. -/
theorem along_iff
    {step : σ → Λ → Option σ}
    (I : σ → Prop)
    {L : Λ → Prop}
    {P Q Q' : σ → Λ → Prop}
    (hiff :
      ∀ s l, I s → L l → P s l → (Q s l ↔ Q' s l))
    (hkeep :
      ∀ s l s', I s → L l → step s l = some s' → I s')
    {s : σ} {ls : List Λ}
    (hI : I s)
    (hL : ∀ l ∈ ls, L l)
    (hP : Along step P s ls) :
    Along step Q s ls ↔ Along step Q' s ls := by
  induction ls generalizing s with
  | nil =>
      exact Iff.rfl
  | cons l ls ih =>
      have hl := hL l (List.mem_cons_self ..)
      have hls : ∀ l' ∈ ls, L l' :=
        fun l' hl' => hL l' (List.mem_cons_of_mem l hl')
      obtain ⟨hp, hrest⟩ := hP
      have htail :
          ∀ s', step s l = some s' →
            (Along step Q s' ls ↔ Along step Q' s' ls) :=
        fun s' hs' =>
          ih (hkeep s l s' hI hl hs') hls (hrest s' hs')
      refine and_congr (hiff s l hI hl hp) ?_
      constructor
      · intro h s' hs'
        exact (htail s' hs').mp (h s' hs')
      · intro h s' hs'
        exact (htail s' hs').mpr (h s' hs')

/-- If under an invariant a step with `Q` has `Q'` and keeps the invariant, then
a run whose steps all have `Q` has steps that all have `Q'`. -/
theorem along_transfer
    {step : σ → Λ → Option σ}
    {I : σ → Prop}
    {L : Λ → Prop}
    {Q Q' : σ → Λ → Prop}
    (hstep :
      ∀ s l, I s → L l → Q s l →
        Q' s l ∧ ∀ s', step s l = some s' → I s')
    {s : σ} {ls : List Λ}
    (hI : I s)
    (hL : ∀ l ∈ ls, L l)
    (hQ : Along step Q s ls) :
    Along step Q' s ls := by
  induction ls generalizing s with
  | nil =>
      trivial
  | cons l ls ih =>
      obtain ⟨hq, hrest⟩ := hQ
      obtain ⟨hq', hkeep⟩ :=
        hstep s l hI (hL l (List.mem_cons_self ..)) hq
      refine ⟨hq', ?_⟩
      intro s' hs'
      exact ih (hkeep s' hs')
        (fun l' hl' => hL l' (List.mem_cons_of_mem l hl'))
        (hrest s' hs')

/-- Two properties of the steps taken that agree under an invariant, which the
steps with the second one keep, agree along every permitted run. -/
theorem everyStep_iff
    {step : σ → Λ → Option σ}
    (I : σ → Prop)
    {P : Λ → Prop}
    {Q Q' : σ → Λ → σ → Prop}
    (hstep :
      ∀ s l s', I s → P l → step s l = some s' →
        (Q s l s' ↔ Q' s l s') ∧ (Q' s l s' → I s'))
    {s : σ} {ls : List Λ}
    (hI : I s)
    (hP : ∀ l ∈ ls, P l) :
    EveryStep step Q s ls ↔ EveryStep step Q' s ls := by
  induction ls generalizing s with
  | nil =>
      exact Iff.rfl
  | cons l ls ih =>
      have hl := hP l (List.mem_cons_self ..)
      have hls : ∀ l' ∈ ls, P l' :=
        fun l' hl' => hP l' (List.mem_cons_of_mem l hl')
      constructor
      · intro hQ s' hs'
        obtain ⟨hiff, hkeep⟩ := hstep s l s' hI hl hs'
        obtain ⟨hq, hrest⟩ := hQ s' hs'
        have hq' := hiff.mp hq
        exact ⟨hq', (ih (hkeep hq') hls).mp hrest⟩
      · intro hQ' s' hs'
        obtain ⟨hiff, hkeep⟩ := hstep s l s' hI hl hs'
        obtain ⟨hq', hrest⟩ := hQ' s' hs'
        exact ⟨hiff.mpr hq', (ih (hkeep hq') hls).mpr hrest⟩

/-- Where the labels taken so far determine enough of the state as long as a
property `Q` of steps holds, `Q` is a property of the label list and its
prefixes. -/
theorem along_iff_prefixes
    {step : σ → Λ → Option σ}
    (R : List Λ → σ → Prop)
    {P : Λ → Prop}
    {Q : σ → Λ → Prop}
    {C : List Λ → Λ → Prop}
    (hstep :
      ∀ before s l, R before s → P l →
        (Q s l ↔ C before l) ∧
        (Q s l →
          ∃ s', step s l = some s' ∧ R (before ++ [l]) s'))
    {before : List Λ} {s : σ} {ls : List Λ}
    (hR : R before s)
    (hP : ∀ l ∈ ls, P l) :
    Along step Q s ls ↔
      ∀ mid l post, ls = mid ++ l :: post → C (before ++ mid) l := by
  induction ls generalizing before s with
  | nil =>
      constructor
      · intro _ mid l post hnil
        simp at hnil
      · intro _
        trivial
  | cons l ls ih =>
      obtain ⟨hiff, hnext⟩ :=
        hstep before s l hR (hP l (List.mem_cons_self ..))
      have hrest :
          ∀ s', R (before ++ [l]) s' →
            (Along step Q s' ls ↔
              ∀ mid l' post, ls = mid ++ l' :: post →
                C (before ++ [l] ++ mid) l') :=
        fun s' hR' =>
          ih hR' (fun l' hl' => hP l' (List.mem_cons_of_mem l hl'))
      constructor
      · rintro ⟨hq, hall⟩ mid l' post hsplit
        cases mid with
        | nil =>
            obtain ⟨rfl, _⟩ := List.cons.inj hsplit
            rw [List.append_nil]
            exact hiff.mp hq
        | cons m mid =>
            obtain ⟨rfl, htail⟩ := List.cons.inj hsplit
            obtain ⟨s', hs', hR'⟩ := hnext hq
            have h := (hrest s' hR').mp (hall s' hs') mid l' post htail
            rw [List.append_assoc] at h
            exact h
      · intro hall
        have hq : Q s l := by
          have h := hall [] l ls rfl
          rw [List.append_nil] at h
          exact hiff.mpr h
        obtain ⟨s', hs', hR'⟩ := hnext hq
        refine ⟨hq, ?_⟩
        intro t ht
        have hst : s' = t := Option.some.inj (hs'.symm.trans ht)
        subst hst
        refine (hrest s' hR').mpr ?_
        intro mid l' post htail
        have h := hall (l :: mid) l' post (by rw [htail]; rfl)
        rw [List.append_assoc]
        exact h

/-- What holds along a run holds at each of its steps. -/
theorem along_at
    {step : σ → Λ → Option σ}
    {Q : σ → Λ → Prop}
    {s t : σ} {ls : List Λ} {l : Λ} {ls' : List Λ}
    (hQ : Along step Q s (ls ++ l :: ls'))
    (hrun : run step s ls = some t) :
    Q t l := by
  induction ls generalizing s with
  | nil =>
      rw [run_nil] at hrun
      cases hrun
      exact hQ.1
  | cons m ls ih =>
      obtain ⟨s', hfirst, hrest⟩ := run_cons_success hrun
      exact ih (hQ.2 s' hfirst) hrest

/-- What holds along a run is what holds at each state that one of its
prefixes reaches. -/
theorem along_iff_reached
    {step : σ → Λ → Option σ}
    {Q : σ → Λ → Prop}
    {s : σ} {ls : List Λ} :
    Along step Q s ls ↔
      ∀ before l after t, ls = before ++ l :: after →
        run step s before = some t → Q t l := by
  constructor
  · rintro hQ before l after t rfl hrun
    exact along_at hQ hrun
  · intro hQ
    induction ls generalizing s with
    | nil =>
        trivial
    | cons l ls ih =>
        refine ⟨hQ [] l ls s rfl rfl, ?_⟩
        intro s' hs'
        refine ih ?_
        intro before l' after t hsplit hrun
        refine hQ (l :: before) l' after t (by rw [hsplit]; rfl) ?_
        rw [run_cons, hs']
        exact hrun

/-- A relation between the labels taken and the state that each step keeps
holds after a run. -/
theorem history_of_run
    {step : σ → Λ → Option σ}
    (R : List Λ → σ → Prop)
    (hstep :
      ∀ before s l s', R before s → step s l = some s' →
        R (before ++ [l]) s')
    {before : List Λ} {s t : σ} {ls : List Λ}
    (hR : R before s)
    (hrun : run step s ls = some t) :
    R (before ++ ls) t := by
  induction ls generalizing before s with
  | nil =>
      rw [run_nil] at hrun
      cases hrun
      rw [List.append_nil]
      exact hR
  | cons l ls ih =>
      obtain ⟨s', hfirst, hrest⟩ := run_cons_success hrun
      have hRt := ih (hstep before s l s' hR hfirst) hrest
      rw [List.append_assoc] at hRt
      exact hRt

/-- What every step of a run has, each of its steps has. -/
theorem everyStep_at
    {step : σ → Λ → Option σ}
    {Q : σ → Λ → σ → Prop}
    {s t t' : σ} {ls : List Λ} {l : Λ} {ls' : List Λ}
    (hQ : EveryStep step Q s (ls ++ l :: ls'))
    (hrun : run step s ls = some t)
    (hstep : step t l = some t') :
    Q t l t' := by
  induction ls generalizing s with
  | nil =>
      rw [run_nil] at hrun
      cases hrun
      exact (hQ t' hstep).1
  | cons m ls ih =>
      obtain ⟨s', hfirst, hrest⟩ := run_cons_success hrun
      exact ih (hQ s' hfirst).2 hrest

/-- A run whose steps all have such a property completes, in a state that its
labels determine. -/
theorem run_of_along
    {step : σ → Λ → Option σ}
    (R : List Λ → σ → Prop)
    {P : Λ → Prop}
    {Q : σ → Λ → Prop}
    (hstep :
      ∀ before s l, R before s → P l → Q s l →
        ∃ s', step s l = some s' ∧ R (before ++ [l]) s')
    {before : List Λ} {s : σ} {ls : List Λ}
    (hR : R before s)
    (hP : ∀ l ∈ ls, P l)
    (hQ : Along step Q s ls) :
    ∃ t, run step s ls = some t ∧ R (before ++ ls) t := by
  induction ls generalizing before s with
  | nil =>
      refine ⟨s, rfl, ?_⟩
      rw [List.append_nil]
      exact hR
  | cons l ls ih =>
      obtain ⟨hq, hrest⟩ := hQ
      obtain ⟨s', hs', hR'⟩ :=
        hstep before s l hR (hP l (List.mem_cons_self ..)) hq
      obtain ⟨t, ht, hRt⟩ :=
        ih hR' (fun l' hl' => hP l' (List.mem_cons_of_mem l hl'))
          (hrest s' hs')
      refine ⟨t, ?_, ?_⟩
      · rw [run_cons, hs']
        exact ht
      · rw [List.append_assoc] at hRt
        exact hRt

end TransitionRuns

end TransitionRuns
