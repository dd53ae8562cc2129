import Mathlib.Data.List.Induction

/-!
# Runs of a labelled transition system

`Runs step s labels s'` takes steps in a row, one for each label. A relation that the steps
of two systems preserve, label by label, is preserved by their runs: whatever the first
system does, the second one does too.

## Key results

- `Runs.simulate`: runs follow runs as steps follow steps
- `Runs.unique`: steps that leave no choice make runs that leave none
-/

namespace Transition

variable {σ τ ω : Type} {step : ω → σ → σ → Prop} {step' : ω → τ → τ → Prop} {s s' : σ} {t : τ}
  {labels : List ω}

/-- Steps in a row. -/
inductive Runs (step : ω → σ → σ → Prop) (start : σ) : List ω → σ → Prop where
  | nil : Runs step start [] start
  | concat {labels : List ω} {label : ω} {s s' : σ} (hrun : Runs step start labels s)
      (hstep : step label s s') : Runs step start (labels ++ [label]) s'

/-- The last step of a run. -/
theorem runs_concat_iff {label : ω} : Runs step s (labels ++ [label]) s' ↔
    ∃ u, Runs step s labels u ∧ step label u s' := by
  constructor
  · intro h
    -- the last step of the run is the one with the last label
    generalize hall : labels ++ [label] = all at h
    cases h with
    | nil => simp at hall
    | concat hrun hstep =>
      obtain ⟨rfl, hlabel⟩ := List.append_inj' hall rfl
      cases hlabel
      exact ⟨_, hrun, hstep⟩
  · rintro ⟨u, hrun, hstep⟩
    exact hrun.concat hstep

/-- A run in two parts. -/
theorem runs_append_iff {labels' : List ω} : Runs step s (labels ++ labels') s' ↔
    ∃ u, Runs step s labels u ∧ Runs step u labels' s' := by
  induction labels' using List.reverseRecOn generalizing s' with
  | nil =>
    rw [List.append_nil]
    constructor
    · intro h
      exact ⟨s', h, .nil⟩
    · rintro ⟨u, hrun, hnil⟩
      generalize hall : ([] : List ω) = all at hnil
      cases hnil with
      | nil => exact hrun
      | concat => simp at hall
  | append_singleton labels' label ih =>
    -- split off the last step, then the run before it
    rw [← List.append_assoc, runs_concat_iff]
    constructor
    · rintro ⟨v, hrun, hstep⟩
      obtain ⟨u, hrun, hrun'⟩ := ih.mp hrun
      exact ⟨u, hrun, hrun'.concat hstep⟩
    · rintro ⟨u, hrun, hrun'⟩
      obtain ⟨v, hrun', hstep⟩ := runs_concat_iff.mp hrun'
      exact ⟨v, ih.mpr ⟨u, hrun, hrun'⟩, hstep⟩

/-- A second system follows the first one through a run. -/
theorem Runs.simulate {R : σ → τ → Prop}
    (hsim : ∀ label s s' t, R s t → step label s s' → ∃ t', step' label t t' ∧ R s' t')
    (h : Runs step s labels s') (hst : R s t) : ∃ t', Runs step' t labels t' ∧ R s' t' := by
  induction h with
  | nil => exact ⟨t, .nil, hst⟩
  | concat _ hlast ih =>
    obtain ⟨u, hrun, hu⟩ := ih
    obtain ⟨t', hlast', ht'⟩ := hsim _ _ _ u hu hlast
    exact ⟨t', hrun.concat hlast', ht'⟩

/-- Steps that leave no choice make runs that leave none. -/
theorem Runs.unique (hdet : ∀ label s s' s'', step label s s' → step label s s'' → s'' = s')
    {s'' : σ} (h : Runs step s labels s') (h' : Runs step s labels s'') : s'' = s' := by
  induction h generalizing s'' with
  | nil =>
    generalize hall : ([] : List ω) = all at h'
    cases h' with
    | nil => rfl
    | concat => simp at hall
  | concat _ hlast ih =>
    -- both runs reach the same state before the last step
    obtain ⟨u, hrun, hstep⟩ := runs_concat_iff.mp h'
    rw [ih hrun] at hstep
    exact hdet _ _ _ _ hlast hstep

end Transition
