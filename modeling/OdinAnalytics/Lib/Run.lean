import Mathlib.Data.List.Induction
import Mathlib.Tactic.Common

/-!
# Runs of a partial step function

A run takes operations in a row, as long as each of them can be done. `Throughout`
says something of every state on the way, and `Along` something of every operation and
the state that it is done in.

## Key results

- `run_induction`: what operations of a kind preserve holds after a run of them
- `throughout_iff_along`: a property that holds throughout just the runs of such operations
-/

namespace Run

variable {σ ω : Type} {step : σ → ω → Option σ} {start s : σ} {ops : List ω} {op : ω}
  {P : σ → ω → Prop} {I J : σ → Prop}

/-- Operations in a row. -/
def run (step : σ → ω → Option σ) (s : σ) (ops : List ω) : Option σ := ops.foldlM step s

/-- One operation more at the end. -/
theorem run_concat (ops : List ω) (op : ω) :
    run step s (ops ++ [op]) = (run step s ops).bind fun s' => step s' op := by
  simp [run, List.foldlM_append]

/-- Every state of a run, from the first one on. -/
def Throughout (step : σ → ω → Option σ) (start : σ) (ops : List ω) (I : σ → Prop) : Prop :=
  ∀ pre s, pre <+: ops → run step start pre = some s → I s

/-- Every operation of a run that can be done, in the state that it is done in. -/
def Along (step : σ → ω → Option σ) (start : σ) (ops : List ω) (P : σ → ω → Prop) : Prop :=
  ∀ pre op s, pre ++ [op] <+: ops → run step start pre = some s → (step s op).isSome → P s op

/-- What implies `J` throughout a run makes `J` hold throughout. -/
theorem Throughout.mono (h : Throughout step start ops I) (hIJ : ∀ s, I s → J s) :
    Throughout step start ops J :=
  fun pre s hpre hrun => hIJ s (h pre s hpre hrun)

/-- A prefix of a run is a run along which the same holds. -/
theorem Along.of_prefix {pre : List ω} (h : Along step start ops P) (hpre : pre <+: ops) :
    Along step start pre P :=
  fun pre' op s hpre' => h pre' op s (hpre'.trans hpre)

/-- What the operations that meet the condition preserve holds after a run of them. -/
theorem run_induction (hstart : I start)
    (hstep : ∀ {s op s'}, I s → P s op → step s op = some s' → I s')
    (halong : Along step start ops P) (h : run step start ops = some s) : I s := by
  induction ops using List.reverseRecOn generalizing s with
  | nil =>
    cases h
    exact hstart
  | append_singleton ops op ih =>
    rw [run_concat] at h
    -- the last step starts from a state in which the invariant holds
    obtain ⟨t, ht, h⟩ := Option.bind_eq_some_iff.mp h
    exact hstep (ih (halong.of_prefix (List.prefix_append _ _)) ht)
      (halong ops op t (List.prefix_refl _) ht (by rw [h]; rfl)) h

/-- What every operation preserves under its condition holds throughout the runs that meet the
    conditions. -/
theorem throughout_of_along (hstart : I start)
    (hstep : ∀ {s op s'}, I s → P s op → step s op = some s' → I s')
    (halong : Along step start ops P) : Throughout step start ops I :=
  fun _ _ hpre hrun => run_induction hstart hstep (halong.of_prefix hpre) hrun

/-- The invariant `J` is kept by the operations that meet the condition, and any other
    operation breaks the property `I` that it implies. So `I` holds throughout a run just
    when the operations of the run meet the condition. -/
theorem throughout_iff_along (hstart : J start) (himp : ∀ s, J s → I s)
    (hkeep : ∀ {s op s'}, J s → P s op → step s op = some s' → J s')
    (hbreak : ∀ {s op s'}, J s → step s op = some s' → I s' → P s op) :
    Throughout step start ops I ↔ Along step start ops P := by
  constructor
  · intro h
    -- by induction on the run, the invariant holds before each operation
    have hinv : ∀ pre s, pre <+: ops → run step start pre = some s → J s := by
      intro pre
      induction pre using List.reverseRecOn with
      | nil =>
        rintro s - hrun
        cases hrun
        exact hstart
      | append_singleton pre op ih =>
        intro s hpre hrun
        have hrun' := hrun
        rw [run_concat] at hrun'
        obtain ⟨t, ht, hstep⟩ := Option.bind_eq_some_iff.mp hrun'
        have hJ := ih t ((List.prefix_append _ _).trans hpre) ht
        exact hkeep hJ (hbreak hJ hstep (h _ s hpre hrun)) hstep
    intro pre op s hpre hrun hsome
    obtain ⟨s', hstep⟩ := Option.isSome_iff_exists.mp hsome
    refine hbreak (hinv pre s ((List.prefix_append _ _).trans hpre) hrun) hstep ?_
    refine h _ s' hpre ?_
    rw [run_concat, hrun]
    exact hstep
  · intro h
    exact (throughout_of_along hstart hkeep h).mono himp

end Run
