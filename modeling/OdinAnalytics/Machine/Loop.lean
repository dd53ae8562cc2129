import OdinAnalytics.Machine.Comp

/-!
# `while` loops

`whileLoop cond body` is the C++ statement `while (cond(s)) s = body(s);` over an
explicit loop state `s`. Condition and body may fault, in which case so does the
loop. The rules below are the only place where a loop budget is counted: the
users of this file supply an invariant, and a variant where the loop must end.
-/

namespace Machine

namespace Comp

variable {σ : Type}

/-- The outcome of `while (cond) body` from `s` within `n` iterations. -/
def whileRun (cond : σ → Exec Bool) (body : σ → Exec σ) : Nat → σ → Option (Exec σ)
  | 0, _ => none
  | n + 1, s =>
    match cond s with
    | .error f => some (.error f)
    | .ok false => some (.ok s)
    | .ok true =>
      match body s with
      | .error f => some (.error f)
      | .ok s' => whileRun cond body n s'

/-- More fuel does not change an outcome. -/
theorem whileRun_succ {cond : σ → Exec Bool} {body : σ → Exec σ} {n : Nat} {s : σ}
    {r : Exec σ} (h : whileRun cond body n s = some r) : whileRun cond body (n + 1) s = some r := by
  induction n generalizing s with
  | zero => simp [whileRun] at h
  | succ n ih =>
    -- the first iteration is the same; only the budget of the others differs
    rw [whileRun] at h ⊢
    split at h
    · exact h
    · exact h
    · split at h
      · exact h
      · exact ih h

/-- The statement `while (cond(s)) s = body(s);`, returning the final state. -/
def whileLoop (cond : σ → Exec Bool) (body : σ → Exec σ) (s : σ) : Comp σ where
  run n := whileRun cond body n s
  stable := by
    intro n m r hle h
    induction hle with
    | refl => exact h
    | step _ ih => exact whileRun_succ ih

variable {cond : σ → Exec Bool} {body : σ → Exec σ} {s s' : σ}

/-! ## One iteration -/

/-- A loop whose condition is false is over. -/
theorem whileLoop_returns_done (hc : cond s = .ok false) : (whileLoop cond body s).Returns s :=
  ⟨1, by simp [whileLoop, whileRun, hc]⟩

/-- A fault of the condition ends the loop. -/
theorem whileLoop_faults_cond {f : Fault} (hc : cond s = .error f) :
    (whileLoop cond body s).Faults f :=
  ⟨1, by simp [whileLoop, whileRun, hc]⟩

/-- A fault of the body ends the loop. -/
theorem whileLoop_faults_body {f : Fault} (hc : cond s = .ok true) (hb : body s = .error f) :
    (whileLoop cond body s).Faults f :=
  ⟨1, by simp [whileLoop, whileRun, hc, hb]⟩

/-- One iteration takes one unit of fuel. -/
theorem whileLoop_run_step (hc : cond s = .ok true) (hb : body s = .ok s') (n : Nat) :
    (whileLoop cond body s).run (n + 1) = (whileLoop cond body s').run n := by
  simp [whileLoop, whileRun, hc, hb]

/-- An iteration that runs does not change how the loop ends. -/
theorem whileLoop_exists_run_step (hc : cond s = .ok true) (hb : body s = .ok s') {x : Exec σ} :
    (∃ n, (whileLoop cond body s).run n = some x) ↔
      ∃ n, (whileLoop cond body s').run n = some x := by
  constructor
  · rintro ⟨n, hn⟩
    cases n with
    | zero => simp [whileLoop, whileRun] at hn
    | succ n => exact ⟨n, by rwa [whileLoop_run_step hc hb] at hn⟩
  · -- one more unit of fuel, for the iteration
    rintro ⟨n, hn⟩
    exact ⟨n + 1, by rwa [whileLoop_run_step hc hb]⟩

/-- An iteration that runs does not change how the loop returns. -/
theorem whileLoop_returns_step (hc : cond s = .ok true) (hb : body s = .ok s') {t : σ} :
    (whileLoop cond body s).Returns t ↔ (whileLoop cond body s').Returns t :=
  whileLoop_exists_run_step hc hb

/-- An iteration that runs does not change how the loop faults. -/
theorem whileLoop_faults_step (hc : cond s = .ok true) (hb : body s = .ok s') {f : Fault} :
    (whileLoop cond body s).Faults f ↔ (whileLoop cond body s').Faults f :=
  whileLoop_exists_run_step hc hb

/-- How a loop returns: at once, or after an iteration that runs. -/
theorem whileLoop_returns_cases {t : σ} (h : (whileLoop cond body s).Returns t) :
    cond s = .ok false ∧ t = s ∨
      ∃ s', cond s = .ok true ∧ body s = .ok s' ∧ (whileLoop cond body s').Returns t := by
  -- a loop whose condition or body faults does not return
  cases hc : cond s with
  | error f => exact absurd (whileLoop_faults_cond hc) h.not_faults
  | ok b =>
    cases b with
    | false => exact Or.inl ⟨rfl, h.unique (whileLoop_returns_done hc)⟩
    | true =>
      cases hb : body s with
      | error f => exact absurd (whileLoop_faults_body hc hb) h.not_faults
      | ok s' => exact Or.inr ⟨s', rfl, rfl, (whileLoop_returns_step hc hb).mp h⟩

/-! ## Whole runs -/

/-- What one iteration from `s` must do: leave the loop in `Q`, fault in `E`, or
    reach a next state of `I`. -/
def IterPost (cond : σ → Exec Bool) (body : σ → Exec σ) (E : Fault → Prop) (I Q : σ → Prop)
    (s : σ) : Prop :=
  Post (cond s) E fun b => if b then Post (body s) E I else Q s

/-- A stronger invariant may be forgotten. -/
theorem IterPost.imp {E : Fault → Prop} {I J Q : σ → Prop} (h : IterPost cond body E I Q s)
    (hIJ : ∀ s', I s' → J s') : IterPost cond body E J Q s := by
  apply Post.weaken h
  intro b hb
  cases b with
  | false => exact hb
  | true => exact Post.weaken hb hIJ

/-- A loop ends if its first iteration leads to states from which it ends. -/
theorem whileLoop_ends_iter {E : Fault → Prop} {Q : σ → Prop}
    (h : IterPost cond body E (fun s' => (whileLoop cond body s').Ends E Q) Q s) :
    (whileLoop cond body s).Ends E Q := by
  unfold IterPost at h
  cases hc : cond s with
  | error f => exact Or.inl ⟨f, whileLoop_faults_cond hc, by simpa [hc] using h⟩
  | ok b =>
    cases b with
    | false => exact Or.inr ⟨s, whileLoop_returns_done hc, by simpa [hc] using h⟩
    | true =>
      simp only [hc, post_ok, if_true] at h
      cases hb : body s with
      | error f => exact Or.inl ⟨f, whileLoop_faults_body hc hb, by simpa [hb] using h⟩
      | ok s' =>
        -- the iteration ran, so the rest of the loop decides
        simp only [hb, post_ok] at h
        rcases h with ⟨f, hf, hE⟩ | ⟨t, ht, hQ⟩
        · exact Or.inl ⟨f, (whileLoop_faults_step hc hb).mpr hf, hE⟩
        · exact Or.inr ⟨t, (whileLoop_returns_step hc hb).mpr ht, hQ⟩

/-- Total correctness: an invariant with a variant that drops at each iteration. -/
theorem whileLoop_ends (I Q : σ → Prop) (E : Fault → Prop) (μ : σ → Nat)
    (hiter : ∀ s, I s → IterPost cond body E (fun s' => I s' ∧ μ s' < μ s) Q s) (hs : I s) :
    (whileLoop cond body s).Ends E Q := by
  -- induction on a bound of the variant
  suffices ∀ k s, μ s < k → I s → (whileLoop cond body s).Ends E Q from
    this _ s (Nat.lt_succ_self _) hs
  intro k
  induction k with
  | zero => intro s hk; omega
  | succ k ih =>
    intro s hk hs
    apply whileLoop_ends_iter
    apply (hiter s hs).imp
    intro s' hs'
    exact ih s' (by omega) hs'.1

/-- Total correctness of a loop whose number of iterations is known in advance, with
    an invariant for each of them. -/
theorem whileLoop_ends_after (I : Nat → σ → Prop) (k : Nat) {E : Fault → Prop}
    (hcond : ∀ i < k, ∀ s, I i s → cond s = .ok true) (hdone : ∀ s, I k s → cond s = .ok false)
    (hbody : ∀ i < k, ∀ s, I i s → Post (body s) E (I (i + 1))) (hs : I 0 s) :
    (whileLoop cond body s).Ends E (I k) := by
  -- induction on the number `n` of iterations left after `i`
  suffices ∀ n i s, i + n = k → I i s → (whileLoop cond body s).Ends E (I k) from
    this k 0 s (Nat.zero_add k) hs
  intro n
  induction n with
  | zero =>
    intro i s hi hs
    subst hi
    exact Or.inr ⟨s, whileLoop_returns_done (hdone s hs), hs⟩
  | succ n ih =>
    intro i s hi hs
    apply whileLoop_ends_iter
    unfold IterPost
    rw [hcond i (by omega) s hs]
    apply Post.weaken (hbody i (by omega) s hs)
    intro s' hs'
    exact ih (i + 1) s' (by omega) hs'

/-- Total correctness of a loop whose states are known in advance. -/
theorem whileLoop_trace (state : Nat → σ) (k : Nat) {E : Fault → Prop}
    (hcond : ∀ i < k, cond (state i) = .ok true) (hdone : cond (state k) = .ok false)
    (hbody : ∀ i < k, Post (body (state i)) E (· = state (i + 1))) :
    (whileLoop cond body (state 0)).Ends E (· = state k) :=
  whileLoop_ends_after (fun i s => s = state i) k (fun i hi _ hs => hs ▸ hcond i hi)
    (fun _ hs => hs ▸ hdone) (fun i hi _ hs => hs ▸ hbody i hi) rfl

/-- Partial correctness: an invariant is enough when the loop need not end. -/
theorem whileLoop_safe (I Q : σ → Prop) (E : Fault → Prop)
    (hiter : ∀ s, I s → IterPost cond body E I Q s) (hs : I s) :
    (whileLoop cond body s).Safe E Q := by
  -- induction on the budget: an outcome within it is a postcondition's
  suffices ∀ n s r, I s → whileRun cond body n s = some r → Post r E Q by
    constructor
    · rintro f ⟨n, hn⟩
      exact this n s _ hs hn
    · rintro t ⟨n, hn⟩
      exact this n s _ hs hn
  intro n
  induction n with
  | zero => intro s r _ hr; simp [whileRun] at hr
  | succ n ih =>
    intro s r hs hr
    have hit := hiter s hs
    unfold IterPost at hit
    rw [whileRun] at hr
    cases hc : cond s with
    | error f =>
      simp only [hc, Option.some.injEq] at hr hit
      exact hr ▸ hit
    | ok b =>
      cases b with
      | false =>
        simp only [hc, Option.some.injEq, post_ok] at hr hit
        exact hr ▸ by simpa using hit
      | true =>
        simp only [hc, post_ok, if_true] at hr hit
        cases hb : body s with
        | error f =>
          simp only [hb, Option.some.injEq] at hr hit
          exact hr ▸ hit
        | ok s' =>
          simp only [hb, post_ok] at hr hit
          exact ih s' r hit hr

end Comp

end Machine
