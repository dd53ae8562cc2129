import OdinAnalytics.Machine.Exec

/-!
# Computations with loops

A `Comp α` is a computation given by its outcome at every loop budget ("fuel"):
`none` while the budget does not suffice, and the same outcome at every larger
budget once it does. That stability is a field, so it holds of everything built
from the combinators below and never has to be proved again.

## Key definitions

- `Returns`, `Faults`, `Diverges`: the possible fates of a run
- `Finishes`: the run returns or throws
- `Ends c E Q`: total correctness; the run ends, in a value of `Q` or a fault of `E`
- `Safe c E Q`: partial correctness; if it ends, it ends so
-/

namespace Machine

/-- A computation that may loop: its outcome at each loop budget. -/
structure Comp (α : Type) where
  run : Nat → Option (Exec α)
  /-- A larger budget does not change an outcome already reached. -/
  stable : ∀ {n m : Nat} {r : Exec α}, n ≤ m → run n = some r → run m = some r

namespace Comp

variable {α β σ : Type}

/-- Computations that come to the same with any fuel are the same. -/
@[ext] theorem ext {c d : Comp α} (h : ∀ n, c.run n = d.run n) : c = d := by
  cases c
  cases d
  simpa using funext h

/-- A straight-line computation needs no budget. -/
def lift (x : Exec α) : Comp α := ⟨fun _ => some x, fun _ h => h⟩

/-- Run `c`, then `k` on its value; a fault of `c` is the fault of the whole. -/
def bind (c : Comp α) (k : α → Comp β) : Comp β where
  run n :=
    match c.run n with
    | none => none
    | some (.error f) => some (.error f)
    | some (.ok a) => (k a).run n
  stable := by
    intro n m r hle h
    -- an outcome at budget `n` means that `c` has one at `n`, which it keeps at `m`
    cases hc : c.run n with
    | none => simp [hc] at h
    | some x =>
      rw [c.stable hle hc]
      cases x with
      | error f => simpa [hc] using h
      | ok a =>
        simp only [hc] at h
        exact (k a).stable hle h

instance : Monad Comp where
  pure a := lift (.ok a)
  bind := bind

instance : MonadLift Exec Comp := ⟨lift⟩

@[simp] theorem run_lift (x : Exec α) (n : Nat) : (lift x).run n = some x := rfl

@[simp] theorem run_pure (a : α) (n : Nat) : (pure a : Comp α).run n = some (.ok a) := rfl

@[simp] theorem liftM_eq (x : Exec α) : (liftM x : Comp α) = lift x := rfl

/-- With the same fuel, the second part goes on from the value of the first. -/
theorem run_bind (c : Comp α) (k : α → Comp β) (n : Nat) :
    (c >>= k).run n =
      match c.run n with
      | none => none
      | some (.error f) => some (.error f)
      | some (.ok a) => (k a).run n := rfl

/-- A value that is there is passed on. -/
@[simp] theorem lift_ok_bind (a : α) (k : α → Comp β) : (lift (.ok a) >>= k) = k a := rfl

/-! ## Fates of a run -/

/-- The run ends with the value `a`. -/
def Returns (c : Comp α) (a : α) : Prop := ∃ n, c.run n = some (.ok a)

/-- The run ends with the fault `f`. -/
def Faults (c : Comp α) (f : Fault) : Prop := ∃ n, c.run n = some (.error f)

/-- No budget suffices: the run never ends. -/
def Diverges (c : Comp α) : Prop := ∀ n, c.run n = none

/-- The run ends as a call may: it returns, or it throws. -/
def Finishes (c : Comp α) : Prop := (∃ a, c.Returns a) ∨ ∃ e, c.Faults (.throws e)

/-- Whatever the fuel, a computation that ends comes to one outcome. -/
theorem run_unique {c : Comp α} {n m : Nat} {r s : Exec α}
    (hr : c.run n = some r) (hs : c.run m = some s) : r = s := by
  -- both outcomes are kept at the larger of the two budgets
  have hr' := c.stable (Nat.le_max_left n m) hr
  have hs' := c.stable (Nat.le_max_right n m) hs
  rw [hr'] at hs'
  exact Option.some.inj hs'

/-- A computation returns one value only. -/
theorem Returns.unique {c : Comp α} {a b : α} (ha : c.Returns a) (hb : c.Returns b) : a = b := by
  obtain ⟨n, hn⟩ := ha
  obtain ⟨m, hm⟩ := hb
  exact Except.ok.inj (run_unique hn hm)

/-- A computation comes to one fault only. -/
theorem Faults.unique {c : Comp α} {f g : Fault} (hf : c.Faults f) (hg : c.Faults g) : f = g := by
  obtain ⟨n, hn⟩ := hf
  obtain ⟨m, hm⟩ := hg
  exact Except.error.inj (run_unique hn hm)

/-- What returns does not fault. -/
theorem Returns.not_faults {c : Comp α} {a : α} {f : Fault} (ha : c.Returns a) : ¬ c.Faults f := by
  rintro ⟨m, hm⟩
  obtain ⟨n, hn⟩ := ha
  exact nomatch run_unique hn hm

/-- What goes on for ever does not return. -/
theorem Diverges.not_returns {c : Comp α} (h : c.Diverges) (a : α) : ¬ c.Returns a := by
  rintro ⟨n, hn⟩
  simp [h n] at hn

/-- What goes on for ever does not fault. -/
theorem Diverges.not_faults {c : Comp α} (h : c.Diverges) (f : Fault) : ¬ c.Faults f := by
  rintro ⟨n, hn⟩
  simp [h n] at hn

/-- What is lifted returns just its value. -/
@[simp] theorem lift_returns {x : Exec α} {a : α} : (lift x).Returns a ↔ x = .ok a := by
  simp [Returns]

/-- What is lifted comes just to its fault. -/
@[simp] theorem lift_faults {x : Exec α} {f : Fault} : (lift x).Faults f ↔ x = .error f := by
  simp [Faults]

/-- A value returns itself. -/
@[simp] theorem pure_returns {a b : α} : (pure a : Comp α).Returns b ↔ a = b := by
  simp [Returns]

/-- A value does not fault. -/
@[simp] theorem pure_faults {a : α} {f : Fault} : ¬ (pure a : Comp α).Faults f := by
  simp [Faults]

/-- Two parts return what the second one makes of the value of the first. -/
theorem bind_returns {c : Comp α} {k : α → Comp β} {b : β} :
    (c >>= k).Returns b ↔ ∃ a, c.Returns a ∧ (k a).Returns b := by
  constructor
  · rintro ⟨n, hn⟩
    rw [run_bind] at hn
    -- within one budget both parts came to their end
    cases hc : c.run n with
    | none => simp [hc] at hn
    | some x =>
      cases x with
      | error f => simp [hc] at hn
      | ok a =>
        simp only [hc] at hn
        exact ⟨a, ⟨n, hc⟩, ⟨n, hn⟩⟩
  · -- the two parts may have needed different budgets
    rintro ⟨a, ⟨n, hn⟩, ⟨m, hm⟩⟩
    refine ⟨max n m, ?_⟩
    rw [run_bind, c.stable (Nat.le_max_left n m) hn]
    exact (k a).stable (Nat.le_max_right n m) hm

/-- Two parts fault where one of them does. -/
theorem bind_faults {c : Comp α} {k : α → Comp β} {f : Fault} :
    (c >>= k).Faults f ↔ c.Faults f ∨ ∃ a, c.Returns a ∧ (k a).Faults f := by
  constructor
  · -- the fault is that of whichever part the run got to
    rintro ⟨n, hn⟩
    rw [run_bind] at hn
    cases hc : c.run n with
    | none => simp [hc] at hn
    | some x =>
      cases x with
      | error g =>
        simp only [hc, Option.some.injEq, Except.error.injEq] at hn
        exact Or.inl ⟨n, hn ▸ hc⟩
      | ok a =>
        simp only [hc] at hn
        exact Or.inr ⟨a, ⟨n, hc⟩, ⟨n, hn⟩⟩
  · rintro (⟨n, hn⟩ | ⟨a, ⟨n, hn⟩, ⟨m, hm⟩⟩)
    · exact ⟨n, by rw [run_bind, hn]⟩
    · -- fuel that is enough for both parts
      refine ⟨max n m, ?_⟩
      rw [run_bind, c.stable (Nat.le_max_left n m) hn]
      exact (k a).stable (Nat.le_max_right n m) hm

/-- What two parts return, where the value of the first one is known. -/
theorem bind_returns_of {c : Comp α} {k : α → Comp β} {a : α} {b : β} (h : c.Returns a) :
    (c >>= k).Returns b ↔ (k a).Returns b := by
  rw [bind_returns]
  constructor
  · rintro ⟨a', ha', hb⟩
    exact h.unique ha' ▸ hb
  · intro hb
    exact ⟨a, h, hb⟩

/-- What two parts fault with, where the value of the first one is known. -/
theorem bind_faults_of {c : Comp α} {k : α → Comp β} {a : α} {f : Fault} (h : c.Returns a) :
    (c >>= k).Faults f ↔ (k a).Faults f := by
  rw [bind_faults]
  constructor
  · rintro (hf | ⟨a', ha', hf⟩)
    · exact absurd hf h.not_faults
    · exact h.unique ha' ▸ hf
  · intro hf
    exact Or.inr ⟨a, h, hf⟩

/-- A concrete run, looked at through a function of its value. -/
theorem exists_returns_of_run {c : Comp α} {g : α → β} {b : β} (n : Nat)
    (h : (c.run n).map (Except.map g) = some (.ok b)) : ∃ a, c.Returns a ∧ g a = b := by
  obtain ⟨x, hx, hg⟩ := Option.map_eq_some_iff.mp h
  cases x with
  | error f => exact nomatch hg
  | ok a => exact ⟨a, ⟨n, hx⟩, Except.ok.inj hg⟩

/-- What ends does not go on for ever. -/
theorem Finishes.not_diverges {c : Comp α} (h : c.Finishes) : ¬ c.Diverges := by
  intro hd
  rcases h with ⟨a, ha⟩ | ⟨e, he⟩
  · exact hd.not_returns a ha
  · exact hd.not_faults _ he

/-- A run that does not go on for ever returns or faults. -/
theorem exists_fate {c : Comp α} (h : ¬ c.Diverges) : (∃ a, c.Returns a) ∨ ∃ f, c.Faults f := by
  obtain ⟨n, hn⟩ := not_forall.mp h
  obtain ⟨x, hx⟩ := Option.ne_none_iff_exists'.mp hn
  cases x with
  | ok a => exact Or.inl ⟨a, n, hx⟩
  | error f => exact Or.inr ⟨f, n, hx⟩

/-- If the first part goes on for ever, so does the whole. -/
theorem Diverges.bind {c : Comp α} (h : c.Diverges) (k : α → Comp β) : (c >>= k).Diverges := by
  intro n
  rw [run_bind, h n]

/-! ## Total correctness -/

/-- The run ends, in a fault of `E` or in a value of `Q`. -/
def Ends (c : Comp α) (E : Fault → Prop) (Q : α → Prop) : Prop :=
  (∃ f, c.Faults f ∧ E f) ∨ ∃ a, c.Returns a ∧ Q a

section Ends

variable {c : Comp α} {E E' : Fault → Prop} {Q Q' : α → Prop}

/-- What is known about the end of a computation implies what is weaker. -/
theorem Ends.imp (h : c.Ends E Q) (hE : ∀ f, E f → E' f) (hQ : ∀ a, Q a → Q' a) :
    c.Ends E' Q' := by
  rcases h with ⟨f, hf, hEf⟩ | ⟨a, ha, hQa⟩
  · exact Or.inl ⟨f, hf, hE f hEf⟩
  · exact Or.inr ⟨a, ha, hQ a hQa⟩

/-- What is known about the value implies what is weaker. -/
theorem Ends.weaken (h : c.Ends E Q) (hQ : ∀ a, Q a → Q' a) : c.Ends E Q' :=
  h.imp (fun _ hf => hf) hQ

/-- What is lifted ends. -/
theorem ends_lift {x : Exec α} (h : Post x E Q) : (lift x).Ends E Q := by
  cases x with
  | ok a => exact Or.inr ⟨a, by simp, h⟩
  | error f => exact Or.inl ⟨f, by simp, h⟩

/-- A value ends. -/
theorem ends_pure {a : α} (h : Q a) : (pure a : Comp α).Ends E Q := Or.inr ⟨a, by simp, h⟩

/-- Two parts that end, one after the other, make a whole that ends. -/
theorem Ends.bind {k : α → Comp β} {R : β → Prop} (h : c.Ends E Q)
    (hk : ∀ a, Q a → (k a).Ends E R) : (c >>= k).Ends E R := by
  rcases h with ⟨f, hf, hEf⟩ | ⟨a, ha, hQa⟩
  · exact Or.inl ⟨f, bind_faults.mpr (Or.inl hf), hEf⟩
  · rcases hk a hQa with ⟨f, hf, hEf⟩ | ⟨b, hb, hRb⟩
    · exact Or.inl ⟨f, bind_faults.mpr (Or.inr ⟨a, ha, hf⟩), hEf⟩
    · exact Or.inr ⟨b, bind_returns.mpr ⟨a, ha, hb⟩, hRb⟩

/-- The common case of `Ends.bind`: the value of the first part is known. -/
theorem Ends.bind_eq {k : α → Comp β} {R : β → Prop} {a : α} (h : c.Ends E (· = a))
    (hk : (k a).Ends E R) : (c >>= k).Ends E R :=
  h.bind fun _ hv => hv ▸ hk

/-- A run that ends without any of the listed faults returns. -/
theorem Ends.exists_returns (h : c.Ends E Q) (hE : ∀ f, E f → ¬ c.Faults f) :
    ∃ a, c.Returns a ∧ Q a := by
  rcases h with ⟨f, hf, hEf⟩ | h
  · exact absurd hf (hE f hEf)
  · exact h

/-- A run that ends without any of the listed faults, in the one value allowed. -/
theorem Ends.returns_of_eq {b : α} (h : c.Ends E (· = b)) (hE : ∀ f, E f → ¬ c.Faults f) :
    c.Returns b := by
  obtain ⟨a, ha, rfl⟩ := h.exists_returns hE
  exact ha

/-- The case of a single fault that a run may end in. -/
theorem Ends.exists_returns_unless {f : Fault} (h : c.Ends (· = f) Q) (hf : ¬ c.Faults f) :
    ∃ a, c.Returns a ∧ Q a := by
  apply h.exists_returns
  intro g hg
  exact hg ▸ hf

/-- A computation with one fault to come to returns unless it does. -/
theorem Ends.returns_unless {f : Fault} {b : α} (h : c.Ends (· = f) (· = b))
    (hf : ¬ c.Faults f) : c.Returns b := by
  apply h.returns_of_eq
  intro g hg
  exact hg ▸ hf

/-- What is known about the value of a computation that ends. -/
theorem Ends.of_returns (h : c.Ends E Q) {a : α} (ha : c.Returns a) : Q a := by
  rcases h with ⟨f, hf, -⟩ | ⟨b, hb, hQb⟩
  · exact absurd hf ha.not_faults
  · exact ha.unique hb ▸ hQb

/-- What holds of every value of the run can be added to how it ends. -/
theorem Ends.and_returns (h : c.Ends E Q) (hQ : ∀ a, c.Returns a → Q' a) :
    c.Ends E fun a => Q a ∧ Q' a := by
  rcases h with h | ⟨a, ha, hQa⟩
  · exact Or.inl h
  · exact Or.inr ⟨a, ha, hQa, hQ a ha⟩

/-- What ends does not go on for ever. -/
theorem Ends.not_diverges (h : c.Ends E Q) : ¬ c.Diverges := by
  intro hd
  rcases h with ⟨f, hf, -⟩ | ⟨a, ha, -⟩
  · exact hd.not_faults f hf
  · exact hd.not_returns a ha

end Ends

/-! ## Partial correctness -/

/-- Every fault of the run satisfies `E` and every value `Q`; it need not end. -/
def Safe (c : Comp α) (E : Fault → Prop) (Q : α → Prop) : Prop :=
  (∀ f, c.Faults f → E f) ∧ ∀ a, c.Returns a → Q a

section Safe

variable {c : Comp α} {E : Fault → Prop} {Q : α → Prop}

/-- What is known of all ends is known of those that are reached. -/
theorem Ends.safe (h : c.Ends E Q) : c.Safe E Q := by
  rcases h with ⟨f, hf, hE⟩ | ⟨a, ha, hQ⟩
  · exact ⟨fun g hg => hf.unique hg ▸ hE, fun b hb => absurd hf hb.not_faults⟩
  · exact ⟨fun g hg => absurd hg ha.not_faults, fun b hb => ha.unique hb ▸ hQ⟩

/-- What is lifted is as safe as it is. -/
theorem safe_lift {x : Exec α} (h : Post x E Q) : (lift x).Safe E Q := (ends_lift h).safe

/-- A value is safe. -/
theorem safe_pure {a : α} (h : Q a) : (pure a : Comp α).Safe E Q := (ends_pure h).safe

/-- What two parts never do, one after the other, their whole never does. -/
theorem Safe.bind {k : α → Comp β} {R : β → Prop} (h : c.Safe E Q)
    (hk : ∀ a, Q a → (k a).Safe E R) : (c >>= k).Safe E R := by
  constructor
  · intro f hf
    rcases bind_faults.mp hf with hf | ⟨a, ha, hf⟩
    · exact h.1 f hf
    · exact (hk a (h.2 a ha)).1 f hf
  · intro b hb
    obtain ⟨a, ha, hb⟩ := bind_returns.mp hb
    exact (hk a (h.2 a ha)).2 b hb

end Safe

end Comp

end Machine
