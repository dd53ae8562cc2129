import Mathlib.Tactic.Common

/-!
# Outcomes of straight-line C++ code

`Exec α` is the outcome of running a function body that has no unbounded loop:
a value, an exception, or undefined behaviour. Signed `int` arithmetic is over
`Int` with every result checked against the 32-bit range, so an overflow is an
outcome of its own and not a wrapped value.

`Post x E Q` is the postcondition judgement: a value of `x` satisfies `Q`, a
fault of `x` satisfies `E`.
-/

namespace Machine

/-- What a `throw` expression throws. -/
inductive Exn where
  | runtimeError (what : String)
  | invalidArgument (what : String)
  /-- A string, thrown as it is. -/
  | text (what : String)
  /-- Thrown by the standard library, with a text of its own. -/
  | outOfRange
  /-- `std::get` of an alternative that a variant does not hold. -/
  | badVariantAccess
  /-- A container is asked for a size that none can have. -/
  | lengthError
  /-- There is no memory. -/
  | badAlloc
deriving DecidableEq, Repr

/-- The kinds of undefined behaviour a run can reach. -/
inductive Undefined where
  | signedOverflow
  | indexOutOfRange
  | emptyContainer
  | nullPointer
  /-- The end iterator of a container is dereferenced. -/
  | endIterator
  /-- A floating-point value is converted to an integer type that does not hold it. -/
  | badConversion
deriving DecidableEq, Repr

/-- The ways a run can end without a value. -/
inductive Fault where
  | throws (e : Exn)
  | undefined (u : Undefined)
deriving DecidableEq, Repr

/-- Signed 32-bit overflow, which C++ leaves undefined. -/
@[match_pattern] abbrev Fault.overflow : Fault := .undefined .signedOverflow

/-- The fault is an exception. -/
def IsThrow (f : Fault) : Prop := ∃ e, f = .throws e

/-- The outcome of a computation without unbounded loops. -/
abbrev Exec (α : Type) := Except Fault α

instance {α : Type} [DecidableEq α] : DecidableEq (Exec α)
  | .ok a, .ok b => decidable_of_iff (a = b) (by simp)
  | .error e, .error f => decidable_of_iff (e = f) (by simp)
  | .ok _, .error _ => isFalse (by simp)
  | .error _, .ok _ => isFalse (by simp)

/-! ## Postconditions -/

/-- A value of `x` satisfies `Q` and a fault of `x` satisfies `E`. -/
def Post {α : Type} (x : Exec α) (E : Fault → Prop) (Q : α → Prop) : Prop :=
  match x with
  | .ok v => Q v
  | .error f => E f

section Post

variable {α β : Type} {x : Exec α} {E E' : Fault → Prop} {Q Q' : α → Prop}

@[simp] theorem post_ok {v : α} : Post (.ok v) E Q ↔ Q v := Iff.rfl

@[simp] theorem post_pure {v : α} : Post (pure v) E Q ↔ Q v := Iff.rfl

@[simp] theorem post_error {f : Fault} : Post (.error f : Exec α) E Q ↔ E f := Iff.rfl

/-- A postcondition implies any weaker one. -/
theorem Post.imp (h : Post x E Q) (hE : ∀ f, E f → E' f) (hQ : ∀ v, Q v → Q' v) :
    Post x E' Q' := by
  cases x with
  | ok v => exact hQ v h
  | error f => exact hE f h

/-- A postcondition on the value implies any weaker one. -/
theorem Post.weaken (h : Post x E Q) (hQ : ∀ v, Q v → Q' v) : Post x E Q' :=
  h.imp (fun _ hf => hf) hQ

/-- The second part starts from what the first one ensures. -/
theorem Post.bind {k : α → Exec β} {R : β → Prop} (h : Post x E Q)
    (hk : ∀ v, Q v → Post (k v) E R) : Post (x >>= k) E R := by
  cases x with
  | ok v => exact hk v h
  | error f => exact h

/-- Where faults do not matter, the last part decides. -/
theorem post_bind_of_last {k : α → Exec β} {R : β → Prop}
    (h : ∀ v, Post (k v) (fun _ => True) R) : Post (x >>= k) (fun _ => True) R := by
  cases x with
  | ok v => exact h v
  | error f => trivial

/-- The common case of `Post.bind`: the value of the first part is known. -/
theorem Post.bind_eq {k : α → Exec β} {R : β → Prop} {a : α} (h : Post x E (· = a))
    (hk : Post (k a) E R) : Post (x >>= k) E R :=
  h.bind fun _ hv => hv ▸ hk

/-- A run that satisfies a postcondition and does not fault has a value. -/
theorem Post.exists_ok (h : Post x E Q) (hE : ∀ f, x = .error f → ¬ E f) :
    ∃ v, x = .ok v ∧ Q v := by
  cases x with
  | ok v => exact ⟨v, rfl, h⟩
  | error f => exact absurd h (hE f rfl)

/-- A run that may neither fault nor have any other value. -/
theorem Post.eq_ok {a : α} (h : Post x (fun _ => False) (· = a)) : x = .ok a := by
  obtain ⟨v, hv, rfl⟩ := h.exists_ok fun _ _ => id
  exact hv

end Post

-- Not proved by `rfl`: a long function body then unfolds by rewriting, step by
-- step, and the kernel does not have to find the definitional unfolding itself.
/-- A value is passed on. -/
@[simp] theorem ok_bind {α β : Type} (a : α) (k : α → Exec β) : (.ok a >>= k) = k a := by
  simp only [bind, Except.bind]

/-- A fault ends the computation. -/
@[simp] theorem error_bind {α β : Type} (f : Fault) (k : α → Exec β) :
    ((.error f : Exec α) >>= k) = .error f := by
  simp only [bind, Except.bind]

/-- Two parts return only if both do. -/
theorem bind_eq_ok {α β : Type} {x : Exec α} {k : α → Exec β} {b : β} :
    (x >>= k) = .ok b ↔ ∃ a, x = .ok a ∧ k a = .ok b := by
  cases x with
  | ok a => simp
  | error f => simp

/-- Two parts fault where one of them does. -/
theorem bind_eq_error {α β : Type} {x : Exec α} {k : α → Exec β} {f : Fault} :
    (x >>= k) = .error f ↔ x = .error f ∨ ∃ a, x = .ok a ∧ k a = .error f := by
  cases x with
  | ok a => simp
  | error g => simp

/-- Related lists relate each of their elements. -/
theorem exists_of_forall₂ {α β : Type} {R : α → β → Prop} {xs : List α} {ys : List β}
    (h : List.Forall₂ R xs ys) : (∀ x ∈ xs, ∃ y ∈ ys, R x y) ∧ ∀ y ∈ ys, ∃ x ∈ xs, R x y := by
  induction h with
  | nil => simp
  | @cons x y xs ys hxy _ ih =>
    constructor
    · intro x' hx'
      -- the heads belong to each other, the rest by induction
      rcases List.mem_cons.mp hx' with rfl | hx'
      · exact ⟨y, List.mem_cons_self, hxy⟩
      · obtain ⟨y', hy', hxy'⟩ := ih.1 x' hx'
        exact ⟨y', List.mem_cons_of_mem y hy', hxy'⟩
    · intro y' hy'
      rcases List.mem_cons.mp hy' with rfl | hy'
      · exact ⟨x, List.mem_cons_self, hxy⟩
      · obtain ⟨x', hx', hxy'⟩ := ih.2 y' hy'
        exact ⟨x', List.mem_cons_of_mem x hx', hxy'⟩

/-- A loop over a list, by what its body does with each element. -/
theorem post_mapM {α β : Type} {f : α → Exec β} {E : Fault → Prop} {R : α → β → Prop}
    {xs : List α} (h : ∀ x ∈ xs, Post (f x) E (R x)) : Post (xs.mapM f) E (List.Forall₂ R xs) := by
  induction xs with
  | nil => simp
  | cons x xs ih =>
    have hxs := ih fun x' hx' => h x' (List.mem_cons_of_mem x hx')
    rw [List.mapM_cons]
    -- the first element, then the rest by induction
    apply Post.bind (h x List.mem_cons_self)
    intro y hy
    apply Post.bind hxs
    intro ys hys
    exact post_pure.mpr (.cons hy hys)

/-- A loop over a list that keeps an invariant. -/
theorem post_foldlM {α σ : Type} {body : σ → α → Exec σ} {E : Fault → Prop} {I : σ → Prop}
    {xs : List α} (h : ∀ x ∈ xs, ∀ s, I s → Post (body s x) E I) {s : σ} (hs : I s) :
    Post (xs.foldlM body s) E I := by
  induction xs generalizing s with
  | nil => exact post_pure.mpr hs
  | cons x xs ih =>
    rw [List.foldlM_cons]
    apply Post.bind (h x List.mem_cons_self s hs)
    intro s' hs'
    exact ih (fun x' hx' => h x' (List.mem_cons_of_mem x hx')) hs'

/-! ## Checked 32-bit arithmetic -/

/-- The values of a 32-bit signed `int`. -/
def InInt32 (x : Int) : Prop := -2147483648 ≤ x ∧ x ≤ 2147483647

instance : DecidablePred InInt32 := fun x => by unfold InInt32; infer_instance

/-- The `int` result of an operation whose mathematical value is `x`. -/
def checked (x : Int) : Exec Int := if InInt32 x then .ok x else .error .overflow

/-- `a + b` of two `int`s. -/
def add32 (a b : Int) : Exec Int := checked (a + b)
/-- `a - b` of two `int`s. -/
def sub32 (a b : Int) : Exec Int := checked (a - b)
/-- `a * b` of two `int`s. -/
def mul32 (a b : Int) : Exec Int := checked (a * b)
/-- `-a` of an `int`. -/
def neg32 (a : Int) : Exec Int := checked (-a)
/-- `std::abs`, undefined at the most negative `int`. -/
def abs32 (a : Int) : Exec Int := checked a.natAbs

/-- A result in range is the result. -/
theorem checked_eq {x : Int} (h : InInt32 x) : checked x = .ok x := if_pos h

/-- A result out of range is undefined. -/
theorem checked_eq_overflow {x : Int} (h : ¬ InInt32 x) : checked x = .error .overflow := if_neg h

/-- Only results in range are returned. -/
theorem checked_eq_ok {x v : Int} : checked x = .ok v ↔ InInt32 x ∧ v = x := by
  unfold checked
  split
  · next h => simp [h, eq_comm]
  · next h => simp [h]

/-- Arithmetic comes to no fault but overflow. -/
theorem checked_eq_error {x : Int} {f : Fault} (h : checked x = .error f) : f = .overflow := by
  unfold checked at h
  split at h
  · exact nomatch h
  · exact (Except.error.inj h).symm

/-- A checked result is the mathematical one unless it overflows. -/
theorem post_checked (x : Int) : Post (checked x) (· = .overflow) (fun v => v = x) := by
  unfold checked
  split
  · rfl
  · rfl

/-- The same with the overflow either allowed or ruled out. -/
theorem post_checked_of {E : Fault → Prop} {x : Int} (h : E .overflow ∨ InInt32 x) :
    Post (checked x) E (· = x) := by
  rcases h with h | h
  · exact (post_checked x).imp (fun _ hf => hf ▸ h) fun _ hv => hv
  · rw [checked_eq h]
    exact post_ok.mpr rfl

/-- A checked operation on any operands. -/
theorem post_checked_any {E : Fault → Prop} (hE : E .overflow) (x : Int) :
    Post (checked x) E fun _ => True :=
  (post_checked_of (Or.inl hE)).weaken fun _ _ => trivial

/-- Whatever arithmetic returns is an `int`. -/
theorem post_checked_inInt32 (x : Int) : Post (checked x) (fun _ => True) InInt32 := by
  cases h : checked x with
  | ok v =>
    obtain ⟨hint, rfl⟩ := checked_eq_ok.mp h
    exact hint
  | error f => trivial

/-- `checked_eq` with its side conditions apart, for `simp (disch := omega)`. -/
theorem checked_of_bounds {x : Int} (h₁ : -2147483648 ≤ x) (h₂ : x ≤ 2147483647) :
    checked x = .ok x := checked_eq ⟨h₁, h₂⟩

/-- A difference in range is the difference. -/
theorem sub32_eq {a b : Int} (h : InInt32 (a - b)) : sub32 a b = .ok (a - b) := checked_eq h
/-- An absolute value in range is the absolute value. -/
theorem abs32_eq {a : Int} (h : InInt32 a.natAbs) : abs32 a = .ok a.natAbs := checked_eq h

/-! ## Truncating division -/

/-- Division that truncates, below zero. -/
theorem tdiv_of_nonpos {a : Int} (h : a ≤ 0) (b : Int) : a.tdiv b = -(-a / b) := by
  rw [← Int.tdiv_eq_ediv_of_nonneg (by omega), Int.neg_tdiv, Int.neg_neg]

/-- The remainder of division that truncates, below zero. -/
theorem tmod_of_nonpos {a : Int} (h : a ≤ 0) (b : Int) : a.tmod b = -(-a % b) := by
  rw [← Int.tmod_eq_emod_of_nonneg (by omega), Int.neg_tmod, Int.neg_neg]

/-- Both truncating operations by the sign of the dividend, as `omega` reads them. -/
theorem tdiv_tmod_cases (a b : Int) :
    a.tdiv b = a / b ∧ a.tmod b = a % b ∧ 0 ≤ a ∨
      a.tdiv b = -(-a / b) ∧ a.tmod b = -(-a % b) ∧ a ≤ 0 := by
  rcases Int.le_total 0 a with h | h
  · exact Or.inl ⟨Int.tdiv_eq_ediv_of_nonneg h, Int.tmod_eq_emod_of_nonneg h, h⟩
  · exact Or.inr ⟨tdiv_of_nonpos h b, tmod_of_nonpos h b, h⟩

/-- Both remainders are zero at the same numbers. -/
theorem tmod_eq_zero_iff (a b : Int) : a.tmod b = 0 ↔ a % b = 0 := by
  rw [← Int.dvd_iff_tmod_eq_zero, Int.dvd_iff_emod_eq_zero]

end Machine
