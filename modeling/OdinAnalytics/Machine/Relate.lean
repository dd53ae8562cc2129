import OdinAnalytics.Machine.Block

/-!
# Two runs side by side

`Relates R x y` compares two runs that go through the same motions on different data:
they end in values that `R` relates, or in the same fault. Its rules follow the program
text, and the loops of the two runs go round together.

## Key results

- `Relates.bind`: one run after another
- `forRange_rows_relates`, `foldlM_relates`: loops that go round together
- `Relates.ok_left`, `Relates.error_left`: what one run says about the other
-/

namespace Machine

variable {α β γ δ : Type} {R R' : α → β → Prop} {x : Exec α} {y : Exec β}

/-- The two runs end in related values, or in the same fault. -/
def Relates (R : α → β → Prop) (x : Exec α) (y : Exec β) : Prop :=
  match x, y with
  | .ok a, .ok b => R a b
  | .error f, .error g => f = g
  | _, _ => False

@[simp] theorem relates_ok {a : α} {b : β} : Relates R (.ok a) (.ok b) ↔ R a b := Iff.rfl

@[simp] theorem relates_error {f g : Fault} :
    Relates R (.error f : Exec α) (.error g : Exec β) ↔ f = g := Iff.rfl

/-- An outcome is the same as itself. -/
theorem relates_refl (x : Exec α) : Relates Eq x x := by
  cases x with
  | ok a => exact relates_ok.mpr rfl
  | error f => exact relates_error.mpr rfl

/-- The second parts go on from related values. -/
theorem Relates.bind {S : γ → δ → Prop} {k : α → Exec γ} {l : β → Exec δ} (h : Relates R x y)
    (hk : ∀ a b, R a b → Relates S (k a) (l b)) : Relates S (x >>= k) (y >>= l) := by
  cases x with
  | ok a =>
    cases y with
    | ok b => exact hk a b h
    | error g => exact h.elim
  | error f =>
    cases y with
    | ok b => exact h.elim
    | error g => exact h

/-- Related values are related by whatever is weaker. -/
theorem Relates.imp (h : Relates R x y) (hR : ∀ a b, R a b → R' a b) : Relates R' x y := by
  -- both runs go on by returning what they have
  have hbind : Relates R' (x >>= pure) (y >>= pure) := h.bind hR
  rwa [bind_pure, bind_pure] at hbind

/-- A part that both runs have in common. -/
theorem relates_bind_same {S : γ → δ → Prop} {k : α → Exec γ} {l : α → Exec δ} (x : Exec α)
    (hk : ∀ a, x = .ok a → Relates S (k a) (l a)) : Relates S (x >>= k) (x >>= l) := by
  cases x with
  | ok a => exact hk a rfl
  | error f => exact relates_error.mpr rfl

/-- The first run goes on after the part in common. -/
theorem relates_bind_self {S : γ → α → Prop} {k : α → Exec γ} (x : Exec α)
    (hk : ∀ a, x = .ok a → Relates S (k a) (.ok a)) : Relates S (x >>= k) x := by
  have hbind : Relates S (x >>= k) (x >>= pure) := relates_bind_same x hk
  rwa [bind_pure] at hbind

/-- The second run goes on on its own. -/
theorem Relates.bind_right {S : α → δ → Prop} {l : β → Exec δ} (h : Relates R x y)
    (hl : ∀ a b, R a b → Relates S (.ok a) (l b)) : Relates S x (y >>= l) := by
  have hbind : Relates S (x >>= pure) (y >>= l) := h.bind hl
  rwa [bind_pure] at hbind

/-- A part of the first run only, which does not fault. -/
theorem Relates.bind_left {S : γ → β → Prop} {k : α → Exec γ} {a : α} (hx : x = .ok a)
    (hk : Relates S (k a) y) : Relates S (x >>= k) y := by
  rw [hx]
  exact hk

/-- A value on the left has its partner on the right. -/
theorem Relates.ok_left (h : Relates R x y) {a : α} (hx : x = .ok a) :
    ∃ b, y = .ok b ∧ R a b := by
  subst hx
  cases y with
  | ok b => exact ⟨b, rfl, h⟩
  | error g => exact h.elim

/-- A fault on the left is the fault on the right. -/
theorem Relates.error_left (h : Relates R x y) {f : Fault} (hx : x = .error f) :
    y = .error f := by
  subst hx
  cases y with
  | ok b => exact h.elim
  | error g => exact congrArg _ (Eq.symm h)

/-- Two runs that are both like a third one. -/
theorem Relates.join {S : γ → β → Prop} {z : Exec γ} (h : Relates R x y) (h' : Relates S z y) :
    Relates (fun a c => ∃ b, R a b ∧ S c b) x z := by
  -- both sides end as the one in the middle does
  cases y with
  | ok b =>
    cases x with
    | ok a =>
      cases z with
      | ok c => exact ⟨b, h, h'⟩
      | error f => exact h'.elim
    | error f => exact h.elim
  | error g =>
    cases x with
    | ok a => exact h.elim
    | error f =>
      cases z with
      | ok c => exact h'.elim
      | error f' => exact Eq.trans h (Eq.symm h')

/-! ## Loops -/

section Loops

variable {σ τ : Type} {s : σ} {t : τ}

/-- Loops keep step if their iterations do. -/
theorem forRange_relates (I : Nat → σ → τ → Prop) {n : Nat} {body : Nat → σ → Exec σ}
    {body' : Nat → τ → Exec τ}
    (hbody : ∀ i < n, ∀ s t, I i s t → Relates (I (i + 1)) (body i s) (body' i t))
    (h : I 0 s t) : Relates (I n) (forRange n body s) (forRange n body' t) := by
  induction n with
  | zero => exact h
  | succ n ih =>
    rw [forRange_succ, forRange_succ]
    apply Relates.bind (ih fun i hi => hbody i (by omega))
    intro s' t' hs'
    exact hbody n (Nat.lt_succ_self n) s' t' hs'

/-- Two nested loops on either side, over the rows and the columns of an array. -/
theorem forRange_rows_relates (I : Nat → σ → τ → Prop) {rows cols : Nat}
    {body : Nat → Nat → σ → Exec σ} {body' : Nat → Nat → τ → Exec τ}
    (hbody : ∀ i < rows, ∀ j < cols, ∀ s t, I (i * cols + j) s t →
      Relates (I (i * cols + j + 1)) (body i j s) (body' i j t))
    (h : I 0 s t) :
    Relates (I (rows * cols)) (forRange rows (fun i s => forRange cols (body i) s) s)
      (forRange rows (fun i t => forRange cols (body' i) t) t) := by
  apply forRange_relates fun i s t => I (i * cols) s t
  · intro i hi s t hs
    rw [show (i + 1) * cols = i * cols + cols by ring]
    exact forRange_relates (fun j s t => I (i * cols + j) s t) (hbody i hi) hs
  · simpa using h

/-- Two loops over the same list. -/
theorem foldlM_relates (I : σ → τ → Prop) {l : List α} {body : σ → α → Exec σ}
    {body' : τ → α → Exec τ}
    (hbody : ∀ x ∈ l, ∀ s t, I s t → Relates I (body s x) (body' t x)) (h : I s t) :
    Relates I (l.foldlM body s) (l.foldlM body' t) := by
  induction l generalizing s t with
  | nil => exact h
  | cons x l ih =>
    rw [List.foldlM_cons, List.foldlM_cons]
    apply Relates.bind (hbody x List.mem_cons_self s t h)
    intro s' t' hs'
    exact ih (fun x' hx' => hbody x' (List.mem_cons_of_mem x hx')) hs'

end Loops

end Machine
