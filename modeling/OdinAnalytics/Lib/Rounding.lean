import Mathlib.Order.Bounds.Basic

/-!
# Rounding in an order

An element is rounded up to the least, or down to the greatest, element that
satisfies a predicate. Which elements there are is left open: these are the facts
that hold whenever the element to round to exists.

## Key results

- `up_self`, `down_self`: an element that satisfies the predicate stays
- `up_mono`, `down_mono`: rounding keeps the order
- `up_imp`, `down_imp`: rounding to fewer elements leads further
- `up_eq_iff`, `down_eq_iff`: an element stays exactly if it satisfies the predicate
- `within_mono`: so does rounding up that turns back at the end of a block
-/

namespace Rounding

variable {α : Type*} [PartialOrder α] {p : α → Prop} {a b r s : α}

/-- What satisfies `p` is rounded up to itself. -/
theorem up_self (h : p a) : IsLeast {e | a ≤ e ∧ p e} a := ⟨⟨le_rfl, h⟩, fun _ he => he.1⟩

/-- What satisfies `p` is rounded down to itself. -/
theorem down_self (h : p a) : IsGreatest {e | e ≤ a ∧ p e} a := ⟨⟨le_rfl, h⟩, fun _ he => he.1⟩

/-- Rounding up keeps the order. -/
theorem up_mono (h : IsLeast {e | a ≤ e ∧ p e} r) (h' : IsLeast {e | b ≤ e ∧ p e} s)
    (hab : a ≤ b) : r ≤ s :=
  h.2 ⟨hab.trans h'.1.1, h'.1.2⟩

/-- Rounding down keeps the order. -/
theorem down_mono (h : IsGreatest {e | e ≤ a ∧ p e} r) (h' : IsGreatest {e | e ≤ b ∧ p e} s)
    (hab : a ≤ b) : r ≤ s :=
  h'.2 ⟨h.1.1.trans hab, h.1.2⟩

/-- Fewer elements to round to are further off. -/
theorem up_imp {q : α → Prop} (h : IsLeast {e | a ≤ e ∧ p e} r)
    (h' : IsLeast {e | a ≤ e ∧ q e} s) (hqp : ∀ e, q e → p e) : r ≤ s :=
  h.2 ⟨h'.1.1, hqp s h'.1.2⟩

/-- Fewer elements to round down to are further off as well. -/
theorem down_imp {q : α → Prop} (h : IsGreatest {e | e ≤ a ∧ p e} r)
    (h' : IsGreatest {e | e ≤ a ∧ q e} s) (hqp : ∀ e, q e → p e) : s ≤ r :=
  h.2 ⟨h'.1.1, hqp s h'.1.2⟩

/-- Rounding up changes nothing exactly where `p` holds. -/
theorem up_eq_iff (h : IsLeast {e | a ≤ e ∧ p e} r) : a = r ↔ p a := by
  constructor
  · rintro rfl
    exact h.1.2
  · intro hp
    exact (up_self hp).unique h

/-- Rounding down changes nothing exactly where `p` holds. -/
theorem down_eq_iff (h : IsGreatest {e | e ≤ a ∧ p e} r) : r = a ↔ p a := by
  constructor
  · rintro rfl
    exact h.1.2
  · intro hp
    exact h.unique (down_self hp)

/-! ## Rounding within blocks -/

section Blocks

variable {α β : Type*} [LinearOrder α] [PartialOrder β] {p : α → Prop} {block : α → β}
  {a b r s : α}

/-- Rounding up keeps the order even if it turns back and rounds down where it would leave the
    block. What is rounded up is to stay in its block, what is rounded down is to be at the end
    of its block. -/
theorem within_mono (hblock : Monotone block)
    (h : IsLeast {e | a ≤ e ∧ p e} r ∧ block r = block a ∨ IsGreatest {e | e ≤ a ∧ p e} r)
    (h' : IsLeast {e | b ≤ e ∧ p e} s ∨ IsGreatest {e | e ≤ b ∧ p e} s ∧
      ∀ n, IsLeast {e | b ≤ e ∧ p e} n → block n ≠ block b) (hab : a ≤ b) : r ≤ s := by
  rcases h with ⟨hr, hsame⟩ | hr
  · -- `a` was rounded up, within its own block
    rcases h' with hs | ⟨hs, hend⟩
    · exact up_mono hr hs hab
    · by_cases hrb : r ≤ b
      · exact hs.2 ⟨hrb, hr.1.2⟩
      · -- the same element is above both, and so is the block
        have hbr : b ≤ r := (not_le.mp hrb).le
        have hup : IsLeast {e | b ≤ e ∧ p e} r :=
          ⟨⟨hbr, hr.1.2⟩, fun e he => hr.2 ⟨hab.trans he.1, he.2⟩⟩
        have hblock_le : block r ≤ block b := by
          rw [hsame]
          exact hblock hab
        exact absurd (le_antisymm hblock_le (hblock hbr)) (hend r hup)
  · -- `a` was rounded down, so its result is at or before `a`
    rcases h' with hs | ⟨hs, -⟩
    · exact (hr.1.1.trans hab).trans hs.1.1
    · exact down_mono hr hs hab

end Blocks

end Rounding
