import Mathlib.Algebra.Ring.Nat
import Mathlib.Data.List.Lex
import Mathlib.Data.Nat.Basic
import Mathlib.Order.Defs.LinearOrder
import Mathlib.Order.Interval.Set.Basic
import Mathlib.Order.Monotone.Basic

/-!
# Numerals of a fixed width

The digits of a number to some base, the most significant one first, filled up with zeros to
a width. Numerals of one width are in the order of strings just when the numbers are in
order, whatever the digits look like, if the looks of the digits are in order.

## Key results

- `digits_eq_map`: each digit by itself
- `map_digits_lt_iff`: the order of numerals
-/

namespace Radix

variable {b n v w : ℕ}

/-- The lowest `n` digits of a number to base `b`, the most significant one first. -/
def digits (b : ℕ) : ℕ → ℕ → List ℕ
  | 0, _ => []
  | n + 1, v => v / b ^ n % b :: digits b n v

/-- Each digit by itself, with its weight. -/
theorem digits_eq_map (b n v : ℕ) :
    digits b n v = (List.range n).map fun k => v / b ^ (n - 1 - k) % b := by
  induction n with
  | zero => rfl
  | succ n ih =>
    rw [digits, ih, List.range_succ_eq_map, List.map_cons, List.map_map]
    refine congrArg₂ List.cons rfl (List.map_congr_left fun k hk => ?_)
    rw [List.mem_range] at hk
    have hexp : n + 1 - 1 - (k + 1) = n - 1 - k := by omega
    rw [Function.comp_apply, Nat.succ_eq_add_one, hexp]

/-- Numbers in two parts, where the lower part is below the weight of the upper one. -/
theorem add_mul_lt_iff {p q q' r r' : ℕ} (hr : r < p) (hr' : r' < p) :
    r + p * q < r' + p * q' ↔ q < q' ∨ q = q' ∧ r < r' := by
  rcases lt_trichotomy q q' with hlt | rfl | hgt
  · -- a larger digit is worth more than any rest
    have hmul : p * (q + 1) ≤ p * q' := Nat.mul_le_mul_left p hlt
    rw [Nat.mul_succ] at hmul
    exact iff_of_true (by omega) (Or.inl hlt)
  · simp
  · have hmul : p * (q' + 1) ≤ p * q := Nat.mul_le_mul_left p hgt
    rw [Nat.mul_succ] at hmul
    exact iff_of_false (by omega) (by omega)

section Order

variable {α : Type} [LinearOrder α] {f : ℕ → α}

/-- By induction on the width: the first digits decide unless they agree. -/
theorem map_digits_lt_iff_mod (hb : 0 < b) (hf : StrictMonoOn f (Set.Iio b)) :
    (digits b n v).map f < (digits b n w).map f ↔ v % b ^ n < w % b ^ n := by
  induction n with
  | zero => simp [digits, Nat.mod_one]
  | succ n ih =>
    have hmod : ∀ u, u % b ^ n < b ^ n := fun u => Nat.mod_lt u (Nat.pow_pos hb)
    have hdigit : ∀ u, u / b ^ n % b ∈ Set.Iio b := fun u => Nat.mod_lt _ hb
    -- the leading digit decides, or the rest does
    rw [digits, digits, List.map_cons, List.map_cons, List.cons_lt_cons_iff, ih,
      hf.lt_iff_lt (hdigit v) (hdigit w), hf.eq_iff_eq (hdigit v) (hdigit w), Nat.pow_succ,
      Nat.mod_mul, Nat.mod_mul]
    exact (add_mul_lt_iff (hmod v) (hmod w)).symm

/-- Digits that keep their order as symbols keep the strict order of numbers. -/
theorem map_digits_lt_iff (hb : 0 < b) (hf : StrictMonoOn f (Set.Iio b)) (hv : v < b ^ n)
    (hw : w < b ^ n) : (digits b n v).map f < (digits b n w).map f ↔ v < w := by
  rw [map_digits_lt_iff_mod hb hf, Nat.mod_eq_of_lt hv, Nat.mod_eq_of_lt hw]

end Order

end Radix
