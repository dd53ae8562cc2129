import OdinAnalytics.Lib.DateShift
import Mathlib.Data.Nat.Find
import Mathlib.Tactic.Ring

/-!
# Roll dates

The dates that are whole numbers of periods away from an anchor, each computed
from the anchor, and next to them the date one period after each, computed from
that date. A positive number of units in the period rolls forward, a negative one
backward. Where moving clamps, the two computations may disagree: the date one
period after a roll date may fall short of the next roll date.

## Key results

- `roll_strictMono`, `roll_strictAnti`: the roll dates are ordered
- `rollNext_le`: the date one period on never passes the next roll date
- `exists_spans`: a roll leaves every bounded range
- `rollNext_eq`, `roll_neg`: rolling from a date that no move clamps
-/

namespace DateShift

variable (S : DateShift) (c a : ℤ)

/-- The `i`-th roll date, `i` periods of `c` units from the anchor `a`. -/
def roll (i : ℕ) : ℤ := S.shift (c * i) a

/-- One period from the `i`-th roll date. -/
def rollNext (i : ℕ) : ℤ := S.shift c (S.roll c a i)

/-- The roll dates begin at the anchor. -/
@[simp] theorem roll_zero : S.roll c a 0 = a := by simp [roll, S.shift_zero]

variable {S c a}

/-- Roll dates of a positive count rise. -/
theorem roll_strictMono (hc : 0 < c) : StrictMono (S.roll c a) := by
  intro i j h
  exact S.strictMono_count a (mul_lt_mul_of_pos_left (by exact_mod_cast h) hc)

/-- Roll dates of a negative count fall. -/
theorem roll_strictAnti (hc : c < 0) : StrictAnti (S.roll c a) := by
  intro i j h
  exact S.strictMono_count a (mul_lt_mul_of_neg_left (by exact_mod_cast h) hc)

/-- A count that is not negative rolls to no earlier date. -/
theorem le_roll (hc : 0 ≤ c) (i : ℕ) : a ≤ S.roll c a i := by
  have h := (S.strictMono_count a).monotone (mul_nonneg hc (Nat.cast_nonneg (α := ℤ) i))
  exact (S.shift_zero a).symm.trans_le h

/-- Without a positive count no roll date comes after the anchor. -/
theorem roll_le (hc : c ≤ 0) (i : ℕ) : S.roll c a i ≤ a := by
  have h := (S.strictMono_count a).monotone
    (mul_nonpos_of_nonpos_of_nonneg hc (Nat.cast_nonneg (α := ℤ) i))
  exact h.trans_eq (S.shift_zero a)

/-- Moving on from a roll date leads no further than to the next one. -/
theorem rollNext_le (i : ℕ) : S.rollNext c a i ≤ S.roll c a (i + 1) := by
  have h := S.shift_shift_le c (c * i) a
  rwa [← mul_add_one, ← Nat.cast_succ] at h

/-- Moving on with a positive count leads to a later date. -/
theorem lt_rollNext (hc : 0 < c) (i : ℕ) : S.roll c a i < S.rollNext c a i := S.lt_shift hc _

/-- Moving on with a negative count leads to an earlier date. -/
theorem rollNext_lt (hc : c < 0) (i : ℕ) : S.rollNext c a i < S.roll c a i := S.shift_lt hc _

/-- Each roll date forward is at least a day after the one before. -/
theorem add_le_roll (hc : 0 < c) (k : ℕ) : a + k ≤ S.roll c a k := by
  induction k with
  | zero => simp
  | succ k ih =>
    have h : S.roll c a k < S.roll c a (k + 1) := roll_strictMono hc (Nat.lt_succ_self k)
    push_cast
    omega

/-- Falling roll dates fall by at least a day each. -/
theorem roll_le_sub (hc : c < 0) (k : ℕ) : S.roll c a k ≤ a - k := by
  induction k with
  | zero => simp
  | succ k ih =>
    have h : S.roll c a (k + 1) < S.roll c a k := roll_strictAnti hc (Nat.lt_succ_self k)
    push_cast
    omega

/-! ## Leaving a range -/

variable (S c a)

/-- The first `k` roll dates are in a range and the next one is not. -/
structure Spans (p : ℤ → Prop) (k : ℕ) : Prop where
  inside : ∀ i < k, p (S.roll c a i)
  outside : ¬ p (S.roll c a k)

variable {S c a} {p : ℤ → Prop} {k : ℕ}

/-- The first roll date that does not satisfy `p`, if there is one. -/
theorem exists_spans [DecidablePred p] (h : ∃ k, ¬ p (S.roll c a k)) : ∃ k, S.Spans c a p k :=
  ⟨Nat.find h, fun _ hi => not_not.mp (Nat.find_min h hi), Nat.find_spec h⟩

/-- Rising roll dates reach any bound. -/
theorem exists_spans_lt (hc : 0 < c) (b : ℤ) : ∃ k, S.Spans c a (· < b) k := by
  refine exists_spans ⟨(b - a).toNat, ?_⟩
  -- a day for each period is enough to get from `a` to `b`
  have := add_le_roll (S := S) (a := a) hc (b - a).toNat
  omega

/-- Falling roll dates reach any bound. -/
theorem exists_spans_gt (hc : c < 0) (b : ℤ) : ∃ k, S.Spans c a (b < ·) k := by
  refine exists_spans ⟨(a - b).toNat, ?_⟩
  have := roll_le_sub (S := S) (a := a) hc (a - b).toNat
  omega

/-- An anchor that satisfies `p` is in the span. -/
theorem Spans.pos (h : S.Spans c a p k) (ha : p a) : 0 < k := by
  rcases Nat.eq_zero_or_pos k with rfl | hk
  · exact absurd (by simpa using ha) h.outside
  · exact hk

/-- In a range that a roll cannot enter again, the roll dates are the first `k`. -/
theorem Spans.lt_iff (h : S.Spans c a p k)
    (hp : ∀ i j, i ≤ j → p (S.roll c a j) → p (S.roll c a i)) {i : ℕ} :
    i < k ↔ p (S.roll c a i) := by
  constructor
  · exact h.inside i
  · intro hi
    -- beyond the first date outside, a date of the range would bring that one back
    by_contra hk
    exact h.outside (hp k i (by omega) hi)

/-! ## Dates that are not clamped -/

variable (S) in
/-- From this date, moving twice is moving by the sum. -/
def AddsFrom (j : ℤ) : Prop := ∀ n m, S.shift n (S.shift m j) = S.shift (m + n) j

/-- Days add up. -/
theorem addsFrom_days (c : ℤ) (hc : 0 < c) (j : ℤ) : (days c hc).AddsFrom j := by
  intro n m
  show j + c * m + c * n = j + c * (m + n)
  rw [mul_add, add_assoc]

/-- Where no interval is too short for the offset, intervals add up. -/
theorem addsFrom_ofTiling {T : Tiling} {j : ℤ} (h : ∀ i, T.offset j < T.len i) :
    (ofTiling T).AddsFrom j := fun n m => T.shift_shift_eq h n m

/-- What adds up also adds up in larger units. -/
theorem AddsFrom.scale {j : ℤ} (h : S.AddsFrom j) (c : ℤ) (hc : 0 < c) :
    (S.scale c hc).AddsFrom j := by
  intro n m
  show S.shift (c * n) (S.shift (c * m) j) = S.shift (c * (m + n)) j
  rw [h, mul_add]

/-- The date one period on is the next roll date. -/
theorem rollNext_eq (h : S.AddsFrom a) (i : ℕ) : S.rollNext c a i = S.roll c a (i + 1) := by
  rw [rollNext, roll, h, ← mul_add_one, ← Nat.cast_succ]
  rfl

/-- Rolling back from the last of `k` periods passes the same dates. -/
theorem roll_neg (h : S.AddsFrom a) {i k : ℕ} (hi : i ≤ k) :
    S.roll (-c) (S.roll c a k) i = S.roll c a (k - i) := by
  rw [roll, roll, h, roll]
  -- the counts of the two rolls
  congr 1
  push_cast [hi]
  ring

/-- Moving back from a roll date leads through the roll dates before it. -/
theorem rollNext_neg (h : S.AddsFrom a) {i k : ℕ} (hi : i < k) :
    S.rollNext (-c) (S.roll c a k) i = S.roll c a (k - (i + 1)) := by
  rw [rollNext, roll_neg h hi.le, roll, h, roll]
  congr 1
  have : ((k - (i + 1) : ℕ) : ℤ) = ((k - i : ℕ) : ℤ) - 1 := by omega
  rw [this]
  ring

end DateShift
