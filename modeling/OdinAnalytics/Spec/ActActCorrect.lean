import OdinAnalytics.Spec.DayCountCorrect

/-!
# `ACT/ACT` on a time axis

The loop of `ACT/ACT` splits an interval at the ends of the years. What it adds up is
the difference of two points on a time axis on which every year has length one, so
nothing is left of the loop in the laws below.

## Key results

- `actAct_spec`: the year fraction is a difference of times, whatever the order
-/

namespace OA.Time

open Machine Gregorian

/-- The day of the year, counting from one. -/
def dayOfYear (j : Int) : Int := j - toDay (ofDay j).1 1 1 + 1

/-- The time of a day in years: its year, and the part of the year before it. -/
def timeInYears (j : Int) : ℚ :=
  (ofDay j).1 + (dayOfYear j - 1 : Int) / (if IsLeap (ofDay j).1 then 366 else 365)

/-- The time in years of the source's loop is the position of the day. -/
theorem timeInYears_eq (j : Int) : timeInYears j = position .kACT_ACT j := by
  have hdays : dayOfYear j - 1 = years.offset j := by
    unfold dayOfYear
    exact add_sub_cancel_right _ _
  have hlen : years.len (years.index j) = if IsLeap (ofDay j).1 then 366 else 365 := years_len _
  unfold timeInYears position
  rw [hdays, hlen]
  push_cast
  rfl

/-- The new year of a year is that year. -/
theorem timeInYears_newYear (y : Int) : timeInYears (toDay y 1 1) = y := by
  have hy : (ofDay (toDay y 1 1)).1 = y := by
    rw [ofDay_toDay (valid_newYear y)]
  unfold timeInYears dayOfYear
  rw [hy]
  simp

variable {a b : Int}

/-- The fraction of two day numbers is a difference of times. -/
theorem yearFractionOf_actAct (a b : Int) :
    yearFractionOf ℚ .kACT_ACT a b = timeInYears b - timeInYears a := by
  rw [timeInYears_eq, timeInYears_eq, yearFractionOf]
  split
  · next h =>
    rw [actActFraction_eq h.le]
    ring
  · next h => exact actActFraction_eq (not_lt.mp h)

/-- From day number zero on, the call returns this difference. -/
theorem computeDayCountFractionActAct_returns (ha : IsDayNumber a) (hb : IsDayNumber b) :
    (computeDayCountFractionActAct ⟨a⟩ ⟨b⟩ : Comp ℚ).Returns (timeInYears b - timeInYears a) := by
  have hends := computeDayCountFractionActAct_ends (F := ℚ) (E := fun _ => False)
    (Or.inr ⟨ha.2, hb.2⟩) ha.1 hb.1
  rw [yearFractionOf_actAct] at hends
  exact hends.returns_of_eq fun _ h => h.elim

/-- The year fraction is a difference of times, for dates in either order. So it changes
    its sign with the order, adds up over a date between, and counts new years. -/
theorem actAct_spec :
    (∀ a b, IsDayNumber a → IsDayNumber b →
      (computeDayCountFractionActAct ⟨a⟩ ⟨b⟩ : Comp ℚ).Returns (timeInYears b - timeInYears a)) ∧
    (∀ a b u v, IsDayNumber a → IsDayNumber b →
      (computeDayCountFractionActAct ⟨a⟩ ⟨b⟩ : Comp ℚ).Returns u →
      (computeDayCountFractionActAct ⟨b⟩ ⟨a⟩ : Comp ℚ).Returns v → v = -u) ∧
    (∀ a b c u v w, IsDayNumber a → IsDayNumber b → IsDayNumber c →
      (computeDayCountFractionActAct ⟨a⟩ ⟨b⟩ : Comp ℚ).Returns u →
      (computeDayCountFractionActAct ⟨b⟩ ⟨c⟩ : Comp ℚ).Returns v →
      (computeDayCountFractionActAct ⟨a⟩ ⟨c⟩ : Comp ℚ).Returns w → u + v = w) ∧
    (∀ y z : Int, IsDayNumber (toDay y 1 1) → IsDayNumber (toDay z 1 1) →
      (computeDayCountFractionActAct ⟨toDay y 1 1⟩ ⟨toDay z 1 1⟩ : Comp ℚ).Returns (z - y)) := by
  refine ⟨fun a b => computeDayCountFractionActAct_returns, ?_, ?_, ?_⟩
  · -- antisymmetry: both counts are differences of the same two times
    intro a b u v ha hb hu hv
    rw [hu.unique (computeDayCountFractionActAct_returns ha hb),
      hv.unique (computeDayCountFractionActAct_returns hb ha)]
    ring
  · -- additivity: the time in the middle cancels
    intro a b c u v w ha hb hc hu hv hw
    rw [hu.unique (computeDayCountFractionActAct_returns ha hb),
      hv.unique (computeDayCountFractionActAct_returns hb hc),
      hw.unique (computeDayCountFractionActAct_returns ha hc)]
    ring
  · intro y z hy hz
    -- a New Year is a whole number of years
    have h := computeDayCountFractionActAct_returns hy hz
    rwa [timeInYears_newYear, timeInYears_newYear] at h

end OA.Time
