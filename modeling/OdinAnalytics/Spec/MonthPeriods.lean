import OdinAnalytics.Spec.DayCountCorrect
import OdinAnalytics.Spec.TenorArith

/-!
# Periods of months in months of thirty days

Adding months keeps the day of the month or clamps it to the end of the month. The
conventions of thirty days cut both days at the 30th, so they see the clamping in
February only, and do not see which of the two days was cut.

## Key results

- `monthPeriod_spec`: the days of a period of months by the bond and Eurobond basis
-/

namespace OA.Time

open Machine Gregorian

variable {a b n : Int}

/-- Months later the day is the same, or the last one of a shorter month. -/
theorem dayOf_shift (n a : Int) :
    dayOf (months.shift n a) = min (dayOf a) (months.len (monthIndex a + n)) := by
  unfold dayOf
  rw [months.offset_shift, months_index]
  omega

/-- The Eurobond day is cut at thirty. -/
theorem euroDay_eq_min (j : Int) : euroDay j = min (dayOf j) 30 := by
  have := dayOf_bounds j
  unfold euroDay dayE360
  split <;> omega

/-- From a day to one that is not later in its month, the two bases agree. -/
theorem bondDays_eq_of_dayOf_le (h : dayOf b ≤ dayOf a) :
    bondDays a b = thirtyDays a b (euroDay a) (euroDay b) := by
  have := dayOf_bounds a
  have := dayOf_bounds b
  rw [euroDay_eq_min, euroDay_eq_min]
  unfold bondDays thirtyDays
  split <;> omega

/-- The count over whole months, and what clamping takes from it. -/
theorem thirtyDays_shift (n a : Int) :
    thirtyDays a (months.shift n a) (euroDay a) (euroDay (months.shift n a)) =
      30 * n + min (dayOf (months.shift n a)) 30 - min (dayOf a) 30 := by
  unfold thirtyDays
  rw [Date.monthIndex_shift, euroDay_eq_min, euroDay_eq_min]
  omega

/-- Only February is shorter than thirty days. -/
theorem len_eq_february (i : Int) : i % 12 = 1 ∧ months.len i ≤ 29 ∨
    i % 12 ≠ 1 ∧ 30 ≤ months.len i := by
  rw [months_len]
  unfold monthLength
  split
  · split
    · omega
    · omega
  · split
    · omega
    · omega

/-- Cut at the 30th, a day that is placed in another month differs only if it was
    clamped to the end of February. -/
theorem min_dayOf_shift_iff (n a : Int) :
    min (dayOf (months.shift n a)) 30 = min (dayOf a) 30 ↔
      ¬ (monthIndex (months.shift n a) % 12 + 1 = 2 ∧ dayOf (months.shift n a) < dayOf a) := by
  have ha := dayOf_bounds a
  have hfeb := len_eq_february (monthIndex a + n)
  have hlen := len_bounds (monthIndex a + n)
  rw [dayOf_shift, Date.monthIndex_shift]
  omega

/-- A period of months counts the same days in the bond and the Eurobond basis: thirty
    for each month and the difference of the days, cut at the 30th. These are thirty
    for each month exactly if the day was not clamped to the end of February. -/
theorem monthPeriod_spec {d e : Date} (hd : IsDayNumber d.julian) (he : IsDayNumber e.julian)
    (hn : 0 ≤ n) (hadd : d.addTenor ⟨n, .kMonths⟩ = .ok e) :
    ∃ y m day y' m' day' days, d.gregorian = .ok (y, m, day) ∧ e.gregorian = .ok (y', m', day') ∧
      computeDayCount30360 d e = .ok days ∧ computeDayCount30E360 d e = .ok days ∧
      days = 30 * n + min day' 30 - min day 30 ∧
      (days = 30 * n ↔ ¬ (m' = 2 ∧ day' < day)) := by
  obtain ⟨a⟩ := d
  -- the end date is the start date shifted by whole months
  have hshift : e.julian = months.shift n a := Date.addTenor_shift hd.1 hadd he.1
  obtain ⟨b⟩ := e
  obtain rfl : b = months.shift n a := hshift
  have hle : a ≤ months.shift n a := by
    have hmono := (months.shift_strictMono_count a).monotone hn
    simpa only [months.shift_zero] using hmono
  have hbond := (computeDayCount30360_post (Or.inr ⟨hd.2, he.2⟩) hd.1 he.1).eq_ok
  have heuro := (computeDayCount30E360_post (Or.inr ⟨hd.2, he.2⟩) hd.1 he.1).eq_ok
  -- the day may only be clamped down, so both rules count alike
  have hday : dayOf (months.shift n a) ≤ dayOf a := (dayOf_shift n a).trans_le (min_le_left _ _)
  rw [if_neg (not_lt.mpr hle), bondDays_eq_of_dayOf_le hday, thirtyDays_shift] at hbond
  rw [thirtyDays_shift] at heuro
  have hiff := min_dayOf_shift_iff n a
  refine ⟨_, _, dayOf a, _, monthIndex (months.shift n a) % 12 + 1, dayOf (months.shift n a), _,
    Date.ymd_eq hd.1 hd.2, Date.ymd_eq he.1 he.2, hbond, heuro, rfl, ?_⟩
  refine Iff.trans ?_ hiff
  omega

/-- From the last day of January to the end of a February. -/
theorem monthPeriod_spec_february :
    ∃ y m day y' m' day' days, Date.gregorian ⟨2460341⟩ = .ok (y, m, day) ∧
      Date.gregorian ⟨2460370⟩ = .ok (y', m', day') ∧
      computeDayCount30360 ⟨2460341⟩ ⟨2460370⟩ = .ok days ∧
      computeDayCount30E360 ⟨2460341⟩ ⟨2460370⟩ = .ok days ∧
      days = 30 * 1 + min day' 30 - min day 30 ∧
      (days = 30 * 1 ↔ ¬ (m' = 2 ∧ day' < day)) :=
  monthPeriod_spec (d := ⟨2460341⟩) (e := ⟨2460370⟩) (by unfold IsDayNumber; decide)
    (by unfold IsDayNumber; decide) (by decide) (by decide)

end OA.Time
