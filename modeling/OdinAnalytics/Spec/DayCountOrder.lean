import OdinAnalytics.Spec.DayCountCorrect

/-!
# The order of day counts

Every convention counts the same days backwards with the opposite sign, and
counts more days the further the two dates are apart. For the conventions that
count along an axis this is monotonicity of the axis; in the bond basis the
second date is bent by the first one, and each date has its own argument.

## Key results

- `dayCount_order`: antisymmetry and monotonicity of every supported convention
-/

namespace OA.Time

open Machine Gregorian

/-! ## Axes -/

/-- Days counted along an axis of months of thirty days. -/
theorem thirtyDays_eq (a b dayA dayB : Int) :
    thirtyDays a b dayA dayB = (30 * monthIndex b + dayB) - (30 * monthIndex a + dayA) := by
  unfold thirtyDays
  omega

/-- Months of thirty days keep the order of days. -/
theorem euro_mono {a b : Int} (h : a ≤ b) :
    30 * monthIndex a + euroDay a ≤ 30 * monthIndex b + euroDay b := by
  have ha := euroDay_bounds a
  have hb := euroDay_bounds b
  rcases month_day_of_le h with hlt | ⟨heq, hle⟩
  · omega
  · unfold euroDay dayE360
    split <;> split <;> omega

/-- Months of thirty days, as ISDA counts them, keep the order of days. -/
theorem isda_mono {a b : Int} (h : a ≤ b) :
    30 * monthIndex a + isdaDay a ≤ 30 * monthIndex b + isdaDay b := by
  have ha := isdaDay_bounds a
  have hb := isdaDay_bounds b
  rcases month_day_of_le h with hlt | ⟨heq, hle⟩
  · omega
  · have hlast := dayOf_bounds b
    unfold isdaDay
    rw [heq]
    split <;> split <;> omega

/-! ## The bond basis -/

/-- There are no days between a day and itself. -/
theorem bondDays_self (a : Int) : bondDays a a = 0 := by
  have := dayOf_bounds a
  unfold bondDays thirtyDays
  split <;> omega

/-- The first date is kept, and bends the second one to the 30th or not. -/
theorem bondDays_mono_right (a : Int) {b c : Int} (h : b ≤ c) : bondDays a b ≤ bondDays a c := by
  have hb := dayOf_bounds b
  have hc := dayOf_bounds c
  unfold bondDays thirtyDays
  rcases month_day_of_le h with hlt | ⟨heq, hle⟩
  · split <;> split <;> omega
  · split <;> split <;> omega

/-- The second date is kept, and may be bent for one of the first dates only. -/
theorem bondDays_anti_left {a b : Int} (c : Int) (h : a ≤ b) : bondDays b c ≤ bondDays a c := by
  have ha := dayOf_bounds a
  have hb := dayOf_bounds b
  unfold bondDays thirtyDays
  rcases month_day_of_le h with hlt | ⟨heq, hle⟩
  · split <;> split <;> omega
  · split <;> split <;> omega

/-! ## All conventions -/

/-- Counting back is counting forward with the sign changed. -/
theorem daysBetween_neg (rule : DayCountRule) (a b : Int) :
    daysBetween rule b a = -daysBetween rule a b := by
  cases rule with
  | kACT_ACT | kACT_360 | kACT_365_FIXED | kACTB_ACTB => exact (neg_sub b a).symm
  | k30_360_BOND_BASIS =>
    -- the bond basis takes the earlier date first
    rcases lt_trichotomy a b with hlt | rfl | hgt
    · simp [daysBetween, hlt, hlt.not_gt]
    · simp [daysBetween, bondDays_self]
    · simp [daysBetween, hgt, hgt.not_gt]
  | k30_E_360_ISDA | k30_360_E_EUROBOND =>
    simp only [daysBetween, thirtyDays_eq]
    omega

/-- A later end has no fewer days. -/
theorem daysBetween_mono_right (rule : DayCountRule) {a b c : Int} (hab : a ≤ b) (hbc : b ≤ c) :
    daysBetween rule a b ≤ daysBetween rule a c := by
  cases rule with
  | kACT_ACT | kACT_360 | kACT_365_FIXED | kACTB_ACTB => exact Int.sub_le_sub_right hbc a
  | k30_360_BOND_BASIS =>
    -- the bond basis takes its dates in order
    rw [daysBetween, daysBetween, if_neg hab.not_gt, if_neg (hab.trans hbc).not_gt]
    exact bondDays_mono_right a hbc
  | k30_E_360_ISDA =>
    simp only [daysBetween, thirtyDays_eq]
    exact Int.sub_le_sub_right (isda_mono hbc) _
  | k30_360_E_EUROBOND =>
    simp only [daysBetween, thirtyDays_eq]
    exact Int.sub_le_sub_right (euro_mono hbc) _

/-- A later start has no more days. -/
theorem daysBetween_anti_left (rule : DayCountRule) {a b c : Int} (hab : a ≤ b) (hbc : b ≤ c) :
    daysBetween rule b c ≤ daysBetween rule a c := by
  cases rule with
  | kACT_ACT | kACT_360 | kACT_365_FIXED | kACTB_ACTB => exact Int.sub_le_sub_left hab c
  | k30_360_BOND_BASIS =>
    -- the bond basis takes its dates in order
    rw [daysBetween, daysBetween, if_neg hbc.not_gt, if_neg (hab.trans hbc).not_gt]
    exact bondDays_anti_left c hab
  | k30_E_360_ISDA =>
    simp only [daysBetween, thirtyDays_eq]
    exact Int.sub_le_sub_left (isda_mono hab) _
  | k30_360_E_EUROBOND =>
    simp only [daysBetween, thirtyDays_eq]
    exact Int.sub_le_sub_left (euro_mono hab) _

section DayCount

variable {F : Type} [IntCast F] [Add F] [Div F] [Neg F] {rule : DayCountRule}
  {counter : DayCounterBase F}

/-- In the supported range nothing overflows. -/
theorem dayCount_eq (hc : generateDayCounter rule = some counter) {a b : Date} (ha : 0 ≤ a.julian)
    (ha' : a.julian ≤ maxJulian) (hb : 0 ≤ b.julian) (hb' : b.julian ≤ maxJulian) :
    counter.dayCount a b = .ok (daysBetween rule a.julian b.julian) :=
  (dayCount_post (Or.inr ⟨ha', hb'⟩) ha hb hc).eq_ok

/-- Every supported convention counts from `b` to `a` the opposite of what it counts
    from `a` to `b`, and counts more days the later the second date and the earlier
    the first one is. -/
theorem dayCount_order (hc : generateDayCounter rule = some counter) :
    (∀ a b : Date, 0 ≤ a.julian → a.julian ≤ maxJulian → 0 ≤ b.julian → b.julian ≤ maxJulian →
      ∃ n, counter.dayCount a b = .ok n ∧ counter.dayCount b a = .ok (-n)) ∧
    (∀ a b c : Date, a ≤ b → b ≤ c → 0 ≤ a.julian → c.julian ≤ maxJulian →
      ∃ ab ac bc, counter.dayCount a b = .ok ab ∧ counter.dayCount a c = .ok ac ∧
        counter.dayCount b c = .ok bc ∧ 0 ≤ ab ∧ ab ≤ ac ∧ bc ≤ ac) := by
  constructor
  · -- antisymmetry
    intro a b ha ha' hb hb'
    refine ⟨_, dayCount_eq hc ha ha' hb hb', ?_⟩
    rw [dayCount_eq hc hb hb' ha ha', daysBetween_neg]
  · -- monotonicity in either date
    intro a b c hab hbc ha hc'
    have hab' : a.julian ≤ b.julian := hab
    have hbc' : b.julian ≤ c.julian := hbc
    have hb := ha.trans hab'
    have hb' := hbc'.trans hc'
    exact ⟨_, _, _, dayCount_eq hc ha (hab'.trans hb') hb hb',
      dayCount_eq hc ha (hab'.trans hb') (hb.trans hbc') hc',
      dayCount_eq hc hb hb' (hb.trans hbc') hc', daysBetween_nonneg rule hab',
      daysBetween_mono_right rule hab' hbc', daysBetween_anti_left rule hab' hbc'⟩

/-- The bond basis from the end of January over the end of February. -/
theorem dayCount_order_bond :
    ∃ n, computeDayCount30360 ⟨2460341⟩ ⟨2460370⟩ = .ok n ∧
      computeDayCount30360 ⟨2460370⟩ ⟨2460341⟩ = .ok (-n) := by
  have hc : generateDayCounter (F := ℚ) .k30_360_BOND_BASIS = some _ := rfl
  exact (dayCount_order hc).1 ⟨2460341⟩ ⟨2460370⟩ (by decide) (by decide) (by decide) (by decide)

end DayCount

end OA.Time
