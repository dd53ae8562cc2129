import OdinAnalytics.Native.CashflowGen
import OdinAnalytics.Spec.DateRange
import OdinAnalytics.Spec.DayCountCorrect

/-!
# The street convention with a reset tenor of days

A flat coupon is a year fraction of the rate, and the year fraction divides by the
days of the convention's own year. The street convention looks the days of the year
up in a table of its own. The two tables differ in the two `30E/360` conventions.

## Key results

- `streetCoupon_iff`: when the two calculation types give the same coupon
-/

namespace OA.DerivedTime

open Machine OA.Time

/-! ## The days of a year -/

/-- The days that a convention divides by, if they are the same in every year. -/
def fixedYearDays : DayCountRule → Int
  | .kACT_365_FIXED => 365
  | _ => 360

/-- The conventions that `dayCountDenominator` does not list. -/
def Unlisted (rule : DayCountRule) : Prop :=
  rule = .k30_360_E_EUROBOND ∨ rule = .k30_E_360_ISDA

variable {F : Type} [IntCast F] [Add F] [Div F] [Neg F] {rule : DayCountRule}

/-- Every convention but `ACT/ACT` divides by a fixed number of days. -/
theorem yearFraction_eq_fractionOf {counter : DayCounterBase F}
    (hc : generateDayCounter rule = some counter) (hrule : rule ≠ .kACT_ACT) :
    counter.yearFraction = fractionOf counter.dayCount (fixedYearDays rule) := by
  cases rule with
  | kACT_ACT => exact absurd rfl hrule
  | kACTB_ACTB => cases hc
  | _ =>
    cases hc
    rfl

/-- The days of the year are those of the convention exactly if it is in the table. -/
theorem dayCountDenominator_eq_iff (hrule : rule ≠ .kACT_ACT) (hrule' : rule ≠ .kACTB_ACTB)
    (leapYear : Bool) :
    dayCountDenominator rule leapYear = fixedYearDays rule ↔ ¬ Unlisted rule := by
  unfold Unlisted
  cases rule with
  | kACT_ACT => exact absurd rfl hrule
  | kACTB_ACTB => exact absurd rfl hrule'
  | _ => simp [dayCountDenominator, fixedYearDays]

/-- No convention divides by zero days. -/
theorem dayCountDenominator_pos (rule : DayCountRule) (leapYear : Bool) :
    0 < dayCountDenominator rule leapYear := by
  cases rule <;> cases leapYear <;> decide

/-- A convention has days in its year. -/
theorem fixedYearDays_pos (rule : DayCountRule) : 0 < fixedYearDays rule := by
  cases rule <;> decide

/-! ## Coupons -/

/-- The two amounts are the same only for the same days of the year. -/
theorem unitCoupon_eq_iff (cf : CashflowStruct ℚ) {d D n : Int} (hd : 0 < d) (hD : 0 < D)
    (hn : 1 ≤ n) : unitCoupon cf d n = cf.notional * cf.rate * ((n : ℚ) / (D : ℚ)) ↔
      d = D ∨ cf.notional * cf.rate = 0 := by
  have hd' : (d : ℚ) ≠ 0 := by exact_mod_cast hd.ne'
  have hD' : (D : ℚ) ≠ 0 := by exact_mod_cast hD.ne'
  have hn' : (n : ℚ) ≠ 0 := by
    have : n ≠ 0 := by omega
    exact_mod_cast this
  unfold unitCoupon
  generalize cf.notional * cf.rate = x
  constructor
  · intro h
    -- without interest both coupons are zero, else the denominators must agree
    by_cases hx : x = 0
    · exact Or.inr hx
    · left
      push_cast at h
      field_simp at h
      exact_mod_cast h.symm
  · rintro (rfl | rfl)
    · push_cast
      field_simp
    · simp

/-- The year is told exactly of the days whose arithmetic does not overflow. -/
theorem inLeapYear_ok_iff {date : Date} :
    (∃ leapYear, date.inLeapYear = .ok leapYear) ↔
      minJulian ≤ date.julian ∧ date.julian ≤ maxJulian := by
  rw [← Date.ymd_ok_iff]
  unfold Date.inLeapYear Date.year Date.gregorian
  simp only [bind_eq_ok, pure, Except.pure]
  grind

/-- For a reset tenor of as many days as the period has, the street convention gives the
    flat coupon exactly if its table lists the convention, or the coupon is zero, and
    the year of the fixing date can be computed. -/
theorem streetCoupon_iff {counter : DayCounterBase ℚ} (hc : generateDayCounter rule = some counter)
    (hrule : rule ≠ .kACT_ACT) (cf : CashflowStruct ℚ) {n : Int} (hn : 1 ≤ n)
    (hdays : counter.dayCount cf.startDate cf.endDate = .ok n)
    (hfraction : (counter.yearFraction cf.startDate cf.endDate).Returns cf.dayCountFraction)
    (opts : Options) :
    computeCoupon cf ⟨n, .kDays⟩ { opts with calcType := .kUSTStreetConv } rule =
        computeCoupon cf ⟨n, .kDays⟩ { opts with calcType := .kFlat } rule ↔
      (¬ Unlisted rule ∨ cf.notional * cf.rate = 0) ∧
        minJulian ≤ cf.fixingDate.julian ∧ cf.fixingDate.julian ≤ maxJulian := by
  have hrule' : rule ≠ .kACTB_ACTB := by
    rintro rfl
    cases hc
  rw [yearFraction_eq_fractionOf hc hrule] at hfraction
  have hpost : Post (counter.dayCount cf.startDate cf.endDate) (fun _ => False) (· = n) := by
    rw [hdays]
    exact rfl
  -- the fraction of the rule is the count over the days of its year
  have hcf := (fractionOf_ends (fixedYearDays rule) hpost).of_returns hfraction
  rw [← inLeapYear_ok_iff]
  simp only [computeCoupon, computeUSTStreetConvCoupon]
  -- the convention asks for the leap year first, and faults with it
  cases hleap : cf.fixingDate.inLeapYear with
  | error f => simp
  | ok leapYear =>
    have hiff := unitCoupon_eq_iff cf (dayCountDenominator_pos rule leapYear)
      (fixedYearDays_pos rule) hn
    rw [dayCountDenominator_eq_iff hrule hrule', ← hcf] at hiff
    simpa using hiff

/-- Ten percent of 100 over January 2024. -/
def januaryCashflow (days : Int) : CashflowStruct ℚ where
  unadjStartDate := ⟨2460311⟩
  unadjEndDate := ⟨2460342⟩
  startDate := ⟨2460311⟩
  endDate := ⟨2460342⟩
  fixingDate := ⟨2460311⟩
  paymentDate := ⟨2460342⟩
  notional := 100
  rate := 1 / 10
  cashflowAmount := 0
  npvCashflowAmount := 0
  days := days
  dayCountFraction := (days : ℚ) / ((360 : Int) : ℚ)
  cfCurr := .kUSD
  cfType := .kFixed

/-- The coupon of January, by `ACT/360`. -/
theorem streetCoupon_iff_january :
    computeCoupon (januaryCashflow 31) ⟨31, .kDays⟩ { calcType := .kUSTStreetConv } .kACT_360 =
        computeCoupon (januaryCashflow 31) ⟨31, .kDays⟩ { calcType := .kFlat } .kACT_360 ↔
      (¬ Unlisted .kACT_360 ∨ (100 : ℚ) * (1 / 10) = 0) ∧
        minJulian ≤ (2460311 : Int) ∧ (2460311 : Int) ≤ maxJulian := by
  have hc : (generateDayCounter .kACT_360 : Option (DayCounterBase ℚ)) =
      some ⟨computeDayCountAct360, computeDayCountFractionAct360⟩ := rfl
  exact streetCoupon_iff hc (by decide) (januaryCashflow 31) (by decide) (by decide) ⟨0, rfl⟩ {}

/-- In the Eurobond convention, January pays for 30 days of a year of 365. -/
theorem not_streetCoupon_eurobond :
    ¬ ∀ (rule : DayCountRule) (counter : DayCounterBase ℚ) (cf : CashflowStruct ℚ) (n : Int)
      (opts : Options), generateDayCounter rule = some counter → rule ≠ .kACT_ACT → 1 ≤ n →
      counter.dayCount cf.startDate cf.endDate = .ok n →
      (counter.yearFraction cf.startDate cf.endDate).Returns cf.dayCountFraction →
      computeCoupon cf ⟨n, .kDays⟩ { opts with calcType := .kUSTStreetConv } rule =
        computeCoupon cf ⟨n, .kDays⟩ { opts with calcType := .kFlat } rule := by
  intro h
  have heq := h .k30_360_E_EUROBOND _ (januaryCashflow 30) 30 {} rfl (by decide) (by decide)
    (by decide) ⟨0, rfl⟩
  have hamount : unitCoupon (januaryCashflow 30) 365 30 = 100 * (1 / 10) * (30 / 360) :=
    congrArg CashflowStruct.cashflowAmount (Except.ok.inj heq)
  norm_num [unitCoupon, januaryCashflow] at hamount

end OA.DerivedTime
