import OdinAnalytics.Spec.CouponCorrect
import Mathlib.Data.List.Chain
import Mathlib.Data.List.Range

/-!
# Contiguous accrual periods

Without stubs, a period ends one reset tenor after its start date going forward,
and starts one before its end date going backward. Both are computed from a date
that may have been clamped to the end of its month, so a neighbouring period,
computed from the anchor, need not meet it.

## Key results

- `farDate_eq_iff`: when a period meets the next roll date
- `couponPeriods_contiguous_iff`: when all coupon flows are contiguous
-/

namespace OA.DerivedTime

open Machine OA.Time Gregorian

/-- Each period ends on the day the next one starts. -/
def Contiguous (periods : List (Date × Date)) : Prop := periods.IsChain fun p q => p.2 = q.1

instance : DecidablePred Contiguous := fun periods => by
  unfold Contiguous
  infer_instance

namespace Deal

variable {d : Deal} {k : Nat}

/-- The number of days in the month of a day. -/
def lastDayOfMonth (j : Int) : Int := months.len (monthIndex j)

/-- The roll dates in months after the anchor keep its day: a roll date inside the
    deal falls on no later day of its month than the month of the roll date
    before it has. -/
def KeepsRollDay (d : Deal) : Prop :=
  d.resetFreq.unit = .kDays ∨ d.resetFreq.unit = .kWeeks ∨
    ∀ i, d.Inside (d.rollDate (i + 1)) →
      min (dayOf d.anchor) (lastDayOfMonth (d.rollDate (i + 1))) ≤ lastDayOfMonth (d.rollDate i)

/-- Moving by a calendar unit is moving by whole months. -/
theorem unit_eq_months (h₁ : d.resetFreq.unit ≠ .kDays) (h₂ : d.resetFreq.unit ≠ .kWeeks) :
    ∃ c, ∀ n j, d.unit.shift n j = months.shift (c * n) j := by
  unfold unit
  cases hu : d.resetFreq.unit with
  | kDays => exact absurd hu h₁
  | kWeeks => exact absurd hu h₂
  | kMonths => exact ⟨1, fun n j => by rw [one_mul]; rfl⟩
  | kYears => exact ⟨12, fun n j => rfl⟩

/-- Days and weeks, and days of the month that every month has, are never clamped. -/
theorem addsFrom_anchor (h : d.resetFreq.unit = .kDays ∨ d.resetFreq.unit = .kWeeks ∨
    dayOf d.anchor ≤ 28) : d.unit.AddsFrom d.anchor := by
  have hmonths : dayOf d.anchor ≤ 28 → (DateShift.ofTiling months).AddsFrom d.anchor := by
    intro hday
    apply DateShift.addsFrom_ofTiling
    intro i
    -- no month is shorter than 28 days
    have := le_monthLength (i / 12) (i % 12 + 1)
    rw [months_len]
    unfold dayOf at hday
    omega
  unfold unit
  cases hu : d.resetFreq.unit with
  | kDays => exact DateShift.addsFrom_days 1 (by decide) _
  | kWeeks => exact DateShift.addsFrom_days 7 (by decide) _
  | kMonths => exact hmonths (by simpa [hu] using h)
  | kYears => exact (hmonths (by simpa [hu] using h)).scale 12 (by decide)

/-- Days and weeks are never clamped. -/
theorem farDate_eq_of_days (h : d.resetFreq.unit = .kDays ∨ d.resetFreq.unit = .kWeeks) (i : Nat) :
    d.farDate i = d.rollDate (i + 1) :=
  DateShift.rollNext_eq (addsFrom_anchor (h.imp_right Or.inl)) i

/-- A period meets the next roll date if the day that this roll date falls on
    exists in the month of the roll date before it. -/
theorem farDate_eq_iff (h₁ : d.resetFreq.unit ≠ .kDays) (h₂ : d.resetFreq.unit ≠ .kWeeks)
    (i : Nat) : d.farDate i = d.rollDate (i + 1) ↔
      min (dayOf d.anchor) (lastDayOfMonth (d.rollDate (i + 1))) ≤
        lastDayOfMonth (d.rollDate i) := by
  obtain ⟨c, hc⟩ := unit_eq_months h₁ h₂
  have hi : d.rollDate i = months.shift (c * (d.stride * i)) d.anchor := hc _ _
  have hnext : d.rollDate (i + 1) = months.shift (c * (d.stride * i) + c * d.stride) d.anchor := by
    rw [← mul_add, ← mul_add_one, ← Nat.cast_succ]
    exact hc _ _
  have hfar : d.farDate i = months.shift (c * d.stride) (d.rollDate i) := hc _ _
  -- two moves against one, over the same months
  rw [hfar, hnext, hi, months.shift_shift_eq_iff]
  simp only [lastDayOfMonth, dayOf, ← months_index, months.index_shift]
  omega

/-- Periods meet exactly where moving on from a roll date leads to the next one. -/
theorem contiguous_periods_iff :
    Contiguous (d.periods k) ↔ ∀ i, i + 1 < k → d.farDate i = d.rollDate (i + 1) := by
  unfold Contiguous periods period
  cases d.dateDir with
  | kForward =>
    simp only [List.isChain_map, List.isChain_range, Date.mk.injEq, Nat.succ_eq_add_one]
    exact ⟨fun h i hi => h i (by omega), fun h i hi => h i (by omega)⟩
  | kBackward =>
    -- in chronological order, the period after the `i + 1`-st is the `i`-th
    simp only [List.isChain_reverse, List.isChain_map, List.isChain_range, Date.mk.injEq,
      Nat.succ_eq_add_one]
    exact ⟨fun h i hi => (h i (by omega)).symm, fun h i hi => (h i (by omega)).symm⟩

/-- That is so exactly if the day of the month is kept. -/
theorem contiguous_iff_keepsRollDay (hk : d.HasPeriods k) (hn : 0 < d.resetFreq.count) :
    Contiguous (d.periods k) ↔ d.KeepsRollDay := by
  rw [contiguous_periods_iff]
  unfold KeepsRollDay
  by_cases h₁ : d.resetFreq.unit = .kDays
  · exact ⟨fun _ => Or.inl h₁, fun _ i _ => farDate_eq_of_days (Or.inl h₁) i⟩
  by_cases h₂ : d.resetFreq.unit = .kWeeks
  · exact ⟨fun _ => Or.inr (Or.inl h₂), fun _ i _ => farDate_eq_of_days (Or.inr h₂) i⟩
  simp only [h₁, h₂, false_or, hk.lt_iff hn, farDate_eq_iff h₁ h₂]

end Deal

/-! ## Schedules without stubs -/

section Plain

variable {F : Type} [IntCast F] [Add F] [Mul F] [Div F] [Neg F] {notional rate : F}
  {rule : DayCountRule} {opts : Options} {d : Deal} {k : Nat} {cfs : List (CashflowStruct F)}

/-- Without a stub the schedule stays as it was generated. -/
theorem applyStubs_none (hf : opts.frontStubType = .kNone) (hb : opts.backStubType = .kNone)
    (s m : Date) (g : Schedule) : applyStubs s m opts g = .ok g := by
  unfold applyStubs
  simp [hf, hb]

/-- Without stubs, the coupon flows have the periods of the schedule loop. -/
theorem couponPeriods_plain (hdir : opts.dateDir = d.dateDir) (hf : opts.frontStubType = .kNone)
    (hb : opts.backStubType = .kNone) (hk : d.HasPeriods k) (hnn : d.GeneratedNonneg)
    (h : (createFixedCashflows d.startDate d.matDate d.resetFreq notional rate rule opts).Returns
      cfs) : couponPeriods cfs = d.periods k := by
  obtain ⟨coupons, last, hall, -, rfl⟩ := createFixedCashflows_returns_dates
    (generateDates_ends_stubs trivial hdir hk hnn (applyStubs_none hf hb _ _ _)) h
  rw [couponPeriods_eq hall, Deal.gridDates_periods]

/-- Without stubs and adjustments, the call ends. -/
theorem createFixedCashflows_ends_plain {E : Fault → Prop} (hE : E .overflow)
    (hopts : Unadjusted opts) (hdir : opts.dateDir = d.dateDir)
    (hf : opts.frontStubType = .kNone) (hb : opts.backStubType = .kNone)
    (hcalc : opts.calcType ≠ .kCompounding) (hrule : rule ≠ .kACTB_ACTB)
    (hlt : d.startDate < d.matDate) (hk : d.HasPeriods k) (hnn : d.GeneratedNonneg) :
    (createFixedCashflows d.startDate d.matDate d.resetFreq notional rate rule opts).Ends E
      fun _ => True := by
  obtain ⟨hs, he⟩ := d.gridDates_length k
  refine createFixedCashflows_ends_unadjusted hE hopts hcalc hrule hlt.le
    (generateDates_ends_stubs hE hdir hk hnn (applyStubs_none hf hb _ _ _)) (hs.trans he.symm) ?_
  rw [← List.length_pos_iff, hs]
  exact hk.pos hlt

/-- With default options, the coupon flows are contiguous exactly when the roll
    dates keep the day of the anchor. -/
theorem couponPeriods_contiguous_iff (hlt : d.startDate < d.matDate) (hn : 0 < d.resetFreq.count)
    (hnn : d.GeneratedNonneg) :
    (∀ cfs, (createFixedCashflows d.startDate d.matDate d.resetFreq notional rate rule
        { dateDir := d.dateDir }).Returns cfs →
      (Contiguous (couponPeriods cfs) ↔ d.KeepsRollDay)) ∧
    (rule ≠ .kACTB_ACTB → ¬ (createFixedCashflows d.startDate d.matDate d.resetFreq notional rate
        rule { dateDir := d.dateDir }).Faults .overflow →
      ∃ cfs, (createFixedCashflows d.startDate d.matDate d.resetFreq notional rate rule
        { dateDir := d.dateDir }).Returns cfs) := by
  obtain ⟨k, hk⟩ := Deal.exists_periods hn
  constructor
  · -- what is returned has the periods of the roll dates
    intro cfs hcfs
    rw [couponPeriods_plain rfl rfl rfl hk hnn hcfs, Deal.contiguous_iff_keepsRollDay hk hn]
  · intro hrule hof
    -- the call ends without accessing anything it has not got
    have hends : (createFixedCashflows d.startDate d.matDate d.resetFreq notional rate rule
        { dateDir := d.dateDir }).Ends (· = .overflow) fun _ => True :=
      createFixedCashflows_ends_plain rfl ⟨rfl, rfl, rfl, rfl⟩ rfl rfl rfl nofun hrule hlt hk hnn
    obtain ⟨cfs, hcfs, -⟩ := hends.exists_returns_unless hof
    exact ⟨cfs, hcfs⟩

end Plain

/-- A monthly schedule from the 15th. -/
theorem couponPeriods_contiguous_iff_mid_month :
    (⟨2460691⟩ : Date) < ⟨2460811⟩ ∧ ∃ cfs, (createFixedCashflows (F := ℚ) ⟨2460691⟩ ⟨2460811⟩
      ⟨1, .kMonths⟩ 100 (1 / 20) .kACT_ACT { dateDir := .kForward }).Returns cfs ∧
      (Contiguous (couponPeriods cfs) ↔
        Deal.KeepsRollDay ⟨.kForward, ⟨2460691⟩, ⟨2460811⟩, ⟨1, .kMonths⟩⟩) := by
  obtain ⟨cfs, hcfs, -⟩ := Comp.exists_returns_of_run (g := couponPeriods) (b :=
      [(⟨2460691⟩, ⟨2460722⟩), (⟨2460722⟩, ⟨2460750⟩), (⟨2460750⟩, ⟨2460781⟩),
        (⟨2460781⟩, ⟨2460811⟩)]) 5
    (c := createFixedCashflows (F := ℚ) ⟨2460691⟩ ⟨2460811⟩ ⟨1, .kMonths⟩ 100 (1 / 20) .kACT_ACT
      { dateDir := .kForward }) (by decide +kernel)
  exact ⟨by decide, cfs, hcfs, (couponPeriods_contiguous_iff
    (d := ⟨.kForward, ⟨2460691⟩, ⟨2460811⟩, ⟨1, .kMonths⟩⟩) (by decide) (by decide)
    (Deal.generatedNonneg_forward (by decide) (by decide))).1 cfs hcfs⟩

/-- From the 31st of January, the second monthly period ends on the 28th of March
    and the third one starts on the 31st. -/
theorem couponPeriods_month_end_gap :
    (⟨2460707⟩ : Date) < ⟨2460827⟩ ∧
    Deal.GeneratedNonneg ⟨.kForward, ⟨2460707⟩, ⟨2460827⟩, ⟨1, .kMonths⟩⟩ ∧
    ∃ cfs, (createFixedCashflows (F := ℚ) ⟨2460707⟩ ⟨2460827⟩ ⟨1, .kMonths⟩ 100 (1 / 20) .kACT_ACT
      { dateDir := .kForward }).Returns cfs ∧ ¬ Contiguous (couponPeriods cfs) := by
  obtain ⟨cfs, hcfs, hperiods⟩ := Comp.exists_returns_of_run (g := couponPeriods) (b :=
      [(⟨2460707⟩, ⟨2460735⟩), (⟨2460735⟩, ⟨2460763⟩), (⟨2460766⟩, ⟨2460796⟩),
        (⟨2460796⟩, ⟨2460826⟩)]) 5
    (c := createFixedCashflows (F := ℚ) ⟨2460707⟩ ⟨2460827⟩ ⟨1, .kMonths⟩ 100 (1 / 20) .kACT_ACT
      { dateDir := .kForward }) (by decide +kernel)
  refine ⟨by decide, Deal.generatedNonneg_forward (by decide) (by decide), cfs, hcfs, ?_⟩
  rw [hperiods]
  decide

end OA.DerivedTime
