import OdinAnalytics.Spec.Contiguity
import OdinAnalytics.Spec.Stubs
import Mathlib.Algebra.BigOperators.Ring.List

/-!
# Amounts that add up

With a short stub and an anchor that no move clamps, the periods of a schedule are
contiguous and cover the deal. An additive day count then gives the year fraction
of the whole deal when it is summed up over the periods, and flat coupons are
year fractions times notional times rate. Below day 0, where the conversions of
`Date` are not the calendar's, that still holds for tenors in days and weeks and for
conventions that do not split years; other schedules can have gaps there.

## Key results

- `sum_of_contiguous`: differences of times telescope
- `createFixedCashflows_amounts_sum`: the coupons add up to one coupon over the deal
-/

namespace OA.DerivedTime

open Machine OA.Time

/-! ## Contiguous periods with a short stub -/

namespace Deal

variable {d : Deal} {k : Nat}

/-- The short stub comes before or after the full periods. -/
theorem shortPeriods_eq : d.shortPeriods k =
    match d.dateDir with
    | .kForward => d.periods k ++ [d.stub k]
    | .kBackward => d.stub k :: d.periods k := by
  unfold shortPeriods periods
  split <;> simp [*]

/-- The whole periods meet the stub. -/
theorem shortPeriods_contiguous (h : ∀ i, d.farDate i = d.rollDate (i + 1)) :
    Contiguous (d.shortPeriods k) := by
  -- the full periods meet, as the other end of each is the next roll date
  have hperiods : Contiguous (d.periods k) := contiguous_periods_iff.mpr fun i _ => h i
  rw [shortPeriods_eq]
  obtain ⟨_ | _, startDate, matDate, resetFreq⟩ := d
  · -- forward, the stub follows the last full period
    refine List.isChain_append.mpr ⟨hperiods, List.isChain_singleton _, fun p hp q hq => ?_⟩
    cases k with
    | zero => simp [periods] at hp
    | succ k =>
      simp only [periods, List.range_succ, List.map_append, List.map_singleton,
        List.getLast?_concat, Option.mem_some_iff] at hp
      simp only [List.head?_cons, Option.mem_some_iff] at hq
      subst hp hq
      exact congrArg Date.mk (h k)
  · -- backward, it comes before the earliest one
    refine List.isChain_cons.mpr ⟨fun p hp => ?_, hperiods⟩
    cases k with
    | zero => simp [periods] at hp
    | succ k =>
      simp only [periods, List.range_succ, List.map_append, List.map_singleton, List.reverse_append,
        List.reverse_singleton, List.singleton_append, List.head?_cons, Option.mem_some_iff] at hp
      subst hp
      exact congrArg Date.mk (h k).symm

/-- Between dates from day number zero on, only the far end of the stub may lie
    before it, and that end is replaced. -/
theorem generateDates_ends_short {E : Fault → Prop} (hE : E .overflow) (hk : d.HasPeriods (k + 1))
    (hn : 0 < d.resetFreq.count) (hs : 0 ≤ d.startDate.julian) (hlt : d.startDate < d.matDate)
    (hfar : ∀ i, d.farDate i = d.rollDate (i + 1)) :
    (generateDates d.startDate d.matDate d.resetFreq d.dateDir).Ends E
      fun generated => applyStubs d.startDate d.matDate d.shortOptions generated =
        .ok (d.shortDates k) := by
  have hgen := generateDates_related hE (tracks_agrees hE hk hn hs hlt)
  have hroll : ∀ i ≤ k, 0 ≤ d.rollDate i := fun i hi => hk.rollDate_nonneg hn hs (by omega)
  obtain ⟨_ | _, startDate, matDate, resetFreq⟩ := d
  · -- forward, every generated date is from day number zero on
    exact generateDates_ends_stubs hE rfl hk (generatedNonneg_forward hs hn) (applyStubs_short k)
  · -- the end dates and all but the first of the start dates are what they should be
    apply hgen.weaken
    intro ⟨starts, ends⟩ ⟨hstarts, hends⟩
    rw [gridDates_backward] at hstarts hends
    have hends := Date.eq_of_forall₂_agrees hends fun date hdate => by
      simp only [List.mem_reverse, List.mem_map, List.mem_range] at hdate
      obtain ⟨i, hi, rfl⟩ := hdate
      exact hroll i (by omega)
    simp only [List.range_succ (n := k), List.map_append, List.map_singleton, List.reverse_append,
      List.reverse_singleton, List.singleton_append] at hstarts
    -- the first start date is the one that the stub replaces
    cases hstarts with
    | cons _ hrest =>
      have hrest := Date.eq_of_forall₂_agrees hrest fun date hdate => by
        simp only [List.mem_reverse, List.mem_map, List.mem_range] at hdate
        obtain ⟨i, hi, rfl⟩ := hdate
        exact hfar i ▸ hroll (i + 1) hi
      simp only at hends
      subst hends hrest
      rfl

/-- In days and weeks no date has to be on either side of day number zero. -/
theorem generateDates_ends_short_of_days {E : Fault → Prop} (hE : E .overflow)
    (hk : d.HasPeriods (k + 1)) (hdays : d.resetFreq.unit = .kDays ∨ d.resetFreq.unit = .kWeeks) :
    (generateDates d.startDate d.matDate d.resetFreq d.dateDir).Ends E
      fun generated => applyStubs d.startDate d.matDate d.shortOptions generated =
        .ok (d.shortDates k) :=
  (generateDates_ends_of_tracks hE (tracks_eq_of_days hE hk hdays)).weaken
    fun _ hg => hg ▸ applyStubs_short k

end Deal

/-- Differences of times telescope over contiguous periods. -/
theorem sum_of_contiguous (f : Date → ℚ) {periods : List (Date × Date)} {a b : Date}
    (h : Contiguous periods) (hfirst : periods.head?.map Prod.fst = some a)
    (hlast : periods.getLast?.map Prod.snd = some b) :
    (periods.map fun p => f p.2 - f p.1).sum = f b - f a := by
  induction periods generalizing a with
  | nil => simp at hfirst
  | cons p rest ih =>
    obtain rfl : p.1 = a := by simpa using hfirst
    cases rest with
    | nil =>
      obtain rfl : p.2 = b := by simpa using hlast
      simp
    | cons q rest =>
      -- the end of `p` cancels against the start of `q`
      obtain ⟨hpq, hrest⟩ := List.isChain_cons_cons.mp h
      rw [List.map_cons, List.sum_cons, ih hrest (a := p.2) (by simp [hpq]) (by simpa using hlast)]
      ring

/-! ## Flat coupons -/

section Flat

variable {notional rate : ℚ} {rule : DayCountRule} {opts : Options} {d : Deal} {k : Nat}

/-- A flat coupon without adjustments is proportional to a difference of times. -/
theorem Made.amount_eq {us ue : Date} {cf : CashflowStruct ℚ}
    (h : Made notional rate rule opts us ue cf) (hopts : Unadjusted opts)
    (hcalc : opts.calcType = .kFlat) (hrule : Additive rule)
    (hnn : rule = .kACT_ACT → 0 ≤ us.julian) (hlt : us < ue) : cf.cashflowAmount =
      notional * rate * (timeOf rule ue - timeOf rule us) := by
  obtain ⟨hstart, hend⟩ := h.unadjusted hopts
  obtain ⟨counter, hc, -, hfraction⟩ := h.counter
  rw [hstart, hend] at hfraction
  rw [h.amount hcalc, h.notional, h.rate,
    yearFraction_returns_eq hrule hc (le_of_lt hlt) hnn hfraction]

/-- The amounts of the coupons, from the periods they are made from. -/
theorem amounts_eq {periods : List (Date × Date)} {coupons : List (CashflowStruct ℚ)}
    (hall : List.Forall₂ (fun p cf => Made notional rate rule opts p.1 p.2 cf) periods coupons)
    (hopts : Unadjusted opts) (hcalc : opts.calcType = .kFlat) (hrule : Additive rule)
    (hnn : rule = .kACT_ACT → ∀ p ∈ periods, 0 ≤ p.1.julian) (hlt : ∀ p ∈ periods, p.1 < p.2) :
    coupons.map (·.cashflowAmount) = periods.map fun p =>
      notional * rate * (timeOf rule p.2 - timeOf rule p.1) := by
  induction hall with
  | nil => rfl
  | cons hmade _ ih =>
    simp only [List.forall_mem_cons] at hnn hlt
    rw [List.map_cons, List.map_cons, ih (fun h => (hnn h).2) hlt.2,
      hmade.amount_eq hopts hcalc hrule (fun h => (hnn h).1) hlt.1]

/-- `ACTB/ACTB` is not among the conventions that add up. -/
theorem ne_actb_of_additive (h : Additive rule) : rule ≠ .kACTB_ACTB := by
  intro hrule
  subst hrule
  exact absurd h (by decide)

/-- The schedule of a short stub, by whatever options take it: below day number zero
    only in days and weeks. -/
theorem Deal.TakesShortStub.generateDates_ends {E : Fault → Prop} (hE : E .overflow)
    (hstub : d.TakesShortStub opts) (hk : d.HasPeriods (k + 1)) (hn : 0 < d.resetFreq.count)
    (hlt : d.startDate < d.matDate) (hfar : ∀ i, d.farDate i = d.rollDate (i + 1))
    (hs : d.resetFreq.unit = .kMonths ∨ d.resetFreq.unit = .kYears → 0 ≤ d.startDate.julian) :
    (generateDates d.startDate d.matDate d.resetFreq opts.dateDir).Ends E fun generated =>
      applyStubs d.startDate d.matDate opts generated = .ok (d.shortDates k) := by
  simp only [hstub.dateDir, hstub.applyStubs_eq]
  cases hunit : d.resetFreq.unit with
  | kDays => exact Deal.generateDates_ends_short_of_days hE hk (Or.inl hunit)
  | kWeeks => exact Deal.generateDates_ends_short_of_days hE hk (Or.inr hunit)
  | kMonths => exact Deal.generateDates_ends_short hE hk hn (hs (Or.inl hunit)) hlt hfar
  | kYears => exact Deal.generateDates_ends_short hE hk hn (hs (Or.inr hunit)) hlt hfar

/-- With a short stub and an anchor that no move clamps, the coupons of an additive
    day count add up to the coupon of the whole deal. Below day number zero that is
    so for tenors in days and weeks and for conventions that do not split years. -/
theorem createFixedCashflows_amounts_sum (hlt : d.startDate < d.matDate)
    (hn : 0 < d.resetFreq.count) (hrule : Additive rule) (hopts : Unadjusted opts)
    (hcalc : opts.calcType = .kFlat) (hstub : d.TakesShortStub opts)
    (hday : d.resetFreq.unit = .kDays ∨ d.resetFreq.unit = .kWeeks ∨ dayOf d.anchor ≤ 28)
    (hs : d.resetFreq.unit = .kMonths ∨ d.resetFreq.unit = .kYears ∨ rule = .kACT_ACT →
      0 ≤ d.startDate.julian)
    (hof : ¬ (createFixedCashflows d.startDate d.matDate d.resetFreq notional rate rule
      opts).Faults .overflow)
    {counter : DayCounterBase ℚ} (hc : generateDayCounter rule = some counter)
    (hof' : ¬ (counter.yearFraction d.startDate d.matDate).Faults .overflow) :
    ∃ cfs fraction,
      (createFixedCashflows d.startDate d.matDate d.resetFreq notional rate rule opts).Returns
        cfs ∧
      (counter.yearFraction d.startDate d.matDate).Returns fraction ∧
      ((couponFlows cfs).map (·.cashflowAmount)).sum = notional * rate * fraction := by
  obtain ⟨k, hk⟩ := Deal.exists_periods hn
  obtain ⟨k, rfl⟩ := Nat.exists_eq_succ_of_ne_zero (hk.pos hlt).ne'
  have hfar : ∀ i, d.farDate i = d.rollDate (i + 1) :=
    DateShift.rollNext_eq (Deal.addsFrom_anchor hday)
  -- every generated date but the one that the stub replaces is a roll date of the deal
  have hgen : ∀ {E : Fault → Prop}, E .overflow → _ := fun hE =>
    hstub.generateDates_ends hE hk hn hlt hfar fun hunit => hs (hunit.imp_right Or.inl)
  have hends : (createFixedCashflows d.startDate d.matDate d.resetFreq notional rate rule
      opts).Ends (· = .overflow) fun _ => True :=
    createFixedCashflows_ends_stub (E := (· = .overflow)) rfl hopts hcalc
      (ne_actb_of_additive hrule) hlt (hgen rfl)
  obtain ⟨cfs, hcfs, -⟩ := hends.exists_returns_unless hof
  obtain ⟨coupons, last, hall, -, rfl⟩ := createFixedCashflows_returns_dates (hgen trivial) hcfs
  obtain ⟨fraction, hfraction, -⟩ := (yearFraction_ends_any (E := (· = .overflow)) rfl hc
    d.startDate d.matDate).exists_returns_unless hof'
  refine ⟨_, _, hcfs, hfraction, ?_⟩
  rw [Deal.shortDates_periods] at hall
  have hnn : rule = .kACT_ACT → ∀ p ∈ d.shortPeriods k, 0 ≤ p.1.julian := by
    intro hact
    have hs := hs (Or.inr (Or.inr hact))
    have hroll : ∀ i ≤ k, 0 ≤ d.rollDate i := fun i hi => hk.rollDate_nonneg hn hs (by omega)
    exact fun p hp => (Deal.shortPeriods_nonneg hs (hs.trans (le_of_lt hlt)) hroll
      (fun i hi => hfar i ▸ hroll (i + 1) hi) p hp).1
  -- the amounts telescope over periods that meet and cover the deal
  have hcovers := Deal.shortPeriods_covers hk hn
  have hamounts := amounts_eq hall hopts hcalc hrule hnn hcovers.ordered
  unfold couponFlows
  rw [List.dropLast_concat, hamounts, List.sum_map_mul_left,
    sum_of_contiguous (timeOf rule) (Deal.shortPeriods_contiguous hfar) hcovers.first hcovers.last,
    yearFraction_returns_eq hrule hc (le_of_lt hlt) (fun h => hs (Or.inr (Or.inr h))) hfraction]

end Flat

/-- Six-month periods back from the 20th of May over two new years, in actual years,
    with options of their own for all that the direction does not look at. -/
theorem createFixedCashflows_amounts_sum_backward :
    ∃ cfs fraction, (createFixedCashflows (F := ℚ) ⟨2460264⟩ ⟨2460816⟩ ⟨6, .kMonths⟩ 100 (1 / 20)
        .kACT_ACT
        { currency := .kEUR, cashflowType := .kFloating, resetDir := .kInArears,
          frontStubType := .kShortFirst, backStubType := .kLongLast,
          backStubDate := ⟨2460800⟩ }).Returns cfs ∧
      (computeDayCountFractionActAct ⟨2460264⟩ ⟨2460816⟩ : Comp ℚ).Returns fraction ∧
      ((couponFlows cfs).map (·.cashflowAmount)).sum = 100 * (1 / 20) * fraction := by
  -- four coupons and the principal
  obtain ⟨cfs, hcfs, -⟩ := Comp.exists_returns_of_run (g := List.length) (b := 5) 5
    (c := createFixedCashflows (F := ℚ) ⟨2460264⟩ ⟨2460816⟩ ⟨6, .kMonths⟩ 100 (1 / 20) .kACT_ACT
      { currency := .kEUR, cashflowType := .kFloating, resetDir := .kInArears,
        frontStubType := .kShortFirst, backStubType := .kLongLast,
        backStubDate := ⟨2460800⟩ }) (by decide +kernel)
  obtain ⟨fraction, hfraction, -⟩ := Comp.exists_returns_of_run (g := fun x => decide (x < 2))
    (b := true) 5 (c := (computeDayCountFractionActAct ⟨2460264⟩ ⟨2460816⟩ : Comp ℚ))
    (by decide +kernel)
  have hcounter : generateDayCounter (F := ℚ) .kACT_ACT =
      some ⟨computeDayCountActAct, computeDayCountFractionActAct⟩ := rfl
  -- the anchor is the 20th, and day number zero is long past
  exact createFixedCashflows_amounts_sum
    (d := ⟨.kBackward, ⟨2460264⟩, ⟨2460816⟩, ⟨6, .kMonths⟩⟩) (by decide) (by decide)
    (by decide) ⟨rfl, rfl, rfl, rfl⟩ rfl ⟨rfl, rfl, rfl⟩
    (Or.inr (Or.inr (by decide +kernel))) (fun _ => by decide) hcfs.not_faults hcounter
    hfraction.not_faults

/-- Below day number zero, two days of a deal of almost eight years are in no period of
    four years, and the years that `ACT/ACT` splits two periods of days at are not in
    their order. -/
theorem createFixedCashflows_amounts_gap :
    ((⟨-2832⟩ : Date) < ⟨93⟩ ∧ dayOf 93 ≤ 28 ∧ ¬ ∀ cfs fraction,
      (createFixedCashflows (F := ℚ) ⟨-2832⟩ ⟨93⟩ ⟨4, .kYears⟩ 100 (1 / 20) .kACT_360
        { dateDir := .kBackward, frontStubType := .kShortFirst }).Returns cfs →
      (computeDayCountFractionAct360 ⟨-2832⟩ ⟨93⟩ : Comp ℚ).Returns fraction →
      ((couponFlows cfs).map (·.cashflowAmount)).sum = 100 * (1 / 20) * fraction) ∧
    (⟨-1500⟩ : Date) < ⟨-1100⟩ ∧ ¬ ∀ cfs fraction,
      (createFixedCashflows (F := ℚ) ⟨-1500⟩ ⟨-1100⟩ ⟨300, .kDays⟩ 100 (1 / 20) .kACT_ACT
        { dateDir := .kBackward, frontStubType := .kShortFirst }).Returns cfs →
      (computeDayCountFractionActAct ⟨-1500⟩ ⟨-1100⟩ : Comp ℚ).Returns fraction →
      ((couponFlows cfs).map (·.cashflowAmount)).sum = 100 * (1 / 20) * fraction := by
  constructor
  · obtain ⟨cfs, hcfs, hsum⟩ := Comp.exists_returns_of_run
      (g := fun cfs => ((couponFlows cfs).map (·.cashflowAmount)).sum)
      (b := 100 * (1 / 20) * (2923 / 360)) 5
      (c := createFixedCashflows (F := ℚ) ⟨-2832⟩ ⟨93⟩ ⟨4, .kYears⟩ 100 (1 / 20) .kACT_360
        { dateDir := .kBackward, frontStubType := .kShortFirst }) (by decide +kernel)
    -- 2923 days are paid for, out of 2925
    refine ⟨by decide, by decide +kernel, fun h => ?_⟩
    have := hsum.symm.trans (h cfs (2925 / 360) hcfs ⟨0, by decide +kernel⟩)
    norm_num at this
  · obtain ⟨cfs, hcfs, hsum⟩ := Comp.exists_returns_of_run
      (g := fun cfs => ((couponFlows cfs).map (·.cashflowAmount)).sum) (b := 154495 / 26718) 5
      (c := createFixedCashflows (F := ℚ) ⟨-1500⟩ ⟨-1100⟩ ⟨300, .kDays⟩ 100 (1 / 20) .kACT_ACT
        { dateDir := .kBackward, frontStubType := .kShortFirst }) (by decide +kernel)
    obtain ⟨fraction, hfraction, hvalue⟩ := Comp.exists_returns_of_run (g := id) (b := 323 / 366) 5
      (c := (computeDayCountFractionActAct ⟨-1500⟩ ⟨-1100⟩ : Comp ℚ)) (by decide +kernel)
    -- the two periods do not add up to the fraction of the deal
    refine ⟨by decide, fun h => ?_⟩
    have := hsum.symm.trans (h cfs fraction hcfs hfraction)
    rw [show fraction = 323 / 366 from hvalue] at this
    norm_num at this

end OA.DerivedTime
