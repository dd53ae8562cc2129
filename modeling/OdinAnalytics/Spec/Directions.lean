import OdinAnalytics.Spec.Contiguity

/-!
# Forward and backward schedules

When the maturity date is a whole number of reset tenors after the start date and
no move from the start date is clamped, rolling back from the maturity date passes
the same dates as rolling forward from the start date. Everything after the
schedule loops reads the direction only for stubs.

## Key results

- `gridDates_directions`: both directions have the same schedule
- `createFixedCashflows_directions`: both directions return the same cash flows
-/

namespace OA.DerivedTime

open Machine OA.Time

/-! ## The schedules -/

section Grid

variable {startDate matDate : Date} {resetFreq : Tenor} {k : Nat}

/-- A sequence reversed is the sequence read from its other end. -/
theorem reverse_map_range {α : Type} {f g : Nat → α} (h : ∀ i < k, f (k - 1 - i) = g i) :
    ((List.range k).map f).reverse = (List.range k).map g := by
  apply List.ext_getElem
  · simp
  · intro i hi hi'
    simp only [List.length_map, List.length_range] at hi'
    simp only [List.getElem_reverse, List.getElem_map, List.getElem_range, List.length_map,
      List.length_range]
    exact h i hi'

/-- The maturity date is the `k`-th forward roll date, and nothing is clamped. -/
structure WholePeriods (startDate matDate : Date) (resetFreq : Tenor) (k : Nat) : Prop where
  roll_eq : (Date.unitShift resetFreq.unit).roll resetFreq.count startDate.julian k = matDate.julian
  addsFrom : (Date.unitShift resetFreq.unit).AddsFrom startDate.julian
  count_pos : 0 < resetFreq.count

namespace WholePeriods

variable (h : WholePeriods startDate matDate resetFreq k)

include h

/-- Going forward, moving on from a roll date leads to the next one. -/
theorem farDate_forward (i : Nat) :
    Deal.farDate ⟨.kForward, startDate, matDate, resetFreq⟩ i =
      Deal.rollDate ⟨.kForward, startDate, matDate, resetFreq⟩ (i + 1) :=
  DateShift.rollNext_eq h.addsFrom i

/-- Going backward, the roll dates come in the other order. -/
theorem rollDate_backward {i : Nat} (hi : i ≤ k) :
    Deal.rollDate ⟨.kBackward, startDate, matDate, resetFreq⟩ i =
      Deal.rollDate ⟨.kForward, startDate, matDate, resetFreq⟩ (k - i) := by
  have hroll := DateShift.roll_neg (c := resetFreq.count) h.addsFrom hi
  rwa [h.roll_eq] at hroll

/-- Going backward, the dates that are moved on to come in the other order as well. -/
theorem farDate_backward {i : Nat} (hi : i < k) :
    Deal.farDate ⟨.kBackward, startDate, matDate, resetFreq⟩ i =
      Deal.rollDate ⟨.kForward, startDate, matDate, resetFreq⟩ (k - (i + 1)) := by
  have hroll := DateShift.rollNext_neg (c := resetFreq.count) h.addsFrom hi
  rwa [h.roll_eq] at hroll

/-- The roll dates going forward rise. -/
theorem rollDate_strictMono :
    StrictMono (Deal.rollDate ⟨.kForward, startDate, matDate, resetFreq⟩) :=
  DateShift.roll_strictMono h.count_pos

/-- Going forward, a deal of `k` tenors has `k` periods. -/
theorem hasPeriods_forward : Deal.HasPeriods ⟨.kForward, startDate, matDate, resetFreq⟩ k := by
  constructor
  · intro i hi
    exact lt_of_lt_of_eq (h.rollDate_strictMono hi) h.roll_eq
  · exact (h.roll_eq.symm.le.not_gt)

/-- Going backward, a deal of `k` tenors has `k` periods. -/
theorem hasPeriods_backward : Deal.HasPeriods ⟨.kBackward, startDate, matDate, resetFreq⟩ k := by
  have hzero : Deal.rollDate ⟨.kForward, startDate, matDate, resetFreq⟩ 0 = startDate.julian :=
    Deal.rollDate_zero
  constructor
  · intro i hi
    show startDate.julian < Deal.rollDate ⟨.kBackward, startDate, matDate, resetFreq⟩ i
    -- from maturity, the `i`-th roll date is `k - i` periods from the start
    rw [h.rollDate_backward hi.le, ← hzero]
    exact h.rollDate_strictMono (by omega)
  · show ¬ startDate.julian < Deal.rollDate ⟨.kBackward, startDate, matDate, resetFreq⟩ k
    rw [h.rollDate_backward le_rfl, Nat.sub_self, hzero]
    exact lt_irrefl _

/-- From day number zero on, no generated date is below it. -/
theorem generatedNonneg (hs : 0 ≤ startDate.julian) (dir : DateDirection) :
    Deal.GeneratedNonneg ⟨dir, startDate, matDate, resetFreq⟩ := by
  cases dir with
  | kForward => exact Deal.generatedNonneg_forward hs h.count_pos
  | kBackward =>
    have hroll : ∀ i, 0 ≤ Deal.rollDate ⟨.kForward, startDate, matDate, resetFreq⟩ i := by
      intro i
      have := h.rollDate_strictMono.monotone (Nat.zero_le i)
      rw [Deal.rollDate_zero] at this
      exact hs.trans this
    -- the dates generated backward are forward roll dates
    intro i hi
    have hik := (h.hasPeriods_backward.lt_iff h.count_pos).mpr hi
    rw [h.rollDate_backward hik.le, h.farDate_backward hik]
    exact ⟨hroll _, hroll _⟩

/-- A deal of some periods has some length. -/
theorem startDate_lt (hk : 1 ≤ k) : startDate < matDate := by
  have hlt := h.rollDate_strictMono hk
  rw [Deal.rollDate_zero] at hlt
  exact lt_of_lt_of_eq (b := Deal.rollDate ⟨.kForward, startDate, matDate, resetFreq⟩ k) hlt
    h.roll_eq

/-- Both directions have the same schedule. -/
theorem gridDates_directions : Deal.gridDates ⟨.kBackward, startDate, matDate, resetFreq⟩ k =
    Deal.gridDates ⟨.kForward, startDate, matDate, resetFreq⟩ k := by
  -- the `i`-th date from the end is the one `k - 1 - i` periods from the start
  have hstarts : ((List.range k).map fun i =>
      (⟨Deal.farDate ⟨.kBackward, startDate, matDate, resetFreq⟩ i⟩ : Date)).reverse =
      (List.range k).map fun i => ⟨Deal.rollDate ⟨.kForward, startDate, matDate, resetFreq⟩ i⟩ := by
    apply reverse_map_range
    intro i hi
    rw [h.farDate_backward (by omega), show k - (k - 1 - i + 1) = i by omega]
  have hends : ((List.range k).map fun i =>
      (⟨Deal.rollDate ⟨.kBackward, startDate, matDate, resetFreq⟩ i⟩ : Date)).reverse =
      (List.range k).map fun i => ⟨Deal.farDate ⟨.kForward, startDate, matDate, resetFreq⟩ i⟩ := by
    apply reverse_map_range
    intro i hi
    rw [h.rollDate_backward (by omega), h.farDate_forward, show k - (k - 1 - i) = i + 1 by omega]
  unfold Deal.gridDates Deal.generated Deal.toSchedule
  simp only [hstarts, hends]

end WholePeriods

end Grid

/-! ## The calls -/

section Calls

variable {F : Type} [IntCast F] [Add F] [Mul F] [Div F] [Neg F] {startDate matDate : Date}
  {resetFreq : Tenor} {notional rate : F} {rule : DayCountRule} {opts : Options} {k : Nat}

variable (resetFreq notional rate rule opts) in
/-- What follows the schedule loops if there is no stub. -/
def finish (dates : Schedule) : Comp (List (CashflowStruct F)) := do
  let coupons ← makeCoupons
    (makeCoupon resetFreq notional rate rule opts (generateDayCounter rule))
    dates.startDates dates.endDates
  let last ← back coupons
  return coupons ++ [principal notional last]

/-- Without stubs, the schedule loops decide all that the direction has a part in. -/
theorem createFixedCashflows_eq_finish (resetFreq : Tenor) (notional rate : F)
    (rule : DayCountRule) (hf : opts.frontStubType = .kNone)
    (hb : opts.backStubType = .kNone) (hle : startDate ≤ matDate) (dir : DateDirection) :
    createFixedCashflows startDate matDate resetFreq notional rate rule
      { opts with dateDir := dir } =
    generateDates startDate matDate resetFreq dir >>= finish resetFreq notional rate rule opts := by
  unfold createFixedCashflows
  rw [if_neg (not_lt.mpr hle)]
  -- without stubs, what follows the loops does not read the direction
  congr 1
  funext g
  have hstubs : applyStubs startDate matDate { opts with dateDir := dir } g = .ok g := by
    apply applyStubs_none
    · exact hf
    · exact hb
  rw [hstubs]
  rfl

/-- A maturity date whole reset tenors after a start date that is never clamped. -/
theorem wholePeriods_of_addTenor (hn : 0 < resetFreq.count) (hs : 0 ≤ startDate.julian)
    (hmat : startDate.addTenor ⟨k * resetFreq.count, resetFreq.unit⟩ = .ok matDate)
    (hday : resetFreq.unit = .kDays ∨ resetFreq.unit = .kWeeks ∨ dayOf startDate.julian ≤ 28) :
    WholePeriods startDate matDate resetFreq k := by
  have hroll : (Date.unitShift resetFreq.unit).shift (k * resetFreq.count) startDate.julian =
      (Date.unitShift resetFreq.unit).roll resetFreq.count startDate.julian k := by
    rw [DateShift.roll, mul_comm]
  -- every period takes a day at least, so maturity is no earlier than the start
  have hle : startDate.julian + k ≤
      (Date.unitShift resetFreq.unit).roll resetFreq.count startDate.julian k :=
    DateShift.add_le_roll hn k
  have hpost := Date.addTenor_post (E := fun _ => True) (u := resetFreq.unit)
    (n := k * resetFreq.count) hs (by rw [hroll]; omega) (Or.inl trivial)
  rw [hmat, post_ok] at hpost
  subst hpost
  exact ⟨hroll.symm, Deal.addsFrom_anchor (d := ⟨.kForward, startDate, startDate, resetFreq⟩) hday,
    hn⟩

/-- The loop of either direction returns the forward schedule. -/
theorem WholePeriods.generateDates_returns (h : WholePeriods startDate matDate resetFreq k)
    (hs : 0 ≤ startDate.julian) (dir : DateDirection)
    (hof : ¬ (generateDates startDate matDate resetFreq dir).Faults .overflow) :
    (generateDates startDate matDate resetFreq dir).Returns
      (Deal.gridDates ⟨.kForward, startDate, matDate, resetFreq⟩ k) := by
  -- without an overflow either walk ends, with the dates of the grid
  cases dir with
  | kForward =>
    exact (generateDates_ends (d := ⟨.kForward, startDate, matDate, resetFreq⟩)
      (E := (· = .overflow)) rfl h.hasPeriods_forward
      (h.generatedNonneg hs _)).returns_unless hof
  | kBackward =>
    rw [← h.gridDates_directions]
    exact (generateDates_ends (d := ⟨.kBackward, startDate, matDate, resetFreq⟩)
      (E := (· = .overflow)) rfl h.hasPeriods_backward
      (h.generatedNonneg hs _)).returns_unless hof

/-- A result has `k` coupons and the principal. -/
theorem WholePeriods.result (h : WholePeriods startDate matDate resetFreq k)
    (hs : 0 ≤ startDate.julian) (hf : opts.frontStubType = .kNone)
    (hb : opts.backStubType = .kNone) (hdir : opts.dateDir = .kForward)
    {cfs : List (CashflowStruct F)} (hcfs : (createFixedCashflows startDate matDate resetFreq
      notional rate rule opts).Returns cfs) :
    ∃ coupons repayment, cfs = coupons ++ [repayment] ∧ coupons.length = k ∧
      repayment.cfType = .kPrincipal := by
  obtain ⟨coupons, last, hall, -, rfl⟩ := createFixedCashflows_returns_dates
    (generateDates_ends_stubs (d := ⟨.kForward, startDate, matDate, resetFreq⟩) trivial hdir
      h.hasPeriods_forward (h.generatedNonneg hs _) (applyStubs_none hf hb _ _ _)) hcfs
  refine ⟨coupons, _, rfl, ?_, rfl⟩
  rw [← hall.length_eq, Deal.gridDates_periods]
  simp [Deal.periods]

/-- There is a result if a coupon can be made of each period. -/
theorem WholePeriods.exists_result (h : WholePeriods startDate matDate resetFreq k) (hk : 1 ≤ k)
    (hs : 0 ≤ startDate.julian) (hf : opts.frontStubType = .kNone)
    (hb : opts.backStubType = .kNone) (hdir : opts.dateDir = .kForward)
    (hrule : rule ≠ .kACTB_ACTB) (hcalc : opts.calcType ≠ .kCompounding)
    (hadj : ∀ i < k, ∃ s e p, FixesNonneg opts s e ∧ Adjusts opts
      (Deal.rollDate ⟨.kForward, startDate, matDate, resetFreq⟩ i)
      (Deal.rollDate ⟨.kForward, startDate, matDate, resetFreq⟩ (i + 1)) s e p)
    (hof : ¬ (createFixedCashflows startDate matDate resetFreq notional rate rule opts).Faults
      .overflow) :
    ∃ cfs,
      (createFixedCashflows startDate matDate resetFreq notional rate rule opts).Returns cfs := by
  obtain ⟨hls, hle⟩ := Deal.gridDates_length (d := ⟨.kForward, startDate, matDate, resetFreq⟩) k
  have hgen := generateDates_ends_stubs (d := ⟨.kForward, startDate, matDate, resetFreq⟩)
    (E := (· = .overflow)) rfl hdir h.hasPeriods_forward (h.generatedNonneg hs _)
    (applyStubs_none hf hb _ _ _)
  -- each period's coupon ends, by the dates its adjustments lead to
  have hcoupon : ∀ p ∈ (Deal.gridDates ⟨.kForward, startDate, matDate, resetFreq⟩ k).periods,
      (makeCoupon resetFreq notional rate rule opts (generateDayCounter rule) p.1 p.2).Ends
        (· = .overflow) fun _ => True := by
    intro p hp
    rw [Deal.gridDates_periods] at hp
    obtain ⟨i, hi, rfl⟩ := Deal.mem_periods.mp hp
    obtain ⟨s, e, p, hfix, ha⟩ := hadj i hi
    rw [← h.farDate_forward] at ha
    exact makeCoupon_ends (E := (· = .overflow)) rfl ha hfix hrule hcalc
  have hne : (Deal.gridDates ⟨.kForward, startDate, matDate, resetFreq⟩ k).startDates ≠ [] := by
    rw [← List.length_pos_iff, hls]
    exact hk
  obtain ⟨cfs, hcfs, -⟩ := (createFixedCashflows_ends (h.startDate_lt hk).le hgen
    (hls.trans hle.symm) hne hcoupon).exists_returns_unless hof
  exact ⟨cfs, hcfs⟩

/-- Both directions return the same cash flows, `k` coupons and the principal, and
    fault alike; they do return whenever a coupon can be made of each period. -/
theorem createFixedCashflows_directions (notional rate : F) (rule : DayCountRule)
    (hf : opts.frontStubType = .kNone)
    (hb : opts.backStubType = .kNone) (hn : 0 < resetFreq.count) (hk : 1 ≤ k)
    (hs : 0 ≤ startDate.julian)
    (hmat : startDate.addTenor ⟨k * resetFreq.count, resetFreq.unit⟩ = .ok matDate)
    (hday : resetFreq.unit = .kDays ∨ resetFreq.unit = .kWeeks ∨ dayOf startDate.julian ≤ 28)
    (hof : ∀ dir, ¬ (generateDates startDate matDate resetFreq dir).Faults .overflow) :
    (∀ cfs, (createFixedCashflows startDate matDate resetFreq notional rate rule
        { opts with dateDir := .kForward }).Returns cfs ↔
      (createFixedCashflows startDate matDate resetFreq notional rate rule
        { opts with dateDir := .kBackward }).Returns cfs) ∧
    (∀ f, (createFixedCashflows startDate matDate resetFreq notional rate rule
        { opts with dateDir := .kForward }).Faults f ↔
      (createFixedCashflows startDate matDate resetFreq notional rate rule
        { opts with dateDir := .kBackward }).Faults f) ∧
    (∀ cfs, (createFixedCashflows startDate matDate resetFreq notional rate rule
        { opts with dateDir := .kForward }).Returns cfs →
      ∃ coupons repayment, cfs = coupons ++ [repayment] ∧ coupons.length = k ∧
        repayment.cfType = .kPrincipal) ∧
    (rule ≠ .kACTB_ACTB → opts.calcType ≠ .kCompounding →
      (∀ i < k, ∃ s e p, FixesNonneg opts s e ∧ Adjusts opts
        (Deal.rollDate ⟨.kForward, startDate, matDate, resetFreq⟩ i)
        (Deal.rollDate ⟨.kForward, startDate, matDate, resetFreq⟩ (i + 1)) s e p) →
      ¬ (createFixedCashflows startDate matDate resetFreq notional rate rule
        { opts with dateDir := .kForward }).Faults .overflow →
      ∃ cfs, (createFixedCashflows startDate matDate resetFreq notional rate rule
        { opts with dateDir := .kForward }).Returns cfs) := by
  have hw := wholePeriods_of_addTenor hn hs hmat hday
  -- both walks return the same dates, and the rest does not depend on the direction
  have hgen := fun dir => hw.generateDates_returns hs dir (hof dir)
  have heq := createFixedCashflows_eq_finish resetFreq notional rate rule hf hb
    (hw.startDate_lt hk).le
  refine ⟨fun cfs => ?_, fun f => ?_, fun cfs hcfs => ?_, fun hrule hcalc hadj hover => ?_⟩
  · rw [heq, heq, Comp.bind_returns_of (hgen _), Comp.bind_returns_of (hgen _)]
  · rw [heq, heq, Comp.bind_faults_of (hgen _), Comp.bind_faults_of (hgen _)]
  · exact hw.result hs (by exact hf) (by exact hb) rfl hcfs
  · refine hw.exists_result hk hs (by exact hf) (by exact hb) rfl hrule (by exact hcalc)
      (fun i hi => ?_) hover
    obtain ⟨s, e, p, hfix, ha⟩ := hadj i hi
    exact ⟨s, e, p, hfix, ⟨ha.1, ha.2, ha.3, ha.4, ha.5⟩⟩

end Calls

/-- Four months from the 15th of January. -/
theorem createFixedCashflows_directions_mid_month :
    ∃ cfs, (createFixedCashflows (F := ℚ) ⟨2460691⟩ ⟨2460811⟩ ⟨1, .kMonths⟩ 100 (1 / 20) .kACT_ACT
        { dateDir := .kForward }).Returns cfs ∧
      (createFixedCashflows (F := ℚ) ⟨2460691⟩ ⟨2460811⟩ ⟨1, .kMonths⟩ 100 (1 / 20) .kACT_ACT
        { dateDir := .kBackward }).Returns cfs ∧
      ∃ coupons repayment, cfs = coupons ++ [repayment] ∧ coupons.length = 4 ∧
        repayment.cfType = .kPrincipal := by
  -- neither walk overflows
  have hof : ∀ dir, ¬ (generateDates ⟨2460691⟩ ⟨2460811⟩ ⟨1, .kMonths⟩ dir).Faults .overflow := by
    intro dir
    obtain ⟨dates, hdates, -⟩ := Comp.exists_returns_of_run (g := fun s => s.startDates.length)
      (b := 4) 5 (c := generateDates ⟨2460691⟩ ⟨2460811⟩ ⟨1, .kMonths⟩ dir)
      (by cases dir <;> decide +kernel)
    exact hdates.not_faults
  obtain ⟨cfs, hcfs, -⟩ := Comp.exists_returns_of_run (g := List.length) (b := 5) 5
    (c := createFixedCashflows (F := ℚ) ⟨2460691⟩ ⟨2460811⟩ ⟨1, .kMonths⟩ 100 (1 / 20) .kACT_ACT
      { dateDir := .kForward }) (by decide +kernel)
  -- four months lead exactly to maturity
  have hmat : Date.addTenor ⟨2460691⟩ ⟨(4 : Nat) * 1, .kMonths⟩ = .ok ⟨2460811⟩ := by
    decide +kernel
  have hopts : ({} : Options).frontStubType = .kNone := rfl
  obtain ⟨hreturns, -, hresult, -⟩ := createFixedCashflows_directions (100 : ℚ) (1 / 20) .kACT_ACT
    hopts rfl (by decide) (by decide) (by decide) hmat (Or.inr (Or.inr (by decide +kernel))) hof
  exact ⟨cfs, hcfs, (hreturns cfs).mp hcfs, hresult cfs hcfs⟩

end OA.DerivedTime
