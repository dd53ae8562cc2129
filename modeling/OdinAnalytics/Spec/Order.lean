import OdinAnalytics.Spec.Contiguity

/-!
# Dates in order

Without stubs, every period starts before it ends and the periods are in the order
of their end dates. Adjusting both ends by the same formula keeps that order, since
a later date is never adjusted to an earlier one, and so does the payment
adjustment of the end dates. No day count is negative between dates in order.

## Key results

- `periods_ordered`: the order of the unadjusted dates
- `createFixedCashflows_ordered`: the order of the adjusted dates of a result
-/

namespace OA.DerivedTime

open Machine OA.Time

/-! ## Unadjusted dates -/

namespace Deal

variable {d : Deal} {k : Nat}

/-- A period begins before it ends. -/
theorem period_ordered (hn : 0 < d.resetFreq.count) (i : Nat) :
    (d.period i).1 < (d.period i).2 := by
  obtain ⟨_ | _, startDate, matDate, resetFreq⟩ := d
  · exact DateShift.lt_rollNext (S := Date.unitShift resetFreq.unit) hn i
  · exact DateShift.rollNext_lt (S := Date.unitShift resetFreq.unit) (neg_neg_of_pos hn) i

/-- The periods are in the order of their end dates. -/
theorem periods_ordered (hn : 0 < d.resetFreq.count) :
    (d.periods k).Pairwise fun p q => p.2 ≤ q.2 := by
  obtain ⟨_ | _, startDate, matDate, resetFreq⟩ := d
  · have hmono : StrictMono (rollDate ⟨.kForward, startDate, matDate, resetFreq⟩) :=
      DateShift.roll_strictMono hn
    have hlt : ∀ i, rollDate ⟨.kForward, startDate, matDate, resetFreq⟩ i <
        farDate ⟨.kForward, startDate, matDate, resetFreq⟩ i := DateShift.lt_rollNext hn
    refine List.pairwise_map.mpr (List.pairwise_lt_range.imp fun {i j} hij => ?_)
    -- a period ends by the next roll date, which is where or before a later one starts
    exact ((farDate_le i).trans (hmono.monotone hij)).trans (hlt j).le
  · have hanti : StrictAnti (rollDate ⟨.kBackward, startDate, matDate, resetFreq⟩) :=
      DateShift.roll_strictAnti (neg_neg_of_pos hn)
    refine List.pairwise_reverse.mpr (List.pairwise_map.mpr
      (List.pairwise_lt_range.imp fun {i j} hij => ?_))
    exact (hanti hij).le

end Deal

/-! ## Adjusted dates -/

/-- The order of a list carries over to a list related to it element by element. -/
theorem pairwise_of_forall₂ {α β : Type} {R : α → β → Prop} {S : α → α → Prop} {T : β → β → Prop}
    {xs : List α} {ys : List β} (h : List.Forall₂ R xs ys) (hxs : xs.Pairwise S)
    (hT : ∀ {a b c e}, R a c → R b e → S a b → T c e) : ys.Pairwise T := by
  induction h with
  | nil => exact List.Pairwise.nil
  | @cons a c xs ys hac hrest ih =>
    -- whatever follows `c` is related to something that follows `a`
    rw [List.pairwise_cons] at hxs
    obtain ⟨ha, hxs⟩ := hxs
    refine List.pairwise_cons.mpr ⟨fun e he => ?_, ih hxs⟩
    obtain ⟨b, hb, hbe⟩ := exists_related hrest he
    exact hT hac hbe (ha b hb)

/-- A list in order stays in order with its last element repeated. -/
theorem pairwise_concat_last {α β : Type} [Preorder β] {f : α → β} {xs : List α} {x y : α}
    (h : xs.Pairwise fun a b => f a ≤ f b) (hx : xs.getLast? = some x) (hy : f y = f x) :
    (xs ++ [y]).Pairwise fun a b => f a ≤ f b := by
  obtain ⟨init, rfl⟩ := List.getLast?_eq_some_iff.mp hx
  -- every element comes before the last one or is it
  refine List.pairwise_append.mpr ⟨h, List.pairwise_singleton _ _, fun a ha b hb => ?_⟩
  rw [List.mem_singleton] at hb
  subst hb
  rw [hy]
  rcases List.mem_append.mp ha with ha | ha
  · exact (List.pairwise_append.mp h).2.2 a ha x (List.mem_singleton_self x)
  · rw [List.mem_singleton] at ha
    exact ha ▸ le_rfl

/-- The adjustments of every period stay on day numbers from zero on. -/
def AdjustedNonneg (d : Deal) (opts : Options) : Prop :=
  ∀ i, d.Inside (d.rollDate i) → ∀ s e p, opts.startAdj.IsAdjusted (d.period i).1.julian s →
    opts.endAdj.IsAdjusted (d.period i).2.julian e → opts.payAdj.IsAdjusted e p →
    0 ≤ s ∧ 0 ≤ e ∧ 0 ≤ p

/-- Adjustments that do not go back keep dates on day numbers from zero on. -/
theorem adjustedNonneg {d : Deal} {opts : Options} (hnn : d.GeneratedNonneg)
    (hs : 0 ≤ opts.startAdj.numOfBusinessDays) (he : 0 ≤ opts.endAdj.numOfBusinessDays)
    (hp : 0 ≤ opts.payAdj.numOfBusinessDays) : AdjustedNonneg d opts := by
  intro i hi s e p hstart hend hpay
  obtain ⟨hus, hue⟩ := Deal.period_nonneg hnn hi
  have hse := hus.trans (hstart.le hs)
  have hee := hue.trans (hend.le he)
  exact ⟨hse, hee, hee.trans (hpay.le hp)⟩

section Results

variable {F : Type} [IntCast F] [Add F] [Mul F] [Div F] [Neg F] {notional rate : F}
  {rule : DayCountRule} {opts : Options} {d : Deal} {k : Nat} {cfs : List (CashflowStruct F)}

/-- The formulas that adjust dates have business days to count. -/
structure HasBusinessDays (opts : Options) : Prop where
  startAdj : opts.startAdj.HasBusinessDays
  endAdj : opts.endAdj.HasBusinessDays
  payAdj : opts.payAdj.HasBusinessDays

/-- What the dates of each generated period adjust to. -/
theorem exists_adjusts (hbus : HasBusinessDays opts) (hk : d.HasPeriods k)
    (hnn : d.GeneratedNonneg) (hadj : AdjustedNonneg d opts) {q : Date × Date}
    (hq : q ∈ d.periods k) : ∃ s e p, Adjusts opts q.1.julian q.2.julian s e p := by
  obtain ⟨i, hi, rfl⟩ := Deal.mem_periods.mp hq
  obtain ⟨s, hs⟩ := BusinessDateFormula.exists_isAdjusted hbus.startAdj (d.period i).1.julian
  obtain ⟨e, he⟩ := BusinessDateFormula.exists_isAdjusted hbus.endAdj (d.period i).2.julian
  obtain ⟨p, hp⟩ := BusinessDateFormula.exists_isAdjusted hbus.payAdj e
  exact ⟨s, e, p, hs, he, hp, Deal.period_nonneg hnn (hk.inside i hi),
    hadj i (hk.inside i hi) s e p hs he hp⟩

/-- A coupon made from a period in order, both ends adjusted by the same formula,
    has its dates in order, and a day count that is not negative. -/
theorem Made.ordered {q : Date × Date} {cf : CashflowStruct F}
    (hmade : Made notional rate rule opts q.1 q.2 cf) (hsame : opts.startAdj = opts.endAdj)
    (hlt : q.1 < q.2) {s e p : Int} (ha : Adjusts opts q.1.julian q.2.julian s e p) :
    cf.startDate ≤ cf.endDate ∧ 0 ≤ cf.days := by
  obtain ⟨hs, he, -, hdays, -⟩ := hmade.adjusts ha
  have hle : s ≤ e := (hsame ▸ ha.startDate).mono ha.endDate hlt.le
  rw [hs, he, hdays]
  exact ⟨hle, daysBetween_nonneg rule hle⟩

/-- Coupons made from periods in order have their adjusted dates in order. -/
theorem Made.adjusted_le {q q' : Date × Date} {cf cf' : CashflowStruct F}
    (hmade : Made notional rate rule opts q.1 q.2 cf)
    (hmade' : Made notional rate rule opts q'.1 q'.2 cf') (hle : q.2 ≤ q'.2) {s e p s' e' p' : Int}
    (ha : Adjusts opts q.1.julian q.2.julian s e p)
    (ha' : Adjusts opts q'.1.julian q'.2.julian s' e' p') :
    cf.endDate ≤ cf'.endDate ∧ cf.paymentDate ≤ cf'.paymentDate := by
  obtain ⟨-, he, hp, -, -⟩ := hmade.adjusts ha
  obtain ⟨-, he', hp', -, -⟩ := hmade'.adjusts ha'
  have hend : e ≤ e' := ha.endDate.mono ha'.endDate hle
  rw [he, he', hp, hp']
  exact ⟨hend, ha.paymentDate.mono ha'.paymentDate hend⟩

/-- Without stubs and without a fixing adjustment there is a result. -/
theorem exists_result (hdir : opts.dateDir = d.dateDir) (hf : opts.frontStubType = .kNone)
    (hb : opts.backStubType = .kNone) (hbus : HasBusinessDays opts) (hlt : d.startDate < d.matDate)
    (hk : d.HasPeriods k) (hnn : d.GeneratedNonneg) (hadj : AdjustedNonneg d opts)
    (hrule : rule ≠ .kACTB_ACTB) (hcalc : opts.calcType ≠ .kCompounding)
    (hfix : opts.fixAdj.isSet = false)
    (hof : ¬ (createFixedCashflows d.startDate d.matDate d.resetFreq notional rate rule opts).Faults
      .overflow) :
    ∃ cfs, (createFixedCashflows d.startDate d.matDate d.resetFreq notional rate rule
      opts).Returns cfs := by
  obtain ⟨hls, hle⟩ := d.gridDates_length k
  -- every coupon's adjustments lead to day numbers from zero on
  have hcoupon : ∀ q ∈ (d.gridDates k).periods, (makeCoupon d.resetFreq notional rate rule opts
      (generateDayCounter rule) q.1 q.2).Ends (· = .overflow) fun _ => True := by
    intro q hq
    rw [Deal.gridDates_periods] at hq
    obtain ⟨s, e, p, ha⟩ := exists_adjusts hbus hk hnn hadj hq
    exact makeCoupon_ends (E := (· = .overflow)) rfl ha (fun hset => by simp [hfix] at hset)
      hrule hcalc
  have hgen := generateDates_ends_stubs (E := (· = .overflow)) rfl hdir hk hnn
    (applyStubs_none hf hb _ _ _)
  -- a deal of some length has a period
  have hne : (d.gridDates k).startDates ≠ [] := by
    rw [← List.length_pos_iff, hls]
    exact hk.pos hlt
  obtain ⟨cfs, hcfs, -⟩ := (createFixedCashflows_ends hlt.le hgen (hls.trans hle.symm) hne
    hcoupon).exists_returns_unless hof
  exact ⟨cfs, hcfs⟩

/-- Without stubs and with one formula for both ends of a period, every flow has its
    dates in order and its days not negative, and end and payment dates are in
    order up to the principal. Without a fixing adjustment the call returns. -/
theorem createFixedCashflows_ordered (hdir : opts.dateDir = d.dateDir)
    (hf : opts.frontStubType = .kNone) (hb : opts.backStubType = .kNone)
    (hsame : opts.startAdj = opts.endAdj) (hbus : HasBusinessDays opts)
    (hlt : d.startDate < d.matDate) (hn : 0 < d.resetFreq.count) (hnn : d.GeneratedNonneg)
    (hadj : AdjustedNonneg d opts) :
    (∀ cfs, (createFixedCashflows d.startDate d.matDate d.resetFreq notional rate rule
        opts).Returns cfs →
      (∀ cf ∈ cfs, cf.startDate ≤ cf.endDate ∧ 0 ≤ cf.days) ∧
      cfs.Pairwise (fun cf cf' => cf.endDate ≤ cf'.endDate) ∧
      cfs.Pairwise fun cf cf' => cf.paymentDate ≤ cf'.paymentDate) ∧
    (rule ≠ .kACTB_ACTB → opts.calcType ≠ .kCompounding → opts.fixAdj.isSet = false →
      ¬ (createFixedCashflows d.startDate d.matDate d.resetFreq notional rate rule opts).Faults
        .overflow →
      ∃ cfs, (createFixedCashflows d.startDate d.matDate d.resetFreq notional rate rule
        opts).Returns cfs) := by
  obtain ⟨k, hk⟩ := Deal.exists_periods hn
  constructor
  · intro cfs hcfs
    obtain ⟨coupons, last, hall, hlast, rfl⟩ := createFixedCashflows_returns_dates
      (generateDates_ends_stubs trivial hdir hk hnn (applyStubs_none hf hb _ _ _)) hcfs
    rw [Deal.gridDates_periods] at hall
    -- within one flow: both dates are adjusted by one rule, which keeps the order
    have hcoupon : ∀ cf ∈ coupons, cf.startDate ≤ cf.endDate ∧ 0 ≤ cf.days := by
      intro cf hcf
      obtain ⟨q, hq, hmade⟩ := exists_made hall hcf
      obtain ⟨s, e, p, ha⟩ := exists_adjusts hbus hk hnn hadj hq
      obtain ⟨i, -, rfl⟩ := Deal.mem_periods.mp hq
      exact hmade.ordered hsame (Deal.period_ordered hn i) ha
    -- between flows: the unadjusted dates are ordered, and adjusting keeps it
    have hpairs : coupons.Pairwise fun cf cf' =>
        cf.endDate ≤ cf'.endDate ∧ cf.paymentDate ≤ cf'.paymentDate := by
      apply pairwise_of_forall₂ hall (List.Pairwise.and_mem.mp (Deal.periods_ordered hn))
      intro q q' cf cf' hmade hmade' ⟨hq, hq', hle⟩
      obtain ⟨s, e, p, ha⟩ := exists_adjusts hbus hk hnn hadj hq
      obtain ⟨s', e', p', ha'⟩ := exists_adjusts hbus hk hnn hadj hq'
      exact hmade.adjusted_le hmade' hle ha ha'
    refine ⟨?_, ?_, ?_⟩
    · intro cf hcf
      rcases List.mem_append.mp hcf with hcf | hcf
      · exact hcoupon cf hcf
      · -- the principal has the dates and the days of the last coupon
        rw [List.mem_singleton] at hcf
        subst hcf
        exact hcoupon last (List.mem_of_getLast? hlast)
    · exact pairwise_concat_last (hpairs.imp And.left) hlast rfl
    · exact pairwise_concat_last (hpairs.imp And.right) hlast rfl
  · intro hrule hcalc hfix hof
    exact exists_result hdir hf hb hbus hlt hk hnn hadj hrule hcalc hfix hof

end Results

/-- Monthly periods whose ends move to the next weekday, and payments two weekdays later. -/
theorem createFixedCashflows_ordered_weekdays :
    ∃ cfs, (createFixedCashflows (F := ℚ) ⟨2460691⟩ ⟨2460811⟩ ⟨1, .kMonths⟩ 100 (1 / 20) .kACT_ACT
        { dateDir := .kForward, startAdj := ⟨1, some ⟨{5, 6}, "TST", {}⟩⟩,
          endAdj := ⟨1, some ⟨{5, 6}, "TST", {}⟩⟩,
          payAdj := ⟨2, some ⟨{5, 6}, "TST", {}⟩⟩ }).Returns cfs ∧
      (∀ cf ∈ cfs, cf.startDate ≤ cf.endDate ∧ 0 ≤ cf.days) ∧
      cfs.Pairwise (fun cf cf' => cf.endDate ≤ cf'.endDate) ∧
      cfs.Pairwise fun cf cf' => cf.paymentDate ≤ cf'.paymentDate := by
  let opts : Options :=
    { dateDir := .kForward, startAdj := ⟨1, some ⟨{5, 6}, "TST", {}⟩⟩,
      endAdj := ⟨1, some ⟨{5, 6}, "TST", {}⟩⟩, payAdj := ⟨2, some ⟨{5, 6}, "TST", {}⟩⟩ }
  -- the weekends leave five business days
  have hbus : BusinessDateFormula.HasBusinessDays ⟨1, some ⟨{5, 6}, "TST", {}⟩⟩ := by
    rintro _ ⟨⟩
    decide
  have hbus' : BusinessDateFormula.HasBusinessDays ⟨2, some ⟨{5, 6}, "TST", {}⟩⟩ := by
    rintro _ ⟨⟩
    decide
  have hnn : Deal.GeneratedNonneg ⟨.kForward, ⟨2460691⟩, ⟨2460811⟩, ⟨1, .kMonths⟩⟩ :=
    Deal.generatedNonneg_forward (by decide) (by decide)
  obtain ⟨cfs, hcfs, -⟩ := Comp.exists_returns_of_run (g := List.map CashflowStruct.endDate) (b :=
      [⟨2460724⟩, ⟨2460752⟩, ⟨2460782⟩, ⟨2460812⟩, ⟨2460812⟩]) 8
    (c := createFixedCashflows (F := ℚ) ⟨2460691⟩ ⟨2460811⟩ ⟨1, .kMonths⟩ 100 (1 / 20) .kACT_ACT
      opts) (by decide +kernel)
  exact ⟨cfs, hcfs, (createFixedCashflows_ordered
    (d := ⟨.kForward, ⟨2460691⟩, ⟨2460811⟩, ⟨1, .kMonths⟩⟩) (show opts.dateDir = .kForward from rfl)
    rfl rfl rfl ⟨hbus, hbus, hbus'⟩
    (by decide) (by decide) hnn
    (adjustedNonneg hnn (by decide) (by decide) (by decide))).1 cfs hcfs⟩

end OA.DerivedTime
