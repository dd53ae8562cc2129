import OdinAnalytics.Spec.CouponCorrect

/-!
# Stub periods

Where the roll dates do not reach the other end of the deal, a stub type lets the
last generated period end there instead: a short stub moves one end of that
period, a long stub drops the period and moves that end of the one before it.
Both lead to the same schedules (`Deal.shortDates`): the long stub of `k + 2`
periods is the short stub of `k + 1`.

## Key results

- `applyStubs_short`, `applyStubs_long`: the schedules with a stub
- `shortPeriods_covers`: a schedule with a stub covers the deal
- `createFixedCashflows_short_covers`: so do the flows, and the principal follows them
-/

namespace OA.DerivedTime

open Machine OA.Time

/-- Periods from the start date to the maturity date, none of them empty, in the
    order of their end dates. -/
structure Covers (startDate matDate : Date) (periods : List (Date × Date)) : Prop where
  first : periods.head?.map Prod.fst = some startDate
  last : periods.getLast?.map Prod.snd = some matDate
  ordered : ∀ p ∈ periods, p.1 < p.2
  increasing : (periods.map Prod.snd).Pairwise (· < ·)

namespace Deal

variable (d : Deal)

/-- Options with the short stub that the direction of the deal looks at. -/
def shortOptions : Options :=
  match d.dateDir with
  | .kForward => { dateDir := .kForward, backStubType := .kShortLast }
  | .kBackward => { dateDir := .kBackward, frontStubType := .kShortFirst }

/-- Options with the long stub that the direction of the deal looks at. -/
def longOptions : Options :=
  match d.dateDir with
  | .kForward => { dateDir := .kForward, backStubType := .kLongLast }
  | .kBackward => { dateDir := .kBackward, frontStubType := .kLongFirst }

/-- Options that ask for the short stub of the direction of the deal, with no date of
    their own for it. What they say about the other end is never looked at. -/
structure TakesShortStub (opts : Options) : Prop where
  dateDir : opts.dateDir = d.dateDir
  stubType : match d.dateDir with
    | .kForward => opts.backStubType = .kShortLast
    | .kBackward => opts.frontStubType = .kShortFirst
  stubDate : match d.dateDir with
    | .kForward => opts.backStubDate.isSet = false
    | .kBackward => opts.frontStubDate.isSet = false

/-- The last generated period, moved to the other end of the deal. -/
def stub (i : Nat) : Date × Date :=
  match d.dateDir with
  | .kForward => (⟨d.rollDate i⟩, d.matDate)
  | .kBackward => (d.startDate, ⟨d.rollDate i⟩)

/-- The schedule of `k` whole periods and a stub. -/
def shortDates (k : Nat) : Schedule :=
  let rolls := (List.range (k + 1)).map fun i => ⟨d.rollDate i⟩
  let fars := (List.range k).map fun i => ⟨d.farDate i⟩
  match d.dateDir with
  | .kForward => ⟨rolls, fars ++ [d.matDate]⟩
  | .kBackward => ⟨d.startDate :: fars.reverse, rolls.reverse⟩

/-- The `k` whole periods and the stub. -/
def shortPeriods (k : Nat) : List (Date × Date) :=
  match d.dateDir with
  | .kForward => (List.range k).map d.period ++ [d.stub k]
  | .kBackward => d.stub k :: ((List.range k).map d.period).reverse

variable {d} {k : Nat}

/-- The options have the direction of the deal. -/
theorem shortOptions_dateDir : d.shortOptions.dateDir = d.dateDir := by
  unfold shortOptions
  split <;> simp [*]

/-- The options of the long stub have the direction of the deal. -/
theorem longOptions_dateDir : d.longOptions.dateDir = d.dateDir := by
  unfold longOptions
  split <;> simp [*]

/-- A short stub and `k` periods have as many dates. -/
theorem shortDates_length (k : Nat) : (d.shortDates k).startDates.length = k + 1 ∧
    (d.shortDates k).endDates.length = k + 1 := by
  unfold shortDates
  split <;> simp

/-- The dates in pairs are the periods with the stub. -/
theorem shortDates_periods (k : Nat) : (d.shortDates k).periods = d.shortPeriods k := by
  unfold shortDates shortPeriods period stub Schedule.periods
  -- the stub is the last period forward, and the first one backward
  cases d.dateDir with
  | kForward =>
    simp only [List.range_succ, List.map_append, List.map_cons, List.map_nil]
    rw [List.zip_append (by simp), List.zip_map']
    rfl
  | kBackward =>
    simp only [List.range_succ, List.map_append, List.map_cons, List.map_nil, List.reverse_append,
      List.reverse_cons, List.reverse_nil, List.nil_append, List.cons_append, List.zip_cons_cons,
      ← List.map_reverse, List.zip_map']

/-! ## Stub adjustments -/

section Vector

variable {α : Type} (xs : List α) (x a : α)

/-- Setting the last element. -/
theorem setBack_concat : setBack a (xs ++ [x]) = .ok (xs ++ [a]) := by
  cases xs with
  | nil => rfl
  | cons y ys => rw [List.cons_append, setBack, ← List.cons_append, List.dropLast_concat]

/-- Taking off the last element. -/
theorem popBack_concat : popBack (xs ++ [x]) = .ok xs := by
  cases xs with
  | nil => rfl
  | cons y ys => rw [List.cons_append, popBack, ← List.cons_append, List.dropLast_concat]

end Vector

/-- The first `k` roll dates and far dates, as the loops push them. -/
theorem gridDates_forward {startDate matDate : Date} {resetFreq : Tenor} (k : Nat) :
    gridDates ⟨.kForward, startDate, matDate, resetFreq⟩ k =
      ⟨(List.range k).map fun i => ⟨rollDate ⟨.kForward, startDate, matDate, resetFreq⟩ i⟩,
        (List.range k).map fun i => ⟨farDate ⟨.kForward, startDate, matDate, resetFreq⟩ i⟩⟩ := rfl

/-- Going backward, the dates are generated in the other order. -/
theorem gridDates_backward {startDate matDate : Date} {resetFreq : Tenor} (k : Nat) :
    gridDates ⟨.kBackward, startDate, matDate, resetFreq⟩ k =
      ⟨((List.range k).map fun i =>
          ⟨farDate ⟨.kBackward, startDate, matDate, resetFreq⟩ i⟩).reverse,
        ((List.range k).map fun i =>
          ⟨rollDate ⟨.kBackward, startDate, matDate, resetFreq⟩ i⟩).reverse⟩ := rfl

/-- The short stub takes the place of the last period that was generated. -/
theorem applyStubs_short (k : Nat) : applyStubs d.startDate d.matDate d.shortOptions
    (d.gridDates (k + 1)) = .ok (d.shortDates k) := by
  obtain ⟨_ | _, startDate, matDate, resetFreq⟩ := d
  · -- the last far date is replaced
    show shortLast matDate _ (gridDates _ (k + 1)) = _
    rw [gridDates_forward, shortLast, List.range_succ, List.map_append, List.map_append,
      List.map_singleton, List.map_singleton, setBack_concat, ok_bind]
    simp only [shortDates, List.range_succ, List.map_append, List.map_singleton]
    rfl
  · -- the last far date, now at the front, is replaced
    show shortFirst startDate _ (gridDates _ (k + 1)) = _
    rw [gridDates_backward, shortFirst]
    simp only [shortDates, List.range_succ, List.map_append, List.map_singleton,
      List.reverse_append, List.reverse_singleton, List.singleton_append]
    rfl

/-- All options that take the short stub adjust a schedule alike. -/
theorem TakesShortStub.applyStubs_eq {opts : Options} (h : d.TakesShortStub opts)
    (g : Schedule) : applyStubs d.startDate d.matDate opts g =
      applyStubs d.startDate d.matDate d.shortOptions g := by
  obtain ⟨hdir, htype, hdate⟩ := h
  -- an unset stub date gives way to the end of the deal
  have hvalue : ∀ (stub other : Date), stub.isSet = false → stub.valueOr other = other := by
    intro stub other hstub
    unfold Date.valueOr
    rw [hstub]
    rfl
  unfold applyStubs stubDateAdjustments shortOptions
  cases hd : d.dateDir with
  | kForward =>
    simp only [hd] at hdir htype hdate
    simp [hdir, htype, shortLast, hvalue _ _ hdate, hvalue {} _ rfl]
  | kBackward =>
    simp only [hd] at hdir htype hdate
    simp [hdir, htype, shortFirst, hvalue _ _ hdate, hvalue {} _ rfl]

/-- The long stub takes the place of the last two periods that were generated. -/
theorem applyStubs_long (k : Nat) : applyStubs d.startDate d.matDate d.longOptions
    (d.gridDates (k + 2)) = .ok (d.shortDates k) := by
  obtain ⟨_ | _, startDate, matDate, resetFreq⟩ := d
  -- with the last period dropped, what is left to do is a short stub
  · have hshort := applyStubs_short (d := ⟨.kForward, startDate, matDate, resetFreq⟩) k
    show (popBack (gridDates _ (k + 2)).endDates >>= fun endDates =>
      popBack (gridDates _ (k + 2)).startDates >>= fun startDates =>
        shortLast matDate _ ⟨startDates, endDates⟩) = _
    rw [gridDates_forward, List.range_succ, List.map_append, List.map_append, List.map_singleton,
      List.map_singleton, popBack_concat, ok_bind, popBack_concat, ok_bind]
    exact hshort
  · have hshort := applyStubs_short (d := ⟨.kBackward, startDate, matDate, resetFreq⟩) k
    show (eraseFront (gridDates _ (k + 2)).startDates >>= fun startDates =>
      eraseFront (gridDates _ (k + 2)).endDates >>= fun endDates =>
        shortFirst startDate _ ⟨startDates, endDates⟩) = _
    rw [gridDates_backward, List.range_succ, List.map_append, List.map_append, List.map_singleton,
      List.map_singleton, List.reverse_append, List.reverse_append]
    exact hshort

/-! ## The deal is covered -/

section Cover

variable {startDate matDate : Date} {resetFreq : Tenor}

/-- Going forward, the periods with the stub cover the deal. -/
theorem shortPeriods_covers_forward
    (hk : HasPeriods ⟨.kForward, startDate, matDate, resetFreq⟩ (k + 1))
    (hn : 0 < resetFreq.count) :
    Covers startDate matDate (shortPeriods ⟨.kForward, startDate, matDate, resetFreq⟩ k) := by
  have hlt : ∀ i, rollDate ⟨.kForward, startDate, matDate, resetFreq⟩ i <
      farDate ⟨.kForward, startDate, matDate, resetFreq⟩ i := DateShift.lt_rollNext hn
  have hmono : StrictMono (rollDate ⟨.kForward, startDate, matDate, resetFreq⟩) :=
    DateShift.roll_strictMono hn
  have hin : rollDate ⟨.kForward, startDate, matDate, resetFreq⟩ k < matDate.julian :=
    hk.inside k (Nat.lt_succ_self k)
  have hfar : ∀ i j, i < j → farDate ⟨.kForward, startDate, matDate, resetFreq⟩ i ≤
      rollDate ⟨.kForward, startDate, matDate, resetFreq⟩ j := fun i j hij =>
    (farDate_le i).trans (hmono.monotone hij)
  constructor
  · -- the first period starts at the anchor
    cases k with
    | zero => simp [shortPeriods, stub, anchor]
    | succ k => simp [shortPeriods, period, List.range_succ_eq_map, anchor]
  · -- the last one is the stub
    simp [shortPeriods, stub]
  · intro p hp
    simp only [shortPeriods, List.mem_append, List.mem_map, List.mem_singleton] at hp
    rcases hp with ⟨i, -, rfl⟩ | rfl
    · exact hlt i
    · exact hin
  · simp only [shortPeriods, List.map_append, List.map_map, List.map_singleton]
    rw [List.pairwise_append, List.pairwise_map]
    -- a period ends by the next roll date, and the last roll date is inside the deal
    refine ⟨List.pairwise_lt_range.imp fun {i j} hij => ?_, List.pairwise_singleton _ _, ?_⟩
    · exact lt_of_le_of_lt (hfar i j hij) (hlt j)
    · intro a ha b hb
      obtain ⟨i, hi, rfl⟩ := List.mem_map.mp ha
      rw [List.mem_singleton] at hb
      subst hb
      exact lt_of_le_of_lt (hfar i k (List.mem_range.mp hi)) hin

/-- Going backward, the stub and the periods cover the deal. -/
theorem shortPeriods_covers_backward
    (hk : HasPeriods ⟨.kBackward, startDate, matDate, resetFreq⟩ (k + 1))
    (hn : 0 < resetFreq.count) :
    Covers startDate matDate (shortPeriods ⟨.kBackward, startDate, matDate, resetFreq⟩ k) := by
  have hlt : ∀ i, farDate ⟨.kBackward, startDate, matDate, resetFreq⟩ i <
      rollDate ⟨.kBackward, startDate, matDate, resetFreq⟩ i :=
    DateShift.rollNext_lt (neg_neg_of_pos hn)
  have hanti : StrictAnti (rollDate ⟨.kBackward, startDate, matDate, resetFreq⟩) :=
    DateShift.roll_strictAnti (neg_neg_of_pos hn)
  have hin : startDate.julian < rollDate ⟨.kBackward, startDate, matDate, resetFreq⟩ k :=
    hk.inside k (Nat.lt_succ_self k)
  constructor
  · -- the first period is the stub
    simp [shortPeriods, stub]
  · -- the last one, which is generated first, ends at the anchor
    cases k with
    | zero => simp [shortPeriods, stub, anchor]
    | succ k =>
      rw [shortPeriods, List.range_succ_eq_map, List.map_cons, List.reverse_cons,
        ← List.cons_append, List.getLast?_concat]
      simp [period, anchor]
  · intro p hp
    simp only [shortPeriods, List.mem_cons, List.mem_reverse, List.mem_map] at hp
    rcases hp with rfl | ⟨i, -, rfl⟩
    · exact hin
    · exact hlt i
  · simp only [shortPeriods, List.map_cons, List.map_reverse, List.map_map, List.pairwise_cons,
      List.pairwise_reverse, List.mem_reverse, List.mem_map, List.mem_range]
    -- the end dates are the roll dates, from the last one to the first
    constructor
    · intro date ⟨i, hi, hdate⟩
      exact hdate ▸ hanti hi
    · rw [List.pairwise_map]
      exact List.pairwise_lt_range.imp fun {i j} hij => hanti hij

end Cover

/-- A schedule with a short stub covers the deal. -/
theorem shortPeriods_covers (hk : d.HasPeriods (k + 1)) (hn : 0 < d.resetFreq.count) :
    Covers d.startDate d.matDate (d.shortPeriods k) := by
  obtain ⟨_ | _, startDate, matDate, resetFreq⟩ := d
  · exact shortPeriods_covers_forward hk hn
  · exact shortPeriods_covers_backward hk hn

/-- The dates of the periods are at day number zero or later, if the roll dates are. -/
theorem shortPeriods_nonneg (hs : 0 ≤ d.startDate.julian) (hm : 0 ≤ d.matDate.julian)
    (hroll : ∀ i ≤ k, 0 ≤ d.rollDate i) (hfar : ∀ i < k, 0 ≤ d.farDate i) :
    ∀ p ∈ d.shortPeriods k, 0 ≤ p.1.julian ∧ 0 ≤ p.2.julian := by
  -- the stub runs between the last roll date and the far end of the deal
  have hstub : 0 ≤ (d.stub k).1.julian ∧ 0 ≤ (d.stub k).2.julian := by
    unfold stub
    split
    · exact ⟨hroll k le_rfl, hm⟩
    · exact ⟨hs, hroll k le_rfl⟩
  -- the others between a roll date and its far date
  have hperiod : ∀ i < k, 0 ≤ (d.period i).1.julian ∧ 0 ≤ (d.period i).2.julian := by
    intro i hi
    unfold period
    split
    · exact ⟨hroll i hi.le, hfar i hi⟩
    · exact ⟨hfar i hi, hroll i hi.le⟩
  intro p hp
  unfold shortPeriods at hp
  split at hp
  · simp only [List.mem_append, List.mem_map, List.mem_range, List.mem_singleton] at hp
    rcases hp with ⟨i, hi, rfl⟩ | rfl
    · exact hperiod i hi
    · exact hstub
  · simp only [List.mem_cons, List.mem_reverse, List.mem_map, List.mem_range] at hp
    rcases hp with rfl | ⟨i, hi, rfl⟩
    · exact hstub
    · exact hperiod i hi

/-- The options of the short stub adjust nothing. -/
theorem unadjusted_shortOptions : Unadjusted d.shortOptions := by
  unfold shortOptions
  split <;> exact ⟨rfl, rfl, rfl, rfl⟩

/-- The options of the long stub adjust nothing. -/
theorem unadjusted_longOptions : Unadjusted d.longOptions := by
  unfold longOptions
  split <;> exact ⟨rfl, rfl, rfl, rfl⟩

/-- The options of the short stub ask for flat coupons. -/
theorem shortOptions_calcType : d.shortOptions.calcType = .kFlat ∧
    d.shortOptions.cashflowType = .kFixed := by
  unfold shortOptions
  split <;> exact ⟨rfl, rfl⟩

/-- The options of the long stub ask for flat coupons. -/
theorem longOptions_calcType : d.longOptions.calcType = .kFlat := by
  unfold longOptions
  split <;> rfl

end Deal

/-! ## Results -/

section Results

variable {F : Type} [IntCast F] [Add F] [Mul F] [Div F] [Neg F] {notional rate : F}
  {rule : DayCountRule} {d : Deal} {k : Nat} {cfs : List (CashflowStruct F)} {E : Fault → Prop}

/-- A call whose stub adjustments lead to a schedule with a stub ends. -/
theorem createFixedCashflows_ends_stub (hE : E .overflow) {opts : Options}
    (hopts : Unadjusted opts) (hcalc : opts.calcType = .kFlat) (hrule : rule ≠ .kACTB_ACTB)
    (hlt : d.startDate < d.matDate)
    (hgen : (generateDates d.startDate d.matDate d.resetFreq opts.dateDir).Ends E fun generated =>
      applyStubs d.startDate d.matDate opts generated = .ok (d.shortDates k)) :
    (createFixedCashflows d.startDate d.matDate d.resetFreq notional rate rule opts).Ends E
      fun _ => True := by
  obtain ⟨hs, he⟩ := d.shortDates_length k
  refine createFixedCashflows_ends_unadjusted hE hopts (by rw [hcalc]; nofun) hrule hlt.le
    hgen (hs.trans he.symm) ?_
  rw [← List.length_pos_iff, hs]
  exact Nat.succ_pos k

/-- With a short stub the call ends. -/
theorem createFixedCashflows_ends_short (hE : E .overflow) (hrule : rule ≠ .kACTB_ACTB)
    (hlt : d.startDate < d.matDate) (hk : d.HasPeriods (k + 1)) (hnn : d.GeneratedNonneg) :
    (createFixedCashflows d.startDate d.matDate d.resetFreq notional rate rule
      d.shortOptions).Ends E fun _ => True :=
  createFixedCashflows_ends_stub hE Deal.unadjusted_shortOptions Deal.shortOptions_calcType.1 hrule
    hlt (generateDates_ends_stubs hE Deal.shortOptions_dateDir hk hnn (Deal.applyStubs_short k))

/-- With a long stub and two periods the call ends. -/
theorem createFixedCashflows_ends_long (hE : E .overflow) (hrule : rule ≠ .kACTB_ACTB)
    (hlt : d.startDate < d.matDate) (hk : d.HasPeriods (k + 2)) (hnn : d.GeneratedNonneg) :
    (createFixedCashflows d.startDate d.matDate d.resetFreq notional rate rule
      d.longOptions).Ends E fun _ => True :=
  createFixedCashflows_ends_stub hE Deal.unadjusted_longOptions Deal.longOptions_calcType hrule hlt
    (generateDates_ends_stubs hE Deal.longOptions_dateDir hk hnn (Deal.applyStubs_long k))

/-- The coupons with a short stub, one made from each period. -/
theorem createFixedCashflows_returns_short (hk : d.HasPeriods (k + 1)) (hnn : d.GeneratedNonneg)
    (h : (createFixedCashflows d.startDate d.matDate d.resetFreq notional rate rule
      d.shortOptions).Returns cfs) : ∃ coupons last,
      List.Forall₂ (fun p cf => Made notional rate rule d.shortOptions p.1 p.2 cf)
        (d.shortPeriods k) coupons ∧
      coupons.getLast? = some last ∧ cfs = coupons ++ [principal notional last] := by
  rw [← Deal.shortDates_periods]
  exact createFixedCashflows_returns_dates (generateDates_ends_stubs trivial
    Deal.shortOptions_dateDir hk hnn (Deal.applyStubs_short k)) h

/-- Two flows with the same dates. -/
structure SameDates (cf cf' : CashflowStruct F) : Prop where
  unadjStartDate : cf.unadjStartDate = cf'.unadjStartDate
  unadjEndDate : cf.unadjEndDate = cf'.unadjEndDate
  startDate : cf.startDate = cf'.startDate
  endDate : cf.endDate = cf'.endDate
  fixingDate : cf.fixingDate = cf'.fixingDate
  paymentDate : cf.paymentDate = cf'.paymentDate

/-- With a short stub at the end that the loop runs towards, the call returns
    coupons that cover the deal, and the principal with the dates of the last one. -/
theorem createFixedCashflows_short_covers (hlt : d.startDate < d.matDate)
    (hn : 0 < d.resetFreq.count) (hrule : rule ≠ .kACTB_ACTB) (hnn : d.GeneratedNonneg)
    (hof : ¬ (createFixedCashflows d.startDate d.matDate d.resetFreq notional rate rule
      d.shortOptions).Faults .overflow) :
    ∃ coupons last repayment, (createFixedCashflows d.startDate d.matDate d.resetFreq notional rate
        rule d.shortOptions).Returns (coupons ++ [repayment]) ∧
      coupons.getLast? = some last ∧
      Covers d.startDate d.matDate (couponPeriods (coupons ++ [repayment])) ∧
      (∀ cf ∈ coupons, cf.cfType = .kFixed) ∧
      repayment.cfType = .kPrincipal ∧ repayment.cashflowAmount = notional ∧
      SameDates repayment last := by
  obtain ⟨k, hk⟩ := Deal.exists_periods hn
  obtain ⟨k, rfl⟩ := Nat.exists_eq_succ_of_ne_zero (hk.pos hlt).ne'
  -- the call ends, and without an overflow it returns
  have hends : (createFixedCashflows d.startDate d.matDate d.resetFreq notional rate rule
      d.shortOptions).Ends (· = .overflow) fun _ => True :=
    createFixedCashflows_ends_short rfl hrule hlt hk hnn
  obtain ⟨cfs, hcfs, -⟩ := hends.exists_returns_unless hof
  obtain ⟨coupons, last, hall, hlast, rfl⟩ := createFixedCashflows_returns_short hk hnn hcfs
  refine ⟨coupons, last, principal notional last, hcfs, hlast, ?_, ?_, rfl, rfl,
    ⟨rfl, rfl, rfl, rfl, rfl, rfl⟩⟩
  · rw [couponPeriods_eq hall]
    exact Deal.shortPeriods_covers hk hn
  · intro cf hcf
    obtain ⟨p, -, hmade⟩ := exists_made hall hcf
    rw [hmade.cfType]
    exact Deal.shortOptions_calcType.2

end Results

/-- Six-month periods back to a start date that is five days before a roll date. -/
theorem createFixedCashflows_short_covers_backward :
    ∃ coupons last repayment, (createFixedCashflows (F := ℚ) ⟨2460264⟩ ⟨2460816⟩ ⟨6, .kMonths⟩ 100
        (1 / 20) .kACT_ACT
        (Deal.shortOptions ⟨.kBackward, ⟨2460264⟩, ⟨2460816⟩, ⟨6, .kMonths⟩⟩)).Returns
        (coupons ++ [repayment]) ∧
      coupons.getLast? = some last ∧
      Covers ⟨2460264⟩ ⟨2460816⟩ (couponPeriods (coupons ++ [repayment])) ∧
      (∀ cf ∈ coupons, cf.cfType = .kFixed) ∧
      repayment.cfType = .kPrincipal ∧ repayment.cashflowAmount = 100 ∧
      SameDates repayment last := by
  -- a stub of five days and three full periods
  obtain ⟨cfs, hcfs, -⟩ := Comp.exists_returns_of_run (g := couponPeriods) (b :=
      [(⟨2460264⟩, ⟨2460269⟩), (⟨2460269⟩, ⟨2460451⟩), (⟨2460451⟩, ⟨2460635⟩),
        (⟨2460635⟩, ⟨2460816⟩)]) 5
    (c := createFixedCashflows (F := ℚ) ⟨2460264⟩ ⟨2460816⟩ ⟨6, .kMonths⟩ 100 (1 / 20) .kACT_ACT
      (Deal.shortOptions ⟨.kBackward, ⟨2460264⟩, ⟨2460816⟩, ⟨6, .kMonths⟩⟩)) (by decide +kernel)
  exact createFixedCashflows_short_covers
    (d := ⟨.kBackward, ⟨2460264⟩, ⟨2460816⟩, ⟨6, .kMonths⟩⟩) (by decide) (by decide) (by decide)
    (Deal.generatedNonneg_backward (by decide) (by decide)) hcfs.not_faults

end OA.DerivedTime
