import OdinAnalytics.Spec.CalendarCorrect
import OdinAnalytics.Spec.DayCountCorrect
import OdinAnalytics.Spec.Faults
import OdinAnalytics.Spec.ScheduleCorrect

/-!
# Coupons

What `CreateFixedCashflows` makes of a schedule: one coupon for each period, and
the principal. Going backward from a result, each coupon is `Made` from its period
(`createFixedCashflows_returns`); going forward, the call ends when the schedule
is not empty and each coupon can be made (`createFixedCashflows_ends`).
-/

namespace OA.DerivedTime

open Machine OA.Time

/-! ## Date adjustments -/

namespace BusinessDateFormula

variable {formula : BusinessDateFormula} {E : Fault → Prop} {u u' r r' : Int}

/-- The day an adjustment leads to. -/
def IsAdjusted (formula : BusinessDateFormula) (u r : Int) : Prop :=
  match formula.calendar with
  | none => r = u + formula.numOfBusinessDays
  | some cal => cal.IsStop formula.numOfBusinessDays u r

/-- The calendar of the formula, if any, has business days. -/
def HasBusinessDays (formula : BusinessDateFormula) : Prop :=
  ∀ cal, formula.calendar = some cal → cal.HasBusinessWeekday

/-- A formula adjusts every date, in calendars with business days. -/
theorem exists_isAdjusted (h : formula.HasBusinessDays) (u : Int) :
    ∃ r, formula.IsAdjusted u r := by
  unfold IsAdjusted
  cases hcal : formula.calendar with
  | none => exact ⟨_, rfl⟩
  | some cal => exact Calendar.exists_isStop (h cal hcal) _ u

/-- Adjusting keeps the order of dates. -/
theorem IsAdjusted.mono (h : formula.IsAdjusted u r) (h' : formula.IsAdjusted u' r')
    (hle : u ≤ u') : r ≤ r' := by
  unfold IsAdjusted at h h'
  cases hcal : formula.calendar with
  | none =>
    simp only [hcal] at h h'
    omega
  | some cal =>
    simp only [hcal] at h h'
    exact h.mono h' hle

/-- An adjustment by no negative count does not go back. -/
theorem IsAdjusted.le (h : formula.IsAdjusted u r) (hn : 0 ≤ formula.numOfBusinessDays) :
    u ≤ r := by
  unfold IsAdjusted at h
  -- without a calendar the count is one of calendar days
  cases hcal : formula.calendar with
  | none =>
    simp only [hcal] at h
    omega
  | some cal =>
    simp only [hcal] at h
    rcases hn.lt_or_eq with hpos | hzero
    · exact (h.lt hpos).le
    · exact (h.zero hzero.symm).ge

/-- Adjusting returns the adjusted date or overflows. -/
theorem adjust_ends (hE : E .overflow) (h : formula.IsAdjusted u r) (hu : 0 ≤ u) (hr : 0 ≤ r) :
    (formula.adjust ⟨u⟩).Ends E (· = ⟨r⟩) := by
  unfold IsAdjusted at h
  unfold adjust
  -- days are added by a checked addition, business days by a walk
  cases hcal : formula.calendar with
  | none =>
    simp only [hcal] at h
    subst h
    exact Comp.ends_lift (Post.bind_eq (post_checked_of (Or.inl hE)) rfl)
  | some cal =>
    simp only [hcal] at h
    exact Calendar.addBusinessDays_ends h (le_min hu hr) (Or.inl hE)

/-- The adjustment that `Options` starts with changes nothing, on any date. -/
theorem adjust_default_ends (hE : E .overflow) (base : Date) :
    (({} : BusinessDateFormula).adjust base).Ends E (· = base) :=
  Comp.ends_lift (Post.bind_eq (post_checked_of (Or.inl hE)) (congrArg Date.mk (add_zero _)))

end BusinessDateFormula

/-! ## One coupon -/

section Coupon

variable {F : Type} [IntCast F] [Add F] [Mul F] [Div F] [Neg F] {resetFreq : Tenor}
  {notional rate : F} {rule : DayCountRule} {opts : Options} {us ue : Date} {cf : CashflowStruct F}

variable (notional rate rule opts us ue cf) in
/-- A coupon made from a period: every field, by the computation it comes from. -/
structure Made : Prop where
  unadjStartDate : cf.unadjStartDate = us
  unadjEndDate : cf.unadjEndDate = ue
  startDate : (opts.startAdj.adjust us).Returns cf.startDate
  endDate : (opts.endAdj.adjust ue).Returns cf.endDate
  paymentDate : (opts.payAdj.adjust cf.endDate).Returns cf.paymentDate
  fixingDate : (DerivedTime.fixingDate opts cf.startDate cf.endDate).Returns cf.fixingDate
  counter : ∃ c : DayCounterBase F, generateDayCounter rule = some c ∧
    c.dayCount cf.startDate cf.endDate = .ok cf.days ∧
    (c.yearFraction cf.startDate cf.endDate).Returns cf.dayCountFraction
  notional : cf.notional = notional
  rate : cf.rate = rate
  amount : opts.calcType = .kFlat → cf.cashflowAmount = cf.notional * cf.rate * cf.dayCountFraction
  cfCurr : cf.cfCurr = opts.currency
  cfType : cf.cfType = opts.cashflowType

omit [Add F] [Neg F] in
/-- `computeCoupon` only sets the amount. -/
theorem computeCoupon_eq_ok {cf' : CashflowStruct F}
    (h : computeCoupon cf resetFreq opts rule = .ok cf') :
    ∃ amount, cf' = { cf with cashflowAmount := amount } ∧
      (opts.calcType = .kFlat → amount = cf.notional * cf.rate * cf.dayCountFraction) := by
  unfold computeCoupon at h
  cases hcalc : opts.calcType with
  | kFlat =>
    rw [hcalc] at h
    exact ⟨_, (Except.ok.inj h).symm, fun _ => rfl⟩
  | kBBGCalcType1 | kBBGCalcType2 | kUSTStreetConv =>
    -- the three cases that fall through to one
    rw [hcalc] at h
    obtain ⟨amount, -, h⟩ := bind_eq_ok.mp h
    exact ⟨amount, (Except.ok.inj h).symm, nofun⟩
  | kCompounding =>
    rw [hcalc] at h
    exact nomatch h

/-- A coupon that is returned is made of its period. -/
theorem makeCoupon_returns
    (h : (makeCoupon resetFreq notional rate rule opts (generateDayCounter rule) us ue).Returns
      cf) :
    Made notional rate rule opts us ue cf := by
  unfold makeCoupon at h
  -- one step for each statement of the loop body
  obtain ⟨s, hs, h⟩ := Comp.bind_returns.mp h
  obtain ⟨e, he, h⟩ := Comp.bind_returns.mp h
  obtain ⟨p, hp, h⟩ := Comp.bind_returns.mp h
  obtain ⟨c, hc, h⟩ := Comp.bind_returns.mp h
  obtain ⟨days, hdays, h⟩ := Comp.bind_returns.mp h
  obtain ⟨fraction, hfraction, h⟩ := Comp.bind_returns.mp h
  obtain ⟨fix, hfix, h⟩ := Comp.bind_returns.mp h
  obtain ⟨amount, rfl, hamount⟩ := computeCoupon_eq_ok (Comp.lift_returns.mp h)
  have hcounter : generateDayCounter rule = some c := by
    have := Comp.lift_returns.mp hc
    unfold deref at this
    split at this
    · exact nomatch this
    · next hsome => rw [hsome, Except.ok.inj this]
  exact ⟨rfl, rfl, hs, he, hp, hfix, ⟨c, hcounter, Comp.lift_returns.mp hdays, hfraction⟩, rfl, rfl,
    hamount, rfl, rfl⟩

/-! ## Making a coupon -/

variable {E : Fault → Prop}

omit [Mul F] in
/-- All conventions but one have a day counter. -/
theorem exists_counter (h : rule ≠ .kACTB_ACTB) :
    ∃ c : DayCounterBase F, generateDayCounter rule = some c := by
  cases rule with
  | kACTB_ACTB => exact absurd rfl h
  | _ => exact ⟨_, rfl⟩

/-- The fixing adjustment, if there is one, stays on day numbers from zero on. -/
def FixesNonneg (opts : Options) (s e : Int) : Prop :=
  opts.fixAdj.isSet = true →
    ∃ r, 0 ≤ r ∧ opts.fixAdj.IsAdjusted (if opts.resetDir = .kAdvance then s else e) r

/-- The fixing date is adjusted and stays at day number zero or later. -/
theorem fixingDate_ends (hE : E .overflow) {s e : Int} (hs : 0 ≤ s) (he : 0 ≤ e)
    (h : FixesNonneg opts s e) :
    (fixingDate opts ⟨s⟩ ⟨e⟩).Ends E fun date => 0 ≤ date.julian := by
  unfold fixingDate
  -- without a rule the fixing date is the start date
  split
  · exact Comp.ends_pure hs
  · next hset =>
    obtain ⟨r, hr, hadj⟩ := h (by simpa using hset)
    split
    · next hdir =>
      rw [if_pos hdir] at hadj
      exact (BusinessDateFormula.adjust_ends hE hadj hs hr).weaken fun _ hv => hv ▸ hr
    · next hdir =>
      rw [if_neg hdir] at hadj
      exact (BusinessDateFormula.adjust_ends hE hadj he hr).weaken fun _ hv => hv ▸ hr

/-- The dates a coupon is made from and the dates its adjustments lead to. -/
structure Adjusts (opts : Options) (us ue s e p : Int) : Prop where
  startDate : opts.startAdj.IsAdjusted us s
  endDate : opts.endAdj.IsAdjusted ue e
  paymentDate : opts.payAdj.IsAdjusted e p
  unadj_nonneg : 0 ≤ us ∧ 0 ≤ ue
  nonneg : 0 ≤ s ∧ 0 ≤ e ∧ 0 ≤ p

/-- A coupon can be made of every period whose dates adjust to day numbers from zero on. -/
theorem makeCoupon_ends (hE : E .overflow) {us ue s e p : Int} (h : Adjusts opts us ue s e p)
    (hfix : FixesNonneg opts s e) (hrule : rule ≠ .kACTB_ACTB)
    (hcalc : opts.calcType ≠ .kCompounding) :
    (makeCoupon resetFreq notional rate rule opts (generateDayCounter rule) ⟨us⟩ ⟨ue⟩).Ends E
      fun _ => True := by
  obtain ⟨c, hc⟩ := exists_counter (F := F) hrule
  obtain ⟨hus, hue⟩ := h.unadj_nonneg
  obtain ⟨hs, he, hp⟩ := h.nonneg
  unfold makeCoupon
  -- the steps of the function, one by one
  apply (BusinessDateFormula.adjust_ends hE h.startDate hus hs).bind_eq
  apply (BusinessDateFormula.adjust_ends hE h.endDate hue he).bind_eq
  apply (BusinessDateFormula.adjust_ends hE h.paymentDate he hp).bind_eq
  rw [hc, deref]
  apply (Comp.ends_lift (dayCount_post (Or.inl hE) hs he hc)).bind_eq
  apply (yearFraction_ends (Or.inl hE) hs he hc).bind_eq
  apply (fixingDate_ends hE hs he hfix).bind
  intro fixing hfixing
  -- the amount asks for the year of the fixing date
  have hleap : Post fixing.inLeapYear E fun _ => True :=
    (year_post (Or.inl hE) hfixing).bind fun _ _ => trivial
  exact Comp.ends_lift (computeCoupon_post hleap fun h => absurd h hcalc)

/-- The dates and the days of a coupon whose dates adjust to day numbers from zero on. -/
theorem Made.adjusts {us ue s e p : Int} (h : Made notional rate rule opts ⟨us⟩ ⟨ue⟩ cf)
    (ha : Adjusts opts us ue s e p) : cf.startDate = ⟨s⟩ ∧ cf.endDate = ⟨e⟩ ∧
      cf.paymentDate = ⟨p⟩ ∧ cf.days = daysBetween rule s e ∧
      cf.dayCountFraction = yearFractionOf F rule s e := by
  let E : Fault → Prop := fun _ => True
  have hE : E .overflow := trivial
  obtain ⟨hus, hue⟩ := ha.unadj_nonneg
  obtain ⟨hs, he, hp⟩ := ha.nonneg
  obtain ⟨c, hc, hdays, hfraction⟩ := h.counter
  have hstart := (BusinessDateFormula.adjust_ends hE ha.startDate hus hs).of_returns h.startDate
  have hend := (BusinessDateFormula.adjust_ends hE ha.endDate hue he).of_returns h.endDate
  have hpay := h.paymentDate
  rw [hstart, hend] at hdays hfraction
  rw [hend] at hpay
  -- the same day counts, taken at the adjusted dates
  have hcount := dayCount_post (Or.inl hE) hs he hc
  rw [hdays] at hcount
  exact ⟨hstart, hend, (BusinessDateFormula.adjust_ends hE ha.paymentDate he hp).of_returns hpay,
    hcount, (yearFraction_ends (Or.inl hE) hs he hc).of_returns hfraction⟩

/-! ## All coupons -/

variable {coupon : Date → Date → Comp (CashflowStruct F)}

omit [IntCast F] [Add F] [Mul F] [Div F] [Neg F] in
/-- The coupons that are returned are those of the periods, one by one. -/
theorem makeCoupons_returns {starts ends : List Date} {cfs : List (CashflowStruct F)}
    (h : (makeCoupons coupon starts ends).Returns cfs) :
    List.Forall₂ (fun p cf => (coupon p.1 p.2).Returns cf) (starts.zip ends) cfs ∧
      starts.length ≤ ends.length := by
  induction starts generalizing ends cfs with
  | nil =>
    simp only [makeCoupons, Comp.pure_returns] at h
    subst h
    exact ⟨List.Forall₂.nil, Nat.zero_le _⟩
  | cons s starts ih =>
    -- a start without an end is read past the vector
    cases ends with
    | nil => simp [makeCoupons] at h
    | cons e ends =>
      obtain ⟨cf, hcf, h⟩ := Comp.bind_returns.mp h
      obtain ⟨rest, hrest, h⟩ := Comp.bind_returns.mp h
      obtain rfl := Comp.pure_returns.mp h
      obtain ⟨hall, hlen⟩ := ih hrest
      exact ⟨List.Forall₂.cons hcf hall, Nat.succ_le_succ hlen⟩

omit [IntCast F] [Add F] [Mul F] [Div F] [Neg F] in
/-- As many coupons are made as there are periods. -/
theorem makeCoupons_ends {starts ends : List Date} (hlen : starts.length = ends.length)
    (h : ∀ p ∈ starts.zip ends, (coupon p.1 p.2).Ends E fun _ => True) :
    (makeCoupons coupon starts ends).Ends E fun cfs => cfs.length = starts.length := by
  induction starts generalizing ends with
  | nil => exact Comp.ends_pure rfl
  | cons s starts ih =>
    cases ends with
    | nil => simp at hlen
    | cons e ends =>
      simp only [List.zip_cons_cons, List.forall_mem_cons] at h
      apply h.1.bind
      intro cf _
      -- the first coupon, then the rest
      refine (ih (by simpa using hlen) h.2).bind fun cfs hcfs => Comp.ends_pure ?_
      simp [hcfs]

/-! ## The whole call -/

/-- `back` is the last element of a vector that is not empty. -/
theorem back_eq_ok {α : Type} {xs : List α} {x : α} : back xs = .ok x ↔ xs.getLast? = some x := by
  unfold back
  split <;> simp [*]

/-- A vector that is not empty has a last element. -/
theorem exists_back {α : Type} {xs : List α} (h : 0 < xs.length) : ∃ x, back xs = .ok x := by
  obtain ⟨x, hx⟩ := Option.isSome_iff_exists.mp
    (List.getLast?_isSome.mpr (List.length_pos_iff.mp h))
  exact ⟨x, back_eq_ok.mpr hx⟩

variable {startDate matDate : Date} {cfs : List (CashflowStruct F)}

/-- A result comes from a schedule: one coupon made from each period, and the
    principal after the last one. -/
theorem createFixedCashflows_returns
    (h : (createFixedCashflows startDate matDate resetFreq notional rate rule opts).Returns cfs) :
    startDate ≤ matDate ∧ ∃ generated dates coupons last,
      (generateDates startDate matDate resetFreq opts.dateDir).Returns generated ∧
      applyStubs startDate matDate opts generated = .ok dates ∧
      dates.startDates.length ≤ dates.endDates.length ∧
      List.Forall₂ (fun p cf => Made notional rate rule opts p.1 p.2 cf) dates.periods coupons ∧
      coupons.getLast? = some last ∧ cfs = coupons ++ [principal notional last] := by
  unfold createFixedCashflows at h
  split at h
  · -- dates out of order are thrown out, or overflow while the text is put together
    unfold startAfterMaturity at h
    obtain ⟨_, -, h⟩ := bind_eq_ok.mp (Comp.lift_returns.mp h)
    obtain ⟨_, -, h⟩ := bind_eq_ok.mp h
    exact nomatch h
  · next hle =>
    -- one part of the body after the other has returned
    obtain ⟨generated, hgen, h⟩ := Comp.bind_returns.mp h
    obtain ⟨dates, hdates, h⟩ := Comp.bind_returns.mp h
    obtain ⟨coupons, hcoupons, h⟩ := Comp.bind_returns.mp h
    obtain ⟨last, hlast, h⟩ := Comp.bind_returns.mp h
    obtain ⟨hall, hlen⟩ := makeCoupons_returns hcoupons
    exact ⟨not_lt.mp hle, generated, dates, coupons, last, hgen, Comp.lift_returns.mp hdates, hlen,
      hall.imp fun _ _ => makeCoupon_returns, back_eq_ok.mp (Comp.lift_returns.mp hlast),
      (Comp.pure_returns.mp h).symm⟩

/-- The call ends if its schedule has a period and a coupon can be made of every one. -/
theorem createFixedCashflows_ends (hle : startDate ≤ matDate) {dates : Schedule}
    (hgen : (generateDates startDate matDate resetFreq opts.dateDir).Ends E fun generated =>
      applyStubs startDate matDate opts generated = .ok dates)
    (hlen : dates.startDates.length = dates.endDates.length) (hne : dates.startDates ≠ [])
    (hcoupon : ∀ p ∈ dates.periods, (makeCoupon resetFreq notional rate rule opts
      (generateDayCounter rule) p.1 p.2).Ends E fun _ => True) :
    (createFixedCashflows startDate matDate resetFreq notional rate rule opts).Ends E
      fun _ => True := by
  unfold createFixedCashflows
  rw [if_neg (not_lt.mpr hle)]
  apply hgen.bind
  intro generated hdates
  rw [hdates]
  apply (makeCoupons_ends hlen hcoupon).bind
  intro coupons hcoupons
  -- some coupon is the last one, which the principal goes by
  obtain ⟨last, hlast⟩ := exists_back (hcoupons ▸ List.length_pos_iff.mpr hne)
  rw [hlast]
  exact Comp.ends_pure trivial

/-! ## Without adjustments -/

/-- No date is adjusted. -/
structure Unadjusted (opts : Options) : Prop where
  startAdj : opts.startAdj = {}
  endAdj : opts.endAdj = {}
  payAdj : opts.payAdj = {}
  fixAdj : opts.fixAdj = {}

/-- Without adjustments, a coupon can be made of any period: its dates stay where they
    are, and counting days between them at most overflows. -/
theorem Unadjusted.makeCoupon_ends (hopts : Unadjusted opts) (hE : E .overflow)
    (hcalc : opts.calcType ≠ .kCompounding) (hrule : rule ≠ .kACTB_ACTB) (us ue : Date) :
    (makeCoupon resetFreq notional rate rule opts (generateDayCounter rule) us ue).Ends E
      fun _ => True := by
  obtain ⟨c, hc⟩ := exists_counter (F := F) hrule
  -- without adjustments the fixing date is the start date
  have hfix : fixingDate opts us ue = pure us := by
    unfold fixingDate
    rw [hopts.fixAdj]
    rfl
  unfold makeCoupon
  rw [hopts.startAdj, hopts.endAdj, hopts.payAdj]
  apply (BusinessDateFormula.adjust_default_ends hE us).bind_eq
  apply (BusinessDateFormula.adjust_default_ends hE ue).bind_eq
  apply (BusinessDateFormula.adjust_default_ends hE ue).bind_eq
  rw [hc, deref]
  apply (Comp.ends_lift (dayCount_any hE hc us ue)).bind
  intro days _
  apply (yearFraction_ends_any hE hc us ue).bind
  intro fraction _
  rw [hfix]
  have hleap : Post us.inLeapYear E fun _ => True :=
    (Date.year_any hE us).bind fun _ _ => trivial
  exact Comp.ends_lift (computeCoupon_post hleap fun h => absurd h hcalc)

/-- A coupon without adjustments has the dates of its period. -/
theorem Made.unadjusted (h : Made notional rate rule opts us ue cf) (hopts : Unadjusted opts) :
    cf.startDate = us ∧ cf.endDate = ue := by
  have hstart := h.startDate
  have hend := h.endDate
  rw [hopts.startAdj] at hstart
  rw [hopts.endAdj] at hend
  -- which faults are allowed makes no difference to what is returned
  have hadjust : ∀ base, (({} : BusinessDateFormula).adjust base).Ends (fun _ => True) (· = base) :=
    BusinessDateFormula.adjust_default_ends trivial
  exact ⟨(hadjust us).of_returns hstart, (hadjust ue).of_returns hend⟩

/-- Without adjustments, a schedule with a period is enough for the call to end. -/
theorem createFixedCashflows_ends_unadjusted (hE : E .overflow) (hopts : Unadjusted opts)
    (hcalc : opts.calcType ≠ .kCompounding) (hrule : rule ≠ .kACTB_ACTB)
    (hle : startDate ≤ matDate) {dates : Schedule}
    (hgen : (generateDates startDate matDate resetFreq opts.dateDir).Ends E fun generated =>
      applyStubs startDate matDate opts generated = .ok dates)
    (hlen : dates.startDates.length = dates.endDates.length) (hne : dates.startDates ≠ []) :
    (createFixedCashflows startDate matDate resetFreq notional rate rule opts).Ends E
      fun _ => True :=
  createFixedCashflows_ends hle hgen hlen hne fun p _ =>
    hopts.makeCoupon_ends hE hcalc hrule p.1 p.2

/-! ## Results -/

/-- Every element of a list is related to one of the list it came from. -/
theorem exists_related {α β : Type} {R : α → β → Prop} {xs : List α} {ys : List β}
    (h : List.Forall₂ R xs ys) {y : β} (hy : y ∈ ys) : ∃ x ∈ xs, R x y := by
  induction h with
  | nil => simp at hy
  | @cons x _ _ _ hxy _ ih =>
    rcases List.mem_cons.mp hy with rfl | hy
    · exact ⟨x, List.mem_cons_self, hxy⟩
    · obtain ⟨x, hx, hxy⟩ := ih hy
      exact ⟨x, List.mem_cons_of_mem _ hx, hxy⟩

/-- The flows of a result but the principal. -/
def couponFlows (cfs : List (CashflowStruct F)) : List (CashflowStruct F) := cfs.dropLast

/-- The unadjusted dates of the coupon flows. -/
def couponPeriods (cfs : List (CashflowStruct F)) : List (Date × Date) :=
  (couponFlows cfs).map fun cf => (cf.unadjStartDate, cf.unadjEndDate)

/-- The coupon flows have the periods of the schedule. -/
theorem couponPeriods_eq {periods : List (Date × Date)} {coupons : List (CashflowStruct F)}
    (h : List.Forall₂ (fun p cf => Made notional rate rule opts p.1 p.2 cf) periods coupons)
    (cf : CashflowStruct F) : couponPeriods (coupons ++ [cf]) = periods := by
  unfold couponPeriods couponFlows
  rw [List.dropLast_concat]
  induction h with
  | nil => rfl
  | cons hmade _ ih => rw [List.map_cons, ih, hmade.unadjStartDate, hmade.unadjEndDate]

/-- Every coupon was made of a period. -/
theorem exists_made {periods : List (Date × Date)} {coupons : List (CashflowStruct F)}
    (h : List.Forall₂ (fun p cf => Made notional rate rule opts p.1 p.2 cf) periods coupons)
    (hcf : cf ∈ coupons) : ∃ p ∈ periods, Made notional rate rule opts p.1 p.2 cf :=
  exists_related h hcf

variable {d : Deal} {k : Nat}

/-- If every schedule that the loops may generate has the same stub adjustments, the
    coupons of a result are made from the periods they lead to. -/
theorem createFixedCashflows_returns_dates {dates : Schedule}
    (hgen : (generateDates startDate matDate resetFreq opts.dateDir).Ends (fun _ => True)
      fun generated => applyStubs startDate matDate opts generated = .ok dates)
    (h : (createFixedCashflows startDate matDate resetFreq notional rate rule opts).Returns cfs) :
    ∃ coupons last,
      List.Forall₂ (fun p cf => Made notional rate rule opts p.1 p.2 cf) dates.periods coupons ∧
      coupons.getLast? = some last ∧ cfs = coupons ++ [principal notional last] := by
  obtain ⟨-, generated, dates', coupons, last, hreturns, hdates', -, hall, hlast, rfl⟩ :=
    createFixedCashflows_returns h
  rw [hgen.of_returns hreturns, Except.ok.injEq] at hdates'
  subst hdates'
  exact ⟨coupons, last, hall, hlast, rfl⟩

/-- On dates from day number zero on, only one schedule is generated. -/
theorem generateDates_ends_stubs (hE : E .overflow) (hdir : opts.dateDir = d.dateDir)
    (hk : d.HasPeriods k) (hnn : d.GeneratedNonneg) {dates : Schedule}
    (hdates : applyStubs d.startDate d.matDate opts (d.gridDates k) = .ok dates) :
    (generateDates d.startDate d.matDate d.resetFreq opts.dateDir).Ends E fun generated =>
      applyStubs d.startDate d.matDate opts generated = .ok dates := by
  rw [hdir]
  exact (generateDates_ends hE hk hnn).weaken fun _ hg => hg ▸ hdates

end Coupon

end OA.DerivedTime
