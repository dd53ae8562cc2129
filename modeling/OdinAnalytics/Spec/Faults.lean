import OdinAnalytics.Native.CashflowGen
import OdinAnalytics.Spec.CalendarCorrect

/-!
# Faults on arbitrary input

Whatever the dates, the tenor and the options are, date arithmetic either has a
value, overflows or throws, and the loops of calendars and day counts end: each of
their iterations moves a counter on, and the counter is an `int`.

## Key results

- `Date.addTenor_any`: the faults of tenor arithmetic
- `adjust_ends_any`, `yearFraction_ends_any`: the loops end
- `makeCoupon_ends_any`: so does making a coupon, with a day counter to call
-/

namespace OA

open Machine OA.Time

/-- The faults of date arithmetic are among `E`. -/
structure Arithmetic (E : Fault → Prop) : Prop where
  overflow : E .overflow
  throws : ∀ e, E (.throws e)

section Any

variable {E : Fault → Prop}

/-! ## Counters -/

/-- How far a value is from the end of the `int`s that a step moves it towards. -/
def room (step x : Int) : Nat :=
  if 0 < step then (2147483648 - x).toNat else (x + 2147483649).toNat

/-- A counter that is moved on leaves less room, up to overflow. -/
theorem checked_room (hE : E .overflow) {step : Int} (hstep : step ≠ 0) (x : Int) :
    Post (checked (x + step)) E fun y => InInt32 y ∧ room step y < room step x := by
  cases hc : checked (x + step) with
  | error f =>
    have hpost := post_checked_any hE (x + step)
    rwa [hc, post_error] at hpost
  | ok y =>
    obtain ⟨hin, rfl⟩ := checked_eq_ok.mp hc
    -- a step towards the end of the range leaves less of it
    refine ⟨hin, ?_⟩
    unfold room
    unfold InInt32 at hin
    split <;> omega

/-! ## Dates -/

namespace Time.Date

section Overflow

variable (hE : E .overflow)

include hE

/-- Taking a day number apart only overflows, below day number zero too. -/
theorem ymd_any (j : Int) : Post (ymd j) E fun _ => True := by
  unfold ymd
  simp only [add32, mul32, sub32]
  repeat refine (post_checked_any hE _).bind fun _ _ => ?_
  exact trivial

/-- So does putting components together, valid or not. -/
theorem convertToJulian_any (y m d : Int) : Post (convertToJulian y m d) E fun _ => True := by
  unfold convertToJulian
  simp only [add32, mul32, sub32]
  repeat refine (post_checked_any hE _).bind fun _ _ => ?_
  exact post_checked_any hE _

/-- The year of a date overflows at most. -/
theorem year_any (date : Date) : Post date.year E fun _ => True :=
  (ymd_any hE _).bind fun _ _ => trivial

/-- A day that every year has in a month is never rejected. -/
theorem ofYmd_any_of_valid {y m d n : Int} (hn : daysInMonth y m = .ok n) (hd : d ≠ 0)
    (hdn : d ≤ n) : Post (ofYmd y m d) E fun _ => True := by
  unfold ofYmd
  rw [if_neg hd, hn, ok_bind, if_neg (not_lt.mpr hdn)]
  exact (convertToJulian_any hE y m d).bind fun _ _ => trivial

end Overflow

variable (hE : Arithmetic E)

include hE

/-- `DaysInMonth` throws at most. -/
theorem daysInMonth_any (y m : Int) : Post (daysInMonth y m) E fun _ => True := by
  unfold daysInMonth
  split
  · exact hE.throws _
  · split
    · exact trivial
    · split <;> exact trivial

/-- The constructor throws or overflows at most. -/
theorem ofYmd_any (y m d : Int) : Post (ofYmd y m d) E fun _ => True := by
  -- the day number is computed last
  have hok : Post (convertToJulian y m d >>= fun j => pure (Date.mk j)) E fun _ => True :=
    (convertToJulian_any hE.overflow y m d).bind fun _ _ => trivial
  unfold ofYmd
  split
  · exact hE.throws _
  · apply (daysInMonth_any hE y m).bind
    intro _ _
    split
    · exact hE.throws _
    · exact hok

/-- Moving by months overflows at most. -/
theorem newYearMonth_any (y m n : Int) : Post (newYearMonth y m n) E fun _ => True := by
  unfold newYearMonth
  simp only [add32, sub32, pure_bind]
  apply (post_checked_any hE.overflow _).bind
  intro total _
  apply (post_checked_any hE.overflow _).bind
  intro newYear _
  -- the correction of the month is the same after either branch for the year
  have hmonth : ∀ y : Int, Post (if total.tmod 12 ≤ 0 then do
      let newMonth ← Machine.checked (total.tmod 12 + 12)
      pure (y, newMonth) else pure (y, total.tmod 12)) E fun _ => True := by
    intro y
    split
    · exact (post_checked_any hE.overflow _).bind fun _ _ => trivial
    · exact trivial
  split
  · split
    · apply (post_checked_any hE.overflow _).bind
      intro _ _
      exact (post_checked_any hE.overflow _).bind fun _ _ => trivial
    · exact trivial
  · split
    · exact (post_checked_any hE.overflow _).bind fun y _ => hmonth y
    · exact hmonth newYear

/-- Adding months throws or overflows at most. -/
theorem addMonths_any (date : Date) (n : Int) : Post (date.addMonths n) E fun _ => True := by
  unfold addMonths
  refine (ymd_any hE.overflow _).bind fun _ _ => (newYearMonth_any hE _ _ _).bind fun _ _ => ?_
  exact (daysInMonth_any hE _ _).bind fun _ _ => ofYmd_any hE _ _ _

/-- Adding years throws or overflows at most. -/
theorem addYears_any (date : Date) (n : Int) : Post (date.addYears n) E fun _ => True := by
  unfold addYears
  refine (ymd_any hE.overflow _).bind fun _ _ =>
    (post_checked_any hE.overflow _).bind fun _ _ => ?_
  split
  · exact (daysInMonth_any hE _ _).bind fun _ _ => ofYmd_any hE _ _ _
  · exact ofYmd_any hE _ _ _

/-- Tenor arithmetic only overflows or throws. -/
theorem addTenor_any (date : Date) (tenor : Tenor) :
    Post (date.addTenor tenor) E fun _ => True := by
  unfold addTenor
  split
  · exact (post_checked_any hE.overflow _).bind fun _ _ => trivial
  · apply (post_checked_any hE.overflow _).bind
    intro _ _
    exact (post_checked_any hE.overflow _).bind fun _ _ => trivial
  · exact addMonths_any hE _ _
  · exact addYears_any hE _ _

end Time.Date

/-! ## Day counts -/

section DayCount

variable {F : Type} [IntCast F] [Add F] [Div F] [Neg F] (hE : E .overflow)

include hE

omit [IntCast F] [Add F] [Div F] [Neg F] in
/-- Counting in months of thirty days overflows at most. -/
theorem thirtyDayMonths_any (ymd1 ymd2 : YearMonthDay) :
    Post (thirtyDayMonths ymd1 ymd2) E fun _ => True := by
  unfold thirtyDayMonths
  simp only [add32, mul32, sub32]
  repeat refine (post_checked_any hE _).bind fun _ _ => ?_
  exact post_checked_any hE _

omit [IntCast F] [Add F] [Div F] [Neg F] in
/-- The bond count of two dates in order overflows at most. -/
theorem dayCount30360Ordered_any (a b : Date) : Post (dayCount30360Ordered a b) E fun _ => True :=
  (Date.ymd_any hE _).bind fun _ _ => (Date.ymd_any hE _).bind fun _ _ => thirtyDayMonths_any hE _ _

omit [IntCast F] [Add F] [Div F] [Neg F] hE in
/-- The month that the convention asks about is February, so the question is never
    rejected. -/
theorem exists_dayEISDA (y m d : Int) : ∃ d', dayEISDA y m d = .ok d' := by
  unfold dayEISDA
  split
  · exact ⟨_, rfl⟩
  · split
    · next hm =>
      subst hm
      exact ⟨_, rfl⟩
    · exact ⟨_, rfl⟩

/-- Every day count only overflows, on any dates. -/
theorem dayCount_any {rule : DayCountRule} {counter : DayCounterBase F}
    (hc : generateDayCounter rule = some counter) (a b : Date) :
    Post (counter.dayCount a b) E fun _ => True := by
  cases rule with
  | kACT_ACT | kACT_360 | kACT_365_FIXED =>
    cases hc
    exact post_checked_any hE _
  | kACTB_ACTB => cases hc
  | k30_360_BOND_BASIS =>
    cases hc
    show Post (computeDayCount30360 a b) E _
    unfold computeDayCount30360
    -- dates out of order are counted the other way round and negated
    split
    · exact (dayCount30360Ordered_any hE b a).bind fun _ _ => post_checked_any hE _
    · exact dayCount30360Ordered_any hE a b
  | k30_E_360_ISDA =>
    cases hc
    -- the ISDA day asks for the end of February in a valid month only
    have hday : ∀ y m d : Int, Post (dayEISDA y m d) E fun _ => True := by
      intro y m d
      obtain ⟨d', hd'⟩ := exists_dayEISDA y m d
      rw [hd']
      exact trivial
    exact (Date.ymd_any hE _).bind fun _ _ => (Date.ymd_any hE _).bind fun _ _ =>
      (hday _ _ _).bind fun _ _ => (hday _ _ _).bind fun _ _ => thirtyDayMonths_any hE _ _
  | k30_360_E_EUROBOND =>
    cases hc
    exact (Date.ymd_any hE _).bind fun _ _ => (Date.ymd_any hE _).bind fun _ _ =>
      thirtyDayMonths_any hE _ _

omit [Neg F] in
/-- The loop of `ACT/ACT` moves on to the year of the end date. -/
theorem fractionActActOrdered_any (a b : Date) :
    (fractionActActOrdered a b : Comp F).Ends E fun _ => True := by
  have hstep : ∀ s : ActActState F,
      Post (actActStep b s) E fun s' => s'.currYear = s.currYear + 1 := by
    intro s
    have hyear : Post (Machine.checked (s.currYear + 1)) E (· = s.currYear + 1) :=
      post_checked_of (Or.inl hE)
    unfold actActStep
    -- every year has a last day
    apply (Date.ofYmd_any_of_valid hE (n := 31) rfl (by decide) (by decide)).bind
    intro _ _
    split
    · exact (post_checked_any hE _).bind fun _ _ => Post.bind hyear fun _ h => h
    · exact Post.bind hyear fun _ h => h
  have hnewYear : ∀ {year : Int}, Post (Date.ofYmd year 1 1) E fun _ => True := fun {year} =>
    Date.ofYmd_any_of_valid hE (n := 31) rfl (by decide) (by decide)
  unfold fractionActActOrdered
  apply (Comp.ends_lift (Date.year_any hE a)).bind
  intro startYear _
  apply (Comp.ends_lift (Date.year_any hE b)).bind
  intro endYear _
  split
  · exact (Comp.ends_lift (post_checked_any hE _)).bind fun _ _ => Comp.ends_pure trivial
  · apply (Comp.ends_lift (post_checked_any hE _)).bind
    intro _ _
    refine Comp.Ends.bind (Q := fun _ => True) ?_
      fun s _ => (Comp.ends_lift hnewYear).bind fun _ _ =>
        (Comp.ends_lift (post_checked_any hE _)).bind fun _ _ => Comp.ends_pure trivial
    -- the variant is the number of years left
    refine Comp.whileLoop_ends (fun _ => True) (fun _ => True) E
      (fun s => (endYear - s.currYear).toNat) (fun s _ => ?_) trivial
    unfold Comp.IterPost
    rw [post_ok]
    split
    · next hlt =>
      refine (hstep s).weaken fun s' h => ⟨trivial, ?_⟩
      rw [decide_eq_true_iff] at hlt
      omega
    · exact trivial

/-- Every year fraction ends, with overflow as its only fault. -/
theorem yearFraction_ends_any {rule : DayCountRule} {counter : DayCounterBase F}
    (hc : generateDayCounter rule = some counter) (a b : Date) :
    (counter.yearFraction a b).Ends E fun _ => True := by
  have hcount := fun c d => dayCount_any hE hc c d
  cases rule with
  | kACT_ACT =>
    cases hc
    show (computeDayCountFractionActAct a b).Ends E _
    unfold computeDayCountFractionActAct
    -- dates out of order are counted the other way round
    split
    · exact (fractionActActOrdered_any hE b a).bind fun _ _ => Comp.ends_pure trivial
    · exact fractionActActOrdered_any hE a b
  | kACTB_ACTB => cases hc
  | kACT_360 | kACT_365_FIXED | k30_360_BOND_BASIS | k30_E_360_ISDA | k30_360_E_EUROBOND =>
    cases hc
    exact (Comp.ends_lift (hcount a b)).bind fun _ _ => Comp.ends_pure trivial

end DayCount

/-! ## Calendars -/

namespace Time.Calendar

variable (hE : E .overflow) (hidx : E (.undefined .indexOutOfRange))

include hidx

/-- Asking for a business day may only read the weekdays out of range. -/
theorem isBusinessDay_any (cal : Calendar) (j : Int) :
    Post (cal.isBusinessDay j) E fun _ => True := by
  unfold isBusinessDay isHoliday
  split
  · split
    · exact trivial
    · split <;> exact trivial
  · exact hidx

include hE

/-- The walk moves by a day at each turn. -/
theorem walkStep_any (cal : Calendar) (n : Int) (s : WalkState) :
    Post (cal.walkStep n s) E fun s' =>
      room (dir n) s'.currJulDate < room (dir n) s.currJulDate := by
  have hdir : dir n ≠ 0 := by rcases dir_eq n with h | h <;> rw [h] <;> decide
  unfold walkStep
  rw [nextDate_eq]
  refine (checked_room hE hdir _).bind fun j hj => (isBusinessDay_any hidx cal j).bind fun b _ => ?_
  split
  · exact (post_checked_any hE _).bind fun days _ => hj.2
  · exact hj.2

/-- Adding business days ends. -/
theorem addBusinessDays_any (cal : Calendar) (n : Int) (base : Date) :
    (cal.addBusinessDays n base).Ends E fun _ => True := by
  unfold addBusinessDays
  apply (Comp.ends_lift (post_checked_any hE _)).bind
  intro days _
  refine Comp.Ends.bind (Q := fun _ => True) ?_
    fun s _ => Comp.ends_pure trivial
  -- the room for the date in the direction of the walk is the variant
  refine Comp.whileLoop_ends (fun _ => True) (fun _ => True) E
    (fun s => room (dir n) s.currJulDate) (fun s _ => ?_) trivial
  unfold Comp.IterPost
  rw [post_ok]
  split
  · exact (walkStep_any hE hidx cal n s).weaken fun _ h => ⟨trivial, h⟩
  · exact trivial

end Time.Calendar

/-! ## Coupons -/

namespace DerivedTime

/-- Adjusting by business days ends. -/
theorem adjust_ends_any (hE : E .overflow) (hidx : E (.undefined .indexOutOfRange))
    (formula : BusinessDateFormula) (base : Date) :
    (formula.adjust base).Ends E fun _ => True := by
  unfold BusinessDateFormula.adjust
  split
  · exact Comp.ends_lift ((post_checked_any hE _).bind fun _ _ => trivial)
  · exact Calendar.addBusinessDays_any hE hidx _ _ _

variable {F : Type} [IntCast F] [Add F] [Mul F] [Div F] [Neg F]

omit [Add F] [Neg F] in
/-- Computing the amount of a coupon looks at the year of its fixing date at most. -/
theorem computeCoupon_post {cf : CashflowStruct F} {resetFreq : Tenor} {opts : Options}
    {rule : DayCountRule} (hleap : Post cf.fixingDate.inLeapYear E fun _ => True)
    (hcalc : opts.calcType = .kCompounding → ∀ e, E (.throws e)) :
    Post (computeCoupon cf resetFreq opts rule) E fun _ => True := by
  -- the street convention asks whether the year is a leap year
  have hust : Post (computeUSTStreetConvCoupon cf resetFreq rule) E fun _ => True := by
    unfold computeUSTStreetConvCoupon
    split
    · exact trivial
    · exact trivial
    · exact trivial
    · exact hleap.bind fun _ _ => trivial
  unfold computeCoupon
  split
  · exact trivial
  · exact hust.bind fun _ _ => trivial
  · exact hust.bind fun _ _ => trivial
  · exact hust.bind fun _ _ => trivial
  · next h => exact hcalc h _

/-- Making a coupon ends on any dates, if need be where there is no day counter to call. -/
theorem makeCoupon_ends_any (hE : Arithmetic E) (hidx : E (.undefined .indexOutOfRange))
    {resetFreq : Tenor} {notional rate : F} {rule : DayCountRule}
    {opts : Options} (hnull : rule = .kACTB_ACTB → E (.undefined .nullPointer)) (us ue : Date) :
    (makeCoupon resetFreq notional rate rule opts (generateDayCounter rule) us ue).Ends E
      fun _ => True := by
  have hfix : ∀ s e, (fixingDate opts s e).Ends E fun _ => True := by
    intro s e
    unfold fixingDate
    split
    · exact Comp.ends_pure trivial
    · split <;> exact adjust_ends_any hE.overflow hidx _ _
  unfold makeCoupon
  apply (adjust_ends_any hE.overflow hidx _ _).bind
  intro s _
  apply (adjust_ends_any hE.overflow hidx _ _).bind
  intro e _
  apply (adjust_ends_any hE.overflow hidx _ _).bind
  intro p _
  cases hc : generateDayCounter (F := F) rule with
  | none =>
    -- the call through the null pointer comes after the date adjustments
    have hrule : rule = .kACTB_ACTB := by
      cases rule <;> first | rfl | exact nomatch hc
    exact Or.inl ⟨_, Comp.bind_faults.mpr (Or.inl (Comp.lift_faults.mpr rfl)), hnull hrule⟩
  | some counter =>
    rw [deref]
    apply (Comp.ends_lift (dayCount_any hE.overflow hc s e)).bind
    intro days _
    apply (yearFraction_ends_any hE.overflow hc s e).bind
    intro fraction _
    apply (hfix s e).bind
    intro fixing _
    exact Comp.ends_lift (computeCoupon_post ((Date.year_any hE.overflow _).bind fun _ _ =>
      trivial) fun _ => hE.throws)

omit [IntCast F] [Add F] [Mul F] [Div F] [Neg F] in
/-- So does making a coupon of each pair of dates. -/
theorem makeCoupons_ends_any (hidx : E (.undefined .indexOutOfRange))
    {coupon : Date → Date → Comp (CashflowStruct F)}
    (h : ∀ s e, (coupon s e).Ends E fun _ => True) (starts ends : List Date) :
    (makeCoupons coupon starts ends).Ends E fun _ => True := by
  induction starts generalizing ends with
  | nil => exact Comp.ends_pure trivial
  | cons s starts ih =>
    cases ends with
    | nil => exact Comp.ends_lift hidx
    | cons e ends => exact (h s e).bind fun _ _ => (ih ends).bind fun _ _ => Comp.ends_pure trivial

end DerivedTime

end Any

end OA
