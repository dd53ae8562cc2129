import OdinAnalytics.Native.DateFormula
import OdinAnalytics.Spec.DateAdjustCorrect
import OdinAnalytics.Spec.TenorArith

/-!
# Date formulas

A date formula adds a tenor and rounds to a business day. Neither step changes the order of
dates, and the second one leads to a business day.

## Key results

- `adjustDate_landing`: an adjusted date is a business day
- `adjustDate_mono`: adjusting keeps the order of dates
- `DateFormula.adjust_mono`: so does a date formula
- `Move.lead_further`: with fewer business days a date is moved further
-/

namespace OA.Time

open Machine Gregorian Calendar

namespace Calendar

variable {cal : Calendar} {n base r : Int}

/-- An answer is the right one. There is none where the weekday number is no index. -/
theorem isHoliday_eq_ok {j : Int} {b : Bool} (h : cal.isHoliday j = .ok b) :
    b = decide (¬ cal.Business j) := by
  by_cases hindexed : Indexed j
  · rw [isHoliday_of_indexed cal hindexed] at h
    exact (Except.ok.inj h).symm
  · rw [isHoliday_of_not_indexed cal hindexed] at h
    cases h

/-- A day that the code takes for a business day, and that is an `int`. -/
structure Landing (cal : Calendar) (j : Int) : Prop where
  isHoliday : cal.isHoliday j = .ok false
  inInt32 : InInt32 j

/-- A walk of at least one step ends on a business day. -/
theorem Walks.landing (h : cal.Walks n base r) (hn : n ≠ 0) : cal.Landing r := by
  -- a walk of some days ends on a business day away from its base
  obtain ⟨hbusiness, hne⟩ : cal.Business r ∧ r ≠ base := by
    rcases lt_or_gt_of_ne hn with hneg | hpos
    · exact ⟨(h.stop.before hneg).1, (h.stop.gt hneg).ne⟩
    · exact ⟨(h.stop.after hpos).1, (h.stop.lt hpos).ne'⟩
  obtain ⟨hint, hindexed⟩ := h.passes r (by omega)
  refine ⟨?_, hint⟩
  rw [isHoliday_of_indexed cal hindexed]
  simp [hbusiness]

/-- A business day of a calendar with fewer of them. -/
theorem Landing.imp {cal' : Calendar} {j : Int} (h : cal.Landing j)
    (hmore : cal.Business j → cal'.Business j) : cal'.Landing j := by
  refine ⟨?_, h.inInt32⟩
  have hbusiness : cal.Business j := by simpa using isHoliday_eq_ok h.isHoliday
  -- a calendar answers only where the weekday has an index
  have hindexed : Indexed j := by
    by_contra hnot
    have hholiday := h.isHoliday
    rw [isHoliday_of_not_indexed cal hnot] at hholiday
    cases hholiday
  rw [isHoliday_of_indexed cal' hindexed]
  simp [hmore hbusiness]

/-- With fewer business days the same count leads further. -/
theorem IsStop.further {cal' : Calendar} {r' : Int} (h : cal.IsStop n base r)
    (h' : cal'.IsStop n base r') (hfewer : ∀ j, cal'.Business j → cal.Business j) :
    (0 ≤ n → r ≤ r') ∧ (n ≤ 0 → r' ≤ r) := by
  -- the same count over fewer business days takes the walk further, back or forth
  rcases lt_trichotomy n 0 with hn | rfl | hn
  · obtain ⟨hb, hcard⟩ := h.before hn
    obtain ⟨-, hcard'⟩ := h'.before hn
    have hcount : ((Finset.Ico r base).filter cal.Business).card =
        ((Finset.Ico r' base).filter cal'.Business).card := by omega
    have hle := Walk.stop_before_imp hfewer (h.gt hn) hb hcount
    exact ⟨fun hnonneg => absurd hn hnonneg.not_gt, fun _ => hle⟩
  · rw [h.zero rfl, h'.zero rfl]
    exact ⟨fun _ => le_rfl, fun _ => le_rfl⟩
  · obtain ⟨hb, hcard⟩ := h.after hn
    obtain ⟨-, hcard'⟩ := h'.after hn
    have hcount : ((Finset.Ioc base r).filter cal.Business).card =
        ((Finset.Ioc base r').filter cal'.Business).card := by omega
    have hle := Walk.stop_after_imp hfewer (h.lt hn) hb hcount
    exact ⟨fun _ => hle, fun hnonpos => absurd hn hnonpos.not_gt⟩

end Calendar

namespace Date

/-- The dates that are constructed have `int` day numbers. -/
theorem ofYmd_inInt32 (y m d : Int) :
    Post (ofYmd y m d) (fun _ => True) fun date => InInt32 date.julian := by
  -- whatever the fields, the last operation is a checked one
  have hjulian : Post (convertToJulian y m d) (fun _ => True) InInt32 := by
    unfold convertToJulian
    repeat refine post_bind_of_last fun _ => ?_
    exact post_checked_inInt32 _
  have hdate : Post (do return ⟨← convertToJulian y m d⟩ : Exec Date) (fun _ => True)
      fun date => InInt32 date.julian := hjulian.bind fun j hj => hj
  unfold ofYmd
  simp only
  split
  · trivial
  · refine post_bind_of_last fun last => ?_
    split
    · trivial
    · exact hdate

/-- Whatever the date, what it is moved to by a tenor is an `int`. -/
theorem addTenor_inInt32 (date : Date) (tenor : Tenor) :
    Post (date.addTenor tenor) (fun _ => True) fun d => InInt32 d.julian := by
  unfold addTenor
  split
  · exact (post_checked_inInt32 _).bind fun j hj => hj
  · exact post_bind_of_last fun _ => (post_checked_inInt32 _).bind fun j hj => hj
  · -- months and years end in a date put together from its fields
    unfold addMonths
    repeat refine post_bind_of_last fun _ => ?_
    exact ofYmd_inInt32 _ _ _
  · -- the leap day is a case of its own
    unfold addYears
    refine post_bind_of_last fun _ => post_bind_of_last fun _ => ?_
    simp only
    split
    · refine post_bind_of_last fun _ => ?_
      exact ofYmd_inInt32 _ _ _
    · exact ofYmd_inInt32 _ _ _

end Date

namespace DateAdjust

variable {cal : Calendar} {d d' r r' : Date} {rule : AdjRule}

/-! ## Business days -/

/-- The next business day is one, and an `int`. -/
theorem getNextBusinessDay_landing (h : (cal.getNextBusinessDay d).Returns r) :
    cal.Landing r.julian := by
  rw [getNextBusinessDay_eq] at h
  exact ((nextStop_returns_iff rfl).mp h).landing (by decide)

/-- The previous business day is one, and an `int`. -/
theorem getPrevBusinessDay_landing (h : (cal.getPrevBusinessDay d).Returns r) :
    cal.Landing r.julian := by
  rw [getPrevBusinessDay_eq] at h
  exact ((nextStop_returns_iff rfl).mp h).landing (by decide)

/-- The adjustments begin with the same question about the date. -/
theorem holiday_or_walk {walk : Comp Date} (h : (do
      if ← Comp.lift (cal.isHoliday d.julian) then walk else return d : Comp Date).Returns r) :
    cal.isHoliday d.julian = .ok false ∧ r = d ∨
      cal.isHoliday d.julian = .ok true ∧ walk.Returns r := by
  obtain ⟨b, hb, hr⟩ := Comp.bind_returns.mp h
  cases b with
  | false => exact Or.inl ⟨Comp.lift_returns.mp hb, (Comp.pure_returns.mp hr).symm⟩
  | true => exact Or.inr ⟨Comp.lift_returns.mp hb, hr⟩

/-- Whatever the date, what an adjustment returns is a business day. -/
theorem adjustDate_landing (hrule : rule ≠ .kPlainAdjustment) (hd : InInt32 d.julian)
    (h : ((createDateAdjust rule cal).adjustDate d).Returns r) : cal.Landing r.julian := by
  cases rule with
  | kFollowing =>
    -- the date is kept where the calendar has it as a business day, or walked from
    rcases holiday_or_walk h with ⟨hholiday, rfl⟩ | ⟨-, hwalk⟩
    · exact ⟨hholiday, hd⟩
    · exact getNextBusinessDay_landing hwalk
  | kPreceding =>
    rcases holiday_or_walk h with ⟨hholiday, rfl⟩ | ⟨-, hwalk⟩
    · exact ⟨hholiday, hd⟩
    · exact getPrevBusinessDay_landing hwalk
  | kPlainAdjustment => exact absurd rfl hrule
  | kModifiedFollowing =>
    rcases holiday_or_walk h with ⟨hholiday, rfl⟩ | ⟨-, hwalk⟩
    · exact ⟨hholiday, hd⟩
    · obtain ⟨next, hnext, hwalk⟩ := Comp.bind_returns.mp hwalk
      obtain ⟨month, -, hwalk⟩ := Comp.bind_returns.mp hwalk
      obtain ⟨month', -, hwalk⟩ := Comp.bind_returns.mp hwalk
      -- the month decides which of the two walks is the result
      split at hwalk
      · exact getPrevBusinessDay_landing hwalk
      · obtain rfl := Comp.pure_returns.mp hwalk
        exact getNextBusinessDay_landing hnext

/-! ## Order -/

/-- For a date that is no business day, the next one is the date rounded up. -/
theorem isLeast_of_next {n : Int} (hb : ¬ cal.Business d.julian)
    (h : IsLeast {j | d.julian < j ∧ cal.Business j} n) :
    IsLeast {e : Date | d ≤ e ∧ cal.Business e.julian} ⟨n⟩ := by
  refine ⟨⟨h.1.1.le, h.1.2⟩, ?_⟩
  rintro e ⟨hde, hbe⟩
  have hne : d.julian ≠ e.julian := fun heq => hb (heq ▸ hbe)
  exact h.2 ⟨lt_of_le_of_ne hde hne, hbe⟩

/-- For a date that is no business day, the last one before is the date rounded down. -/
theorem isGreatest_of_prev {p : Int} (hb : ¬ cal.Business d.julian)
    (h : IsGreatest {j | j < d.julian ∧ cal.Business j} p) :
    IsGreatest {e : Date | e ≤ d ∧ cal.Business e.julian} ⟨p⟩ := by
  refine ⟨⟨h.1.1.le, h.1.2⟩, ?_⟩
  rintro e ⟨hed, hbe⟩
  have hne : e.julian ≠ d.julian := fun heq => hb (heq ▸ hbe)
  exact h.2 ⟨lt_of_le_of_ne hed hne, hbe⟩

/-- Following, where it returns, has rounded up. -/
theorem adjustFollowing_up (h : (adjustFollowing d cal).Returns r) :
    IsLeast {e : Date | d ≤ e ∧ cal.Business e.julian} r := by
  rcases holiday_or_walk h with ⟨hd, rfl⟩ | ⟨hd, hwalk⟩
  · exact Rounding.up_self (by simpa using isHoliday_eq_ok hd)
  · rw [getNextBusinessDay_eq] at hwalk
    exact isLeast_of_next (by simpa using isHoliday_eq_ok hd)
      ((nextStop_returns_iff rfl).mp hwalk).stop.isLeast

/-- Preceding, where it returns, has rounded down. -/
theorem adjustPreceding_down (h : (adjustPreceding d cal).Returns r) :
    IsGreatest {e : Date | e ≤ d ∧ cal.Business e.julian} r := by
  rcases holiday_or_walk h with ⟨hd, rfl⟩ | ⟨hd, hwalk⟩
  · exact Rounding.down_self (by simpa using isHoliday_eq_ok hd)
  · rw [getPrevBusinessDay_eq] at hwalk
    exact isGreatest_of_prev (by simpa using isHoliday_eq_ok hd)
      ((nextStop_returns_iff rfl).mp hwalk).stop.isGreatest

/-- The modified adjustment rounds up within the month number, and rounds down where the date
    rounded up has another one. -/
theorem adjustModFollowing_within (hd : 0 ≤ d.julian)
    (h : (adjustModFollowing d cal).Returns r) :
    IsLeast {e : Date | d ≤ e ∧ cal.Business e.julian} r ∧
        (ofDay r.julian).2.1 = (ofDay d.julian).2.1 ∨
      ¬ cal.Business d.julian ∧ IsGreatest {e : Date | e ≤ d ∧ cal.Business e.julian} r ∧
        ∀ n, IsLeast {e : Date | d ≤ e ∧ cal.Business e.julian} n →
          (ofDay n.julian).2.1 ≠ (ofDay d.julian).2.1 := by
  by_cases hb : cal.Business d.julian
  · -- a business day is not moved
    unfold adjustModFollowing at h
    rw [isHoliday_eq cal hd, Comp.liftM_eq, Comp.lift_ok_bind] at h
    have hpure : (pure d : Comp Date).Returns r := by simpa [hb] using h
    obtain rfl := Comp.pure_returns.mp hpure
    exact Or.inl ⟨Rounding.up_self hb, rfl⟩
  · -- a day off: the next business day, if its month has the same number
    obtain ⟨n, hwalk, -, hr⟩ := (adjustModFollowing_returns_iff hd hb).mp h
    have hup := isLeast_of_next hb hwalk.stop.isLeast
    by_cases hmonth : (ofDay n).2.1 = (ofDay d.julian).2.1
    · rw [if_pos hmonth] at hr
      subst hr
      exact Or.inl ⟨hup, hmonth⟩
    · -- the month number changed, so the previous business day it is
      rw [if_neg hmonth] at hr
      refine Or.inr ⟨hb, isGreatest_of_prev hb hr.stop.isGreatest, fun n' hn' => ?_⟩
      rwa [hn'.unique hup]

/-- Adjusting keeps the order of dates that are not negative. The modified adjustment is to be
    able to tell the month of the earlier date from the same month of another year. -/
theorem adjustDate_mono (hd : 0 ≤ d.julian) (hle : d ≤ d')
    (htells : rule = .kModifiedFollowing → ¬ cal.Business d.julian → MonthTells cal d)
    (h : ((createDateAdjust rule cal).adjustDate d).Returns r)
    (h' : ((createDateAdjust rule cal).adjustDate d').Returns r') : r ≤ r' := by
  have hd' : 0 ≤ d'.julian := hd.trans hle
  cases rule with
  | kFollowing => exact Rounding.up_mono (adjustFollowing_up h) (adjustFollowing_up h') hle
  | kPreceding =>
    exact Rounding.down_mono (adjustPreceding_down h) (adjustPreceding_down h') hle
  | kPlainAdjustment =>
    obtain rfl := Comp.pure_returns.mp h
    obtain rfl := Comp.pure_returns.mp h'
    exact hle
  | kModifiedFollowing =>
    -- months are blocks of dates
    have hmonths : Monotone fun e : Date => monthIndex e.julian := by
      intro e e' hee'
      have hmono := months.index_mono hee'
      simpa only [months_index] using hmono
    refine Rounding.within_mono (p := fun e => cal.Business e.julian) hmonths ?_ ?_ hle
    · -- an adjustment that stays in the month number stays in the month
      rcases adjustModFollowing_within hd h with ⟨hup, hmonth⟩ | ⟨-, hdown, -⟩
      · refine Or.inl ⟨hup, sameMonth_iff.mp ⟨?_, hmonth⟩⟩
        by_cases hb : cal.Business d.julian
        · rw [hup.unique (Rounding.up_self hb)]
        · obtain ⟨n, hn, -, hyear⟩ := htells rfl hb
          have heq : r = ⟨n⟩ := hup.unique (isLeast_of_next hb hn)
          subst heq
          exact hyear hmonth
      · exact Or.inr hdown
    · rcases adjustModFollowing_within hd' h' with ⟨hup, -⟩ | ⟨-, hdown, hend⟩
      · exact Or.inl hup
      · refine Or.inr ⟨hdown, fun n hn hsame => hend n hn ?_⟩
        exact (sameMonth_iff.mpr hsame).2

end DateAdjust

end OA.Time

namespace OA.DerivedTime

open Machine OA.Time DateAdjust

variable {cal cal' : Calendar} {date date' d r r' : Date} {tenor : Tenor} {rule : AdjRule}

/-! ## Formulas -/

namespace DateFormula

/-- A formula adds its tenor, then adjusts. -/
theorem adjust_returns_iff : ((ofTenor tenor rule cal).adjust date).Returns r ↔
    ∃ d, date.addTenor tenor = .ok d ∧ ((createDateAdjust rule cal).adjustDate d).Returns r := by
  unfold adjust ofTenor
  simp only [Comp.liftM_eq, Comp.bind_returns, Comp.lift_returns]

/-- From a date that is not negative the tenor leads to another one, and the modified
    adjustment can tell the month of that from the same month of another year. -/
structure Tells (tenor : Tenor) (rule : AdjRule) (cal : Calendar) (date : Date) : Prop where
  nonneg : 0 ≤ date.julian
  reached : ∀ d, date.addTenor tenor = .ok d → 0 ≤ d.julian
  month : ∀ d, date.addTenor tenor = .ok d → rule = .kModifiedFollowing →
    ¬ cal.Business d.julian → MonthTells cal d

/-- A formula keeps the order of dates, whatever its tenor, its rule and its calendar: it does
    so where the modified adjustment can tell months from the same months of other years. -/
theorem adjust_mono (hdate : Tells tenor rule cal date) (hle : date ≤ date')
    (h : ((ofTenor tenor rule cal).adjust date).Returns r)
    (h' : ((ofTenor tenor rule cal).adjust date').Returns r') : r ≤ r' := by
  obtain ⟨d, hd, hr⟩ := adjust_returns_iff.mp h
  obtain ⟨d', hd', hr'⟩ := adjust_returns_iff.mp h'
  have hnonneg := hdate.reached d hd
  have hshift := Date.addTenor_shift hdate.nonneg hd hnonneg
  have hmono := (Date.unitShift tenor.unit).mono_date tenor.count hle
  -- the later date is not led to a negative one either
  have hagrees := Date.addTenor_agrees (E := fun _ => True) (u := tenor.unit) (n := tenor.count)
    trivial (hdate.nonneg.trans hle)
  rw [show Date.addTenor ⟨date'.julian⟩ ⟨tenor.count, tenor.unit⟩ = .ok d' from hd'] at hagrees
  have hle' : d ≤ d' := by
    rw [Date.Agrees.eq hagrees (by show 0 ≤ Date.julian ⟨_⟩; simp only; omega)]
    show d.julian ≤ _
    rw [hshift]
    exact hmono
  exact adjustDate_mono hnonneg hle' (hdate.month d hd) hr hr'

/-- From the end of March, two months on is a Saturday at the end of May, which is followed
    within its month only; the day after leads to June. -/
theorem adjust_mono_monthEnd : ∃ r r' : Date,
    ((ofTenor ⟨2, .kMonths⟩ .kModifiedFollowing ⟨{5, 6}, "TST", ∅⟩).adjust ⟨2460766⟩).Returns r ∧
    ((ofTenor ⟨2, .kMonths⟩ .kModifiedFollowing ⟨{5, 6}, "TST", ∅⟩).adjust ⟨2460767⟩).Returns r' ∧
    r ≤ r' := by
  -- the tenor leads to a Saturday at the end of a month
  have hadd : Date.addTenor ⟨2460766⟩ ⟨2, .kMonths⟩ = .ok ⟨2460827⟩ := by decide
  -- the next business day is in the next month
  have hnext : IsLeast {j | (2460827 : Int) < j ∧
      Calendar.Business ⟨{5, 6}, "TST", ∅⟩ j} 2460829 :=
    Calendar.isStop_one_iff.mp ⟨by decide, by decide, by decide⟩
  have htells : Tells ⟨2, .kMonths⟩ .kModifiedFollowing ⟨{5, 6}, "TST", ∅⟩ ⟨2460766⟩ := by
    refine ⟨by decide, ?_, ?_⟩
    · intro d hd
      cases hadd.symm.trans hd
      decide
    · intro d hd _ _
      cases hadd.symm.trans hd
      exact ⟨_, hnext, by decide, by decide⟩
  have hr : ((ofTenor ⟨2, .kMonths⟩ .kModifiedFollowing ⟨{5, 6}, "TST", ∅⟩).adjust
      ⟨2460766⟩).Returns ⟨2460826⟩ := ⟨5, rfl⟩
  have hr' : ((ofTenor ⟨2, .kMonths⟩ .kModifiedFollowing ⟨{5, 6}, "TST", ∅⟩).adjust
      ⟨2460767⟩).Returns ⟨2460829⟩ := ⟨5, rfl⟩
  exact ⟨_, _, hr, hr', adjust_mono htells (by decide) hr hr'⟩

end DateFormula

/-! ## Moves -/

/-- How a date is moved: by a tenor and a rule, or by a number of business days. -/
inductive Move where
  | tenor (tenor : Tenor) (rule : AdjRule)
  | days (numOfDays : Int)

namespace Move

/-- The date that a move leads to on a calendar. -/
def lead (move : Move) (calendar : Calendar) (baseDate : Date) : Comp Date :=
  match move with
  | .tenor tenor rule => (DateFormula.ofTenor tenor rule calendar).adjust baseDate
  | .days numOfDays => (⟨numOfDays, some calendar⟩ : BusinessDateFormula).adjust baseDate

/-- Moves that end on a business day. -/
def Lands : Move → Prop
  | .tenor _ rule => rule ≠ .kPlainAdjustment
  | .days numOfDays => numOfDays ≠ 0

/-- Moves that look for business days in the future only. -/
def Forward : Move → Prop
  | .tenor _ rule => rule = .kFollowing
  | .days numOfDays => 0 ≤ numOfDays

/-- Moves that look for business days in the past only. -/
def Backward : Move → Prop
  | .tenor _ rule => rule = .kPreceding
  | .days numOfDays => numOfDays ≤ 0

variable {move : Move}

/-- A move that lands leads to a business day. -/
theorem lead_landing (hmove : move.Lands) (h : (move.lead cal date).Returns r) :
    cal.Landing r.julian := by
  cases move with
  | tenor tenor rule =>
    obtain ⟨d, hd, hr⟩ := DateFormula.adjust_returns_iff.mp h
    have hint := Date.addTenor_inInt32 date tenor
    rw [hd] at hint
    exact adjustDate_landing hmove hint hr
  | days numOfDays => exact (Calendar.addBusinessDays_returns_iff.mp h).2.landing hmove

/-- With fewer business days a move leads further. -/
theorem lead_further (hfewer : ∀ j, cal'.Business j → cal.Business j)
    (h : (move.lead cal date).Returns r) (h' : (move.lead cal' date).Returns r') :
    (move.Forward → r ≤ r') ∧ (move.Backward → r' ≤ r) := by
  cases move with
  | tenor tenor rule =>
    -- the same date is adjusted, by either calendar
    obtain ⟨d, hd, hr⟩ := DateFormula.adjust_returns_iff.mp h
    obtain ⟨d', hd', hr'⟩ := DateFormula.adjust_returns_iff.mp h'
    cases hd.symm.trans hd'
    constructor
    · rintro rfl
      exact Rounding.up_imp (adjustFollowing_up hr) (adjustFollowing_up hr') fun e => hfewer _
    · rintro rfl
      exact Rounding.down_imp (adjustPreceding_down hr) (adjustPreceding_down hr')
        fun e => hfewer _
  | days numOfDays =>
    exact (Calendar.addBusinessDays_returns_iff.mp h).2.stop.further
      (Calendar.addBusinessDays_returns_iff.mp h').2.stop hfewer

end Move

end OA.DerivedTime
