import OdinAnalytics.Lib.Rounding
import OdinAnalytics.Native.DateAdjust
import OdinAnalytics.Spec.BusinessDayLaws
import OdinAnalytics.Spec.DateRange

/-!
# Business day adjustment

What the adjustments do to a date: the following and the preceding one round it up
or down to a business day, and the modified following one should do so within the
date's month.

## Key results

- `adjustFollowing_returns_iff`, `adjustPreceding_returns_iff`: the days they return
- `adjust_extremal`: the least business day from a date on, the greatest one up to it
- `adjustModFollowing_iff`: when the modified adjustment stays in the month
-/

namespace OA.Time

open Machine Gregorian

namespace Calendar

variable {cal : Calendar} {base r : Int}

/-- A calendar with a business day has a business weekday. -/
theorem Business.hasBusinessWeekday {j : Int} (h : cal.Business j) : cal.HasBusinessWeekday :=
  ⟨_, h.1⟩

/-- One business day away is the least business day after the base date. -/
theorem isStop_one_iff : cal.IsStop 1 base r ↔ IsLeast {j | base < j ∧ cal.Business j} r := by
  constructor
  · exact IsStop.isLeast
  · intro h
    obtain ⟨r', hr'⟩ := exists_isStop h.1.2.hasBusinessWeekday 1 base
    rwa [h.unique hr'.isLeast]

end Calendar

namespace DateAdjust

open Calendar

variable {cal : Calendar} {d r : Date}

/-! ## Following and preceding -/

/-- The adjustments return a business day as it is, and walk from any other day. -/
theorem isHoliday_bind {walk : Comp Date} (hd : 0 ≤ d.julian) :
    (do if ← Comp.lift (cal.isHoliday d.julian) then walk else return d : Comp Date) =
      if cal.Business d.julian then pure d else walk := by
  rw [isHoliday_eq cal hd, Comp.lift_ok_bind]
  by_cases hb : cal.Business d.julian
  · simp [hb]
  · simp [hb]

/-- From day number zero on, the following business day is looked for unless the date is one. -/
theorem adjustFollowing_eq (hd : 0 ≤ d.julian) : adjustFollowing d cal =
    if cal.Business d.julian then pure d else cal.getNextBusinessDay d :=
  isHoliday_bind hd

/-- From day number zero on, the preceding business day is looked for unless the date is one. -/
theorem adjustPreceding_eq (hd : 0 ≤ d.julian) : adjustPreceding d cal =
    if cal.Business d.julian then pure d else cal.getPrevBusinessDay d :=
  isHoliday_bind hd

/-- The adjustment of a date that is not negative stays on days that are not, and that
    fit an `int`, when it walks in the direction of `n`. -/
structure Stays (cal : Calendar) (n : Int) (d : Date) : Prop where
  nonneg : 0 ≤ d.julian
  walk : ¬ cal.Business d.julian → cal.Stays n d

/-- Following rounds up to the business days. -/
theorem adjustFollowing_spec (hcal : cal.HasBusinessWeekday) (hs : Stays cal 1 d) :
    ∃ f, (adjustFollowing d cal).Returns f ∧
      IsLeast {e : Date | d ≤ e ∧ cal.Business e.julian} f := by
  rw [adjustFollowing_eq hs.nonneg]
  by_cases hb : cal.Business d.julian
  · rw [if_pos hb]
    exact ⟨d, Comp.pure_returns.mpr rfl, Rounding.up_self hb⟩
  · rw [if_neg hb, getNextBusinessDay_eq]
    obtain ⟨f, hf⟩ := exists_isStop hcal 1 d.julian
    obtain ⟨hlo, hhi⟩ := hs.walk hb f hf
    obtain ⟨⟨hlt, hbf⟩, hleast⟩ := hf.isLeast
    refine ⟨⟨f⟩, (nextStop_returns_iff rfl).mpr (hf.walks hlo hhi), ⟨hlt.le, hbf⟩, ?_⟩
    rintro e ⟨hde, hbe⟩
    -- the date itself is not one of them
    have hne : d.julian ≠ e.julian := fun h => hb (h ▸ hbe)
    exact hleast ⟨lt_of_le_of_ne hde hne, hbe⟩

/-- Preceding rounds down to the business days. -/
theorem adjustPreceding_spec (hcal : cal.HasBusinessWeekday) (hs : Stays cal (-1) d) :
    ∃ p, (adjustPreceding d cal).Returns p ∧
      IsGreatest {e : Date | e ≤ d ∧ cal.Business e.julian} p := by
  rw [adjustPreceding_eq hs.nonneg]
  by_cases hb : cal.Business d.julian
  · rw [if_pos hb]
    exact ⟨d, Comp.pure_returns.mpr rfl, Rounding.down_self hb⟩
  · rw [if_neg hb, getPrevBusinessDay_eq]
    obtain ⟨p, hp⟩ := exists_isStop hcal (-1) d.julian
    obtain ⟨hlo, hhi⟩ := hs.walk hb p hp
    obtain ⟨⟨hlt, hbp⟩, hgreatest⟩ := hp.isGreatest
    refine ⟨⟨p⟩, (nextStop_returns_iff rfl).mpr (hp.walks hlo hhi), ⟨hlt.le, hbp⟩, ?_⟩
    rintro e ⟨hed, hbe⟩
    -- the date itself is not one of them
    have hne : e.julian ≠ d.julian := fun h => hb (h ▸ hbe)
    exact hgreatest ⟨lt_of_le_of_ne hed hne, hbe⟩

/-- What the following adjustment returns is the least business day from the date on. -/
theorem adjustFollowing_isLeast (hcal : cal.HasBusinessWeekday) (hs : Stays cal 1 d)
    (h : (adjustFollowing d cal).Returns r) :
    IsLeast {e : Date | d ≤ e ∧ cal.Business e.julian} r := by
  obtain ⟨f, hf, hleast⟩ := adjustFollowing_spec hcal hs
  exact h.unique hf ▸ hleast

/-- What the preceding adjustment returns is the greatest business day up to the date. -/
theorem adjustPreceding_isGreatest (hcal : cal.HasBusinessWeekday) (hs : Stays cal (-1) d)
    (h : (adjustPreceding d cal).Returns r) :
    IsGreatest {e : Date | e ≤ d ∧ cal.Business e.julian} r := by
  obtain ⟨p, hp, hgreatest⟩ := adjustPreceding_spec hcal hs
  exact h.unique hp ▸ hgreatest

/-- The following adjustment is the least business day from the date on and the preceding
    one the greatest up to it. Both are idempotent and monotone, and the date is between
    them, equal to either exactly if it is a business day. -/
theorem adjust_extremal (hcal : cal.HasBusinessWeekday) :
    (∀ d, Stays cal 1 d → ∃ f, (adjustFollowing d cal).Returns f ∧
      IsLeast {e : Date | d ≤ e ∧ cal.Business e.julian} f ∧
      (adjustFollowing f cal).Returns f) ∧
    (∀ d, Stays cal (-1) d → ∃ p, (adjustPreceding d cal).Returns p ∧
      IsGreatest {e : Date | e ≤ d ∧ cal.Business e.julian} p ∧
      (adjustPreceding p cal).Returns p) ∧
    (∀ d₁ d₂ f₁ f₂, Stays cal 1 d₁ → Stays cal 1 d₂ → (adjustFollowing d₁ cal).Returns f₁ →
      (adjustFollowing d₂ cal).Returns f₂ → d₁ ≤ d₂ → f₁ ≤ f₂) ∧
    (∀ d₁ d₂ p₁ p₂, Stays cal (-1) d₁ → Stays cal (-1) d₂ →
      (adjustPreceding d₁ cal).Returns p₁ → (adjustPreceding d₂ cal).Returns p₂ →
      d₁ ≤ d₂ → p₁ ≤ p₂) ∧
    (∀ d f p, Stays cal 1 d → Stays cal (-1) d → (adjustFollowing d cal).Returns f →
      (adjustPreceding d cal).Returns p → p ≤ d ∧ d ≤ f ∧
      (p = d ↔ cal.Business d.julian) ∧ (d = f ↔ cal.Business d.julian)) := by
  refine ⟨?_, ?_, ?_, ?_, ?_⟩
  · -- the day reached is a business day, so it stays where it is
    intro d hs
    obtain ⟨f, hf, hleast⟩ := adjustFollowing_spec hcal hs
    have hnonneg : 0 ≤ f.julian := hs.nonneg.trans hleast.1.1
    refine ⟨f, hf, hleast, ?_⟩
    rw [adjustFollowing_eq hnonneg, if_pos hleast.1.2]
    exact Comp.pure_returns.mpr rfl
  · -- the same going back, with what keeps the day number from zero on
    intro d hs
    obtain ⟨p, hp, hgreatest⟩ := adjustPreceding_spec hcal hs
    refine ⟨p, hp, hgreatest, ?_⟩
    have hnonneg : 0 ≤ p.julian := by
      by_cases hb : cal.Business d.julian
      · exact hs.nonneg.trans (hgreatest.2 ⟨le_rfl, hb⟩)
      · -- the walk back stays on day numbers from zero on
        obtain ⟨q, hq⟩ := exists_isStop hcal (-1) d.julian
        have hle : (⟨q⟩ : Date) ≤ p := hgreatest.2 ⟨hq.isGreatest.1.1.le, hq.isGreatest.1.2⟩
        exact (le_min_iff.mp (hs.walk hb q hq).1).2.trans hle
    rw [adjustPreceding_eq hnonneg, if_pos hgreatest.1.2]
    exact Comp.pure_returns.mpr rfl
  · -- least and greatest elements keep the order
    intro d₁ d₂ f₁ f₂ hs₁ hs₂ h₁ h₂
    exact Rounding.up_mono (adjustFollowing_isLeast hcal hs₁ h₁)
      (adjustFollowing_isLeast hcal hs₂ h₂)
  · intro d₁ d₂ p₁ p₂ hs₁ hs₂ h₁ h₂
    exact Rounding.down_mono (adjustPreceding_isGreatest hcal hs₁ h₁)
      (adjustPreceding_isGreatest hcal hs₂ h₂)
  · -- a day is rounded to itself exactly if it is a business day
    intro d f p hs hs' hf hp
    have hleast := adjustFollowing_isLeast hcal hs hf
    have hgreatest := adjustPreceding_isGreatest hcal hs' hp
    exact ⟨hgreatest.1.1, hleast.1.1, Rounding.down_eq_iff hgreatest, Rounding.up_eq_iff hleast⟩

/-- A Saturday before a holiday, on a calendar with the usual weekend. -/
theorem adjust_extremal_saturday :
    (∃ f, (adjustFollowing ⟨2460001⟩ ⟨{5, 6}, "TST", {2460003}⟩).Returns f ∧
      IsLeast {e : Date | ⟨2460001⟩ ≤ e ∧ (⟨{5, 6}, "TST", {2460003}⟩ : Calendar).Business e.julian}
        f) ∧
    ∃ p, (adjustPreceding ⟨2460001⟩ ⟨{5, 6}, "TST", {2460003}⟩).Returns p ∧
      IsGreatest {e : Date | e ≤ ⟨2460001⟩ ∧
        (⟨{5, 6}, "TST", {2460003}⟩ : Calendar).Business e.julian} p := by
  have hcal : (⟨{5, 6}, "TST", {2460003}⟩ : Calendar).HasBusinessWeekday := by decide
  have hup : Stays ⟨{5, 6}, "TST", {2460003}⟩ 1 ⟨2460001⟩ := ⟨by decide, fun _ =>
    IsStop.stays (r := ⟨2460004⟩) ⟨by decide, by decide, by decide⟩ (by decide) (by decide)⟩
  have hdown : Stays ⟨{5, 6}, "TST", {2460003}⟩ (-1) ⟨2460001⟩ := ⟨by decide, fun _ =>
    IsStop.stays (r := ⟨2460000⟩) ⟨by decide, by decide, by decide⟩ (by decide) (by decide)⟩
  obtain ⟨f, hf, hleast, -⟩ := (adjust_extremal hcal).1 _ hup
  obtain ⟨p, hp, hgreatest, -⟩ := (adjust_extremal hcal).2.1 _ hdown
  exact ⟨⟨f, hf, hleast⟩, ⟨p, hp, hgreatest⟩⟩

/-! ## Modified following -/

/-- Two days of the same month of the same year. -/
def SameMonth (i j : Int) : Prop := (ofDay i).1 = (ofDay j).1 ∧ (ofDay i).2.1 = (ofDay j).2.1

/-- Days are of the same month exactly if they have the same month index. -/
theorem sameMonth_iff {i j : Int} : SameMonth i j ↔ monthIndex i = monthIndex j := by
  unfold SameMonth ofDay
  simp only
  omega

/-- A day between two days of a month is a day of it. -/
theorem SameMonth.between {i j k : Int} (h : SameMonth i k) (hij : i ≤ j) (hjk : j ≤ k) :
    SameMonth j i ∧ SameMonth j k := by
  have h₁ := months.index_mono hij
  have h₂ := months.index_mono hjk
  simp only [months_index] at h₁ h₂
  simp only [sameMonth_iff] at h ⊢
  omega

/-- The adjustment as it is meant: the date itself, the next business day if it is in the
    date's month, else the last business day before the date, and in its month all the same. -/
structure ModFollows (cal : Calendar) (d r : Date) : Prop where
  business : cal.Business r.julian
  month : SameMonth r.julian d.julian
  stay : cal.Business d.julian → r = d
  next : ¬ cal.Business d.julian → ∀ n, IsLeast {j | d.julian < j ∧ cal.Business j} n →
    SameMonth n d.julian → r.julian = n
  prev : ¬ cal.Business d.julian → ∀ n, IsLeast {j | d.julian < j ∧ cal.Business j} n →
    ¬ SameMonth n d.julian → IsGreatest {j | j < d.julian ∧ cal.Business j} r.julian

/-- The month number of the next business day tells whether it is in the month of the date:
    it is not the same month of another year, and its year can be computed. -/
def MonthTells (cal : Calendar) (d : Date) : Prop :=
  ∃ n, IsLeast {j | d.julian < j ∧ cal.Business j} n ∧ n ≤ maxJulian ∧
    ((ofDay n).2.1 = (ofDay d.julian).2.1 → (ofDay n).1 = (ofDay d.julian).1)

/-- The month of a day in range is that of the calendar. -/
theorem month_eq {j : Int} (h : 0 ≤ j) (h' : j ≤ maxJulian) :
    (⟨j⟩ : Date).month = .ok (ofDay j).2.1 := by
  unfold Date.month Date.gregorian
  rw [Date.ymd_eq h h', ok_bind]
  rfl

/-- The month is told of no other days from day number zero on. -/
theorem month_eq_ok {j m : Int} (h : 0 ≤ j) :
    (⟨j⟩ : Date).month = .ok m ↔ j ≤ maxJulian ∧ m = (ofDay j).2.1 := by
  constructor
  · intro hm
    -- a month that was computed had a date to be computed from
    have hle : j ≤ maxJulian := by
      unfold Date.month Date.gregorian at hm
      obtain ⟨c, hc, -⟩ := bind_eq_ok.mp hm
      exact (Date.ymd_ok_iff.mp ⟨c, hc⟩).2
    rw [month_eq h hle] at hm
    exact ⟨hle, (Except.ok.inj hm).symm⟩
  · rintro ⟨hle, rfl⟩
    exact month_eq h hle

/-- What the modified following adjustment returns for a date that is no business day. -/
theorem adjustModFollowing_returns_iff (hd : 0 ≤ d.julian) (hb : ¬ cal.Business d.julian) :
    (adjustModFollowing d cal).Returns r ↔ ∃ n, cal.Walks 1 d.julian n ∧ n ≤ maxJulian ∧
      if (ofDay n).2.1 = (ofDay d.julian).2.1 then r = ⟨n⟩
      else cal.Walks (-1) d.julian r.julian := by
  unfold adjustModFollowing
  rw [isHoliday_eq cal hd]
  simp only [Comp.liftM_eq, Comp.lift_ok_bind, decide_eq_true_eq, if_pos hb,
    getNextBusinessDay_eq, getPrevBusinessDay_eq, Comp.bind_returns, Comp.lift_returns]
  constructor
  · -- the next business day and the two months were computed
    rintro ⟨⟨n⟩, hn, md, hmd, mn, hmn, hr⟩
    have hw := (nextStop_returns_iff rfl).mp hn
    have hlt := hw.stop.lt Int.one_pos
    obtain ⟨-, rfl⟩ := (month_eq_ok hd).mp hmd
    obtain ⟨hle, rfl⟩ := (month_eq_ok (hd.trans hlt.le)).mp hmn
    refine ⟨n, hw, hle, ?_⟩
    -- in the month of the date it is kept, else the walk turns back
    split
    · next h =>
      rw [if_neg (not_not.mpr h.symm), Comp.pure_returns] at hr
      exact hr.symm
    · next h =>
      rw [if_pos (Ne.symm h)] at hr
      exact (nextStop_returns_iff rfl).mp hr
  · rintro ⟨n, hw, hle, hr⟩
    have hlt := hw.stop.lt Int.one_pos
    refine ⟨⟨n⟩, (nextStop_returns_iff rfl).mpr hw, _, month_eq hd (hlt.le.trans hle), _,
      month_eq (hd.trans hlt.le) hle, ?_⟩
    split at hr
    · next h =>
      rw [if_neg (not_not.mpr h.symm), Comp.pure_returns]
      exact hr.symm
    · next h =>
      rw [if_pos (Ne.symm h)]
      exact (nextStop_returns_iff rfl).mpr hr

/-- The last business day before a date that is no business day is in its month, if the
    month has a business day and the next one is not in it. -/
theorem sameMonth_prev {j n p : Int} (hb : ¬ cal.Business d.julian) (hj : cal.Business j)
    (hmonth : SameMonth j d.julian) (hn : IsLeast {j | d.julian < j ∧ cal.Business j} n)
    (hp : IsGreatest {j | j < d.julian ∧ cal.Business j} p) (hnot : ¬ SameMonth n d.julian) :
    SameMonth p d.julian := by
  have hne : j ≠ d.julian := fun h => hb (h ▸ hj)
  rcases lt_or_gt_of_ne hne with hlt | hgt
  · exact (hmonth.between (hp.2 ⟨hlt, hj⟩) hp.1.1.le).2
  · -- a later business day of the month is no earlier than the next one
    have hsame := SameMonth.between ⟨hmonth.1.symm, hmonth.2.symm⟩ hn.1.1.le (hn.2 ⟨hgt, hj⟩)
    exact absurd hsame.1 hnot

/-- The modified following adjustment does what it is meant to, for a date whose month has a
    business day, exactly if the date is one or the month number of the next one tells
    whether that is in the month. The walk back is to stay on day numbers from zero on. -/
theorem adjustModFollowing_iff (hd : 0 ≤ d.julian)
    (hmonth : ∃ j, SameMonth j d.julian ∧ cal.Business j)
    (hback : ¬ cal.Business d.julian → ∀ n p, IsLeast {j | d.julian < j ∧ cal.Business j} n →
      IsGreatest {j | j < d.julian ∧ cal.Business j} p →
      (ofDay n).2.1 ≠ (ofDay d.julian).2.1 → 0 ≤ p) :
    (∃ r, (adjustModFollowing d cal).Returns r ∧ ModFollows cal d r) ↔
      cal.Business d.julian ∨ MonthTells cal d := by
  by_cases hb : cal.Business d.julian
  · have hrun : (adjustModFollowing d cal).Returns d := by
      unfold adjustModFollowing
      rw [isHoliday_eq cal hd, Comp.liftM_eq, Comp.lift_ok_bind]
      simp [hb]
    have hspec : ModFollows cal d d :=
      ⟨hb, ⟨rfl, rfl⟩, fun _ => rfl, fun h => absurd hb h, fun h => absurd hb h⟩
    exact iff_of_true ⟨d, hrun, hspec⟩ (Or.inl hb)
  · simp only [adjustModFollowing_returns_iff hd hb, hb, false_or]
    constructor
    · rintro ⟨r, ⟨n, hw, hle, hr⟩, hspec⟩
      refine ⟨n, hw.stop.isLeast, hle, fun h => ?_⟩
      -- the code returns the next business day, which is to be in the month
      rw [if_pos h] at hr
      subst hr
      exact hspec.month.1
    · rintro ⟨n, hn, hle, hyear⟩
      have hlt := hn.1.1
      have hmax : n ≤ 2147483647 := by
        unfold maxJulian at hle
        omega
      have hw := (isStop_one_iff.mpr hn).walks (by omega) (by omega)
      by_cases h : (ofDay n).2.1 = (ofDay d.julian).2.1
      · have hsame : SameMonth n d.julian := ⟨hyear h, h⟩
        refine ⟨⟨n⟩, ⟨n, hw, hle, by rw [if_pos h]⟩, hn.1.2, hsame, fun h => absurd h hb, ?_, ?_⟩
        · intro _ n' hn' _
          exact hn.unique hn'
        · intro _ n' hn' hnot
          exact absurd (hn.unique hn' ▸ hsame) hnot
      · have hnot : ¬ SameMonth n d.julian := fun hsame => h hsame.2
        obtain ⟨j, hj, hbj⟩ := hmonth
        obtain ⟨p, hp⟩ := exists_isStop hbj.hasBusinessWeekday (-1) d.julian
        have hgt := hp.isGreatest.1.1
        have hnonneg := hback hb n p hn hp.isGreatest h
        refine ⟨⟨p⟩, ⟨n, hw, hle, by rw [if_neg h]; exact hp.walks (by omega) (by omega)⟩,
          hp.isGreatest.1.2, sameMonth_prev hb hbj hj hn hp.isGreatest hnot,
          fun h => absurd h hb, ?_, fun _ _ _ _ => hp.isGreatest⟩
        intro _ n' hn' hsame
        exact absurd (hn.unique hn' ▸ hsame) hnot

/-- All days from 2025-01-31 to the end of the year are holidays: the month number of the
    next business day, 2026-01-01, is that of the date. -/
theorem adjustModFollowing_nextYear :
    Calendar.Business ⟨∅, "TST", Finset.Icc 2460707 2461041⟩ 2460706 ∧
    SameMonth 2460706 2460707 ∧
    (adjustModFollowing ⟨2460707⟩ ⟨∅, "TST", Finset.Icc 2460707 2461041⟩).Returns ⟨2461042⟩ ∧
    ¬ SameMonth 2461042 2460707 ∧
    ¬ ∃ r, (adjustModFollowing ⟨2460707⟩ ⟨∅, "TST", Finset.Icc 2460707 2461041⟩).Returns r ∧
      ModFollows ⟨∅, "TST", Finset.Icc 2460707 2461041⟩ ⟨2460707⟩ r := by
  -- the calendar closes for the whole year
  have hbusiness : ∀ j, Calendar.Business ⟨∅, "TST", Finset.Icc 2460707 2461041⟩ j ↔
      j < 2460707 ∨ 2461041 < j := by
    intro j
    simp only [Calendar.Business, Finset.notMem_empty, not_false_eq_true, true_and,
      Finset.mem_Icc]
    omega
  -- the next business day is a year later, in a month of the same number
  have hnext : IsLeast {j | (2460707 : Int) < j ∧
      Calendar.Business ⟨∅, "TST", Finset.Icc 2460707 2461041⟩ j} 2461042 := by
    refine ⟨⟨by decide, (hbusiness _).mpr (by decide)⟩, ?_⟩
    rintro j ⟨hlt, hj⟩
    have := (hbusiness j).mp hj
    omega
  have hrun : (adjustModFollowing ⟨2460707⟩
      ⟨∅, "TST", Finset.Icc 2460707 2461041⟩).Returns ⟨2461042⟩ := by
    refine (adjustModFollowing_returns_iff (by decide) ?_).mpr
      ⟨2461042, (isStop_one_iff.mpr hnext).walks (by decide) (by decide), by decide, ?_⟩
    · rw [hbusiness]
      decide
    · rw [if_pos (by decide)]
  have hnot : ¬ SameMonth 2461042 2460707 := by
    unfold SameMonth
    decide
  refine ⟨(hbusiness _).mpr (by decide), by unfold SameMonth; decide, hrun, hnot, ?_⟩
  rintro ⟨r, hr, hspec⟩
  rw [← hrun.unique hr] at hspec
  exact hnot hspec.month

/-- On Saturday 2025-05-31 the next business day is in June, so the adjustment goes back to
    the Friday. -/
theorem adjustModFollowing_iff_monthEnd :
    (∃ r, (adjustModFollowing ⟨2460827⟩ ⟨{5, 6}, "TST", {}⟩).Returns r ∧
      ModFollows ⟨{5, 6}, "TST", {}⟩ ⟨2460827⟩ r) ↔
    Calendar.Business ⟨{5, 6}, "TST", {}⟩ 2460827 ∨ MonthTells ⟨{5, 6}, "TST", {}⟩ ⟨2460827⟩ := by
  refine adjustModFollowing_iff (by decide) ⟨2460826, by unfold SameMonth; decide, by decide⟩ ?_
  intro _ n p _ hp _
  have hle : (2460826 : Int) ≤ p := hp.2 ⟨by decide, by decide⟩
  omega

end DateAdjust

end OA.Time
