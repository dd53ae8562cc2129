import OdinAnalytics.Native.DayCount
import OdinAnalytics.Spec.DateCorrect
import Mathlib.Data.Rat.Cast.Order
import Mathlib.Tactic.FieldSimp
import Mathlib.Tactic.Ring

/-!
# What the day counts count

On day numbers from zero on, the day count of each convention has a closed form
over the months and days of the calendar, and the loop of `ACT/ACT` splits an
interval at the ends of the years.

## Key results

- `dayCount_post`: the days each convention counts
- `daysBetween_nonneg`: days between dates in order are not negative
- `yearFraction_ends`: the year fraction of each convention
- `yearFractionOf_eq`: the conventions whose year fractions add up
- `yearFraction_returns_eq`: so they do on dates before day number zero, but for `ACT/ACT`
-/

namespace OA.Time

open Machine Gregorian

/-! ## Days -/

/-- The day numbers from zero on that `Date` converts to a year, month and day. -/
def IsDayNumber (j : Int) : Prop := 0 ≤ j ∧ j ≤ maxJulian

/-- The day of the month, counting from one. -/
def dayOf (j : Int) : Int := months.offset j + 1

/-- The day of the month of the Eurobond convention. -/
def euroDay (j : Int) : Int := dayE360 (dayOf j)

/-- The day of the month of the ISDA convention, whose months end on the 30th. -/
def isdaDay (j : Int) : Int :=
  if dayOf j = 31 ∨ monthIndex j % 12 = 1 ∧ dayOf j = months.len (monthIndex j) then 30 else dayOf j

/-- Days in months of thirty days, from a day of one month to a day of another. -/
def thirtyDays (a b dayA dayB : Int) : Int := 30 * (monthIndex b - monthIndex a) + (dayB - dayA)

/-- The bond basis for dates in order: the end of the second month counts as the
    30th only after the end of the first one. -/
def bondDays (a b : Int) : Int :=
  thirtyDays a b (min 30 (dayOf a)) (if dayOf b = 31 ∧ 30 ≤ dayOf a then 30 else dayOf b)

/-- The days that a convention counts from one day to another. -/
def daysBetween (rule : DayCountRule) (a b : Int) : Int :=
  match rule with
  | .kACT_ACT | .kACT_360 | .kACT_365_FIXED | .kACTB_ACTB => b - a
  | .k30_360_E_EUROBOND => thirtyDays a b (euroDay a) (euroDay b)
  | .k30_E_360_ISDA => thirtyDays a b (isdaDay a) (isdaDay b)
  | .k30_360_BOND_BASIS => if b < a then -bondDays b a else bondDays a b

/-- The day of the month of a day. -/
theorem dayOf_bounds (j : Int) : 1 ≤ dayOf j ∧ dayOf j ≤ months.len (monthIndex j) ∧
    28 ≤ months.len (monthIndex j) ∧ months.len (monthIndex j) ≤ 31 := by
  have h₀ := months.offset_nonneg j
  have h₁ := months.offset_lt_len j
  have h₂ := len_bounds (monthIndex j)
  rw [months_index] at h₁
  unfold dayOf
  omega

/-- The Eurobond days are those of a month of thirty days. -/
theorem euroDay_bounds (j : Int) : 1 ≤ euroDay j ∧ euroDay j ≤ 30 := by
  have := dayOf_bounds j
  unfold euroDay dayE360
  split <;> omega

/-- The ISDA days are those of a month of thirty days. -/
theorem isdaDay_bounds (j : Int) : 1 ≤ isdaDay j ∧ isdaDay j ≤ 30 := by
  have := dayOf_bounds j
  unfold isdaDay
  split <;> omega

/-- Dates in order are in order of their months, and of their days within a month. -/
theorem month_day_of_le {a b : Int} (h : a ≤ b) : monthIndex a < monthIndex b ∨
    monthIndex a = monthIndex b ∧ dayOf a ≤ dayOf b := by
  have hmono : monthIndex a ≤ monthIndex b := months.index_mono h
  -- within one month the offsets are ordered
  rcases hmono.lt_or_eq with hlt | heq
  · exact Or.inl hlt
  · have ha := months.start_add_offset a
    have hb := months.start_add_offset b
    rw [months_index] at ha hb
    rw [heq] at ha
    unfold dayOf
    exact Or.inr ⟨heq, by omega⟩

/-- Up to `maxJulian` there are too few months for their days to overflow. -/
theorem bondDays_bounds {a b : Int} (ha : 0 ≤ a) (hb : 0 ≤ b) (h : a ≤ maxJulian)
    (h' : b ≤ maxJulian) :
    -600000000 ≤ bondDays a b ∧ bondDays a b ≤ 600000000 := by
  have hA := dayOf_bounds a
  have hB := dayOf_bounds b
  obtain ⟨hloA, hhiA⟩ := Date.monthIndex_bounds ha
  obtain ⟨hloB, hhiB⟩ := Date.monthIndex_bounds hb
  have hma := hhiA h
  have hmb := hhiB h'
  unfold bondDays thirtyDays
  split <;> omega

section Days

variable {E : Fault → Prop}

/-- The day of the source is the one that ISDA counts. -/
theorem dayEISDA_post (j : Int) :
    Post (dayEISDA (ofDay j).1 (ofDay j).2.1 (ofDay j).2.2) E (· = isdaDay j) := by
  have hm : (ofDay j).2.1 = monthIndex j % 12 + 1 := rfl
  have hd : (ofDay j).2.2 = dayOf j := rfl
  have hv := valid_ofDay j
  have hlen : months.len (monthIndex j) = monthLength (ofDay j).1 (ofDay j).2.1 := months_len _
  unfold dayEISDA isdaDay
  rw [hlen, hd]
  -- the source asks for the month's length in February only
  by_cases h31 : dayOf j = 31
  · rw [if_pos h31, if_pos (Or.inl h31)]
    exact rfl
  · rw [if_neg h31]
    by_cases hfeb : (ofDay j).2.1 = 2
    · rw [if_pos hfeb, Date.daysInMonth_eq hv.one_le_month hv.month_le, ok_bind, post_pure]
      have : monthIndex j % 12 = 1 := by omega
      simp [h31, this]
    · rw [if_neg hfeb, if_neg (by omega)]
      exact rfl

variable {a b : Int} (hE : E .overflow ∨ a ≤ maxJulian ∧ b ≤ maxJulian) (ha : 0 ≤ a) (hb : 0 ≤ b)

include hE ha hb

/-- The days between two day numbers up to `maxJulian` do not overflow. -/
theorem actualDays_post : Post (actualDays ⟨a⟩ ⟨b⟩) E (· = b - a) := by
  apply post_checked_of (hE.imp_right fun h => ?_)
  unfold maxJulian at h
  simp only [InInt32]
  omega

/-- Years and months of the components of two days, as the months between them. -/
theorem thirtyDayMonths_ofDay {dayA dayB : Int} (hA : 1 ≤ dayA ∧ dayA ≤ 30)
    (hB : 1 ≤ dayB ∧ dayB ≤ 31) :
    Post (thirtyDayMonths ((ofDay a).1, (ofDay a).2.1, dayA) ((ofDay b).1, (ofDay b).2.1, dayB)) E
      (· = thirtyDays a b dayA dayB) := by
  obtain ⟨hloA, hhiA⟩ := Date.monthIndex_bounds ha
  obtain ⟨hloB, hhiB⟩ := Date.monthIndex_bounds hb
  -- up to `maxJulian` the months are too few for their days to overflow
  have hstep : ∀ x : Int, (monthIndex a ≤ 17580033 → monthIndex b ≤ 17580033 → InInt32 x) →
      Post (checked x) E (· = x) := fun x hx =>
    post_checked_of (hE.imp_right fun h => hx (hhiA h.1) (hhiB h.2))
  unfold thirtyDayMonths thirtyDays ofDay
  simp only [add32, mul32, sub32]
  repeat refine Post.bind_eq (hstep _ fun _ _ => by unfold InInt32; omega) ?_
  refine (hstep _ fun _ _ => by unfold InInt32; omega).weaken fun v hv => ?_
  rw [hv]
  omega

/-- The Eurobond count is in months of thirty days. -/
theorem computeDayCount30E360_post :
    Post (computeDayCount30E360 ⟨a⟩ ⟨b⟩) E (· = thirtyDays a b (euroDay a) (euroDay b)) := by
  unfold computeDayCount30E360
  apply Post.bind_eq (Date.ymd_post ha (hE.imp_right And.left))
  apply Post.bind_eq (Date.ymd_post hb (hE.imp_right And.right))
  exact thirtyDayMonths_ofDay hE ha hb (euroDay_bounds a)
    ((euroDay_bounds b).imp_right fun h => h.trans (by decide))

/-- The ISDA count is in months of thirty days. -/
theorem computeDayCount30360EISDA_post :
    Post (computeDayCount30360EISDA ⟨a⟩ ⟨b⟩) E (· = thirtyDays a b (isdaDay a) (isdaDay b)) := by
  unfold computeDayCount30360EISDA
  apply Post.bind_eq (Date.ymd_post ha (hE.imp_right And.left))
  apply Post.bind_eq (Date.ymd_post hb (hE.imp_right And.right))
  refine Post.bind_eq (dayEISDA_post a) (Post.bind_eq (dayEISDA_post b) ?_)
  exact thirtyDayMonths_ofDay hE ha hb (isdaDay_bounds a)
    ((isdaDay_bounds b).imp_right fun h => h.trans (by decide))

/-- The bond count of two dates in order. -/
theorem dayCount30360Ordered_post :
    Post (dayCount30360Ordered ⟨a⟩ ⟨b⟩) E (· = bondDays a b) := by
  -- the first day is at most the 30th
  have hda : (if dayOf a = 31 then 30 else dayOf a) = min 30 (dayOf a) := by
    have := dayOf_bounds a
    split <;> omega
  -- the second one is the 30th where the first is at least that
  have hdb : (if dayOf b = 31 ∧ min 30 (dayOf a) > 29 then 30 else dayOf b) =
      if dayOf b = 31 ∧ 30 ≤ dayOf a then 30 else dayOf b := by
    refine if_congr ?_ rfl rfl
    omega
  unfold dayCount30360Ordered
  apply Post.bind_eq (Date.ymd_post ha (hE.imp_right And.left))
  apply Post.bind_eq (Date.ymd_post hb (hE.imp_right And.right))
  show Post (thirtyDayMonths ((ofDay a).1, (ofDay a).2.1, if dayOf a = 31 then 30 else dayOf a)
    ((ofDay b).1, (ofDay b).2.1,
      if dayOf b = 31 ∧ (if dayOf a = 31 then 30 else dayOf a) > 29 then 30 else dayOf b)) E _
  rw [hda, hdb]
  have hA := dayOf_bounds a
  have hB := dayOf_bounds b
  apply thirtyDayMonths_ofDay hE ha hb
  · omega
  · split <;> omega

/-- The bond count goes both ways. -/
theorem computeDayCount30360_post :
    Post (computeDayCount30360 ⟨a⟩ ⟨b⟩) E (· = if b < a then -bondDays b a else bondDays a b) := by
  unfold computeDayCount30360
  simp only [Date.lt_def]
  split
  · -- dates in the other order are exchanged, and the count negated
    apply Post.bind_eq (dayCount30360Ordered_post (hE.imp_right And.symm) hb ha)
    apply post_checked_of (hE.imp_right fun h => ?_)
    have := bondDays_bounds hb ha h.2 h.1
    exact ⟨by omega, by omega⟩
  · exact dayCount30360Ordered_post hE ha hb

/-- The days each convention counts. -/
theorem dayCount_post {F : Type} [IntCast F] [Add F] [Div F] [Neg F] {rule : DayCountRule}
    {counter : DayCounterBase F} (hc : generateDayCounter rule = some counter) :
    Post (counter.dayCount ⟨a⟩ ⟨b⟩) E (· = daysBetween rule a b) := by
  -- the factory's cases
  cases rule with
  | kACT_ACT | kACT_360 | kACT_365_FIXED =>
    cases hc
    exact actualDays_post hE ha hb
  | kACTB_ACTB => cases hc
  | k30_360_BOND_BASIS =>
    cases hc
    exact computeDayCount30360_post hE ha hb
  | k30_E_360_ISDA =>
    cases hc
    exact computeDayCount30360EISDA_post hE ha hb
  | k30_360_E_EUROBOND =>
    cases hc
    exact computeDayCount30E360_post hE ha hb

end Days

/-! ## Order -/

/-- Months of thirty days keep the order of the days, if days do so within a month. -/
theorem thirtyDays_nonneg {a b dayA dayB : Int} (h : a ≤ b) (h₁ : dayA ≤ 30) (h₂ : 1 ≤ dayB)
    (hday : monthIndex a = monthIndex b → dayOf a ≤ dayOf b → dayA ≤ dayB) :
    0 ≤ thirtyDays a b dayA dayB := by
  unfold thirtyDays
  rcases month_day_of_le h with hlt | ⟨heq, hle⟩
  · -- a month between the two outweighs any difference of the days
    omega
  · have := hday heq hle
    omega

/-- The bond count of dates in order is not negative. -/
theorem bondDays_nonneg {a b : Int} (h : a ≤ b) : 0 ≤ bondDays a b := by
  have ha := dayOf_bounds a
  have hb := dayOf_bounds b
  refine thirtyDays_nonneg h (min_le_left _ _) ?_ fun hm hd => ?_
  · split <;> omega
  · split <;> omega

/-- Days between dates in order are not negative. -/
theorem daysBetween_nonneg {a b : Int} (rule : DayCountRule) (h : a ≤ b) :
    0 ≤ daysBetween rule a b := by
  have ha := dayOf_bounds a
  have hb := dayOf_bounds b
  cases rule with
  | kACT_ACT | kACT_360 | kACT_365_FIXED | kACTB_ACTB => exact Int.sub_nonneg_of_le h
  | k30_360_BOND_BASIS =>
    rw [daysBetween, if_neg (by omega)]
    exact bondDays_nonneg h
  | k30_E_360_ISDA =>
    unfold daysBetween
    apply thirtyDays_nonneg h (isdaDay_bounds a).2 (isdaDay_bounds b).1
    intro hm hd
    -- within a month, the day that counts as the 30th is the last one
    unfold isdaDay
    rw [← hm] at hb ⊢
    split <;> split <;> omega
  | k30_360_E_EUROBOND =>
    unfold daysBetween
    apply thirtyDays_nonneg h (euroDay_bounds a).2 (euroDay_bounds b).1
    intro hm hd
    unfold euroDay dayE360
    split <;> split <;> omega

/-! ## The loop of `ACT/ACT` -/

/-- `DaysInYear` is the length of the year. -/
theorem daysInYear_eq (y : Int) : daysInYear y = yearLength y := by
  unfold daysInYear yearLength
  rw [Date.isLeap_eq]
  simp

/-- The year of a day is that of the calendar. -/
theorem year_post {E : Fault → Prop} {j : Int} (hE : E .overflow ∨ j ≤ maxJulian) (hj : 0 ≤ j) :
    Post (Date.year ⟨j⟩) E (· = years.index j) :=
  Post.bind_eq (Date.ymd_post hj hE) rfl

/-- The first year from day number zero on. -/
theorem years_index_ge {j : Int} (hj : 0 ≤ j) : -4713 ≤ years.index j :=
  (show -4713 ≤ years.index 0 by decide).trans (years.index_mono hj)

/-- The last year in range. -/
theorem years_index_le {j : Int} (hj : j ≤ maxJulian) : years.index j ≤ 1465002 :=
  (years.index_mono hj).trans (show years.index maxJulian ≤ 1465002 by decide)

section ActAct

variable (F : Type) [IntCast F] [Add F] [Div F]

/-- The last day counted after `i` years of the loop. -/
def lastCounted (a : Int) (i : Nat) : Int := max a (toDay (years.index a + i) 1 1) - 1

/-- Nothing is counted yet before the start date. -/
theorem lastCounted_zero (a : Int) : lastCounted a 0 = a - 1 := by
  have hstart := years.start_index_le a
  rw [years_start] at hstart
  unfold lastCounted
  rw [Nat.cast_zero, add_zero]
  omega

/-- A year of the loop counts up to its last day. -/
theorem lastCounted_succ (a : Int) (i : Nat) :
    lastCounted a (i + 1) = toDay (years.index a + i) 12 31 := by
  -- New Year's Eve is the day before the next year starts
  have hle : years.start (years.index a + 1) ≤ years.start (years.index a + i + 1) :=
    years.start_strictMono.monotone (by omega)
  have hlt := years.lt_start_index_succ a
  rw [years_start, years_start] at hle
  rw [years_start] at hlt
  rw [newYearsEve_eq]
  unfold lastCounted
  push_cast
  rw [← add_assoc]
  omega

/-- A year of the loop ends between the two dates. -/
theorem newYearsEve_bounds {a b : Int} {i : Nat} (hi : years.index a + i < years.index b) :
    a ≤ toDay (years.index a + i) 12 31 ∧ toDay (years.index a + i) 12 31 < b := by
  -- the years counted lie between those of the two dates
  have hlo : years.start (years.index a + 1) ≤ years.start (years.index a + i + 1) :=
    years.start_strictMono.monotone (by omega)
  have hhi : years.start (years.index a + i + 1) ≤ years.start (years.index b) :=
    years.start_strictMono.monotone (by omega)
  have ha := years.lt_start_index_succ a
  have hb := years.start_index_le b
  rw [years_start, years_start] at hlo hhi
  rw [years_start] at ha hb
  rw [newYearsEve_eq]
  omega

/-- The year fraction added up in `i` years of the loop. -/
def fractionAfter (a : Int) : Nat → F
  | 0 => ((0 : Int) : F)
  | i + 1 => fractionAfter a i +
      ((toDay (years.index a + i) 12 31 - lastCounted a i : Int) : F) /
        ((yearLength (years.index a + i) : Int) : F)

/-- What `fractionActActOrdered` computes. -/
def actActFraction (a b : Int) : F :=
  if years.index b = years.index a then
    ((0 : Int) : F) + ((b - a : Int) : F) / ((yearLength (years.index a) : Int) : F)
  else
    fractionAfter F a (years.index b - years.index a).toNat +
      ((b - toDay (years.index b) 1 1 : Int) : F) / ((yearLength (years.index b) : Int) : F)

variable {F} {E : Fault → Prop} {a b : Int} (hE : E .overflow ∨ b ≤ maxJulian) (ha : 0 ≤ a)

include hE ha

/-- One year of the loop, for a year before the one of the end date. -/
theorem actActStep_post {i : Nat} (hi : years.index a + i < years.index b) :
    Post (actActStep ⟨b⟩ ⟨years.index a + i, ⟨lastCounted a i⟩, fractionAfter F a i⟩) E
      (· = ⟨years.index a + (i + 1 : Nat), ⟨lastCounted a (i + 1)⟩,
        fractionAfter F a (i + 1)⟩) := by
  have hy := years_index_ge ha
  obtain ⟨hlo, hlt⟩ := newYearsEve_bounds hi
  -- up to `maxJulian`, neither the days counted nor the year overflows
  have hdays : b ≤ maxJulian → InInt32 (toDay (years.index a + i) 12 31 - lastCounted a i) ∧
      InInt32 (years.index a + i + 1) := by
    intro hb
    have hyear := years_index_le hb
    have hstart : years.start (years.index a + i) ≤ years.start (years.index b) :=
      years.start_strictMono.monotone hi.le
    have hb' := years.start_index_le b
    rw [years_start, years_start] at hstart
    rw [years_start] at hb'
    unfold maxJulian at hb
    unfold lastCounted InInt32
    omega
  unfold actActStep
  apply Post.bind_eq (Date.ofYmd_post (valid_newYearsEve _) (by omega)
    (hE.imp_right fun h => ⟨ha.trans hlo, hlt.le.trans h⟩))
  -- the year ends before the one of `b` begins, so the source's test succeeds
  simp only [Date.lt_def, hlt, if_true]
  refine Post.bind_eq (post_checked_of (hE.imp_right fun h => (hdays h).1))
    (Post.bind_eq (post_checked_of (hE.imp_right fun h => (hdays h).2)) ?_)
  simp only [post_pure, lastCounted_succ, fractionAfter, daysInYear_eq, ActActState.mk.injEq,
    and_true]
  push_cast
  omega

/-- The loop over the years adds up the fraction of dates in order. -/
theorem fractionActActOrdered_ends (h : a ≤ b) :
    (fractionActActOrdered ⟨a⟩ ⟨b⟩ : Comp F).Ends E (· = actActFraction F a b) := by
  have hb := ha.trans h
  have hidx := years.index_mono h
  unfold fractionActActOrdered actActFraction
  refine (Comp.ends_lift (year_post (hE.imp_right h.trans) ha)).bind_eq
    ((Comp.ends_lift (year_post hE hb)).bind_eq ?_)
  split
  · -- both dates are in one year
    rw [daysInYear_eq]
    have hdays := actualDays_post (hE.imp_right fun h' => ⟨h.trans h', h'⟩) ha hb
    exact (Comp.ends_lift hdays).bind_eq (Comp.ends_pure rfl)
  · -- one turn of the loop for each year before the last
    obtain ⟨k, hk⟩ : ∃ k : Nat, years.index b = years.index a + k :=
      ⟨(years.index b - years.index a).toNat, by omega⟩
    have hloop : (Comp.whileLoop
        (fun s : ActActState F => .ok (decide (s.currYear < years.index b))) (actActStep ⟨b⟩)
        ⟨years.index a + (0 : Nat), ⟨lastCounted a 0⟩, fractionAfter F a 0⟩).Ends E
        (· = ⟨years.index a + k, ⟨lastCounted a k⟩, fractionAfter F a k⟩) := by
      refine Comp.whileLoop_trace
        (fun i => (⟨years.index a + i, ⟨lastCounted a i⟩, fractionAfter F a i⟩ : ActActState F)) k
        (fun i hi => ?_) ?_ fun i hi => actActStep_post hE ha (by omega)
      · exact congrArg Except.ok (decide_eq_true (by simp only; omega))
      · exact congrArg Except.ok (decide_eq_false (by simp only; omega))
    -- what is left runs from the new year of the last year, which is between the dates
    have hnew : 0 ≤ toDay (years.index b) 1 1 ∧ toDay (years.index b) 1 1 ≤ b := by
      have hstart : years.start (years.index a + 1) ≤ years.start (years.index b) :=
        years.start_strictMono.monotone (by omega)
      have hlt := years.lt_start_index_succ a
      have hle := years.start_index_le b
      rw [years_start] at hstart hlt hle
      rw [years_start] at hstart
      omega
    have hy := years_index_ge hb
    refine (Comp.ends_lift (post_checked_of (hE.imp_right fun h' => ?_))).bind_eq ?_
    · unfold maxJulian at h'
      simp only [InInt32]
      omega
    simp only [lastCounted_zero, Nat.cast_zero, add_zero] at hloop
    apply hloop.bind_eq
    apply (Comp.ends_lift (Date.ofYmd_post (valid_newYear _) (by omega)
      (hE.imp_right fun h' => ⟨hnew.1, hnew.2.trans h'⟩))).bind_eq
    have hdays := actualDays_post (hE.imp_right fun h' => ⟨hnew.2.trans h', h'⟩) hnew.1 hb
    refine (Comp.ends_lift hdays).bind_eq (Comp.ends_pure ?_)
    simp only [daysInYear_eq, show (years.index b - years.index a).toNat = k by omega]

end ActAct

/-! ## Year fractions -/

section YearFraction

variable (F : Type) [IntCast F] [Add F] [Div F]

/-- The year fraction that a convention computes from one day to another. -/
def yearFractionOf [Neg F] (rule : DayCountRule) (a b : Int) : F :=
  match rule with
  | .kACT_ACT => if b < a then -actActFraction F b a else actActFraction F a b
  | .kACT_365_FIXED => ((daysBetween rule a b : Int) : F) / ((365 : Int) : F)
  | _ => ((daysBetween rule a b : Int) : F) / ((360 : Int) : F)

variable {F} {E : Fault → Prop} {a b : Int}

omit [Add F] in
/-- A count of days over the days of a year. -/
theorem fractionOf_ends {count : Date → Date → Exec Int} {days : Int} (daysInYear : Int)
    (h : Post (count ⟨a⟩ ⟨b⟩) E (· = days)) :
    (fractionOf count daysInYear ⟨a⟩ ⟨b⟩ : Comp F).Ends E
      (· = ((days : Int) : F) / ((daysInYear : Int) : F)) :=
  (Comp.ends_lift h).bind_eq (Comp.ends_pure rfl)

variable [Neg F] (hE : E .overflow ∨ a ≤ maxJulian ∧ b ≤ maxJulian) (ha : 0 ≤ a) (hb : 0 ≤ b)

include hE ha hb

/-- The fraction goes both ways. -/
theorem computeDayCountFractionActAct_ends :
    (computeDayCountFractionActAct ⟨a⟩ ⟨b⟩ : Comp F).Ends E
      (· = yearFractionOf F .kACT_ACT a b) := by
  unfold computeDayCountFractionActAct yearFractionOf
  simp only [Date.lt_def]
  split
  · exact (fractionActActOrdered_ends (hE.imp_right And.left) hb (by omega)).bind_eq
      (Comp.ends_pure rfl)
  · exact fractionActActOrdered_ends (hE.imp_right And.right) ha (by omega)

/-- Every year fraction is computed, up to overflow. -/
theorem yearFraction_ends {rule : DayCountRule} {counter : DayCounterBase F}
    (hc : generateDayCounter rule = some counter) :
    (counter.yearFraction ⟨a⟩ ⟨b⟩).Ends E (· = yearFractionOf F rule a b) := by
  -- one calculation for each convention that is supported
  cases rule with
  | kACT_ACT =>
    cases hc
    exact computeDayCountFractionActAct_ends hE ha hb
  | kACT_360 | kACT_365_FIXED =>
    cases hc
    exact fractionOf_ends _ (actualDays_post hE ha hb)
  | kACTB_ACTB => cases hc
  | k30_360_BOND_BASIS =>
    cases hc
    exact fractionOf_ends _ (computeDayCount30360_post hE ha hb)
  | k30_E_360_ISDA =>
    cases hc
    exact fractionOf_ends _ (computeDayCount30360EISDA_post hE ha hb)
  | k30_360_E_EUROBOND =>
    cases hc
    exact fractionOf_ends _ (computeDayCount30E360_post hE ha hb)

end YearFraction

/-! ## Additivity

In exact arithmetic, a convention whose year fraction is the difference of a
position on a time axis adds up over consecutive intervals. The bond basis has no
such position: the end of its second month depends on the first one. -/

section Additivity

/-- The conventions that count along a time axis. -/
def Additive (rule : DayCountRule) : Prop :=
  rule = .kACT_360 ∨ rule = .kACT_365_FIXED ∨ rule = .kACT_ACT ∨ rule = .k30_360_E_EUROBOND ∨
    rule = .k30_E_360_ISDA

instance : DecidablePred Additive := fun rule => by unfold Additive; infer_instance

/-- The time of a day in years, by an additive convention. -/
def position (rule : DayCountRule) (j : Int) : ℚ :=
  match rule with
  | .kACT_ACT => years.index j + years.offset j / years.len (years.index j)
  | .kACT_365_FIXED => j / 365
  | .k30_360_E_EUROBOND => (30 * monthIndex j + euroDay j) / 360
  | .k30_E_360_ISDA => (30 * monthIndex j + isdaDay j) / 360
  | _ => j / 360

/-- No year is empty, as a number of the fraction. -/
theorem years_len_pos (y : Int) : (0 : ℚ) < years.len y := by exact_mod_cast years.len_pos y

/-- After the first year, the loop has counted whole years less the part of the
    first one before the start date. -/
theorem fractionAfter_succ (a : Int) (i : Nat) : fractionAfter ℚ a (i + 1) =
    (i + 1) - years.offset a / years.len (years.index a) := by
  induction i with
  | zero =>
    have hpos := years_len_pos (years.index a)
    -- the first year counts from the start date
    have hdays : toDay (years.index a + (0 : Nat)) 12 31 - lastCounted a 0 =
        years.len (years.index a) - years.offset a := by
      rw [lastCounted_zero, newYearsEve_eq, Nat.cast_zero, add_zero]
      simp only [Tiling.len, Tiling.offset, years_start]
      omega
    rw [fractionAfter, fractionAfter, hdays]
    rw [Nat.cast_zero, add_zero, ← years_len]
    push_cast
    field_simp
    ring
  | succ i ih =>
    have hpos := years_len_pos (years.index a + (i + 1 : Nat))
    -- every other year counts whole
    have hdays : toDay (years.index a + (i + 1 : Nat)) 12 31 - lastCounted a (i + 1) =
        years.len (years.index a + (i + 1 : Nat)) := by
      rw [lastCounted_succ, newYearsEve_eq, newYearsEve_eq]
      simp only [Tiling.len, years_start]
      push_cast
      rw [← add_assoc]
      omega
    rw [fractionAfter, ih, hdays, ← years_len, div_self hpos.ne']
    push_cast
    ring

/-- The fraction of dates in order is a difference of positions. -/
theorem actActFraction_eq {a b : Int} (h : a ≤ b) :
    actActFraction ℚ a b = position .kACT_ACT b - position .kACT_ACT a := by
  have hidx := years.index_mono h
  have hb : b - toDay (years.index b) 1 1 = years.offset b := rfl
  unfold actActFraction position
  split
  · next heq =>
    -- within a year, the days are the difference of the offsets
    have hpos := years_len_pos (years.index a)
    have hdays : b - a = years.offset b - years.offset a := by
      simp only [Tiling.offset, heq]
      omega
    rw [heq, hdays, ← years_len]
    push_cast
    field_simp
    ring
  · obtain ⟨k, hk⟩ : ∃ k : Nat, years.index b = years.index a + (k + 1 : Nat) :=
      ⟨(years.index b - years.index a - 1).toNat, by omega⟩
    rw [show (years.index b - years.index a).toNat = k + 1 by omega, fractionAfter_succ, hb,
      ← years_len]
    have hcast : (years.index b : ℚ) = years.index a + (k + 1 : Nat) := by exact_mod_cast hk
    rw [hcast]
    push_cast
    ring

/-- The year fraction of an additive convention is a difference of positions. -/
theorem yearFractionOf_eq {rule : DayCountRule} (hrule : Additive rule) {a b : Int} (h : a ≤ b) :
    yearFractionOf ℚ rule a b = position rule b - position rule a := by
  obtain rfl | rfl | rfl | rfl | rfl := hrule
  · -- a quotient by the days of the year: the difference divides as the terms do
    simp only [yearFractionOf, daysBetween, position]
    push_cast
    ring
  · simp only [yearFractionOf, daysBetween, position]
    push_cast
    ring
  · -- only ACT/ACT depends on the order of the dates
    rw [yearFractionOf, if_neg (by omega), actActFraction_eq h]
  · -- so do the conventions of thirty days a month
    simp only [yearFractionOf, daysBetween, position, thirtyDays]
    push_cast
    ring
  · simp only [yearFractionOf, daysBetween, position, thirtyDays]
    push_cast
    ring

end Additivity

/-! ## Times of dates

Below day number zero the components of a date are not the calendar's. The months of
thirty days still count along an axis there, that of the components as `Date` computes
them, so what is additive stays so; only `ACT/ACT`, which goes back from years to
dates, needs the calendar.
-/

/-- The days up to a date in years of twelve months of thirty days, where a convention
    says which day of its month the date counts as. -/
def thirtyDayTime (day : Int → Int → Int → Exec Int) (date : Date) : Exec Int := do
  let (y, m, d) ← date.gregorian
  return 360 * y + 30 * m + (← day y m d)

/-- The time of a date in years, by an additive convention. -/
def timeOf (rule : DayCountRule) (date : Date) : ℚ :=
  match rule with
  | .kACT_ACT => position .kACT_ACT date.julian
  | .kACT_365_FIXED => date.julian / 365
  | .k30_360_E_EUROBOND =>
    ((thirtyDayTime (fun _ _ d => .ok (dayE360 d)) date).toOption.getD 0 : Int) / 360
  | .k30_E_360_ISDA => ((thirtyDayTime dayEISDA date).toOption.getD 0 : Int) / 360
  | _ => date.julian / 360

/-- Days in months of thirty days are a difference, of whatever components. -/
theorem thirtyDayMonths_eq_ok {y₁ m₁ d₁ y₂ m₂ d₂ n : Int}
    (h : thirtyDayMonths (y₁, m₁, d₁) (y₂, m₂, d₂) = .ok n) :
    n = (360 * y₂ + 30 * m₂ + d₂) - (360 * y₁ + 30 * m₁ + d₁) := by
  have hpost : Post (thirtyDayMonths (y₁, m₁, d₁) (y₂, m₂, d₂)) (fun _ => True)
      (· = 360 * (y₂ - y₁) + 30 * (m₂ - m₁) + (d₂ - d₁)) := by
    unfold thirtyDayMonths
    simp only [add32, mul32, sub32]
    repeat refine Post.bind_eq (post_checked_of (Or.inl trivial)) ?_
    exact post_checked_of (Or.inl trivial)
  rw [h, post_ok] at hpost
  rw [hpost]
  ring

/-- A count of days in months of thirty days is a difference of times. -/
theorem thirtyDayTime_of_count (day : Int → Int → Int → Exec Int) {a b : Date} {n : Int}
    (h : (do
      let (y₁, m₁, d₁) ← a.gregorian
      let (y₂, m₂, d₂) ← b.gregorian
      thirtyDayMonths (y₁, m₁, ← day y₁ m₁ d₁) (y₂, m₂, ← day y₂ m₂ d₂)) = .ok n) :
    ((thirtyDayTime day b).toOption.getD 0 : Int) - (thirtyDayTime day a).toOption.getD 0 = n := by
  obtain ⟨⟨y₁, m₁, d₁⟩, ha, h⟩ := bind_eq_ok.mp h
  obtain ⟨⟨y₂, m₂, d₂⟩, hb, h⟩ := bind_eq_ok.mp h
  obtain ⟨e₁, he₁, h⟩ := bind_eq_ok.mp h
  obtain ⟨e₂, he₂, h⟩ := bind_eq_ok.mp h
  -- the time of each date is its months and its days
  have hta : thirtyDayTime day a = .ok (360 * y₁ + 30 * m₁ + e₁) := by
    simp only [thirtyDayTime, ha, ok_bind, he₁]
    rfl
  have htb : thirtyDayTime day b = .ok (360 * y₂ + 30 * m₂ + e₂) := by
    simp only [thirtyDayTime, hb, ok_bind, he₂]
    rfl
  rw [hta, htb, thirtyDayMonths_eq_ok h]
  rfl

/-- The year fraction of an additive convention is a difference of times on any dates,
    but for `ACT/ACT` from day number zero on. -/
theorem yearFraction_returns_eq {rule : DayCountRule} (hrule : Additive rule)
    {counter : DayCounterBase ℚ} (hc : generateDayCounter rule = some counter) {a b : Date}
    (hle : a ≤ b) (hnn : rule = .kACT_ACT → 0 ≤ a.julian) {x : ℚ}
    (h : (counter.yearFraction a b).Returns x) : x = timeOf rule b - timeOf rule a := by
  -- a fraction of a fixed year is a count over the days of that year
  have hfraction : ∀ {count : Date → Date → Exec Int} {days : Int},
      (fractionOf count days a b : Comp ℚ).Returns x →
      ∃ n, count a b = .ok n ∧ x = (n : ℚ) / (days : ℚ) := by
    intro count days h
    obtain ⟨n, hn, h⟩ := Comp.bind_returns.mp h
    exact ⟨n, Comp.lift_returns.mp hn, (Comp.pure_returns.mp h).symm⟩
  obtain rfl | rfl | rfl | rfl | rfl := hrule
  · cases hc
    obtain ⟨n, hn, rfl⟩ := hfraction h
    obtain ⟨-, rfl⟩ := checked_eq_ok.mp hn
    simp only [timeOf]
    push_cast
    ring
  · cases hc
    obtain ⟨n, hn, rfl⟩ := hfraction h
    obtain ⟨-, rfl⟩ := checked_eq_ok.mp hn
    simp only [timeOf]
    push_cast
    ring
  · have ha := hnn rfl
    have hb : 0 ≤ b.julian := ha.trans hle
    have hends := yearFraction_ends (E := fun _ => True) (Or.inl trivial) ha hb hc
    rw [hends.of_returns h, yearFractionOf_eq (Or.inr (Or.inr (Or.inl rfl))) hle]
    rfl
  · cases hc
    obtain ⟨n, hn, rfl⟩ := hfraction h
    rw [← thirtyDayTime_of_count (fun _ _ d => .ok (dayE360 d)) hn]
    simp only [timeOf]
    push_cast
    ring
  · cases hc
    obtain ⟨n, hn, rfl⟩ := hfraction h
    rw [← thirtyDayTime_of_count dayEISDA hn]
    simp only [timeOf]
    push_cast
    ring

end OA.Time
