import OdinAnalytics.Lib.Gregorian
import OdinAnalytics.Native.Date

/-!
# Dates against the Gregorian calendar

`Date` computes with two closed formulas full of truncating divisions. This file
shows that on day numbers from zero on they are the proleptic Gregorian calendar
of `Lib.Gregorian`, and that tenor arithmetic is moving by blocks of it.

Each function has one specification lemma, named after it with `_post`: the
result is the calendar's, for every fault predicate that either admits a 32-bit
overflow or is about day numbers up to `maxJulian`, where nothing overflows.
-/

namespace OA.Time

open Machine Gregorian

/-- The last day number whose Gregorian conversion stays inside 32 bits. -/
def maxJulian : Int := 536802342

/-- The first one. -/
def minJulian : Int := -536861253

namespace Date

/-! ## Day numbers to dates -/

/-- The expression of the source counts quarter days. -/
private theorem quarterDays_eq (j : Int) :
    4 * (j + 1401 + (4 * j + 274277) / 146097 * 3 / 4 + -38) + 3 = quarterDays j := by
  unfold quarterDays omitted
  omega

/-- January and February belong to the year after the one counted from March. -/
private theorem march_year {k : Int} (h₀ : 0 ≤ k) (h₁ : k ≤ 11) (y : Int) :
    y + (12 + 2 - ((k + 2) % 12 + 1)) / 12 = (12 * y + k + 2) / 12 := by
  rcases le_or_gt k 9 with hk | hk
  · omega
  · omega

/-- The closed formula of `ymd`, without overflow checks, is the calendar. -/
private theorem ofDay_eq_formula (j : Int) :
    (marchYear j - 4716 + (12 + 2 - (((5 * marchDay j + 2) / 153 + 2) % 12 + 1)) / 12,
      ((5 * marchDay j + 2) / 153 + 2) % 12 + 1, (5 * marchDay j + 2) % 153 / 5 + 1) = ofDay j := by
  have hb := marchDay_bounds j
  have hday := day_eq j
  have hstart := monthStart_monthIndex j
  unfold ofDay Tiling.offset
  simp only [months_start, months_index, Prod.mk.injEq]
  refine ⟨?_, ?_, ?_⟩
  · exact march_year (by omega) (by omega) _
  · -- the month, counted from March by the formula and from January by the calendar
    unfold monthIndex
    omega
  · -- the day: what the pattern of month lengths leaves over
    omega

/-- The formula is the calendar also for a few years before day number zero. -/
theorem ymd_overflow {j : Int} (h : -1363 ≤ j) :
    Post (ymd j) (· = .overflow) (· = ofDay j) := by
  unfold ymd
  simp only [add32, mul32, sub32]
  repeat refine Post.bind_eq (post_checked _) ?_
  -- every dividend is nonnegative, so truncating is rounding down
  simp (disch := omega) only [post_pure, Int.tdiv_eq_ediv_of_nonneg, Int.tmod_eq_emod_of_nonneg]
  simp only [quarterDays_eq, ← marchYear_def, ← marchDay_def]
  exact ofDay_eq_formula j

/-- In range, `YMD` is the date of the calendar. -/
theorem ymd_eq {j : Int} (h : 0 ≤ j) (h' : j ≤ maxJulian) : ymd j = .ok (ofDay j) := by
  unfold maxJulian at h'
  unfold ymd
  simp (disch := omega) only [add32, mul32, sub32, checked_of_bounds, ok_bind,
    Int.tdiv_eq_ediv_of_nonneg, Int.tmod_eq_emod_of_nonneg]
  simp only [quarterDays_eq, ← marchYear_def, ← marchDay_def]
  rw [ofDay_eq_formula]
  rfl

/-- From day number zero on, `YMD` is the date of the calendar or overflows. -/
theorem ymd_post {E : Fault → Prop} {j : Int} (h : 0 ≤ j) (hE : E .overflow ∨ j ≤ maxJulian) :
    Post (ymd j) E (· = ofDay j) := by
  rcases hE with hE | hE
  · exact (ymd_overflow (by omega)).imp (fun _ hf => hf ▸ hE) fun _ hv => hv
  · rw [ymd_eq h hE]
    exact post_ok.mpr rfl

/-! ## Dates to day numbers -/

/-- `IsLeap` is the rule of the calendar. -/
theorem isLeap_eq (y : Int) : isLeap y = decide (IsLeap y) := by
  rw [Bool.eq_iff_iff, decide_eq_true_iff]
  unfold isLeap IsLeap
  simp [tmod_eq_zero_iff]

/-- `DaysInMonth` is the length of the month. -/
theorem daysInMonth_eq {m : Int} (h₁ : 1 ≤ m) (h₂ : m ≤ 12) (y : Int) :
    daysInMonth y m = .ok (monthLength y m) := by
  unfold daysInMonth monthLength
  rw [if_neg (by omega), isLeap_eq]
  split
  · simp
  · split
    · rfl
    · rfl

/-- January and February count to the year before. -/
theorem month_tdiv {m : Int} (h₁ : 1 ≤ m) (h₂ : m ≤ 12) :
    (m - 14).tdiv 12 = -1 ∧ m ≤ 2 ∨ (m - 14).tdiv 12 = 0 ∧ 2 < m := by
  rw [tdiv_of_nonpos (by omega)]
  omega

/-- Two ways to sum the lengths of the months from March. -/
private theorem march_offset {k : Int} (h₀ : 0 ≤ k) (h₁ : k ≤ 11) :
    367 * (k + 1) / 12 = (153 * k + 2) / 5 + 30 := by
  obtain rfl | rfl | rfl | rfl | rfl | rfl | rfl | rfl | rfl | rfl | rfl | rfl : k = 0 ∨ k = 1 ∨
      k = 2 ∨ k = 3 ∨ k = 4 ∨ k = 5 ∨ k = 6 ∨ k = 7 ∨ k = 8 ∨ k = 9 ∨ k = 10 ∨ k = 11 := by omega
  all_goals rfl

/-- The closed formula of `convertToJulian`, without overflow checks, is the calendar. -/
theorem toDay_eq_formula {m a : Int} (h₁ : 1 ≤ m) (h₂ : m ≤ 12)
    (ha : a = -1 ∧ m ≤ 2 ∨ a = 0 ∧ 2 < m) (y d : Int) :
    1461 * (y + 4800 + a) / 4 + 367 * (m - 2 - 12 * a) / 12 - 3 * ((y + 4900 + a) / 100) / 4 + d -
      32075 = toDay y m d := by
  have hk : (monthOf y m - 2) % 12 = m - 3 - 12 * a := by unfold monthOf; omega
  have hY : (monthOf y m - 2) / 12 = y + a := by unfold monthOf; omega
  have hm := march_offset (k := m - 3 - 12 * a) (by omega) (by omega)
  rw [show m - 3 - 12 * a + 1 = m - 2 - 12 * a by omega] at hm
  rw [toDay, monthStart, hk, hY, hm, yearStart]
  -- the formula counts from the year -4800, which starts a cycle of leap years
  have hq : 1461 * (y + 4800 + a) / 4 = 365 * (y + a) + (y + a) / 4 + 1753200 := by omega
  have hc : (y + 4900 + a) / 100 = (y + a) / 100 + 49 := by omega
  have hcc : (y + a) / 400 = (y + a) / 100 / 4 := by omega
  rw [hq, hc, hcc]
  omega

/-- From the year -4799 on, `ConvertToJulian` is the day of the calendar or overflows. -/
private theorem convertToJulian_overflow {y m : Int} (h₁ : 1 ≤ m) (h₂ : m ≤ 12) (hy : -4799 ≤ y)
    (d : Int) :
    Post (convertToJulian y m d) (· = .overflow) (· = toDay y m d) := by
  have ha := month_tdiv h₁ h₂
  unfold convertToJulian
  simp only [add32, mul32, sub32]
  apply Post.bind_eq (post_checked _)
  -- only the two values of the truncating division matter from here on
  generalize (m - 14).tdiv 12 = a at ha ⊢
  repeat refine Post.bind_eq (post_checked _) ?_
  refine (post_checked _).weaken fun v hv => hv.trans ?_
  simp (disch := omega) only [Int.tdiv_eq_ediv_of_nonneg]
  exact toDay_eq_formula h₁ h₂ ha y d

/-- The years of the day numbers from zero on. -/
theorem year_ge {y m d : Int} (hv : Valid y m d) (h : 0 ≤ toDay y m d) : -4713 ≤ y := by
  have hlo : monthIndex 0 ≤ monthOf y m := monthIndex_toDay hv ▸ months.index_mono h
  have h₁ := hv.one_le_month
  have h₂ := hv.month_le
  rw [show monthIndex 0 = -56546 by rfl] at hlo
  unfold monthOf at hlo
  omega

/-- The last year in range. -/
theorem year_le {y m d : Int} (hv : Valid y m d) (h : toDay y m d ≤ maxJulian) : y ≤ 1465002 := by
  have hhi : monthOf y m ≤ monthIndex maxJulian := monthIndex_toDay hv ▸ months.index_mono h
  have h₁ := hv.one_le_month
  have h₂ := hv.month_le
  rw [show monthIndex maxJulian = 17580033 by rfl] at hhi
  unfold monthOf at hhi
  omega

/-- In range, `ConvertToJulian` is the day of the calendar. -/
theorem convertToJulian_eq {y m d : Int} (hv : Valid y m d) (h : 0 ≤ toDay y m d)
    (h' : toDay y m d ≤ maxJulian) : convertToJulian y m d = .ok (toDay y m d) := by
  have hy := year_ge hv h
  have hy' := year_le hv h'
  have h₁ := hv.one_le_month
  have h₂ := hv.month_le
  have h₃ := hv.one_le_day
  have h₄ := hv.day_le.trans (monthLength_le y m)
  have ha := month_tdiv h₁ h₂
  rw [← toDay_eq_formula h₁ h₂ ha]
  unfold convertToJulian
  simp only [add32, mul32, sub32]
  rw [checked_of_bounds (by omega) (by omega), ok_bind]
  -- nothing overflows, and every quotient is one of numbers from zero on
  generalize (m - 14).tdiv 12 = a at ha ⊢
  simp (disch := omega) only [checked_of_bounds, ok_bind, Int.tdiv_eq_ediv_of_nonneg]

/-- With arithmetic in range, `ConvertToJulian` is the day of the calendar. -/
theorem convertToJulian_post {E : Fault → Prop} {y m d : Int} (hv : Valid y m d) (hy : -4799 ≤ y)
    (hE : E .overflow ∨ 0 ≤ toDay y m d ∧ toDay y m d ≤ maxJulian) :
    Post (convertToJulian y m d) E (· = toDay y m d) := by
  rcases hE with hE | ⟨h, h'⟩
  · exact (convertToJulian_overflow hv.one_le_month hv.month_le hy d).imp
      (fun _ hf => hf ▸ hE) fun _ hv => hv
  · rw [convertToJulian_eq hv h h']
    exact post_ok.mpr rfl

/-- In the years before the formula is the calendar, it gives day numbers below zero. -/
private theorem convertToJulian_early {y m d : Int} (h₁ : 1 ≤ m) (h₂ : m ≤ 12) (h₃ : d ≤ 31)
    (hy : y < -4799) : Post (convertToJulian y m d) (· = .overflow) (· < 0) := by
  have ha := month_tdiv h₁ h₂
  unfold convertToJulian
  simp only [add32, mul32, sub32]
  apply Post.bind_eq (post_checked _)
  generalize (m - 14).tdiv 12 = a at ha ⊢
  repeat refine Post.bind_eq (post_checked _) ?_
  refine (post_checked _).weaken fun v hv => lt_of_eq_of_lt hv ?_
  rw [Int.tdiv_eq_ediv_of_nonneg (show 0 ≤ 367 * (m - 2 - 12 * a) by omega),
    tdiv_of_nonpos (show 1461 * (y + 4800 + a) ≤ 0 by omega)]
  -- the century term is negative from the year -4901 on
  rcases le_total 0 (y + 4900 + a) with hc | hc
  · rw [Int.tdiv_eq_ediv_of_nonneg hc, Int.tdiv_eq_ediv_of_nonneg (by omega)]
    omega
  · rw [tdiv_of_nonpos hc, tdiv_of_nonpos (by omega)]
    omega

/-- Before day number zero the truncating formula is no longer the calendar, but
    still gives a day number below zero. -/
theorem convertToJulian_neg {y m d : Int} (hv : Valid y m d) (h : toDay y m d < 0) :
    Post (convertToJulian y m d) (· = .overflow) (· < 0) := by
  have h₁ := hv.one_le_month
  have h₂ := hv.month_le
  have h₃ := hv.day_le.trans (monthLength_le y m)
  -- down to the year -4799 the formula still is the calendar
  rcases le_or_gt (-4799) y with hy | hy
  · exact (convertToJulian_overflow h₁ h₂ hy d).weaken fun _ hj => hj ▸ h
  · exact convertToJulian_early h₁ h₂ h₃ hy

/-- A day number from zero on is that of the calendar, also for a day that does not exist. -/
theorem convertToJulian_eq_ok {y m d v : Int} (h₁ : 1 ≤ m) (h₂ : m ≤ 12) (h₃ : d ≤ 31)
    (h : convertToJulian y m d = .ok v) (hv : 0 ≤ v) : v = toDay y m d := by
  rcases le_or_gt (-4799) y with hy | hy
  · have hpost := convertToJulian_overflow h₁ h₂ hy d
    rwa [h, post_ok] at hpost
  · have hpost := convertToJulian_early h₁ h₂ h₃ hy
    rw [h, post_ok] at hpost
    omega

/-- The constructor from components accepts every valid date. -/
theorem ofYmd_post {E : Fault → Prop} {y m d : Int} (hv : Valid y m d) (hy : -4799 ≤ y)
    (hE : E .overflow ∨ 0 ≤ toDay y m d ∧ toDay y m d ≤ maxJulian) :
    Post (ofYmd y m d) E (· = ⟨toDay y m d⟩) := by
  have hd := hv.one_le_day
  have hd' := hv.day_le
  unfold ofYmd
  rw [if_neg (by omega), daysInMonth_eq hv.one_le_month hv.month_le, ok_bind, if_neg (by omega)]
  exact Post.bind_eq (convertToJulian_post hv hy hE) rfl

/-- The date is the given one, or both are before day number zero, where dates are
    not what their components say. -/
def Agrees (date date' : Date) : Prop := date = date' ∨ date.julian < 0 ∧ date'.julian < 0

/-- From day number zero on, dates that agree are the same. -/
theorem Agrees.eq {date date' : Date} (h : date.Agrees date') (hnn : 0 ≤ date'.julian) :
    date = date' := by
  rcases h with h | ⟨-, hlt⟩
  · exact h
  · omega

/-- From day number zero on, lists of dates that agree are the same. -/
theorem eq_of_forall₂_agrees {xs ys : List Date} (h : List.Forall₂ Agrees xs ys)
    (hnn : ∀ date ∈ ys, 0 ≤ date.julian) : xs = ys := by
  induction h with
  | nil => rfl
  | cons hdate _ ih =>
    rw [List.forall_mem_cons] at hnn
    rw [hdate.eq hnn.1, ih hnn.2]

/-- The constructor accepts every valid date, also before day number zero. -/
theorem ofYmd_agrees {E : Fault → Prop} (hE : E .overflow) {y m d : Int} (hv : Valid y m d) :
    Post (ofYmd y m d) E (Agrees · ⟨toDay y m d⟩) := by
  rcases le_or_gt 0 (toDay y m d) with h | h
  · have hy := year_ge hv h
    exact (ofYmd_post hv (by omega) (Or.inl hE)).weaken fun _ => Or.inl
  · -- before day number zero the conversion may differ, but stays below zero too
    have hd := hv.one_le_day
    have hd' := hv.day_le
    unfold ofYmd
    rw [if_neg (by omega), daysInMonth_eq hv.one_le_month hv.month_le, ok_bind, if_neg (by omega)]
    exact ((convertToJulian_neg hv h).imp (fun _ hf => hf ▸ hE) fun _ hj => hj).bind
      fun _ hj => Or.inr ⟨hj, h⟩

/-! ## Tenor arithmetic -/

/-- The move of a day number that a tenor unit stands for. -/
def unitShift : Tenors → DateShift
  | .kDays => .days 1 (by decide)
  | .kWeeks => .days 7 (by decide)
  | .kMonths => .ofTiling months
  | .kYears => (DateShift.ofTiling months).scale 12 (by decide)

/-- The truncating division of `newYearMonth`, corrected by its branches, rounds down. -/
theorem newYearMonth_post {E : Fault → Prop} {y m n : Int} (hE : E .overflow ∨
      (1 ≤ m ∧ m ≤ 12) ∧ (-4713 ≤ y ∧ y ≤ 1465002) ∧ -36000000 ≤ n ∧ n ≤ 36000000) :
    Post (newYearMonth y m n) E (· = ((monthOf y m + n) / 12, (monthOf y m + n) % 12 + 1)) := by
  unfold newYearMonth monthOf
  simp only [add32, sub32]
  -- the division truncates, so its signs come in cases
  have hq := tdiv_tmod_cases (m + n) 12
  -- no sum leaves the range of `int` with a year and a count in theirs
  have hstep : ∀ x : Int, ((1 ≤ m ∧ m ≤ 12) ∧ (-4713 ≤ y ∧ y ≤ 1465002) ∧ -36000000 ≤ n ∧
      n ≤ 36000000 → InInt32 x) → Post (checked x) E (· = x) :=
    fun x hx => post_checked_of (hE.imp_right hx)
  apply Post.bind_eq (hstep _ fun hb => by unfold InInt32; omega)
  generalize (m + n).tdiv 12 = q at hq ⊢
  generalize (m + n).tmod 12 = r at hq ⊢
  apply Post.bind_eq (hstep _ fun hb => by unfold InInt32; omega)
  split
  · -- a positive count: a remainder of zero is December of the year before
    split
    · apply Post.bind_eq (hstep _ fun hb => by unfold InInt32; omega)
      apply Post.bind_eq (hstep _ fun hb => by unfold InInt32; omega)
      rw [post_pure, Prod.mk.injEq]
      omega
    · rw [post_pure, Prod.mk.injEq]
      omega
  · -- the same correction, written as two tests
    rcases le_or_gt r 0 with hr | hr
    · rw [if_pos (by omega)]
      apply Post.bind_eq (hstep _ fun hb => by unfold InInt32; omega)
      rw [if_pos hr]
      apply Post.bind_eq (hstep _ fun hb => by unfold InInt32; omega)
      rw [post_pure, Prod.mk.injEq]
      omega
    · -- a positive remainder is the month already
      rw [if_neg (by omega), pure_bind, if_neg (by omega), pure_bind, post_pure, Prod.mk.injEq]
      omega

/-- The clamp of `addMonths` and `addYears`. -/
theorem clamp_eq_min (d last : Int) : (if d > last then last else d) = min d last := by
  split
  · omega
  · omega

/-- A day of a month exists in the same month of another year, unless it is the leap day. -/
private theorem le_monthLength_of_not_february {y y' m d : Int} (hd : d ≤ monthLength y m)
    (h : ¬ (isLeap y' = false ∧ m = 2)) : d ≤ monthLength y' m := by
  rw [isLeap_eq] at h
  unfold monthLength at hd ⊢
  by_cases hm : m = 2
  · -- a leap year's February is the longest
    simp only [hm, and_true, decide_eq_false_iff_not, not_not] at h
    simp only [hm, h, if_true] at hd ⊢
    split at hd
    · omega
    · omega
  · rw [if_neg hm] at hd ⊢
    exact hd

/-- Clamping a day to the length of a month is what moving to that month does. -/
theorem toDay_clamp {m : Int} (h₁ : 1 ≤ m) (h₂ : m ≤ 12) (y d : Int) :
    toDay y m (min d (monthLength y m)) = months.place (monthOf y m) (d - 1) := by
  rw [toDay, Tiling.place, months_start, months_len_monthOf h₁ h₂]
  omega

/-- A day that is cut to the length of its month is one of the month. -/
theorem valid_clamp {y m d : Int} (h₁ : 1 ≤ m) (h₂ : m ≤ 12) (hd : 1 ≤ d) :
    Valid y m (min d (monthLength y m)) := by
  have hpos := le_monthLength y m
  exact ⟨h₁, h₂, by omega, by omega⟩

/-- The last month in range. -/
theorem monthIndex_le {j : Int} (h : j ≤ maxJulian) : monthIndex j ≤ 17580033 := by
  have hhi : monthIndex j ≤ monthIndex maxJulian := months.index_mono h
  rwa [show monthIndex maxJulian = 17580033 by rfl] at hhi

/-- The first month in range. -/
theorem le_monthIndex {j : Int} (h : minJulian ≤ j) : -17695060 ≤ monthIndex j := by
  have hlo : monthIndex minJulian ≤ monthIndex j := months.index_mono h
  rwa [show monthIndex minJulian = -17695060 by rfl] at hlo

/-- The months of the day numbers from zero, and of those up to `maxJulian`. -/
theorem monthIndex_bounds {j : Int} (h : 0 ≤ j) :
    -56546 ≤ monthIndex j ∧ (j ≤ maxJulian → monthIndex j ≤ 17580033) := by
  have hlo : monthIndex 0 ≤ monthIndex j := months.index_mono h
  rw [show monthIndex 0 = -56546 by rfl] at hlo
  exact ⟨hlo, monthIndex_le⟩

/-- Shifting by months adds to the index of the month. -/
theorem monthIndex_shift (n j : Int) : monthIndex (months.shift n j) = monthIndex j + n :=
  months.index_shift n j

section Moves

variable {E : Fault → Prop} {j n : Int} {R : Date → Prop}

/-- `addMonths` builds the date that moving by months leads to, with the day
    clamped to the new month. -/
theorem addMonths_moves (h : 0 ≤ j) (hE : E .overflow ∨
      j ≤ maxJulian ∧ minJulian ≤ months.shift n j ∧ months.shift n j ≤ maxJulian)
    (hR : ∀ y m d, Valid y m d → toDay y m d = months.shift n j → Post (ofYmd y m d) E R) :
    Post (addMonths ⟨j⟩ n) E R := by
  obtain ⟨y, m, d, hof, hv, hi, rfl, -⟩ := ofDay_spec j
  have hy := ymd_post h (hE.imp_right And.left)
  rw [hof] at hy
  obtain ⟨hlo, hhi⟩ := monthIndex_bounds h
  have h₁ := hv.one_le_month
  have h₂ := hv.month_le
  unfold addMonths
  refine Post.bind_eq hy (Post.bind_eq (newYearMonth_post (hE.imp_right fun hb => ?_)) ?_)
  · -- between two months in range, the count is in range
    have hlo' := le_monthIndex hb.2.1
    have hhi' := monthIndex_le hb.2.2
    rw [monthIndex_shift] at hlo' hhi'
    have := hhi hb.1
    unfold monthOf at hi
    omega
  · -- the new year and month name the month reached
    have hidx : monthOf ((monthOf y m + n) / 12) ((monthOf y m + n) % 12 + 1) =
        monthIndex j + n := by
      unfold monthOf at hi ⊢
      omega
    generalize (monthOf y m + n) / 12 = y' at hidx ⊢
    obtain ⟨hm₁, hm₂⟩ : 1 ≤ (monthOf y m + n) % 12 + 1 ∧ (monthOf y m + n) % 12 + 1 ≤ 12 := by omega
    generalize (monthOf y m + n) % 12 + 1 = m' at hidx hm₁ hm₂ ⊢
    -- the clamped day of that month is where the shift leads
    have hday := toDay_clamp hm₁ hm₂ y' (months.offset j + 1)
    rw [hidx, Int.add_sub_cancel, ← months_index, ← months.shift_eq_place] at hday
    show Post (daysInMonth y' m' >>= _) _ _
    rw [daysInMonth_eq hm₁ hm₂, ok_bind, clamp_eq_min]
    exact hR _ _ _ (valid_clamp hm₁ hm₂ hv.one_le_day) hday

/-- `addYears` builds the date that moving by twelve months at a time leads to: only
    February can lose a day. -/
theorem addYears_moves (h : 0 ≤ j) (hE : E .overflow ∨
      j ≤ maxJulian ∧ minJulian ≤ months.shift (12 * n) j ∧ months.shift (12 * n) j ≤ maxJulian)
    (hR : ∀ y m d, Valid y m d → toDay y m d = months.shift (12 * n) j → Post (ofYmd y m d) E R) :
    Post (addYears ⟨j⟩ n) E R := by
  obtain ⟨y, m, d, hof, hv, hi, rfl, -⟩ := ofDay_spec j
  have hy := ymd_post h (hE.imp_right And.left)
  rw [hof] at hy
  have h₁ := hv.one_le_month
  have h₂ := hv.month_le
  have hidx : monthOf (y + n) m = monthIndex j + 12 * n := by
    unfold monthOf at hi ⊢
    omega
  have hday := toDay_clamp h₁ h₂ (y + n) (months.offset j + 1)
  rw [hidx, Int.add_sub_cancel, ← months_index, ← months.shift_eq_place] at hday
  have hfin : Post (ofYmd (y + n) m (min (months.offset j + 1) (monthLength (y + n) m))) E R :=
    hR _ _ _ (valid_clamp h₁ h₂ hv.one_le_day) hday
  unfold addYears
  refine Post.bind_eq hy (Post.bind_eq (post_checked_of (hE.imp_right fun hb => ?_)) ?_)
  · have hlo' := le_monthIndex hb.2.1
    have hhi' := monthIndex_le hb.2.2
    rw [monthIndex_shift] at hlo' hhi'
    unfold InInt32 monthOf at *
    omega
  split
  · -- February of a common year: the source clamps the day
    rw [daysInMonth_eq h₁ h₂, ok_bind, pure_bind, clamp_eq_min]
    exact hfin
  · next hfeb =>
    -- otherwise the day exists as it is
    have hle := le_monthLength_of_not_february hv.day_le hfeb
    rw [pure_bind, ← min_eq_left hle]
    exact hfin

/-- Adding days or weeks is plain addition, below day number zero too. -/
theorem addTenor_of_days {u : Tenors} (hu : u = .kDays ∨ u = .kWeeks) (hE : E .overflow ∨
      0 ≤ j ∧ j ≤ maxJulian ∧ minJulian ≤ (unitShift u).shift n j ∧
        (unitShift u).shift n j ≤ maxJulian) :
    Post (addTenor ⟨j⟩ ⟨n, u⟩) E (· = ⟨(unitShift u).shift n j⟩) := by
  unfold minJulian maxJulian at hE
  rcases hu with rfl | rfl
  · simp only [unitShift, DateShift.days, one_mul] at hE ⊢
    refine Post.bind_eq (post_checked_of (hE.imp_right fun hb => ?_)) rfl
    show InInt32 (j + n)
    unfold InInt32
    omega
  · simp only [unitShift, DateShift.days] at hE ⊢
    -- the days of the weeks are counted first
    refine Post.bind_eq (post_checked_of (hE.imp_right fun hb => ?_))
      (Post.bind_eq (post_checked_of (hE.imp_right fun hb => ?_)) rfl)
    · show InInt32 (7 * n)
      unfold InInt32
      omega
    · show InInt32 (j + 7 * n)
      unfold InInt32
      omega

/-- Adding a tenor builds the date that its unit moves to. -/
theorem addTenor_moves {u : Tenors} (h : 0 ≤ j) (hE : E .overflow ∨
      j ≤ maxJulian ∧ minJulian ≤ (unitShift u).shift n j ∧ (unitShift u).shift n j ≤ maxJulian)
    (hdays : u = .kDays ∨ u = .kWeeks → R ⟨(unitShift u).shift n j⟩)
    (hR : u = .kMonths ∨ u = .kYears → ∀ y m d, Valid y m d →
      toDay y m d = (unitShift u).shift n j → Post (ofYmd y m d) E R) :
    Post (addTenor ⟨j⟩ ⟨n, u⟩) E R := by
  -- days and weeks are sums, months and years are put together from fields
  have hplain : u = .kDays ∨ u = .kWeeks → Post (addTenor ⟨j⟩ ⟨n, u⟩) E R := fun hu =>
    (addTenor_of_days hu (hE.imp_right fun hb => ⟨h, hb⟩)).weaken fun _ hv => hv ▸ hdays hu
  cases u with
  | kDays => exact hplain (Or.inl rfl)
  | kWeeks => exact hplain (Or.inr rfl)
  | kMonths => exact addMonths_moves h hE (hR (Or.inl rfl))
  | kYears => exact addYears_moves h hE (hR (Or.inr rfl))

/-- Adding a tenor moves by its unit. -/
theorem addTenor_post {u : Tenors} (h : 0 ≤ j) (h' : 0 ≤ (unitShift u).shift n j)
    (hE : E .overflow ∨ j ≤ maxJulian ∧ (unitShift u).shift n j ≤ maxJulian) :
    Post (addTenor ⟨j⟩ ⟨n, u⟩) E (· = ⟨(unitShift u).shift n j⟩) := by
  refine addTenor_moves h (hE.imp_right fun hb => ⟨hb.1, le_trans (by decide) h', hb.2⟩)
    (fun _ => rfl) fun _ y m d hv hday => ?_
  have hy := year_ge hv (hday ▸ h')
  exact hday ▸ ofYmd_post hv (by omega) (hE.imp_right fun hb => ⟨hday ▸ h', hday ▸ hb.2⟩)

/-- The same where the move may lead before day number zero. -/
theorem addTenor_agrees {u : Tenors} (hE : E .overflow) (h : 0 ≤ j) :
    Post (addTenor ⟨j⟩ ⟨n, u⟩) E (Agrees · ⟨(unitShift u).shift n j⟩) :=
  addTenor_moves h (Or.inl hE) (fun _ => Or.inl rfl) fun _ _ _ _ hv hday =>
    hday ▸ ofYmd_agrees hE hv

/-- Adding a tenor between day numbers up to `maxJulian` does not fault. -/
theorem addTenor_eq {u : Tenors} (h : 0 ≤ j) (h₁ : j ≤ maxJulian)
    (h' : 0 ≤ (unitShift u).shift n j) (h₁' : (unitShift u).shift n j ≤ maxJulian) :
    addTenor ⟨j⟩ ⟨n, u⟩ = .ok ⟨(unitShift u).shift n j⟩ :=
  (addTenor_post h h' (Or.inr ⟨h₁, h₁'⟩)).eq_ok

end Moves

/-! ## The two conversions as inverse functions -/

/-- A date that exists, by the source's own table of month lengths. -/
def IsGregorian (y m d : Int) : Prop :=
  1 ≤ m ∧ m ≤ 12 ∧ 1 ≤ d ∧ ∃ last, daysInMonth y m = .ok last ∧ d ≤ last

/-- The dates that exist are the valid ones. -/
theorem isGregorian_iff {y m d : Int} : IsGregorian y m d ↔ Valid y m d := by
  constructor
  · rintro ⟨h₁, h₂, h₃, last, hlast, h₄⟩
    rw [daysInMonth_eq h₁ h₂, Except.ok.injEq] at hlast
    exact ⟨h₁, h₂, h₃, hlast ▸ h₄⟩
  · rintro ⟨h₁, h₂, h₃, h₄⟩
    exact ⟨h₁, h₂, h₃, _, daysInMonth_eq h₁ h₂ y, h₄⟩

/-- The lexicographic order of year, month and day. -/
def Earlier (a b : YearMonthDay) : Prop :=
  a.1 < b.1 ∨ a.1 = b.1 ∧ (a.2.1 < b.2.1 ∨ a.2.1 = b.2.1 ∧ a.2.2 < b.2.2)

/-- A date that exists, from the first day number to the last that converts back. -/
structure InRange (y m d : Int) : Prop where
  gregorian : IsGregorian y m d
  first_le : ¬ Earlier (y, m, d) (-4713, 11, 24)
  le_last : ¬ Earlier (1465002, 10, 17) (y, m, d)

/-- Days are in the order of their dates. -/
theorem toDay_lt_iff_earlier {y m d y' m' d' : Int} (hv : Valid y m d) (hv' : Valid y' m' d') :
    toDay y m d < toDay y' m' d' ↔ Earlier (y, m, d) (y', m', d') := toDay_lt_toDay hv hv'

/-- The dates in range have day numbers in range. -/
theorem InRange.day_bounds {y m d : Int} (h : InRange y m d) :
    0 ≤ toDay y m d ∧ toDay y m d ≤ maxJulian := by
  have hv := isGregorian_iff.mp h.gregorian
  have hlo := mt (toDay_lt_iff_earlier hv (by decide)).mp h.first_le
  have hhi := mt (toDay_lt_iff_earlier (by decide) hv).mp h.le_last
  rw [show toDay (-4713) 11 24 = 0 by rfl] at hlo
  rw [show toDay 1465002 10 17 = maxJulian by rfl] at hhi
  omega

/-- `ymd` and `convertToJulian` are inverse to each other between the first day
    number and the last one that converts without overflow, and day numbers are
    ordered as the dates they stand for. -/
theorem ymd_convertToJulian_inverse :
    (∀ j : Int, 0 ≤ j → j ≤ 536802342 → ∃ y m d, ymd j = .ok (y, m, d) ∧ IsGregorian y m d ∧
      convertToJulian y m d = .ok j) ∧
    ymd 536802342 = .ok (1465002, 10, 17) ∧
    (∀ y m d, InRange y m d → ∃ j, convertToJulian y m d = .ok j ∧ ymd j = .ok (y, m, d)) ∧
    (∀ y m d y' m' d', InRange y m d → InRange y' m' d' → ∃ j j',
      convertToJulian y m d = .ok j ∧ convertToJulian y' m' d' = .ok j' ∧
      (j < j' ↔ Earlier (y, m, d) (y', m', d')) ∧
      ((⟨j⟩ : Date) < ⟨j'⟩ ↔ Earlier (y, m, d) (y', m', d'))) := by
  refine ⟨?_, rfl, ?_, ?_⟩
  · -- from a day number to its date and back
    intro j h h'
    obtain ⟨y, m, d, hof, hv, -, -, hday⟩ := ofDay_spec j
    refine ⟨y, m, d, hof ▸ ymd_eq h h', isGregorian_iff.mpr hv, ?_⟩
    rw [convertToJulian_eq hv (hday ▸ h) (hday ▸ h'), hday]
  · -- from a date to its day number and back
    intro y m d h
    have hv := isGregorian_iff.mp h.gregorian
    obtain ⟨hlo, hhi⟩ := h.day_bounds
    exact ⟨_, convertToJulian_eq hv hlo hhi, by rw [ymd_eq hlo hhi, ofDay_toDay hv]⟩
  · -- the order
    intro y m d y' m' d' h h'
    have hv := isGregorian_iff.mp h.gregorian
    have hv' := isGregorian_iff.mp h'.gregorian
    have hiff := toDay_lt_iff_earlier hv hv'
    exact ⟨_, _, convertToJulian_eq hv h.day_bounds.1 h.day_bounds.2,
      convertToJulian_eq hv' h'.day_bounds.1 h'.day_bounds.2, hiff, hiff⟩

end Date

end OA.Time
