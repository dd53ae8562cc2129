import OdinAnalytics.Spec.DateCorrect

/-!
# The conversions on any input

`Spec.DateCorrect` is about dates from day number zero on. This file says what the
two conversions and the constructors do with every other `int`: where they
overflow, what they make of the days before the calendar begins, and which
components the constructor lets through.

## Key results

- `ymd_ok_iff`: the day numbers whose conversion does not overflow
- `ymd_eq_ok`: what the components of a day number are
- `checksDate_iff`: when the constructor rejects what is not a date
-/

namespace OA.Time

open Machine Gregorian

namespace Date

/-! ## Day numbers to dates -/

/-- The fields that `ymd` computes from the quarter days are small, whatever these are. -/
theorem ymd_fields (e : Int) :
    (-365 ≤ (e.tmod 1461).tdiv 4 ∧ (e.tmod 1461).tdiv 4 ≤ 365) ∧
    ∀ g : Int, -365 ≤ g → g ≤ 365 →
      (-11 ≤ (5 * g + 2).tdiv 153 ∧ (5 * g + 2).tdiv 153 ≤ 11) ∧
      -30 ≤ ((5 * g + 2).tmod 153).tdiv 5 ∧ ((5 * g + 2).tmod 153).tdiv 5 ≤ 30 := by
  constructor
  · -- the day of the year, with the sign of `e`
    have hr := tdiv_tmod_cases e 1461
    have hg := tdiv_tmod_cases (e.tmod 1461) 4
    omega
  · intro g h h'
    -- its month and day, with the same sign
    have hm := tdiv_tmod_cases (5 * g + 2) 153
    have hd := tdiv_tmod_cases ((5 * g + 2).tmod 153) 5
    constructor
    · omega
    · omega

/-- The conversion overflows outside of `minJulian` to `maxJulian`, and nowhere else. -/
theorem ymd_ok_iff {j : Int} : (∃ c, ymd j = .ok c) ↔ minJulian ≤ j ∧ j ≤ maxJulian := by
  unfold ymd
  simp only [add32, mul32, sub32, bind_eq_ok, checked_eq_ok, and_assoc, exists_and_left,
    exists_eq_left, pure, Except.pure, Except.ok.injEq, exists_eq', and_true]
  have ha := tdiv_tmod_cases (4 * j + 274277) 146097
  generalize (4 * j + 274277).tdiv 146097 = a at ha ⊢
  have hc := tdiv_tmod_cases (a * 3) 4
  generalize (a * 3).tdiv 4 = c at hc ⊢
  -- the days since the year -4716 are what overflows
  generalize hf : j + 1401 + c + -38 = f
  have hq := tdiv_tmod_cases (4 * f + 3) 1461
  obtain ⟨⟨hg, hg'⟩, hfields⟩ := ymd_fields (4 * f + 3)
  generalize ((4 * f + 3).tmod 1461).tdiv 4 = g at hg hg' ⊢
  obtain ⟨hm, hd⟩ := hfields g hg hg'
  generalize ((5 * g + 2).tmod 153).tdiv 5 = d at hd ⊢
  generalize (5 * g + 2).tdiv 153 = k at hm ⊢
  have hk := tdiv_tmod_cases (k + 2) 12
  have hy := tdiv_tmod_cases (12 + 2 - ((k + 2).tmod 12 + 1)) 12
  have hyear : 0 ≤ (12 + 2 - ((k + 2).tmod 12 + 1)).tdiv 12 ∧
      (12 + 2 - ((k + 2).tmod 12 + 1)).tdiv 12 ≤ 2 := by omega
  generalize (12 + 2 - ((k + 2).tmod 12 + 1)).tdiv 12 = z at hyear ⊢
  clear hy hfields
  unfold minJulian maxJulian
  constructor
  · rintro ⟨h₁, h₂, -, -, -, -, h₃, -⟩
    clear hq hk hm hd hg hg' hyear
    unfold InInt32 at h₁ h₂ h₃
    omega
  · rintro ⟨h, h'⟩
    have hmonth : -11 ≤ (k + 2).tmod 12 ∧ (k + 2).tmod 12 ≤ 11 := by omega
    generalize (k + 2).tmod 12 = r at hmonth ⊢
    have hc₀ : -11022 ≤ c ∧ c ≤ 11025 := by omega
    have ha₀ : -14697 ≤ a ∧ a ≤ 14700 := by omega
    have hf₀ : -536870912 ≤ f ∧ f ≤ 536814730 := by omega
    have hq₀ : -1469872 ≤ (4 * f + 3).tdiv 1461 ∧ (4 * f + 3).tdiv 1461 ≤ 1469872 := by omega
    generalize (4 * f + 3).tdiv 1461 = q at hq₀ ⊢
    clear ha hc hq hk
    unfold InInt32
    omega

/-- Before the formula is the calendar, the month it gives is early and the day no
    later than the first. -/
private theorem ymd_early {j y m d : Int} (hj : j < -1363) (h : ymd j = .ok (y, m, d)) :
    monthOf y m ≤ -56579 ∧ d ≤ 1 ∧ -11 < m ∧ m ≤ 12 := by
  unfold ymd at h
  simp only [add32, mul32, sub32, bind_eq_ok, checked_eq_ok, and_assoc, exists_and_left,
    exists_eq_left, pure, Except.pure, Except.ok.injEq, Prod.mk.injEq] at h
  obtain ⟨-, -, -, -, -, -, -, -, -, -, -, -, -, -, -, -, -, hy, hm, hd⟩ := h
  have ha := tdiv_tmod_cases (4 * j + 274277) 146097
  generalize (4 * j + 274277).tdiv 146097 = a at ha hy hm hd
  have ha₀ : a ≤ 1 := by omega
  have hc := tdiv_tmod_cases (a * 3) 4
  generalize (a * 3).tdiv 4 = c at hc hy hm hd
  have hc₀ : c ≤ 0 := by omega
  -- no days have passed since the first of March of the year -4716
  have hf : j + 1401 + c + -38 < 0 := by omega
  generalize j + 1401 + c + -38 = f at hf hy hm hd
  clear ha hc ha₀ hc₀
  have hq := tdiv_tmod_cases (4 * f + 3) 1461
  have hq₀ : (4 * f + 3).tdiv 1461 ≤ 0 := by omega
  have hg := tdiv_tmod_cases ((4 * f + 3).tmod 1461) 4
  have hg₀ : -365 ≤ ((4 * f + 3).tmod 1461).tdiv 4 ∧ ((4 * f + 3).tmod 1461).tdiv 4 ≤ 0 := by
    omega
  generalize ((4 * f + 3).tmod 1461).tdiv 4 = g at hg₀ hm hd hy
  clear hq hg
  have hk := tdiv_tmod_cases (5 * g + 2) 153
  have hlo := Int.lt_tmod_of_pos ((5 * g + 2).tdiv 153 + 2) (show (0 : Int) < 12 by decide)
  have hhi := Int.tmod_lt_of_pos ((5 * g + 2).tdiv 153 + 2) (show (0 : Int) < 12 by decide)
  refine ⟨?_, ?_, by omega, by omega⟩
  · have hk₀ : -11 ≤ (5 * g + 2).tdiv 153 ∧ (5 * g + 2).tdiv 153 ≤ 0 := by omega
    have hmm := tdiv_tmod_cases ((5 * g + 2).tdiv 153 + 2) 12
    generalize (5 * g + 2).tdiv 153 = k at hk₀ hm hy hmm hlo hhi
    clear hk hg₀ hd hlo hhi
    have hyy := tdiv_tmod_cases (12 + 2 - ((k + 2).tmod 12 + 1)) 12
    unfold monthOf
    omega
  · have hdd := tdiv_tmod_cases ((5 * g + 2).tmod 153) 5
    clear hm hy hq₀ hlo hhi
    omega

/-- What the components of a day number are: the calendar's, or too early to be a date. -/
theorem ymd_eq_ok {j y m d : Int} (h : ymd j = .ok (y, m, d)) :
    -1363 ≤ j ∧ (y, m, d) = ofDay j ∨
      j < -1363 ∧ monthOf y m ≤ -56579 ∧ d ≤ 1 ∧ -11 < m ∧ m ≤ 12 := by
  rcases le_or_gt (-1363) j with hj | hj
  · have hpost := ymd_overflow hj
    rw [h, post_ok] at hpost
    exact Or.inl ⟨hj, hpost⟩
  · exact Or.inr ⟨hj, ymd_early hj h⟩

/-- Before day number zero, the conversion gives an early year. -/
theorem ymd_neg {j : Int} (h : j < 0) : Post (ymd j) (fun _ => True) fun (y, m, d) =>
    y ≤ -4711 ∧ m ≤ 12 ∧ d ≤ 31 := by
  rcases hymd : ymd j with f | ⟨y, m, d⟩
  · trivial
  · show y ≤ -4711 ∧ m ≤ 12 ∧ d ≤ 31
    -- the formula still gives the date, or its year lies further back
    obtain ⟨-, heq⟩ | ⟨-, hi, hd, hm, hm'⟩ := ymd_eq_ok hymd
    · obtain ⟨hv, hi, -⟩ := of_eq_ofDay heq
      have hle : monthIndex j ≤ monthIndex 0 := months.index_mono h.le
      rw [← hi, show monthIndex 0 = -56546 by rfl] at hle
      have hm := hv.one_le_month
      have hd := hv.day_le.trans (monthLength_le y m)
      unfold monthOf at hle
      exact ⟨by omega, hv.month_le, hd⟩
    · unfold monthOf at hi
      omega

/-! ## The constructor from components -/

/-- Only the months from 1 to 12 have a number of days. -/
theorem daysInMonth_throws {m : Int} (h : ¬ (1 ≤ m ∧ m ≤ 12)) (y : Int) :
    ∃ e, daysInMonth y m = .error (.throws e) := by
  unfold daysInMonth
  rw [if_pos (by omega)]
  exact ⟨_, rfl⟩

/-- `ConvertToJulian` overflows at most. -/
theorem convertToJulian_post_any (y m d : Int) :
    Post (convertToJulian y m d) (· = .overflow) fun _ => True := by
  have hchecked : ∀ x, Post (checked x) (· = .overflow) fun _ => True := post_checked_any rfl
  unfold convertToJulian
  simp only [add32, mul32, sub32]
  repeat refine (hchecked _).bind fun _ _ => ?_
  exact hchecked _

/-- What the constructor asks of its arguments. The sign of the day is not asked for. -/
theorem ofYmd_eq {y m d : Int} (hm : 1 ≤ m ∧ m ≤ 12) (hd : d ≠ 0) (hd' : d ≤ monthLength y m) :
    ofYmd y m d = (do return ⟨← convertToJulian y m d⟩) := by
  unfold ofYmd
  rw [if_neg hd, daysInMonth_eq hm.1 hm.2, ok_bind, if_neg (not_lt.mpr hd')]

/-- The constructor throws on months, days zero and days past the month that are not there. -/
theorem ofYmd_throws {y m d : Int}
    (h : ¬ (1 ≤ m ∧ m ≤ 12) ∨ d = 0 ∨ monthLength y m < d) :
    ∃ e, ofYmd y m d = .error (.throws e) := by
  unfold ofYmd
  split
  · exact ⟨_, rfl⟩
  · next hd =>
    -- the day is past the end of its month, or there is no such month
    by_cases hm : 1 ≤ m ∧ m ≤ 12
    · rw [daysInMonth_eq hm.1 hm.2, ok_bind, if_pos (by tauto)]
      exact ⟨_, rfl⟩
    · obtain ⟨e, he⟩ := daysInMonth_throws hm y
      rw [he]
      exact ⟨e, rfl⟩

/-- What the constructor has checked when it returns a date. -/
theorem ofYmd_eq_ok {y m d : Int} {date : Date} (h : ofYmd y m d = .ok date) :
    (1 ≤ m ∧ m ≤ 12) ∧ d ≤ monthLength y m ∧ convertToJulian y m d = .ok date.julian := by
  by_cases hthrows : ¬ (1 ≤ m ∧ m ≤ 12) ∨ d = 0 ∨ monthLength y m < d
  · obtain ⟨e, he⟩ := ofYmd_throws hthrows
    exact nomatch he.symm.trans h
  · obtain ⟨hm, hd, hd'⟩ : (1 ≤ m ∧ m ≤ 12) ∧ d ≠ 0 ∧ d ≤ monthLength y m := by
      simpa using hthrows
    rw [ofYmd_eq hm hd hd'] at h
    obtain ⟨j, hj, h⟩ := bind_eq_ok.mp h
    cases h
    exact ⟨hm, hd', hj⟩

/-- The constructor rejects exactly what is not a date, and the components of what it
    accepts are its arguments. -/
def ChecksDate (y m d : Int) : Prop :=
  ((∃ e, ofYmd y m d = .error (.throws e)) ↔ ¬ IsGregorian y m d) ∧
  ((¬ ∃ e, ofYmd y m d = .error (.throws e)) →
    ∃ date, ofYmd y m d = .ok date ∧ date.gregorian = .ok (y, m, d))

/-- A date of these years is constructed, and its components are read back. -/
theorem ofYmd_gregorian {y m d : Int} (hy : -4712 ≤ y) (hy' : y ≤ 1465000) (hv : Valid y m d) :
    ofYmd y m d = .ok ⟨toDay y m d⟩ ∧ gregorian ⟨toDay y m d⟩ = .ok (y, m, d) := by
  -- the years lie well within the range of the day numbers
  have hrange : InRange y m d := by
    refine ⟨isGregorian_iff.mpr hv, ?_, ?_⟩
    · unfold Earlier
      simp only
      omega
    · unfold Earlier
      simp only
      omega
  obtain ⟨h, h'⟩ := hrange.day_bounds
  constructor
  · have hpos := hv.one_le_day
    rw [ofYmd_eq ⟨hv.one_le_month, hv.month_le⟩ (by omega) hv.day_le, convertToJulian_eq hv h h']
    rfl
  · rw [gregorian, ymd_eq h h', ofDay_toDay hv]

/-- The constructor does what it promises unless the month exists and the day is
    negative: that one is not rejected. -/
theorem checksDate_iff {y m d : Int} (hy : -4712 ≤ y) (hy' : y ≤ 1465000) :
    ChecksDate y m d ↔ 0 ≤ d ∨ ¬ (1 ≤ m ∧ m ≤ 12) := by
  constructor
  · rintro ⟨hthrows, -⟩
    by_contra hcon
    obtain ⟨hd, hm⟩ : d < 0 ∧ 1 ≤ m ∧ m ≤ 12 := by omega
    -- no check stops a negative day, so at most the arithmetic can fail
    obtain ⟨e, he⟩ := hthrows.mpr fun h => by
      have := h.2.2.1
      omega
    have hle := le_monthLength y m
    rw [ofYmd_eq hm (by omega) (by omega)] at he
    rcases bind_eq_error.mp he with h | ⟨j, -, h⟩
    · have hpost := convertToJulian_post_any y m d
      rw [h, post_error] at hpost
      cases hpost
    · cases h
  · intro h
    by_cases hv : Valid y m d
    · obtain ⟨hof, hgreg⟩ := ofYmd_gregorian hy hy' hv
      have hno : ¬ ∃ e, ofYmd y m d = .error (.throws e) := by
        rintro ⟨e, he⟩
        exact nomatch he.symm.trans hof
      exact ⟨iff_of_false hno (not_not.mpr (isGregorian_iff.mpr hv)), fun _ => ⟨_, hof, hgreg⟩⟩
    · -- what is not a date is stopped by one of the checks
      have hthrows : ∃ e, ofYmd y m d = .error (.throws e) := by
        apply ofYmd_throws
        by_contra hcon
        obtain ⟨hm, hd, hd'⟩ : (1 ≤ m ∧ m ≤ 12) ∧ d ≠ 0 ∧ d ≤ monthLength y m := by
          simpa using hcon
        exact hv ⟨hm.1, hm.2, by omega, hd'⟩
      exact ⟨iff_of_true hthrows (mt isGregorian_iff.mp hv), fun hno => absurd hthrows hno⟩

/-- A leap day is constructed. -/
theorem checksDate_iff_leapDay :
    ChecksDate 2024 2 29 ↔ 0 ≤ (29 : Int) ∨ ¬ (1 ≤ (2 : Int) ∧ (2 : Int) ≤ 12) :=
  checksDate_iff (by decide) (by decide)

/-- The fifth day before the first of January is taken for the 26th of December. -/
theorem not_checksDate_negative :
    ¬ ∀ y m d : Int, -4712 ≤ y → y ≤ 1465000 → ChecksDate y m d := by
  intro h
  obtain ⟨hthrows, -⟩ := h 2024 1 (-5) (by decide) (by decide)
  obtain ⟨e, he⟩ := hthrows.mpr fun h => absurd h.2.2.1 (by decide)
  have hof : ofYmd 2024 1 (-5) = .ok ⟨2460305⟩ := by decide
  exact nomatch he.symm.trans hof

end Date

end OA.Time
