import OdinAnalytics.Spec.DateTextCorrect
import OdinAnalytics.Spec.TenorArith

/-!
# Overflow in tenor arithmetic

Nothing bounds the count of a tenor, so adding one may lead out of the day numbers
that `int` arithmetic can convert. Going back, it may also lead to years where the
rounding of `convertToJulian` toward zero is no longer that of the calendar.

## Key results

- `convertToJulian_eq_toDay_iff`: the years in which the rounding does no harm
- `addsRight_iff`: when adding a tenor to a date given as text is right
-/

namespace OA.Time

open Machine Gregorian

namespace Date

/-! ## Rounding -/

/-- The years, counted from March, in which rounding toward zero does no harm. Before
    the year -4900 the quotient of the centuries is rounded up as well as that of the
    years, and the two may cancel. -/
def RoundsRight (y : Int) : Prop :=
  -4800 ≤ y ∨ -4900 ≤ y ∧ y % 4 = 0 ∨ y < -4900 ∧ 200 < y % 400 ∧ (y % 4 ≠ 0 ∨ y % 400 = 300)

/-- Before the year -4800, the quotient of the years is one too high but in leap years. -/
private theorem years_tdiv {y : Int} (h : y < -4800) :
    (1461 * (y + 4800)).tdiv 4 = 1461 * (y + 4800) / 4 + if y % 4 = 0 then 0 else 1 := by
  rw [Int.tdiv_eq_ediv, Int.sign_eq_one_of_pos (by decide)]
  congr 1
  exact if_congr (by omega) rfl rfl

/-- Before the year -4900, so is that of the centuries but at the turn of one. -/
private theorem centuries_tdiv {y : Int} (h : y < -4900) :
    (y + 4900).tdiv 100 = y / 100 + 49 + if y % 100 = 0 then 0 else 1 := by
  rw [Int.tdiv_eq_ediv, Int.sign_eq_one_of_pos (by decide)]
  have hiff : 0 ≤ y + 4900 ∨ 100 ∣ y + 4900 ↔ y % 100 = 0 := by omega
  rw [if_congr hiff rfl rfl]
  omega

/-- The quotients of `convertToJulian` that depend on the year, rounded either way. -/
private theorem roundsRight_iff (y : Int) :
    (1461 * (y + 4800)).tdiv 4 - (3 * (y + 4900).tdiv 100).tdiv 4 =
      1461 * (y + 4800) / 4 - 3 * ((y + 4900) / 100) / 4 ↔ RoundsRight y := by
  unfold RoundsRight
  rcases le_or_gt (-4800) y with hy | hy
  · rw [Int.tdiv_eq_ediv_of_nonneg (show 0 ≤ 1461 * (y + 4800) by omega),
      Int.tdiv_eq_ediv_of_nonneg (show 0 ≤ y + 4900 by omega),
      Int.tdiv_eq_ediv_of_nonneg (by omega)]
    exact iff_of_true rfl (Or.inl hy)
  rw [years_tdiv hy]
  rcases le_or_gt (-4900) y with hy' | hy'
  · rw [Int.tdiv_eq_ediv_of_nonneg (show 0 ≤ y + 4900 by omega),
      Int.tdiv_eq_ediv_of_nonneg (by omega)]
    split
    · omega
    · omega
  · rw [centuries_tdiv hy', show (y + 4900) / 100 = y / 100 + 49 by omega]
    have hc := tdiv_tmod_cases (3 * (y / 100 + 49 + if y % 100 = 0 then 0 else 1)) 4
    -- by the century of the 400-year cycle, and whether the year ends it
    obtain ⟨k, c, e, rfl, hc₀, hc₁, he₀, he₁⟩ : ∃ k c e : Int,
        y = 400 * k + 100 * c + e ∧ 0 ≤ c ∧ c ≤ 3 ∧ 0 ≤ e ∧ e < 100 :=
      ⟨y / 400, y % 400 / 100, y % 100, by omega, by omega, by omega, by omega, by omega⟩
    have hb : (400 * k + 100 * c + e) / 100 = 4 * k + c := by omega
    have he : (400 * k + 100 * c + e) % 100 = e := by omega
    have h4 : (400 * k + 100 * c + e) % 4 = e % 4 := by omega
    have h400 : (400 * k + 100 * c + e) % 400 = 100 * c + e := by omega
    rw [hb, he] at hc
    rw [hb, he, h4, h400]
    clear hb he h4 h400
    obtain rfl | rfl | rfl | rfl : c = 0 ∨ c = 1 ∨ c = 2 ∨ c = 3 := by omega
    · split at hc <;> split <;> omega
    · split at hc <;> split <;> omega
    · split at hc <;> split <;> omega
    · split at hc <;> split <;> omega

/-- The year that begins in March, of a month. -/
theorem year_march {y m a : Int} (ha : a = -1 ∧ m ≤ 2 ∨ a = 0 ∧ 2 < m) (h₁ : 1 ≤ m)
    (h₂ : m ≤ 12) : (monthOf y m - 2) / 12 = y + a := by
  unfold monthOf
  omega

/-- A day number that `convertToJulian` returns is the calendar's exactly if the rounding
    does no harm in its year. -/
theorem convertToJulian_eq_toDay_iff {y m d v : Int} (h₁ : 1 ≤ m) (h₂ : m ≤ 12)
    (h : convertToJulian y m d = .ok v) :
    v = toDay y m d ↔ RoundsRight ((monthOf y m - 2) / 12) := by
  have ha := month_tdiv h₁ h₂
  unfold convertToJulian at h
  simp only [add32, mul32, sub32, bind_eq_ok, checked_eq_ok, and_assoc, exists_and_left,
    exists_eq_left] at h
  -- no operation overflowed, so the result is the formula's
  obtain ⟨-, -, -, -, -, -, -, -, -, -, -, -, -, -, -, rfl⟩ := h
  rw [← toDay_eq_formula h₁ h₂ ha, year_march ha h₁ h₂, ← roundsRight_iff]
  generalize (m - 14).tdiv 12 = a at ha ⊢
  -- only the quotient of the years can round the wrong way
  rw [Int.tdiv_eq_ediv_of_nonneg (show 0 ≤ 367 * (m - 2 - 12 * a) by omega),
    show y + 4800 + a = y + a + 4800 by omega, show y + 4900 + a = y + a + 4900 by omega]
  omega

/-- On the day numbers that `ymd` converts, `convertToJulian` does not overflow. -/
theorem exists_convertToJulian {y m d : Int} (hv : Valid y m d) (h : minJulian ≤ toDay y m d)
    (h' : toDay y m d ≤ maxJulian) : ∃ v, convertToJulian y m d = .ok v := by
  have hlo := le_monthIndex h
  have hhi := monthIndex_le h'
  rw [monthIndex_toDay hv] at hlo hhi
  have h₁ := hv.one_le_month
  have h₂ := hv.month_le
  have h₃ := hv.one_le_day
  have h₄ := hv.day_le.trans (monthLength_le y m)
  -- January and February belong to the year before
  have ha := month_tdiv h₁ h₂
  have hy : -1474590 ≤ y + (m - 14).tdiv 12 ∧ y + (m - 14).tdiv 12 ≤ 1465002 := by
    rw [← year_march ha h₁ h₂]
    omega
  clear hlo hhi
  unfold convertToJulian
  simp only [add32, mul32, sub32, bind_eq_ok, checked_eq_ok, and_assoc, exists_and_left,
    exists_eq_left, exists_eq, and_true]
  -- each quotient is bounded before it is used in the next one
  generalize (m - 14).tdiv 12 = a at ha hy ⊢
  have hx := tdiv_tmod_cases (1461 * (y + 4800 + a)) 4
  generalize (1461 * (y + 4800 + a)).tdiv 4 = x at hx ⊢
  have hm := tdiv_tmod_cases (367 * (m - 2 - 12 * a)) 12
  generalize (367 * (m - 2 - 12 * a)).tdiv 12 = k at hm ⊢
  have hc := tdiv_tmod_cases (y + 4900 + a) 100
  generalize (y + 4900 + a).tdiv 100 = c at hc ⊢
  have hc₀ : -14698 ≤ c ∧ c ≤ 14700 := by omega
  have hcc := tdiv_tmod_cases (3 * c) 4
  generalize (3 * c).tdiv 4 = z at hcc ⊢
  have hx₀ : -536840798 ≤ x ∧ x ≤ 536845181 := by omega
  have hk₀ : 0 ≤ k ∧ k ≤ 367 := by omega
  have hz₀ : -11023 ≤ z ∧ z ≤ 11025 := by omega
  clear hx hm hc hcc
  -- what is left are the bounds of the operations
  unfold InInt32
  omega

/-! ## Adding a tenor -/

/-- Adding the tenor throws, or it gives the date that the calendar gives, and neither
    the addition nor the conversion of its result overflows. -/
def AddsRight (date : Date) (t : Tenor) : Prop :=
  (∃ e, date.addTenor t = .error (.throws e)) ∨
  ∃ r, date.addTenor t = .ok r ∧ r.julian = (unitShift t.unit).shift t.count date.julian ∧
    ∃ c, r.gregorian = .ok c

/-- The day number that the calendar gives can be converted, and for a tenor of months
    or years the rounding does no harm in its year. -/
def WithinReach (date : Date) (t : Tenor) : Prop :=
  let j := (unitShift t.unit).shift t.count date.julian
  minJulian ≤ j ∧ j ≤ maxJulian ∧
    (t.unit = .kMonths ∨ t.unit = .kYears → RoundsRight ((monthIndex j - 2) / 12))

variable {j n : Int} {u : Tenors}

/-- Within reach, adding a tenor returns the shifted day. -/
theorem exists_addTenor (h : 0 ≤ j) (h' : j ≤ maxJulian) (hreach : WithinReach ⟨j⟩ ⟨n, u⟩) :
    ∃ r, addTenor ⟨j⟩ ⟨n, u⟩ = .ok r ∧ r.julian = (unitShift u).shift n j := by
  obtain ⟨hlo, hhi, hround⟩ := hreach
  apply (addTenor_moves (E := fun _ => False) (R := fun r => r.julian = (unitShift u).shift n j) h
    (Or.inr ⟨h', hlo, hhi⟩) (fun _ => rfl) ?_).exists_ok fun _ _ => id
  intro hu y m d hv hday
  have hd := hv.one_le_day
  obtain ⟨v, hconv⟩ := exists_convertToJulian hv (hday ▸ hlo) (hday ▸ hhi)
  rw [ofYmd_eq ⟨hv.one_le_month, hv.month_le⟩ (by omega) hv.day_le, hconv]
  -- the rounding does no harm in the year of the result
  have hmonth := monthIndex_toDay hv
  rw [hday] at hmonth
  have hv' := (convertToJulian_eq_toDay_iff hv.one_le_month hv.month_le hconv).mpr
    (hmonth ▸ hround hu)
  exact hv'.trans hday

/-- Where months or years were added right, the division of the source has rounded right. -/
theorem roundsRight_of_addTenor (h : 0 ≤ j) (hu : u = .kMonths ∨ u = .kYears) {r : Date}
    (hr : addTenor ⟨j⟩ ⟨n, u⟩ = .ok r) (hj : r.julian = (unitShift u).shift n j) :
    RoundsRight ((monthIndex r.julian - 2) / 12) := by
  have hpost := addTenor_moves (E := fun _ => True) (n := n) (u := u)
    (R := fun r => r.julian = (unitShift u).shift n j →
      RoundsRight ((monthIndex r.julian - 2) / 12))
    h (Or.inl trivial) (fun hdays => ?_) ?_
  · rw [hr, post_ok] at hpost
    exact hpost hj
  · rcases hu with rfl | rfl
    · exact absurd hdays (by decide)
    · exact absurd hdays (by decide)
  · intro _ y m d hv hday
    -- a date that was put together has its day number
    rcases hof : ofYmd y m d with f | date
    · trivial
    · intro hj
      obtain ⟨hm, -, hconv⟩ := ofYmd_eq_ok hof
      rw [hj, ← hday, monthIndex_toDay hv]
      exact (convertToJulian_eq_toDay_iff hm.1 hm.2 hconv).mp (hj.trans hday.symm)

/-- To a date given as text, adding a tenor is right exactly if the day number that the
    calendar gives is within reach. -/
theorem addsRight_iff {s : Bytes} {date : Date} (hs : ofText s = .ok date) (t : Tenor) :
    AddsRight date t ↔ WithinReach date t := by
  obtain ⟨n, u⟩ := t
  have htext := ofText_post s
  rw [hs, post_ok] at htext
  obtain ⟨y, m, d, hform, rfl⟩ := htext
  obtain ⟨hy₀, hy₁⟩ := hform.form.year_bounds
  -- a date that is read has a year of four digits
  obtain ⟨hlo, hhi⟩ := toDay_bounds hform.valid hy₀ hy₁
  constructor
  · -- from day number zero on, adding at most overflows
    rintro (⟨e, he⟩ | ⟨r, hr, hj, c, hc⟩)
    · exact nomatch addTenor_error hlo he
    · -- the result converts, so it is in the range of the conversion
      obtain ⟨h, h'⟩ := ymd_ok_iff.mp ⟨c, hc⟩
      have hj' : r.julian = (unitShift u).shift n (toDay y m d) := hj
      refine ⟨hj' ▸ h, hj' ▸ h', fun hu => ?_⟩
      exact hj' ▸ roundsRight_of_addTenor hlo hu hr hj'
  · intro hreach
    -- within reach the sum exists, and it converts
    obtain ⟨r, hr, hj⟩ := exists_addTenor hlo hhi hreach
    have hconv := ymd_ok_iff.mpr ⟨hreach.1, hreach.2.1⟩
    refine Or.inr ⟨r, hr, hj, ?_⟩
    show ∃ c, ymd r.julian = .ok c
    rw [hj]
    exact hconv

/-- A year from the leap day of 2020. -/
theorem addsRight_iff_leapDay :
    AddsRight ⟨2458909⟩ ⟨1, .kYears⟩ ↔ WithinReach ⟨2458909⟩ ⟨1, .kYears⟩ :=
  -- 2020-02-29
  addsRight_iff (s := [50, 48, 50, 48, 45, 48, 50, 45, 50, 57]) (by decide) ⟨1, .kYears⟩

/-- From the first of January 2020, a count of years that is accepted overflows. -/
theorem not_addsRight_years :
    ¬ ∀ s text date t, ofText s = .ok date → Tenor.ofString text = .ok t → AddsRight date t := by
  intro h
  have hdate : ofText [50, 48, 50, 48, 45, 48, 49, 45, 48, 49] = .ok ⟨2458850⟩ := by decide
  have hten : Tenor.ofString "1234123412Y" = .ok ⟨1234123412, .kYears⟩ := by decide
  have hadd : addTenor ⟨2458850⟩ ⟨1234123412, .kYears⟩ = .error .overflow := by decide
  rcases h _ _ _ _ hdate hten with ⟨e, he⟩ | ⟨r, hr, -⟩
  · exact nomatch hadd.symm.trans he
  · exact nomatch hadd.symm.trans hr

end Date

end OA.Time
