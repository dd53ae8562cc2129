import OdinAnalytics.Spec.DateRange

/-!
# Tenor arithmetic

A tenor of months or years places the day of a date in another month, clamped to
the end of it. This holds of every date, also of one before day number zero whose
components are not those of the calendar, so the laws below need no assumption on
the date where the result is a day number from zero on.

## Key results

- `addTenor_place`: what adding months and years computes
- `addMonths_spec`: the components of the result
- `addYears_eq_addMonths`: a year is twelve months
- `addTenor_mono`: order in the date and in the count
- `subTenor_addTenor`: what is lost by going there and back
-/

namespace OA.Time

open Machine Gregorian

namespace Date

/-! ## Placing a day in a month -/

/-- The months that a unit of months or years stands for. -/
def monthsIn : Tenors → Int
  | .kYears => 12
  | _ => 1

variable {j n y m d : Int} {u : Tenors} {r : Date}

/-- The units are counted in days or in months. -/
theorem unit_cases (u : Tenors) :
    (u = .kDays ∨ u = .kWeeks) ∨ u = .kMonths ∨ u = .kYears := by
  cases u with
  | kDays => exact Or.inl (Or.inl rfl)
  | kWeeks => exact Or.inl (Or.inr rfl)
  | kMonths => exact Or.inr (Or.inl rfl)
  | kYears => exact Or.inr (Or.inr rfl)

/-- A conversion has one year, month and day. -/
theorem ymd_unique {x : Exec YearMonthDay} {y' m' d' : Int} (h : x = .ok (y, m, d))
    (h' : x = .ok (y', m', d')) : y = y' ∧ m = m' ∧ d = d' := by
  simpa using Except.ok.inj (h.symm.trans h')

/-- The constructor on a day that was clamped, or that needs no clamping. -/
private theorem ofYmd_place (h : ofYmd y m (min d (monthLength y m)) = .ok r)
    (hr : 0 ≤ r.julian) : r.julian = months.place (monthOf y m) (d - 1) := by
  obtain ⟨hm, hd, hj⟩ := ofYmd_eq_ok h
  have hle := hd.trans (monthLength_le y m)
  rw [convertToJulian_eq_ok hm.1 hm.2 hle hj hr, toDay_clamp hm.1 hm.2]

/-- Adding months places the day of the month in another month. -/
theorem addMonths_place (h : addMonths ⟨j⟩ n = .ok r) (hr : 0 ≤ r.julian) :
    ∃ y m d, ymd j = .ok (y, m, d) ∧ r.julian = months.place (monthOf y m + n) (d - 1) := by
  obtain ⟨⟨y, m, d⟩, hymd, h⟩ := bind_eq_ok.mp h
  obtain ⟨⟨y', m'⟩, hnew, h⟩ := bind_eq_ok.mp h
  obtain ⟨last, hlast, h⟩ := bind_eq_ok.mp h
  have hym := newYearMonth_post (E := fun _ => True) (y := y) (m := m) (n := n) (Or.inl trivial)
  rw [hnew, post_ok, Prod.mk.injEq] at hym
  have hm := (ofYmd_eq_ok h).1
  -- the month that is asked for its length is the one reached
  rw [daysInMonth_eq hm.1 hm.2, Except.ok.injEq] at hlast
  rw [← hlast, clamp_eq_min] at h
  have hidx : monthOf y' m' = monthOf y m + n := by
    rw [hym.1, hym.2]
    unfold monthOf
    omega
  exact ⟨y, m, d, hymd, hidx ▸ ofYmd_place h hr⟩

/-- Adding years places the day of the month in the same month of another year. -/
theorem addYears_place (h : addYears ⟨j⟩ n = .ok r) (hr : 0 ≤ r.julian) :
    ∃ y m d, ymd j = .ok (y, m, d) ∧ r.julian = months.place (monthOf y m + 12 * n) (d - 1) := by
  obtain ⟨⟨y, m, d⟩, hymd, h⟩ := bind_eq_ok.mp h
  obtain ⟨y', hy', h⟩ := bind_eq_ok.mp h
  obtain ⟨-, rfl⟩ := checked_eq_ok.mp hy'
  have hof : ofYmd (y + n) m (min d (monthLength (y + n) m)) = .ok r := by
    split at h
    · obtain ⟨last, hlast, h⟩ := bind_eq_ok.mp h
      rw [pure_bind] at h
      have hm := (ofYmd_eq_ok h).1
      rw [daysInMonth_eq hm.1 hm.2, Except.ok.injEq] at hlast
      rwa [← hlast, clamp_eq_min] at h
    · rw [pure_bind] at h
      -- a day that the constructor accepts needs no clamping
      rwa [min_eq_left (ofYmd_eq_ok h).2.1]
  have hidx : monthOf (y + n) m = monthOf y m + 12 * n := by
    unfold monthOf
    omega
  exact ⟨y, m, d, hymd, hidx ▸ ofYmd_place hof hr⟩

/-- Adding months or years places the day of the date in the month reached. -/
theorem addTenor_place (hu : u = .kMonths ∨ u = .kYears) (h : addTenor ⟨j⟩ ⟨n, u⟩ = .ok r)
    (hr : 0 ≤ r.julian) : ∃ y m d, ymd j = .ok (y, m, d) ∧
      r.julian = months.place (monthOf y m + monthsIn u * n) (d - 1) := by
  rcases hu with rfl | rfl
  · have hplace := addMonths_place h hr
    rwa [show n = monthsIn .kMonths * n from (one_mul n).symm] at hplace
  · exact addYears_place h hr

/-- Adding days or weeks adds days. -/
theorem addTenor_days (hu : u = .kDays ∨ u = .kWeeks) (h : addTenor ⟨j⟩ ⟨n, u⟩ = .ok r) :
    r.julian = (unitShift u).shift n j := by
  rcases hu with rfl | rfl
  · obtain ⟨v, hv, h⟩ := bind_eq_ok.mp h
    obtain ⟨-, rfl⟩ := checked_eq_ok.mp hv
    cases h
    show j + n = j + 1 * n
    omega
  · -- a week is seven days
    obtain ⟨w, hw, h⟩ := bind_eq_ok.mp h
    obtain ⟨v, hv, h⟩ := bind_eq_ok.mp h
    obtain ⟨-, rfl⟩ := checked_eq_ok.mp hw
    obtain ⟨-, rfl⟩ := checked_eq_ok.mp hv
    cases h
    rfl

/-- From day number zero on, adding a tenor never throws. -/
theorem addTenor_error {date : Date} {t : Tenor} {f : Fault} (h : 0 ≤ date.julian)
    (hf : date.addTenor t = .error f) : f = .overflow := by
  have hpost := addTenor_agrees (E := (· = .overflow)) (u := t.unit) (n := t.count) rfl h
  rw [hf] at hpost
  exact hpost

/-- Between day numbers from zero on, adding a tenor moves by its unit. -/
theorem addTenor_shift {date : Date} {t : Tenor} (h : 0 ≤ date.julian)
    (hadd : date.addTenor t = .ok r) (hr : 0 ≤ r.julian) :
    r.julian = (unitShift t.unit).shift t.count date.julian := by
  have hagrees := addTenor_agrees (E := fun _ => True) (u := t.unit) (n := t.count) trivial h
  rw [show addTenor ⟨date.julian⟩ ⟨t.count, t.unit⟩ = .ok r from hadd] at hagrees
  rcases hagrees with rfl | ⟨hneg, -⟩
  · rfl
  · omega

/-- The components of a day number from zero on are those of the calendar. -/
theorem gregorian_eq_ok {date : Date} (h : 0 ≤ date.julian)
    (hymd : date.gregorian = .ok (y, m, d)) : Valid y m d ∧ monthOf y m = monthIndex date.julian ∧
      d = months.offset date.julian + 1 ∧ date.julian = toDay y m d := by
  obtain ⟨-, heq⟩ | ⟨hlt, -⟩ := ymd_eq_ok hymd
  · exact of_eq_ofDay heq
  · omega

/-! ## Months -/

/-- Adding months counts the months through, rounding down, and clamps the day to
    the month reached. Every run that does not overflow gives these components, and
    every date in the range of the conversions is reached. -/
theorem addMonths_spec {date : Date} (h : 0 ≤ date.julian)
    (hymd : date.gregorian = .ok (y, m, d)) (n : Int) :
    let q := 12 * y + (m - 1) + n
    ∃ last, daysInMonth (q / 12) (q % 12 + 1) = .ok last ∧
      (∀ r c, date.addTenor ⟨n, .kMonths⟩ = .ok r → 0 ≤ r.julian → r.gregorian = .ok c →
        c = (q / 12, q % 12 + 1, min d last)) ∧
      (∀ f, date.addTenor ⟨n, .kMonths⟩ = .error f → f = .overflow) ∧
      (InRange (q / 12) (q % 12 + 1) (min d last) → ∃ r, date.addTenor ⟨n, .kMonths⟩ = .ok r ∧
        r.gregorian = .ok (q / 12, q % 12 + 1, min d last)) := by
  intro q
  obtain ⟨hv, hi, hd, -⟩ := gregorian_eq_ok h hymd
  have h₁ : 1 ≤ q % 12 + 1 := by omega
  have h₂ : q % 12 + 1 ≤ 12 := by omega
  have hidx : monthOf (q / 12) (q % 12 + 1) = monthOf y m + n := by
    unfold monthOf
    omega
  have hday := toDay_clamp h₁ h₂ (q / 12) d
  have hvalid := valid_clamp (y := q / 12) h₁ h₂ hv.one_le_day
  rw [hidx] at hday
  refine ⟨_, daysInMonth_eq h₁ h₂ _, ?_, fun f => addTenor_error h, ?_⟩
  · rintro r ⟨y', m', d'⟩ hr hr₀ hc
    obtain ⟨y₀, m₀, d₀, hymd₀, hplace⟩ := addTenor_place (Or.inl rfl) hr hr₀
    rw [show monthsIn .kMonths = 1 from rfl, one_mul] at hplace
    obtain ⟨rfl, rfl, rfl⟩ : y = y₀ ∧ m = m₀ ∧ d = d₀ := ymd_unique hymd hymd₀
    obtain ⟨hv', -, -, hr'⟩ := gregorian_eq_ok hr₀ hc
    -- both components are valid and stand for the same day
    rw [hplace, ← hday] at hr'
    rw [← ofDay_toDay hvalid, hr', ofDay_toDay hv']
  · intro hrange
    obtain ⟨hlo, hhi⟩ := hrange.day_bounds
    have hle := (ymd_ok_iff.mp ⟨_, hymd⟩).2
    have hshift : months.shift n date.julian = toDay (q / 12) (q % 12 + 1)
        (min d (monthLength (q / 12) (q % 12 + 1))) := by
      rw [hday, hi, months.shift_eq_place, months_index, hd, Int.add_sub_cancel]
    have hadd := addTenor_eq (u := .kMonths) h hle (hlo.trans_eq hshift.symm)
      (hshift.le.trans hhi)
    refine ⟨_, hadd, ?_⟩
    show ymd (months.shift n date.julian) = _
    rw [hshift, ymd_eq hlo hhi, ofDay_toDay hvalid]

/-- The last day of January and one month. -/
theorem addMonths_spec_february : ∃ last, daysInMonth 2024 2 = .ok last ∧
    ∃ r, addTenor ⟨2460341⟩ ⟨1, .kMonths⟩ = .ok r ∧ r.gregorian = .ok (2024, 2, min 31 last) := by
  have hymd : gregorian ⟨2460341⟩ = .ok (2024, 1, 31) := by decide
  obtain ⟨last, hlast, -, -, h⟩ := addMonths_spec (by decide) hymd 1
  obtain rfl : 29 = last := Except.ok.inj hlast
  have hrange : InRange 2024 2 29 :=
    ⟨isGregorian_iff.mpr (by decide), by unfold Earlier; decide, by unfold Earlier; decide⟩
  exact ⟨29, hlast, h hrange⟩

/-! ## Years -/

/-- The last step of a subtraction is an addition. -/
theorem subTenor_eq_ok {date : Date} (h : date.subTenor ⟨n, u⟩ = .ok r) :
    date.addTenor ⟨-n, u⟩ = .ok r := by
  obtain ⟨t, ht, h⟩ := bind_eq_ok.mp h
  obtain ⟨v, hv, ht⟩ := bind_eq_ok.mp ht
  obtain ⟨-, rfl⟩ := checked_eq_ok.mp hv
  cases ht
  exact h

/-- From day number zero on, subtracting a tenor overflows at most. -/
theorem subTenor_error {date : Date} {t : Tenor} {f : Fault} (h : 0 ≤ date.julian)
    (hf : date.subTenor t = .error f) : f = .overflow := by
  rcases bind_eq_error.mp hf with hf | ⟨t', -, hf⟩
  · rcases bind_eq_error.mp hf with hf | ⟨v, -, hf⟩
    · exact checked_eq_error hf
    · cases hf
  · exact addTenor_error h hf

/-- Years and twelve times as many months place a day alike. -/
private theorem addYears_agrees {date r' : Date} (h : date.addTenor ⟨n, .kYears⟩ = .ok r)
    (h' : date.addTenor ⟨12 * n, .kMonths⟩ = .ok r') (hr : 0 ≤ r.julian) (hr' : 0 ≤ r'.julian) :
    r = r' := by
  obtain ⟨y, m, d, hymd, hplace⟩ := addTenor_place (Or.inr rfl) h hr
  obtain ⟨y', m', d', hymd', hplace'⟩ := addTenor_place (Or.inl rfl) h' hr'
  -- both start from the same year, month and day
  obtain ⟨rfl, rfl, rfl⟩ : y = y' ∧ m = m' ∧ d = d' := ymd_unique hymd hymd'
  rw [show monthsIn .kMonths = 1 from rfl, one_mul] at hplace'
  cases r
  cases r'
  exact congrArg Date.mk (hplace.trans hplace'.symm)

/-- A year is twelve months, forward and back. From day number zero on neither side
    does anything else than return or overflow. -/
theorem addYears_eq_addMonths (date : Date) (n : Int) :
    (∀ r r', date.addTenor ⟨n, .kYears⟩ = .ok r → date.addTenor ⟨12 * n, .kMonths⟩ = .ok r' →
      0 ≤ r.julian → 0 ≤ r'.julian → r = r') ∧
    (∀ r r', date.subTenor ⟨n, .kYears⟩ = .ok r → date.subTenor ⟨12 * n, .kMonths⟩ = .ok r' →
      0 ≤ r.julian → 0 ≤ r'.julian → r = r') ∧
    (0 ≤ date.julian → ∀ t f, date.addTenor t = .error f ∨ date.subTenor t = .error f →
      f = .overflow) := by
  refine ⟨fun r r' => addYears_agrees, ?_, ?_⟩
  · intro r r' h h' hr hr'
    have hmonths := subTenor_eq_ok h'
    rw [show -(12 * n) = 12 * -n by omega] at hmonths
    exact addYears_agrees (subTenor_eq_ok h) hmonths hr hr'
  · rintro h t f (hf | hf)
    · exact addTenor_error h hf
    · exact subTenor_error h hf

/-- The leap day of 2024, a year later and a year earlier. -/
theorem addYears_eq_addMonths_leapDay : ∃ r r' s s' : Date,
    (⟨2460370⟩ : Date).addTenor ⟨1, .kYears⟩ = .ok r ∧
      (⟨2460370⟩ : Date).addTenor ⟨12 * 1, .kMonths⟩ = .ok r' ∧ r = r' ∧
      (⟨2460370⟩ : Date).subTenor ⟨1, .kYears⟩ = .ok s ∧
      (⟨2460370⟩ : Date).subTenor ⟨12 * 1, .kMonths⟩ = .ok s' ∧ s = s' := by
  obtain ⟨hadd, hsub, -⟩ := addYears_eq_addMonths ⟨2460370⟩ 1
  refine ⟨⟨2460735⟩, ⟨2460735⟩, ⟨2460004⟩, ⟨2460004⟩, by decide, by decide, ?_,
    by decide, by decide, ?_⟩
  · exact hadd _ _ (by decide) (by decide) (by decide) (by decide)
  · exact hsub _ _ (by decide) (by decide) (by decide) (by decide)

/-! ## Order -/

/-- A higher count gives a later date, from any date. -/
private theorem addTenor_lt {date r' : Date} {n' : Int} (hn : n < n')
    (h : date.addTenor ⟨n, u⟩ = .ok r) (h' : date.addTenor ⟨n', u⟩ = .ok r')
    (hr : 0 ≤ r.julian) (hr' : 0 ≤ r'.julian) : r < r' := by
  show r.julian < r'.julian
  rcases unit_cases u with hdays | hu
  · rw [addTenor_days hdays h, addTenor_days hdays h']
    exact (unitShift u).strictMono_count date.julian hn
  · obtain ⟨y, m, d, hymd, hplace⟩ := addTenor_place hu h hr
    obtain ⟨y', m', d', hymd', hplace'⟩ := addTenor_place hu h' hr'
    obtain ⟨rfl, rfl, rfl⟩ : y = y' ∧ m = m' ∧ d = d' := ymd_unique hymd hymd'
    -- the same day of a later month
    have hpos : 0 < monthsIn u := by
      rcases hu with rfl | rfl
      · decide
      · decide
    have hlt := mul_lt_mul_of_pos_left hn hpos
    rw [hplace, hplace']
    exact months.place_strictMono (d - 1) (by omega)

/-- Adding days or weeks keeps the order of the dates, and so does adding months or years
    from day number zero on; and from any date, a higher count of a unit gives a later
    date. -/
theorem addTenor_mono :
    (∀ (t : Tenor) (date date' r r' : Date),
      t.unit = .kDays ∨ t.unit = .kWeeks ∨ 0 ≤ date.julian → date ≤ date' →
      date.addTenor t = .ok r → date'.addTenor t = .ok r' → 0 ≤ r.julian → 0 ≤ r'.julian →
      r ≤ r') ∧
    (∀ (u : Tenors) (date : Date) (n n' : Int) (r r' : Date), n < n' →
      date.addTenor ⟨n, u⟩ = .ok r → date.addTenor ⟨n', u⟩ = .ok r' → 0 ≤ r.julian →
      0 ≤ r'.julian → r < r') ∧
    (∀ (t : Tenor) (date : Date) f, 0 ≤ date.julian → date.addTenor t = .error f →
      f = .overflow) := by
  refine ⟨?_, fun u date n n' r r' hn h h' => addTenor_lt hn h h', fun t date f => addTenor_error⟩
  intro t date date' r r' ht hle h h' hr hr'
  show r.julian ≤ r'.julian
  -- the shift of the calendar keeps the order, and results agree with it
  have hmono := (unitShift t.unit).mono_date t.count hle
  rcases ht with hday | hweek | hdate
  · rwa [addTenor_days (Or.inl hday) h, addTenor_days (Or.inl hday) h']
  · rwa [addTenor_days (Or.inr hweek) h, addTenor_days (Or.inr hweek) h']
  · rwa [addTenor_shift hdate h hr, addTenor_shift (hdate.trans hle) h' hr']

/-- The last two days of January 2024, one month later, and the last one two months later. -/
theorem addTenor_mono_january : ∃ r r' r'' : Date,
    (⟨2460340⟩ : Date).addTenor ⟨1, .kMonths⟩ = .ok r ∧
      (⟨2460341⟩ : Date).addTenor ⟨1, .kMonths⟩ = .ok r' ∧ r ≤ r' ∧
      (⟨2460341⟩ : Date).addTenor ⟨2, .kMonths⟩ = .ok r'' ∧ r' < r'' := by
  obtain ⟨hdate, hcount, -⟩ := addTenor_mono
  refine ⟨⟨2460370⟩, ⟨2460370⟩, ⟨2460401⟩, by decide, by decide, ?_, by decide, ?_⟩
  · exact hdate ⟨1, .kMonths⟩ ⟨2460340⟩ ⟨2460341⟩ _ _ (Or.inr (Or.inr (by decide))) (by decide)
      (by decide) (by decide) (by decide) (by decide)
  · exact hcount .kMonths ⟨2460341⟩ 1 2 _ _ (by decide) (by decide) (by decide) (by decide)
      (by decide)

/-- Ten years from two days before the calendar begins: the later one arrives earlier. -/
theorem not_addTenor_mono_early :
    ¬ ∀ (t : Tenor) (date date' r r' : Date), date ≤ date' → date.addTenor t = .ok r →
      date'.addTenor t = .ok r' → 0 ≤ r.julian → 0 ≤ r'.julian → r ≤ r' := by
  intro h
  have hle := h ⟨10, .kYears⟩ ⟨-1395⟩ ⟨-1394⟩ ⟨2626⟩ ⟨2260⟩ (by decide) (by decide) (by decide)
    (by decide) (by decide)
  exact absurd hle (by decide)

/-! ## There and back -/

/-- The addition kept the day of the month. -/
def KeepsDay (date : Date) (t : Tenor) (r : Date) : Prop :=
  t.unit = .kDays ∨ t.unit = .kWeeks ∨
    ∃ y m d y' m', date.gregorian = .ok (y, m, d) ∧ r.gregorian = .ok (y', m', d)

/-- Subtracting what was added loses the days that the addition clamped. -/
theorem subTenor_place {date s : Date} (hu : u = .kMonths ∨ u = .kYears)
    (h : date.addTenor ⟨n, u⟩ = .ok r) (h' : r.subTenor ⟨n, u⟩ = .ok s) (hr : 0 ≤ r.julian)
    (hs : 0 ≤ s.julian) : ∃ y m d y' m' d', date.gregorian = .ok (y, m, d) ∧
      r.gregorian = .ok (y', m', d') ∧ d' ≤ d ∧ d ≤ d' + 3 ∧ s.julian = date.julian - (d - d') := by
  obtain ⟨y, m, d, hymd, hplace⟩ := addTenor_place hu h hr
  obtain ⟨y', m', d', hymd', hplace'⟩ := addTenor_place hu (subTenor_eq_ok h') hs
  obtain ⟨hv', hi', hd', -⟩ := gregorian_eq_ok hr hymd'
  rw [hi', hd', Int.add_sub_cancel, mul_neg] at hplace'
  obtain ⟨-, hof⟩ | ⟨-, hearly, -⟩ := ymd_eq_ok hymd
  · obtain ⟨-, hi, hd, -⟩ := of_eq_ofDay hof
    rw [hi, hd, Int.add_sub_cancel] at hplace
    have hshift : r.julian = months.shift (monthsIn u * n) date.julian := hplace
    have hback : s.julian = months.shift (-(monthsIn u * n)) r.julian := hplace'
    have hlost := months.shift_neg_shift (monthsIn u * n) date.julian
    rw [← hshift, ← hback] at hlost
    -- what is lost is less than the difference of two months
    have hoff := months.offset_shift (monthsIn u * n) date.julian
    rw [← hshift] at hoff
    have hlt := months.offset_lt_len date.julian
    have hlen := len_bounds (months.index date.julian)
    have hlen' := len_bounds (months.index date.julian + monthsIn u * n)
    exact ⟨y, m, d, y', m', d', hymd, hymd', by omega, by omega, by omega⟩
  · -- the month of a date too early would not be reached again
    have hle : monthIndex r.julian ≤ monthOf y m + monthsIn u * n := by
      rw [hplace]
      exact months.index_place_le _ _
    have hle' : monthIndex s.julian ≤ monthIndex r.julian + -(monthsIn u * n) := by
      rw [hplace']
      exact months.index_place_le _ _
    have := (monthIndex_bounds hs).1
    omega

/-- Days and weeks come back to the same date. -/
theorem subTenor_days {date s : Date} (hu : u = .kDays ∨ u = .kWeeks)
    (h : date.addTenor ⟨n, u⟩ = .ok r) (h' : r.subTenor ⟨n, u⟩ = .ok s) : s = date := by
  -- days and weeks are added to the day number and taken off it
  have hsame : s.julian = date.julian := by
    rw [addTenor_days hu (subTenor_eq_ok h'), addTenor_days hu h]
    rcases hu with rfl | rfl
    · show date.julian + 1 * n + 1 * -n = date.julian
      omega
    · show date.julian + 7 * n + 7 * -n = date.julian
      omega
  cases s
  exact congrArg Date.mk hsame

/-- There and back from any date: never later, at most three days earlier, and the same
    date exactly if the addition kept the day of the month. -/
theorem subTenor_addTenor :
    (∀ (date : Date) (t : Tenor) (r s : Date), date.addTenor t = .ok r → r.subTenor t = .ok s →
      0 ≤ r.julian → 0 ≤ s.julian →
      s ≤ date ∧ date.julian ≤ s.julian + 3 ∧ (s = date ↔ KeepsDay date t r)) ∧
    (∀ (date : Date) (t : Tenor) f, 0 ≤ date.julian →
      date.addTenor t = .error f ∨ date.subTenor t = .error f → f = .overflow) := by
  constructor
  · rintro date ⟨n, u⟩ r s h h' hr hs
    -- days and weeks come back exactly, months and years may be clamped on the way
    rcases unit_cases u with hdays | hu
    · obtain rfl := subTenor_days hdays h h'
      exact ⟨le_rfl, by omega, iff_of_true rfl (hdays.imp_right Or.inl)⟩
    · obtain ⟨y, m, d, y', m', d', hymd, hymd', hle, hle', hlost⟩ := subTenor_place hu h h' hr hs
      have hne : ¬ (u = .kDays ∨ u = .kWeeks) := by
        rcases hu with rfl | rfl
        · decide
        · decide
      refine ⟨show s.julian ≤ date.julian by omega, by omega, ?_, ?_⟩
      · rintro rfl
        obtain rfl : d = d' := by omega
        exact Or.inr (Or.inr ⟨y, m, d, y', m', hymd, hymd'⟩)
      · -- the day of the month was kept, so nothing was lost
        rintro (hdays | hweeks | ⟨y₀, m₀, d₀, y₁, m₁, h₀, h₁⟩)
        · exact absurd (Or.inl hdays) hne
        · exact absurd (Or.inr hweeks) hne
        · obtain ⟨-, -, rfl⟩ : y = y₀ ∧ m = m₀ ∧ d = d₀ := ymd_unique hymd h₀
          obtain ⟨-, -, rfl⟩ : y' = y₁ ∧ m' = m₁ ∧ d' = d := ymd_unique hymd' h₁
          cases s
          cases date
          simp only [sub_self, sub_zero] at hlost
          exact congrArg Date.mk hlost
  · rintro date t f h (hf | hf)
    · exact addTenor_error h hf
    · exact subTenor_error h hf

/-- The last day of January 2024 does not come back from February, its 29th day does from
    March. -/
theorem subTenor_addTenor_january : ∃ r s : Date,
    (⟨2460341⟩ : Date).addTenor ⟨1, .kMonths⟩ = .ok r ∧ r.subTenor ⟨1, .kMonths⟩ = .ok s ∧
      s ≤ ⟨2460341⟩ ∧ 2460341 ≤ s.julian + 3 ∧ ¬ KeepsDay ⟨2460341⟩ ⟨1, .kMonths⟩ r ∧
      KeepsDay r ⟨1, .kMonths⟩ ⟨2460399⟩ := by
  obtain ⟨hback, -⟩ := subTenor_addTenor
  -- the 31st of January is clamped, the 29th of February is not
  obtain ⟨hle, hnear, hiff⟩ := hback ⟨2460341⟩ ⟨1, .kMonths⟩ ⟨2460370⟩ ⟨2460339⟩ (by decide)
    (by decide) (by decide) (by decide)
  obtain ⟨-, -, hiff'⟩ := hback ⟨2460370⟩ ⟨1, .kMonths⟩ ⟨2460399⟩ ⟨2460370⟩ (by decide)
    (by decide) (by decide) (by decide)
  refine ⟨⟨2460370⟩, ⟨2460339⟩, by decide, by decide, hle, hnear, ?_, hiff'.mp rfl⟩
  exact fun hkeeps => absurd (hiff.mpr hkeeps) (by decide)

end Date

end OA.Time
