import OdinAnalytics.Lib.DateShift

/-!
# The proleptic Gregorian calendar

Months are numbered through: month `m` of year `y` is block `12 * y + (m - 1)`.
`monthStart` gives the Julian day number on which a month begins and `monthIndex`
the month that contains a day, so the calendar is a `Tiling` of the days by the
months. All divisions here round down.

Both functions count years from March, which puts the leap day last.

## Key results

- `months`: the calendar as a tiling
- `toDay_ofDay`, `ofDay_toDay`: day numbers and valid dates determine each other
- `toDay_lt_toDay`: day numbers are ordered as (year, month, day)
-/

namespace Gregorian

/-- The leap year rule. -/
def IsLeap (y : ℤ) : Prop := y % 4 = 0 ∧ y % 100 ≠ 0 ∨ y % 400 = 0

instance : DecidablePred IsLeap := fun y => by unfold IsLeap; infer_instance

/-- The number of days of month `m` of year `y`. -/
def monthLength (y m : ℤ) : ℤ :=
  if m = 2 then (if IsLeap y then 29 else 28)
  else if m = 4 ∨ m = 6 ∨ m = 9 ∨ m = 11 then 30
  else 31

/-- The number of days before March of year `y`, counted from year zero. -/
def yearStart (y : ℤ) : ℤ := 365 * y + y / 4 - y / 100 + y / 400

/-- The Julian day number of the first day of a month. -/
def monthStart (i : ℤ) : ℤ := yearStart ((i - 2) / 12) + (153 * ((i - 2) % 12) + 2) / 5 + 1721120

/-! ## Lengths of months -/

/-- A year has 365 or 366 days. -/
theorem yearStart_succ (y : ℤ) :
    yearStart (y + 1) = yearStart y + if IsLeap (y + 1) then 366 else 365 := by
  unfold yearStart
  split
  · next h => unfold IsLeap at h; omega
  · next h => unfold IsLeap at h; omega

/-- Counted from March, the months of a year have a regular pattern of lengths. -/
theorem marchMonth_succ {k : ℤ} (h₀ : 0 ≤ k) (h₁ : k ≤ 10) (y : ℤ) :
    (153 * (k + 1) + 2) / 5 = (153 * k + 2) / 5 + monthLength y ((k + 2) % 12 + 1) := by
  obtain rfl | rfl | rfl | rfl | rfl | rfl | rfl | rfl | rfl | rfl | rfl : k = 0 ∨ k = 1 ∨ k = 2 ∨
      k = 3 ∨ k = 4 ∨ k = 5 ∨ k = 6 ∨ k = 7 ∨ k = 8 ∨ k = 9 ∨ k = 10 := by omega
  all_goals simp [monthLength]

/-- A month is as long as its name and its year say. -/
theorem monthStart_succ (i : ℤ) :
    monthStart (i + 1) = monthStart i + monthLength (i / 12) (i % 12 + 1) := by
  unfold monthStart
  by_cases hfeb : i % 12 = 1
  · -- February ends a year counted from March
    have hsucc := yearStart_succ ((i - 2) / 12)
    have h₁ : (i + 1 - 2) / 12 = (i - 2) / 12 + 1 := by omega
    have h₂ : (i + 1 - 2) % 12 = 0 := by omega
    have h₃ : (i - 2) % 12 = 11 := by omega
    have h₄ : i / 12 = (i - 2) / 12 + 1 := by omega
    rw [h₁, h₂, h₃, h₄, hsucc, hfeb]
    unfold monthLength
    split
    · simp; omega
    · simp; omega
  · -- the other months are followed by one of the same year
    have h₁ : (i + 1 - 2) / 12 = (i - 2) / 12 := by omega
    have h₂ : (i + 1 - 2) % 12 = (i - 2) % 12 + 1 := by omega
    have h₃ : i % 12 = ((i - 2) % 12 + 2) % 12 := by omega
    rw [h₁, h₂, h₃, marchMonth_succ (by omega) (by omega) (i / 12)]
    omega

/-- A month has between 28 and 31 days. -/
theorem monthLength_bounds (y m : ℤ) : 28 ≤ monthLength y m ∧ monthLength y m ≤ 31 := by
  unfold monthLength
  split
  · -- February, in a leap year or not
    split
    · omega
    · omega
  · split
    · omega
    · omega

/-- No month is shorter than 28 days. -/
theorem le_monthLength (y m : ℤ) : 28 ≤ monthLength y m := (monthLength_bounds y m).1

/-- No month is longer than 31 days. -/
theorem monthLength_le (y m : ℤ) : monthLength y m ≤ 31 := (monthLength_bounds y m).2

/-! ## The month of a day -/

/-- The number of leap days the Gregorian reform leaves out up to day `j`. -/
def omitted (j : ℤ) : ℤ := 3 * ((4 * j + 274277) / 146097) / 4

/-- Four times the days up to `j` in a calendar without omitted leap days. -/
def quarterDays (j : ℤ) : ℤ := 4 * (j + 1363 + omitted j) + 3

/-- The years, counted from March, before the one of day `j`, from the year -4716. -/
def marchYear (j : ℤ) : ℤ := quarterDays j / 1461

/-- The days before `j` in its year counted from March. -/
def marchDay (j : ℤ) : ℤ := quarterDays j % 1461 / 4

/-- The month that contains day `j`. -/
def monthIndex (j : ℤ) : ℤ := 12 * (marchYear j - 4716) + (5 * marchDay j + 2) / 153 + 2

/-- The year that begins in March, from the quarter days. -/
theorem marchYear_def (j : ℤ) : marchYear j = quarterDays j / 1461 := rfl

/-- The day of that year, from the quarter days. -/
theorem marchDay_def (j : ℤ) : marchDay j = quarterDays j % 1461 / 4 := rfl

/-- The leap days that centuries leave out, from the year. -/
theorem omitted_eq (j : ℤ) : omitted j = 3 * ((marchYear j + 184) / 100) / 4 := by
  unfold marchYear quarterDays omitted
  -- the century counter may run one day ahead, on the leap day of a 400-year cycle
  -- by `r` quarters of a cycle: the cases differ in the leap days left out so far
  obtain ⟨k, r, hk, hr₀, hr₁⟩ : ∃ k r : ℤ, (4 * j + 274277) / 146097 = 4 * k + r ∧ 0 ≤ r ∧ r < 4 :=
    ⟨(4 * j + 274277) / 146097 / 4, (4 * j + 274277) / 146097 % 4, by omega, by omega, by omega⟩
  have hr : r = 0 ∨ r = 1 ∨ r = 2 ∨ r = 3 := by omega
  generalize hY : (4 * (j + 1363 + 3 * ((4 * j + 274277) / 146097) / 4) + 3) / 1461 = Y
  rcases hr with rfl | rfl | rfl | rfl
  · have ht : 3 * ((4 * j + 274277) / 146097) / 4 = 3 * k := by omega
    have hlo : 400 * k ≤ Y + 184 := by omega
    have hhi : Y + 184 < 400 * k + 100 := by omega
    omega
  · have ht : 3 * ((4 * j + 274277) / 146097) / 4 = 3 * k := by omega
    have hlo : 400 * k ≤ Y + 184 := by omega
    have hhi : Y + 184 < 400 * k + 200 := by omega
    omega
  · have ht : 3 * ((4 * j + 274277) / 146097) / 4 = 3 * k + 1 := by omega
    have hlo : 400 * k + 200 ≤ Y + 184 := by omega
    have hhi : Y + 184 < 400 * k + 300 := by omega
    omega
  · have ht : 3 * ((4 * j + 274277) / 146097) / 4 = 3 * k + 2 := by omega
    have hlo : 400 * k + 300 ≤ Y + 184 := by omega
    have hhi : Y + 184 < 400 * k + 400 := by omega
    omega

/-- A year that begins in March has at most 366 days. -/
theorem marchDay_bounds (j : ℤ) : 0 ≤ marchDay j ∧ marchDay j ≤ 365 := by
  unfold marchDay
  omega

/-- A day is its year counted from March and its day in that year. -/
theorem day_eq (j : ℤ) : j = yearStart (marchYear j - 4716) + marchDay j + 1721120 := by
  have hom := omitted_eq j
  have hq : quarterDays j = 4 * (j + 1363 + omitted j) + 3 := rfl
  have hY := marchYear_def j
  have hD := marchDay_def j
  unfold yearStart
  omega

/-- At the turn of a century whose leap day is left out, the century counter is already ahead. -/
theorem century_turn {j q : ℤ} (hq : marchYear j + 185 = 100 * (q + 1)) (hq4 : q % 4 ≠ 0)
    (hday : quarterDays j = 1461 * marchYear j + 1460) : False := by
  -- once by the year that `j` is in, and once by the counter
  have hom := omitted_eq j
  rw [show (marchYear j + 184) / 100 = q by omega] at hom
  have hj : 4 * j + 274277 = 146100 * (q + 1) - 3 - 4 * omitted j := by
    unfold quarterDays at hday
    linarith only [hday, hq]
  have hcent : q + 1 ≤ (4 * j + 274277) / 146097 := by omega
  have hc : omitted j = 3 * ((4 * j + 274277) / 146097) / 4 := rfl
  -- the two agree only if `q` is a multiple of four
  have hdvd : 3 * q = 4 * omitted j := by omega
  omega

/-- A year divisible by four that is not a leap year ends a century. -/
theorem century_of_not_isLeap {y : ℤ} (h4 : y % 4 = 0) (h : ¬ IsLeap y) :
    ∃ c, y = 100 * c ∧ c % 4 ≠ 0 := by
  unfold IsLeap at h
  exact ⟨y / 100, by omega, by omega⟩

/-- The leap day comes last in a year that begins in March. -/
theorem marchDay_lt (j : ℤ) : marchDay j < if IsLeap (marchYear j - 4715) then 366 else 365 := by
  have hbound := marchDay_bounds j
  split
  · omega
  · next h =>
    by_contra hlt
    have hday : quarterDays j = 1461 * marchYear j + 1460 := by
      have hD := marchDay_def j
      have hY := marchYear_def j
      omega
    -- only a year whose successor is divisible by four has a day 365
    have hY4 : (marchYear j - 4715) % 4 = 0 := by
      have hq : quarterDays j = 4 * (j + 1363 + omitted j) + 3 := rfl
      omega
    obtain ⟨c, hc, hc4⟩ := century_of_not_isLeap hY4 h
    exact century_turn (q := c + 48) (by omega) (by omega) hday

/-- Year and month that are counted from March, from the index of the month. -/
theorem monthIndex_march (j : ℤ) : (monthIndex j - 2) / 12 = marchYear j - 4716 ∧
    (monthIndex j - 2) % 12 = (5 * marchDay j + 2) / 153 := by
  have := marchDay_bounds j
  unfold monthIndex
  omega

/-- The start of the month of a day, in years that begin in March. -/
theorem monthStart_monthIndex (j : ℤ) : monthStart (monthIndex j) =
    yearStart (marchYear j - 4716) + (153 * ((5 * marchDay j + 2) / 153) + 2) / 5 + 1721120 := by
  obtain ⟨h₁, h₂⟩ := monthIndex_march j
  rw [monthStart, h₁, h₂]

/-- A month begins no later than its days. -/
theorem monthStart_monthIndex_le (j : ℤ) : monthStart (monthIndex j) ≤ j := by
  have hday := day_eq j
  rw [monthStart_monthIndex]
  omega

/-- The next month begins after its days. -/
theorem lt_monthStart_monthIndex_succ (j : ℤ) : j < monthStart (monthIndex j + 1) := by
  have hday := day_eq j
  have hbound := marchDay_bounds j
  obtain ⟨h₁, h₂⟩ := monthIndex_march j
  by_cases hfeb : (5 * marchDay j + 2) / 153 = 11
  · -- in February the year counted from March ends with the month
    have hlt := marchDay_lt j
    have hsucc := yearStart_succ (marchYear j - 4716)
    have h₃ : (monthIndex j + 1 - 2) / 12 = marchYear j - 4716 + 1 := by omega
    have h₄ : (monthIndex j + 1 - 2) % 12 = 0 := by omega
    rw [monthStart, h₃, h₄, hsucc]
    rw [show marchYear j - 4715 = marchYear j - 4716 + 1 by omega] at hlt
    omega
  · -- the days of the other months come before the next one of the same year
    have h₃ : (monthIndex j + 1 - 2) / 12 = marchYear j - 4716 := by omega
    have h₄ : (monthIndex j + 1 - 2) % 12 = (5 * marchDay j + 2) / 153 + 1 := by omega
    rw [monthStart, h₃, h₄]
    omega

/-! ## The calendar -/

/-- The calendar as a tiling of the days by the months. -/
def months : Tiling where
  start := monthStart
  index := monthIndex
  start_lt_succ i := by
    have := le_monthLength (i / 12) (i % 12 + 1)
    have := monthStart_succ i
    omega
  start_index_le := monthStart_monthIndex_le
  lt_start_index_succ := lt_monthStart_monthIndex_succ

@[simp] theorem months_start (i : ℤ) : months.start i = monthStart i := rfl

@[simp] theorem months_index (j : ℤ) : months.index j = monthIndex j := rfl

/-- The months are as long as the calendar says. -/
theorem months_len (i : ℤ) : months.len i = monthLength (i / 12) (i % 12 + 1) := by
  have := monthStart_succ i
  simp only [Tiling.len, months_start]
  omega

/-- The number of month `m` of year `y`. -/
def monthOf (y m : ℤ) : ℤ := 12 * y + (m - 1)

/-- The year of the index of a month. -/
theorem monthOf_div {m : ℤ} (h₁ : 1 ≤ m) (h₂ : m ≤ 12) (y : ℤ) : monthOf y m / 12 = y := by
  unfold monthOf
  omega

/-- The month of the year of the index of a month. -/
theorem monthOf_mod {m : ℤ} (h₁ : 1 ≤ m) (h₂ : m ≤ 12) (y : ℤ) : monthOf y m % 12 + 1 = m := by
  unfold monthOf
  omega

/-- A month of a year is as long as the calendar says. -/
theorem months_len_monthOf {m : ℤ} (h₁ : 1 ≤ m) (h₂ : m ≤ 12) (y : ℤ) :
    months.len (monthOf y m) = monthLength y m := by
  rw [months_len, monthOf_div h₁ h₂, monthOf_mod h₁ h₂]

/-- A year, month and day that exist in the calendar. -/
structure Valid (y m d : ℤ) : Prop where
  one_le_month : 1 ≤ m
  month_le : m ≤ 12
  one_le_day : 1 ≤ d
  day_le : d ≤ monthLength y m

instance (y m d : ℤ) : Decidable (Valid y m d) :=
  decidable_of_iff (1 ≤ m ∧ m ≤ 12 ∧ 1 ≤ d ∧ d ≤ monthLength y m)
    ⟨fun ⟨h₁, h₂, h₃, h₄⟩ => ⟨h₁, h₂, h₃, h₄⟩, fun ⟨h₁, h₂, h₃, h₄⟩ => ⟨h₁, h₂, h₃, h₄⟩⟩

/-- The day number of a date. -/
def toDay (y m d : ℤ) : ℤ := monthStart (monthOf y m) + (d - 1)

/-- The date of a day number. -/
def ofDay (j : ℤ) : ℤ × ℤ × ℤ := (monthIndex j / 12, monthIndex j % 12 + 1, months.offset j + 1)

/-- Every day has a date of the calendar. -/
theorem valid_ofDay (j : ℤ) : Valid (ofDay j).1 (ofDay j).2.1 (ofDay j).2.2 := by
  -- the day is the offset within the month's block
  have h₀ := months.offset_nonneg j
  have h₁ := months.offset_lt_len j
  rw [months_len, months_index] at h₁
  constructor
  · show 1 ≤ monthIndex j % 12 + 1
    omega
  · show monthIndex j % 12 + 1 ≤ 12
    omega
  · show 1 ≤ months.offset j + 1
    omega
  · show months.offset j + 1 ≤ _
    exact h₁

/-- The month of the date of a day. -/
theorem monthOf_ofDay (j : ℤ) : monthOf (ofDay j).1 (ofDay j).2.1 = monthIndex j := by
  show 12 * (monthIndex j / 12) + (monthIndex j % 12 + 1 - 1) = monthIndex j
  omega

/-- The date of a day is the date of no other one. -/
theorem toDay_ofDay (j : ℤ) : toDay (ofDay j).1 (ofDay j).2.1 (ofDay j).2.2 = j := by
  have h := months.start_add_offset j
  rw [toDay, monthOf_ofDay]
  show monthStart (monthIndex j) + (months.offset j + 1 - 1) = j
  simp only [months_start, months_index] at h
  omega

/-- A day by its components: they are a valid date, and give its month and offset. -/
theorem ofDay_spec (j : ℤ) : ∃ y m d, ofDay j = (y, m, d) ∧ Valid y m d ∧
    monthOf y m = monthIndex j ∧ d = months.offset j + 1 ∧ toDay y m d = j := by
  exact ⟨(ofDay j).1, (ofDay j).2.1, (ofDay j).2.2, rfl, valid_ofDay j, monthOf_ofDay j, rfl,
    toDay_ofDay j⟩

/-- What is known about the date of a day. -/
theorem of_eq_ofDay {y m d j : ℤ} (h : (y, m, d) = ofDay j) : Valid y m d ∧
    monthOf y m = monthIndex j ∧ d = months.offset j + 1 ∧ j = toDay y m d := by
  obtain ⟨y', m', d', hof, hv, hi, hd, hday⟩ := ofDay_spec j
  rw [hof, Prod.mk.injEq, Prod.mk.injEq] at h
  obtain ⟨rfl, rfl, rfl⟩ := h
  exact ⟨hv, hi, hd, hday.symm⟩

/-- The months have from 28 to 31 days. -/
theorem len_bounds (i : ℤ) : 28 ≤ months.len i ∧ months.len i ≤ 31 := by
  rw [months_len]
  exact ⟨le_monthLength _ _, monthLength_le _ _⟩

section Valid

variable {y m d : ℤ} (hv : Valid y m d)

include hv

/-- The month of a date is that of its day. -/
theorem monthIndex_toDay : monthIndex (toDay y m d) = monthOf y m := by
  have hd : d - 1 < months.len (monthOf y m) := by
    have := hv.day_le
    rw [months_len_monthOf hv.one_le_month hv.month_le]
    omega
  have hd' := hv.one_le_day
  exact months.index_start_add (by omega) hd

/-- The day of the month of a date, counted from zero. -/
theorem offset_toDay : months.offset (toDay y m d) = d - 1 := by
  unfold Tiling.offset
  rw [months_index, monthIndex_toDay hv]
  show monthStart (monthOf y m) + (d - 1) - monthStart (monthOf y m) = d - 1
  omega

/-- The day of a date has that date. -/
theorem ofDay_toDay : ofDay (toDay y m d) = (y, m, d) := by
  have h₁ := monthOf_div hv.one_le_month hv.month_le y
  have h₂ := monthOf_mod hv.one_le_month hv.month_le y
  rw [ofDay, monthIndex_toDay hv, offset_toDay hv, h₁, h₂]
  simp

/-- Day numbers are ordered as the dates they stand for. -/
theorem toDay_lt_toDay {y' m' d' : ℤ} (hv' : Valid y' m' d') :
    toDay y m d < toDay y' m' d' ↔ y < y' ∨ y = y' ∧ (m < m' ∨ m = m' ∧ d < d') := by
  have h₁ := hv.one_le_month
  have h₂ := hv.month_le
  have h₁' := hv'.one_le_month
  have h₂' := hv'.month_le
  rw [months.lt_iff, months_index, months_index, monthIndex_toDay hv, monthIndex_toDay hv',
    offset_toDay hv, offset_toDay hv']
  unfold monthOf
  omega

end Valid

/-! ## Years -/

/-- The number of days of a year. -/
def yearLength (y : ℤ) : ℤ := if IsLeap y then 366 else 365

/-- No year is empty. -/
theorem yearLength_pos (y : ℤ) : 0 < yearLength y := by
  unfold yearLength
  split <;> decide

/-- Every year has a first day. -/
theorem valid_newYear (y : ℤ) : Valid y 1 1 :=
  ⟨by decide, by decide, by decide, by have := le_monthLength y 1; omega⟩

/-- Every year has a last day. -/
theorem valid_newYearsEve (y : ℤ) : Valid y 12 31 := ⟨by decide, by decide, by decide, le_of_eq rfl⟩

/-- January is the eleventh month of the year counted from the March before. -/
theorem newYear_eq (y : ℤ) : toDay y 1 1 = yearStart (y - 1) + 1721426 := by
  have h₁ : (monthOf y 1 - 2) / 12 = y - 1 := by
    unfold monthOf
    omega
  have h₂ : (monthOf y 1 - 2) % 12 = 10 := by
    unfold monthOf
    omega
  rw [toDay, monthStart, h₁, h₂]
  omega

/-- The next year begins when this one is over. -/
theorem newYear_succ (y : ℤ) : toDay (y + 1) 1 1 = toDay y 1 1 + yearLength y := by
  have h := yearStart_succ (y - 1)
  rw [Int.sub_add_cancel] at h
  rw [newYear_eq, newYear_eq, Int.add_sub_cancel, h, yearLength]
  omega

/-- The last day of a year is the one before the next. -/
theorem newYearsEve_eq (y : ℤ) : toDay y 12 31 = toDay (y + 1) 1 1 - 1 := by
  have h := monthStart_succ (monthOf y 12)
  rw [monthOf_div (by decide) (by decide), monthOf_mod (by decide) (by decide),
    show monthOf y 12 + 1 = monthOf (y + 1) 1 by unfold monthOf; omega,
    show monthLength y 12 = 31 from rfl] at h
  rw [toDay, toDay, h]
  omega

/-- The years as blocks of days. -/
def years : Tiling where
  start y := toDay y 1 1
  index j := monthIndex j / 12
  start_lt_succ y := by
    have := yearLength_pos y
    have := newYear_succ y
    omega
  start_index_le j := by
    -- New Year is the first valid date of its year
    obtain ⟨y, m, d, -, hv, hi, -, rfl⟩ := ofDay_spec j
    rw [← hi, monthOf_div hv.one_le_month hv.month_le, ← not_lt,
      toDay_lt_toDay hv (valid_newYear y)]
    have := hv.one_le_month
    have := hv.one_le_day
    omega
  lt_start_index_succ j := by
    -- and the next New Year comes after all of them
    obtain ⟨y, m, d, -, hv, hi, -, rfl⟩ := ofDay_spec j
    rw [← hi, monthOf_div hv.one_le_month hv.month_le, toDay_lt_toDay hv (valid_newYear _)]
    exact Or.inl (by omega)

/-- The years begin on New Year's Day. -/
theorem years_start (y : ℤ) : years.start y = toDay y 1 1 := rfl

/-- The years are as long as the calendar says. -/
theorem years_len (y : ℤ) : years.len y = yearLength y := by
  have := newYear_succ y
  simp only [Tiling.len, years_start]
  omega

end Gregorian
