import OdinAnalytics.Native.Tenor
import Mathlib.Order.Lattice
import Mathlib.Data.Int.Order.Basic

/-!
# Dates

The `Date` class (`time/date.cpp`): a Julian day number, its conversion from and
to Gregorian components, and tenor arithmetic. Division is C++'s truncating one
(`Int.tdiv`, `Int.tmod`); the divisors are nonzero constants, so only the other
operations are checked for overflow.
-/

namespace OA.Time

open Machine

/-- A date, held as a single Julian day number. -/
structure Date where
  julian : Int := 0
deriving DecidableEq, Repr

/-- The defaulted three-way comparison orders dates by Julian day number. -/
instance : LinearOrder Date := LinearOrder.lift' Date.julian fun a b h => by
  cases a
  cases b
  simpa using h

/-- Gregorian year, month and day. -/
abbrev YearMonthDay := Int × Int × Int

namespace Date

/-- Dates are compared by their Julian day numbers. -/
theorem lt_def {a b : Date} : a < b ↔ a.julian < b.julian := Iff.rfl

/-- `Date::operator bool`: whether the date is not the default one. -/
def isSet (date : Date) : Bool := date.julian ≠ 0

/-- `Date::value_or`: a default-constructed date stands for an absent one. -/
def valueOr (date other : Date) : Date := if date.isSet then date else other

/-! ## Gregorian conversion -/

/-- `Date::YMD(int)`, by the Richards algorithm. -/
def ymd (julianDay : Int) : Exec YearMonthDay := do
  let y := 4716; let j := 1401; let m := 2; let n := 12; let r := 4; let p := 1461
  let v := 3; let u := 5; let s := 153; let w := 2; let B := 274277; let C := -38
  -- 146097 days are four centuries, 1461 days four years and 153 days five months
  let a := (← add32 (← mul32 4 julianDay) B).tdiv 146097
  let f ← add32 (← add32 (← add32 julianDay j) ((← mul32 a 3).tdiv 4)) C
  let e ← add32 (← mul32 r f) v
  let g := (e.tmod p).tdiv r
  let h ← add32 (← mul32 u g) w
  let computedDays ← add32 ((h.tmod s).tdiv u) 1
  let computedMonths ← add32 ((← add32 (h.tdiv s) m).tmod n) 1
  let computedYears ←
    add32 (← sub32 (e.tdiv p) y) ((← sub32 (← add32 n m) computedMonths).tdiv n)
  return (computedYears, computedMonths, computedDays)

/-- `Date::ConvertToJulian`. -/
def convertToJulian (year month day : Int) : Exec Int := do
  -- -1 in January and February, which count to the year before
  let a := (← sub32 month 14).tdiv 12
  let x := (← mul32 1461 (← add32 (← add32 year 4800) a)).tdiv 4
  let y := (← mul32 367 (← sub32 (← sub32 month 2) (← mul32 12 a))).tdiv 12
  let z := (← mul32 3 ((← add32 (← add32 year 4900) a).tdiv 100)).tdiv 4
  sub32 (← add32 (← sub32 (← add32 x y) z) day) 32075

/-- `Date::IsLeap(int)`. -/
def isLeap (year : Int) : Bool :=
  (year.tmod 4 == 0 && year.tmod 100 != 0) || year.tmod 400 == 0

/-- `Date::DaysInMonth`. -/
def daysInMonth (year month : Int) : Exec Int :=
  if month < 1 ∨ month > 12 then
    .error (.throws (.runtimeError "month must be in the range [1, 12]"))
  else if month = 2 then
    .ok (if isLeap year then 29 else 28)
  else if month = 4 ∨ month = 6 ∨ month = 9 ∨ month = 11 then
    .ok 30
  else
    .ok 31

/-- `Date::Date(int, int, int)`. A zero day is rejected before the month is looked at. -/
def ofYmd (year month day : Int) : Exec Date := do
  let invalid : Exec Unit :=
    .error (.throws (.runtimeError ("invalid day number " ++ toString day)))
  if day = 0 then invalid
  else if day > (← daysInMonth year month) then invalid
  return ⟨← convertToJulian year month day⟩

/-- `Date::gregorian`. -/
def gregorian (date : Date) : Exec YearMonthDay := ymd date.julian

/-- `Date::year`. -/
def year (date : Date) : Exec Int := do return (← date.gregorian).1

/-- `Date::month`. -/
def month (date : Date) : Exec Int := do return (← date.gregorian).2.1

/-- `Date::IsLeap()`. -/
def inLeapYear (date : Date) : Exec Bool := do return isLeap (← date.year)

/-- `Date::ToString`. -/
def toText (date : Date) : Exec String := do
  let (y, m, d) ← ymd date.julian
  return s!"{y}-{m}-{d} : Julian Integer = {date.julian}"

/-! ## Tenor arithmetic -/

/-- `Date::AddDays`, and `operator+(const Date&, int)`. -/
def addDays (date : Date) (days : Int) : Exec Date := do
  return ⟨← add32 date.julian days⟩

/-- `Date::AddWeeks`. -/
def addWeeks (date : Date) (weeks : Int) : Exec Date := do
  return ⟨← add32 date.julian (← mul32 7 weeks)⟩

/-- The year and month of `Date::AddMonths`, before the day is clamped. -/
def newYearMonth (year month months : Int) : Exec (Int × Int) := do
  let total ← add32 month months
  let newYear ← add32 year (total.tdiv 12)
  let newMonth := total.tmod 12
  if months > 0 then
    -- landing in December, as the year count ends up being incremented
    if newMonth ≤ 0 then
      return (← sub32 newYear 1, ← add32 newMonth 12)
    else
      return (newYear, newMonth)
  else
    let newYear ← if newMonth < 1 then add32 newYear (-1) else pure newYear
    -- check for when we add negative dates
    let newMonth ← if newMonth ≤ 0 then add32 newMonth 12 else pure newMonth
    return (newYear, newMonth)

/-- `Date::AddMonths`. -/
def addMonths (date : Date) (months : Int) : Exec Date := do
  let (year, month, day) ← ymd date.julian
  let (newYear, newMonth) ← newYearMonth year month months
  let last ← daysInMonth newYear newMonth
  ofYmd newYear newMonth (if day > last then last else day)

/-- `Date::AddYears`. -/
def addYears (date : Date) (years : Int) : Exec Date := do
  let (year, month, day) ← ymd date.julian
  let year ← add32 year years
  let day ←
    -- only the 29th of February can be missing from another year
    if isLeap year = false ∧ month = 2 then do
      let monthDays ← daysInMonth year month
      pure (if day > monthDays then monthDays else day)
    else pure day
  ofYmd year month day

/-- `Date::operator+(const Tenor&)`, and `Date::AddTenor`. -/
def addTenor (date : Date) (tenor : Tenor) : Exec Date :=
  match tenor.unit with
  | .kDays => date.addDays tenor.count
  | .kWeeks => date.addWeeks tenor.count
  | .kMonths => date.addMonths tenor.count
  | .kYears => date.addYears tenor.count

/-- `Date::operator-(const Tenor&)`, and `Date::SubTenor`. -/
def subTenor (date : Date) (tenor : Tenor) : Exec Date := do
  date.addTenor (← tenor.neg)

end Date

end OA.Time
