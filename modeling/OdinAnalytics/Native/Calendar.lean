import OdinAnalytics.Machine.Loop
import OdinAnalytics.Native.Date
import Mathlib.Data.Finset.Insert

/-!
# Holiday calendars

The `Calendar` class (`time/calendar.cpp`): a set of weekend weekdays and a set
of holidays, and the three loops that walk over business days.
-/

namespace OA.Time

open Machine

/-- Days of the week, from Monday. -/
inductive Weekdays where
  | kMonday
  | kTuesday
  | kWednesday
  | kThursday
  | kFriday
  | kSaturday
  | kSunday
deriving DecidableEq, Repr

/-- `utils::EnumToInt` of a weekday. -/
def Weekdays.toFin : Weekdays → Fin 7
  | .kMonday => 0
  | .kTuesday => 1
  | .kWednesday => 2
  | .kThursday => 3
  | .kFriday => 4
  | .kSaturday => 5
  | .kSunday => 6

/-- `ds::CalendarDataStruct`, as read from a calendar file. -/
structure CalendarDataStruct where
  listOfHolidays : List Date
  weekends : List Weekdays
  regions : String := "NONE"
deriving DecidableEq, Repr

/-- A calendar. The bits set in `std::bitset<7>` are a set of weekday numbers,
    and the `std::unordered_set<int>` a set of Julian day numbers. -/
structure Calendar where
  weekends : Finset (Fin 7) := ∅
  regions : String := ""
  holidays : Finset Int := ∅
deriving DecidableEq

namespace Calendar

/-- One turn of the loop of `Calendar::PopulateHolidays`. -/
def addRegion (cal : Calendar) (data : CalendarDataStruct) : Calendar where
  regions :=
    if cal.regions = "" then cal.regions ++ data.regions
    else cal.regions ++ "," ++ data.regions
  holidays := data.listOfHolidays.foldl (fun s d => insert d.julian s) cal.holidays
  weekends := data.weekends.foldl (fun s w => insert w.toFin s) cal.weekends

/-- `Calendar::Calendar(const std::vector<ds::CalendarDataStruct>&)`. -/
def ofData (data : List CalendarDataStruct) : Calendar := data.foldl addRegion {}

/-- `Date::GetDOWInt(int)`: Monday is zero. The remainder of a negative day
    number is negative. -/
def getDOWInt (julianDate : Int) : Int := julianDate.tmod 7

/-- `Calendar::IsHoliday(int)`. Indexing the weekend bits with a negative weekday
    number is undefined. -/
def isHoliday (cal : Calendar) (julianDate : Int) : Exec Bool :=
  if h : 0 ≤ getDOWInt julianDate ∧ getDOWInt julianDate < 7 then
    if (⟨(getDOWInt julianDate).toNat, by omega⟩ : Fin 7) ∈ cal.weekends then .ok true
    else if julianDate ∈ cal.holidays then .ok true
    else .ok false
  else .error (.undefined .indexOutOfRange)

/-- `Calendar::IsBusinessDay(int)`. -/
def isBusinessDay (cal : Calendar) (julianDate : Int) : Exec Bool := do
  return !(← cal.isHoliday julianDate)

/-- `Calendar::GetNextBusinessDay`. -/
def getNextBusinessDay (cal : Calendar) (baseDate : Date) : Comp Date := do
  let julianBaseDate ← add32 baseDate.julian 1
  let julianBaseDate ← Comp.whileLoop cal.isHoliday (fun j => add32 j 1) julianBaseDate
  return ⟨julianBaseDate⟩

/-- `Calendar::GetPrevBusinessDay`. -/
def getPrevBusinessDay (cal : Calendar) (baseDate : Date) : Comp Date := do
  let julianBaseDate ← sub32 baseDate.julian 1
  let julianBaseDate ← Comp.whileLoop cal.isHoliday (fun j => sub32 j 1) julianBaseDate
  return ⟨julianBaseDate⟩

/-- The variables of the loop of `Calendar::AddBusinessDays`. -/
structure WalkState where
  currJulDate : Int
  days : Int
deriving DecidableEq, Repr

/-- `curr_jul_date--` or `curr_jul_date++`, by the sign of `number_of_days`. -/
def nextDate (numberOfDays currJulDate : Int) : Exec Int :=
  if numberOfDays < 0 then sub32 currJulDate 1 else add32 currJulDate 1

/-- The loop body of `Calendar::AddBusinessDays`. -/
def walkStep (cal : Calendar) (numberOfDays : Int) (s : WalkState) : Exec WalkState := do
  let currJulDate ← nextDate numberOfDays s.currJulDate
  if ← cal.isBusinessDay currJulDate then
    return ⟨currJulDate, ← sub32 s.days 1⟩
  else
    return ⟨currJulDate, s.days⟩

/-- `Calendar::AddBusinessDays`. -/
def addBusinessDays (cal : Calendar) (numberOfDays : Int) (baseDate : Date) : Comp Date := do
  -- the sign picks the direction, in `walkStep`
  let days ← abs32 numberOfDays
  let s ← Comp.whileLoop (fun s => .ok (decide (s.days ≠ 0))) (cal.walkStep numberOfDays)
    ⟨baseDate.julian, days⟩
  return ⟨s.currJulDate⟩

end Calendar

end OA.Time
