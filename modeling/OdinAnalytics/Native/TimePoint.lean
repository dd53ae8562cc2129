import OdinAnalytics.Lib.Gregorian
import OdinAnalytics.Native.Date

/-!
# Dates and time points

`Date::ConvertToTimePt` and the constructor from a `std::chrono` time point
(`time/date.cpp`). What they call of the C library is a `SystemTime`: `mktime`
reads its argument as local time, `gmtime` gives the date in UTC, and the system
clock counts ticks from the epoch.
-/

namespace OA.Time

open Machine

/-- The fields of `std::tm` that the source reads or sets. -/
structure Tm where
  tmYear : Int
  tmMon : Int
  tmMday : Int
  tmHour : Int := 0
  tmMin : Int := 0
  tmSec : Int := 0
  tmIsdst : Int := 0
deriving DecidableEq, Repr

/-- The Julian day number of the epoch, 1970-01-01. -/
def epochDay : Int := 2440588

/-- The seconds from the epoch to a broken-down time, both on the same clock. Fields
    out of their range are carried over. -/
def Tm.seconds (tm : Tm) : Int :=
  86400 * (Gregorian.toDay (1900 + tm.tmYear) (1 + tm.tmMon) tm.tmMday - epochDay) +
    3600 * tm.tmHour + 60 * tm.tmMin + tm.tmSec

/-- The C library and the system clock of a machine. -/
structure SystemTime where
  /-- The UTC offset in seconds, positive in the east, that `mktime` applies to a local
      time, given in seconds from the local epoch. -/
  utcOffset : Int → Int
  /-- The time values that `mktime` can return and the system clock can hold. -/
  holds : Int → Bool
  /-- The ticks of the system clock in a second. -/
  ticks : Int
  ticks_pos : 0 < ticks
  /-- An offset stays under two days, daylight saving included. -/
  utcOffset_bounds : ∀ s, -172800 ≤ utcOffset s ∧ utcOffset s ≤ 172800
  /-- 64-bit nanoseconds, and the years of `mktime` on Windows, end well before this. -/
  holds_bounds : ∀ t, holds t = true → -100000000000 ≤ t ∧ t ≤ 100000000000

namespace SystemTime

variable (sys : SystemTime)

/-- The time value of a local time, before it is checked to be representable. -/
def timeValue (tm : Tm) : Int := tm.seconds - sys.utcOffset tm.seconds

/-- `std::mktime`, which returns -1 for a time it cannot represent. -/
def mktime (tm : Tm) : Int := if sys.holds (sys.timeValue tm) then sys.timeValue tm else -1

/-- `std::gmtime`: the broken-down time of a time value in UTC. -/
def gmtime (t : Int) : Tm :=
  let (y, m, d) := Gregorian.ofDay (epochDay + t / 86400)
  ⟨y - 1900, m - 1, d, t % 86400 / 3600, t % 3600 / 60, t % 60, 0⟩

/-- `std::chrono::system_clock::from_time_t`. -/
def fromTimeT (t : Int) : Int := t * sys.ticks

/-- `std::chrono::system_clock::to_time_t`. -/
def toTimeT (tp : Int) : Int := tp.tdiv sys.ticks

end SystemTime

namespace Date

variable (sys : SystemTime)

/-- The `std::tm` that `Date::ConvertToTimePt` fills in: midnight, with daylight
    saving left to `mktime`. -/
def midnight (date : Date) : Exec Tm := do
  let (y, m, d) ← ymd date.julian
  return ⟨← sub32 y 1900, ← sub32 m 1, d, 0, 0, 0, -1⟩

/-- `Date::ConvertToTimePt`: the ticks of the time point. -/
def convertToTimePt (date : Date) : Exec Int := do
  return sys.fromTimeT (sys.mktime (← date.midnight))

/-- `Date::YMD(const time_point&)`. -/
def ymdOfTimePoint (tp : Int) : Exec YearMonthDay := do
  let tm := SystemTime.gmtime (sys.toTimeT tp)
  return (← add32 1900 tm.tmYear, ← add32 1 tm.tmMon, tm.tmMday)

/-- `Date::Date(const time_point&)`. -/
def ofTimePoint (tp : Int) : Exec Date := do
  let (y, m, d) ← ymdOfTimePoint sys tp
  return ⟨← convertToJulian y m d⟩

end Date

end OA.Time
