import OdinAnalytics.Native.CalendarCache
import OdinAnalytics.Native.XloperConverter

/-!
# Dates in Excel cells

A cell holds a date as an Excel serial number or as text. Three readers
(`oxl/xl_api/xl_utils.h`) turn it into a `Date` or a Julian day number, one function
writes a serial number, and two exported functions (`oxl/time_xl.cpp`) ask a calendar
about the day of a cell.
-/

namespace Oxl

open Machine OA.Time

/-- `Date::kXlJulianOffSet`: the day before the first serial number. -/
def kXlJulianOffSet : Int := 2415019

namespace XlApi

/-- `ToExcelDate`. -/
def toExcelDate (date : Date) : Exec Double := do
  return .ofInt (← sub32 date.julian kXlJulianOffSet)

/-- `ToDateObj(const xloper12*)`. -/
def toDateObj (win : Win32) (date : Xloper12) : Exec Date :=
  match date with
  | .num num => do return ⟨← add32 (← num.toInt) kXlJulianOffSet⟩
  | .str str false => do Date.ofText (← lpXloperToStr win (.str str false))
  | _ => throwInvalid
      "xl_utils.h:118:ToDateObj: Invalid date was given please check the date input"

/-- `XloperToJulianInt`. -/
def xloperToJulianInt (win : Win32) (date : Xloper12) : Exec Int :=
  match date with
  | .num num => do add32 kXlJulianOffSet (← num.toInt)
  | .str str false => do
    -- the day number of the text is not a serial number, but the offset is added all the same
    add32 kXlJulianOffSet (← Date.ofText (← lpXloperToStr win (.str str false))).julian
  | _ => throwInvalid
      "xl_utils.h:140:XloperToJulianInt: Invalid date was given please check the date input"

/-- `ToDateObj(const XlVariant&)`, by the overloads of `XlVarToDateVisitor`. -/
def XlVariant.toDateObj : XlVariant → Exec Date
  | .double dateDouble => do return ⟨← add32 (← dateDouble.toInt) kXlJulianOffSet⟩
  | .string dateStr => Date.ofText dateStr
  | .bool _ => throwInvalid
      "xl_utils.h:41:operator (): Invalid date was given please check the date input"

end XlApi

open XlApi OA.StaticCache OA.Dao Atomic

/-- The calendar of the second argument of `OxlIsBizDay` and `OxlIsHolDay`. The message of
    the error names the line and the function. -/
def centersCalendar (win : Win32) (boost : Boost) (dataDir : DataDir) (site : String)
    (centers : Xloper12) : Prog CalendarCache Fault CalendarPtr :=
  match centers with
  | .str str false => do
    let centersInput ← lpXloperToStr win (.str str false)
    CalendarCache.getCalendar boost dataDir centersInput
  | _ => liftM (throwInvalid ("time_xl.cpp:" ++ site ++
      ": Invalid Centers was given please check the centers input") : Exec CalendarPtr)

/-- `OxlIsBizDay`. -/
def oxlIsBizDay (win : Win32) (boost : Boost) (dataDir : DataDir) (date centers : Xloper12) :
    Prog CalendarCache Fault Bool := do
  let dateObj ← xloperToJulianInt win date
  let centerPtr ← centersCalendar win boost dataDir "45:OxlIsBizDay" centers
  centerPtr.calendar.isBusinessDay dateObj

/-- `OxlIsHolDay`. -/
def oxlIsHolDay (win : Win32) (boost : Boost) (dataDir : DataDir) (date centers : Xloper12) :
    Prog CalendarCache Fault Bool := do
  let dateObj ← xloperToJulianInt win date
  let centerPtr ← centersCalendar win boost dataDir "64:OxlIsHolDay" centers
  centerPtr.calendar.isHoliday dateObj

end Oxl
