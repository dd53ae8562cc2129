import OdinAnalytics.Native.Calendar
import OdinAnalytics.Native.DateText

/-!
# Calendar files

`CalendarDao::GetCalendarData` (`dao/calendar_dao.cpp`) reads the weekends and
holidays of a region from its file. The file system is a `DataDir`: what is found
under the name of each region.
-/

namespace OA.Dao

open Machine Time

/-- What is found in place of the calendar file of a region. -/
inductive CalendarFile where
  /-- No regular file has the name. -/
  | missing
  /-- There is a file, but it cannot be opened. -/
  | closed
  | contents (bytes : Bytes)
deriving DecidableEq, Repr

/-- The directory of the calendar files, by region. -/
abbrev DataDir := Bytes → CalendarFile

/-! ## Lines -/

/-- The lines that `std::getline` delivers. A newline ends the last line or is missing. -/
def fileLines (contents : Bytes) : List Bytes :=
  let pieces := contents.splitOn 10
  if pieces.getLast? = some [] then pieces.dropLast else pieces

/-- `file_line` after a `std::getline` that finds no further line: it is cleared, unless
    the end of the file had been met while reading the last line. -/
def lineAtEnd (contents fileLine : Bytes) : Bytes :=
  if contents.getLast? = some 10 then [] else fileLine

/-- `oa::utils::str_utils::StrToDigits`. -/
def strToDigits (str : Bytes) : Exec (List Int) :=
  if str.all Decimal.isDigit then .ok (str.map fun c => (c.toNat : Int) - 48)
  else throwRuntime "input string contains non-digit characters"

/-- `oa::utils::ValueToEnum` for the weekdays. -/
def valueToWeekdays : Int → Exec Weekdays
  | 0 => .ok .kMonday
  | 1 => .ok .kTuesday
  | 2 => .ok .kWednesday
  | 3 => .ok .kThursday
  | 4 => .ok .kFriday
  | 5 => .ok .kSaturday
  | 6 => .ok .kSunday
  | _ => .error (.throws (.text "invalid enum please check the given enum "))

/-- The weekends of the line after `#Weekend`. -/
def readWeekends (region fileLine : Bytes) : Exec (List Weekdays) := do
  (← strToDigits fileLine).mapM fun weekendInteger =>
    if weekendInteger > -1 ∧ weekendInteger < 7 then valueToWeekdays weekendInteger
    else throwRuntime (text region ++ ".hol has an invalid weekend integer " ++ text fileLine ++
      ":calendar_dao.cpp line 52 GetCalendarData()")

/-- The loop over the lines in `CalendarDao::GetCalendarData`. -/
def readLines (region contents : Bytes) (data : CalendarDataStruct) :
    List Bytes → Exec CalendarDataStruct
  | [] => .ok data
  | fileLine :: rest =>
    if fileLine = bytes "#Weekend" then
      match rest with
      | [] => do
        let weekends ← readWeekends region (lineAtEnd contents fileLine)
        return { data with weekends := data.weekends ++ weekends }
      | next :: rest => do
        let weekends ← readWeekends region next
        readLines region contents { data with weekends := data.weekends ++ weekends } rest
    else if fileLine = bytes "# Holidays" then do
      -- every line to the end of the file is a holiday
      let holidays ← rest.mapM Date.ofText
      return { data with listOfHolidays := data.listOfHolidays ++ holidays }
    else readLines region contents data rest

/-- `CalendarDao::GetCalendarData`. -/
def getCalendarData (dataDir : DataDir) (region : Bytes) : Exec CalendarDataStruct :=
  match dataDir region with
  | .missing => throwInvalid ("File not found " ++ text region ++
      ".hol:calendar_dao.cpp line 22 GetCalendarData()")
  | .closed => throwRuntime ("Calendar file cannot be open " ++ text region ++
      ".hol:calendar_dao.cpp line 31 GetCalendarData()")
  | .contents contents => do
    let data ← readLines region contents ⟨[], [], "NONE"⟩ (fileLines contents)
    return { data with regions := text region }

end OA.Dao
