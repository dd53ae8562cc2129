import OdinAnalytics.Lib.Decimal
import OdinAnalytics.Machine.Bytes
import OdinAnalytics.Native.Date

/-!
# Dates as text

The scanner behind `Date(std::string_view)` and the stream output of a date
(`time/date.cpp`), with the digit conversion of `oa/string.h`. A text is scanned
from the left, and each field takes the digits up to the first other byte.
-/

namespace OA.Time

open Machine Decimal

/-- `v << 3` of an `int`, which keeps the low 32 bits. -/
def shl3 (v : Int) : Int := (8 * v).bmod 4294967296

/-- `oa::to<int>(it, end, unsafe)`: no check that the bytes are digits. -/
def toInt (digits : Bytes) : Exec Int :=
  -- chomp any leading zeros
  (digits.dropWhile (· = 48)).foldlM (fun v c => do
    let v ← add32 (← add32 (shl3 v) v) v
    add32 v ((c.toNat : Int) - 48)) 0

namespace Date

/-! ## Scanning -/

/-- A valid date delimiter: one of `/`, `-` and `:`. -/
def isDelim (c : UInt8) : Bool := c = 47 || c = 45 || c = 58

/-- The year of `Date::YMD(std::string_view)`, the delimiter after it and the rest. -/
def scanYear (ymd : Bytes) : Exec (Int × UInt8 × Bytes) :=
  let (field, rest) := ymd.span isDigit
  if field = [] then throwRuntime "date missing year component"
  else if field.length ≠ 4 then throwRuntime "date year field must be 4 characters wide"
  else match rest with
    | [] => throwRuntime "date string truncated (no month)"
    | delim :: rest =>
      if !isDelim delim then throwRuntime "encountered invalid year delimiter"
      else do return (← toInt field, delim, rest)

/-- The month of `Date::YMD(std::string_view)`, and the rest after its delimiter. -/
def scanMonth (delim : UInt8) (ymd : Bytes) : Exec (Int × Bytes) :=
  let (field, rest) := ymd.span isDigit
  if field = [] then throwRuntime "date missing month component"
  else if field.length > 2 then throwRuntime "date month field must be <=2 characters wide"
  else match rest with
    | [] => throwRuntime "date string truncated (no day)"
    | c :: rest =>
      if c ≠ delim then throwRuntime "encountered invalid/inconsistent month delimiter"
      else do return (← toInt field, rest)

/-- The day of `Date::YMD(std::string_view)`, which ends the text. -/
def scanDay (ymd : Bytes) : Exec Int :=
  let (field, rest) := ymd.span isDigit
  if field = [] then throwRuntime "date missing day component"
  else if field.length > 2 then throwRuntime "date month field must be <=2 characters wide"
  else if rest ≠ [] then throwRuntime "date string contains extra characters"
  else toInt field

/-- `Date::YMD(std::string_view)`. -/
def ymdOfText (ymd : Bytes) : Exec YearMonthDay := do
  let (y, delim, rest) ← scanYear ymd
  let (m, rest) ← scanMonth delim rest
  let d ← scanDay rest
  let invalid : Exec Unit := throwRuntime ("invalid day number " ++ toString d)
  if d = 0 then invalid
  else if d > (← daysInMonth y m) then invalid
  return (y, m, d)

/-- `Date::Date(std::string_view)`. -/
def ofText (ymd : Bytes) : Exec Date := do
  let (y, m, d) ← ymdOfText ymd
  return ⟨← convertToJulian y m d⟩

/-! ## Printing -/

/-- `std::setw(width) << n` with the fill character `'0'`, which goes before the sign. -/
def setw (width : Nat) (n : Int) : Bytes := (reprInt n).leftpad width 48

/-- `operator<<(std::ostream&, const Date&)`: what is written to the stream. -/
def print (date : Date) : Exec Bytes := do
  let (y, m, d) ← date.gregorian
  return setw 4 y ++ bytes "-" ++ setw 2 m ++ bytes "-" ++ setw 2 d

end Date

end OA.Time
