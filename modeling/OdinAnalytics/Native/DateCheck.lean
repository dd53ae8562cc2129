import Mathlib.Computability.RegularExpressions
import OdinAnalytics.Machine.Bytes

/-!
# Checking the text of a date

The function `CheckDateStr` (`helpers/utils.h`), which matches a whole text with the regular
expression `\d{4}[\-\/:](0?[1-9]|1[012])[\-\/:](0?[1-9]|[12][0-9]|3[01])`.
-/

namespace OA.Time

open Machine RegularExpression

/-- A class of characters. -/
def anyOf (cs : List UInt8) : RegularExpression UInt8 := cs.foldr (fun c p => char c + p) 0

/-- The characters from one to another. -/
def between (lo hi : UInt8) : RegularExpression UInt8 :=
  anyOf ((List.range' lo.toNat (hi.toNat + 1 - lo.toNat)).map UInt8.ofNat)

/-- `p?`. -/
def optional (p : RegularExpression UInt8) : RegularExpression UInt8 := 1 + p

/-- `\d`. -/
def digitClass : RegularExpression UInt8 := between 48 57

/-- `[\-\/:]`. -/
def delimClass : RegularExpression UInt8 := anyOf [45, 47, 58]

/-- `0?[1-9]|1[012]`. -/
def monthPattern : RegularExpression UInt8 :=
  optional (char 48) * between 49 57 + char 49 * between 48 50

/-- `0?[1-9]|[12][0-9]|3[01]`. -/
def dayPattern : RegularExpression UInt8 :=
  optional (char 48) * between 49 57 + between 49 50 * between 48 57 + char 51 * between 48 49

/-- The regular expression of `CheckDateStr`. -/
def dateStr : RegularExpression UInt8 :=
  digitClass * digitClass * digitClass * digitClass * (delimClass * (monthPattern *
    (delimClass * dayPattern)))

/-- `oa::utils::CheckDateStr`. -/
def checkDateStr (inputString : Bytes) : Bool := dateStr.rmatch inputString

end OA.Time
