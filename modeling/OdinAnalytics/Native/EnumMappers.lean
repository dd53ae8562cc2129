import OdinAnalytics.Native.CashflowGen
import OdinAnalytics.Native.DateAdjust
import OdinAnalytics.Machine.Bytes

/-!
# Names of conventions

The texts that a user may give for a day count, an adjustment rule, a direction, a
frequency, a stub or a calculation type (`time/time_enum_mappers.cpp`,
`derived_time/derived_time_enum_mappers.cpp`), and the names that are shown
(`helpers/utils.h`).
-/

namespace OA

open Machine

/-- `oa::to_upper`. -/
def toUpper (c : UInt8) : UInt8 := if 97 ≤ c ∧ c ≤ 122 then c - 97 + 65 else c

/-- A `std::unordered_map` from names. Of two entries of one name the first one stays. -/
def findName {α : Type} (map : List (String × α)) (key : Bytes) : Option α :=
  (map.find? fun entry => bytes entry.1 = key).map Prod.snd

/-- What every `MapInputTo...` does: look the input up in upper case, or throw. -/
def mapInput {α : Type} (map : List (String × α)) (site what : String) (inputStr : Bytes) :
    Exec α :=
  match findName map (inputStr.map toUpper) with
  | some value => .ok value
  | none => throwInvalid (site ++ ": " ++ text inputStr ++ " is not a valid " ++ what)

namespace Time

/-- `TimeEnumMap`. -/
def timeEnumMap : List (String × DayCountRule) :=
  [("ACT/360", .kACT_360), ("ACT:360", .kACT_360), ("ACT_360", .kACT_360), ("ACT360", .kACT_360),
    ("30E/360", .k30_E_360_ISDA), ("30E:360", .k30_E_360_ISDA), ("30E_360", .k30_E_360_ISDA),
    ("30E360", .k30_E_360_ISDA), ("30/360", .k30_360_BOND_BASIS),
    ("30:360", .k30_360_BOND_BASIS), ("30_360", .k30_360_BOND_BASIS),
    ("30360", .k30_360_BOND_BASIS), ("30E/360EURO", .k30_360_E_EUROBOND),
    ("30E:360EURO", .k30_360_E_EUROBOND), ("30E_360EURO", .k30_360_E_EUROBOND),
    ("30E360EURO", .k30_360_E_EUROBOND), ("ACT/365", .kACT_365_FIXED),
    ("ACT:365", .kACT_365_FIXED), ("ACT_365", .kACT_365_FIXED), ("ACT365", .kACT_365_FIXED),
    ("act/365", .kACT_365_FIXED), ("act:365", .kACT_365_FIXED), ("act_365", .kACT_365_FIXED),
    ("act365", .kACT_365_FIXED), ("ACT:ACT", .kACT_ACT), ("ACT_ACT", .kACT_ACT),
    -- two of the spellings are listed twice
    ("ACT/ACT", .kACT_ACT), ("ACT:ACT", .kACT_ACT), ("ACT_ACT", .kACT_ACT),
    ("ACTACT", .kACT_ACT)]

/-- `DateAdjustMap`. -/
def dateAdjustMap : List (String × AdjRule) :=
  [("MF", .kModifiedFollowing), ("MODIFIEDFOLLOWING", .kModifiedFollowing),
    ("MODIFIED_FOLLOWING", .kModifiedFollowing), ("MODF", .kModifiedFollowing),
    ("MFOL", .kModifiedFollowing), ("P", .kPreceding), ("PRECEDING", .kPreceding),
    ("PRE", .kPreceding), ("F", .kFollowing), ("FOLLOWING", .kFollowing), ("FOL", .kFollowing),
    ("NOADJ", .kPlainAdjustment), ("NO_ADJ", .kPlainAdjustment), ("NONE", .kPlainAdjustment)]

-- the messages of both functions speak of a stub type

/-- `MapInputToDayCountEnum`. -/
def mapInputToDayCountEnum : Bytes → Exec DayCountRule :=
  mapInput timeEnumMap "time_enum_mappers.cpp:97:MapInputToDayCountEnum" "Stub Type"

/-- `MapInputToDayAdjustEnum`. -/
def mapInputToDayAdjustEnum : Bytes → Exec AdjRule :=
  mapInput dateAdjustMap "time_enum_mappers.cpp:123:MapInputToDayAdjustEnum" "Stub Type"

end Time

namespace DerivedTime

/-- `DateDirectionMap`. -/
def dateDirectionMap : List (String × DateDirection) :=
  [("FWD", .kForward), ("FORWARD", .kForward), ("BCKWD", .kBackward), ("BACKWARD", .kBackward),
    ("BACKWARDS", .kBackward)]

/-- `FreqMap`. -/
def freqMap : List (String × Frequency) :=
  [("ONCE", .kOnce), ("O", .kOnce), ("A", .kAnnual), ("ANNUAL", .kAnnual), ("SA", .kSemiAnnual),
    ("SEMIANNUAL", .kSemiAnnual), ("Q", .kQuarterly), ("QUARTERLY", .kQuarterly),
    ("M", .kMonthly), ("MONTHLY", .kMonthly), ("W", .kWeekly), ("WEEKLY", .kWeekly),
    ("D", .kDaily), ("DAILY", .kDaily)]

/-- `CFStubMap`. -/
def cfStubMap : List (String × StubType) :=
  [("NONE", .kNone), ("N", .kNone), ("SF", .kShortFirst), ("SHORTFIRST", .kShortFirst),
    ("LF", .kLongFirst), ("LONGFIRST", .kLongFirst), ("SL", .kShortLast),
    ("SHORTLAST", .kShortLast), ("LL", .kLongLast), ("LONGLAST", .kLongLast)]

/-- `CalcTypeMap`. -/
def calcTypeMap : List (String × CalcType) :=
  [("FLAT", .kFlat), ("BBG1", .kBBGCalcType1), ("BBG2", .kBBGCalcType2),
    ("USTSTREETCONV", .kUSTStreetConv)]

/-- `MapInputToDateDir`. -/
def mapInputToDateDir : Bytes → Exec DateDirection :=
  mapInput dateDirectionMap "derived_time_enum_mappers.cpp:43:MapInputToDateDir"
    "Date Direction convention"

/-- `MapInputToFreq`. -/
def mapInputToFreq : Bytes → Exec Frequency :=
  mapInput freqMap "derived_time_enum_mappers.cpp:90:MapInputToFreq" "Frequency convention"

/-- `MapInputToStub`. -/
def mapInputToStub : Bytes → Exec StubType :=
  mapInput cfStubMap "derived_time_enum_mappers.cpp:131:MapInputToStub" "Stub Type"

/-- `MapInputToCalcType`. -/
def mapInputToCalcType : Bytes → Exec CalcType :=
  mapInput calcTypeMap "derived_time_enum_mappers.cpp:164:MapInputToCalcType" "Calc Type"

/-! ## Names that are shown -/

/-- `utils::GetCleanName` of a currency. -/
def Currency.cleanName : Currency → String
  | .kUSD => "USD"
  | .kEUR => "EUR"
  | .kGBP => "GBP"
  | .kJPY => "JPY"
  | .kCHF => "CHF"
  | .kAUD => "AUD"
  | .kCAD => "CAD"
  | .kNZD => "NZD"
  | .kCNY => "CNY"
  | .kINR => "INR"

/-- `utils::GetCleanName` of a type of cash flow. -/
def CashflowType.cleanName : CashflowType → String
  | .kFixed => "Fixed"
  | .kFloating => "Floating"
  | .kPrincipal => "Principal"
  | .kEquity => "Equity"

end DerivedTime

end OA
