import OdinAnalytics.Native.DateFormula
import OdinAnalytics.Native.ExcelBase

/-!
# The functions behind the exported ones

What the exported functions compute (`oxl/time_xl.cpp`): day counts, adjusted dates and
cash flows. A `double` is added, multiplied, divided and negated by operations that
nothing is assumed about.
-/

namespace Oxl

open Machine Atomic OA OA.Time OA.DerivedTime OA.StaticCache OA.Dao XlApi

/-! ## Day counts -/

section DayCounts

variable [Add Double] [Div Double] [Neg Double]

/-- The day counter of a text. The factory has none for a rule that it does not know. -/
def dayCountRuleOf (win : Win32) (businessDayCount : Xloper12) :
    Exec (Option (DayCounterBase Double)) := do
  let bizDayCount ← lpXloperToStr win businessDayCount
  return generateDayCounter (← mapInputToDayCountEnum bizDayCount)

/-- `OxlComputeDayCount`. -/
def oxlComputeDayCount (win : Win32) (startDate endDate businessDayCount : Xloper12) :
    Exec Int := do
  let startDateObj ← toDateObj win startDate
  let endDateObj ← toDateObj win endDate
  let dayCountRule ← deref (← dayCountRuleOf win businessDayCount)
  dayCountRule.dayCount startDateObj endDateObj

/-- `OxlComputeYearFraction`. -/
def oxlComputeYearFraction (win : Win32) (startDate endDate businessDayCount : Xloper12) :
    Comp Double := do
  let startDateObj ← toDateObj win startDate
  let endDateObj ← toDateObj win endDate
  let dayCountRule ← deref (← dayCountRuleOf win businessDayCount)
  dayCountRule.yearFraction startDateObj endDateObj

end DayCounts

/-! ## Dates -/

/-- `OxlComputeDate`. -/
def oxlComputeDate (boost : Boost) (dataDir : DataDir) (dictionary : XlDictionary) :
    Action Caches Double := do
  let baseDate ← (← dictionary.get (bytes "Base_Date")).toDateObj
  let tenor ← (← dictionary.get (bytes "Tenor")).getString
  let adjRule ← (← dictionary.get (bytes "Adjustment_Rule")).getString
  let calendar ← (← dictionary.get (bytes "Calendar")).getString
  let dateFormula ← Caches.onCalendars (DateFormula.ofTexts boost dataDir tenor adjRule calendar)
  let date ← Action.ofComp (dateFormula.adjust baseDate)
  Action.lift (toExcelDate date)

/-- `OxlAddBusinessDays`. -/
def oxlAddBusinessDays (boost : Boost) (dataDir : DataDir) (dictionary : XlDictionary) :
    Action Caches Double := do
  let baseDate ← (← dictionary.get (bytes "Base_Date")).toDateObj
  let numOfDays ← (← (← dictionary.get (bytes "Days")).getDouble).toInt
  let calendar ← (← dictionary.get (bytes "Calendar")).getString
  let dateFormula ← businessDateFormula boost dataDir numOfDays calendar
  let date ← Action.ofComp (dateFormula.adjust baseDate)
  Action.lift (toExcelDate date)

/-! ## Cash flows -/

/-- The reset frequency: a tenor, or the name of a frequency. -/
def freqOf (freqTenorStr : Bytes) : Exec Tenor :=
  if checkTenorStr (text freqTenorStr) then Tenor.ofString (text freqTenorStr)
  else do mapResetFreqEnumToTenor (← mapInputToFreq freqTenorStr)

/-- A stub type that the dictionary may hold. -/
def stubOf (dictionary : XlDictionary) (key : String) : Exec StubType :=
  if dictionary.contains (bytes key) then do
    mapInputToStub (← (← dictionary.get (bytes key)).getString)
  else .ok .kNone

/-- A business date rule that the dictionary may refer to. -/
def ruleOf (boost : Boost) (dataDir : DataDir) (dictionary : XlDictionary) (key : String) :
    Action Caches BusinessDateFormula :=
  if dictionary.contains (bytes key) then
    getBusinessDateFormulaFromDict boost dataDir dictionary key
  else return {}

/-- The rules of the start and the end dates. -/
def accrualRulesOf (boost : Boost) (dataDir : DataDir) (dictionary : XlDictionary) :
    Action Caches (BusinessDateFormula × BusinessDateFormula) :=
  if dictionary.contains (bytes "Acc_Adj_Rule") then do
    -- the same rule for both, which is read twice
    let startAdj ← getBusinessDateFormulaFromDict boost dataDir dictionary "Acc_Adj_Rule"
    let endAdj ← getBusinessDateFormulaFromDict boost dataDir dictionary "Acc_Adj_Rule"
    return (startAdj, endAdj)
  else do
    let endAdj ← ruleOf boost dataDir dictionary "End_Adj_Rule"
    let startAdj ← ruleOf boost dataDir dictionary "Start_Adj_Rule"
    return (startAdj, endAdj)

/-- The options that a dictionary asks for, once the direction is known. -/
def cashflowOptions (boost : Boost) (dataDir : DataDir) (dictionary : XlDictionary)
    (dateDir : DateDirection) : Action Caches Options := do
  let frontStubType ← stubOf dictionary "Front_Stub_Type"
  let backStubType ← stubOf dictionary "Back_Stub_Type"
  let fixAdj ← ruleOf boost dataDir dictionary "Fixing_Date_Rule"
  let payAdj ← ruleOf boost dataDir dictionary "Payment_Date_Rule"
  let (startAdj, endAdj) ← accrualRulesOf boost dataDir dictionary
  -- without the entry the coupons are flat
  let calcType ←
    if dictionary.contains (bytes "Calc_Type") then do
      Action.lift (mapInputToCalcType (← (← dictionary.get (bytes "Calc_Type")).getString))
    else pure .kFlat
  return {
    calcType := calcType
    dateDir := dateDir
    frontStubType := frontStubType
    backStubType := backStubType
    startAdj := startAdj
    endAdj := endAdj
    payAdj := payAdj
    fixAdj := fixAdj }

/-- The table that stands for a dictionary without the required keys. -/
def invalidDictionary : XlVariant :=
  .string (bytes ("Invalid Dictionary. Required: Start_Date, Mat_Date, Notional, Rate, " ++
    "Day_Count_Frac, Date_Dir, Front/Back_Stub_Type, and Frequency!"))

/-- `OxlGenerateCashflow`. -/
def oxlGenerateCashflow [Add Double] [Mul Double] [Div Double] [Neg Double] (boost : Boost)
    (dataDir : DataDir) (dictionary : XlDictionary) : Action Caches XlArray :=
  if validCashflowGenDictionary dictionary then do
    let startDate ← (← dictionary.get (bytes "Start_Date")).toDateObj
    let matDate ← handleMatDate dictionary
    let notional ← (← dictionary.get (bytes "Notional")).getDouble
    let rate ← (← dictionary.get (bytes "Rate")).getDouble
    let dayCntFrac ←
      mapInputToDayCountEnum (← (← dictionary.get (bytes "Day_Count_Frac")).getString)
    let freq ← freqOf (← (← dictionary.get (bytes "Frequency")).getString)
    let dateDir ← mapInputToDateDir (← (← dictionary.get (bytes "Date_Dir")).getString)
    let opt ← cashflowOptions boost dataDir dictionary dateDir
    let cfResults ←
      Action.ofComp (createFixedCashflows startDate matDate freq notional rate dayCntFrac opt)
    Action.lift (convertCFStructToXlArray cfResults .kFixed)
  -- a dictionary that lacks an entry is answered by a text, not by an error
  else Action.lift (XlArray.ofRows [[invalidDictionary]])

end Oxl
