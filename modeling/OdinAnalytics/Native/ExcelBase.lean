import OdinAnalytics.Machine.Action
import OdinAnalytics.Native.CacheXlObj
import OdinAnalytics.Native.EnumMappers
import OdinAnalytics.Native.XlDictionary
import OdinAnalytics.Native.XlUtils

/-!
# Dictionaries that describe a calculation

What a dictionary must hold, the business date rules that it refers to by handles, and
the table of the cash flows (`oxl/xl_api/excel_base.cpp`, `oxl/excel_base_funcs.cpp`).
-/

namespace Oxl

open Machine Atomic OA OA.Time OA.DerivedTime OA.StaticCache OA.Dao XlApi

/-- What the add-in remembers from one call to the next. -/
structure Caches where
  /-- The map of `XlCacheObj`. -/
  objects : CacheMap XlArray XlDictionary := fun _ => none
  /-- The one `CalendarCache`. -/
  calendars : CalendarCache := {}

namespace Caches

/-- A part that works on the object cache. -/
def onObjects {α : Type} (p : Prog (CacheMap XlArray XlDictionary) Fault α) : Action Caches α :=
  .within Caches.objects (fun caches objects => { caches with objects := objects }) (.ofProg p)

/-- A part that works on the calendar cache. -/
def onCalendars {α : Type} (p : Prog CalendarCache Fault α) : Action Caches α :=
  .within Caches.calendars (fun caches calendars => { caches with calendars := calendars })
    (.ofProg p)

end Caches

namespace XlApi

/-! ## The table of the cash flows -/

/-- The header of the table. -/
def cashflowHeader : List XlVariant :=
  ["Unadj_Start_Date", "Unadj_End_Date", "Start_Date", "End_Date", "Fixing_Date",
    "Payment_Date", "Notional", "Rate", "Fwd_Cashflow_PV", "Cashflow_NPV", "Day_Count",
    "Day_Count_Fraction", "Currency", "Cashflow_Type"].map fun name => .string (bytes name)

/-- The row of a cash flow. -/
def cashflowRow (cf : CashflowStruct Double) : Exec (List XlVariant) := do
  return [
    .double (← toExcelDate cf.unadjStartDate),
    .double (← toExcelDate cf.unadjEndDate),
    .double (← toExcelDate cf.startDate),
    .double (← toExcelDate cf.endDate),
    .double (← toExcelDate cf.fixingDate),
    .double (← toExcelDate cf.paymentDate),
    .double cf.notional,
    .double cf.rate,
    .double cf.cashflowAmount,
    .double cf.npvCashflowAmount,
    .double (.ofInt cf.days),
    .double cf.dayCountFraction,
    .string (bytes cf.cfCurr.cleanName),
    .string (bytes cf.cfType.cleanName)]

/-- `ConvertCFStructToXlArray`. -/
def convertCFStructToXlArray (cfStructArray : List (CashflowStruct Double))
    (cfType : CashflowType) : Exec XlArray :=
  match cfType with
  | .kFixed => do
    let xlResults := XlArray.fill (cfStructArray.length + 1) 14 (.double (.finite 0))
    -- the header is row 0, so the flows start with row 1
    let xlResults ← xlResults.setRow 0 cashflowHeader
    forRange cfStructArray.length (fun i xlResults => do
      let cf ← Block.load cfStructArray i
      xlResults.setRow (i + 1) (← cashflowRow cf)) xlResults
  | _ => do
    let xlResults := XlArray.fill 1 1 (.double (.finite 0))
    xlResults.set 0 0 (.string (bytes "Invalid input was given"))

/-! ## Business date rules -/

/-- `RetrieveXLDict`. -/
def retrieveXLDictAt (dictionary : XlDictionary) (cachedStr : String) :
    Action Caches XlDictionary := do
  let value ← dictionary.get (bytes cachedStr)
  Caches.onObjects (retrieveXLDict value)

/-- `ValidBusinessDateDictionary`. -/
def validBusinessDateDictionary (dict : XlDictionary) : Bool :=
  dict.contains (bytes "Days") && dict.contains (bytes "Calendar")

/-- `BusinessDateFormula::BusinessDateFormula(int, const std::string&)`. -/
def businessDateFormula (boost : Boost) (dataDir : DataDir) (businessDays : Int)
    (calendarStr : Bytes) : Action Caches BusinessDateFormula := do
  let calendar ← Caches.onCalendars (CalendarCache.getCalendar boost dataDir calendarStr)
  return ⟨businessDays, some calendar.calendar⟩

/-- `GetBusinessDateFormulaFromDict`. -/
def getBusinessDateFormulaFromDict (boost : Boost) (dataDir : DataDir) (dict : XlDictionary)
    (dateRuleKey : String) : Action Caches BusinessDateFormula := do
  let dateRuleDict ← retrieveXLDictAt dict dateRuleKey
  if validBusinessDateDictionary dateRuleDict = false then
    Action.lift (throwRuntime ("The dictionary stored in " ++ dateRuleKey ++
      " is not a valid business date dictionary please check input!"))
  else
    let numOfDays ← (← (← dateRuleDict.get (bytes "Days")).getDouble).toInt
    let calendar ← (← dateRuleDict.get (bytes "Calendar")).getString
    businessDateFormula boost dataDir numOfDays calendar

/-- The keys that a cash flow dictionary must have. -/
def requiredKeys : List String :=
  ["Start_Date", "Mat_Date", "Notional", "Rate", "Day_Count_Frac", "Frequency", "Date_Dir"]

/-- `ValidCashflowGenDictionary`. -/
def validCashflowGenDictionary (dictionary : XlDictionary) : Bool :=
  requiredKeys.all (fun key => dictionary.contains (bytes key)) &&
    (dictionary.contains (bytes "Front_Stub_Type") || dictionary.contains (bytes "Back_Stub_Type"))

/-- `HandleMatDate`: a text is a tenor from the start date on. -/
def handleMatDate (dict : XlDictionary) : Exec Date := do
  match ← dict.get (bytes "Mat_Date") with
  | .string val => do
    let startDate ← (← dict.get (bytes "Start_Date")).toDateObj
    startDate.addTenor (← Tenor.ofString (text val))
  | matDate => matDate.toDateObj

/-! ## Objects -/

/-- `XlDictionaryToXlArray`, which makes an array of every dictionary. -/
def XlDictionary.toXlArray (xlDictionary : XlDictionary) : XlArray :=
  match xlDictionaryToXlArray xlDictionary with
  | .ok xlArray => xlArray
  | .error _ => XlArray.fill 0 0 (.double (.finite 0))

end XlApi

/-- `OxlCreateArray`. -/
def oxlCreateArray (win : Win32) (xloperInput : Xloper12) :
    Exec (CachedObjVar XlArray XlDictionary) := do
  return .array (← lpXloperToXlArray win xloperInput)

/-- `OxlCreateDict(const xloper12*, const xloper12*)`, and the overload for one range. -/
def oxlCreateDict (win : Win32) (ctype : CType) (xloperKey xloperValues : Xloper12) :
    Exec (CachedObjVar XlArray XlDictionary) := do
  if xloperKey.isMulti && xloperValues.isMulti then
    return .dictionary (← lpXloperToDictionaryOfKeys win ctype xloperKey xloperValues)
  else
    return .dictionary (← lpXloperToDictionary win ctype xloperKey)

/-- `OxlDisplay`, of a cell. -/
def oxlDisplayCell (win : Win32) (xloperInput : Xloper12) : Action Caches XlArray := do
  let handleStr ← lpXloperToStr win xloperInput
  Caches.onObjects (oxlDisplay XlDictionary.toXlArray handleStr)

end Oxl
