import OdinAnalytics.Native.TimeXl
import OdinAnalytics.Native.XlMemory

/-!
# The exported functions

The functions that Excel calls, as `oxlgen.py` writes them from the descriptions in
`oxl/xl_time.yml` and `oxl/xl_base.yml` (`oxl/auto_gen/`): each allocates its result,
computes it and converts it, and turns an exception into a text or an error value.
-/

namespace Oxl

open Machine Atomic OA.Dao XlApi

/-- The machine that the add-in runs on. -/
structure Host where
  win : Win32
  ctype : CType
  boost : Boost
  dataDir : DataDir
  /-- `what()` of the exceptions that the standard library throws. -/
  standardWhat : Exn → Bytes
  -- the arithmetic of `double`s
  add : Double → Double → Double
  mul : Double → Double → Double
  div : Double → Double → Double
  neg : Double → Double

/-- `e.what()`, of what is a `std::exception`. -/
def Host.what (host : Host) : Exn → Option Bytes
  | .runtimeError what => some (bytes what)
  | .invalidArgument what => some (bytes what)
  -- a string that is thrown as it is has no `what()`
  | .text _ => none
  | e => some (host.standardWhat e)

/-- The add-in: what it remembers, and its memory. -/
structure AddIn where
  caches : Caches := {}
  memory : Memory := .empty

namespace AddIn

/-- A part that works on the caches. -/
def onCaches {α : Type} (act : Action Caches α) : Action AddIn α :=
  .within AddIn.caches (fun addIn caches => { addIn with caches := caches }) act

/-- A part that writes to the memory. Nothing that does so throws. -/
def onMemory (write : Memory → Exec Memory) : Action AddIn Unit := fun addIn =>
  match write addIn.memory with
  | .ok memory => pure (.ok (), { addIn with memory := memory })
  | .error f => pure (.error f, addIn)

/-- `calloc` of a result. -/
def calloc : Action AddIn Nat := fun addIn =>
  let (xloperResult, memory) := addIn.memory.alloc (.opers [.other 0])
  pure (.ok xloperResult, { addIn with memory := memory })

end AddIn

/-- What every exported function does in its `try`. -/
def tried (host : Host) (body : Action Caches Result) (xloperResult : Nat) :
    Action AddIn Nat := do
  let intermediateResult ← AddIn.onCaches body
  AddIn.onMemory (Memory.convertToLPXloper host.win intermediateResult ⟨xloperResult, 0⟩)
  return xloperResult

/-- The two handlers of every exported function. -/
def caught (host : Host) (xloperResult : Nat) (e : Exn) : Action AddIn Nat :=
  match host.what e with
  | some what => do
    AddIn.onMemory (Memory.convertToLPXloper host.win (.string (bytes "ERROR:" ++ what))
      ⟨xloperResult, 0⟩)
    return xloperResult
  | none => do
    AddIn.onMemory fun mem => Memory.storeOper mem ⟨xloperResult, 0⟩ (.err xlerrValue)
    return xloperResult

/-- An exported function: the result of `body`, or what is said of an exception. -/
def exported (host : Host) (body : Action Caches Result) : Action AddIn Nat := do
  let xloperResult ← AddIn.calloc
  .catching (tried host body xloperResult) (caught host xloperResult)

/-! ## Arguments -/

/-- `dictionary_input`: from one range or two, from the dictionary of a handle, or from the
    arguments, if they make one. -/
def dictionaryInput (host : Host) (first second : Xloper12)
    (arguments : XlDictionary → Exec XlDictionary) : Action Caches XlDictionary := do
  if first.isMulti && second.isMulti then
    Action.lift (lpXloperToDictionaryOfKeys host.win host.ctype first second)
  else if first.isMulti then
    Action.lift (lpXloperToDictionary host.win host.ctype first)
  -- a text is the handle of a cached dictionary; what is not one leaves it empty
  else if first.isStr then
    let handleStr ← lpXloperToStr host.win first
    let dictionary ← Caches.onObjects (inputDictionary handleStr)
    return dictionary.getD {}
  else Action.lift (arguments {})

/-- An argument of type `LPXLOPER|Date` or `Double` under its name. -/
def doubleArgument (host : Host) (name : String) (input : Xloper12)
    (dictionaryInput : XlDictionary) : Exec XlDictionary := do
  let value ← lpXloperToDouble input
  dictionaryInput.assigned host.ctype (bytes name) (.double value)

/-- An argument of type `String` under its name. -/
def stringArgument (host : Host) (name : String) (input : Xloper12)
    (dictionaryInput : XlDictionary) : Exec XlDictionary := do
  let value ← lpXloperToStr host.win input
  dictionaryInput.assigned host.ctype (bytes name) (.string value)

/-- A handle for an object, in a call from a cell. -/
def handleOf (host : Host) (caller : Caller) (cacheObj : CachedObjVar XlArray XlDictionary) :
    Action Caches Result := do
  let baseName ← XlCacheObj.genHandleStrFrom host.win caller cacheObj
  let cacheName ← Caches.onObjects (createHandle cacheObj baseName)
  return .string cacheName

/-! ## Requests -/

/-- A call of an exported function. The two that make handles look at the calling cell. -/
inductive Request where
  | oxlIsBusinessDay (date centers : Xloper12)
  | oxlIsHolidayDay (date centers : Xloper12)
  | oxlComputeDayCount (startDate endDate dayCountConvention : Xloper12)
  | oxlComputeYearFraction (startDate endDate dayCountConvention : Xloper12)
  | oxlComputeDate (baseDate tenor adjustmentRule calendar : Xloper12)
  | oxlAddBusinessDays (baseDate days calendar : Xloper12)
  | oxlGenerateCashFlows (cfParams cfValues : Xloper12)
  | oxlArray (caller : Caller) (data : Xloper12)
  | oxlDictionary (caller : Caller) (keys value : Xloper12)
  | oxlDisplay (handle : Xloper12)

/-- What stands between the `try` and the conversion of the result. -/
def Request.body (host : Host) (request : Request) : Action Caches Result :=
  letI : Add Double := ⟨host.add⟩
  letI : Mul Double := ⟨host.mul⟩
  letI : Div Double := ⟨host.div⟩
  letI : Neg Double := ⟨host.neg⟩
  match request with
  | .oxlIsBusinessDay date centers => do
    return .bool (← Caches.onCalendars (oxlIsBizDay host.win host.boost host.dataDir date centers))
  | .oxlIsHolidayDay date centers => do
    return .bool (← Caches.onCalendars (oxlIsHolDay host.win host.boost host.dataDir date centers))
  | .oxlComputeDayCount startDate endDate dayCountConvention => do
    return .int (← Oxl.oxlComputeDayCount host.win startDate endDate dayCountConvention)
  | .oxlComputeYearFraction startDate endDate dayCountConvention => do
    return .double (← Action.ofComp
      (Oxl.oxlComputeYearFraction host.win startDate endDate dayCountConvention))
  | .oxlComputeDate baseDate tenor adjustmentRule calendar => do
    let dictionary ← dictionaryInput host baseDate tenor fun dictionary => do
      let dictionary ← doubleArgument host "Base_Date" baseDate dictionary
      let dictionary ← stringArgument host "Tenor" tenor dictionary
      let dictionary ← stringArgument host "Adjustment_Rule" adjustmentRule dictionary
      stringArgument host "Calendar" calendar dictionary
    return .double (← Oxl.oxlComputeDate host.boost host.dataDir dictionary)
  | .oxlAddBusinessDays baseDate days calendar => do
    let dictionary ← dictionaryInput host baseDate days fun dictionary => do
      let dictionary ← doubleArgument host "Base_Date" baseDate dictionary
      let dictionary ← doubleArgument host "Days" days dictionary
      stringArgument host "Calendar" calendar dictionary
    return .double (← Oxl.oxlAddBusinessDays host.boost host.dataDir dictionary)
  | .oxlGenerateCashFlows cfParams cfValues => do
    -- without ranges and without a handle the dictionary stays empty
    let dictionary ← dictionaryInput host cfParams cfValues .ok
    return .array (← oxlGenerateCashflow host.boost host.dataDir dictionary)
  | .oxlArray caller data => do
    handleOf host caller (← oxlCreateArray host.win data)
  | .oxlDictionary caller keys value => do
    handleOf host caller (← oxlCreateDict host.win host.ctype keys value)
  | .oxlDisplay handle => do
    return .array (← oxlDisplayCell host.win handle)

/-- A call of an exported function, from the add-in as it is. -/
def Request.call (host : Host) (request : Request) : Action AddIn Nat :=
  exported host (request.body host)

end Oxl
