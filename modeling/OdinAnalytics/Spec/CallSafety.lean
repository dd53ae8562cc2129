import OdinAnalytics.Spec.CashflowSafety
import OdinAnalytics.Spec.SheetObjects

/-!
# What a call never does

Whatever a function of the add-in is called with, and whatever the add-in remembers by then,
no exception leaves it, and it never goes through a null pointer or past the end of a map.
What is left of undefined behaviour depends on the function: `Request.Hazard`.

## Key results

- `Request.body_safe`: what the bodies of the calls come to
- `Request.call_safe`: what the calls come to
-/

namespace Oxl

open Machine Atomic OA OA.Time OA.DerivedTime OA.StaticCache OA.Dao XlApi

/-! ## Cells -/

/-- What reading a cell may come to. -/
structure Reads (E : Fault → Prop) : Prop where
  throws : ∀ e, E (.throws e)
  index : E (.undefined .indexOutOfRange)

/-- What computing with dates may come to. -/
structure Computes (E : Fault → Prop) : Prop extends Reads E where
  overflow : E .overflow
  conversion : E (.undefined .badConversion)

/-- Computing with dates may come to what arithmetic comes to. -/
theorem Computes.arithmetic {E : Fault → Prop} (hE : Computes E) : Arithmetic E :=
  ⟨hE.overflow, hE.throws⟩

namespace XlApi

variable {E : Fault → Prop}

section Reading

variable (hE : Reads E)

include hE

/-- Reading a text throws, or reads past a cell that is shorter than it says. -/
theorem lpXloperToStr_any (win : Win32) (xlOper : Xloper12) :
    Post (lpXloperToStr win xlOper) E fun _ => True := by
  unfold lpXloperToStr
  split
  · next count memory =>
    -- a text without its terminator is read past the end
    have hstr : Post (wstringOf memory) E fun _ => True := by
      unfold wstringOf
      split
      · trivial
      · exact hE.index
    exact hstr.bind fun _ _ => trivial
  · exact hE.index
  · exact hE.throws _

/-- Reading a number throws where there is none. -/
theorem lpXloperToDouble_any (xlOper : Xloper12) :
    Post (lpXloperToDouble xlOper) E fun _ => True := by
  unfold lpXloperToDouble
  split
  · trivial
  · exact hE.throws _

/-- Taking a text out of a variant throws where there is none. -/
theorem XlVariant.getString_any (value : XlVariant) : Post value.getString E fun _ => True := by
  cases value with
  | string value => trivial
  | double value => exact hE.throws _
  | bool value => exact hE.throws _

/-- Taking a number out of a variant throws where there is none. -/
theorem XlVariant.getDouble_any (value : XlVariant) : Post value.getDouble E fun _ => True := by
  cases value with
  | double value => trivial
  | string value => exact hE.throws _
  | bool value => exact hE.throws _

/-- Looking up a key throws where there is no entry. -/
theorem XlDictionary.get_any (dictionary : XlDictionary) (key : Bytes) :
    Post (dictionary.get key) E fun _ => True := by
  unfold XlDictionary.get
  split
  · trivial
  · exact hE.throws _

/-- Reading an element throws outside of the array. -/
theorem XlArray.get_any (array : XlArray) (row cols : Nat) :
    Post (array.get row cols) E fun _ => True := by
  unfold XlArray.get
  split
  · trivial
  · exact hE.throws _

/-- Reading a range throws, or reads past its cells. -/
theorem lpXloperToXlArray_any (win : Win32) (xlOper : Xloper12) :
    Post (lpXloperToXlArray win xlOper) E fun _ => True := by
  -- a cell is read by its type
  have hcell : ∀ cell, Post (cellToVariant win cell) E fun _ => True := by
    intro cell
    unfold cellToVariant
    split
    · trivial
    · trivial
    · trivial
    · exact (lpXloperToStr_any hE win _).bind fun _ _ => trivial
  -- an element beyond the block is an index fault
  have hload : ∀ (lparray : List Xloper12) index, Post (Block.load lparray index) E
      fun _ => True := by
    intro lparray index
    unfold Block.load
    split
    · trivial
    · exact hE.index
  -- the wrapper checks its indices
  have hset : ∀ (array : XlArray) i j value, Post (array.set i j value) E fun _ => True := by
    intro array i j value
    unfold XlArray.set
    split
    · trivial
    · exact hE.throws _
  unfold lpXloperToXlArray
  split
  · next rows columns lparray =>
    have hints : Post (XlArray.ofInts rows columns) E fun _ => True := by
      unfold XlArray.ofInts
      split
      · exact hE.throws _
      · trivial
    apply hints.bind
    intro array _
    -- rows, then columns
    refine forRange_post (fun _ _ => True) (fun i _ array _ => ?_) trivial
    refine forRange_post (fun _ _ => True) (fun j _ array _ => ?_) trivial
    apply (hload _ _).bind
    intro cell _
    exact (hcell cell).bind fun value _ => hset array i j value
  · exact hE.throws _

section Dictionaries

variable {ctype : CType} (hspace : ∀ c f, ctype.isspace c = .error f → E f)

include hspace

/-- Checking a key throws, or classifies a character that `std::isspace` has no answer for. -/
theorem XlDictionary.checkKey_any (key : Bytes) :
    Post (XlDictionary.checkKey ctype key) E fun _ => True := by
  have hisspace : ∀ c, Post (ctype.isspace c) E fun _ => True := by
    intro c
    cases hc : ctype.isspace c with
    | ok spaced => trivial
    | error f => exact hspace c f hc
  unfold XlDictionary.checkKey
  split
  · exact hE.throws _
  · next front rest =>
    apply (hisspace front).bind
    intro first _
    -- what the check says is the same after either character
    have hspaced : ∀ spaced : Bool, Post (if spaced then throwInvalid
        ("xl_dictionary.cpp:151:check_key: key \"" ++ text (front :: rest) ++
          "\" invalid: keys cannot contain leading or trailing spaces") else pure ()) E
        fun _ => True := by
      intro spaced
      split
      · exact hE.throws _
      · trivial
    dsimp only
    split
    · exact hspaced true
    · exact (hisspace _).bind fun spaced _ => hspaced spaced

/-- Assigning to a key comes to no more than checking it. -/
theorem XlDictionary.assigned_any (dictionary : XlDictionary) (key : Bytes) (value : XlVariant) :
    Post (dictionary.assigned ctype key value) E fun _ => True := by
  have hkey := XlDictionary.checkKey_any hE hspace key
  unfold XlDictionary.assigned XlDictionary.assign XlDictionary.index
  cases hcheck : XlDictionary.checkKey ctype key with
  | ok u => trivial
  | error f =>
    rw [hcheck] at hkey
    exact hkey

/-- Making a dictionary of an array comes to no more than its keys and elements do. -/
theorem xlArrayToXlDictionary_any (xlArray : XlArray) :
    Post (xlArrayToXlDictionary ctype xlArray) E fun _ => True := by
  -- one entry, wherever its key and its value stand
  have hstep : ∀ (dictionary : XlDictionary) i j k l,
      Post (xlArray.get i j >>= fun key => key.getString >>= fun key =>
        xlArray.get k l >>= fun value => dictionary.assigned ctype key value) E fun _ => True := by
    intro dictionary i j k l
    apply (XlArray.get_any hE xlArray i j).bind
    intro key _
    apply (XlVariant.getString_any hE key).bind
    intro key _
    apply (XlArray.get_any hE xlArray k l).bind
    intro value _
    exact XlDictionary.assigned_any hE hspace dictionary key value
  unfold xlArrayToXlDictionary
  split
  · exact hE.throws _
  · -- keys in the first column or in the first row
    split
    · exact forRange_post (fun _ _ => True) (fun i _ d _ => hstep d i 0 i 1) trivial
    · exact forRange_post (fun _ _ => True) (fun j _ d _ => hstep d 0 j 1 j) trivial

/-- Making a dictionary of a range comes to no more than reading it does. -/
theorem lpXloperToDictionary_any (win : Win32) (xlOper : Xloper12) :
    Post (lpXloperToDictionary win ctype xlOper) E fun _ => True := by
  unfold lpXloperToDictionary
  split
  · exact hE.throws _
  · apply (lpXloperToXlArray_any hE win xlOper).bind
    intro xlArray _
    exact xlArrayToXlDictionary_any hE hspace xlArray

/-- Making a dictionary of two ranges comes to no more than reading them does. -/
theorem lpXloperToDictionaryOfKeys_any (win : Win32) (xlOperKeys xlOperValues : Xloper12) :
    Post (lpXloperToDictionaryOfKeys win ctype xlOperKeys xlOperValues) E fun _ => True := by
  -- a range of one row or one column becomes a vector, any other is refused
  have hvector : ∀ xlArray : XlArray, Post xlArray.toVector E fun _ => True := by
    intro xlArray
    have helement := fun i j => XlArray.get_any hE xlArray i j
    unfold XlArray.toVector
    split
    · exact hE.throws _
    · split
      · exact (post_mapM (R := fun _ _ => True) fun i _ => helement i 0).weaken fun _ _ => trivial
      · exact (post_mapM (R := fun _ _ => True) fun j _ => helement 0 j).weaken fun _ _ => trivial
  -- as many values as keys, and the keys are texts
  have hpairs : ∀ keys values, Post (XlDictionary.ofVariants ctype keys values) E
      fun _ => True := by
    intro keys values
    have hsizes : Post (XlDictionary.checkSizes keys.length values.length) E fun _ => True := by
      unfold XlDictionary.checkSizes
      split
      · exact hE.throws _
      · trivial
    apply hsizes.bind
    intro _ _
    refine post_foldlM (I := fun _ => True) (fun pair _ dictionary _ => ?_) trivial
    apply (XlVariant.getString_any hE pair.1).bind
    intro key _
    exact (XlDictionary.checkKey_any hE hspace key).bind fun _ _ => trivial
  unfold lpXloperToDictionaryOfKeys
  apply (lpXloperToXlArray_any hE win xlOperKeys).bind
  intro xlArrayKey _
  apply (lpXloperToXlArray_any hE win xlOperValues).bind
  intro xlArrayValues _
  apply (hvector xlArrayKey).bind
  intro keys _
  exact (hvector xlArrayValues).bind fun values _ => hpairs keys values

end Dictionaries

end Reading

/-! ## Dates in cells -/

section Computing

variable (hE : Computes E)

include hE

/-- Converting a `double` is undefined where no `int` holds it. -/
theorem toInt_any (x : Double) : Post x.toInt E fun _ => True := by
  unfold Double.toInt
  split
  · dsimp only
    split
    · trivial
    · exact hE.conversion
  · exact hE.conversion
  · exact hE.conversion

/-- Reading a date throws, overflows, or converts a number that no `int` holds. -/
theorem toDateObj_any (win : Win32) (date : Xloper12) : Post (toDateObj win date) E
    fun _ => True := by
  unfold toDateObj
  split
  · -- a number is cast and the offset added
    apply (toInt_any hE _).bind
    intro days _
    exact (post_checked_any hE.overflow _).bind fun _ _ => trivial
  · -- a text is that of a date
    apply (lpXloperToStr_any hE.toReads win _).bind
    intro str _
    exact Date.ofText_any hE.throws str
  · exact hE.throws _

/-- Reading a day number throws, overflows, or converts a number that no `int` holds. -/
theorem xloperToJulianInt_any (win : Win32) (date : Xloper12) :
    Post (xloperToJulianInt win date) E fun _ => True := by
  unfold xloperToJulianInt
  split
  · apply (toInt_any hE _).bind
    intro days _
    exact post_checked_any hE.overflow _
  · apply (lpXloperToStr_any hE.toReads win _).bind
    intro str _
    -- the offset is added to a text's day number as well
    exact (Date.ofText_any hE.throws str).bind fun _ _ => post_checked_any hE.overflow _
  · exact hE.throws _

/-- Reading a date from a variant comes to what reading one from a cell comes to. -/
theorem XlVariant.toDateObj_any (value : XlVariant) : Post value.toDateObj E fun _ => True := by
  cases value with
  | double dateDouble =>
    apply (toInt_any hE _).bind
    intro days _
    exact (post_checked_any hE.overflow _).bind fun _ _ => trivial
  | string dateStr => exact Date.ofText_any hE.throws dateStr
  | bool value => exact hE.throws _

/-- The serial number of a date may overflow. -/
theorem toExcelDate_any (date : Date) : Post (toExcelDate date) E fun _ => True :=
  (post_checked_any hE.overflow _).bind fun _ _ => trivial

/-- The table of the cash flows. -/
theorem convertCFStructToXlArray_any (cfs : List (CashflowStruct Double)) :
    Post (convertCFStructToXlArray cfs .kFixed) E fun _ => True := by
  -- a row of another width is refused
  have hset : ∀ (array : XlArray) i row, Post (array.setRow i row) E fun _ => True := by
    intro array i row
    unfold XlArray.setRow
    split
    · exact hE.throws _
    · split
      · trivial
      · exact hE.throws _
  -- six of the columns are dates
  have hrow : ∀ cf : CashflowStruct Double, Post (cashflowRow cf) E fun _ => True := by
    intro cf
    unfold cashflowRow
    repeat refine (toExcelDate_any hE _).bind fun _ _ => ?_
    trivial
  unfold convertCFStructToXlArray
  apply (hset _ _ _).bind
  intro array _
  refine forRange_post (fun _ _ => True) (fun i hi array _ => ?_) trivial
  rw [Block.load_eq (List.getElem?_eq_getElem hi), ok_bind]
  exact (hrow _).bind fun row _ => hset array (i + 1) row

end Computing

end XlApi

/-! ## Actions -/

open Action XlCacheObj

section Bodies

variable {E : Fault → Prop} {host : Host}

section Objects

/-- Storing an object comes to no fault at all. -/
theorem createHandle_safe (cachedObj : CachedObjVar XlArray XlDictionary) (key : Bytes) :
    (Caches.onObjects (createHandle cachedObj key)).Safe E fun _ => True := by
  apply Safe.within
  apply safe_ofProg
  intro cache
  rw [createHandle_run_eq]
  trivial

variable (hE : Reads E) (hspace : ∀ c f, host.ctype.isspace c = .error f → E f)

include hE

/-- Making a handle may throw, on account of the calling cell. -/
theorem handleOf_safe (caller : Caller) (cacheObj : CachedObjVar XlArray XlDictionary) :
    (handleOf host caller cacheObj).Safe E fun _ => True := by
  have hname : Post (genHandleStrFrom host.win caller cacheObj) E fun _ => True := by
    -- the name of the cell is a text from the host
    have hcell : Post (cellName host.win caller) E fun _ => True :=
      (lpXloperToStr_any hE host.win caller.sheetName).bind fun _ _ => trivial
    apply hcell.bind
    intro cellLoc _
    unfold genHandleStr
    split
    · exact hE.throws _
    · trivial
  apply safe_lift_bind hname
  intro baseName _
  exact (createHandle_safe cacheObj baseName).bind fun _ _ => safe_pure trivial

/-- Displaying a handle comes to no more than reading it, or throws that there is none. -/
theorem oxlDisplayCell_safe (handle : Xloper12) :
    (oxlDisplayCell host.win handle).Safe E fun _ => True := by
  apply safe_lift_bind (lpXloperToStr_any hE host.win handle)
  intro handleStr _
  apply Safe.within
  apply safe_ofProg
  intro cache
  -- one section reads the object, or throws that there is none
  rw [oxlDisplay_run]
  dsimp only
  split
  · trivial
  · exact hE.throws _

/-- Following the handle at a key never looks at an object that is not there. -/
theorem retrieveXLDictAt_safe (dictionary : XlDictionary) (key : String) :
    (retrieveXLDictAt dictionary key).Safe E fun _ => True := by
  apply safe_lift_bind (XlDictionary.get_any hE dictionary (bytes key))
  intro value _
  apply Safe.within
  apply safe_ofProg
  intro cache
  cases value with
  | double value => exact hE.throws _
  | bool value => exact hE.throws _
  | string handle =>
    unfold retrieveXLDict
    dsimp only
    rw [Prog.run_bind, isDictionary_run, getKeyFromHandle_idem]
    -- what the key holds: nothing, a range or a dictionary
    cases hentry : cache (getKeyFromHandle handle) with
    | none => exact hE.throws _
    | some pair =>
      obtain ⟨cacheVariant, version⟩ := pair
      cases cacheVariant with
      | array xlArray => exact hE.throws _
      | dictionary xlDictionary =>
        simp only [Option.any_some, CachedObjVar.holdsDictionary, if_true]
        rw [Prog.run_bind, getVariant_run, unsafeLoadPair, hentry]
        trivial

include hspace

/-- The dictionary of a call, if the arguments make one without other faults. -/
theorem dictionaryInput_safe (first second : Xloper12)
    {arguments : XlDictionary → Exec XlDictionary}
    (harguments : ∀ d, Post (arguments d) E fun _ => True) :
    (dictionaryInput host first second arguments).Safe E fun _ => True := by
  unfold dictionaryInput
  -- keys and values, a range of both, a handle, or the arguments one by one
  split
  · exact safe_lift (lpXloperToDictionaryOfKeys_any hE hspace host.win first second)
  · split
    · exact safe_lift (lpXloperToDictionary_any hE hspace host.win first)
    · split
      · apply safe_lift_bind (lpXloperToStr_any hE host.win first)
        intro handleStr _
        refine Safe.bind (Q := fun _ => True) ?_ fun _ _ => safe_pure trivial
        apply Safe.within
        apply safe_ofProg
        intro cache
        rw [inputDictionary_run]
        dsimp only
        split <;> trivial
      · exact safe_lift (harguments {})

/-- Making a dictionary object comes to no more than reading its ranges. -/
theorem oxlCreateDict_any (xloperKey xloperValues : Xloper12) :
    Post (oxlCreateDict host.win host.ctype xloperKey xloperValues) E fun _ => True := by
  unfold oxlCreateDict
  split
  · exact (lpXloperToDictionaryOfKeys_any hE hspace host.win _ _).bind fun _ _ => trivial
  · exact (lpXloperToDictionary_any hE hspace host.win _).bind fun _ _ => trivial

/-- Adding an argument that is a number comes to no more than reading it. -/
theorem doubleArgument_any (name : String) (input : Xloper12) (dictionary : XlDictionary) :
    Post (doubleArgument host name input dictionary) E fun _ => True := by
  apply (lpXloperToDouble_any hE input).bind
  intro value _
  exact XlDictionary.assigned_any hE hspace dictionary _ _

/-- Adding an argument that is a text comes to no more than reading it. -/
theorem stringArgument_any (name : String) (input : Xloper12) (dictionary : XlDictionary) :
    Post (stringArgument host name input dictionary) E fun _ => True := by
  apply (lpXloperToStr_any hE host.win input).bind
  intro value _
  exact XlDictionary.assigned_any hE hspace dictionary _ _

end Objects

section Dates

variable (hE : Computes E) (boost : Boost) (dataDir : DataDir)

include hE

/-- A question to the calendar of a text. -/
theorem centers_safe {α : Type} (site : String) (date centers : Xloper12)
    {ask : Calendar → Int → Exec α} (hask : ∀ cal j, Post (ask cal j) E fun _ => True) :
    (Caches.onCalendars do
      let dateObj ← xloperToJulianInt host.win date
      let centerPtr ← centersCalendar host.win boost dataDir site centers
      ask centerPtr.calendar dateObj).Safe E fun _ => True := by
  -- the centers are a text, or refused
  have hcenters : ∀ cache : CalendarCache,
      Post ((centersCalendar host.win boost dataDir site centers).run cache).1 E fun _ => True := by
    intro cache
    unfold centersCalendar
    split
    · refine post_run_lift_bind (lpXloperToStr_any hE.toReads host.win _) ?_ cache
      intro text _ cache
      exact StaticCache.getCalendar_safe hE.throws boost dataDir text cache
    · exact hE.throws _
  apply Safe.within
  apply safe_ofProg
  apply post_run_lift_bind (xloperToJulianInt_any hE host.win date)
  intro dateObj _
  apply post_run_bind hcenters
  intro centerPtr _ cache
  exact hask centerPtr.calendar dateObj

/-- Making a formula of business days throws at most. -/
theorem businessDateFormula_safe (businessDays : Int) (calendarStr : Bytes) :
    (businessDateFormula boost dataDir businessDays calendarStr).Safe E fun _ => True := by
  have hcalendar : (Caches.onCalendars (CalendarCache.getCalendar boost dataDir calendarStr)).Safe E
      fun _ => True := by
    apply Safe.within
    apply safe_ofProg
    exact StaticCache.getCalendar_safe hE.throws boost dataDir calendarStr
  exact hcalendar.bind fun _ _ => safe_pure trivial

/-- A value of a dictionary that is read and converted. -/
theorem safe_entry_bind {α β : Type} (dictionary : XlDictionary) (key : String)
    {f : XlVariant → Exec α} {k : α → Action Caches β}
    (hf : ∀ value, Post (f value) E fun _ => True) (hk : ∀ a, (k a).Safe E fun _ => True) :
    (Action.lift (dictionary.get (bytes key)) >>= fun value =>
      Action.lift (f value) >>= k).Safe E fun _ => True := by
  apply safe_lift_bind (XlDictionary.get_any hE.toReads dictionary (bytes key))
  intro value _
  exact safe_lift_bind (hf value) fun a _ => hk a

/-- A formula from a dictionary throws, or converts a number that no `int` holds. -/
theorem getBusinessDateFormulaFromDict_safe (dict : XlDictionary) (key : String) :
    (getBusinessDateFormulaFromDict boost dataDir dict key).Safe E fun _ => True := by
  apply (retrieveXLDictAt_safe hE.toReads dict key).bind
  intro dateRuleDict _
  split
  · -- without its two keys the rule throws
    exact safe_lift (hE.throws _)
  · apply safe_entry_bind hE dateRuleDict "Days" (XlVariant.getDouble_any hE.toReads)
    intro days
    apply safe_lift_bind (toInt_any hE days)
    intro numOfDays _
    apply safe_entry_bind hE dateRuleDict "Calendar" (XlVariant.getString_any hE.toReads)
    intro calendar
    exact businessDateFormula_safe hE boost dataDir numOfDays calendar

/-- Computing a date comes to what computing with dates comes to. -/
theorem oxlComputeDate_safe (dictionary : XlDictionary) :
    (oxlComputeDate boost dataDir dictionary).Safe E fun _ => True := by
  -- the formula's three texts
  have htexts : ∀ tenor adjRule calendar, (Caches.onCalendars
      (DateFormula.ofTexts boost dataDir tenor adjRule calendar)).Safe E fun _ => True := by
    intro tenor adjRule calendar
    apply Safe.within
    apply safe_ofProg
    apply post_run_lift_bind (Tenor.ofString_any hE.throws _)
    intro tenor _
    apply post_run_lift_bind (mapInput_any hE.throws _ _ _ adjRule)
    intro adjRule _
    apply post_run_bind (StaticCache.getCalendar_safe hE.throws boost dataDir calendar)
    intro calendar _ cache
    trivial
  apply safe_entry_bind hE dictionary "Base_Date" (XlVariant.toDateObj_any hE)
  intro baseDate
  apply safe_entry_bind hE dictionary "Tenor" (XlVariant.getString_any hE.toReads)
  intro tenor
  apply safe_entry_bind hE dictionary "Adjustment_Rule" (XlVariant.getString_any hE.toReads)
  intro adjRule
  apply safe_entry_bind hE dictionary "Calendar" (XlVariant.getString_any hE.toReads)
  intro calendar
  apply (htexts tenor adjRule calendar).bind
  intro dateFormula _
  -- the tenor is added, then the date adjusted
  have hadjust : (dateFormula.adjust baseDate).Safe E fun _ => True :=
    (Comp.safe_lift (Date.addTenor_any hE.arithmetic baseDate dateFormula.tenor)).bind
      fun date _ => DateAdjust.adjustDate_safe hE.arithmetic hE.index _ date
  apply (safe_ofComp hadjust).bind
  intro date _
  exact safe_lift (toExcelDate_any hE date)

/-- Adding business days comes to what computing with dates comes to. -/
theorem oxlAddBusinessDays_safe (dictionary : XlDictionary) :
    (oxlAddBusinessDays boost dataDir dictionary).Safe E fun _ => True := by
  -- one entry after the other is read and converted, then the formula is applied
  apply safe_entry_bind hE dictionary "Base_Date" (XlVariant.toDateObj_any hE)
  intro baseDate
  apply safe_entry_bind hE dictionary "Days" (XlVariant.getDouble_any hE.toReads)
  intro days
  apply safe_lift_bind (toInt_any hE days)
  intro numOfDays _
  apply safe_entry_bind hE dictionary "Calendar" (XlVariant.getString_any hE.toReads)
  intro calendar
  apply (businessDateFormula_safe hE boost dataDir numOfDays calendar).bind
  intro dateFormula _
  apply (safe_ofComp (adjust_ends_any hE.overflow hE.index dateFormula baseDate).safe).bind
  intro date _
  exact safe_lift (toExcelDate_any hE date)

/-! ## Day counts -/

section DayCounts

variable [Add Double] [Div Double] [Neg Double]

/-- A name stands for a rule that there is a day counter for. -/
theorem dayCountRuleOf_any (win : Win32) (businessDayCount : Xloper12) :
    Post (dayCountRuleOf win businessDayCount) E fun counter? => ∃ rule counter,
      generateDayCounter rule = some counter ∧ counter? = some counter := by
  apply (lpXloperToStr_any hE.toReads win businessDayCount).bind
  intro bizDayCount _
  apply (mapInputToDayCountEnum_any hE.throws bizDayCount).bind
  intro rule hrule
  cases hcounter : generateDayCounter (F := Double) rule with
  | some counter => exact ⟨rule, counter, hcounter, rfl⟩
  | none =>
    -- the one rule without a counter is not among the names
    cases rule with
    | kACTB_ACTB => exact absurd rfl hrule
    | _ => cases hcounter

/-- Counting days comes to what computing with dates comes to: the day counter is never null. -/
theorem oxlComputeDayCount_any (win : Win32) (startDate endDate businessDayCount : Xloper12) :
    Post (oxlComputeDayCount win startDate endDate businessDayCount) E fun _ => True := by
  apply (toDateObj_any hE win startDate).bind
  intro startDateObj _
  apply (toDateObj_any hE win endDate).bind
  intro endDateObj _
  apply (dayCountRuleOf_any hE win businessDayCount).bind
  rintro _ ⟨rule, counter, hcounter, rfl⟩
  exact dayCount_any hE.overflow hcounter startDateObj endDateObj

/-- The fraction of a year comes to what computing with dates comes to. -/
theorem oxlComputeYearFraction_safe (win : Win32)
    (startDate endDate businessDayCount : Xloper12) :
    (oxlComputeYearFraction win startDate endDate businessDayCount).Safe E fun _ => True := by
  apply (Comp.safe_lift (toDateObj_any hE win startDate)).bind
  intro startDateObj _
  apply (Comp.safe_lift (toDateObj_any hE win endDate)).bind
  intro endDateObj _
  apply (Comp.safe_lift (dayCountRuleOf_any hE win businessDayCount)).bind
  rintro _ ⟨rule, counter, hcounter, rfl⟩
  exact (yearFraction_ends_any hE.overflow hcounter startDateObj endDateObj).safe

end DayCounts

/-! ## Cash flow requests -/

/-- A frequency throws where it is none of the table. -/
theorem freqOf_any (freqTenorStr : Bytes) : Post (freqOf freqTenorStr) E fun _ => True := by
  unfold freqOf
  split
  · exact Tenor.ofString_any hE.throws _
  · apply (mapInput_any hE.throws _ _ _ freqTenorStr).bind
    intro frequency _
    cases frequency <;> first | exact hE.throws _ | trivial

/-- A stub throws where it is none of the table. -/
theorem stubOf_any (dictionary : XlDictionary) (key : String) :
    Post (stubOf dictionary key) E fun _ => True := by
  unfold stubOf
  split
  · apply (XlDictionary.get_any hE.toReads dictionary (bytes key)).bind
    intro value _
    apply (XlVariant.getString_any hE.toReads value).bind
    intro name _
    exact (mapInput_any hE.throws _ _ _ name).weaken fun _ _ => trivial
  · trivial

/-- The maturity is a date or a tenor from the start. -/
theorem handleMatDate_any (dict : XlDictionary) : Post (handleMatDate dict) E fun _ => True := by
  apply (XlDictionary.get_any hE.toReads dict _).bind
  intro matDate _
  cases matDate with
  | string val =>
    -- a text is a tenor from the start date
    apply (XlDictionary.get_any hE.toReads dict _).bind
    intro startDate _
    apply (XlVariant.toDateObj_any hE startDate).bind
    intro startDate _
    apply (Tenor.ofString_any hE.throws _).bind
    intro tenor _
    exact Date.addTenor_any hE.arithmetic startDate tenor
  | double value => exact XlVariant.toDateObj_any hE _
  | bool value => exact XlVariant.toDateObj_any hE _

/-- A rule of a dictionary comes to no more than its formula. -/
theorem ruleOf_safe (dictionary : XlDictionary) (key : String) :
    (ruleOf boost dataDir dictionary key).Safe E fun _ => True := by
  unfold ruleOf
  split
  · exact getBusinessDateFormulaFromDict_safe hE boost dataDir dictionary key
  · exact safe_pure trivial

/-- The accrual rules come to no more than the formulas they are made of. -/
theorem accrualRulesOf_safe (dictionary : XlDictionary) :
    (accrualRulesOf boost dataDir dictionary).Safe E fun _ => True := by
  have hrule := getBusinessDateFormulaFromDict_safe hE boost dataDir dictionary "Acc_Adj_Rule"
  unfold accrualRulesOf
  split
  · -- one rule for both ends, read twice
    apply hrule.bind
    intro startAdj _
    exact hrule.bind fun _ _ => safe_pure trivial
  · -- or a rule for each end
    apply (ruleOf_safe hE boost dataDir dictionary _).bind
    intro endAdj _
    exact (ruleOf_safe hE boost dataDir dictionary _).bind fun _ _ => safe_pure trivial

/-- The options come to no more than the entries they are made of. -/
theorem cashflowOptions_safe (dictionary : XlDictionary) (dateDir : DateDirection) :
    (cashflowOptions boost dataDir dictionary dateDir).Safe E fun _ => True := by
  apply safe_lift_bind (stubOf_any hE dictionary _)
  intro frontStubType _
  apply safe_lift_bind (stubOf_any hE dictionary _)
  intro backStubType _
  apply (ruleOf_safe hE boost dataDir dictionary _).bind
  intro fixAdj _
  apply (ruleOf_safe hE boost dataDir dictionary _).bind
  intro payAdj _
  apply (accrualRulesOf_safe hE boost dataDir dictionary).bind
  intro accrualRules _
  -- the calculation type may be left out
  by_cases hcalcType : dictionary.contains (bytes "Calc_Type") = true
  · simp only [if_pos hcalcType]
    apply safe_entry_bind hE dictionary "Calc_Type" (XlVariant.getString_any hE.toReads)
    intro calcType
    apply safe_lift_bind (mapInput_any hE.throws _ _ _ calcType)
    intro calcType _
    exact safe_pure trivial
  · simp only [if_neg hcalcType]
    exact safe_pure trivial

variable [Add Double] [Mul Double] [Div Double] [Neg Double]

/-- Generating cash flows may also look for the last period of a deal that has none. -/
theorem oxlGenerateCashflow_safe (hempty : E (.undefined .emptyContainer))
    (dictionary : XlDictionary) :
    (oxlGenerateCashflow boost dataDir dictionary).Safe E fun _ => True := by
  unfold oxlGenerateCashflow
  split
  · apply safe_entry_bind hE dictionary "Start_Date" (XlVariant.toDateObj_any hE)
    intro startDate
    apply safe_lift_bind (handleMatDate_any hE dictionary)
    intro matDate _
    apply safe_entry_bind hE dictionary "Notional" (XlVariant.getDouble_any hE.toReads)
    intro notional
    apply safe_entry_bind hE dictionary "Rate" (XlVariant.getDouble_any hE.toReads)
    intro rate
    apply safe_entry_bind hE dictionary "Day_Count_Frac" (XlVariant.getString_any hE.toReads)
    intro dayCount
    apply safe_lift_bind (mapInputToDayCountEnum_any hE.throws dayCount)
    intro dayCntFrac hrule
    apply safe_entry_bind hE dictionary "Frequency" (XlVariant.getString_any hE.toReads)
    intro frequency
    apply safe_lift_bind (freqOf_any hE frequency)
    intro freq _
    apply safe_entry_bind hE dictionary "Date_Dir" (XlVariant.getString_any hE.toReads)
    intro direction
    apply safe_lift_bind (mapInput_any hE.throws _ _ _ direction)
    intro dateDir _
    apply (cashflowOptions_safe hE boost dataDir dictionary dateDir).bind
    intro opt _
    -- the flows run on whatever the entries say
    have hcashflows := createFixedCashflows_safe hE.arithmetic hE.index hempty startDate matDate
      freq notional rate hrule opt
    apply (safe_ofComp hcashflows).bind
    intro cfResults _
    exact safe_lift (convertCFStructToXlArray_any hE cfResults)
  · exact safe_lift trivial

end Dates

end Bodies

/-! ## Calls -/

/-- The calls that compute with dates. -/
def Request.computes : Request → Bool
  | .oxlArray _ _ => false
  | .oxlDictionary _ _ _ => false
  | .oxlDisplay _ => false
  | _ => true

/-- The calls that put keys into a dictionary. -/
def Request.fills : Request → Bool
  | .oxlComputeDate _ _ _ _ => true
  | .oxlAddBusinessDays _ _ _ => true
  | .oxlGenerateCashFlows _ _ => true
  | .oxlDictionary _ _ _ => true
  | _ => false

/-- The undefined behaviour that a call may come to. -/
inductive Request.Hazard (host : Host) : Request → Undefined → Prop where
  /-- A text or a range shorter than it says, a weekend day that is none of a week, or a text
      that is written past its block. -/
  | index (request : Request) : Hazard host request .indexOutOfRange
  /-- What `std::isspace` does with the first or the last character of a key. -/
  | isspace {request : Request} {c : UInt8} {u : Undefined} (hfills : request.fills = true)
      (hspace : host.ctype.isspace c = .error (.undefined u)) : Hazard host request u
  | overflow {request : Request} (hcomputes : request.computes = true) :
      Hazard host request .signedOverflow
  | conversion {request : Request} (hcomputes : request.computes = true) :
      Hazard host request .badConversion
  /-- There is no date left that a stub could begin or end at. -/
  | stub (cfParams cfValues : Xloper12) :
      Hazard host (.oxlGenerateCashFlows cfParams cfValues) .emptyContainer

/-- What the body of a call may come to: exceptions are still to be caught. -/
def Request.Faults (host : Host) (request : Request) : Fault → Prop
  | .throws _ => True
  | .undefined u => request.Hazard host u

section Calls

variable (host : Host)

/-- Every request may come to what reading cells comes to. -/
theorem Request.reads (request : Request) : Reads (request.Faults host) :=
  ⟨fun _ => trivial, .index request⟩

/-- The requests that compute with dates may come to what that comes to. -/
theorem Request.computes_faults {request : Request} (h : request.computes = true) :
    Computes (request.Faults host) :=
  ⟨request.reads host, .overflow h, .conversion h⟩

/-- The requests that fill dictionaries may come to what `std::isspace` comes to. -/
theorem Request.isspace_faults {request : Request} (h : request.fills = true) (c : UInt8)
    (f : Fault) (hspace : host.ctype.isspace c = .error f) : request.Faults host f := by
  cases f with
  | throws e => trivial
  | undefined u => exact .isspace h hspace

/-- What the bodies of the exported functions may come to, one by one. -/
theorem Request.body_safe (request : Request) :
    (request.body host).Safe (request.Faults host) fun _ => True := by
  have hE := request.reads host
  have hcomputes := @Request.computes_faults host request
  have hspace := @Request.isspace_faults host request
  -- one case for each exported function, with the arithmetic of the machine where it computes
  cases request with
  | oxlIsBusinessDay date centers =>
    have hE := hcomputes rfl
    refine (centers_safe hE host.boost host.dataDir _ date centers fun cal j => ?_).bind
      fun _ _ => safe_pure trivial
    exact (Calendar.isHoliday_any hE.index cal j).bind fun _ _ => trivial
  | oxlIsHolidayDay date centers =>
    have hE := hcomputes rfl
    refine (centers_safe hE host.boost host.dataDir _ date centers fun cal j => ?_).bind
      fun _ _ => safe_pure trivial
    exact Calendar.isHoliday_any hE.index cal j
  | oxlComputeDayCount startDate endDate dayCountConvention =>
    let _ : Add Double := ⟨host.add⟩
    let _ : Div Double := ⟨host.div⟩
    let _ : Neg Double := ⟨host.neg⟩
    apply safe_lift_bind (oxlComputeDayCount_any (hcomputes rfl) host.win _ _ _)
    exact fun _ _ => safe_pure trivial
  | oxlComputeYearFraction startDate endDate dayCountConvention =>
    let _ : Add Double := ⟨host.add⟩
    let _ : Div Double := ⟨host.div⟩
    let _ : Neg Double := ⟨host.neg⟩
    apply (safe_ofComp (oxlComputeYearFraction_safe (hcomputes rfl) host.win _ _ _)).bind
    exact fun _ _ => safe_pure trivial
  | oxlComputeDate baseDate tenor adjustmentRule calendar =>
    have hspace := hspace rfl
    refine (dictionaryInput_safe hE hspace baseDate tenor fun dictionary => ?_).bind
      fun dictionary _ => ?_
    · apply (doubleArgument_any hE hspace _ baseDate dictionary).bind
      intro dictionary _
      apply (stringArgument_any hE hspace _ tenor dictionary).bind
      intro dictionary _
      apply (stringArgument_any hE hspace _ adjustmentRule dictionary).bind
      intro dictionary _
      exact stringArgument_any hE hspace _ calendar dictionary
    · apply (oxlComputeDate_safe (hcomputes rfl) host.boost host.dataDir dictionary).bind
      exact fun _ _ => safe_pure trivial
  | oxlAddBusinessDays baseDate days calendar =>
    have hspace := hspace rfl
    refine (dictionaryInput_safe hE hspace baseDate days fun dictionary => ?_).bind
      fun dictionary _ => ?_
    · apply (doubleArgument_any hE hspace _ baseDate dictionary).bind
      intro dictionary _
      apply (doubleArgument_any hE hspace _ days dictionary).bind
      intro dictionary _
      exact stringArgument_any hE hspace _ calendar dictionary
    · apply (oxlAddBusinessDays_safe (hcomputes rfl) host.boost host.dataDir dictionary).bind
      exact fun _ _ => safe_pure trivial
  | oxlGenerateCashFlows cfParams cfValues =>
    let _ : Add Double := ⟨host.add⟩
    let _ : Mul Double := ⟨host.mul⟩
    let _ : Div Double := ⟨host.div⟩
    let _ : Neg Double := ⟨host.neg⟩
    have harguments : ∀ dictionary : XlDictionary, Post (.ok dictionary)
        (Request.Faults host (.oxlGenerateCashFlows cfParams cfValues)) fun _ => True :=
      fun _ => trivial
    apply (dictionaryInput_safe hE (hspace rfl) cfParams cfValues harguments).bind
    intro dictionary _
    apply (oxlGenerateCashflow_safe (hcomputes rfl) host.boost host.dataDir
      (.stub cfParams cfValues) dictionary).bind
    exact fun _ _ => safe_pure trivial
  | oxlArray caller data =>
    have hcreate : Post (oxlCreateArray host.win data) _ fun _ => True :=
      (lpXloperToXlArray_any hE host.win data).bind fun _ _ => trivial
    exact safe_lift_bind hcreate fun cacheObj _ => handleOf_safe hE caller cacheObj
  | oxlDictionary caller keys value =>
    apply safe_lift_bind (oxlCreateDict_any hE (hspace rfl) keys value)
    exact fun cacheObj _ => handleOf_safe hE caller cacheObj
  | oxlDisplay handle =>
    exact (oxlDisplayCell_safe hE handle).bind fun _ _ => safe_pure trivial

/-- Exceptions turn into cells, and to write a cell may only come to an index out of range. -/
theorem describe_safe {request : Request} {y : Exec Result}
    (h : Post y (request.Faults host) fun _ => True) :
    Post (describe host y) (fun f => ∃ u, f = .undefined u ∧ request.Hazard host u)
      fun _ => True := by
  -- writing the result can at most run past its block
  have hconvert : ∀ result, Post (convertToLPXloper host.win result)
      (fun f => ∃ u, f = .undefined u ∧ request.Hazard host u) fun _ => True := by
    intro result
    apply (convertToLPXloper_post host.win result).imp
    · rintro f rfl
      exact ⟨_, rfl, .index request⟩
    · exact fun _ _ => trivial
  cases y with
  | ok result => exact hconvert result
  | error f =>
    cases f with
    | undefined u => exact ⟨u, rfl, h⟩
    | throws e =>
      unfold describe
      dsimp only
      split
      · exact hconvert _
      · trivial

/-- A call that ends gives the address of a cell, or it comes to undefined behaviour that it
    may come to. In particular no exception leaves it. -/
theorem Request.call_safe (request : Request) {addIn addIn' : AddIn} {x : Exec Nat}
    (h : (request.call host).Leads addIn x addIn') :
    Post x (fun f => ∃ u, f = .undefined u ∧ request.Hazard host u) fun p =>
      ∃ cell, Delivered addIn.memory p addIn'.memory cell := by
  -- the call has an answer, and answers are safe
  obtain ⟨z, ⟨y, hbody, rfl⟩, hrel⟩ := (request.call_refines host addIn).1 x addIn' h
  have hcell := describe_safe host (Request.body_safe host request _ _ _ hbody)
  cases x with
  | ok p =>
    obtain ⟨cell, -, hdelivered⟩ := hrel.ok_left rfl
    exact ⟨cell, hdelivered⟩
  | error f =>
    rw [hrel.error_left rfl] at hcell
    exact hcell

/-- The call for the handle of an array that was made, in an add-in that keeps results. -/
theorem call_safe_oxlDisplay : ∃ (session : Session) (handle : Xloper12) (p : Nat) (addIn' : AddIn),
    session.results ≠ [] ∧
      ((Request.oxlDisplay handle).call .exact).Leads session.addIn (.ok p) addIn' ∧
      ∃ cell, Delivered session.addIn.memory p addIn'.memory cell := by
  -- a session that made an array and has its handle
  obtain ⟨events, sheet, str, handleStr, hruns, hmem, hread, hobject, -⟩ := runs_number
  obtain ⟨session, -, hrep⟩ := exists_session hruns
  have hshown := oxlDisplay_leads hread sheet.caches
  -- the array is what the handle shows
  rw [sheet_object hruns, hobject] at hshown
  obtain ⟨addIn', p, hcall, -⟩ := hrep.call ⟨_, hshown, rfl⟩ ⟨by decide, by decide⟩
  refine ⟨session, .str str false, p, addIn', ?_, hcall, Request.call_safe .exact _ hcall⟩
  obtain ⟨as, hholds, -⟩ := hrep.exists_blocks
  rw [← List.length_pos_iff, hholds.length_eq]
  exact List.length_pos_of_mem hmem

end Calls

end Oxl
