import OdinAnalytics.Native.AddIn
import OdinAnalytics.Spec.HandleCorrect

/-!
# What holds of calls because it holds of their parts

The bodies of the exported functions are put together of a few kinds of parts. A property
of actions that these have, and that one part after another has if both do, is one of every
call that makes no object.

## Key results

- `Compositional.body`: a property of parts is one of calls
-/

namespace Oxl

open Machine Atomic OA OA.Time OA.DerivedTime OA.StaticCache OA.Dao XlApi

/-- A property that the parts of calls have, and whatever is put together of such parts. -/
structure Compositional (boost : Boost) (dataDir : DataDir)
    (P : ∀ {α : Type}, Action Caches α → Prop) : Prop where
  lift : ∀ {α : Type} (x : Exec α), P (.lift x)
  ofComp : ∀ {α : Type} (c : Comp α), P (.ofComp c)
  bind : ∀ {α β : Type} {act : Action Caches α} {k : α → Action Caches β},
    P act → (∀ a, P (k a)) → P (act >>= k)
  /-- A part that reads the objects. -/
  onObjects : ∀ {α : Type} {p : Prog (CacheMap XlArray XlDictionary) Fault α},
    p.ReadOnly → P (Caches.onObjects p)
  /-- A question to a calendar. -/
  centers : ∀ {α : Type} (win : Win32) (site : String) (date centers : Xloper12)
    (ask : Calendar → Int → Exec α), P (Caches.onCalendars do
      let dateObj ← xloperToJulianInt win date
      let centerPtr ← centersCalendar win boost dataDir site centers
      ask centerPtr.calendar dateObj)
  /-- A date formula with a calendar. -/
  ofTexts : ∀ tenor adjustmentRule calendar : Bytes,
    P (Caches.onCalendars (DateFormula.ofTexts boost dataDir tenor adjustmentRule calendar))
  /-- A number of business days of a calendar. -/
  businessDateFormula : ∀ (businessDays : Int) (calendarStr : Bytes),
    P (Oxl.XlApi.businessDateFormula boost dataDir businessDays calendarStr)

/-- The calls that make an object. -/
def Request.makes : Request → Bool
  | .oxlArray _ _ => true
  | .oxlDictionary _ _ _ => true
  | _ => false

namespace Compositional

variable {boost : Boost} {dataDir : DataDir} {P : ∀ {α : Type}, Action Caches α → Prop}
  (h : Compositional boost dataDir @P)

include h

/-- After a part that does not look at the caches. -/
theorem lift_bind {α β : Type} {k : α → Action Caches β} (x : Exec α) (hk : ∀ a, P (k a)) :
    P (.lift x >>= k) := h.bind (h.lift x) hk

/-- After a value that is read and converted. -/
theorem read_bind {α β γ : Type} {k : α → Action Caches β} (x : Exec γ) (f : γ → Exec α)
    (hk : ∀ a, P (k a)) : P (.lift x >>= fun value => .lift (f value) >>= k) :=
  h.lift_bind x fun value => h.lift_bind (f value) hk

/-- What composes is kept by a formula from a dictionary. -/
theorem getBusinessDateFormulaFromDict (dict : XlDictionary) (dateRuleKey : String) :
    P (XlApi.getBusinessDateFormulaFromDict boost dataDir dict dateRuleKey) := by
  apply h.bind
  · -- the rule is a handle, whose object is looked up
    apply h.lift_bind
    intro value
    exact h.onObjects (readOnly_retrieveXLDict value)
  · intro dateRuleDict
    split
    · exact h.lift _
    · -- two entries make the formula
      apply h.read_bind
      intro numOfDays
      apply h.lift_bind
      intro numOfDays
      apply h.read_bind
      intro calendar
      exact h.businessDateFormula numOfDays calendar

/-- What composes is kept by a rule. -/
theorem ruleOf (dictionary : XlDictionary) (key : String) :
    P (Oxl.ruleOf boost dataDir dictionary key) := by
  unfold Oxl.ruleOf
  split
  · exact h.getBusinessDateFormulaFromDict dictionary key
  · exact h.lift _

/-- What composes is kept by the accrual rules. -/
theorem accrualRulesOf (dictionary : XlDictionary) :
    P (Oxl.accrualRulesOf boost dataDir dictionary) := by
  unfold Oxl.accrualRulesOf
  split
  · -- one rule for both ends, read twice
    apply h.bind (h.getBusinessDateFormulaFromDict dictionary _)
    intro startAdj
    apply h.bind (h.getBusinessDateFormulaFromDict dictionary _)
    intro endAdj
    exact h.lift _
  · -- or a rule for each end
    apply h.bind (h.ruleOf dictionary _)
    intro endAdj
    apply h.bind (h.ruleOf dictionary _)
    intro startAdj
    exact h.lift _

/-- What composes is kept by the options. -/
theorem cashflowOptions (dictionary : XlDictionary) (dateDir : DateDirection) :
    P (Oxl.cashflowOptions boost dataDir dictionary dateDir) := by
  apply h.lift_bind
  intro frontStubType
  apply h.lift_bind
  intro backStubType
  apply h.bind (h.ruleOf dictionary _)
  intro fixAdj
  apply h.bind (h.ruleOf dictionary _)
  intro payAdj
  apply h.bind (h.accrualRulesOf dictionary)
  intro accrualRules
  -- the calculation type is optional
  by_cases hcalcType : dictionary.contains (bytes "Calc_Type") = true
  · simp only [if_pos hcalcType]
    apply h.read_bind
    intro calcType
    apply h.lift_bind
    intro calcType
    exact h.lift _
  · simp only [if_neg hcalcType]
    exact h.lift _

/-- What composes is kept by generating cash flows. -/
theorem oxlGenerateCashflow [Add Double] [Mul Double] [Div Double] [Neg Double]
    (dictionary : XlDictionary) : P (Oxl.oxlGenerateCashflow boost dataDir dictionary) := by
  unfold Oxl.oxlGenerateCashflow
  split
  · -- in the order in which the source reads the keys
    apply h.read_bind
    intro startDate
    apply h.lift_bind
    intro matDate
    apply h.read_bind
    intro notional
    apply h.read_bind
    intro rate
    apply h.read_bind
    intro dayCount
    apply h.lift_bind
    intro dayCntFrac
    apply h.read_bind
    intro frequency
    apply h.lift_bind
    intro freq
    apply h.read_bind
    intro direction
    apply h.lift_bind
    intro dateDir
    -- the options come last, then the flows and the table
    apply h.bind (h.cashflowOptions dictionary dateDir)
    intro opt
    apply h.bind (h.ofComp _)
    intro cfResults
    exact h.lift _
  · -- without a required key it throws
    exact h.lift _

/-- What composes is kept by computing a date. -/
theorem oxlComputeDate (dictionary : XlDictionary) :
    P (Oxl.oxlComputeDate boost dataDir dictionary) := by
  -- the four entries, then the formula and the date
  apply h.read_bind
  intro baseDate
  apply h.read_bind
  intro tenor
  apply h.read_bind
  intro adjRule
  apply h.read_bind
  intro calendar
  apply h.bind (h.ofTexts tenor adjRule calendar)
  intro dateFormula
  apply h.bind (h.ofComp _)
  intro date
  exact h.lift _

/-- What composes is kept by adding business days. -/
theorem oxlAddBusinessDays (dictionary : XlDictionary) :
    P (Oxl.oxlAddBusinessDays boost dataDir dictionary) := by
  apply h.read_bind
  intro baseDate
  apply h.read_bind
  intro days
  -- the count is cast to an `int`
  apply h.lift_bind
  intro numOfDays
  apply h.read_bind
  intro calendar
  apply h.bind (h.businessDateFormula numOfDays calendar)
  intro dateFormula
  apply h.bind (h.ofComp _)
  intro date
  exact h.lift _

/-- What composes is kept by reading the dictionary of a call. -/
theorem dictionaryInput (host : Host) (first second : Xloper12)
    (arguments : XlDictionary → Exec XlDictionary) :
    P (Oxl.dictionaryInput host first second arguments) := by
  unfold Oxl.dictionaryInput
  split
  · exact h.lift _
  · split
    · exact h.lift _
    · split
      · -- only a handle looks at the objects
        apply h.lift_bind
        intro handleStr
        apply h.bind (h.onObjects (readOnly_inputDictionary _))
        intro dictionary
        exact h.lift _
      · exact h.lift _

/-- Of a call that makes no object. -/
theorem body (host : Host) (hboost : host.boost = boost) (hdataDir : host.dataDir = dataDir)
    {request : Request} (hrequest : request.makes = false) : P (request.body host) := by
  subst hboost hdataDir
  -- every request but the two that make objects
  cases request with
  | oxlIsBusinessDay date centers =>
    exact h.bind (h.centers host.win _ date centers Calendar.isBusinessDay) fun _ => h.lift _
  | oxlIsHolidayDay date centers =>
    exact h.bind (h.centers host.win _ date centers Calendar.isHoliday) fun _ => h.lift _
  | oxlComputeDayCount startDate endDate dayCountConvention =>
    exact h.lift_bind _ fun _ => h.lift _
  | oxlComputeYearFraction startDate endDate dayCountConvention =>
    exact h.bind (h.ofComp _) fun _ => h.lift _
  | oxlComputeDate baseDate tenor adjustmentRule calendar =>
    apply h.bind (h.dictionaryInput host baseDate tenor _)
    intro dictionary
    exact h.bind (h.oxlComputeDate dictionary) fun _ => h.lift _
  | oxlAddBusinessDays baseDate days calendar =>
    apply h.bind (h.dictionaryInput host baseDate days _)
    intro dictionary
    exact h.bind (h.oxlAddBusinessDays dictionary) fun _ => h.lift _
  | oxlGenerateCashFlows cfParams cfValues =>
    apply h.bind (h.dictionaryInput host cfParams cfValues _)
    intro dictionary
    let _ : Add Double := ⟨host.add⟩
    let _ : Mul Double := ⟨host.mul⟩
    let _ : Div Double := ⟨host.div⟩
    let _ : Neg Double := ⟨host.neg⟩
    exact h.bind (h.oxlGenerateCashflow dictionary) fun _ => h.lift _
  | oxlDisplay handle =>
    apply h.bind
    · apply h.lift_bind
      intro handleStr
      exact h.onObjects (readOnly_oxlDisplay _ _)
    · intro result
      exact h.lift _
  | oxlArray caller data => cases hrequest
  | oxlDictionary caller keys value => cases hrequest

end Compositional

end Oxl
