import OdinAnalytics.Spec.CalendarTransparency
import OdinAnalytics.Spec.DateFormulaCorrect
import OdinAnalytics.Spec.XlUtilsCorrect

/-!
# Dates on a sheet

Two exported functions move a date: by a tenor and an adjustment rule, or by a number of
business days. Both look a calendar up by its text. Whatever else happens on the sheet, the
dates they answer with are business days for the functions that ask about one, they keep the
order of the dates they were asked about, and a calendar with more regions puts them further
off.

## Key results

- `Request.Asks.answers_iff`: what a call that moves a date answers with
- `answered_date_isBusinessDay`: the date is a business day for the other functions
- `answered_date_further`: more regions put it further off
-/

namespace Oxl

open Machine Atomic OA OA.Time OA.DerivedTime OA.StaticCache OA.Dao XlApi Transition

variable {host : Host} {boost : Boost} {dataDir : DataDir}

/-! ## Calendars of a text -/

section Calendars

variable {cache cache' : CalendarCache} {s : Bytes}

/-- A calendar from the cache is that of the files. -/
theorem getCalendar_leads {ptr : CalendarPtr} (hwf : cache.WellFormed boost dataDir)
    (h : (Action.ofProg (CalendarCache.getCalendar boost dataDir s)).Leads cache (.ok ptr) cache') :
    ∃ raw, CalendarCache.load boost dataDir s = .ok raw ∧ ptr.calendar = Calendar.ofData raw := by
  have hrel := lookup_relates hwf s
  obtain ⟨hptr, -⟩ := Prod.mk.inj (Action.ofProg_leads.mp h)
  exact hrel.ok_left hptr

/-- Where the files can be read, there is a calendar. -/
theorem exists_getCalendar_leads {raw : List CalendarDataStruct}
    (hwf : cache.WellFormed boost dataDir) (h : CalendarCache.load boost dataDir s = .ok raw) :
    ∃ ptr cache', (Action.ofProg (CalendarCache.getCalendar boost dataDir s)).Leads cache (.ok ptr)
      cache' ∧ ptr.calendar = Calendar.ofData raw := by
  have hrel := lookup_relates hwf s
  rw [h] at hrel
  -- the lookup does what the load does
  cases hlookup : (CalendarCache.lookup boost dataDir (listOfCalendars boost s) cache).1 with
  | error f =>
    rw [hlookup] at hrel
    exact hrel.elim
  | ok ptr =>
    rw [hlookup] at hrel
    refine ⟨ptr, (CalendarCache.lookup boost dataDir (listOfCalendars boost s) cache).2,
      Action.ofProg_leads.mpr ?_, hrel⟩
    rw [CalendarCache.getCalendar, Prog.run_atomically, ← hlookup]

end Calendars

/-! ## What is asked for -/

/-- The dictionary that a call of `oxlComputeDate` works on. -/
def computeDateInput (host : Host) (baseDate tenor adjustmentRule calendar : Xloper12) :
    Action Caches XlDictionary :=
  dictionaryInput host baseDate tenor fun dictionary => do
    let dictionary ← doubleArgument host "Base_Date" baseDate dictionary
    let dictionary ← stringArgument host "Tenor" tenor dictionary
    let dictionary ← stringArgument host "Adjustment_Rule" adjustmentRule dictionary
    stringArgument host "Calendar" calendar dictionary

/-- The dictionary that a call of `oxlAddBusinessDays` works on. -/
def addBusinessDaysInput (host : Host) (baseDate days calendar : Xloper12) :
    Action Caches XlDictionary :=
  dictionaryInput host baseDate days fun dictionary => do
    let dictionary ← doubleArgument host "Base_Date" baseDate dictionary
    let dictionary ← doubleArgument host "Days" days dictionary
    stringArgument host "Calendar" calendar dictionary

/-- What a dictionary holds under a key, read as a text. -/
def textAt (dictionary : XlDictionary) (key : String) : Exec Bytes := do
  (← dictionary.get (bytes key)).getString

/-- A dictionary that asks for a date by a tenor, and its values. -/
structure ComputesDate (dictionary : XlDictionary) (baseDate : Date) (tenor : Tenor)
    (rule : AdjRule) (calendar : Bytes) : Prop where
  baseDate : (dictionary.get (bytes "Base_Date") >>= XlVariant.toDateObj) = .ok baseDate
  tenor : (textAt dictionary "Tenor" >>= fun tenor => Tenor.ofString (text tenor)) = .ok tenor
  rule : (textAt dictionary "Adjustment_Rule" >>= mapInputToDayAdjustEnum) = .ok rule
  calendar : textAt dictionary "Calendar" = .ok calendar

/-- A dictionary that asks for a date by business days, and its values. -/
structure AddsBusinessDays (dictionary : XlDictionary) (baseDate : Date) (numOfDays : Int)
    (calendar : Bytes) : Prop where
  baseDate : (dictionary.get (bytes "Base_Date") >>= XlVariant.toDateObj) = .ok baseDate
  days : (dictionary.get (bytes "Days") >>= XlVariant.getDouble >>= Double.toInt) = .ok numOfDays
  calendar : textAt dictionary "Calendar" = .ok calendar

/-- A call that asks where a move leads a date on the calendar of a text. Its dictionary may be
    made of its arguments, be read from ranges, or be an object of the cache. -/
inductive Request.Asks (host : Host) (caches : Caches) :
    Request → Date → Move → Bytes → Prop where
  | oxlComputeDate {baseDate tenor adjustmentRule calendar : Xloper12} {dictionary : XlDictionary}
      {date : Date} {t : Tenor} {rule : AdjRule} {s : Bytes}
      (hinput : (computeDateInput host baseDate tenor adjustmentRule calendar).Leads caches
        (.ok dictionary) caches)
      (hvalues : ComputesDate dictionary date t rule s) :
      Asks host caches (.oxlComputeDate baseDate tenor adjustmentRule calendar) date
        (.tenor t rule) s
  | oxlAddBusinessDays {baseDate days calendar : Xloper12} {dictionary : XlDictionary}
      {date : Date} {numOfDays : Int} {s : Bytes}
      (hinput : (addBusinessDaysInput host baseDate days calendar).Leads caches
        (.ok dictionary) caches)
      (hvalues : AddsBusinessDays dictionary date numOfDays s) :
      Asks host caches (.oxlAddBusinessDays baseDate days calendar) date (.days numOfDays) s

/-! ## What is answered -/

section Answers

variable {caches : Caches} {x : Double}

/-- Both functions make a formula from a calendar and adjust a date by it. -/
theorem formula_leads_iff {φ : Type} {act : Action Caches φ} {adjust : φ → Comp Date}
    {s : Bytes} (formulaOf : Calendar → φ)
    (hformula : ∀ formula, (∃ caches', act.Leads caches (.ok formula) caches') ↔
      ∃ raw, CalendarCache.load boost dataDir s = .ok raw ∧
        formula = formulaOf (Calendar.ofData raw)) :
    (∃ caches', (act >>= fun formula => Action.ofComp (adjust formula) >>= fun date =>
        Action.lift (toExcelDate date)).Leads caches (.ok x) caches') ↔
      ∃ raw date, CalendarCache.load boost dataDir s = .ok raw ∧
        (adjust (formulaOf (Calendar.ofData raw))).Returns date ∧ toExcelDate date = .ok x := by
  constructor
  · -- the formula first, then the date and its serial
    rintro ⟨caches', hleads⟩
    obtain ⟨formula, t, hleads, hrest⟩ := Action.bind_leads_ok.mp hleads
    obtain ⟨date, u, hdate, hexcel⟩ := Action.bind_leads_ok.mp hrest
    obtain ⟨raw, hload, rfl⟩ := (hformula formula).mp ⟨t, hleads⟩
    exact ⟨raw, date, hload, (Action.ofComp_leads_ok.mp hdate).1, (Action.lift_leads.mp hexcel).1⟩
  · rintro ⟨raw, date, hload, hdate, hexcel⟩
    -- the caches may change when the formula is made
    obtain ⟨t, hleads⟩ := (hformula _).mpr ⟨raw, hload, rfl⟩
    exact ⟨t, Action.bind_leads_ok.mpr ⟨_, t, hleads, Action.bind_leads_ok.mpr
      ⟨date, t, Action.ofComp_leads_ok.mpr ⟨hdate, rfl⟩, Action.lift_leads.mpr ⟨hexcel, rfl⟩⟩⟩⟩

/-- The formula of texts is made with the calendar of the files. -/
theorem ofTexts_leads_iff {tenorStr ruleStr s : Bytes} {tenor : Tenor} {rule : AdjRule}
    (hwf : caches.calendars.WellFormed boost dataDir)
    (htenor : Tenor.ofString (text tenorStr) = .ok tenor)
    (hrule : mapInputToDayAdjustEnum ruleStr = .ok rule) (formula : DateFormula) :
    (∃ caches', (Caches.onCalendars (DateFormula.ofTexts boost dataDir tenorStr ruleStr s)).Leads
        caches (.ok formula) caches') ↔
      ∃ raw, CalendarCache.load boost dataDir s = .ok raw ∧
        formula = DateFormula.ofTenor tenor rule (Calendar.ofData raw) := by
  unfold Caches.onCalendars DateFormula.ofTexts
  simp only [Action.within_leads, Action.ofProg_bind, Action.ofProg_liftM, htenor, hrule,
    Action.lift_ok_bind, Action.bind_leads_ok]
  constructor
  · rintro ⟨caches', cache, ⟨ptr, cache', hptr, hformula⟩, -⟩
    -- the calendar comes from the cache or from its files, which is the same
    obtain ⟨raw, hload, hcalendar⟩ := getCalendar_leads hwf hptr
    obtain ⟨hformula, -⟩ := Prod.mk.inj (Action.ofProg_leads.mp hformula)
    cases hformula
    exact ⟨raw, hload, by rw [hcalendar]⟩
  · rintro ⟨raw, hload, rfl⟩
    obtain ⟨ptr, cache', hptr, hcalendar⟩ := exists_getCalendar_leads hwf hload
    refine ⟨_, cache', ⟨ptr, cache', hptr, ?_⟩, rfl⟩
    rw [← hcalendar]
    exact Action.ofProg_leads.mpr rfl

/-- The formula of business days is made with the calendar of the files. -/
theorem businessDateFormula_leads_iff {numOfDays : Int} {s : Bytes}
    (hwf : caches.calendars.WellFormed boost dataDir) (formula : BusinessDateFormula) :
    (∃ caches', (businessDateFormula boost dataDir numOfDays s).Leads caches (.ok formula)
      caches') ↔
      ∃ raw, CalendarCache.load boost dataDir s = .ok raw ∧
        formula = ⟨numOfDays, some (Calendar.ofData raw)⟩ := by
  unfold businessDateFormula Caches.onCalendars
  simp only [Action.bind_leads_ok, Action.within_leads, Action.pure_leads]
  constructor
  · rintro ⟨caches', ptr, t, ⟨cache, hptr, rfl⟩, hformula, -⟩
    -- the pointer's calendar is the one its files say
    obtain ⟨raw, hload, hcalendar⟩ := getCalendar_leads hwf hptr
    cases hformula
    exact ⟨raw, hload, by rw [hcalendar]⟩
  · rintro ⟨raw, hload, rfl⟩
    obtain ⟨ptr, cache, hptr, hcalendar⟩ := exists_getCalendar_leads hwf hload
    exact ⟨_, ptr, _, ⟨cache, hptr, rfl⟩, by rw [hcalendar], rfl⟩

/-- What computing a date comes to, by the files and the move. -/
theorem oxlComputeDate_leads_iff {dictionary : XlDictionary} {baseDate : Date} {tenor : Tenor}
    {rule : AdjRule} {s : Bytes} (hwf : caches.calendars.WellFormed boost dataDir)
    (h : ComputesDate dictionary baseDate tenor rule s) :
    (∃ caches', (Oxl.oxlComputeDate boost dataDir dictionary).Leads caches (.ok x) caches') ↔
      ∃ raw date, CalendarCache.load boost dataDir s = .ok raw ∧
        ((Move.tenor tenor rule).lead (Calendar.ofData raw) baseDate).Returns date ∧
        toExcelDate date = .ok x := by
  obtain ⟨tenorStr, htenorStr, htenor⟩ := bind_eq_ok.mp h.tenor
  obtain ⟨ruleStr, hruleStr, hrule⟩ := bind_eq_ok.mp h.rule
  -- the four entries are read, then the formula is made of them
  have hread : Oxl.oxlComputeDate boost dataDir dictionary =
      Caches.onCalendars (DateFormula.ofTexts boost dataDir tenorStr ruleStr s) >>= fun formula =>
        Action.ofComp (formula.adjust baseDate) >>= fun date =>
          Action.lift (toExcelDate date) :=
    ((Action.read_bind h.baseDate).trans (Action.read_bind htenorStr)).trans
      ((Action.read_bind hruleStr).trans (Action.read_bind h.calendar))
  rw [hread]
  exact formula_leads_iff (DateFormula.ofTenor tenor rule) (ofTexts_leads_iff hwf htenor hrule)

/-- What adding business days comes to, by the files and the move. -/
theorem oxlAddBusinessDays_leads_iff {dictionary : XlDictionary} {baseDate : Date}
    {numOfDays : Int} {s : Bytes} (hwf : caches.calendars.WellFormed boost dataDir)
    (h : AddsBusinessDays dictionary baseDate numOfDays s) :
    (∃ caches', (Oxl.oxlAddBusinessDays boost dataDir dictionary).Leads caches (.ok x) caches') ↔
      ∃ raw date, CalendarCache.load boost dataDir s = .ok raw ∧
        ((Move.days numOfDays).lead (Calendar.ofData raw) baseDate).Returns date ∧
        toExcelDate date = .ok x := by
  obtain ⟨days, hdays, hnumOfDays⟩ := bind_eq_ok.mp h.days
  -- the three entries are read, then the formula is made of them
  have hread : Oxl.oxlAddBusinessDays boost dataDir dictionary =
      businessDateFormula boost dataDir numOfDays s >>= fun formula =>
        Action.ofComp (formula.adjust baseDate) >>= fun date =>
          Action.lift (toExcelDate date) := by
    refine (Action.read_bind h.baseDate).trans ((Action.read_bind hdays).trans ?_)
    rw [Action.liftM_eq, hnumOfDays, Action.lift_ok_bind]
    exact Action.read_bind h.calendar
  rw [hread]
  exact formula_leads_iff (fun calendar => (⟨numOfDays, some calendar⟩ : BusinessDateFormula))
    (businessDateFormula_leads_iff hwf)

/-- An exception is answered with its text or an error value. -/
theorem describe_error_eq_ok {f : Fault} {cell : Xloper12}
    (h : describe host (.error f) = .ok cell) :
    (∃ str, cell = .str str true) ∨ cell = .err xlerrValue := by
  cases f with
  | undefined u => cases h
  | throws e =>
    simp only [describe] at h
    -- the exception's text, or an error cell where there is none
    split at h
    · next what hwhat =>
      have hpost := convertStrToLPXloper_post host.win (bytes "ERROR:" ++ what)
      rw [show convertStrToLPXloper host.win _ = .ok cell from h] at hpost
      exact Or.inl hpost
    · exact Or.inr (Except.ok.inj h).symm

/-- A call that is answered otherwise has computed the answer from its dictionary. -/
theorem answers_computed_iff {request : Request} {α : Type} {input : Action Caches XlDictionary}
    {act : XlDictionary → Action Caches α} {result : α → Result} {dictionary : XlDictionary}
    {cell : Xloper12}
    (hbody : request.body host =
      input >>= fun dictionary => act dictionary >>= fun value => pure (result value))
    (hinput : input.Leads caches (.ok dictionary) caches) (hstr : ∀ str, cell ≠ .str str true)
    (herr : cell ≠ .err xlerrValue) {caches' : Caches} :
    request.Answers host caches (.ok cell) caches' ↔ ∃ value,
      (act dictionary).Leads caches (.ok value) caches' ∧
        XlApi.convertToLPXloper host.win (result value) = .ok cell := by
  -- an error is told by a text or by an error cell
  have herror : ∀ f, describe host (.error f) ≠ .ok cell := by
    intro f hf
    rcases describe_error_eq_ok hf with ⟨str, rfl⟩ | rfl
    · exact hstr str rfl
    · exact herr rfl
  unfold Request.Answers
  rw [hbody]
  constructor
  · rintro ⟨y, hy, hdescribe⟩
    -- so neither part has failed
    rcases Action.bind_leads.mp hy with ⟨dictionary', t, hinput', hrest⟩ | ⟨f, -, rfl⟩
    · obtain ⟨hdictionary, rfl⟩ := hinput.unique hinput'
      cases hdictionary
      rcases Action.bind_leads.mp hrest with ⟨value, t, hvalue, hpure⟩ | ⟨f, -, rfl⟩
      · obtain ⟨rfl, rfl⟩ := Action.pure_leads.mp hpure
        exact ⟨value, hvalue, hdescribe⟩
      · exact absurd hdescribe (herror f)
    · exact absurd hdescribe (herror f)
  · rintro ⟨value, hvalue, hconvert⟩
    refine ⟨.ok (result value), ?_, hconvert⟩
    exact Action.bind_leads_ok.mpr ⟨dictionary, caches, hinput,
      Action.bind_leads_ok.mpr ⟨value, caches', hvalue, Action.pure_leads.mpr ⟨rfl, rfl⟩⟩⟩

/-- A call that is answered with a number. -/
theorem answers_double {request : Request} {input : Action Caches XlDictionary}
    {act : XlDictionary → Action Caches Double} {dictionary : XlDictionary}
    (hbody : request.body host =
      input >>= fun dictionary => act dictionary >>= fun value => pure (.double value))
    (hinput : input.Leads caches (.ok dictionary) caches) :
    (∃ caches', request.Answers host caches (.ok (.num x)) caches') ↔
      ∃ caches', (act dictionary).Leads caches (.ok x) caches' := by
  -- a number is neither an error text nor an error value
  have hstr : ∀ str, Xloper12.num x ≠ .str str true := by simp
  have herr : Xloper12.num x ≠ .err xlerrValue := by simp
  simp only [answers_computed_iff hbody hinput hstr herr]
  constructor
  · rintro ⟨caches', value, hvalue, hconvert⟩
    cases hconvert
    exact ⟨caches', hvalue⟩
  · rintro ⟨caches', hvalue⟩
    exact ⟨caches', x, hvalue, rfl⟩

/-- What is answered to a call that moves a date, if it is a number: the date that the move
    leads to on the calendar that the files of the text make, whatever the caches hold. -/
theorem Request.Asks.answers_iff {request : Request} {baseDate : Date} {move : Move} {s : Bytes}
    (h : request.Asks host caches baseDate move s)
    (hwf : caches.calendars.WellFormed host.boost host.dataDir) :
    (∃ caches', request.Answers host caches (.ok (.num x)) caches') ↔
      ∃ raw date, CalendarCache.load host.boost host.dataDir s = .ok raw ∧
        (move.lead (Calendar.ofData raw) baseDate).Returns date ∧ toExcelDate date = .ok x := by
  cases h with
  | oxlComputeDate hinput hvalues =>
    exact (answers_double rfl hinput).trans (oxlComputeDate_leads_iff hwf hvalues)
  | oxlAddBusinessDays hinput hvalues =>
    exact (answers_double rfl hinput).trans (oxlAddBusinessDays_leads_iff hwf hvalues)

end Answers

/-! ## Regions -/

section Regions

variable {s s' : Bytes}

/-- A calendar of some of the regions is there if one of all of them is. -/
theorem exists_load {raw : List CalendarDataStruct} (hsub : regionsOf s' ⊆ regionsOf s)
    (h : CalendarCache.load boost dataDir s = .ok raw) :
    ∃ raw', CalendarCache.load boost dataDir s' = .ok raw' := by
  -- a load reads every region's file
  have hall : ∀ {regions : List Bytes} {raw : List CalendarDataStruct},
      regions.mapM (getCalendarData dataDir) = .ok raw →
        ∀ region ∈ regions, ∃ data, getCalendarData dataDir region = .ok data := by
    intro regions
    induction regions with
    | nil => simp
    | cons region regions ih =>
      intro raw h
      rw [List.mapM_cons] at h
      obtain ⟨data, hdata, h⟩ := bind_eq_ok.mp h
      obtain ⟨rest, hrest, -⟩ := bind_eq_ok.mp h
      exact List.forall_mem_cons.mpr ⟨⟨data, hdata⟩, ih hrest⟩
  -- and the regions asked for are among them
  have hone : ∀ region ∈ listOfCalendars boost s',
      Post (getCalendarData dataDir region) (fun _ => False) fun _ => True := by
    intro region hregion
    have hmem := hsub ((perm_listOfCalendars boost s').mem_iff.mp hregion)
    obtain ⟨data, hdata⟩ := hall h region ((perm_listOfCalendars boost s).mem_iff.mpr hmem)
    rw [hdata]
    trivial
  obtain ⟨raw', hraw', -⟩ := (post_mapM hone).exists_ok fun _ _ => id
  exact ⟨raw', hraw'⟩

/-- Fewer regions have more business days. -/
theorem business_of_subset {raw raw' : List CalendarDataStruct}
    (hsub : regionsOf s' ⊆ regionsOf s) (h : CalendarCache.load boost dataDir s = .ok raw)
    (h' : CalendarCache.load boost dataDir s' = .ok raw') (j : Int)
    (hj : (Calendar.ofData raw).Business j) : (Calendar.ofData raw').Business j := by
  by_contra hnot
  obtain ⟨region, hregion, hoff⟩ :=
    (CalendarCache.mem_load h').mp ((not_business_ofData raw' j).mp hnot)
  have hmem := (CalendarCache.mem_load h).mpr ⟨region, hsub hregion, hoff⟩
  exact (not_business_ofData raw j).mpr hmem hj

end Regions

/-! ## Sheets -/

/-- On every sheet the calendar cache holds what the files hold. -/
theorem sheet_wellFormed {events : List Event} {sheet : Spreadsheet}
    (h : Runs (Spreadsheet.Step host) {} events sheet) :
    sheet.caches.calendars.WellFormed host.boost host.dataDir := by
  obtain ⟨sheet', -, hsame⟩ := h.simulate SameSheet.reread sameSheet_start
  exact hsame.caches.files.wellFormed

section Centers

variable {caches : Caches} {x : Double} {centers : Xloper12} {s : Bytes} {j : Int} {b : Bool}

/-- A question to the calendar of a text, about the day of a number. -/
theorem centers_leads {raw : List CalendarDataStruct} {ask : Calendar → Int → Exec Bool}
    {site : String} (hwf : caches.calendars.WellFormed boost dataDir)
    (hday : xloperToJulianInt host.win (.num x) = .ok j)
    (hcenters : lpXloperToStr host.win centers = .ok s)
    (hload : CalendarCache.load boost dataDir s = .ok raw)
    (hask : ask (Calendar.ofData raw) j = .ok b) :
    ∃ caches', (Caches.onCalendars do
      let dateObj ← xloperToJulianInt host.win (.num x)
      let centerPtr ← centersCalendar host.win boost dataDir site centers
      ask centerPtr.calendar dateObj).Leads caches (.ok b) caches' := by
  obtain ⟨str, rfl⟩ := exists_str hcenters
  -- the cache answers with the calendar that the files give
  obtain ⟨ptr, cache, hptr, hcalendar⟩ := exists_getCalendar_leads hwf hload
  refine ⟨_, Action.within_leads.mpr ⟨cache, ?_, rfl⟩⟩
  simp only [centersCalendar, Action.ofProg_bind, Action.ofProg_liftM, hday, hcenters,
    Action.lift_ok_bind]
  refine Action.bind_leads_ok.mpr ⟨ptr, cache, hptr, ?_⟩
  rw [hcalendar, hask]
  exact Action.lift_leads.mpr ⟨rfl, rfl⟩

end Centers

/-- The serial number of a date is read as the day of the date. -/
theorem xloperToJulianInt_toExcelDate (win : Win32) {date : Date} {x : Double}
    (hint : InInt32 date.julian) (h : toExcelDate date = .ok x) :
    xloperToJulianInt win (.num x) = .ok date.julian := by
  obtain ⟨serial, hserial, hx⟩ := bind_eq_ok.mp h
  obtain ⟨hin, rfl⟩ := checked_eq_ok.mp hserial
  cases hx
  simp only [xloperToJulianInt, Double.toInt_ofInt hin, ok_bind]
  rw [add32, add_sub_cancel, checked_eq hint]

/-- A date that a call has answered with is a business day, and no holiday, for the functions
    that ask about one: on every sheet, whatever was called in between, and for every calendar
    of regions that are among those that the call was about. -/
theorem answered_date_isBusinessDay {events events' : List Event} {sheet sheet' : Spreadsheet}
    {request : Request} {baseDate : Date} {move : Move} {s s' : Bytes} {x : Double}
    {caches : Caches} {centers : Xloper12} (h : Runs (Spreadsheet.Step host) {} events sheet)
    (hasks : request.Asks host sheet.caches baseDate move s) (hmove : move.Lands)
    (hanswer : request.Answers host sheet.caches (.ok (.num x)) caches)
    (h' : Runs (Spreadsheet.Step host) {} events' sheet')
    (hcenters : lpXloperToStr host.win centers = .ok s') (hsub : regionsOf s' ⊆ regionsOf s) :
    (∃ caches', (Request.oxlIsBusinessDay (.num x) centers).Answers host sheet'.caches
        (.ok (.bool true)) caches') ∧
      ∃ caches', (Request.oxlIsHolidayDay (.num x) centers).Answers host sheet'.caches
        (.ok (.bool false)) caches' := by
  obtain ⟨raw, date, hload, hdate, hexcel⟩ :=
    (hasks.answers_iff (sheet_wellFormed h)).mp ⟨caches, hanswer⟩
  -- the date computed is a business day of the calendar it was computed with
  have hlanding := Move.lead_landing hmove hdate
  have hday := xloperToJulianInt_toExcelDate host.win hlanding.inInt32 hexcel
  obtain ⟨raw', hload'⟩ := exists_load hsub hload
  -- the other sheet's calendar has fewer days off
  have hholiday : (Calendar.ofData raw').isHoliday date.julian = .ok false :=
    (hlanding.imp (business_of_subset hsub hload hload' _)).isHoliday
  have hbusiness : (Calendar.ofData raw').isBusinessDay date.julian = .ok true := by
    rw [Calendar.isBusinessDay, hholiday, ok_bind]
    rfl
  constructor
  · obtain ⟨caches', hleads⟩ :=
      centers_leads (sheet_wellFormed h') hday hcenters hload' hbusiness
    exact ⟨caches', .ok (.bool true), Action.bind_leads_ok.mpr
      ⟨true, caches', hleads, Action.pure_leads.mpr ⟨rfl, rfl⟩⟩, rfl⟩
  · obtain ⟨caches', hleads⟩ :=
      centers_leads (sheet_wellFormed h') hday hcenters hload' hholiday
    exact ⟨caches', .ok (.bool false), Action.bind_leads_ok.mpr
      ⟨false, caches', hleads, Action.pure_leads.mpr ⟨rfl, rfl⟩⟩, rfl⟩

/-! ## A machine with calendar files -/

/-- A machine on which every region has a file with the usual weekend. -/
def Host.weekends : Host :=
  { Host.exact with dataDir := fun _ => .contents (bytes "#Weekend" ++ [10] ++ bytes "56") }

/-- One business day from Friday 2020-01-03, asked for with arguments. -/
def askMonday (centers : List Char) : Request :=
  .oxlAddBusinessDays (.num (.finite 43833)) (.num (.finite 1)) (.str (countedText centers) false)

/-- What the arguments ask for. -/
theorem asks_askMonday :
    (askMonday ['A']).Asks .weekends {} ⟨2458852⟩ (.days 1) (bytes "A") := by
  obtain ⟨dictionary, hinput, hvalues⟩ : ∃ dictionary,
      addBusinessDaysInput Host.weekends (.num (.finite 43833)) (.num (.finite 1))
        (.str (countedText ['A']) false) {} = pure (.ok dictionary, {}) ∧
      AddsBusinessDays dictionary ⟨2458852⟩ 1 (bytes "A") := ⟨_, rfl, rfl, rfl, rfl⟩
  refine .oxlAddBusinessDays ?_ hvalues
  unfold Action.Leads
  rw [hinput, Comp.pure_returns]

/-- The answer is Monday. -/
theorem answers_askMonday : ∃ caches,
    (askMonday ['A']).Answers .weekends {} (.ok (.num (.ofInt 43836))) caches := by
  have hload : CalendarCache.load Host.weekends.boost Host.weekends.dataDir (bytes "A") =
      .ok [⟨[], [.kSaturday, .kSunday], text (bytes "A")⟩] := by decide +kernel
  exact (asks_askMonday.answers_iff CalendarCache.wellFormed_empty).mpr
    ⟨_, ⟨2458855⟩, hload, ⟨5, by decide +kernel⟩, by decide +kernel⟩

/-- Monday is a business day. -/
theorem answered_date_isBusinessDay_monday : ∃ caches,
    (Request.oxlIsBusinessDay (.num (.ofInt 43836)) (.str (countedText ['A']) false)).Answers
      .weekends {} (.ok (.bool true)) caches := by
  obtain ⟨caches, hanswer⟩ := answers_askMonday
  exact (answered_date_isBusinessDay .nil asks_askMonday (show (1 : Int) ≠ 0 by decide) hanswer
    .nil (show lpXloperToStr Host.weekends.win _ = .ok (bytes "A") from rfl)
    (List.Subset.refl _)).1

/-! ## More regions -/

/-- More regions lead further: of two calls with the same date and the same move, on any two
    sheets, the one on the calendar of more regions answers no earlier a date if the move
    looks ahead for business days, and no later a date if it looks back for them. -/
theorem answered_date_further {events events' : List Event} {sheet sheet' : Spreadsheet}
    {request request' : Request} {baseDate : Date} {move : Move} {s s' : Bytes} {x x' : Double}
    {caches caches' : Caches} (h : Runs (Spreadsheet.Step host) {} events sheet)
    (hasks : request.Asks host sheet.caches baseDate move s)
    (hanswer : request.Answers host sheet.caches (.ok (.num x)) caches)
    (h' : Runs (Spreadsheet.Step host) {} events' sheet')
    (hasks' : request'.Asks host sheet'.caches baseDate move s')
    (hanswer' : request'.Answers host sheet'.caches (.ok (.num x')) caches')
    (hsub : regionsOf s ⊆ regionsOf s') :
    ∃ serial serial', x = .ofInt serial ∧ x' = .ofInt serial' ∧
      (move.Forward → serial ≤ serial') ∧ (move.Backward → serial' ≤ serial) := by
  obtain ⟨raw, date, hload, hdate, hexcel⟩ :=
    (hasks.answers_iff (sheet_wellFormed h)).mp ⟨caches, hanswer⟩
  obtain ⟨raw', date', hload', hdate', hexcel'⟩ :=
    (hasks'.answers_iff (sheet_wellFormed h')).mp ⟨caches', hanswer'⟩
  -- more regions leave fewer business days to land on
  obtain ⟨hforward, hbackward⟩ :=
    Move.lead_further (business_of_subset hsub hload' hload) hdate hdate'
  refine ⟨date.julian - kXlJulianOffSet, date'.julian - kXlJulianOffSet, toExcelDate_eq_ok hexcel,
    toExcelDate_eq_ok hexcel', ?_, ?_⟩
  · intro hmove
    exact Int.sub_le_sub_right (hforward hmove) _
  · intro hmove
    exact Int.sub_le_sub_right (hbackward hmove) _

/-- One region and two. -/
theorem answered_date_further_monday : ∃ (serial serial' : Int) (caches caches' : Caches),
    (askMonday ['A']).Answers .weekends {} (.ok (.num (.ofInt serial))) caches ∧
    (askMonday ['A', ',', 'B']).Answers .weekends {} (.ok (.num (.ofInt serial'))) caches' ∧
    serial ≤ serial' := by
  -- the same Monday with a calendar more
  have hasks : (askMonday ['A', ',', 'B']).Asks .weekends {} ⟨2458852⟩ (.days 1)
      (bytes "A,B") := by
    obtain ⟨dictionary, hinput, hvalues⟩ : ∃ dictionary,
        addBusinessDaysInput Host.weekends (.num (.finite 43833)) (.num (.finite 1))
          (.str (countedText ['A', ',', 'B']) false) {} = pure (.ok dictionary, {}) ∧
        AddsBusinessDays dictionary ⟨2458852⟩ 1 (bytes "A,B") := ⟨_, rfl, rfl, rfl, rfl⟩
    refine .oxlAddBusinessDays ?_ hvalues
    unfold Action.Leads
    rw [hinput, Comp.pure_returns]
  -- both regions have the same weekends
  have hload : CalendarCache.load Host.weekends.boost Host.weekends.dataDir (bytes "A,B") =
      .ok [⟨[], [.kSaturday, .kSunday], text (bytes "A")⟩,
        ⟨[], [.kSaturday, .kSunday], text (bytes "B")⟩] := by decide +kernel
  obtain ⟨caches, hanswer⟩ := answers_askMonday
  obtain ⟨caches', hanswer'⟩ : ∃ caches',
      (askMonday ['A', ',', 'B']).Answers .weekends {} (.ok (.num (.ofInt 43836))) caches' :=
    (hasks.answers_iff CalendarCache.wellFormed_empty).mpr
      ⟨_, ⟨2458855⟩, hload, ⟨5, by decide +kernel⟩, by decide +kernel⟩
  obtain ⟨serial, serial', hx, hx', hforward, -⟩ := answered_date_further .nil asks_askMonday
    hanswer .nil hasks hanswer' (by decide)
  exact ⟨serial, serial', caches, caches', hx ▸ hanswer, hx' ▸ hanswer',
    hforward (show (0 : Int) ≤ 1 by decide)⟩

end Oxl
