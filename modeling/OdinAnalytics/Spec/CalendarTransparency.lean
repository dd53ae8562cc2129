import OdinAnalytics.Spec.CalendarCacheCorrect
import OdinAnalytics.Spec.Requests
import OdinAnalytics.Spec.Sessions

/-!
# The calendar cache cannot be seen

A calendar that was loaded before is not loaded again. As long as the files stay as they
are, no cell on the sheet tells the difference: a sheet on which every call starts with an
empty calendar cache shows the same results.

## Key results

- `lookup_relates`: whatever the cache holds, a calendar is what its files hold
- `Request.body_blind`: calls go the same way for any two calendar caches
- `rereads_iff`: a session, and the same session without a calendar cache
-/

namespace Oxl

open Machine Atomic OA.Time OA.StaticCache OA.Dao OA.DerivedTime XlApi Transition

variable {host : Host} {boost : Boost} {dataDir : DataDir}

/-! ## Looking a calendar up -/

/-- Whatever the cache holds, the calendar of a text is made of what its regions load to. -/
theorem lookup_relates {cache : CalendarCache} (h : cache.WellFormed boost dataDir) (s : Bytes) :
    Relates (fun ptr raw => ptr.calendar = Calendar.ofData raw)
      (CalendarCache.lookup boost dataDir (listOfCalendars boost s) cache).1
      (CalendarCache.load boost dataDir s) := by
  obtain ⟨ptr, hentry, heq⟩ | ⟨f, hload, heq⟩ | ⟨raw, hload, -, heq⟩ :=
    CalendarCache.lookup_cases boost dataDir cache s
  · -- the entry was loaded for the same regions, in whatever order they were given
    obtain ⟨s', raw, hkey, hload, hcalendar⟩ := h.loaded hentry
    have hlist : listOfCalendars boost s = listOfCalendars boost s' :=
      listOfCalendars_eq_iff.mpr (keyOf_eq_iff.mp hkey)
    rw [heq, CalendarCache.load, hlist]
    rw [CalendarCache.load] at hload
    rw [hload]
    exact hcalendar
  · -- a file cannot be read: the call fails as the load does
    rw [heq, hload]
    exact relates_error.mpr rfl
  · -- a new calendar is what was loaded
    rw [heq, hload]
    exact relates_ok.mpr rfl

/-- Two caches of the same files. -/
structure SameFiles (boost : Boost) (dataDir : DataDir) (cache cache' : CalendarCache) : Prop where
  wellFormed : cache.WellFormed boost dataDir
  wellFormed' : cache'.WellFormed boost dataDir

/-- The object may be another one, but the calendar is the same. -/
theorem follows_getCalendar (s : Bytes) :
    Action.Follows (SameFiles boost dataDir) (fun ptr ptr' => ptr.calendar = ptr'.calendar)
      (.ofProg (CalendarCache.getCalendar boost dataDir s))
      (.ofProg (CalendarCache.getCalendar boost dataDir s)) := by
  apply Action.follows_ofProg
  intro cache cache' h
  have hrel := (lookup_relates h.wellFormed s).join (lookup_relates h.wellFormed' s)
  refine ⟨hrel.imp ?_, ⟨?_, ?_⟩⟩
  · rintro ptr ptr' ⟨raw, hptr, hptr'⟩
    exact hptr.trans hptr'.symm
  · exact (CalendarCache.lookup_grows boost dataDir cache s h.wellFormed).1
  · exact (CalendarCache.lookup_grows boost dataDir cache' s h.wellFormed').1

/-- Two states that differ in what their calendar caches hold. -/
structure SameObjects (boost : Boost) (dataDir : DataDir) (caches caches' : Caches) : Prop where
  objects_eq : caches.objects = caches'.objects
  files : SameFiles boost dataDir caches.calendars caches'.calendars

/-- An action to which it makes no difference what the calendar cache holds. -/
structure Blind {α : Type} (boost : Boost) (dataDir : DataDir) (act : Action Caches α) : Prop where
  follows : Action.Follows (SameObjects boost dataDir) Eq act act

namespace Blind

variable {α β : Type} {act : Action Caches α} {k : α → Action Caches β}

/-- What is lifted does not look at the calendars. -/
theorem lift (x : Exec α) : Blind boost dataDir (.lift x) := ⟨Action.follows_lift (relates_refl x)⟩

/-- What is computed does not look at the calendars. -/
theorem ofComp (c : Comp α) : Blind boost dataDir (.ofComp c) := ⟨Action.follows_ofComp c⟩

/-- Two actions that do not tell the caches apart make a whole that does not. -/
theorem bind (h : Blind boost dataDir act) (hk : ∀ a, Blind boost dataDir (k a)) :
    Blind boost dataDir (act >>= k) := ⟨Action.Follows.bind_eq h.follows fun a => (hk a).follows⟩

/-- Whatever does not look at the calendar cache. -/
theorem onObjects (p : Prog (CacheMap XlArray XlDictionary) Fault α) :
    Blind boost dataDir (Caches.onObjects p) := by
  -- the same objects lead to the same result
  have hp : Action.Follows Eq Eq (.ofProg p) (.ofProg p) := by
    apply Action.follows_ofProg
    rintro objects _ rfl
    exact ⟨relates_refl _, rfl⟩
  constructor
  apply Action.Follows.within hp
  · intro caches caches' h
    exact h.objects_eq
  · intro caches caches' objects objects' h hobjects
    exact ⟨hobjects, h.files⟩

end Blind

/-- A part that looks at the calendar cache only. -/
theorem follows_onCalendars {α : Type} {Q : α → α → Prop} {p : Prog CalendarCache Fault α}
    (h : Action.Follows (SameFiles boost dataDir) Q (.ofProg p) (.ofProg p)) :
    Action.Follows (SameObjects boost dataDir) Q (Caches.onCalendars p) (Caches.onCalendars p) := by
  apply Action.Follows.within h
  · intro caches caches' h
    exact h.files
  · intro caches caches' calendars calendars' h hcalendars
    exact ⟨h.objects_eq, hcalendars⟩

/-! ## What looks at the calendar cache -/

/-- The calendar of a cell has the same days from either cache. -/
theorem follows_centersCalendar (win : Win32) (site : String) (centers : Xloper12) :
    Action.Follows (SameFiles boost dataDir) (fun ptr ptr' => ptr.calendar = ptr'.calendar)
      (.ofProg (centersCalendar win boost dataDir site centers))
      (.ofProg (centersCalendar win boost dataDir site centers)) := by
  unfold centersCalendar
  split
  · rw [Action.ofProg_bind]
    apply Action.follows_lift_bind
    intro centersInput
    exact follows_getCalendar centersInput
  · exact Action.follows_lift (relates_error.mpr rfl)

/-- Both functions that ask a calendar about a day. -/
theorem blind_centers {α : Type} (win : Win32) (site : String) (date centers : Xloper12)
    (ask : Calendar → Int → Exec α) : Blind boost dataDir (Caches.onCalendars do
      let dateObj ← xloperToJulianInt win date
      let centerPtr ← centersCalendar win boost dataDir site centers
      ask centerPtr.calendar dateObj) := by
  constructor
  apply follows_onCalendars
  rw [Action.ofProg_bind]
  apply Action.follows_lift_bind
  intro dateObj
  rw [Action.ofProg_bind]
  -- the caches may hand out two objects, but of the same calendar
  apply Action.Follows.bind (follows_centersCalendar win site centers)
  intro ptr ptr' hcalendar
  rw [hcalendar]
  exact Action.follows_lift (relates_refl _)

/-- A date formula is the same from either cache. -/
theorem blind_ofTexts (tenor adjustmentRule calendar : Bytes) : Blind boost dataDir
    (Caches.onCalendars (DateFormula.ofTexts boost dataDir tenor adjustmentRule calendar)) := by
  constructor
  apply follows_onCalendars
  unfold DateFormula.ofTexts
  rw [Action.ofProg_bind]
  apply Action.follows_lift_bind
  intro tenor
  rw [Action.ofProg_bind]
  apply Action.follows_lift_bind
  intro adjustmentRule
  rw [Action.ofProg_bind]
  -- the pointers may differ, the calendars they point to do not
  apply Action.Follows.bind (follows_getCalendar calendar)
  intro ptr ptr' hcalendar
  rw [hcalendar]
  exact Action.follows_pure _

/-- A formula of business days is the same from either cache. -/
theorem blind_businessDateFormula (businessDays : Int) (calendarStr : Bytes) :
    Blind boost dataDir (businessDateFormula boost dataDir businessDays calendarStr) := by
  constructor
  apply Action.Follows.bind (follows_onCalendars (follows_getCalendar calendarStr))
  intro ptr ptr' hcalendar
  rw [hcalendar]
  exact Action.follows_pure _

/-! ## Calls -/

/-- Nothing that requests are composed of tells the calendar caches apart. -/
theorem compositional_blind (boost : Boost) (dataDir : DataDir) :
    Compositional boost dataDir (Blind boost dataDir) where
  lift := .lift
  ofComp := .ofComp
  bind := .bind
  onObjects {_ p} _ := .onObjects p
  centers := blind_centers
  ofTexts := blind_ofTexts
  businessDateFormula := blind_businessDateFormula

/-- Making a handle does not look at the calendars. -/
theorem blind_handleOf (host : Host) (caller : Caller)
    (cacheObj : CachedObjVar XlArray XlDictionary) :
    Blind boost dataDir (handleOf host caller cacheObj) := by
  apply (Blind.lift _).bind
  intro baseName
  apply (Blind.onObjects _).bind
  intro cacheName
  exact .lift _

/-- No call depends on what the calendar cache holds. -/
theorem Request.body_blind (host : Host) (request : Request) :
    Blind host.boost host.dataDir (request.body host) := by
  cases request with
  | oxlArray caller data =>
    exact (Blind.lift _).bind fun cacheObj => blind_handleOf host caller cacheObj
  | oxlDictionary caller keys value =>
    exact (Blind.lift _).bind fun cacheObj => blind_handleOf host caller cacheObj
  | _ => exact (compositional_blind host.boost host.dataDir).body host rfl rfl rfl

/-! ## Sessions -/

/-- The same call, after whatever calendars were asked for before. -/
theorem Request.Answers.blind {request : Request} {caches caches' caches₁ : Caches}
    {x : Exec Xloper12} (h : request.Answers host caches x caches')
    (hsame : SameObjects host.boost host.dataDir caches caches₁) :
    ∃ caches₁', request.Answers host caches₁ x caches₁' ∧
      SameObjects host.boost host.dataDir caches' caches₁' := by
  obtain ⟨y, hbody, rfl⟩ := h
  obtain ⟨y', caches₁', hbody', hrel, hsame'⟩ := (request.body_blind host).follows hsame hbody
  cases y with
  | ok result =>
    -- the results are equal, and so are the cells that describe them
    obtain ⟨_, rfl, rfl⟩ := hrel.ok_left rfl
    exact ⟨caches₁', ⟨_, hbody', rfl⟩, hsame'⟩
  | error f =>
    obtain rfl := hrel.error_left rfl
    exact ⟨caches₁', ⟨_, hbody', rfl⟩, hsame'⟩

/-- A sheet on which no calendar is kept from one call to the next. -/
inductive Spreadsheet.Reread (host : Host) : Event → Spreadsheet → Spreadsheet → Prop where
  | call {request : Request} {caches caches' : Caches} {results : List Xloper12} {cell : Xloper12}
      (hanswer : request.Answers host { caches with calendars := {} } (.ok cell) caches')
      (hfits : cell.Fits) : Reread host (.call request) ⟨caches, results⟩ ⟨caches', cell :: results⟩
  | free {index : Nat} {caches : Caches} {results : List Xloper12} {cell : Xloper12}
      (hcell : results[index]? = some cell) (hfree : dllFree cell) :
      Reread host (.free index) ⟨caches, results⟩ ⟨caches, results.eraseIdx index⟩

/-- The two sheets show the same, and the same objects are behind them. -/
structure SameSheet (boost : Boost) (dataDir : DataDir) (sheet sheet' : Spreadsheet) : Prop where
  results_eq : sheet.results = sheet'.results
  caches : SameObjects boost dataDir sheet.caches sheet'.caches

/-- Emptying the calendar cache leaves the objects. -/
theorem SameObjects.reread {caches caches' : Caches}
    (h : SameObjects boost dataDir caches caches') :
    SameObjects boost dataDir caches { caches' with calendars := {} } :=
  ⟨h.objects_eq, h.files.wellFormed, CalendarCache.wellFormed_empty⟩

/-- Sameness of objects goes both ways. -/
theorem SameObjects.symm {caches caches' : Caches} (h : SameObjects boost dataDir caches caches') :
    SameObjects boost dataDir caches' caches :=
  ⟨h.objects_eq.symm, h.files.wellFormed', h.files.wellFormed⟩

/-- The empty sheets are the same. -/
theorem sameSheet_start : SameSheet boost dataDir {} {} :=
  ⟨rfl, rfl, CalendarCache.wellFormed_empty, CalendarCache.wellFormed_empty⟩

/-- The sheet that keeps no calendars follows the one that keeps them. -/
theorem SameSheet.reread (event : Event) (sheet sheet₁ sheet' : Spreadsheet)
    (h : SameSheet host.boost host.dataDir sheet sheet') (hstep : sheet.Step host event sheet₁) :
    ∃ sheet₁', sheet'.Reread host event sheet₁' ∧
      SameSheet host.boost host.dataDir sheet₁ sheet₁' := by
  obtain ⟨caches', results'⟩ := sheet'
  obtain ⟨hresults, hcaches⟩ := h
  cases hstep with
  | @call _ _ _ _ cell hanswer hfits =>
    -- emptying the calendars changes no answer
    obtain ⟨caches₁', hanswer', hcaches'⟩ := hanswer.blind hcaches.reread
    exact ⟨_, .call hanswer' hfits, congrArg (cell :: ·) hresults, hcaches'⟩
  | free hcell hfree =>
    cases hresults
    exact ⟨_, .free hcell hfree, rfl, hcaches⟩

/-- The sheet that keeps calendars follows the one that keeps none. -/
theorem SameSheet.step (event : Event) (sheet' sheet₁' sheet : Spreadsheet)
    (h : SameSheet host.boost host.dataDir sheet sheet')
    (hstep : sheet'.Reread host event sheet₁') :
    ∃ sheet₁, sheet.Step host event sheet₁ ∧ SameSheet host.boost host.dataDir sheet₁ sheet₁' := by
  obtain ⟨caches, results⟩ := sheet
  obtain ⟨hresults, hcaches⟩ := h
  cases hstep with
  | @call _ _ _ _ cell hanswer hfits =>
    -- nor does having them
    obtain ⟨caches₁, hanswer', hcaches'⟩ := hanswer.blind hcaches.reread.symm
    exact ⟨_, .call hanswer' hfits, congrArg (cell :: ·) hresults, hcaches'.symm⟩
  | free hcell hfree =>
    cases hresults
    exact ⟨_, .free hcell hfree, rfl, hcaches⟩

/-- As long as the calendar files stay as they are, whatever is called in whatever order
    comes to the same results and the same objects as it does when every call starts with
    an empty calendar cache. -/
theorem rereads_iff (host : Host) (events : List Event) (results : List Xloper12)
    (objects : CacheMap XlArray XlDictionary) :
    (∃ sheet, Runs (Spreadsheet.Step host) {} events sheet ∧ sheet.results = results ∧
        sheet.caches.objects = objects) ↔
      ∃ sheet, Runs (Spreadsheet.Reread host) {} events sheet ∧ sheet.results = results ∧
        sheet.caches.objects = objects := by
  constructor
  · rintro ⟨sheet, hrun, rfl, rfl⟩
    obtain ⟨sheet', hrun', hsame⟩ := hrun.simulate SameSheet.reread sameSheet_start
    exact ⟨sheet', hrun', hsame.results_eq.symm, hsame.caches.objects_eq.symm⟩
  · rintro ⟨sheet, hrun, rfl, rfl⟩
    obtain ⟨sheet', hrun', hsame⟩ := hrun.simulate SameSheet.step sameSheet_start
    exact ⟨sheet', hrun', hsame.results_eq, hsame.caches.objects_eq⟩

end Oxl
