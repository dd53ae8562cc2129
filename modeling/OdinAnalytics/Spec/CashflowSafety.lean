import OdinAnalytics.Native.DateFormula
import OdinAnalytics.Spec.CalendarFileCorrect
import OdinAnalytics.Spec.Faults
import OdinAnalytics.Spec.TenorText

/-!
# What computing with dates comes to

The loops of an adjustment and of a schedule may go on for ever. Whatever they are given,
what else may happen is an exception, overflow, an index out of range in the weekend of a
calendar, and, where a stub is cut off, an empty vector.

## Key results

- `StaticCache.getCalendar_safe`: calendars, whatever their files hold
- `DateAdjust.adjustDate_safe`: adjusted dates
- `createFixedCashflows_safe`: cash flows of any deal
-/

namespace OA

open Machine OA.Time OA.StaticCache OA.Dao

/-! ## Dates and calendars -/

section Dates

variable {E : Fault → Prop}

/-- Reading a date throws at most. -/
theorem Time.Date.ofText_any (hthrows : ∀ e, E (.throws e)) (s : Bytes) :
    Post (Date.ofText s) E fun _ => True := by
  refine (Date.ofText_post s).imp ?_ fun _ _ => trivial
  rintro f ⟨what, rfl⟩
  exact hthrows _

/-- A tenor is read, or an exception is thrown: a text of the right form has a last letter. -/
theorem Time.Tenor.ofString_any (hthrows : ∀ e, E (.throws e)) (inputString : String) :
    Post (Tenor.ofString inputString) E fun _ => True := by
  -- an accepted text has a unit, so only its count can be out of range
  by_cases hcheck : checkTenorStr inputString = true
  · obtain ⟨count, letter, hform⟩ := exists_of_checkTenorStr hcheck
    obtain ⟨unit, -, heq⟩ := hform.ofString_eq
    rw [heq]
    split
    · trivial
    · exact hthrows _
  · unfold Tenor.ofString
    rw [if_neg hcheck]
    exact hthrows _

/-- A text is mapped to one of the listed values, or it throws. -/
theorem mapInput_any {α : Type} (hthrows : ∀ e, E (.throws e)) (map : List (String × α))
    (site what : String) (inputStr : Bytes) :
    Post (mapInput map site what inputStr) E fun value => value ∈ map.map Prod.snd := by
  unfold mapInput
  split
  · next value hvalue =>
    obtain ⟨entry, hfind, rfl⟩ := Option.map_eq_some_iff.mp hvalue
    exact List.mem_map_of_mem (List.mem_of_find?_eq_some hfind)
  · exact hthrows _

/-- There is a day counter for every name. -/
theorem Time.mapInputToDayCountEnum_any (hthrows : ∀ e, E (.throws e)) (inputStr : Bytes) :
    Post (mapInputToDayCountEnum inputStr) E fun rule => rule ≠ .kACTB_ACTB := by
  apply (mapInput_any hthrows _ _ _ inputStr).weaken
  intro rule hrule heq
  rw [heq] at hrule
  revert hrule
  decide

/-! ## Calendars -/

/-- Reading the lines of a file throws at most. -/
theorem Dao.readLines_any (hthrows : ∀ e, E (.throws e)) (region contents : Bytes)
    (data : Time.CalendarDataStruct) (lines : List Bytes) :
    Post (readLines region contents data lines) E fun _ => True := by
  -- all that goes wrong in a file is thrown
  have hthrow : ∀ f, IsThrow f → E f := by
    rintro f ⟨e, rfl⟩
    exact hthrows e
  have hweekends : ∀ line, Post (readWeekends region line) E fun _ => True := fun line =>
    (readWeekends_post region line).imp hthrow fun _ _ => trivial
  have hholidays : ∀ rest : List Bytes, Post (rest.mapM Date.ofText) E fun _ => True := fun rest =>
    (ofText_lines_post rest).imp hthrow fun _ _ => trivial
  fun_induction readLines region contents data lines with
  | case1 data => trivial
  | case2 data => exact (hweekends _).bind fun _ _ => trivial
  | case3 data next rest ih => exact (hweekends _).bind fun weekends _ => ih weekends
  | case4 data line rest => exact (hholidays _).bind fun _ _ => trivial
  | case5 data line rest _ _ ih => exact ih

/-- Reading a file throws at most. -/
theorem Dao.getCalendarData_any (hthrows : ∀ e, E (.throws e)) (dataDir : DataDir)
    (region : Bytes) : Post (getCalendarData dataDir region) E fun _ => True := by
  unfold getCalendarData
  cases dataDir region with
  | missing => exact hthrows _
  | closed => exact hthrows _
  | contents contents =>
    exact (Dao.readLines_any hthrows region contents _ _).bind fun _ _ => trivial

/-- A lookup throws at most. -/
theorem StaticCache.lookup_any (hthrows : ∀ e, E (.throws e)) (boost : Boost) (dataDir : DataDir)
    (listOfCalendars : List Bytes) (cache : CalendarCache) :
    Post (CalendarCache.lookup boost dataDir listOfCalendars cache).1 E fun _ => True := by
  -- a lookup fails only in its files
  have hdata : Post (listOfCalendars.mapM (getCalendarData dataDir)) E
      (List.Forall₂ (fun _ _ => True) listOfCalendars) :=
    post_mapM fun region _ => Dao.getCalendarData_any hthrows dataDir region
  unfold CalendarCache.lookup
  dsimp only
  cases cache.calendarCache (joinKey boost listOfCalendars) with
  | some calendar => trivial
  | none =>
    cases hmap : listOfCalendars.mapM (getCalendarData dataDir) with
    | ok rawCalendarData => trivial
    | error f =>
      rw [hmap] at hdata
      exact hdata

/-- Asking for a calendar throws at most. -/
theorem StaticCache.getCalendar_safe (hthrows : ∀ e, E (.throws e)) (boost : Boost)
    (dataDir : DataDir) (calendarsStr : Bytes) (cache : CalendarCache) :
    Post ((CalendarCache.getCalendar boost dataDir calendarsStr).run cache).1 E fun _ => True := by
  unfold CalendarCache.getCalendar
  rw [Atomic.Prog.run_atomically]
  exact StaticCache.lookup_any hthrows boost dataDir _ cache

namespace Time

section Adjusting

variable (hE : Arithmetic E) (hidx : E (.undefined .indexOutOfRange)) (cal : Calendar)

include hidx in
/-- Asking about a day may only read an array out of range. -/
theorem Calendar.isHoliday_any (j : Int) : Post (cal.isHoliday j) E fun _ => True := by
  unfold isHoliday
  split
  · split
    · trivial
    · split <;> trivial
  · exact hidx

include hE hidx

/-- The walk to the next day that is no holiday. -/
theorem Calendar.nextStop_safe (n base : Int) : (cal.nextStop n base).Safe E fun _ => True := by
  have hnext : ∀ j, Post (nextDate n j) E fun _ => True := by
    intro j
    rw [nextDate_eq]
    exact post_checked_any hE.overflow _
  unfold nextStop
  apply (Comp.safe_lift (hnext base)).bind
  intro first _
  refine Comp.Safe.bind (Q := fun _ => True) ?_ fun _ _ => Comp.safe_pure trivial
  -- each turn asks the calendar and steps on
  refine Comp.whileLoop_safe (fun _ => True) (fun _ => True) E (fun j _ => ?_) trivial
  apply (Calendar.isHoliday_any hidx cal j).weaken
  intro holiday _
  split
  · exact hnext j
  · trivial

/-- An adjustment may go on for ever, but it comes to no other fault. -/
theorem DateAdjust.adjustDate_safe (adjust : DateAdjust) (date : Date) :
    (adjust.adjustDate date).Safe E fun _ => True := by
  have hmonth : ∀ d : Date, Post d.month E fun _ => True := fun d =>
    (Date.ymd_any hE.overflow _).bind fun _ _ => trivial
  cases adjust with
  | plain => exact Comp.safe_pure trivial
  | following holidays =>
    apply (Comp.safe_lift (Calendar.isHoliday_any hidx holidays _)).bind
    intro holiday _
    split
    · exact Calendar.nextStop_safe hE hidx holidays 1 _
    · exact Comp.safe_pure trivial
  | preceding holidays =>
    apply (Comp.safe_lift (Calendar.isHoliday_any hidx holidays _)).bind
    intro holiday _
    split
    · exact Calendar.nextStop_safe hE hidx holidays (-1) _
    · exact Comp.safe_pure trivial
  | modFollowing holidays =>
    apply (Comp.safe_lift (Calendar.isHoliday_any hidx holidays _)).bind
    intro holiday _
    -- only a day off moves, and only past the end of its month does it turn back
    split
    · apply (Calendar.nextStop_safe hE hidx holidays 1 _).bind
      intro next _
      apply (Comp.safe_lift (hmonth date)).bind
      intro month _
      apply (Comp.safe_lift (hmonth next)).bind
      intro month' _
      split
      · exact Calendar.nextStop_safe hE hidx holidays (-1) _
      · exact Comp.safe_pure trivial
    · exact Comp.safe_pure trivial

end Adjusting

end Time

/-! ## Cash flows -/

namespace DerivedTime

variable (hE : Arithmetic E) (hidx : E (.undefined .indexOutOfRange))

include hE

/-- The schedule loops may go on for ever, but they come to no other fault. -/
theorem generateDates_safe (startDate matDate : Date) (resetFreq : Tenor) (dir : DateDirection) :
    (generateDates startDate matDate resetFreq dir).Safe E fun _ => True := by
  have htenor := fun (d : Date) tenor => Date.addTenor_any hE d tenor
  cases dir with
  | kForward =>
    refine Comp.Safe.bind (Q := fun _ => True) ?_ fun _ _ => Comp.safe_pure trivial
    -- the loop needs no invariant, as every step is safe wherever it starts
    refine Comp.whileLoop_safe (fun _ => True) (fun _ => True) E (fun s _ => ?_) trivial
    unfold Comp.IterPost
    rw [post_ok]
    split
    · -- a period: its end, the next start and the count
      apply (htenor s.currDate resetFreq).bind
      intro endDate _
      apply (htenor startDate _).bind
      intro currDate _
      exact (post_checked_any hE.overflow _).bind fun _ _ => trivial
    · trivial
  | kBackward =>
    -- the first count is the negated count of the tenor
    apply (Comp.safe_lift (post_checked_any hE.overflow _)).bind
    intro totalLength _
    refine Comp.Safe.bind (Q := fun _ => True) ?_ fun _ _ => Comp.safe_pure trivial
    refine Comp.whileLoop_safe (fun _ => True) (fun _ => True) E (fun s _ => ?_) trivial
    unfold Comp.IterPost
    rw [post_ok]
    split
    · -- the same from the end, with a count that goes down
      apply (post_checked_any hE.overflow _).bind
      intro count _
      apply (htenor s.currDate _).bind
      intro startDate _
      apply (htenor matDate _).bind
      intro currDate _
      exact (post_checked_any hE.overflow _).bind fun _ _ => trivial
    · trivial

omit hE in
/-- The stubs reach into empty vectors at worst. -/
theorem applyStubs_any (hempty : E (.undefined .emptyContainer)) (startDate matDate : Date)
    (opts : Options) (s : Schedule) : Post (applyStubs startDate matDate opts s) E
      fun _ => True := by
  -- erasing from an empty vector is the one hazard here
  have herase : ∀ xs : List Date, Post (eraseFront xs) E fun _ => True := by
    intro xs
    cases xs <;> first | exact hempty | trivial
  have hpop : ∀ xs : List Date, Post (popBack xs) E fun _ => True := by
    intro xs
    cases xs <;> first | exact hempty | trivial
  -- so is writing to its first or its last element
  have hfirst : ∀ s, Post (shortFirst startDate opts s) E fun _ => True := by
    intro s
    unfold shortFirst
    cases s.startDates <;> first | exact hempty | trivial
  have hlast : ∀ s, Post (shortLast matDate opts s) E fun _ => True := by
    intro s
    unfold shortLast
    cases s.endDates <;> first | exact hempty | trivial
  unfold applyStubs
  split
  · unfold stubDateAdjustments
    split
    · -- a long stub drops a period before the date is written
      split
      · apply (herase _).bind
        intro startDates _
        apply (herase _).bind
        intro endDates _
        exact hfirst _
      · exact hfirst _
      · trivial
    · split
      · apply (hpop _).bind
        intro endDates _
        apply (hpop _).bind
        intro startDates _
        exact hlast _
      · exact hlast _
      · trivial
  · trivial

variable {F : Type} [IntCast F] [Add F] [Mul F] [Div F] [Neg F]

include hidx in
/-- With a day counter, cash flows reach into empty vectors at worst. -/
theorem createFixedCashflows_safe (hempty : E (.undefined .emptyContainer))
    (startDate matDate : Date) (resetFreq : Tenor) (notional rate : F) {rule : DayCountRule}
    (hrule : rule ≠ .kACTB_ACTB) (opts : Options) :
    (createFixedCashflows startDate matDate resetFreq notional rate rule opts).Safe E
      fun _ => True := by
  have htext : ∀ d : Date, Post d.toText E fun _ => True := fun d =>
    (Date.ymd_any hE.overflow _).bind fun _ _ => trivial
  unfold createFixedCashflows
  split
  · apply Comp.safe_lift
    -- the message names both dates
    exact (htext startDate).bind fun _ _ => (htext matDate).bind fun _ _ => hE.throws _
  · apply (generateDates_safe hE startDate matDate resetFreq opts.dateDir).bind
    intro generated _
    apply (Comp.safe_lift (applyStubs_any hempty startDate matDate opts generated)).bind
    intro dates _
    -- no rule lacks its counter but the one left out
    have hcoupon : ∀ us ue, (makeCoupon resetFreq notional rate rule opts
        (generateDayCounter rule) us ue).Ends E fun _ => True :=
      makeCoupon_ends_any hE hidx fun heq => absurd heq hrule
    have hcoupons := (makeCoupons_ends_any hidx hcoupon dates.startDates dates.endDates).safe
    apply hcoupons.bind
    intro cashflows _
    refine Comp.Safe.bind (Q := fun _ => True) (Comp.safe_lift ?_) fun _ _ => Comp.safe_pure trivial
    unfold back
    split
    · exact hempty
    · trivial

end DerivedTime

end Dates

end OA
