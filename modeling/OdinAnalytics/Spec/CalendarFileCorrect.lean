import OdinAnalytics.Spec.CalendarCacheCorrect
import OdinAnalytics.Spec.DateTextCorrect

/-!
# Calendar files

A calendar file has a preamble, the line `#Weekend` with the digits of the weekend
after it, more text, and the line `# Holidays` with nothing but holidays to the end
of the file. Reading such a file yields the weekend and the holidays it lists, and
the calendar made of them has these days off.

## Key results

- `readLines_eq`: what the line loop reads
- `readWeekends_post`: the digits that are weekdays
- `getCalendarData_spec`: the file as a whole
-/

namespace OA.Dao

open Machine Time Decimal

/-- The digits `0` to `6`. -/
def IsWeekdayDigit (c : UInt8) : Prop := 48 ≤ c.toNat ∧ c.toNat ≤ 54

/-! ## Lines -/

/-- The contents of a file whose lines all end in a newline. -/
def unlines (lines : List Bytes) : Bytes := lines.flatMap fun line => line ++ [10]

/-- Lines are separated by newlines, with one behind the last. -/
theorem unlines_eq (lines : List Bytes) : unlines lines = [10].intercalate (lines ++ [[]]) := by
  induction lines with
  | nil => rfl
  | cons line lines ih =>
    have hne : lines ++ [[]] ≠ [] := by simp
    unfold unlines at ih ⊢
    rw [List.flatMap_cons, ih, List.cons_append, List.intercalate_cons_of_ne_nil hne,
      List.append_assoc]

/-- A file is read as the lines that were written to it. -/
theorem fileLines_unlines {lines : List Bytes} (h : ∀ line ∈ lines, 10 ∉ line) :
    fileLines (unlines lines) = lines := by
  -- every line ends with a newline, so the split leaves an empty rest
  have hsplit : (unlines lines).splitOn 10 = lines ++ [[]] := by
    rw [unlines_eq]
    apply List.splitOn_intercalate
    · intro line hline
      rcases List.mem_append.mp hline with hline | hline
      · exact h line hline
      · rw [List.mem_singleton.mp hline]
        exact List.not_mem_nil
    · simp
  unfold fileLines
  rw [hsplit]
  simp

/-! ## The weekend line -/

/-- Digits are read as they are, anything else throws. -/
theorem strToDigits_post (w : Bytes) : Post (strToDigits w) IsThrow fun digits =>
    (∀ c ∈ w, isDigit c = true) ∧ digits = w.map fun c => (c.toNat : Int) - 48 := by
  unfold strToDigits
  split
  · next h => exact ⟨List.all_eq_true.mp h, rfl⟩
  · exact ⟨_, rfl⟩

/-- The numbers from 0 to 6 are the weekdays. -/
theorem valueToWeekdays_post {E : Fault → Prop} {v : Int} (h : 0 ≤ v) (h' : v < 7) :
    Post (valueToWeekdays v) E fun d => (d.toFin : Int) = v := by
  obtain rfl | rfl | rfl | rfl | rfl | rfl | rfl :
    v = 0 ∨ v = 1 ∨ v = 2 ∨ v = 3 ∨ v = 4 ∨ v = 5 ∨ v = 6 := by omega
  all_goals exact post_ok.mpr rfl

/-- The line yields the weekdays of its digits, in order, or is rejected. -/
theorem readWeekends_post (region w : Bytes) : Post (readWeekends region w) IsThrow
    (List.Forall₂ (fun c d => (d.toFin : Int) = (c.toNat : Int) - 48) w) := by
  apply Post.bind (strToDigits_post w)
  rintro digits ⟨-, rfl⟩
  -- the range is checked before the enumeration is asked
  have hloop : ∀ v ∈ w.map fun c => (c.toNat : Int) - 48, Post (if v > -1 ∧ v < 7 then
      valueToWeekdays v else throwRuntime (text region ++ ".hol has an invalid weekend integer " ++
        text w ++ ":calendar_dao.cpp line 52 GetCalendarData()")) IsThrow
      fun d => (d.toFin : Int) = v := by
    intro v _
    split
    · exact valueToWeekdays_post (by omega) (by omega)
    · exact ⟨_, rfl⟩
  exact (post_mapM hloop).weaken fun _ h => List.forall₂_map_left_iff.mp h

/-- Only digits of weekdays have one. -/
theorem isWeekdayDigit_of_forall₂ {w : Bytes} {weekends : List Weekdays}
    (h : List.Forall₂ (fun c d => (d.toFin : Int) = (c.toNat : Int) - 48) w weekends) :
    ∀ c ∈ w, IsWeekdayDigit c := by
  intro c hc
  obtain ⟨d, -, hd⟩ := (exists_of_forall₂ h).1 c hc
  have := d.toFin.isLt
  exact ⟨by omega, by omega⟩

/-- A line of weekday digits is accepted. -/
theorem readWeekends_eq_ok (region : Bytes) {w : Bytes} (h : ∀ c ∈ w, IsWeekdayDigit c) :
    ∃ weekends, readWeekends region w = .ok weekends := by
  have hdigit : w.all isDigit = true := by
    refine List.all_eq_true.mpr fun c hc => isDigit_iff.mpr ?_
    have := h c hc
    exact ⟨this.1, this.2.trans (by decide)⟩
  unfold readWeekends strToDigits
  rw [if_pos hdigit, ok_bind]
  -- each character is a digit from 0 to 6, so no weekday is refused
  refine (post_mapM (E := fun _ => False) (R := fun _ _ => True) ?_).exists_ok (by simp) |>.imp
    fun _ hv => hv.1
  intro v hv
  obtain ⟨c, hc, rfl⟩ := List.mem_map.mp hv
  have := h c hc
  unfold IsWeekdayDigit at this
  rw [if_pos (by omega)]
  exact (valueToWeekdays_post (by omega) (by omega)).weaken fun _ _ => trivial

/-! ## The line loop -/

variable {region contents : Bytes} {data : CalendarDataStruct}

/-- A line that opens neither of the two parts. -/
def IsPlain (line : Bytes) : Prop := line ≠ bytes "#Weekend" ∧ line ≠ bytes "# Holidays"

/-- Lines before the headings are skipped. -/
theorem readLines_plain {lines : List Bytes} (h : ∀ line ∈ lines, IsPlain line)
    (rest : List Bytes) :
    readLines region contents data (lines ++ rest) = readLines region contents data rest := by
  induction lines with
  | nil => rfl
  | cons line lines ih =>
    obtain ⟨hweekend, hholidays⟩ := h line List.mem_cons_self
    rw [List.cons_append, readLines.eq_def]
    simp only [if_neg hweekend, if_neg hholidays]
    exact ih fun l hl => h l (List.mem_cons_of_mem line hl)

/-- The line after the weekend heading is read as weekdays. -/
theorem readLines_weekend (w : Bytes) (rest : List Bytes) :
    readLines region contents data (bytes "#Weekend" :: w :: rest) = (do
      let weekends ← readWeekends region w
      readLines region contents { data with weekends := data.weekends ++ weekends } rest) := by
  rw [readLines.eq_def]
  simp only [if_true]

/-- All lines after the holiday heading are read as dates. -/
theorem readLines_holidays (rest : List Bytes) :
    readLines region contents data (bytes "# Holidays" :: rest) = (do
      let holidays ← rest.mapM Date.ofText
      return { data with listOfHolidays := data.listOfHolidays ++ holidays }) := by
  have hne : bytes "# Holidays" ≠ bytes "#Weekend" := by decide
  rw [readLines.eq_def]
  simp only [if_neg hne, if_true]

/-! ## Whole files -/

variable {dataDir : DataDir} {w : Bytes} {holidays : List Bytes}

/-- A calendar file with the weekend line `w` and the lines `holidays` to its end. -/
def IsCalendarFile (contents w : Bytes) (holidays : List Bytes) : Prop :=
  ∃ pre mid, (∀ line ∈ pre, IsPlain line) ∧ (∀ line ∈ mid, IsPlain line) ∧
    fileLines contents = pre ++ bytes "#Weekend" :: w :: (mid ++ bytes "# Holidays" :: holidays)

/-- The directory that has one file for every region. -/
def oneFile (contents : Bytes) : DataDir := fun _ => .contents contents

/-- The directory has the one file for every region. -/
theorem oneFile_apply (contents region : Bytes) :
    oneFile contents region = .contents contents := rfl

/-- What is read from the two parts: the weekdays of the digits and the dates of the lines,
    both in order. -/
structure Reads (w : Bytes) (holidays : List Bytes) (data : CalendarDataStruct) : Prop where
  weekends : List.Forall₂ (fun c d => (d.toFin : Int) = (c.toNat : Int) - 48) w data.weekends
  holidays : List.Forall₂ (fun line date => Date.ofText line = .ok date) holidays
    data.listOfHolidays

/-- A file in the documented format is read section by section. -/
theorem getCalendarData_eq (hfile : dataDir region = .contents contents)
    (h : IsCalendarFile contents w holidays) : getCalendarData dataDir region = (do
      let weekends ← readWeekends region w
      let dates ← holidays.mapM Date.ofText
      return ⟨dates, weekends, text region⟩) := by
  obtain ⟨pre, mid, hpre, hmid, hlines⟩ := h
  unfold getCalendarData
  rw [hfile]
  simp only
  rw [hlines, readLines_plain hpre, readLines_weekend]
  -- the weekends are read before the holidays
  cases readWeekends region w with
  | error f => simp only [error_bind]
  | ok weekends =>
    rw [ok_bind, readLines_plain hmid, readLines_holidays, ok_bind]
    cases holidays.mapM Date.ofText with
    | error f => simp only [error_bind]
    | ok dates => simp [pure, Except.pure]

/-- The dates are read line by line, or one of them throws. -/
theorem ofText_lines_post (holidays : List Bytes) : Post (holidays.mapM Date.ofText) IsThrow
    (List.Forall₂ (fun line date => Date.ofText line = .ok date) holidays) := by
  apply post_mapM
  intro line _
  -- a line is a date, or the constructor of the date throws
  have hpost := Date.ofText_post line
  cases hline : Date.ofText line with
  | error f =>
    rw [hline] at hpost
    obtain ⟨what, rfl⟩ := hpost
    exact ⟨_, rfl⟩
  | ok date => rfl

/-- What is read of a file in the format is what it says, or it throws. -/
theorem getCalendarData_post (hfile : dataDir region = .contents contents)
    (h : IsCalendarFile contents w holidays) :
    Post (getCalendarData dataDir region) IsThrow (Reads w holidays) := by
  rw [getCalendarData_eq hfile h]
  apply Post.bind (readWeekends_post region w)
  intro weekends hweekends
  apply Post.bind (ofText_lines_post holidays)
  intro dates hdates
  exact post_pure.mpr ⟨hweekends, hdates⟩

/-- A file that is read without a throw is read as it says. -/
theorem reads_of_eq_ok {data : CalendarDataStruct} (hfile : dataDir region = .contents contents)
    (h : IsCalendarFile contents w holidays)
    (hdata : getCalendarData dataDir region = .ok data) : Reads w holidays data := by
  have hpost := getCalendarData_post hfile h
  rwa [hdata] at hpost

/-- The file is accepted if both parts are. -/
theorem getCalendarData_eq_ok (hfile : dataDir region = .contents contents)
    (h : IsCalendarFile contents w holidays) (hw : ∀ c ∈ w, IsWeekdayDigit c)
    (hdates : ∀ line ∈ holidays, ∃ date, Date.ofText line = .ok date) :
    ∃ data, getCalendarData dataDir region = .ok data := by
  obtain ⟨weekends, hweekends⟩ := readWeekends_eq_ok region hw
  -- each date is accepted by itself
  have hone : ∀ line ∈ holidays,
      Post (Date.ofText line) (fun _ => False) fun _ => True := by
    intro line hline
    obtain ⟨date, hdate⟩ := hdates line hline
    rw [hdate]
    trivial
  obtain ⟨dates, hdates, -⟩ :=
    (post_mapM (R := fun _ _ => True) hone).exists_ok fun _ _ => id
  rw [getCalendarData_eq hfile h, hweekends, ok_bind, hdates, ok_bind]
  exact ⟨_, rfl⟩

/-- Where all could be read, all is well formed. -/
theorem Reads.accepted {data : CalendarDataStruct} (h : Reads w holidays data) :
    (∀ c ∈ w, IsWeekdayDigit c) ∧ ∀ line ∈ holidays, ∃ date, Date.ofText line = .ok date := by
  refine ⟨isWeekdayDigit_of_forall₂ h.weekends, fun line hline => ?_⟩
  obtain ⟨date, -, hdate⟩ := (exists_of_forall₂ h.holidays).1 line hline
  exact ⟨date, hdate⟩

/-- The days off of what is read. -/
theorem Reads.dayOff_iff {data : CalendarDataStruct} (h : Reads w holidays data) (j : Int) :
    StaticCache.DayOff data j ↔ (∃ c ∈ w, j % 7 = (c.toNat : Int) - 48) ∨
      ∃ line ∈ holidays, Date.ofText line = .ok ⟨j⟩ := by
  obtain ⟨hline, hdate⟩ := exists_of_forall₂ h.holidays
  obtain ⟨hdigit, hweekday⟩ := exists_of_forall₂ h.weekends
  -- weekdays are numbered as the digits of the file are
  have hmod : ((Calendar.weekday j : Fin 7) : Int) = j % 7 := by
    unfold Calendar.weekday
    simp only
    omega
  unfold StaticCache.DayOff
  rw [or_comm, List.mem_map]
  apply or_congr
  · constructor
    · -- a weekend day is the digit of its weekday
      rintro ⟨d, hd, hj⟩
      obtain ⟨c, hc, hcd⟩ := hweekday d hd
      exact ⟨c, hc, by rw [← hmod, ← hj, hcd]⟩
    · -- every digit of the line was read
      rintro ⟨c, hc, hj⟩
      obtain ⟨d, hd, hcd⟩ := hdigit c hc
      exact ⟨d, hd, Fin.ext (by omega)⟩
  · constructor
    · -- a holiday is the date of its line
      intro hj
      exact hdate _ hj
    · -- and so was every line of the holidays
      rintro ⟨line, hl, hj⟩
      obtain ⟨date, hd, hld⟩ := hline line hl
      rw [hj] at hld
      cases hld
      exact hd

/-- A calendar file is accepted exactly if the weekend line has weekday digits only and every
    line to its end is a date. The digits and the dates, and nothing else, are what is read, and
    they are the days off of the calendar. -/
theorem getCalendarData_spec (hfile : dataDir region = .contents contents)
    (h : IsCalendarFile contents w holidays) :
    ((∃ data, getCalendarData dataDir region = .ok data) ∨
      ∃ e, getCalendarData dataDir region = .error (.throws e)) ∧
    ((∃ e, getCalendarData dataDir region = .error (.throws e)) ↔
      (∃ c ∈ w, ¬ IsWeekdayDigit c) ∨
        ∃ line ∈ holidays, ¬ ∃ date, Date.ofText line = .ok date) ∧
    ∀ data, getCalendarData dataDir region = .ok data →
      List.Forall₂ (fun c d => (d.toFin : Int) = (c.toNat : Int) - 48) w data.weekends ∧
      List.Forall₂ (fun line date => Date.ofText line = .ok date) holidays
        data.listOfHolidays ∧
      ∀ j, 0 ≤ j → ∃ b, (Calendar.ofData [data]).isHoliday j = .ok b ∧
        (b = true ↔ (∃ c ∈ w, j % 7 = (c.toNat : Int) - 48) ∨
          ∃ line ∈ holidays, Date.ofText line = .ok ⟨j⟩) := by
  have hpost := getCalendarData_post hfile h
  -- the scanner has no other way to end
  have hend : (∃ data, getCalendarData dataDir region = .ok data) ∨
      ∃ e, getCalendarData dataDir region = .error (.throws e) := by
    cases hrun : getCalendarData dataDir region with
    | ok data => exact Or.inl ⟨data, rfl⟩
    | error f =>
      rw [hrun] at hpost
      obtain ⟨e, rfl⟩ := hpost
      exact Or.inr ⟨e, rfl⟩
  refine ⟨hend, ⟨?_, ?_⟩, ?_⟩
  · -- it throws: some digit or some date must be wrong, or the file would be read
    rintro ⟨e, he⟩
    by_contra hall
    simp only [not_or, not_exists, not_and, not_not] at hall
    obtain ⟨data, hdata⟩ := getCalendarData_eq_ok hfile h hall.1 fun line hline => by
      simpa using hall.2 line hline
    rw [hdata] at he
    exact nomatch he
  · -- conversely a file that was read has good digits and good dates
    intro hbad
    refine hend.resolve_left ?_
    rintro ⟨data, hdata⟩
    obtain ⟨hw, hdates⟩ := (reads_of_eq_ok hfile h hdata).accepted
    rcases hbad with ⟨c, hc, hc'⟩ | ⟨line, hl, hl'⟩
    · exact hc' (hw c hc)
    · exact hl' (hdates line hl)
  · intro data hdata
    -- the calendar of the file rests on the days it lists
    have hreads := reads_of_eq_ok hfile h hdata
    refine ⟨hreads.weekends, hreads.holidays, fun j hj => ?_⟩
    refine ⟨_, StaticCache.isHoliday_ofData [data] hj, ?_⟩
    rw [decide_eq_true_iff]
    simp only [List.mem_singleton, exists_eq_left, hreads.dayOff_iff]

/-- A file of two holidays, with a comment in front and one after the weekend line. -/
theorem getCalendarData_spec_file :
    (∃ e, getCalendarData (oneFile (unlines [bytes "NYB", bytes "#Weekend", bytes "56", bytes "",
      bytes "# Holidays", bytes "2025-01-01", bytes "2025-12-25"])) (bytes "NYB") =
        .error (.throws e)) ↔
    (∃ c ∈ bytes "56", ¬ IsWeekdayDigit c) ∨
      ∃ line ∈ [bytes "2025-01-01", bytes "2025-12-25"],
        ¬ ∃ date, Date.ofText line = .ok date := by
  have hfile : IsCalendarFile (unlines [bytes "NYB", bytes "#Weekend", bytes "56", bytes "",
      bytes "# Holidays", bytes "2025-01-01", bytes "2025-12-25"]) (bytes "56")
      [bytes "2025-01-01", bytes "2025-12-25"] := by
    refine ⟨[bytes "NYB"], [bytes ""], by unfold IsPlain; decide, by unfold IsPlain; decide, ?_⟩
    rw [fileLines_unlines (by decide)]
    rfl
  exact (getCalendarData_spec (oneFile_apply _ (bytes "NYB")) hfile).2.1

end OA.Dao
