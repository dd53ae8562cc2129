import OdinAnalytics.Native.CalendarCache
import OdinAnalytics.Spec.CalendarCorrect

/-!
# The calendar cache under every schedule

The key of a calendar string is its region names sorted and joined, so two strings
have one key exactly if they name the same regions. An entry is the union of what
was loaded for the regions of its key, and entries never change, so every call with
one key gets one object.

## Key results

- `joinKey_eq_iff`: the key determines the regions, and nothing but the regions
- `isHoliday_ofData`: a calendar is the union of its regions
- `getCalendar_spec`: what the calls of any number of threads return
-/

namespace OA.StaticCache

open Machine Time Dao Atomic

/-! ## Keys -/

/-- The region names of a calendar string. -/
def regionsOf (calendarsStr : Bytes) : List Bytes := calendarsStr.splitOnP isDelimiter

/-- The key of a calendar string. -/
def keyOf (boost : Boost) (calendarsStr : Bytes) : Bytes :=
  joinKey boost (listOfCalendars boost calendarsStr)

/-- Pieces hold no delimiter if what has been read of the first one does not. -/
private theorem not_of_mem_splitOnPPrepend {p : UInt8 → Bool} (s : Bytes) {acc w : Bytes}
    (hacc : ∀ c ∈ acc, p c = false) (hw : w ∈ s.splitOnPPrepend p acc) : ∀ c ∈ w, p c = false := by
  induction s generalizing acc with
  | nil =>
    rw [List.splitOnPPrepend_nil, List.mem_singleton] at hw
    simpa [hw] using hacc
  | cons x s ih =>
    rw [List.splitOnPPrepend_cons_eq_if] at hw
    -- a separator closes the word read so far, any other byte joins it
    split at hw
    · rw [List.mem_cons, ← List.splitOnPPrepend_nil_right] at hw
      rcases hw with rfl | hw
      · simpa using hacc
      · exact ih (by simp) hw
    · next hx =>
      apply ih _ hw
      rw [List.forall_mem_cons]
      exact ⟨by simpa using hx, hacc⟩

/-- No piece of a split holds a delimiter. -/
theorem not_of_mem_splitOnP {p : UInt8 → Bool} {s w : Bytes} (hw : w ∈ s.splitOnP p) :
    ∀ c ∈ w, p c = false :=
  not_of_mem_splitOnPPrepend s (by simp) (List.splitOnP_eq_splitOnPPrepend ▸ hw)

section Keys

variable {boost : Boost}

/-- Sorting the names that were split off changes nothing but their order. -/
theorem perm_listOfCalendars (boost : Boost) (s : Bytes) :
    (listOfCalendars boost s).Perm (regionsOf s) := by
  unfold listOfCalendars regionsOf
  rw [boost.split_eq]
  exact List.perm_insertionSort _ _

/-- The sorted names tell the regions, and nothing but the regions. -/
theorem listOfCalendars_eq_iff {s t : Bytes} :
    listOfCalendars boost s = listOfCalendars boost t ↔ (regionsOf s).Perm (regionsOf t) := by
  constructor
  · intro h
    exact (perm_listOfCalendars boost s).symm.trans (h ▸ perm_listOfCalendars boost t)
  · intro h
    have hperm : (listOfCalendars boost s).Perm (listOfCalendars boost t) :=
      (perm_listOfCalendars boost s).trans (h.trans (perm_listOfCalendars boost t).symm)
    -- two sorted lists with the same elements are equal
    have hs : (listOfCalendars boost s).Pairwise BytesLe := List.pairwise_insertionSort _ _
    have ht : (listOfCalendars boost t).Pairwise BytesLe := List.pairwise_insertionSort _ _
    exact hperm.eq_of_pairwise (fun _ _ _ _ hab hba => Std.Antisymm.antisymm _ _ hab hba) hs ht

/-- Splitting the key at its commas gives the sorted region names back. -/
theorem splitOn_keyOf (boost : Boost) (s : Bytes) :
    (keyOf boost s).splitOn 44 = listOfCalendars boost s := by
  have hcomma : bytes "," = [44] := by decide
  rw [keyOf, joinKey, boost.join_eq, hcomma]
  apply List.splitOn_intercalate
  · -- a region read between commas has none
    intro region hregion hmem
    have hsplit := (perm_listOfCalendars boost s).mem_iff.mp hregion
    exact absurd (not_of_mem_splitOnP hsplit 44 hmem) (by decide)
  · -- and there is at least one, perhaps empty
    intro hnil
    have hperm := perm_listOfCalendars boost s
    rw [hnil] at hperm
    exact List.splitOnP_ne_nil _ _ hperm.nil_eq.symm

/-- Two calendar strings share a key exactly if they name the same regions, each as
    often, in any order and with any delimiters. -/
theorem keyOf_eq_iff {s t : Bytes} :
    keyOf boost s = keyOf boost t ↔ (regionsOf s).Perm (regionsOf t) := by
  rw [← listOfCalendars_eq_iff]
  constructor
  · intro h
    rw [← splitOn_keyOf, h, splitOn_keyOf]
  · intro h
    rw [keyOf, h, keyOf]

end Keys

/-! ## Calendars of several regions -/

/-- A day is a holiday of a region, or on one of its weekends. -/
def DayOff (data : CalendarDataStruct) (j : Int) : Prop :=
  (⟨j⟩ : Date) ∈ data.listOfHolidays ∨ Calendar.weekday j ∈ data.weekends.map Weekdays.toFin

instance (data : CalendarDataStruct) (j : Int) : Decidable (DayOff data j) := by
  unfold DayOff
  infer_instance

/-- Inserting the elements of a list one by one. -/
theorem mem_foldl_insert {α β : Type} [DecidableEq β] (f : α → β) (xs : List α) (s : Finset β)
    (y : β) : y ∈ xs.foldl (fun s x => insert (f x) s) s ↔ y ∈ s ∨ y ∈ xs.map f := by
  induction xs generalizing s with
  | nil => simp
  | cons x xs ih =>
    rw [List.foldl_cons, ih, Finset.mem_insert, List.map_cons, List.mem_cons]
    tauto

/-- A region adds its days off. -/
theorem not_business_addRegion (cal : Calendar) (data : CalendarDataStruct) (j : Int) :
    ¬ (cal.addRegion data).Business j ↔ ¬ cal.Business j ∨ DayOff data j := by
  -- a holiday is stored as its day number
  have hmem : j ∈ data.listOfHolidays.map Date.julian ↔ (⟨j⟩ : Date) ∈ data.listOfHolidays := by
    rw [List.mem_map]
    constructor
    · rintro ⟨date, hdate, rfl⟩
      exact hdate
    · intro h
      exact ⟨_, h, rfl⟩
  unfold Calendar.Business Calendar.addRegion DayOff
  simp only [mem_foldl_insert, hmem]
  tauto

/-- A calendar is the union of its regions. -/
theorem not_business_ofData (raw : List CalendarDataStruct) (j : Int) :
    ¬ (Calendar.ofData raw).Business j ↔ ∃ data ∈ raw, DayOff data j := by
  -- from any calendar on, each region adds its days off
  have hfold : ∀ cal : Calendar, ¬ (raw.foldl Calendar.addRegion cal).Business j ↔
      ¬ cal.Business j ∨ ∃ data ∈ raw, DayOff data j := by
    induction raw with
    | nil => simp
    | cons data raw ih =>
      intro cal
      rw [List.foldl_cons, ih, not_business_addRegion, List.exists_mem_cons_iff, or_assoc]
  rw [Calendar.ofData, hfold]
  simp [Calendar.Business]

/-- A calendar has the days off of all its regions. -/
theorem isHoliday_ofData (raw : List CalendarDataStruct) {j : Int} (h : 0 ≤ j) :
    (Calendar.ofData raw).isHoliday j = .ok (decide (∃ data ∈ raw, DayOff data j)) := by
  rw [Calendar.isHoliday_eq _ h]
  simp only [not_business_ofData]

/-! ## Entries -/

namespace CalendarCache

variable {boost : Boost} {dataDir : DataDir} {cache : CalendarCache} {s : Bytes}

/-- Loading the regions of a calendar string, in the order of their names. -/
def load (boost : Boost) (dataDir : DataDir) (s : Bytes) : Exec (List CalendarDataStruct) :=
  (listOfCalendars boost s).mapM (getCalendarData dataDir)

/-- The invariant of the cache: an entry is what is loaded for its key, and an object
    of its own. -/
structure WellFormed (boost : Boost) (dataDir : DataDir) (cache : CalendarCache) : Prop where
  loaded : ∀ {key ptr}, cache.calendarCache key = some ptr →
    ∃ s raw, key = keyOf boost s ∧ load boost dataDir s = .ok raw ∧
      ptr.calendar = Calendar.ofData raw
  addr_lt : ∀ {key ptr}, cache.calendarCache key = some ptr → ptr.addr < cache.next
  addr_inj : ∀ {key key' ptr ptr'}, cache.calendarCache key = some ptr →
    cache.calendarCache key' = some ptr' → ptr.addr = ptr'.addr → key = key'

/-- The cache before the first call. -/
theorem wellFormed_empty : WellFormed boost dataDir {} where
  loaded h := nomatch h
  addr_lt h := nomatch h
  addr_inj h := nomatch h

/-- The cache after a calendar has been made for a key that had none. -/
def insertNew (boost : Boost) (cache : CalendarCache) (s : Bytes) (raw : List CalendarDataStruct) :
    CalendarCache where
  calendarCache := Function.update cache.calendarCache (keyOf boost s)
    (some ⟨cache.next, Calendar.ofData raw⟩)
  next := cache.next + 1

/-- What a call does: it finds an entry, fails to load one, or makes one. -/
theorem lookup_cases (boost : Boost) (dataDir : DataDir) (cache : CalendarCache) (s : Bytes) :
    (∃ ptr, cache.calendarCache (keyOf boost s) = some ptr ∧
      lookup boost dataDir (listOfCalendars boost s) cache = (.ok ptr, cache)) ∨
    (∃ f, load boost dataDir s = .error f ∧
      lookup boost dataDir (listOfCalendars boost s) cache = (.error f, cache)) ∨
    (∃ raw, load boost dataDir s = .ok raw ∧ cache.calendarCache (keyOf boost s) = none ∧
      lookup boost dataDir (listOfCalendars boost s) cache =
        (.ok ⟨cache.next, Calendar.ofData raw⟩, cache.insertNew boost s raw)) := by
  have hkey : joinKey boost (listOfCalendars boost s) = keyOf boost s := rfl
  have hload : (listOfCalendars boost s).mapM (getCalendarData dataDir) = load boost dataDir s :=
    rfl
  unfold lookup
  simp only [hkey, hload]
  -- the key is found, or its files are read
  cases hentry : cache.calendarCache (keyOf boost s) with
  | some ptr => exact Or.inl ⟨ptr, rfl, rfl⟩
  | none =>
    cases hraw : load boost dataDir s with
    | error f => exact Or.inr (Or.inl ⟨f, rfl, rfl⟩)
    | ok raw =>
      refine Or.inr (Or.inr ⟨raw, rfl, rfl, ?_⟩)
      simp [makeShared, storeCalendar, isCached, hentry, insertNew]

/-- A new object is found under its key, and everything else as before. -/
theorem insertNew_entry (raw : List CalendarDataStruct) (key : Bytes) :
    (cache.insertNew boost s raw).calendarCache key =
      if key = keyOf boost s then some ⟨cache.next, Calendar.ofData raw⟩
      else cache.calendarCache key :=
  Function.update_apply _ _ _ _

/-- The cache stays well formed when an object is added that has been loaded. -/
theorem WellFormed.insertNew {raw : List CalendarDataStruct} (h : WellFormed boost dataDir cache)
    (hraw : load boost dataDir s = .ok raw) :
    WellFormed boost dataDir (cache.insertNew boost s raw) where
  loaded {key ptr} hentry := by
    rw [insertNew_entry] at hentry
    split at hentry
    · next hkey =>
      cases hentry
      exact ⟨s, raw, hkey, hraw, rfl⟩
    · exact h.loaded hentry
  addr_lt {key ptr} hentry := by
    rw [insertNew_entry] at hentry
    split at hentry
    · cases hentry
      exact Nat.lt_succ_self _
    · exact (h.addr_lt hentry).trans (Nat.lt_succ_self _)
  addr_inj {key key' ptr ptr'} hentry hentry' haddr := by
    -- the new address is above all the others
    rw [insertNew_entry] at hentry hentry'
    split at hentry
    · next hkey =>
      cases hentry
      split at hentry'
      · next hkey' => rw [hkey, hkey']
      · exact absurd haddr (h.addr_lt hentry').ne'
    · split at hentry'
      · cases hentry'
        exact absurd haddr (h.addr_lt hentry).ne
      · exact h.addr_inj hentry hentry' haddr

/-- How calls change the cache: the invariant is kept, and so is every entry. -/
def grows (boost : Boost) (dataDir : DataDir) : Rely CalendarCache where
  rel cache cache' := WellFormed boost dataDir cache → WellFormed boost dataDir cache' ∧
    ∀ key ptr, cache.calendarCache key = some ptr → cache'.calendarCache key = some ptr
  refl _ h := ⟨h, fun _ _ => id⟩
  trans h₁ h₂ h :=
    have h₁' := h₁ h
    have h₂' := h₂ h₁'.1
    ⟨h₂'.1, fun key ptr hentry => h₂'.2 key ptr (h₁'.2 key ptr hentry)⟩

/-- A call keeps the invariant and every entry of the cache. -/
theorem lookup_grows (boost : Boost) (dataDir : DataDir) (cache : CalendarCache) (s : Bytes) :
    (grows boost dataDir).rel cache (lookup boost dataDir (listOfCalendars boost s) cache).2 := by
  obtain ⟨ptr, -, heq⟩ | ⟨f, -, heq⟩ | ⟨raw, hraw, hnone, heq⟩ := lookup_cases boost dataDir cache s
  · rw [heq]
    exact (grows boost dataDir).refl cache
  · rw [heq]
    exact (grows boost dataDir).refl cache
  · rw [heq]
    intro h
    refine ⟨h.insertNew hraw, fun key ptr hentry => ?_⟩
    -- the key of the new entry had no entry before
    have hkey : key ≠ keyOf boost s := by
      rintro rfl
      rw [hnone] at hentry
      cases hentry
    rw [insertNew_entry, if_neg hkey]
    exact hentry

/-- A calendar that a call on `s` returns is the entry of its key. -/
def Entry (boost : Boost) (dataDir : DataDir) (s : Bytes) (r : Except Fault CalendarPtr)
    (cache : CalendarCache) : Prop :=
  WellFormed boost dataDir cache ∧
    ∀ ptr, r = .ok ptr → cache.calendarCache (keyOf boost s) = some ptr

/-- What a call has returned stays the entry of its key, whatever others do. -/
theorem stable_entry (boost : Boost) (dataDir : DataDir) (s : Bytes) :
    Stable (grows boost dataDir) (Entry boost dataDir s) := by
  rintro r cache cache' ⟨hwf, hentry⟩ hrel
  obtain ⟨hwf', hkeep⟩ := hrel hwf
  exact ⟨hwf', fun ptr hr => hkeep _ _ (hentry ptr hr)⟩

/-- A call returns the entry of its key, whenever it is served. -/
theorem sat_getCalendar (h : WellFormed boost dataDir cache) (s : Bytes) :
    (getCalendar boost dataDir s).Sat (grows boost dataDir) (Entry boost dataDir s) cache := by
  apply Prog.sat_atomically
  intro cache' hrel
  have hgrows := lookup_grows boost dataDir cache' s
  refine ⟨hgrows, (hgrows (hrel h).1).1, fun ptr hptr => ?_⟩
  -- found, failed or new
  obtain ⟨ptr', hentry, heq⟩ | ⟨f, -, heq⟩ | ⟨raw, -, -, heq⟩ := lookup_cases boost dataDir cache' s
  · rw [heq] at hptr ⊢
    cases hptr
    exact hentry
  · rw [heq] at hptr
    cases hptr
  · rw [heq] at hptr ⊢
    cases hptr
    rw [insertNew_entry, if_pos rfl]

/-! ## Runs -/

section Run

variable {ι : Type}

/-- Any number of threads that each ask an empty cache for a calendar. -/
def start (boost : Boost) (dataDir : DataDir) (request : ι → Bytes) :
    Pool CalendarCache Fault fun _ : ι => CalendarPtr :=
  ⟨{}, fun i => getCalendar boost dataDir (request i)⟩

variable {request : ι → Bytes}

/-- Every thread comes to return the entry of its key. -/
theorem sat_start : (start boost dataDir request).Sat (grows boost dataDir) fun i =>
    Entry boost dataDir (request i) :=
  fun i => sat_getCalendar wellFormed_empty (request i)

variable [DecidableEq ι] {schedule : List ι}

/-- A calendar that a call has returned is the entry of its key. -/
theorem entry_of_returned {i : ι} {ptr : CalendarPtr}
    (hi : ((start boost dataDir request).run schedule).threads i = .done (.ok ptr)) :
    WellFormed boost dataDir ((start boost dataDir request).run schedule).state ∧
      ((start boost dataDir request).run schedule).state.calendarCache (keyOf boost (request i)) =
        some ptr := by
  obtain ⟨hwf, hentry⟩ := sat_start.result (fun i => stable_entry boost dataDir (request i)) hi
  exact ⟨hwf, hentry ptr rfl⟩

/-- The regions of a calendar string load one by one. -/
theorem mem_load {raw : List CalendarDataStruct} (h : load boost dataDir s = .ok raw)
    {P : CalendarDataStruct → Prop} : (∃ data ∈ raw, P data) ↔
      ∃ region ∈ regionsOf s, ∃ data, getCalendarData dataDir region = .ok data ∧ P data := by
  have hperm := perm_listOfCalendars boost s
  have hmem : ∀ region, region ∈ regionsOf s ↔ region ∈ listOfCalendars boost s := fun _ =>
    hperm.mem_iff.symm
  simp only [hmem]
  unfold load at h
  generalize listOfCalendars boost s = regions at h
  clear hperm hmem
  induction regions generalizing raw with
  | nil =>
    cases h
    simp
  | cons region regions ih =>
    -- the files are read one after the other, and all of them were read
    rw [List.mapM_cons] at h
    obtain ⟨data, hdata, h⟩ := bind_eq_ok.mp h
    obtain ⟨rest, hrest, h⟩ := bind_eq_ok.mp h
    cases h
    rw [List.exists_mem_cons_iff, List.exists_mem_cons_iff]
    exact or_congr (by simp [hdata]) (ih hrest)

/-- A call that fails leaves the cache as it was. -/
theorem state_of_error {i : ι} {f : Fault}
    (hi : (((start boost dataDir request).run schedule).step i).threads i = .done (.error f)) :
    (((start boost dataDir request).run schedule).step i).state =
      ((start boost dataDir request).run schedule).state := by
  have hstart : (start boost dataDir request).threads i =
      getCalendar boost dataDir (request i) := rfl
  have hcases := Pool.run_atomically hstart schedule
  generalize (start boost dataDir request).run schedule = pool at hi hcases ⊢
  -- the call has its step before it, or had it already
  rcases hcases with hcall | ⟨r, hdone⟩
  · rw [Pool.step_of_locked hcall] at hi ⊢
    have hr : (lookup boost dataDir (listOfCalendars boost (request i)) pool.state).1 =
        .error f := by
      simpa using hi
    show (lookup boost dataDir (listOfCalendars boost (request i)) pool.state).2 = pool.state
    -- of the three ways a lookup goes only the last one writes
    obtain ⟨ptr, -, heq⟩ | ⟨f, -, heq⟩ | ⟨raw, -, -, heq⟩ :=
      lookup_cases boost dataDir pool.state (request i)
    · rw [heq]
    · rw [heq]
    · rw [heq] at hr
      cases hr
  · rw [Pool.step_of_done hdone]

/-- Any number of threads ask for calendars, and their calls are served in any order.
    A calendar that is returned has the holidays and weekends of the regions that were
    asked for; calls for the same regions return the same object; calls for different
    regions have different keys and objects; a call that fails changes nothing. -/
theorem getCalendar_spec (boost : Boost) (dataDir : DataDir) (request : ι → Bytes)
    (schedule : List ι) :
    let pool := (start boost dataDir request).run schedule
    (∀ i ptr, pool.threads i = .done (.ok ptr) → ∀ j, 0 ≤ j → ∃ b,
      ptr.calendar.isHoliday j = .ok b ∧ (b = true ↔ ∃ region ∈ regionsOf (request i),
        ∃ data, getCalendarData dataDir region = .ok data ∧ DayOff data j)) ∧
    (∀ i i' ptr ptr', pool.threads i = .done (.ok ptr) → pool.threads i' = .done (.ok ptr') →
      (regionsOf (request i)).Perm (regionsOf (request i')) → ptr = ptr') ∧
    (∀ i i', ¬ (regionsOf (request i)).Perm (regionsOf (request i')) →
      keyOf boost (request i) ≠ keyOf boost (request i') ∧
      ∀ ptr ptr', pool.threads i = .done (.ok ptr) → pool.threads i' = .done (.ok ptr') →
        ptr.addr ≠ ptr'.addr) ∧
    (∀ i f, (pool.step i).threads i = .done (.error f) → (pool.step i).state = pool.state) := by
  intro pool
  refine ⟨?_, ?_, ?_, ?_⟩
  · intro i ptr hi j hj
    obtain ⟨hwf, hentry⟩ := entry_of_returned hi
    obtain ⟨s, raw, hkey, hraw, hcal⟩ := hwf.loaded hentry
    -- the string the entry was made for names the same regions
    have hperm := keyOf_eq_iff.mp hkey
    refine ⟨_, hcal ▸ isHoliday_ofData raw hj, ?_⟩
    rw [decide_eq_true_iff, mem_load hraw]
    constructor
    · rintro ⟨region, hregion, hdata⟩
      exact ⟨region, hperm.mem_iff.mpr hregion, hdata⟩
    · rintro ⟨region, hregion, hdata⟩
      exact ⟨region, hperm.mem_iff.mp hregion, hdata⟩
  · intro i i' ptr ptr' hi hi' hperm
    have hentry := (entry_of_returned hi).2
    rw [keyOf_eq_iff.mpr hperm, (entry_of_returned hi').2] at hentry
    exact (Option.some.inj hentry).symm
  · intro i i' hperm
    have hkey : keyOf boost (request i) ≠ keyOf boost (request i') := fun h =>
      hperm (keyOf_eq_iff.mp h)
    refine ⟨hkey, fun ptr ptr' hi hi' haddr => hkey ?_⟩
    obtain ⟨hwf, hentry⟩ := entry_of_returned hi
    exact hwf.addr_inj hentry (entry_of_returned hi').2 haddr
  · intro i f hi
    exact state_of_error hi

/-- A directory with a file of holidays for `A` and a file of weekends for `B`. -/
def twoRegions (region : Bytes) : CalendarFile :=
  if region = bytes "A" then .contents (bytes "# Holidays" ++ [10] ++ bytes "2024-01-01")
  else if region = bytes "B" then .contents (bytes "#Weekend" ++ [10] ++ bytes "56")
  else .missing

/-- Both regions in either order, one of them, and one without a file. -/
def fourCalls : Fin 4 → Bytes
  | 0 => bytes "A,B"
  | 1 => bytes "B;A"
  | 2 => bytes "B"
  | 3 => bytes "C"

/-- The calls that find their files are served from the second one on, then the last one. -/
theorem getCalendar_spec_fourCalls :
    let pool := (start .classic twoRegions fourCalls).run [1, 2, 0]
    ∃ ptr ptr', pool.threads 0 = .done (.ok ptr) ∧ pool.threads 1 = .done (.ok ptr) ∧
      pool.threads 2 = .done (.ok ptr') ∧ ptr.addr ≠ ptr'.addr ∧
      ptr.calendar.isHoliday 2460311 = .ok true ∧ (pool.step 3).state = pool.state := by
  intro pool
  -- the first three calls return
  have hreturned : ∀ i, i ≠ 3 → ∃ ptr, pool.threads i = .done (.ok ptr) := by
    have hcheck : ∀ i, i ≠ 3 → (pool.threads i).result?.any Except.isOk = true := by
      decide +kernel
    intro i hi
    obtain ⟨r, hr, hok⟩ := (Option.any_eq_true _ _).mp (hcheck i hi)
    cases r with
    | ok ptr => exact ⟨ptr, Prog.result?_eq_some_iff.mp hr⟩
    | error f => cases hok
  -- the fourth asks for a region that has no file
  have hfailed : ∃ f, (pool.step 3).threads 3 = .done (.error f) := by
    have hcheck : ((pool.step 3).threads 3).result?.any (!Except.isOk ·) = true := by
      decide +kernel
    obtain ⟨r, hr, hnot⟩ := (Option.any_eq_true _ _).mp hcheck
    cases r with
    | ok ptr => cases hnot
    | error f => exact ⟨f, Prog.result?_eq_some_iff.mp hr⟩
  obtain ⟨ptr, h⟩ := hreturned 0 (by decide)
  obtain ⟨ptr₁, h₁⟩ := hreturned 1 (by decide)
  obtain ⟨ptr', h'⟩ := hreturned 2 (by decide)
  obtain ⟨f, hf⟩ := hfailed
  -- what holds of these calls
  obtain ⟨hdays, hsame, hother, hfails⟩ :=
    getCalendar_spec .classic twoRegions fourCalls [1, 2, 0]
  obtain rfl := hsame 0 1 ptr ptr₁ h h₁ (by decide +kernel)
  obtain ⟨b, hb, hiff⟩ := hdays 0 ptr h 2460311 (by decide)
  have hday : b = true := hiff.mpr ⟨bytes "A", by decide +kernel,
    ⟨[⟨2460311⟩], [], text (bytes "A")⟩, by decide +kernel, by decide +kernel⟩
  exact ⟨ptr, ptr', h, h₁, h', (hother 0 2 (by decide +kernel)).2 ptr ptr' h h', hday ▸ hb,
    hfails 3 f hf⟩

end Run

end CalendarCache

end OA.StaticCache
