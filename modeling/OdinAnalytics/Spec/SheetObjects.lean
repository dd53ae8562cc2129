import OdinAnalytics.Spec.HandleKeys
import OdinAnalytics.Spec.Requests
import OdinAnalytics.Spec.Sessions

/-!
# Objects behind a sheet

Two of the exported functions put an object into the cache, under the key of the cell that
calls them, and return a handle. All the others leave the objects as they are, and so does
a call that ends in an error. So the objects behind a sheet are the log of these two
functions, and a handle shows the last object of its cell, whatever else was called.

## Key results

- `answers_objects`: what a call does to the objects
- `sheet_objects`: the objects after a session
- `answers_oxlDisplay_iff`: what a handle shows
- `oxlDisplay_oxlArray`: an array that is shown again
- `dictionary_of_handle`: a dictionary by its handle and by its ranges
-/

namespace Oxl

open Machine Atomic OA OA.Time OA.DerivedTime OA.StaticCache OA.Dao XlApi XlCacheObj Transition Utf

variable {host : Host} {boost : Boost} {dataDir : DataDir}

/-! ## Calls that make no object -/

/-- A program on the objects leaves the rest. -/
theorem onObjects_eq {α : Type} (p : Prog (CacheMap XlArray XlDictionary) Fault α)
    (caches : Caches) : Caches.onObjects p caches =
      pure ((p.run caches.objects).1, { caches with objects := (p.run caches.objects).2 }) := rfl

/-- The objects are what they were before. -/
def ObjectsKept (caches caches' : Caches) : Prop := caches'.objects = caches.objects

/-- An action that leaves the objects as they are. -/
structure ReadsObjects {α : Type} (act : Action Caches α) : Prop where
  keeps : Action.Keeps ObjectsKept act

namespace ReadsObjects

variable {α β : Type} {act : Action Caches α} {k : α → Action Caches β}

/-- What is lifted leaves the objects. -/
theorem lift (x : Exec α) : ReadsObjects (.lift x) :=
  ⟨Action.keeps_lift (R := ObjectsKept) (fun _ => rfl) x⟩

/-- What is computed leaves the objects. -/
theorem ofComp (c : Comp α) : ReadsObjects (.ofComp c) :=
  ⟨Action.keeps_ofComp (R := ObjectsKept) (fun _ => rfl) c⟩

/-- Two actions that leave the objects make a whole that leaves them. -/
theorem bind (h : ReadsObjects act) (hk : ∀ a, ReadsObjects (k a)) : ReadsObjects (act >>= k) :=
  ⟨Action.Keeps.bind (R := ObjectsKept) (fun hst htu => htu.trans hst) h.keeps
    fun a => (hk a).keeps⟩

/-- A program that only reads leaves the objects. -/
theorem onObjects {p : Prog (CacheMap XlArray XlDictionary) Fault α} (h : p.ReadOnly) :
    ReadsObjects (Caches.onObjects p) := by
  constructor
  intro caches x caches' hleads
  unfold Action.Leads at hleads
  rw [onObjects_eq, Comp.pure_returns] at hleads
  obtain ⟨-, rfl⟩ := Prod.mk.inj hleads
  exact h caches.objects

/-- The calendar cache is another part. -/
theorem onCalendars (p : Prog CalendarCache Fault α) : ReadsObjects (Caches.onCalendars p) := by
  constructor
  intro caches x caches' hleads
  obtain ⟨calendars, -, rfl⟩ := Action.within_leads.mp hleads
  rfl

end ReadsObjects

/-- All that the requests are composed of leaves the objects, but for the handles. -/
theorem compositional_readsObjects (boost : Boost) (dataDir : DataDir) :
    Compositional boost dataDir ReadsObjects where
  lift := .lift
  ofComp := .ofComp
  bind := .bind
  onObjects := .onObjects
  centers _ _ _ _ _ := .onCalendars _
  ofTexts _ _ _ := .onCalendars _
  businessDateFormula _ _ := (ReadsObjects.onCalendars _).bind fun _ => .lift _

/-! ## Calls that make an object -/

/-- An object with the key of the cell that it is made for. -/
def keyed (host : Host) (caller : Caller) (cacheObj : Exec (CachedObjVar XlArray XlDictionary)) :
    Exec (Bytes × CachedObjVar XlArray XlDictionary) := do
  let cacheObj ← cacheObj
  let key ← genHandleStrFrom host.win caller cacheObj
  return (key, cacheObj)

/-- The object that a call makes, with its key. A call that throws makes none. -/
def Request.creation (host : Host) :
    Request → Option (Bytes × CachedObjVar XlArray XlDictionary)
  | .oxlArray caller data => (keyed host caller (oxlCreateArray host.win data)).toOption
  | .oxlDictionary caller keys value =>
    (keyed host caller (oxlCreateDict host.win host.ctype keys value)).toOption
  | _ => none

/-- The handle of a new object, and the map that it is in. -/
theorem createHandle_run_eq (cachedObj : CachedObjVar XlArray XlDictionary) (key : Bytes)
    (cache : CacheMap XlArray XlDictionary) : (createHandle cachedObj key).run cache =
      (.ok (formatHandle key (Versioned.nextVersion versions (cache key))),
        Versioned.write versions cache key cachedObj) := by
  apply Prod.ext
  · exact createHandle_run cachedObj cache
  · rw [createHandle_eq, Prog.run]
    exact readOnly_cacheName _ _

/-- What a call that makes an object comes to, and what it leaves. -/
def made (caches : Caches) :
    Exec (Bytes × CachedObjVar XlArray XlDictionary) → Exec Result × Caches
  | .ok (key, cacheObj) =>
    (.ok (.string (formatHandle key (Versioned.nextVersion versions (caches.objects key)))),
      { caches with objects := Versioned.write versions caches.objects key cacheObj })
  | .error f => (.error f, caches)

/-- A call that makes an object returns its handle, or ends before the object is stored. -/
theorem makes_eq (host : Host) (caller : Caller)
    (cacheObj : Exec (CachedObjVar XlArray XlDictionary)) (caches : Caches) :
    (Action.lift cacheObj >>= fun cacheObj => handleOf host caller cacheObj) caches =
      pure (made caches (keyed host caller cacheObj)) := by
  cases cacheObj with
  | error f =>
    have hlift : (Action.lift (.error f : Exec (CachedObjVar XlArray XlDictionary))) caches =
        pure (.error f, caches) := rfl
    exact Action.bind_of_error hlift
  | ok obj =>
    refine (Action.bind_of_ok rfl).trans ?_
    unfold handleOf keyed
    rw [ok_bind]
    -- an object whose cell has no key is not made
    cases hkey : genHandleStrFrom host.win caller obj with
    | error f => exact Action.bind_of_error rfl
    | ok key =>
      refine (Action.bind_of_ok rfl).trans ?_
      have hcreate := onObjects_eq (createHandle obj key) caches
      rw [createHandle_run_eq] at hcreate
      rw [Action.bind_of_ok hcreate]
      rfl

/-- What a call does to the objects, whatever it comes to. -/
theorem body_objects {request : Request} {caches caches' : Caches} {y : Exec Result}
    (h : (request.body host).Leads caches y caches') : caches'.objects =
      match request.creation host with
      | some (key, cacheObj) => Versioned.write versions caches.objects key cacheObj
      | none => caches.objects := by
  -- the two creating functions end alike
  have hmakes : ∀ (caller : Caller) (cacheObj : Exec (CachedObjVar XlArray XlDictionary)),
      (Action.lift cacheObj >>= fun cacheObj => handleOf host caller cacheObj).Leads
        caches y caches' → caches'.objects =
          match (keyed host caller cacheObj).toOption with
          | some (key, cacheObj) => Versioned.write versions caches.objects key cacheObj
          | none => caches.objects := by
    intro caller cacheObj hleads
    unfold Action.Leads at hleads
    rw [makes_eq, Comp.pure_returns] at hleads
    cases hkeyed : keyed host caller cacheObj with
    | error f =>
      rw [hkeyed] at hleads
      obtain ⟨-, rfl⟩ := Prod.mk.inj hleads
      rfl
    | ok pair =>
      rw [hkeyed] at hleads
      obtain ⟨-, rfl⟩ := Prod.mk.inj hleads
      rfl
  -- the others only read the objects
  cases request with
  | oxlArray caller data => exact hmakes caller _ h
  | oxlDictionary caller keys value => exact hmakes caller _ h
  | _ => exact ((compositional_readsObjects host.boost host.dataDir).body host rfl rfl rfl).keeps h

/-! ## Objects after a session -/

/-- The object that an event makes, with its key. -/
def Event.creation (host : Host) : Event → Option (Bytes × CachedObjVar XlArray XlDictionary)
  | .call request => request.creation host
  | .free _ => none

/-- One event more. -/
theorem step_objects {event : Event} {sheet sheet' : Spreadsheet}
    (h : sheet.Step host event sheet') : sheet'.caches.objects =
      match event.creation host with
      | some (key, cacheObj) => Versioned.write versions sheet.caches.objects key cacheObj
      | none => sheet.caches.objects := by
  cases h with
  | call hanswer _ =>
    obtain ⟨y, hbody, -⟩ := hanswer
    exact body_objects hbody
  | free _ _ => rfl

/-- The objects behind a sheet are the log of what made them: nothing else that was called
    or freed has an effect on them, and no call that ended in an error. -/
theorem sheet_objects {events : List Event} {sheet : Spreadsheet}
    (h : Runs (Spreadsheet.Step host) {} events sheet) : sheet.caches.objects =
      Versioned.ofLog versions (events.filterMap (Event.creation host)) := by
  induction h with
  | nil => rfl
  | @concat events event _ _ _ hstep ih =>
    rw [step_objects hstep, ih, List.filterMap_append]
    -- the log grows by what the event creates, if it creates anything
    cases hcreation : event.creation host with
    | none => simp [hcreation]
    | some w =>
      simp only [List.filterMap_cons, List.filterMap_nil, hcreation]
      exact (Versioned.ofLog_concat _ _ _).symm

/-! ## What a handle shows -/

/-- The array that is shown for an object. -/
def displayed : CachedObjVar XlArray XlDictionary → XlArray
  | .array xlArray => xlArray
  | .dictionary xlDictionary => xlDictionary.toXlArray

/-- There is a handle exactly if there is an entry under its key. -/
theorem isHandle_run (handle : Bytes) (cache : CacheMap XlArray XlDictionary) :
    (isHandle handle).run cache = (.ok (cache (getKeyFromHandle handle)).isSome, cache) := rfl

/-- There is a dictionary exactly if the entry under the key holds one. -/
theorem isDictionary_run (handle : Bytes) (cache : CacheMap XlArray XlDictionary) :
    (isDictionary handle).run cache =
      (.ok ((cache (getKeyFromHandle handle)).any fun pair => pair.1.holdsDictionary), cache) := by
  unfold isDictionary
  rw [Prog.run_bind, isHandle_run]
  cases hentry : cache (getKeyFromHandle handle) with
  | none => rfl
  | some pair =>
    simp only [Option.isSome_some, if_true]
    rw [Prog.run_bind, getVariant_run, unsafeLoadPair, hentry]
    rfl

/-- What `OxlDisplay` comes to. -/
theorem oxlDisplay_run (handleStr : Bytes) (cache : CacheMap XlArray XlDictionary) :
    (oxlDisplay XlDictionary.toXlArray handleStr).run cache =
      (match cache (getKeyFromHandle handleStr) with
      | some (cacheVariant, _) => .ok (displayed cacheVariant)
      | none => throwRuntime ("excel_base_funcs.cpp:53:OxlDisplay: " ++ text handleStr ++
          " is not a valid cache handle please check input!"), cache) := by
  unfold oxlDisplay
  rw [Prog.run_bind, isHandle_run, getKeyFromHandle_idem]
  cases hentry : cache (getKeyFromHandle handleStr) with
  | none => rfl
  | some pair =>
    simp only [Option.isSome_some, if_true]
    -- what the check found is still there for the read
    rw [Prog.run_bind, getVariant_run, unsafeLoadPair, hentry]
    obtain ⟨cacheVariant, version⟩ := pair
    cases cacheVariant with
    | array xlArray => rfl
    | dictionary xlDictionary => rfl

/-- The dictionary that a handle leads to. -/
theorem inputDictionary_run (handleStr : Bytes) (cache : CacheMap XlArray XlDictionary) :
    (inputDictionary handleStr).run cache =
      (match cache (getKeyFromHandle handleStr) with
      | some (.dictionary xlDictionary, _) => .ok (some xlDictionary)
      | _ => .ok none, cache) := by
  unfold inputDictionary
  rw [Prog.run_bind, isDictionary_run, getKeyFromHandle_idem]
  cases hentry : cache (getKeyFromHandle handleStr) with
  | none => rfl
  | some pair =>
    obtain ⟨cacheVariant, version⟩ := pair
    -- a range is no dictionary, so it is not read
    cases cacheVariant with
    | array xlArray => rfl
    | dictionary xlDictionary =>
      simp only [Option.any_some, CachedObjVar.holdsDictionary, if_true]
      rw [Prog.run_bind, getVariant_run, unsafeLoadPair, hentry]
      rfl

/-- The object that was last made under a key. -/
def lastObject (host : Host) (events : List Event) (key : Bytes) :
    Option (CachedObjVar XlArray XlDictionary) :=
  (Versioned.valuesOf key (events.filterMap (Event.creation host))).getLast?

/-- The object of an event is the last one under its key until another one is made. -/
theorem lastObject_eq {before after : List Event} {event : Event} {key : Bytes}
    {cacheObj : CachedObjVar XlArray XlDictionary}
    (hcreation : event.creation host = some (key, cacheObj))
    (hlast : ∀ w ∈ after.filterMap (Event.creation host), w.1 ≠ key) :
    lastObject host (before ++ [event] ++ after) key = some cacheObj := by
  -- nothing was made under the key afterwards
  have hafter : Versioned.valuesOf key (after.filterMap (Event.creation host)) = [] := by
    rw [Versioned.valuesOf, List.map_eq_nil_iff, List.filter_eq_nil_iff]
    intro w hw
    simpa using hlast w hw
  have hevent : [event].filterMap (Event.creation host) = [(key, cacheObj)] := by
    simp [hcreation]
  rw [lastObject, List.filterMap_append, List.filterMap_append, Versioned.valuesOf_append,
    Versioned.valuesOf_append, hafter, hevent, Versioned.valuesOf_singleton, if_pos rfl,
    List.append_nil, List.getLast?_concat]

/-- What a sheet holds under a key is the last object that was made under it. -/
theorem sheet_object {events : List Event} {sheet : Spreadsheet}
    (h : Runs (Spreadsheet.Step host) {} events sheet) (key : Bytes) :
    (sheet.caches.objects key).map Prod.fst = lastObject host events key := by
  rw [sheet_objects h, Versioned.ofLog_apply, Option.map_map, lastObject]
  exact Option.map_id'

/-- What is shown for a text. -/
def shownFor (handleStr : Bytes) : Option (CachedObjVar XlArray XlDictionary) → Exec Result
  | some cacheObj => .ok (.array (displayed cacheObj))
  | none => throwRuntime ("excel_base_funcs.cpp:53:OxlDisplay: " ++ text handleStr ++
      " is not a valid cache handle please check input!")

/-- A request for a handle comes to what is shown for it, and changes nothing. -/
theorem oxlDisplay_body {handle : Xloper12} {handleStr : Bytes}
    (h : lpXloperToStr host.win handle = .ok handleStr) (caches : Caches) :
    (Request.oxlDisplay handle).body host caches =
      pure (shownFor handleStr ((caches.objects (getKeyFromHandle handleStr)).map Prod.fst),
        caches) := by
  have hshow := onObjects_eq (oxlDisplay XlDictionary.toXlArray handleStr) caches
  rw [oxlDisplay_run] at hshow
  have hcell : oxlDisplayCell host.win handle caches = _ :=
    (Action.bind_of_ok (congrArg (fun x => pure (x, caches)) h)).trans hshow
  -- nothing under the key is an error, anything is shown
  cases hentry : caches.objects (getKeyFromHandle handleStr) with
  | none =>
    rw [hentry] at hcell
    exact Action.bind_of_error hcell
  | some pair =>
    rw [hentry] at hcell
    exact Action.bind_of_ok hcell

/-- What a request for a handle leads to. -/
theorem oxlDisplay_leads {handle : Xloper12} {handleStr : Bytes}
    (h : lpXloperToStr host.win handle = .ok handleStr) (caches : Caches) :
    ((Request.oxlDisplay handle).body host).Leads caches
      (shownFor handleStr ((caches.objects (getKeyFromHandle handleStr)).map Prod.fst))
      caches := by
  unfold Action.Leads
  rw [oxlDisplay_body h, Comp.pure_returns]

/-! ## Handles as texts -/

/-- The key of the arrays, or of the dictionaries, that a cell makes. -/
def keyOfCell (cell : SheetCell) (cacheObj : CachedObjVar XlArray XlDictionary) : Bytes :=
  formatKey cell cacheObj

/-- A cell of a sheet with an ordinary name: ASCII, without a colon, and short. -/
structure Ordinary (cell : SheetCell) : Prop where
  ascii : ∀ c ∈ sheetNm cell.workbook cell.sheet, 0 < c.toNat ∧ c.toNat < 0x80
  not_colon : ':' ∉ cell.sheet
  length_le : cell.sheet.length ≤ 31
  /-- The position is one of `int`s. -/
  row_le : cell.row.natAbs ≤ 2147483648
  col_le : cell.col.natAbs ≤ 2147483648

/-- A byte of a handle before its colon. -/
def IsKeyByte (c : UInt8) : Prop := 0 < c.toNat ∧ c.toNat < 0x80 ∧ c ≠ 58

/-- The digits come before the colon. -/
theorem isKeyByte_of_isDigit {c : UInt8} (h : Decimal.isDigit c = true) :
    0 < c.toNat ∧ c.toNat < 58 := by
  have hdigit := Decimal.isDigit_iff.mp h
  omega

/-- A number has no colon. -/
theorem isKeyByte_reprInt {n : Int} {c : UInt8} (h : c ∈ Decimal.reprInt n) : IsKeyByte c := by
  rcases Decimal.isDigit_of_mem_reprInt h with hdigit | rfl
  · have hlt := isKeyByte_of_isDigit hdigit
    refine ⟨hlt.1, by omega, ?_⟩
    rintro rfl
    exact absurd hlt.2 (by decide)
  · exact ⟨by decide, by decide, by decide⟩

/-- An `int` takes up at most eleven characters. -/
theorem length_reprInt_le {n : Int} (h : n.natAbs ≤ 2147483648) :
    (Decimal.reprInt n).length ≤ 11 := by
  have hdigits := (Decimal.length_repr_le_iff (n := n.natAbs) (k := 10) (by decide)).mpr (by omega)
  unfold Decimal.reprInt
  split
  · rw [List.length_cons]
    omega
  · omega

/-- The key of an ordinary cell is a short ASCII text without a colon. -/
theorem keyOfCell_ordinary {cell : SheetCell} (h : Ordinary cell)
    (cacheObj : CachedObjVar XlArray XlDictionary) :
    (∀ c ∈ keyOfCell cell cacheObj, IsKeyByte c) ∧ (keyOfCell cell cacheObj).length ≤ 67 := by
  have hsheet : ∀ c ∈ cell.sheet, 0 < c.toNat ∧ c.toNat < 0x80 := by
    intro c hc
    apply h.ascii
    simp [sheetNm, hc]
  have hnul : Char.ofNat 0 ∉ sheetNm cell.workbook cell.sheet := by
    intro hmem
    exact absurd (h.ascii _ hmem).1 (by decide)
  -- an ordinary name is kept as it is
  have hkept := cell.keptName_ascii (fun c hc => (h.ascii c hc).2) hnul
  rw [utf8_eq_map fun c hc => (hsheet c hc).2] at hkept
  -- the bytes of the name are those of its characters
  have hname : ∀ c ∈ cell.sheet.map fun c => c.val.toUInt8, IsKeyByte c := by
    intro c hc
    obtain ⟨d, hd, rfl⟩ := List.mem_map.mp hc
    have hcode := (utf8EncodeChar_ascii (hsheet d hd).2).2
    rw [IsKeyByte, hcode]
    refine ⟨(hsheet d hd).1, (hsheet d hd).2, fun hcolon => h.not_colon ?_⟩
    rw [hcolon] at hcode
    rwa [Char.toNat_inj.mp (show d.toNat = ':'.toNat from hcode.symm)] at hd
  -- the longer prefix has eleven bytes
  have hprefix : (∀ c ∈ handlePrefixer cacheObj, IsKeyByte c) ∧
      (handlePrefixer cacheObj).length ≤ 11 := by
    cases cacheObj with
    | array xlArray => simp [handlePrefixer, bytes, IsKeyByte]
    | dictionary xlDictionary => simp [handlePrefixer, bytes, IsKeyByte]
  have hrow := length_reprInt_le h.row_le
  have hcol := length_reprInt_le h.col_le
  have hlength := h.length_le
  constructor
  · intro c hc
    simp only [keyOfCell, formatKey, hkept, formatPosition, List.mem_append, List.mem_cons] at hc
    -- prefix, name, `_$`, row, `$`, column
    rcases hc with hc | hc | rfl | rfl | hc | rfl | hc
    · exact hprefix.1 c hc
    · exact hname c hc
    · exact ⟨by decide, by decide, by decide⟩
    · exact ⟨by decide, by decide, by decide⟩
    · exact isKeyByte_reprInt hc
    · exact ⟨by decide, by decide, by decide⟩
    · exact isKeyByte_reprInt hc
  · simp only [keyOfCell, formatKey, hkept, formatPosition, List.length_append, List.length_cons,
      List.length_map]
    omega

/-- A handle of an ordinary cell is a text that Excel has room for. -/
theorem isPlain_formatHandle {key : Bytes} (hkey : ∀ c ∈ key, IsKeyByte c)
    (hlength : key.length ≤ 67) {version : ℕ} (hversion : version < versions) :
    IsPlain (.string (formatHandle key version)) := by
  -- a version has at most twenty digits
  have hdigits := (Decimal.length_repr_le_iff (n := version) (k := 20) (by decide)).mpr
    (hversion.trans (by decide))
  have hcolon : bytes ":" = [58] := by decide
  rw [formatHandle, hcolon]
  constructor
  · intro c hc
    rw [List.append_assoc, List.mem_append, List.mem_append, List.mem_singleton] at hc
    rcases hc with hc | rfl | hc
    · exact ⟨(hkey c hc).1, (hkey c hc).2.1⟩
    · decide
    · have hlt := isKeyByte_of_isDigit (Decimal.isDigit_of_mem_repr hc)
      omega
  · simp only [List.length_append, List.length_singleton]
    omega

/-- A plain text is delivered as a cell that is read as the text when it is handed back. -/
theorem convertStr_plain (win : Win32) {s : Bytes} (h : IsPlain (.string s)) :
    ∃ str, convertStrToLPXloper win s = .ok (.str str true) ∧
      lpXloperToStr win (.str str false) = .ok s := by
  -- a text is one kind of element
  obtain ⟨cell, hcell, hread⟩ := convertVariant_roundTrips win h
  have hpost := convertStrToLPXloper_post win s
  rw [show convertStrToLPXloper win s = .ok cell from hcell] at hpost
  obtain ⟨str, rfl⟩ := hpost
  obtain ⟨s', hs', heq⟩ := bind_eq_ok.mp hread
  cases heq
  exact ⟨str, hcell, hs'⟩

/-! ## Objects by their handles -/

/-- A call that makes an object comes to the handle of the next version. -/
theorem body_of_creation {request : Request} {key : Bytes}
    {cacheObj : CachedObjVar XlArray XlDictionary}
    (h : request.creation host = some (key, cacheObj)) (caches : Caches) :
    request.body host caches = pure (made caches (.ok (key, cacheObj))) := by
  -- a call that creates an object has its key
  have hmakes : ∀ (caller : Caller) (obj : Exec (CachedObjVar XlArray XlDictionary)),
      (keyed host caller obj).toOption = some (key, cacheObj) →
      (Action.lift obj >>= fun cacheObj => handleOf host caller cacheObj) caches =
        pure (made caches (.ok (key, cacheObj))) := by
    intro caller obj hkeyed
    rw [makes_eq]
    cases hpair : keyed host caller obj with
    | error f =>
      rw [hpair] at hkeyed
      cases hkeyed
    | ok pair =>
      rw [hpair] at hkeyed
      cases hkeyed
      rfl
  cases request with
  | oxlArray caller data => exact hmakes caller _ h
  | oxlDictionary caller keys value => exact hmakes caller _ h
  | _ => cases h

/-- The versions are bounded. -/
theorem nextVersion_lt (entry : Option (CachedObjVar XlArray XlDictionary × ℕ)) :
    Versioned.nextVersion versions entry < versions := by
  cases entry with
  | none => decide
  | some pair => exact Nat.mod_lt _ (by decide)

/-- What is delivered for an object that an ordinary cell makes. -/
theorem answers_of_creation {request : Request} {cell : SheetCell}
    {cacheObj : CachedObjVar XlArray XlDictionary} (hcell : Ordinary cell)
    (h : request.creation host = some (keyOfCell cell cacheObj, cacheObj)) (caches : Caches) :
    ∃ str version caches', request.Answers host caches (.ok (.str str true)) caches' ∧
      lpXloperToStr host.win (.str str false) =
        .ok (formatHandle (keyOfCell cell cacheObj) version) := by
  -- the handle is plain text, so it can be written and read
  obtain ⟨hbytes, hlength⟩ := keyOfCell_ordinary hcell cacheObj
  obtain ⟨str, hstr, hread⟩ := convertStr_plain host.win (isPlain_formatHandle hbytes hlength
    (nextVersion_lt (caches.objects (keyOfCell cell cacheObj))))
  refine ⟨str, _, (made caches (.ok (keyOfCell cell cacheObj, cacheObj))).2,
    ⟨(made caches (.ok (keyOfCell cell cacheObj, cacheObj))).1, ?_, hstr⟩, hread⟩
  unfold Action.Leads
  rw [body_of_creation h, Comp.pure_returns]

/-- A handle that is on the sheet leads to the object that it was delivered for, until
    another object is made under the key. -/
theorem handle_leads {before after : List Event} {sheet₁ sheet : Spreadsheet}
    {request : Request} {handle : Xloper12} {cell : SheetCell}
    {cacheObj : CachedObjVar XlArray XlDictionary} (hcell : Ordinary cell)
    (hcreation : request.creation host = some (keyOfCell cell cacheObj, cacheObj))
    (hcall : Runs (Spreadsheet.Step host) {} (before ++ [.call request]) sheet₁)
    (hhandle : sheet₁.results.head? = some handle)
    (hafter : Runs (Spreadsheet.Step host) sheet₁ after sheet)
    (hlast : ∀ w ∈ after.filterMap (Event.creation host), w.1 ≠ keyOfCell cell cacheObj) :
    ∃ str handleStr, handle = .str str true ∧
      lpXloperToStr host.win (.str str false) = .ok handleStr ∧
      (sheet.caches.objects (getKeyFromHandle handleStr)).map Prod.fst = some cacheObj := by
  have hkey : 58 ∉ keyOfCell cell cacheObj := by
    intro hmem
    exact ((keyOfCell_ordinary hcell cacheObj).1 58 hmem).2.2 rfl
  -- what the call has delivered
  obtain ⟨sheet₀, -, hstep⟩ := runs_concat_iff.mp hcall
  cases hstep with
  | @call _ caches caches' results cell' hanswer hfits =>
    obtain ⟨str, version, _, hanswer', hread⟩ := answers_of_creation hcell hcreation caches
    obtain ⟨heq, -⟩ := hanswer.unique hanswer'
    cases heq
    cases hhandle
    refine ⟨str, _, rfl, hread, ?_⟩
    -- what the key leads to by now
    rw [getKeyFromHandle_formatHandle hkey, sheet_object (runs_append_iff.mpr ⟨_, hcall, hafter⟩)]
    exact lastObject_eq hcreation hlast

/-- The key of an object that a cell makes. -/
theorem keyed_caller (host : Host) (cell : SheetCell)
    (cacheObj : CachedObjVar XlArray XlDictionary) :
    (keyed host cell.caller (.ok cacheObj)).toOption =
      some (keyOfCell cell cacheObj, cacheObj) := by
  rw [keyed, ok_bind, genHandleStrFrom_eq]
  rfl

/-- The object that a call of `oxlArray` makes. -/
theorem creation_oxlArray {data : Xloper12} {array : XlArray} (cell : SheetCell)
    (h : lpXloperToXlArray host.win data = .ok array) :
    (Request.oxlArray cell.caller data).creation host =
      some (keyOfCell cell (.array array), .array array) := by
  have hobject : oxlCreateArray host.win data = .ok (.array array) := by
    rw [oxlCreateArray, h]
    rfl
  show (keyed host cell.caller (oxlCreateArray host.win data)).toOption = _
  rw [hobject]
  exact keyed_caller host cell (.array array)

/-- The object that a call of `oxlDictionary` makes. -/
theorem creation_oxlDictionary {keys value : Xloper12} {dictionary : XlDictionary}
    (cell : SheetCell)
    (h : oxlCreateDict host.win host.ctype keys value = .ok (.dictionary dictionary)) :
    (Request.oxlDictionary cell.caller keys value).creation host =
      some (keyOfCell cell (.dictionary dictionary), .dictionary dictionary) := by
  show (keyed host cell.caller (oxlCreateDict host.win host.ctype keys value)).toOption = _
  rw [h]
  exact keyed_caller host cell (.dictionary dictionary)

/-- The first cell of a sheet. -/
def firstCell : SheetCell := ⟨['b'], ['s'], 0, 0, by decide, by decide, by decide⟩

/-- The first cell is an ordinary one. -/
theorem ordinary_firstCell : Ordinary firstCell where
  ascii := by simp [firstCell, sheetNm]
  not_colon := by decide
  length_le := by decide
  row_le := by decide
  col_le := by decide

/-- A session in which the first cell makes an object, and then something else is asked for. -/
theorem runs_creation {host : Host} {request : Request}
    {cacheObj : CachedObjVar XlArray XlDictionary}
    (h : request.creation host = some (keyOfCell firstCell cacheObj, cacheObj)) :
    ∃ sheet₁ sheet handle, Runs (Spreadsheet.Step host) {} ([] ++ [.call request]) sheet₁ ∧
      sheet₁.results.head? = some handle ∧
      Runs (Spreadsheet.Step host) sheet₁ [.call (.oxlDisplay .nil)] sheet ∧
      handle ∈ sheet.results := by
  obtain ⟨str, version, caches', hanswer, -⟩ := answers_of_creation ordinary_firstCell h {}
  obtain ⟨str', hanswer'⟩ := answers_oxlDisplay_nil host caches'
  exact ⟨_, _, _, Runs.nil.concat (.call hanswer trivial), rfl,
    Runs.nil.concat (.call hanswer' trivial), List.mem_cons_of_mem _ List.mem_cons_self⟩

/-- A range of one number. -/
def numberRange : Xloper12 := .multi 1 1 [.num (.finite 7)] false

/-- The array of that range. -/
def numberArray : XlArray := .fill 1 1 (.double (.finite 7))

theorem lpXloperToXlArray_numberRange :
    lpXloperToXlArray Host.exact.win numberRange = .ok numberArray := rfl

/-- A session in which a cell makes an array of one number: the handle that is on the sheet
    leads to the array, and nothing was made under any other key. -/
theorem runs_number : ∃ events sheet str handleStr,
    Runs (Spreadsheet.Step .exact) {} events sheet ∧ .str str true ∈ sheet.results ∧
      lpXloperToStr Host.exact.win (.str str false) = .ok handleStr ∧
      lastObject .exact events (getKeyFromHandle handleStr) = some (.array numberArray) ∧
      lastObject .exact events [65] = none := by
  have hcreation := creation_oxlArray firstCell lpXloperToXlArray_numberRange
  obtain ⟨sheet₁, sheet, handle, hcall, hhandle, hafter, hmem⟩ := runs_creation hcreation
  -- the second call creates nothing
  have hlast : ∀ w ∈ [Event.call (.oxlDisplay .nil)].filterMap (Event.creation .exact),
      w.1 ≠ keyOfCell firstCell (.array numberArray) := by
    simp [Event.creation, Request.creation]
  obtain ⟨str, handleStr, rfl, hread, hobject⟩ :=
    handle_leads ordinary_firstCell hcreation hcall hhandle hafter hlast
  have hruns := runs_append_iff.mpr ⟨_, hcall, hafter⟩
  refine ⟨_, sheet, str, handleStr, hruns, hmem, hread, ?_, ?_⟩
  · rw [← sheet_object hruns, hobject]
  · -- one object was created, under the key of its cell
    have hlog : [Event.call (.oxlArray firstCell.caller numberRange),
        .call (.oxlDisplay .nil)].filterMap (Event.creation .exact) =
          [(keyOfCell firstCell (.array numberArray), .array numberArray)] := by
      exact List.filterMap_cons_some hcreation
    have hkey : keyOfCell firstCell (.array numberArray) ≠ [65] := by decide +kernel
    exact congrArg List.getLast? ((congrArg (Versioned.valuesOf [65]) hlog).trans
      ((Versioned.valuesOf_singleton _ _ _).trans (if_neg hkey)))

/-- What a cell shows that asks for a handle: the last object that was made under its key,
    and otherwise that there is none. Nothing is changed by asking. -/
theorem answers_oxlDisplay_iff {events : List Event} {sheet : Spreadsheet} {handle : Xloper12}
    {handleStr : Bytes} (h : Runs (Spreadsheet.Step host) {} events sheet)
    (hhandle : lpXloperToStr host.win handle = .ok handleStr) (x : Exec Xloper12)
    (caches : Caches) : (Request.oxlDisplay handle).Answers host sheet.caches x caches ↔
      x = describe host (shownFor handleStr
        (lastObject host events (getKeyFromHandle handleStr))) ∧ caches = sheet.caches := by
  have hbody := oxlDisplay_leads hhandle sheet.caches
  -- the object of a key is the last one in the log
  rw [sheet_object h] at hbody
  constructor
  · intro hanswer
    exact Request.Answers.unique ⟨_, hbody, rfl⟩ hanswer
  · rintro ⟨rfl, rfl⟩
    exact ⟨_, hbody, rfl⟩

/-- The handle of an array that was made, and a text that is no handle. -/
theorem answers_oxlDisplay_iff_number : ∃ events sheet str,
    Runs (Spreadsheet.Step .exact) {} events sheet ∧ .str str true ∈ sheet.results ∧
      (Request.oxlDisplay (.str str false)).Answers .exact sheet.caches
        (describe .exact (.ok (.array numberArray))) sheet.caches ∧
      (Request.oxlDisplay (.str (countedText ['A']) false)).Answers .exact sheet.caches
        (describe .exact (throwRuntime ("excel_base_funcs.cpp:53:OxlDisplay: A is not a valid " ++
          "cache handle please check input!"))) sheet.caches := by
  obtain ⟨events, sheet, str, handleStr, hruns, hmem, hread, hobject, hnone⟩ := runs_number
  -- a text that no call has returned
  have hunknown : lpXloperToStr Host.exact.win (.str (countedText ['A']) false) = .ok [65] := by
    decide +kernel
  refine ⟨events, sheet, str, hruns, hmem, ?_, ?_⟩
  · refine (answers_oxlDisplay_iff hruns hread _ _).mpr ⟨?_, rfl⟩
    rw [hobject]
    rfl
  · refine (answers_oxlDisplay_iff hruns hunknown _ _).mpr ⟨?_, rfl⟩
    rw [show getKeyFromHandle [65] = [65] from rfl, hnone]
    rfl

/-- What is displayed for the handle of an array reads as the array did, after whatever
    else was called, until the cell makes another array. -/
theorem oxlDisplay_oxlArray {before after : List Event} {sheet₁ sheet : Spreadsheet}
    {handle data : Xloper12} {cell : SheetCell} {array : XlArray} (hcell : Ordinary cell)
    (hdata : lpXloperToXlArray host.win data = .ok array)
    (hrows : array.rows ≤ 2147483647) (hcols : array.cols ≤ 2147483647)
    (hplain : ∀ i j value, array.get? i j = some value → IsPlain value)
    (hcall : Runs (Spreadsheet.Step host) {} (before ++ [.call (.oxlArray cell.caller data)])
      sheet₁)
    (hhandle : sheet₁.results.head? = some handle)
    (hafter : Runs (Spreadsheet.Step host) sheet₁ after sheet)
    (hlast : ∀ w ∈ after.filterMap (Event.creation host), w.1 ≠ keyOfCell cell (.array array)) :
    ∃ shown, (Request.oxlDisplay handle.handBack).Answers host sheet.caches (.ok shown)
        sheet.caches ∧
      lpXloperToXlArray host.win shown.handBack = .ok array := by
  obtain ⟨str, handleStr, rfl, hread, hobject⟩ :=
    handle_leads hcell (creation_oxlArray cell hdata) hcall hhandle hafter hlast
  -- the array has a cell, as its texts are plain
  obtain ⟨shown, hshown, lparray, rfl, hholds⟩ :=
    (convertArrayToLPXloper_post (E := fun _ => False) host.win hplain).exists_ok fun _ _ => id
  have hbody := oxlDisplay_leads hread sheet.caches
  rw [hobject] at hbody
  refine ⟨_, ⟨_, hbody, hshown⟩, ?_⟩
  · -- its dimensions are `int`s, so the cell reads as the array
    rw [castInt_eq (by omega), castInt_eq (by omega)]
    exact (lpXloperToXlArray_post hholds).eq_ok

/-- An array of numbers holds no texts. -/
theorem isPlain_fill (rows cols : ℕ) (x : Double) (i j : ℕ) (value : XlVariant)
    (h : (XlArray.fill rows cols (.double x)).get? i j = some value) : IsPlain value := by
  obtain ⟨row, hrow, hvalue⟩ := Option.bind_eq_some_iff.mp h
  rw [List.eq_of_mem_replicate (List.mem_of_getElem? hrow)] at hvalue
  rw [List.eq_of_mem_replicate (List.mem_of_getElem? hvalue)]
  trivial

/-- The array of one number, displayed. -/
theorem oxlDisplay_oxlArray_number : ∃ sheet handle shown,
    (Request.oxlDisplay handle).Answers .exact sheet (.ok shown) sheet ∧
      lpXloperToXlArray Win32.unicode shown.handBack = .ok numberArray := by
  obtain ⟨sheet₁, sheet, handle, hcall, hhandle, hafter, -⟩ :=
    runs_creation (creation_oxlArray firstCell lpXloperToXlArray_numberRange)
  obtain ⟨shown, hshown⟩ := oxlDisplay_oxlArray ordinary_firstCell
    lpXloperToXlArray_numberRange (by decide) (by decide) (isPlain_fill 1 1 _) hcall hhandle
    hafter (by simp [Event.creation, Request.creation])
  exact ⟨_, _, shown, hshown⟩

/-! ## Dictionaries by their handles -/

/-- The dictionary of ranges that an object is made of. -/
theorem dictionaryInput_ranges {keys value : Xloper12} {dictionary : XlDictionary}
    (h : oxlCreateDict host.win host.ctype keys value = .ok (.dictionary dictionary))
    (arguments : XlDictionary → Exec XlDictionary) (caches : Caches) :
    dictionaryInput host keys value arguments caches = pure (.ok dictionary, caches) := by
  unfold oxlCreateDict at h
  unfold dictionaryInput
  split at h
  · next hboth =>
    obtain ⟨d, hd, heq⟩ := bind_eq_ok.mp h
    cases heq
    rw [if_pos hboth, hd]
    rfl
  · next hboth =>
    obtain ⟨d, hd, heq⟩ := bind_eq_ok.mp h
    cases heq
    -- a dictionary cannot be made of anything but a range
    have hkeys : keys.isMulti = true := by
      by_contra hkeys
      unfold lpXloperToDictionary at hd
      rw [if_pos (by simpa using hkeys)] at hd
      cases hd
    rw [if_neg hboth, if_pos hkeys, hd]
    rfl

/-- The dictionary of a handle. -/
theorem dictionaryInput_handle {str : List UInt16} {handleStr : Bytes}
    {dictionary : XlDictionary} {caches : Caches}
    (hread : lpXloperToStr host.win (.str str false) = .ok handleStr)
    (hobject : (caches.objects (getKeyFromHandle handleStr)).map Prod.fst =
      some (.dictionary dictionary))
    (second : Xloper12) (arguments : XlDictionary → Exec XlDictionary) :
    dictionaryInput host (.str str false) second arguments caches =
      pure (.ok dictionary, caches) := by
  have hinput := onObjects_eq (inputDictionary handleStr) caches
  obtain ⟨⟨_, version⟩, hentry, rfl⟩ := Option.map_eq_some_iff.mp hobject
  rw [inputDictionary_run, hentry] at hinput
  refine (Action.bind_of_ok (congrArg (fun x => pure (x, caches)) hread)).trans ?_
  exact Action.bind_of_ok hinput

/-- Requests with the same body have the same answers. -/
theorem answers_congr {request request' : Request} {caches caches' : Caches} {x : Exec Xloper12}
    (h : request.body host caches = request'.body host caches) :
    request.Answers host caches x caches' ↔ request'.Answers host caches x caches' := by
  unfold Request.Answers Action.Leads
  rw [h]

/-- The functions that read a dictionary come to the same for the handle of a dictionary as
    for the ranges that it was made of, after whatever else was called, until the cell makes
    another dictionary. -/
theorem dictionary_of_handle {before after : List Event} {sheet₁ sheet : Spreadsheet}
    {handle keys value : Xloper12} {cell : SheetCell} {dictionary : XlDictionary}
    (hcell : Ordinary cell)
    (hdictionary : oxlCreateDict host.win host.ctype keys value = .ok (.dictionary dictionary))
    (hcall : Runs (Spreadsheet.Step host) {}
      (before ++ [.call (.oxlDictionary cell.caller keys value)]) sheet₁)
    (hhandle : sheet₁.results.head? = some handle)
    (hafter : Runs (Spreadsheet.Step host) sheet₁ after sheet)
    (hlast : ∀ w ∈ after.filterMap (Event.creation host),
      w.1 ≠ keyOfCell cell (.dictionary dictionary)) (x : Exec Xloper12) (caches : Caches) :
    (∀ second rule rule' calendar calendar',
      (Request.oxlComputeDate handle.handBack second rule calendar).Answers host sheet.caches
          x caches ↔
        (Request.oxlComputeDate keys value rule' calendar').Answers host sheet.caches x caches) ∧
    (∀ second calendar calendar',
      (Request.oxlAddBusinessDays handle.handBack second calendar).Answers host sheet.caches
          x caches ↔
        (Request.oxlAddBusinessDays keys value calendar').Answers host sheet.caches x caches) ∧
    ∀ second,
      (Request.oxlGenerateCashFlows handle.handBack second).Answers host sheet.caches x caches ↔
        (Request.oxlGenerateCashFlows keys value).Answers host sheet.caches x caches := by
  obtain ⟨str, handleStr, rfl, hread, hobject⟩ :=
    handle_leads hcell (creation_oxlDictionary cell hdictionary) hcall hhandle hafter hlast
  -- the input is the same, and so is all that is made of it
  have hsame : ∀ {α : Type} (k : XlDictionary → Action Caches α)
      (second : Xloper12) (arguments arguments' : XlDictionary → Exec XlDictionary),
      (dictionaryInput host (.str str false) second arguments >>= k) sheet.caches =
        (dictionaryInput host keys value arguments' >>= k) sheet.caches := by
    intro α k second arguments arguments'
    rw [Action.bind_of_ok (dictionaryInput_handle hread hobject second arguments),
      Action.bind_of_ok (dictionaryInput_ranges hdictionary arguments' sheet.caches)]
  refine ⟨?_, ?_, ?_⟩
  · intro second rule rule' calendar calendar'
    exact answers_congr (hsame _ second _ _)
  · intro second calendar calendar'
    exact answers_congr (hsame _ second _ _)
  · intro second
    exact answers_congr (hsame _ second _ _)

/-- A dictionary of one entry. -/
theorem dictionary_of_handle_entry : ∃ caches handle, ∀ x caches',
    (Request.oxlGenerateCashFlows handle .nil).Answers .exact caches x caches' ↔
      (Request.oxlGenerateCashFlows (.multi 1 1 [.str (countedText ['a']) false] false)
        (.multi 1 1 [.num (.finite 7)] false)).Answers .exact caches x caches' := by
  obtain ⟨dictionary, hdictionary⟩ : ∃ dictionary, oxlCreateDict Host.exact.win Host.exact.ctype
      (.multi 1 1 [.str (countedText ['a']) false] false) (.multi 1 1 [.num (.finite 7)] false) =
        .ok (.dictionary dictionary) := ⟨_, rfl⟩
  obtain ⟨sheet₁, sheet, handle, hcall, hhandle, hafter, -⟩ :=
    runs_creation (creation_oxlDictionary firstCell hdictionary)
  refine ⟨sheet.caches, handle.handBack, fun x caches' => ?_⟩
  exact (dictionary_of_handle ordinary_firstCell hdictionary hcall hhandle hafter
    (by simp [Event.creation, Request.creation]) x caches').2.2 .nil

end Oxl
