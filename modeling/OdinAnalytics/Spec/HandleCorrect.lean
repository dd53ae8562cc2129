import OdinAnalytics.Lib.Versioned
import OdinAnalytics.Native.CacheXlObj

/-!
# Handles, one call after the other

The map of the cache is a versioned store, and after any calls it is that of the log
of the constructions among them. So a handle of any age leads to the last object of
its key, and a new handle is an old one only after the version has wrapped.

## Key results

- `construct_eq`: a construction writes to the versioned store
- `cacheAfter_eq`: the map after any calls
- `handles_spec`: what handles are good for
-/

namespace Oxl.XlApi

open Machine Atomic

variable {A D : Type}

namespace XlCacheObj

/-- The number of versions. -/
def versions : Nat := 18446744073709551616

/-! ## Keys and handles -/

/-- The key is told from the handle. -/
theorem getKeyFromHandle_formatHandle {key : Bytes} (h : 58 ∉ key) (version : ℕ) :
    getKeyFromHandle (formatHandle key version) = key := by
  have hcolon : bytes ":" = [58] := by decide
  rw [getKeyFromHandle, formatHandle, hcolon, List.append_assoc, List.singleton_append]
  exact takeWhile_ne h _

/-- A text without a colon is a key already. -/
theorem getKeyFromHandle_eq_self {key : Bytes} (h : 58 ∉ key) : getKeyFromHandle key = key := by
  rw [getKeyFromHandle, List.takeWhile_eq_self_iff]
  intro c hc
  rw [decide_eq_true_iff]
  rintro rfl
  exact h hc

/-- A key is its own key. -/
theorem getKeyFromHandle_idem (handle : Bytes) :
    getKeyFromHandle (getKeyFromHandle handle) = getKeyFromHandle handle :=
  List.takeWhile_idem

/-- Two handles of one key differ in their versions. -/
theorem formatHandle_right_inj {key : Bytes} {version version' : ℕ} :
    formatHandle key version = formatHandle key version' ↔ version = version' := by
  rw [formatHandle, formatHandle, List.append_cancel_left_eq, Decimal.repr_injective.eq_iff]

/-- A handle determines its key and its version. -/
theorem formatHandle_inj {key key' : Bytes} {version version' : ℕ} (hkey : 58 ∉ key)
    (hkey' : 58 ∉ key') (h : formatHandle key version = formatHandle key' version') :
    key = key' ∧ version = version' := by
  have heq : key = key' := by
    rw [← getKeyFromHandle_formatHandle hkey version, h, getKeyFromHandle_formatHandle hkey']
  subst heq
  exact ⟨rfl, formatHandle_right_inj.mp h⟩

/-! ## Sections -/

section Sections

variable (cache : CacheMap A D)

/-- The version that the source stores next. -/
theorem nextVersion_eq (key : Bytes) :
    nextVersion cache key = .ok (Versioned.nextVersion versions (cache key)) := by
  unfold nextVersion unsafeLoadPair
  cases cache key with
  | none => rfl
  | some pair => rfl

/-- A construction writes to the versioned store. -/
theorem construct_eq (cachedObj : CachedObjVar A D) (key : Bytes) :
    construct cachedObj key = Prog.atomically fun cache =>
      (.ok ⟨key⟩, Versioned.write versions cache key cachedObj) := by
  unfold construct
  simp only [nextVersion_eq]
  rfl

/-- The name of an object is made of the version that is stored by then. -/
theorem cacheName_eq (obj : XlCacheObj) :
    (cacheName obj : Prog (CacheMap A D) Fault Bytes) = Prog.atomically fun cache =>
      ((unsafeLoadPair cache obj.key).map fun pair => formatHandle obj.key pair.2, cache) := by
  exact congrArg (Prog.locked id) (funext fun cache => Prog.done_bind_done _ _)

/-- Reading an object is one section. -/
theorem getVariant_eq (key : Bytes) :
    (getVariant key : Prog (CacheMap A D) Fault (CachedObjVar A D)) =
      Prog.atomically fun cache => ((unsafeLoadPair cache key).map Prod.fst, cache) := by
  exact congrArg (Prog.locked id) (funext fun cache => Prog.done_bind_done _ _)

/-- Making a handle is a section that writes and a section that reads. -/
theorem createHandle_eq (cachedObj : CachedObjVar A D) (key : Bytes) :
    createHandle cachedObj key =
      .locked (fun cache => Versioned.write versions cache key cachedObj)
        fun _ => cacheName ⟨key⟩ := by
  rw [createHandle, construct_eq]
  rfl

/-- The handle says the version that is there by now. -/
theorem cacheName_run (obj : XlCacheObj) : (cacheName obj).run cache =
    ((unsafeLoadPair cache obj.key).map fun pair => formatHandle obj.key pair.2, cache) := by
  rw [cacheName_eq, Prog.run_atomically]

/-- Reading an object finds what is there by now. -/
theorem getVariant_run (key : Bytes) :
    (getVariant key).run cache = ((unsafeLoadPair cache key).map Prod.fst, cache) := by
  rw [getVariant_eq, Prog.run_atomically]

end Sections

/-- Asking for a handle changes nothing. -/
theorem readOnly_isHandle (handle : Bytes) :
    (isHandle handle : Prog (CacheMap A D) Fault Bool).ReadOnly := fun _ => rfl

/-- Naming an object changes nothing. -/
theorem readOnly_cacheName (obj : XlCacheObj) :
    (cacheName obj : Prog (CacheMap A D) Fault Bytes).ReadOnly := fun cache => by
  rw [cacheName_run]

/-- Reading an object changes nothing. -/
theorem readOnly_getVariant (key : Bytes) :
    (getVariant key : Prog (CacheMap A D) Fault (CachedObjVar A D)).ReadOnly := fun cache => by
  rw [getVariant_run]

/-- Asking for a dictionary changes nothing. -/
theorem readOnly_isDictionary (handle : Bytes) :
    (isDictionary handle : Prog (CacheMap A D) Fault Bool).ReadOnly := by
  apply (readOnly_isHandle handle).bind
  intro found
  cases found with
  | false => exact Prog.readOnly_done _
  | true => exact (readOnly_getVariant _).bind fun _ => Prog.readOnly_done _

end XlCacheObj

open XlCacheObj

/-- Reading a dictionary of a handle changes nothing. -/
theorem readOnly_inputDictionary (handleStr : Bytes) :
    (inputDictionary handleStr : Prog (CacheMap A D) Fault (Option D)).ReadOnly := by
  apply (readOnly_isDictionary _).bind
  intro found
  cases found with
  | false => exact Prog.readOnly_done _
  | true =>
    apply (readOnly_getVariant _).bind
    intro cacheVariant
    exact (Prog.readOnly_done _).bind fun _ => Prog.readOnly_done _

/-- Retrieving a dictionary changes nothing. -/
theorem readOnly_retrieveXLDict (value : XlVariant) :
    (retrieveXLDict value : Prog (CacheMap A D) Fault D).ReadOnly := by
  cases value with
  | double value => exact Prog.readOnly_done _
  | bool value => exact Prog.readOnly_done _
  | string handle =>
    -- a text is looked up twice, in two sections that only read
    apply (readOnly_isDictionary _).bind
    intro found
    cases found with
    | false => exact Prog.readOnly_done _
    | true => exact (readOnly_getVariant _).bind fun _ => Prog.readOnly_done _

/-- Displaying an object changes nothing. -/
theorem readOnly_oxlDisplay (toXlArray : D → A) (handleStr : Bytes) :
    (oxlDisplay toXlArray handleStr).ReadOnly := by
  apply (readOnly_isHandle _).bind
  intro found
  -- a check, and a read where it succeeds
  cases found with
  | false => exact Prog.readOnly_done _
  | true =>
    apply (readOnly_getVariant _).bind
    intro cacheVariant
    cases cacheVariant with
    | array xlArray => exact Prog.readOnly_done _
    | dictionary xlDictionary => exact Prog.readOnly_done _

/-- The key and the object of a construction. -/
def Call.construction : Call A D → Option (Bytes × CachedObjVar A D)
  | .construct cachedObj key => some (key, cachedObj)
  | _ => none

namespace XlCacheObj

section Calls

variable (toXlArray : D → A)

/-- The map after calls that are made one after the other. -/
def cacheAfter (calls : List (Call A D)) : CacheMap A D :=
  calls.foldl (fun cache call => ((call.prog toXlArray).run cache).2) fun _ => none

/-- The objects that some calls construct under a key. -/
def objectsOf (calls : List (Call A D)) (key : Bytes) : List (CachedObjVar A D) :=
  Versioned.valuesOf key (calls.filterMap Call.construction)

/-- The objects of two parts of a sequence of calls. -/
theorem objectsOf_append (calls calls' : List (Call A D)) (key : Bytes) :
    objectsOf (calls ++ calls') key = objectsOf calls key ++ objectsOf calls' key := by
  rw [objectsOf, List.filterMap_append, Versioned.valuesOf_append]
  rfl

/-- The object of one construction. -/
theorem objectsOf_construct (cachedObj : CachedObjVar A D) (key key' : Bytes) :
    objectsOf [.construct cachedObj key] key' = if key = key' then [cachedObj] else [] :=
  Versioned.valuesOf_singleton _ _ _

/-- A key with an object is that of a construction. -/
theorem exists_construct {calls : List (Call A D)} {key : Bytes} (h : objectsOf calls key ≠ []) :
    ∃ cachedObj, .construct cachedObj key ∈ calls := by
  obtain ⟨cachedObj, hmem⟩ := List.exists_mem_of_ne_nil _ h
  obtain ⟨w, hw, rfl⟩ := List.mem_map.mp hmem
  obtain ⟨hw, hkey⟩ := List.mem_filter.mp hw
  obtain ⟨call, hcall, hconstruction⟩ := List.mem_filterMap.mp hw
  rw [decide_eq_true_iff] at hkey
  subst hkey
  refine ⟨w.2, ?_⟩
  -- only a construction is logged
  cases call with
  | construct cachedObj key =>
    cases hconstruction
    exact hcall
  | _ => cases hconstruction

/-- Only constructions change the map. -/
theorem prog_run_state (call : Call A D) (cache : CacheMap A D) :
    ((call.prog toXlArray).run cache).2 =
      match call.construction with
      | some (key, cachedObj) => Versioned.write versions cache key cachedObj
      | none => cache := by
  -- only a construction writes
  cases call with
  | construct cachedObj key =>
    rw [Call.prog, Prog.run_bind, construct_eq, Prog.run_atomically]
    rfl
  | cacheName obj => exact ((readOnly_cacheName obj).bind fun _ => Prog.readOnly_done _) cache
  | isHandle handle => exact ((readOnly_isHandle handle).bind fun _ => Prog.readOnly_done _) cache
  | isDictionary handle =>
    exact ((readOnly_isDictionary handle).bind fun _ => Prog.readOnly_done _) cache
  | getVariant key => exact ((readOnly_getVariant key).bind fun _ => Prog.readOnly_done _) cache
  | inputDictionary handleStr =>
    exact ((readOnly_inputDictionary handleStr).bind fun _ => Prog.readOnly_done _) cache
  | retrieveXLDict value =>
    exact ((readOnly_retrieveXLDict value).bind fun _ => Prog.readOnly_done _) cache
  | oxlDisplay handleStr =>
    exact ((readOnly_oxlDisplay toXlArray handleStr).bind fun _ => Prog.readOnly_done _) cache

/-- The map after any calls is that of the constructions among them. -/
theorem cacheAfter_eq (calls : List (Call A D)) :
    cacheAfter toXlArray calls = Versioned.ofLog versions (calls.filterMap Call.construction) := by
  induction calls using List.reverseRecOn with
  | nil => rfl
  | append_singleton calls call ih =>
    have hconcat : cacheAfter toXlArray (calls ++ [call]) =
        ((call.prog toXlArray).run (cacheAfter toXlArray calls)).2 := by simp [cacheAfter]
    rw [hconcat, prog_run_state, ih, List.filterMap_append]
    -- a call writes what it constructs, or nothing
    cases hcall : call.construction with
    | none => simp [hcall]
    | some w =>
      simp only [hcall, List.filterMap_cons, List.filterMap_nil]
      exact (Versioned.ofLog_concat _ _ _).symm

/-- What a key resolves to after some calls. -/
theorem cacheAfter_apply (calls : List (Call A D)) (key : Bytes) :
    cacheAfter toXlArray calls key = (objectsOf calls key).getLast?.map fun cachedObj =>
      (cachedObj, ((objectsOf calls key).length - 1) % versions) := by
  rw [cacheAfter_eq, Versioned.ofLog_apply]
  rfl

/-! ## Handles -/

/-- A call of `CacheName` among some calls returns the handle of the key. -/
def Returned (calls : List (Call A D)) (key handle : Bytes) : Prop :=
  ∃ before rest, calls = before ++ .cacheName ⟨key⟩ :: rest ∧
    ((cacheName ⟨key⟩).run (cacheAfter toXlArray before)).1 = .ok handle

variable {toXlArray} {calls : List (Call A D)} {key handle : Bytes}

/-- A handle carries the version of a construction under its key. -/
theorem Returned.exists_version (h : Returned toXlArray calls key handle) :
    ∃ n, n < (objectsOf calls key).length ∧ handle = formatHandle key (n % versions) := by
  obtain ⟨before, rest, rfl, hrun⟩ := h
  -- the objects written before the read are among all of them
  have hlength : (objectsOf before key).length ≤
      (objectsOf (before ++ .cacheName ⟨key⟩ :: rest) key).length := by
    rw [objectsOf_append, List.length_append]
    omega
  rw [cacheName_run, unsafeLoadPair, cacheAfter_apply] at hrun
  cases hlast : (objectsOf before key).getLast? with
  | none =>
    rw [hlast] at hrun
    cases hrun
  | some cachedObj =>
    have hpos := List.length_pos_of_mem (List.mem_of_getLast? hlast)
    rw [hlast] at hrun
    refine ⟨(objectsOf before key).length - 1, by omega, ?_⟩
    exact (Except.ok.inj hrun).symm

/-- The handle of a new object. -/
theorem createHandle_run (cachedObj : CachedObjVar A D) (cache : CacheMap A D) :
    ((createHandle cachedObj key).run cache).1 =
      .ok (formatHandle key (Versioned.nextVersion versions (cache key))) := by
  rw [createHandle_eq, Prog.run, cacheName_run, unsafeLoadPair, Versioned.write_self]
  rfl

/-- The version of a new object counts the constructions under its key before it. -/
theorem createHandle_cacheAfter (cachedObj : CachedObjVar A D) :
    ((createHandle cachedObj key).run (cacheAfter toXlArray calls)).1 =
      .ok (formatHandle key ((objectsOf calls key).length % versions)) := by
  rw [createHandle_run, cacheAfter_eq, Versioned.nextVersion_ofLog]
  rfl

section CallsOn

variable (cachedObj : CachedObjVar A D) (n : ℕ)

/-- A construction whose handle is taken, and `n` more under the same key. -/
def callsOn (key : Bytes) : List (Call A D) :=
  [.construct cachedObj key, .cacheName ⟨key⟩] ++ List.replicate n (.construct cachedObj key)

/-- So many calls make so many objects. -/
theorem length_objectsOf_callsOn (key : Bytes) :
    (objectsOf (callsOn cachedObj n key) key).length = n + 1 := by
  -- every call constructs an object under the same key
  have hrest : (List.replicate n (Call.construct cachedObj key)).filterMap Call.construction =
      List.replicate n (key, cachedObj) := by
    apply List.filterMap_replicate_of_some
    rfl
  have hcalls : (callsOn cachedObj n key).filterMap Call.construction =
      (key, cachedObj) :: List.replicate n (key, cachedObj) := by
    rw [callsOn, List.filterMap_append, hrest]
    rfl
  simp [objectsOf, hcalls, Versioned.valuesOf]

/-- The keys of these calls have no colon. -/
theorem not_colon_callsOn (hkey : 58 ∉ key) :
    ∀ cachedObj' key', .construct cachedObj' key' ∈ callsOn cachedObj n key → 58 ∉ key' := by
  intro cachedObj' key' hmem
  simp [callsOn] at hmem
  rcases hmem with ⟨-, rfl⟩ | ⟨-, -, rfl⟩
  · exact hkey
  · exact hkey

/-- The first of these calls returns the handle of version zero. -/
theorem returned_callsOn (toXlArray : D → A) (key : Bytes) :
    Returned toXlArray (callsOn cachedObj n key) key (formatHandle key 0) := by
  refine ⟨[.construct cachedObj key], List.replicate n (.construct cachedObj key), rfl, ?_⟩
  rw [cacheName_run, unsafeLoadPair, cacheAfter_apply, objectsOf_construct, if_pos rfl]
  rfl

end CallsOn

/-- Calls are made one after the other, and no key has a colon. A new handle differs from
    all before it as long as at most 2^64 objects are made under its key; a handle of any
    age leads to the last object of its key; a construction changes no other key. -/
theorem handles_spec (toXlArray : D → A) (calls : List (Call A D))
    (hkeys : ∀ cachedObj key, .construct cachedObj key ∈ calls → 58 ∉ key) :
    (∀ cachedObj key, 58 ∉ key → (objectsOf calls key).length < versions →
      ∃ handle, ((createHandle cachedObj key).run (cacheAfter toXlArray calls)).1 = .ok handle ∧
        ∀ key' handle', Returned toXlArray calls key' handle' → handle ≠ handle') ∧
    (∀ key handle, Returned toXlArray calls key handle →
      ((isHandle handle).run (cacheAfter toXlArray calls)).1 = .ok true ∧
      ∃ cachedObj, (objectsOf calls key).getLast? = some cachedObj ∧
        ((getVariant (getKeyFromHandle handle)).run (cacheAfter toXlArray calls)).1 =
          .ok cachedObj) ∧
    ∀ cachedObj key key', key' ≠ key →
      ((getVariant key').run
        (cacheAfter toXlArray (calls ++ [.construct cachedObj key]))).1 =
      ((getVariant key').run (cacheAfter toXlArray calls)).1 := by
  have hcolon : ∀ {key handle}, Returned toXlArray calls key handle → 58 ∉ key := by
    intro key handle h
    obtain ⟨n, hn, -⟩ := h.exists_version
    obtain ⟨cachedObj, hmem⟩ := exists_construct (List.ne_nil_of_length_pos (Nat.zero_lt_of_lt hn))
    exact hkeys cachedObj key hmem
  refine ⟨?_, ?_, ?_⟩
  · intro cachedObj key hkey hlength
    refine ⟨_, createHandle_cacheAfter cachedObj, ?_⟩
    rintro key' handle' hreturned rfl
    obtain ⟨n, hn, heq⟩ := hreturned.exists_version
    obtain ⟨rfl, hversion⟩ := formatHandle_inj hkey (hcolon hreturned) heq
    -- the version of the older handle is below the number of constructions
    rw [Nat.mod_eq_of_lt hlength] at hversion
    have hle := Nat.mod_le n versions
    omega
  · intro key handle hreturned
    have hkey := hcolon hreturned
    obtain ⟨n, hn, rfl⟩ := hreturned.exists_version
    have hlast := List.getLast?_eq_some_getLast (List.ne_nil_of_length_pos (Nat.zero_lt_of_lt hn))
    have hcache := cacheAfter_apply toXlArray calls key
    rw [hlast, Option.map_some] at hcache
    rw [getVariant_run, getKeyFromHandle_formatHandle hkey, unsafeLoadPair, hcache]
    constructor
    · rw [isHandle, Prog.run_atomically, getKeyFromHandle_formatHandle hkey, hcache]
      rfl
    · exact ⟨_, hlast, rfl⟩
  · intro cachedObj key key' hne
    rw [getVariant_run, getVariant_run, unsafeLoadPair, unsafeLoadPair, cacheAfter_apply,
      objectsOf_append, objectsOf_construct, if_neg (Ne.symm hne), List.append_nil,
      ← cacheAfter_apply]

/-- A second object under a key. -/
theorem handles_spec_second :
    let calls := callsOn (.array 5 : CachedObjVar ℕ ℕ) 0 (bytes "Array_S")
    (∃ handle, ((createHandle (.array 6) (bytes "Array_S")).run (cacheAfter id calls)).1 =
        .ok handle ∧
      ∀ key' handle', Returned id calls key' handle' → handle ≠ handle') ∧
    ((isHandle (formatHandle (bytes "Array_S") 0)).run (cacheAfter id calls)).1 = .ok true := by
  have hkey : 58 ∉ bytes "Array_S" := by decide
  have h := handles_spec id _ (not_colon_callsOn (.array 5 : CachedObjVar ℕ ℕ) 0 hkey)
  constructor
  · exact h.1 (.array 6) _ hkey (by simp [length_objectsOf_callsOn, versions])
  · exact (h.2.1 _ _ (returned_callsOn _ 0 id _)).1

/-- The version wraps: the handle of the object after 2^64 others is the first one. -/
theorem not_handles_wrap : ¬ ∀ calls : List (Call ℕ ℕ),
    (∀ cachedObj key, .construct cachedObj key ∈ calls → 58 ∉ key) →
    ∀ cachedObj key, 58 ∉ key →
      ∃ handle, ((createHandle cachedObj key).run (cacheAfter id calls)).1 = .ok handle ∧
        ∀ key' handle', Returned id calls key' handle' → handle ≠ handle' := by
  intro h
  have hkey : 58 ∉ bytes "Array_S" := by decide
  obtain ⟨handle, hrun, hne⟩ :=
    h _ (not_colon_callsOn (.array 5) (versions - 1) hkey) (.array 5) _ hkey
  apply hne _ _ (returned_callsOn (.array 5) (versions - 1) id _)
  rw [createHandle_cacheAfter, length_objectsOf_callsOn] at hrun
  exact (Except.ok.inj hrun).symm

end Calls

end XlCacheObj

end Oxl.XlApi
