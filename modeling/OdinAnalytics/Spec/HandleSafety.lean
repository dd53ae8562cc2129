import OdinAnalytics.Spec.HandleCorrect

/-!
# Checks before reads

A handle is checked in one section and its object read in another. What is found in
the first is still there in the second: entries are replaced but never removed, and
the kind of an object is the prefix of its key, so an object is only replaced by one
of its kind.

## Key results

- `grows`: what every section does to the map
- `sat_prog`: what each call may rely on and what it finds
- `checkThenGet_spec`: what holds under every schedule
-/

namespace Oxl.XlApi

open Machine Atomic

namespace XlCacheObj

variable {A D : Type}

/-! ## Kinds and prefixes -/

/-- Every key has the prefix of its object. -/
def Prefixed (cache : CacheMap A D) : Prop :=
  ∀ key cachedObj version, cache key = some (cachedObj, version) → handlePrefixer cachedObj <+: key

/-- A key begins with the prefix of its kind of object. -/
theorem prefix_genHandleStr {cellLoc key : Bytes} {cachedObj : CachedObjVar A D}
    (h : genHandleStr cellLoc cachedObj = .ok key) : handlePrefixer cachedObj <+: key := by
  unfold genHandleStr at h
  split at h
  · cases h
  · cases h
    exact List.prefix_append _ _

/-- An object under the key of a dictionary is one. -/
theorem exists_dictionary {key : Bytes} {cachedObj : CachedObjVar A D}
    (hkey : bytes "Dictionary_" <+: key) (h : handlePrefixer cachedObj <+: key) :
    ∃ xlDictionary, cachedObj = .dictionary xlDictionary := by
  cases cachedObj with
  | dictionary xlDictionary => exact ⟨xlDictionary, rfl⟩
  | array xlArray =>
    have hprefix : bytes "Array_" <+: bytes "Dictionary_" :=
      List.prefix_of_prefix_length_le h hkey (by decide)
    exact absurd hprefix (by decide)

/-! ## How the map changes -/

/-- Sections keep the prefixes right and remove no entry. -/
def grows : Rely (CacheMap A D) where
  rel cache cache' := Prefixed cache →
    Prefixed cache' ∧ ∀ key, (cache key).isSome → (cache' key).isSome
  refl _ h := ⟨h, fun _ => id⟩
  trans h₁ h₂ h :=
    have h₁' := h₁ h
    have h₂' := h₂ h₁'.1
    ⟨h₂'.1, fun key hkey => h₂'.2 key (h₁'.2 key hkey)⟩

/-- Writing under a key with the right prefix keeps the invariant. -/
theorem write_grows (cache : CacheMap A D) {key : Bytes} {cachedObj : CachedObjVar A D}
    (hkey : handlePrefixer cachedObj <+: key) :
    grows.rel cache (Versioned.write versions cache key cachedObj) := by
  intro h
  constructor
  · intro key' cachedObj' version hentry
    -- the new entry bears its prefix, the others stay
    by_cases hne : key' = key
    · subst hne
      rw [Versioned.write_self] at hentry
      cases hentry
      exact hkey
    · rw [Versioned.write_of_ne _ hne] at hentry
      exact h key' cachedObj' version hentry
  · intro key' hsome
    by_cases hne : key' = key
    · subst hne
      rw [Versioned.write_self]
      rfl
    · rwa [Versioned.write_of_ne _ hne]

variable {cache : CacheMap A D} {handle key : Bytes}

/-! ## The functions of the cache -/

/-- A handle that is found has an entry, and keeps it. -/
theorem sat_isHandle (h : Prefixed cache) (handle : Bytes) :
    (isHandle handle).Sat grows (fun r cache => ∃ found, r = .ok found ∧ Prefixed cache ∧
      (found = true → (cache (getKeyFromHandle handle)).isSome)) cache := by
  apply Prog.sat_atomically
  intro cache' hrel
  exact ⟨grows.refl cache', _, rfl, (hrel h).1, id⟩

/-- Reading a key that has an entry. -/
theorem sat_getVariant (h : Prefixed cache) (hkey : (cache key).isSome) :
    (getVariant key).Sat grows (fun r cache => ∃ cachedObj, r = .ok cachedObj ∧ Prefixed cache ∧
      (cache key).isSome ∧ handlePrefixer cachedObj <+: key) cache := by
  rw [getVariant_eq]
  apply Prog.sat_atomically
  intro cache' hrel
  obtain ⟨hprefixed, hkeep⟩ := hrel h
  obtain ⟨pair, hpair⟩ := Option.isSome_iff_exists.mp (hkeep key hkey)
  refine ⟨grows.refl cache', pair.1, ?_, hprefixed, hkeep key hkey, hprefixed key _ pair.2 hpair⟩
  simp only [unsafeLoadPair, hpair]
  rfl

/-- The key of a handle that is found to be that of a dictionary has an entry, and the
    prefix of dictionaries. -/
theorem sat_isDictionary (h : Prefixed cache) (handle : Bytes) :
    (isDictionary handle).Sat grows (fun r cache => ∃ found, r = .ok found ∧ Prefixed cache ∧
      (found = true → (cache (getKeyFromHandle handle)).isSome ∧
        bytes "Dictionary_" <+: getKeyFromHandle handle)) cache := by
  apply (sat_isHandle h handle).bind_ok
  intro found cache' hfound
  cases found with
  | false => exact ⟨false, rfl, hfound.1, fun h => nomatch h⟩
  | true =>
    -- between the check and the read the key cannot go
    apply (sat_getVariant hfound.1 (hfound.2 rfl)).bind_ok
    intro cachedObj cache'' hobj
    refine ⟨_, rfl, hobj.1, fun hholds => ⟨hobj.2.1, ?_⟩⟩
    cases cachedObj with
    | array xlArray => cases hholds
    | dictionary xlDictionary => exact hobj.2.2

/-! ## Exported functions -/

/-- Neither a missing entry is read nor an alternative that is not held. -/
def Sound {α : Type} (r : Except Fault α) : Prop :=
  r ≠ .error (.undefined .endIterator) ∧ r ≠ .error (.throws .badVariantAccess)

/-- A value is sound. -/
theorem sound_ok {α : Type} (a : α) : Sound (.ok a) := ⟨nofun, nofun⟩

/-- A runtime error is sound. -/
theorem sound_throwRuntime {α : Type} (what : String) : Sound (throwRuntime what : Exec α) :=
  ⟨nofun, nofun⟩

/-- A program that goes on with a dictionary, if the key is that of one. -/
theorem sat_ifDictionary {α : Type} (h : Prefixed cache) (handle : Bytes)
    {dictionaryCase : CachedObjVar A D → Prog (CacheMap A D) Fault α} {r : Except Fault α}
    (hdictionary : ∀ xlDictionary, ∃ r, dictionaryCase (.dictionary xlDictionary) = .done r ∧
      Sound r) (hr : Sound r) :
    (isDictionary (getKeyFromHandle handle) >>= fun found =>
      if found = true then getVariant (getKeyFromHandle handle) >>= dictionaryCase
      else .done r).Sat grows (fun r cache => Prefixed cache ∧ Sound r) cache := by
  apply (sat_isDictionary h _).bind_ok
  intro found cache' hfound
  cases found with
  | false => exact ⟨hfound.1, hr⟩
  | true =>
    obtain ⟨hkey, hprefix⟩ := hfound.2 rfl
    rw [getKeyFromHandle_idem] at hkey hprefix
    apply (sat_getVariant hfound.1 hkey).bind_ok
    intro cachedObj cache'' hobj
    -- the prefix tells that the object is a dictionary
    obtain ⟨xlDictionary, rfl⟩ := exists_dictionary hprefix hobj.2.2
    obtain ⟨r, hr, hsound⟩ := hdictionary xlDictionary
    rw [hr]
    exact ⟨hobj.1, hsound⟩

/-- Reading a dictionary of a handle after the check finds one. -/
theorem sat_inputDictionary (h : Prefixed cache) (handleStr : Bytes) :
    (inputDictionary handleStr : Prog (CacheMap A D) Fault (Option D)).Sat grows
      (fun r cache => Prefixed cache ∧ Sound r) cache :=
  sat_ifDictionary h handleStr (fun _ => ⟨_, rfl, sound_ok _⟩) (sound_ok _)

/-- Retrieving a dictionary after the check finds one. -/
theorem sat_retrieveXLDict (h : Prefixed cache) (fixingDictHandle : Bytes) :
    (retrieveXLDict (.string fixingDictHandle) : Prog (CacheMap A D) Fault D).Sat grows
      (fun r cache => Prefixed cache ∧ Sound r) cache :=
  sat_ifDictionary h fixingDictHandle (fun _ => ⟨_, rfl, sound_ok _⟩) (sound_throwRuntime _)

/-- Displaying an object after the check finds it. -/
theorem sat_oxlDisplay (h : Prefixed cache) (toXlArray : D → A) (handleStr : Bytes) :
    (oxlDisplay toXlArray handleStr).Sat grows (fun r cache => Prefixed cache ∧ Sound r)
      cache := by
  apply (sat_isHandle h _).bind_ok
  intro found cache' hfound
  cases found with
  | false => exact ⟨hfound.1, sound_throwRuntime _⟩
  | true =>
    have hkey := hfound.2 rfl
    rw [getKeyFromHandle_idem] at hkey
    apply (sat_getVariant hfound.1 hkey).bind_ok
    intro cachedObj cache'' hobj
    -- a range or a dictionary, each is taken as what it is
    cases cachedObj with
    | array xlArray => exact ⟨hobj.1, sound_ok _⟩
    | dictionary xlDictionary => exact ⟨hobj.1, sound_ok _⟩

/-! ## Calls -/

/-- The calls that check a key and then read it. -/
def ChecksThenReads : Call A D → Prop
  | .isDictionary _ => True
  | .inputDictionary _ => True
  | .retrieveXLDict (.string _) => True
  | .oxlDisplay _ => True
  | _ => False

/-- What a call finds on a map where some keys are known to have an entry. -/
def Finds (known : Bytes → Prop) (cache : CacheMap A D) (r : Except Fault (Answer A D)) :
    Call A D → Prop
  | .isHandle handle => r = .ok (.flag true) → (cache (getKeyFromHandle handle)).isSome
  | .isDictionary handle => Sound r ∧ (r = .ok (.flag true) →
      (cache (getKeyFromHandle handle)).isSome ∧ bytes "Dictionary_" <+: getKeyFromHandle handle)
  | .getVariant key => known key →
      ∃ cachedObj, r = .ok (.variant cachedObj) ∧ handlePrefixer cachedObj <+: key
  | .inputDictionary _ => Sound r
  | .retrieveXLDict (.string _) => Sound r
  | .oxlDisplay _ => Sound r
  | _ => True

/-- A call whose program does not look at the map on its own. -/
theorem Sound.sat_bind {α : Type} {p : Prog (CacheMap A D) Fault α}
    (h : p.Sat grows (fun r cache => Prefixed cache ∧ Sound r) cache) (f : α → Answer A D) :
    (p >>= fun a => .done (.ok (f a))).Sat grows (fun r cache => Prefixed cache ∧ Sound r)
      cache := by
  apply h.bind
  · intro a cache' _ ha
    exact ⟨ha.1, sound_ok _⟩
  · -- the same fault, with another type of result
    intro fault cache' _ hfault
    refine ⟨hfault.1, ?_, ?_⟩
    · intro heq
      cases heq
      exact hfault.2.1 rfl
    · intro heq
      cases heq
      exact hfault.2.2 rfl

/-- A construction keeps the invariant. -/
theorem sat_construct (h : Prefixed cache) {cachedObj : CachedObjVar A D}
    (hkey : handlePrefixer cachedObj <+: key) :
    (construct cachedObj key).Sat grows (fun _ cache => Prefixed cache) cache := by
  rw [construct_eq]
  apply Prog.sat_atomically
  intro cache' hrel
  have hwrite := write_grows cache' hkey
  exact ⟨hwrite, (hwrite (hrel h).1).1⟩

/-- A read on its own. -/
theorem sat_read {α : Type} (h : Prefixed cache) (read : CacheMap A D → Except Fault α) :
    (Prog.atomically fun cache => (read cache, cache)).Sat grows (fun _ cache => Prefixed cache)
      cache := by
  apply Prog.sat_atomically
  intro cache' hrel
  exact ⟨grows.refl cache', (hrel h).1⟩

/-- Every call keeps the prefixes right, and finds what is known to be there. -/
theorem sat_prog (toXlArray : D → A) {known : Bytes → Prop} (call : Call A D)
    (hcall : ∀ cachedObj key, call = .construct cachedObj key → handlePrefixer cachedObj <+: key)
    (h : Prefixed cache) (hknown : ∀ key, known key → (cache key).isSome) :
    (call.prog toXlArray).Sat grows (fun r cache => Prefixed cache ∧ Finds known cache r call)
      cache := by
  -- one case for each call
  cases call with
  | construct cachedObj key =>
    exact (sat_construct h (hcall _ _ rfl)).bind (fun _ _ _ hp => ⟨hp, trivial⟩)
      fun _ _ _ hp => ⟨hp, trivial⟩
  | cacheName obj =>
    have hread := sat_read h fun cache =>
      (unsafeLoadPair cache obj.key).map fun pair => formatHandle obj.key pair.2
    rw [← cacheName_eq] at hread
    exact hread.bind (fun _ _ _ hp => ⟨hp, trivial⟩) fun _ _ _ hp => ⟨hp, trivial⟩
  | isHandle handle =>
    apply (sat_isHandle h handle).bind_ok
    intro found cache' hfound
    refine ⟨hfound.1, fun heq => ?_⟩
    cases heq
    exact hfound.2 rfl
  | isDictionary handle =>
    apply (sat_isDictionary h handle).bind_ok
    intro found cache' hfound
    refine ⟨hfound.1, sound_ok _, fun heq => ?_⟩
    cases heq
    exact hfound.2 rfl
  | getVariant key =>
    -- a key known to be there is found, any other may be missing
    by_cases hkey : known key
    · apply (sat_getVariant h (hknown key hkey)).bind_ok
      intro cachedObj cache' hobj
      exact ⟨hobj.1, fun _ => ⟨cachedObj, rfl, hobj.2.2⟩⟩
    · have hread := sat_read h fun cache => (unsafeLoadPair cache key).map Prod.fst
      rw [← getVariant_eq] at hread
      exact hread.bind (fun _ _ _ hp => ⟨hp, fun hk => absurd hk hkey⟩)
        fun _ _ _ hp => ⟨hp, fun hk => absurd hk hkey⟩
  | inputDictionary handleStr => exact Sound.sat_bind (sat_inputDictionary h handleStr) _
  | retrieveXLDict value =>
    cases value with
    | double value => exact ⟨h, trivial⟩
    | string handle => exact Sound.sat_bind (sat_retrieveXLDict h handle) _
    | bool value => exact ⟨h, trivial⟩
  | oxlDisplay handleStr => exact Sound.sat_bind (sat_oxlDisplay h toXlArray handleStr) _

/-! ## Runs -/

/-- Knowing of fewer keys asks for less. -/
theorem Finds.mono {known known' : Bytes → Prop} {r : Except Fault (Answer A D)}
    {call : Call A D} (h : Finds known cache r call) (hknown : ∀ key, known' key → known key) :
    Finds known' cache r call := by
  cases call with
  | getVariant key => exact fun hkey => h (hknown key hkey)
  | retrieveXLDict value =>
    cases value with
    | double value => trivial
    | string handle => exact h
    | bool value => trivial
  | _ => exact h

/-- What is found after a check is sound. -/
theorem Finds.sound {known : Bytes → Prop} {r : Except Fault (Answer A D)} {call : Call A D}
    (h : Finds known cache r call) (hcall : ChecksThenReads call) : Sound r := by
  -- the calls that check and then read
  cases call with
  | isDictionary handle => exact h.1
  | inputDictionary handleStr => exact h
  | retrieveXLDict value =>
    cases value with
    | double value => exact hcall.elim
    | string handle => exact h
    | bool value => exact hcall.elim
  | oxlDisplay handleStr => exact h
  | _ => exact hcall.elim

/-- What a call finds stays true. -/
theorem stable_finds (known : Bytes → Prop) (call : Call A D) :
    Stable grows fun r cache => Prefixed cache ∧ Finds known cache r call := by
  intro r cache cache' hr hrel
  obtain ⟨hprefixed, hkeep⟩ := hrel hr.1
  refine ⟨hprefixed, ?_⟩
  have hfinds := hr.2
  -- what was found stays, as keys are never removed
  cases call with
  | isHandle handle => exact fun heq => hkeep _ (hfinds heq)
  | isDictionary handle =>
    exact ⟨hfinds.1, fun heq => ⟨hkeep _ (hfinds.2 heq).1, (hfinds.2 heq).2⟩⟩
  | retrieveXLDict value =>
    cases value with
    | double value => trivial
    | string handle => exact hfinds
    | bool value => trivial
  | _ => exact hfinds

section Run

variable {ι : Type} (toXlArray : D → A) (request : ι → Call A D)

/-- Any number of threads that each make a call, on a cache that is empty at first. -/
def startCalls : Pool (CacheMap A D) Fault fun _ : ι => Answer A D :=
  ⟨fun _ => none, fun i => (request i).prog toXlArray⟩

variable [DecidableEq ι] {request} {before after : List ι}

/-- What the calls have found under any schedule. -/
theorem sat_run (hkeys : ∀ i cachedObj key, request i = .construct cachedObj key →
      handlePrefixer cachedObj <+: key) (schedule : List ι) :
    Prefixed ((startCalls toXlArray request).run schedule).state ∧
    ((startCalls toXlArray request).run schedule).Sat grows fun i r cache =>
      Prefixed cache ∧ Finds (fun _ => False) cache r (request i) := by
  have hempty : Prefixed (fun _ => none : CacheMap A D) := fun _ _ _ hentry => nomatch hentry
  have hstart : (startCalls toXlArray request).Sat grows fun i r cache =>
      Prefixed cache ∧ Finds (fun _ => False) cache r (request i) :=
    fun i => sat_prog toXlArray (request i) (hkeys i) hempty fun _ hknown => hknown.elim
  obtain ⟨hgrows, hsat⟩ := hstart.run (fun i => stable_finds _ (request i)) schedule
  exact ⟨(hgrows hempty).1, hsat⟩

variable {toXlArray}

/-- A key that has an entry is read later on. -/
theorem getVariant_later (hkeys : ∀ i cachedObj key, request i = .construct cachedObj key →
      handlePrefixer cachedObj <+: key) {j : ι} {key : Bytes} {r : Except Fault (Answer A D)}
    (hkey : (((startCalls toXlArray request).run before).state key).isSome)
    (hrequest : request j = .getVariant key) (hj : j ∉ before)
    (hr : (((startCalls toXlArray request).run before).run after).threads j = .done r) :
    ∃ cachedObj, r = .ok (.variant cachedObj) ∧ handlePrefixer cachedObj <+: key := by
  obtain ⟨hprefixed, hsat⟩ := sat_run toXlArray hkeys before
  have hthread : ((startCalls toXlArray request).run before).threads j =
      (request j).prog toXlArray := Pool.run_threads_of_not_mem hj
  generalize (startCalls toXlArray request).run before = pool at *
  -- the call has not begun, so it may rely on the entries that are there now
  have hlater : pool.Sat grows fun i r cache => Prefixed cache ∧
      Finds (fun key => i = j ∧ (pool.state key).isSome) cache r (request i) := by
    intro i
    by_cases hij : i = j
    · subst hij
      rw [hthread]
      exact sat_prog toXlArray (request i) (hkeys i) hprefixed fun _ hknown => hknown.2
    · exact (hsat i).imp fun r cache _ h =>
        ⟨h.1, h.2.mono fun _ hknown => absurd hknown.1 hij⟩
  have hfinds := (hlater.result (fun i => stable_finds _ (request i)) hr).2
  rw [hrequest] at hfinds
  exact hfinds ⟨rfl, hkey⟩

/-- Any number of threads make calls, their sections in any order, and objects are
    constructed under the keys generated for them. Once a handle was found, reading its
    key finds an entry; once it was found to be that of a dictionary, reading its key
    finds a dictionary; and what checks before it reads never fails on an entry. -/
theorem checkThenGet_spec (toXlArray : D → A) (request : ι → Call A D)
    (hkeys : ∀ i cachedObj key, request i = .construct cachedObj key →
      ∃ cellLoc, genHandleStr cellLoc cachedObj = .ok key) (before after : List ι) :
    let pool := (startCalls toXlArray request).run before
    (∀ i j handle key r, request i = .isHandle handle → pool.threads i = .done (.ok (.flag true)) →
      getKeyFromHandle handle = key → request j = .getVariant key → j ∉ before →
      (pool.run after).threads j = .done r → ∃ cachedObj, r = .ok (.variant cachedObj)) ∧
    (∀ i j handle key r, request i = .isDictionary handle →
      pool.threads i = .done (.ok (.flag true)) →
      getKeyFromHandle handle = key → request j = .getVariant key → j ∉ before →
      (pool.run after).threads j = .done r →
      ∃ xlDictionary, r = .ok (.variant (.dictionary xlDictionary))) ∧
    ∀ i r, ChecksThenReads (request i) → pool.threads i = .done r →
      r ≠ .error (.undefined .endIterator) ∧ r ≠ .error (.throws .badVariantAccess) := by
  intro pool
  -- keys made by the generator start with the prefix of their object
  have hprefix : ∀ i cachedObj key, request i = .construct cachedObj key →
      handlePrefixer cachedObj <+: key := by
    intro i cachedObj key hi
    obtain ⟨cellLoc, hgen⟩ := hkeys i cachedObj key hi
    exact prefix_genHandleStr hgen
  -- a call that is done has found what it says, in the cache as it is now
  have hfinds : ∀ i r, pool.threads i = .done r →
      Finds (fun _ => False) pool.state r (request i) := by
    intro i r hi
    have hsat := (sat_run toXlArray hprefix before).2 i
    have hdone : ((startCalls toXlArray request).run before).threads i = .done r := hi
    rw [hdone] at hsat
    exact hsat.2
  refine ⟨?_, ?_, ?_⟩
  · intro i j handle key r hi hfound hkey hj hnot hr
    have hhandle := hfinds i _ hfound
    rw [hi] at hhandle
    have hsome := hhandle rfl
    rw [hkey] at hsome
    obtain ⟨cachedObj, heq, -⟩ := getVariant_later hprefix hsome hj hnot hr
    exact ⟨cachedObj, heq⟩
  · intro i j handle key r hi hfound hkey hj hnot hr
    have hdictionary := hfinds i _ hfound
    rw [hi] at hdictionary
    obtain ⟨hsome, hname⟩ := hdictionary.2 rfl
    rw [hkey] at hsome hname
    obtain ⟨cachedObj, heq, hobj⟩ := getVariant_later hprefix hsome hj hnot hr
    obtain ⟨xlDictionary, rfl⟩ := exists_dictionary hname hobj
    exact ⟨xlDictionary, heq⟩
  · intro i r hcall hr
    exact (hfinds i r hr).sound hcall

end Run

/-- A dictionary is constructed, found and read. -/
theorem checkThenGet_spec_dictionary :
    let request : Fin 3 → Call ℕ ℕ := fun
      | 0 => .construct (.dictionary 5) (bytes "Dictionary_S")
      | 1 => .isDictionary (bytes "Dictionary_S")
      | 2 => .getVariant (bytes "Dictionary_S")
    let pool := (startCalls id request).run [0, 1, 1]
    ∃ xlDictionary, (pool.run [2]).threads 2 =
      .done (.ok (.variant (.dictionary xlDictionary))) := by
  intro request pool
  -- the one construction uses the key of its cell
  have hkeys : ∀ i cachedObj key, request i = .construct cachedObj key →
      ∃ cellLoc, genHandleStr cellLoc cachedObj = .ok key := by
    intro i cachedObj key hi
    match i, hi with
    | 0, rfl => exact ⟨bytes "[B]S", by decide⟩
    | 1, hi => cases hi
    | 2, hi => cases hi
  have hfound : pool.threads 1 = .done (.ok (.flag true)) := rfl
  have hread : (pool.run [2]).threads 2 = .done (.ok (.variant (.dictionary 5))) := rfl
  have hkey : getKeyFromHandle (bytes "Dictionary_S") = bytes "Dictionary_S" :=
    getKeyFromHandle_eq_self (by decide)
  obtain ⟨xlDictionary, heq⟩ := (checkThenGet_spec id request hkeys [0, 1, 1] [2]).2.1 1 2
    (bytes "Dictionary_S") (bytes "Dictionary_S") _ rfl hfound hkey rfl (by decide) hread
  exact ⟨xlDictionary, hread.trans (congrArg _ heq)⟩

end XlCacheObj

end Oxl.XlApi
