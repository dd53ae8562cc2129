import OdinAnalytics.Spec.HandleCorrect

/-!
# Handles of calls that overlap

A call that makes a handle takes two sections: it stores its object with a version,
and it reads back the version that is stored by then. Between the two another call
may have stored an object of its own under the key, and both return its version.
Where no call comes between the sections of another under one key, and no version
wraps, every handle carries the version of its own construction.

## Key results

- `Inv.step`: the invariant of such runs
- `ownHandles_of_undisturbed`: their handles
- `not_ownHandles_overlap`: two calls that overlap return one handle
-/

namespace Oxl.XlApi

open Machine Atomic

namespace XlCacheObj

variable {A D ι : Type}

/-- The version stored under a key. -/
def versionOf (cache : CacheMap A D) (key : Bytes) : Option ℕ := (cache key).map Prod.snd

/-- A construction goes on to the next version of its key. -/
theorem versionOf_write_self (cache : CacheMap A D) (key : Bytes) (obj : CachedObjVar A D) :
    versionOf (Versioned.write versions cache key obj) key =
      some (Versioned.nextVersion versions (cache key)) := by
  rw [versionOf, Versioned.write_self, Option.map_some]

/-- A construction leaves the versions of other keys. -/
theorem versionOf_write_of_ne (cache : CacheMap A D) {key key' : Bytes} (h : key' ≠ key)
    (obj : CachedObjVar A D) :
    versionOf (Versioned.write versions cache key obj) key' = versionOf cache key' := by
  rw [versionOf, Versioned.write_of_ne _ h, versionOf]

/-- The version after one that does not wrap. -/
theorem nextVersion_of_versionOf {cache : CacheMap A D} {key : Bytes} {version : ℕ}
    (h : versionOf cache key = some version) (hwrap : version + 1 < versions) :
    Versioned.nextVersion versions (cache key) = version + 1 := by
  obtain ⟨pair, hpair, rfl⟩ := Option.map_eq_some_iff.mp h
  rw [hpair]
  exact Nat.mod_eq_of_lt hwrap

section Race

variable [DecidableEq ι] (obj : ι → CachedObjVar A D) (key : ι → Bytes)

/-- Calls that each make a handle, on a cache that is empty at first. -/
def runHandles (schedule : List ι) : Pool (CacheMap A D) Fault fun _ : ι => Bytes :=
  Pool.run ⟨fun _ => none, fun i => createHandle (obj i) (key i)⟩ schedule

/-- The version that the construction of a call stored: the one under its key after the
    first of its sections. -/
def ownVersion (schedule : List ι) (i : ι) : Option ℕ :=
  versionOf (runHandles obj key (schedule.takeWhile (· ≠ i) ++ [i])).state (key i)

/-- Every handle carries the version of its own construction, and two calls under one key
    return different handles. -/
def OwnHandles (schedule : List ι) : Prop :=
  (∀ i handle, (runHandles obj key schedule).threads i = .done (.ok handle) →
    ∃ version, ownVersion obj key schedule i = some version ∧
      handle = formatHandle (key i) version) ∧
  ∀ i j handle, i ≠ j → key i = key j →
    (runHandles obj key schedule).threads i = .done (.ok handle) →
    (runHandles obj key schedule).threads j ≠ .done (.ok handle)

/-- If the next section of a call is its construction, no other call stands between the two
    sections under its key, and the version under the key does not wrap. -/
def MayStep (pool : Pool (CacheMap A D) Fault fun _ : ι => Bytes) (i : ι) : Prop :=
  pool.threads i = createHandle (obj i) (key i) →
    (∀ j, j ≠ i → key j = key i → pool.threads j ≠ cacheName ⟨key j⟩) ∧
    ∀ version, versionOf pool.state (key i) = some version → version + 1 < versions

/-- A run in which this is so at every step. -/
def Undisturbed (schedule : List ι) : Prop :=
  ∀ before i rest, schedule = before ++ i :: rest →
    MayStep obj key (runHandles obj key before) i

variable {obj key} {schedule : List ι} {i j : ι}

/-- No schedule disturbs before it begins. -/
theorem undisturbed_nil : Undisturbed obj key ([] : List ι) := by
  intro before i rest h
  simp at h

/-- A schedule is undisturbed if it was so far and the last step may be taken. -/
theorem undisturbed_concat : Undisturbed obj key (schedule ++ [i]) ↔
    Undisturbed obj key schedule ∧ MayStep obj key (runHandles obj key schedule) i := by
  constructor
  · intro h
    refine ⟨?_, h schedule i [] rfl⟩
    intro before j rest heq
    exact h before j (rest ++ [i]) (by rw [heq, List.append_assoc, List.cons_append])
  · rintro ⟨h, hmay⟩ before j rest heq
    -- the last step is the new one, or it was a step before
    induction rest using List.reverseRecOn with
    | nil =>
      obtain ⟨rfl, hi⟩ := List.append_inj' heq rfl
      cases hi
      exact hmay
    | append_singleton rest k _ =>
      rw [← List.cons_append, ← List.append_assoc] at heq
      exact h before j rest (List.append_inj' heq rfl).1

/-- The last step of a schedule. -/
theorem runHandles_concat :
    runHandles obj key (schedule ++ [i]) = (runHandles obj key schedule).step i := by
  rw [runHandles, Pool.run_append]
  rfl

/-! ## Own versions -/

/-- What comes later does not change the version of a construction. -/
theorem ownVersion_append (h : i ∈ schedule) (rest : List ι) :
    ownVersion obj key (schedule ++ rest) i = ownVersion obj key schedule i := by
  obtain ⟨before, after, rfl, hbefore⟩ := List.eq_append_cons_of_mem h
  rw [ownVersion, ownVersion, List.append_assoc, List.cons_append, takeWhile_ne hbefore,
    takeWhile_ne hbefore]

/-- The version that a construction has given is the one that is there after it. -/
theorem ownVersion_concat_self (h : i ∉ schedule) :
    ownVersion obj key (schedule ++ [i]) i =
      versionOf (runHandles obj key (schedule ++ [i])).state (key i) := by
  rw [ownVersion, takeWhile_ne h]

/-! ## The invariant -/

/-- The invariant of an undisturbed run. -/
structure Inv (obj : ι → CachedObjVar A D) (key : ι → Bytes) (schedule : List ι) : Prop where
  waiting : ∀ i ∉ schedule,
    (runHandles obj key schedule).threads i = createHandle (obj i) (key i)
  /-- The own version of a call is at most the stored one, and is the stored one until the
      call has read it. -/
  begun : ∀ i ∈ schedule, ∃ version current, ownVersion obj key schedule i = some version ∧
    versionOf (runHandles obj key schedule).state (key i) = some current ∧
    version ≤ current ∧
    ((runHandles obj key schedule).threads i = cacheName ⟨key i⟩ ∧ version = current ∨
      (runHandles obj key schedule).threads i =
        .done (.ok (formatHandle (key i) version)))
  distinct : ∀ i ∈ schedule, ∀ j ∈ schedule, i ≠ j → key i = key j →
    ownVersion obj key schedule i ≠ ownVersion obj key schedule j

/-- The invariant holds before the schedule begins. -/
theorem inv_nil : Inv obj key ([] : List ι) where
  waiting _ _ := rfl
  begun _ hi := nomatch hi
  distinct _ hi := nomatch hi

/-- The first section of a call. -/
theorem step_construct {pool : Pool (CacheMap A D) Fault fun _ : ι => Bytes}
    (h : pool.threads i = createHandle (obj i) (key i)) :
    pool.step i = ⟨Versioned.write versions pool.state (key i) (obj i),
      Function.update pool.threads i (cacheName ⟨key i⟩)⟩ := by
  rw [createHandle_eq] at h
  rw [Pool.step_of_locked h]

/-- The second section of a call, where the stored version is known. -/
theorem step_cacheName {pool : Pool (CacheMap A D) Fault fun _ : ι => Bytes} {version : ℕ}
    (h : pool.threads i = cacheName ⟨key i⟩)
    (hversion : versionOf pool.state (key i) = some version) :
    pool.step i = ⟨pool.state,
      Function.update pool.threads i (.done (.ok (formatHandle (key i) version)))⟩ := by
  obtain ⟨pair, hpair, rfl⟩ := Option.map_eq_some_iff.mp hversion
  rw [cacheName_eq] at h
  rw [Pool.step_of_locked h]
  simp only [unsafeLoadPair, hpair]
  rfl

/-- A step of one call is no step of another. -/
theorem runHandles_concat_of_ne (h : j ≠ i) : (runHandles obj key (schedule ++ [i])).threads j =
    (runHandles obj key schedule).threads j := by
  rw [runHandles_concat, Pool.step_threads_of_ne h]

/-- A version above the earlier ones of its key keeps the versions of a key apart. -/
theorem distinct_append {n : Nat}
    (hdistinct : ∀ j ∈ schedule, ∀ k ∈ schedule, j ≠ k → key j = key k →
      ownVersion obj key schedule j ≠ ownVersion obj key schedule k)
    (hown : ownVersion obj key (schedule ++ [i]) i = some n)
    (hbelow : ∀ j ∈ schedule, key j = key i → ∃ version,
      ownVersion obj key (schedule ++ [i]) j = some version ∧ version < n) :
    ∀ j ∈ schedule ++ [i], ∀ k ∈ schedule ++ [i], j ≠ k → key j = key k →
      ownVersion obj key (schedule ++ [i]) j ≠ ownVersion obj key (schedule ++ [i]) k := by
  intro j hj k hk hjk hkey
  rw [List.mem_append, List.mem_singleton] at hj hk
  -- only the new thread's version is in question
  rcases hj with hj | rfl
  · rcases hk with hk | rfl
    · rw [ownVersion_append hj, ownVersion_append hk]
      exact hdistinct j hj k hk hjk hkey
    · obtain ⟨version, hversion, hversion'⟩ := hbelow j hj hkey
      rw [hversion, hown]
      exact fun h => hversion'.ne (Option.some.inj h)
  · rcases hk with hk | rfl
    · obtain ⟨version, hversion, hversion'⟩ := hbelow k hk hkey.symm
      rw [hversion, hown]
      exact fun h => hversion'.ne' (Option.some.inj h)
    · exact absurd rfl hjk

/-- A construction under a key that no other call is about to read keeps the invariant. -/
theorem Inv.step_construct (hinv : Inv obj key schedule) (hi : i ∉ schedule)
    (hmay : MayStep obj key (runHandles obj key schedule) i) : Inv obj key (schedule ++ [i]) := by
  have hthread := hinv.waiting i hi
  obtain ⟨halone, hwrap⟩ := hmay hthread
  have hpool := XlCacheObj.step_construct hthread
  rw [← runHandles_concat] at hpool
  -- the version of the new object, above the one before it
  obtain ⟨n, hn⟩ : ∃ n, versionOf (runHandles obj key (schedule ++ [i])).state (key i) = some n :=
    ⟨_, by rw [hpool, versionOf_write_self]⟩
  have hown : ownVersion obj key (schedule ++ [i]) i = some n := by
    rw [ownVersion_concat_self hi, hn]
  have hlt : ∀ version, versionOf (runHandles obj key schedule).state (key i) = some version →
      version < n := by
    intro version hversion
    rw [hpool, versionOf_write_self,
      nextVersion_of_versionOf hversion (hwrap version hversion)] at hn
    exact (Option.some.inj hn) ▸ Nat.lt_succ_self version
  have hbelow : ∀ j ∈ schedule, key j = key i → ∃ version,
      ownVersion obj key (schedule ++ [i]) j = some version ∧ version < n := by
    intro j hj hkey
    obtain ⟨version, current, hversion, hcurrent, hle, -⟩ := hinv.begun j hj
    rw [hkey] at hcurrent
    exact ⟨version, (ownVersion_append hj _).trans hversion, hle.trans_lt (hlt current hcurrent)⟩
  have hne : ∀ j ∈ schedule, j ≠ i := fun j hj h => hi (h ▸ hj)
  constructor
  · intro j hj
    rw [List.mem_append, List.mem_singleton, not_or] at hj
    rw [runHandles_concat_of_ne hj.2]
    exact hinv.waiting j hj.1
  · intro j hj
    rw [List.mem_append, List.mem_singleton] at hj
    rcases hj with hj | rfl
    · obtain ⟨version, current, hversion, hcurrent, hle, hj'⟩ := hinv.begun j hj
      rw [← ownVersion_append hj [i]] at hversion
      rw [← runHandles_concat_of_ne (hne j hj)] at hj'
      by_cases hkey : key j = key i
      · -- the call under the same key has read its version
        rcases hj' with ⟨hread, -⟩ | hdone
        · rw [runHandles_concat_of_ne (hne j hj)] at hread
          exact absurd hread (halone j (hne j hj) hkey)
        · rw [hkey] at hcurrent
          have hnew := hle.trans_lt (hlt current hcurrent)
          exact ⟨version, n, hversion, hkey ▸ hn, hnew.le, Or.inr hdone⟩
      · refine ⟨version, current, hversion, ?_, hle, hj'⟩
        rw [hpool, versionOf_write_of_ne _ hkey, hcurrent]
    · refine ⟨n, n, hown, hn, le_rfl, Or.inl ⟨?_, rfl⟩⟩
      rw [hpool]
      exact Function.update_self _ _ _
  · exact distinct_append hinv.distinct hown hbelow

/-- A call that has constructed its object reads its version, or is done. -/
theorem Inv.step_begun (hinv : Inv obj key schedule) (hi : i ∈ schedule) :
    Inv obj key (schedule ++ [i]) := by
  obtain ⟨version, current, hversion, hcurrent, hle, hthread⟩ := hinv.begun i hi
  -- the thread reads its handle, or has it: the cache stays
  have hstep : (runHandles obj key (schedule ++ [i])).state =
        (runHandles obj key schedule).state ∧
      (runHandles obj key (schedule ++ [i])).threads i =
        .done (.ok (formatHandle (key i) version)) := by
    rw [runHandles_concat]
    rcases hthread with ⟨hread, rfl⟩ | hdone
    · rw [XlCacheObj.step_cacheName hread hcurrent]
      exact ⟨rfl, Function.update_self _ _ _⟩
    · rw [Pool.step_of_done hdone]
      exact ⟨rfl, hdone⟩
  -- no thread begins
  have hmem : ∀ j, j ∈ schedule ++ [i] ↔ j ∈ schedule := by
    intro j
    rw [List.mem_append, List.mem_singleton]
    constructor
    · rintro (hj | rfl)
      · exact hj
      · exact hi
    · exact Or.inl
  constructor
  · intro j hj
    rw [hmem] at hj
    have hne : j ≠ i := fun h => hj (h ▸ hi)
    rw [runHandles_concat_of_ne hne]
    exact hinv.waiting j hj
  · intro j hj
    rw [hmem] at hj
    rw [hstep.1, ownVersion_append hj]
    -- the thread itself now has its handle, the others are as before
    by_cases hne : j = i
    · subst hne
      exact ⟨version, current, hversion, hcurrent, hle, Or.inr hstep.2⟩
    · rw [runHandles_concat_of_ne hne]
      exact hinv.begun j hj
  · intro j hj k hk
    rw [hmem] at hj hk
    rw [ownVersion_append hj, ownVersion_append hk]
    exact hinv.distinct j hj k hk

/-- The invariant holds throughout an undisturbed run. -/
theorem inv_of_undisturbed (h : Undisturbed obj key schedule) : Inv obj key schedule := by
  induction schedule using List.reverseRecOn with
  | nil => exact inv_nil
  | append_singleton schedule i ih =>
    obtain ⟨hbefore, hmay⟩ := undisturbed_concat.mp h
    by_cases hi : i ∈ schedule
    · exact (ih hbefore).step_begun hi
    · exact (ih hbefore).step_construct hi hmay

/-! ## Handles -/

/-- In an undisturbed run every handle carries the version of its own construction. -/
theorem ownHandles_of_undisturbed (h : Undisturbed obj key schedule) :
    OwnHandles obj key schedule := by
  have hinv := inv_of_undisturbed h
  -- a thread that is done has begun, and its handle bears its own version
  have hown : ∀ i handle, (runHandles obj key schedule).threads i = .done (.ok handle) →
      i ∈ schedule ∧ ∃ version, ownVersion obj key schedule i = some version ∧
        handle = formatHandle (key i) version := by
    intro i handle hi
    have hmem : i ∈ schedule := by
      by_contra hnot
      rw [hinv.waiting i hnot, createHandle_eq] at hi
      cases hi
    obtain ⟨version, current, hversion, -, -, hread | hdone⟩ := hinv.begun i hmem
    · rw [hread.1, cacheName_eq] at hi
      cases hi
    · rw [hdone] at hi
      cases hi
      exact ⟨hmem, version, hversion, rfl⟩
  constructor
  · exact fun i handle hi => (hown i handle hi).2
  · intro i j handle hne hkey hi hj
    obtain ⟨hmem, version, hversion, rfl⟩ := hown i handle hi
    obtain ⟨hmem', version', hversion', heq⟩ := hown j _ hj
    rw [hkey, formatHandle_right_inj] at heq
    apply hinv.distinct i hmem j hmem' hne hkey
    rw [hversion, hversion', heq]

end Race

/-- The two sections of a call are not the same. -/
theorem createHandle_ne_cacheName (obj : CachedObjVar A D) (key : Bytes) :
    createHandle obj key ≠ cacheName ⟨key⟩ := by
  rw [createHandle_eq, cacheName_eq]
  intro h
  have hupdate := congrFun (congrFun (Prog.locked.inj h).1 fun _ => none) key
  rw [Versioned.write_self] at hupdate
  cases hupdate

/-- Two calls under one key, one after the other. -/
theorem ownHandles_of_undisturbed_sequence :
    OwnHandles (fun _ : Bool => (.array 5 : CachedObjVar ℕ ℕ)) (fun _ => bytes "Array_S")
      [false, false, true, true] := by
  let obj : Bool → CachedObjVar ℕ ℕ := fun _ => .array 5
  let key : Bool → Bytes := fun _ => bytes "Array_S"
  -- reading the handle disturbs nobody
  have hread : ∀ {schedule i}, (runHandles obj key schedule).threads i = cacheName ⟨key i⟩ →
      MayStep obj key (runHandles obj key schedule) i :=
    fun hi hconstruct => absurd (hconstruct.symm.trans hi) (createHandle_ne_cacheName _ _)
  have h₁ : Undisturbed obj key ([] ++ [false]) := by
    refine undisturbed_concat.mpr ⟨undisturbed_nil, fun _ => ⟨?_, ?_⟩⟩
    · exact fun _ _ _ => createHandle_ne_cacheName _ _
    · exact fun _ hversion => nomatch hversion
  have h₂ : Undisturbed obj key ([] ++ [false] ++ [false]) :=
    undisturbed_concat.mpr ⟨h₁, hread rfl⟩
  -- the second thread constructs when the first has its handle
  have h₃ : Undisturbed obj key ([] ++ [false] ++ [false] ++ [true]) := by
    refine undisturbed_concat.mpr ⟨h₂, fun _ => ⟨?_, ?_⟩⟩
    · intro j hj _
      rw [Bool.eq_false_of_not_eq_true hj, cacheName_eq]
      exact fun hdone => nomatch hdone
    · intro version hversion
      cases hversion
      decide
  exact ownHandles_of_undisturbed (undisturbed_concat.mpr ⟨h₃, hread rfl⟩)

/-- Two calls under one key that both construct before they read: both return the version
    of the second one. -/
theorem not_ownHandles_overlap : ¬ ∀ (obj : Bool → CachedObjVar ℕ ℕ) (key : Bool → Bytes)
    (schedule : List Bool), OwnHandles obj key schedule := by
  intro h
  have hown := (h (fun _ => .array 5) (fun _ => bytes "Array_S") [false, true, false, true]).2
  exact hown false true (formatHandle (bytes "Array_S") 1) (by decide) rfl rfl rfl

end XlCacheObj

end Oxl.XlApi
