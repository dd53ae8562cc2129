import OdinAnalytics.Native.XlDictionary
import OdinAnalytics.Spec.XlArrayCorrect

/-!
# Excel dictionaries and their keys

Every dictionary that the operations of its class can make has keys that pass the
check, also after overrides, which are not checked: they come from a dictionary
themselves. So all keys pass the check again when the dictionary is read back from
the array that it is written to, two columns wide at any size.

## Key results

- `checkKey_eq_ok_iff`: what the check of a key finds out
- `Reachable.valid`: the keys of the dictionaries that can be made
- `xlArrayToXlDictionary_post`: the dictionary that is read from the entries of another
- `reachable_spec`: keys, throwing operations and the round trip
-/

namespace Oxl.XlApi

open Machine

namespace XlDictionary

variable {ctype : CType} {d : XlDictionary} {key : Bytes} {value : XlVariant}

/-! ## Keys -/

/-- A key that is not empty and has no whitespace at an end. -/
structure IsKey (ctype : CType) (key : Bytes) : Prop where
  ne_nil : key ≠ []
  front : ∀ c ∈ key.head?, ctype.isspace c = .ok false
  back : ∀ c ∈ key.getLast?, ctype.isspace c = .ok false

/-- The check accepts the keys. -/
theorem checkKey_eq_ok_iff : checkKey ctype key = .ok () ↔ IsKey ctype key := by
  cases key with
  | nil =>
    constructor
    · intro h
      cases h
    · intro h
      exact absurd rfl h.ne_nil
  | cons front rest =>
    have hback : (front :: rest).getLast? = some (rest.getLastD front) := by
      rw [List.getLast?_cons, List.getLastD_eq_getLast?]
    constructor
    · intro h
      unfold checkKey at h
      obtain ⟨spacedFront, hfront, h⟩ := bind_eq_ok.mp h
      -- a space at the front is refused, then one at the back
      cases spacedFront with
      | true => cases h
      | false =>
        obtain ⟨spacedBack, hspaced, h⟩ := bind_eq_ok.mp h
        cases spacedBack with
        | true => cases h
        | false =>
          refine ⟨by simp, ?_, ?_⟩
          · rintro c ⟨⟩
            exact hfront
          · intro c hc
            rw [hback] at hc
            cases hc
            exact hspaced
    · intro h
      unfold checkKey
      simp only
      rw [h.front front rfl, ok_bind, if_neg (by decide), h.back _ hback, ok_bind]
      rfl

/-- Every key passes the check. -/
def Valid (ctype : CType) (d : XlDictionary) : Prop := ∀ key ∈ d.dict, IsKey ctype key

/-- The empty dictionary is valid. -/
theorem valid_empty : Valid ctype {} := fun _ h => absurd h Std.ExtTreeMap.not_mem_empty

/-- Inserting under a key that was checked. -/
theorem Valid.insert (h : Valid ctype d) (hkey : IsKey ctype key) :
    Valid ctype (d.insert key value) := by
  intro key' hkey'
  rcases Std.ExtTreeMap.mem_insert.mp hkey' with heq | hmem
  · rwa [← Std.LawfulEqCmp.eq_of_compare heq]
  · exact h key' hmem

/-- Indexing inserts under keys that pass the check only. -/
theorem Valid.index (h : Valid ctype d) : Valid ctype (d.index ctype key).2 := by
  unfold XlDictionary.index
  split
  · exact h
  · next hkey =>
    intro key' hkey'
    -- a key is the new one, which was checked, or one from before
    rcases Std.ExtTreeMap.mem_insertIfNew.mp hkey' with heq | hmem
    · rw [← Std.LawfulEqCmp.eq_of_compare heq]
      exact checkKey_eq_ok_iff.mp hkey
    · exact h key' hmem

/-- Assigning inserts under keys that pass the check only. -/
theorem Valid.assign (h : Valid ctype d) : Valid ctype (d.assign ctype key value).2 := by
  have hindex : Valid ctype (d.index ctype key).2 := h.index
  unfold XlDictionary.assign
  unfold XlDictionary.index at hindex ⊢
  cases hkey : checkKey ctype key with
  | error f => exact h
  | ok u =>
    rw [hkey] at hindex
    exact hindex.insert (checkKey_eq_ok_iff.mp hkey)

/-- The keys of the overrides are valid as well. -/
theorem Valid.applyOverrides (h : Valid ctype d) {overridesDict : XlDictionary}
    (hoverrides : Valid ctype overridesDict) : Valid ctype (d.applyOverrides overridesDict) := by
  -- the keys that override were checked when they came in
  have hkeys : ∀ pair ∈ overridesDict.getKeyValuePair, IsKey ctype pair.1 := by
    intro pair hpair
    apply hoverrides
    rw [Std.ExtTreeMap.mem_iff_isSome_getElem?,
      Std.ExtTreeMap.mem_toList_iff_getElem?_eq_some.mp hpair]
    rfl
  unfold XlDictionary.applyOverrides
  generalize overridesDict.getKeyValuePair = pairs at hkeys
  induction pairs generalizing d with
  | nil => exact h
  | cons pair pairs ih =>
    rw [List.forall_mem_cons] at hkeys
    exact ih (h.insert hkeys.1) hkeys.2

/-! ## The dictionaries that can be made -/

/-- A pair is checked, then inserted. -/
theorem insertChecked_post (h : Valid ctype d) (pair : Bytes × XlVariant) :
    Post (insertChecked ctype d pair) (fun _ => True) (Valid ctype) := by
  unfold insertChecked
  cases hkey : checkKey ctype pair.1 with
  | error f => trivial
  | ok u => exact h.insert (checkKey_eq_ok_iff.mp hkey)

/-- Pairs make a valid dictionary, or throw. -/
theorem ofPairs_post (pairs : List (Bytes × XlVariant)) :
    Post (ofPairs ctype pairs) (fun _ => True) (Valid ctype) :=
  post_foldlM (fun pair _ _ h => insertChecked_post h pair) valid_empty

/-- Sizes are compared. -/
theorem checkSizes_post (nKeys nValues : Nat) :
    Post (checkSizes nKeys nValues) (fun _ => True) fun _ => True := by
  unfold checkSizes
  split
  · trivial
  · trivial

/-- Keys and values make a valid dictionary, or throw. -/
theorem ofKeys_post (keys : List Bytes) (values : List XlVariant) :
    Post (ofKeys ctype keys values) (fun _ => True) (Valid ctype) := by
  apply Post.bind (checkSizes_post _ _)
  intro _ _
  exact post_foldlM (fun pair _ _ h => insertChecked_post h pair) valid_empty

/-- Variants make a valid dictionary, or throw. -/
theorem ofVariants_post (keys values : List XlVariant) :
    Post (ofVariants ctype keys values) (fun _ => True) (Valid ctype) := by
  apply Post.bind (checkSizes_post _ _)
  intro _ _
  have hstring : ∀ variant : XlVariant,
      Post variant.getString (fun _ => True) fun _ => True := by
    intro variant
    cases variant <;> trivial
  refine post_foldlM (fun pair _ d h => ?_) valid_empty
  exact Post.bind (hstring pair.1) fun key _ => insertChecked_post h (key, pair.2)

/-- The dictionaries that the operations make from each other, with what they leave behind
    when they throw. -/
inductive Reachable (ctype : CType) : XlDictionary → Prop where
  | empty : Reachable ctype {}
  | ofKeys {d : XlDictionary} (keys : List Bytes) (values : List XlVariant)
      (h : XlDictionary.ofKeys ctype keys values = .ok d) : Reachable ctype d
  | ofVariants {d : XlDictionary} (keys values : List XlVariant)
      (h : XlDictionary.ofVariants ctype keys values = .ok d) : Reachable ctype d
  | ofPairs {d : XlDictionary} (pairs : List (Bytes × XlVariant))
      (h : XlDictionary.ofPairs ctype pairs = .ok d) : Reachable ctype d
  | index {d : XlDictionary} (key : Bytes) (h : Reachable ctype d) :
      Reachable ctype (d.index ctype key).2
  | assign {d : XlDictionary} (key : Bytes) (value : XlVariant) (h : Reachable ctype d) :
      Reachable ctype (d.assign ctype key value).2
  | applyOverrides {d overridesDict : XlDictionary} (h : Reachable ctype d)
      (hoverrides : Reachable ctype overridesDict) :
      Reachable ctype (d.applyOverrides overridesDict)

/-- Every dictionary that can be made is valid. -/
theorem Reachable.valid (h : Reachable ctype d) : Valid ctype d := by
  -- each constructor checks its keys, each operation keeps them
  induction h with
  | empty => exact valid_empty
  | ofKeys keys values h =>
    have hpost : Post (XlDictionary.ofKeys ctype keys values) _ _ := ofKeys_post keys values
    rwa [h] at hpost
  | ofVariants keys values h =>
    have hpost : Post (XlDictionary.ofVariants ctype keys values) _ _ := ofVariants_post keys values
    rwa [h] at hpost
  | ofPairs pairs h =>
    have hpost : Post (XlDictionary.ofPairs ctype pairs) _ _ := ofPairs_post pairs
    rwa [h] at hpost
  | index key h ih => exact ih.index
  | assign key value h ih => exact ih.assign
  | applyOverrides h hoverrides ih ihoverrides => exact ih.applyOverrides ihoverrides

/-! ## Operations that throw -/

/-- A subscript that throws leaves the dictionary as it was. -/
theorem index_error {f : Fault} (h : (d.index ctype key).1 = .error f) :
    (d.index ctype key).2 = d := by
  unfold index at h ⊢
  split
  · rfl
  · next hkey =>
    rw [hkey] at h
    cases h

/-- So does an assignment. -/
theorem assign_error {f : Fault} (h : (d.assign ctype key value).1 = .error f) :
    (d.assign ctype key value).2 = d := by
  unfold assign at h ⊢
  split
  · next f' d' hindex =>
    -- a key that is refused inserts nothing
    have hsame : (d.index ctype key).2 = d := index_error (congrArg Prod.fst hindex)
    rw [hindex] at hsame
    exact hsame
  · next d' hindex =>
    rw [hindex] at h
    cases h

/-- An assignment with a valid key. -/
theorem assigned_eq (h : IsKey ctype key) :
    ∃ d', d.assigned ctype key value = .ok d' ∧
      ∀ key', d'.dict[key']? = if key = key' then some value else d.dict[key']? := by
  unfold assigned assign index
  rw [checkKey_eq_ok_iff.mpr h]
  refine ⟨_, rfl, fun key' => ?_⟩
  unfold insert
  simp only [Std.ExtTreeMap.getElem?_insert, Std.ExtTreeMap.getElem?_insertIfNew,
    Std.LawfulEqCmp.compare_eq_iff_eq]
  split
  · rfl
  · next hne => simp [hne]

/-! ## The round trip -/

/-- The first `n` rows of an array hold the first entries of a dictionary. -/
structure HoldsEntries (d : XlDictionary) (n : Nat) (array : XlArray) : Prop where
  rows_eq : array.rows = d.getKeyValuePair.length
  cols_eq : array.cols = 2
  entry : ∀ i < n, ∀ pair, d.getKeyValuePair[i]? = some pair →
    array.get? i 0 = some (.string pair.1) ∧ array.get? i 1 = some pair.2

/-- The array that a dictionary is written to. -/
theorem xlDictionaryToXlArray_post (d : XlDictionary) :
    Post (xlDictionaryToXlArray d) (fun _ => False)
      (HoldsEntries d d.getKeyValuePair.length) := by
  unfold xlDictionaryToXlArray
  simp only
  -- the loop invariant: the rows so far are the entries so far
  apply zipIdx_post (HoldsEntries d)
  · intro i pair hpair array harray
    have hi : i < array.rows := by
      rw [harray.rows_eq]
      exact (List.getElem?_eq_some_iff.mp hpair).1
    obtain ⟨array', hset, hrows, hcols, hget⟩ :=
      XlArray.set_eq (j := 0) hi (by rw [harray.cols_eq]; decide) (.string pair.1)
    obtain ⟨array'', hset', hrows', hcols', hget'⟩ :=
      XlArray.set_eq (i := i) (j := 1) (by rwa [hrows])
        (by rw [hcols, harray.cols_eq]; decide) pair.2
    simp only
    rw [hset, ok_bind, hset']
    refine ⟨by rw [hrows', hrows, harray.rows_eq], by rw [hcols', hcols, harray.cols_eq], ?_⟩
    intro i' hi' pair' hpair'
    rw [hget', hget', hget, hget]
    -- a row written before, or the new one
    rcases Nat.lt_succ_iff_lt_or_eq.mp hi' with hlt | rfl
    · have hne : i' ≠ i := by omega
      simpa [hne] using harray.entry i' hlt pair' hpair'
    · rw [hpair, Option.some.injEq] at hpair'
      simp [hpair']
  · exact ⟨rfl, rfl, fun i hi => absurd hi (Nat.not_lt_zero i)⟩

/-- An entry is not among the ones before it, whatever the value. -/
theorem not_mem_take {i : ℕ} {pair : Bytes × XlVariant}
    (hpair : d.getKeyValuePair[i]? = some pair) (value : XlVariant) :
    (pair.1, value) ∉ d.getKeyValuePair.take i := by
  intro hmem
  obtain ⟨hi, hget⟩ := List.getElem?_eq_some_iff.mp hpair
  obtain ⟨j, hj, hearlier⟩ := List.mem_take_iff_getElem.mp hmem
  rw [Nat.lt_min] at hj
  -- the keys of a map are distinct
  apply List.pairwise_iff_getElem.mp
    (Std.ExtTreeMap.distinct_keys_toList (t := d.dict)) j i hj.2 hi hj.1
  rw [Std.LawfulEqCmp.compare_eq_iff_eq]
  exact (congrArg Prod.fst hearlier).trans (congrArg Prod.fst hget).symm

/-- A dictionary of the first `i` entries of another. -/
def HasEntries (d : XlDictionary) (i : ℕ) (read : XlDictionary) : Prop :=
  ∀ key value, read.dict[key]? = some value ↔ (key, value) ∈ d.getKeyValuePair.take i

/-- A dictionary is told by its entries. -/
theorem HasEntries.eq {read : XlDictionary} (h : HasEntries d d.getKeyValuePair.length read) :
    read = d := by
  apply XlDictionary.ext
  apply Std.ExtTreeMap.ext_getElem?
  intro key
  apply Option.ext
  intro value
  rw [h key value, List.take_length]
  exact Std.ExtTreeMap.mem_toList_iff_getElem?_eq_some

/-- Reading the next entry. -/
theorem HasEntries.assigned {i : ℕ} {read : XlDictionary} {pair : Bytes × XlVariant}
    (h : HasEntries d i read) (hpair : d.getKeyValuePair[i]? = some pair)
    (hkey : IsKey ctype pair.1) :
    ∃ read', read.assigned ctype pair.1 pair.2 = .ok read' ∧ HasEntries d (i + 1) read' := by
  obtain ⟨read', hread', hget⟩ := assigned_eq (d := read) hkey
  refine ⟨read', hread', fun key value => ?_⟩
  rw [hget, List.take_add_one, hpair, List.mem_append, Option.toList_some, List.mem_singleton]
  -- the new key, which none of the entries before has, or another one
  split
  · next heq =>
    subst heq
    have hnot := not_mem_take hpair value
    constructor
    · intro hvalue
      rw [Option.some.injEq] at hvalue
      exact Or.inr (Prod.ext rfl hvalue.symm)
    · rintro (hmem | heq)
      · exact absurd hmem hnot
      · rw [← heq]
  · next hne =>
    rw [h key value]
    constructor
    · exact Or.inl
    · rintro (hmem | rfl)
      · exact hmem
      · exact absurd rfl hne

/-- The dictionary that is read from the entries of one with valid keys. -/
theorem xlArrayToXlDictionary_post {array : XlArray} (hvalid : Valid ctype d)
    (h : HoldsEntries d d.getKeyValuePair.length array) :
    Post (xlArrayToXlDictionary ctype array) (fun _ => False) (· = d) := by
  unfold xlArrayToXlDictionary
  rw [if_neg fun hshape => hshape.2 h.cols_eq, if_pos h.cols_eq]
  -- the loop invariant: the dictionary read so far has the entries so far
  refine Post.weaken (forRange_post (HasEntries d) ?_ ?_) ?_
  · intro i hi read hread
    rw [h.rows_eq] at hi
    have hpair := List.getElem?_eq_getElem hi
    obtain ⟨hkey, hvalue⟩ := h.entry i hi _ hpair
    have hmem := Std.ExtTreeMap.mem_toList_iff_getElem?_eq_some.mp (List.getElem_mem hi)
    have hvalidKey := hvalid _ (Std.ExtTreeMap.mem_iff_isSome_getElem?.mpr (by rw [hmem]; rfl))
    obtain ⟨read', hassign, hread'⟩ := hread.assigned hpair hvalidKey
    rw [XlArray.get_eq hkey, ok_bind, XlVariant.getString, ok_bind, XlArray.get_eq hvalue,
      ok_bind, hassign]
    exact hread'
  · intro key value
    simp
  · intro read hread
    rw [h.rows_eq] at hread
    exact hread.eq

/-- Of every dictionary that can be made the keys are valid, an operation that throws does
    not change it, and it comes back from the array that it is written to. -/
theorem reachable_spec (h : Reachable ctype d) :
    (∀ key ∈ d.dict, IsKey ctype key) ∧
      (∀ key f, (d.index ctype key).1 = .error f → (d.index ctype key).2 = d) ∧
      (∀ key value f, (d.assign ctype key value).1 = .error f →
        (d.assign ctype key value).2 = d) ∧
      ∃ array, xlDictionaryToXlArray d = .ok array ∧
        xlArrayToXlDictionary ctype array = .ok d := by
  refine ⟨h.valid, fun key f => index_error, fun key value f => assign_error, ?_⟩
  obtain ⟨array, harray, hholds⟩ := (xlDictionaryToXlArray_post d).exists_ok fun _ _ => id
  exact ⟨array, harray, (xlArrayToXlDictionary_post h.valid hholds).eq_ok⟩

/-- The locale "C", where no other character is whitespace. -/
def classic : CType where
  isspace c := .ok (c = 32 || 9 ≤ c && c ≤ 13)
  isspace_ascii _ _ := rfl

/-- A pair of entries, which could be read row by row or column by column. -/
theorem reachable_spec_pairs :
    let d : XlDictionary := ⟨(Std.ExtTreeMap.insert ∅ (bytes "a") (.double (.finite 1))).insert
      (bytes "b") (.bool true)⟩
    (∀ key ∈ d.dict, IsKey classic key) ∧
      (∀ key f, (d.index classic key).1 = .error f → (d.index classic key).2 = d) ∧
      (∀ key value f, (d.assign classic key value).1 = .error f →
        (d.assign classic key value).2 = d) ∧
      ∃ array, xlDictionaryToXlArray d = .ok array ∧
        xlArrayToXlDictionary classic array = .ok d :=
  reachable_spec (.ofPairs [(bytes "a", .double (.finite 1)), (bytes "b", .bool true)] rfl)

end XlDictionary

end Oxl.XlApi
