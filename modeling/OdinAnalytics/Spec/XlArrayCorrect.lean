import OdinAnalytics.Native.XlArray
import OdinAnalytics.Spec.XloperCorrect

/-!
# Arrays in Excel cells

An array of doubles, booleans and ASCII strings goes into a cell and comes back as
it was: the elements are laid out row by row, and each comes back from the cell it
is put into. The dimensions are held as `int`s, so they come back as long as they
fit one.

## Key results

- `convertVariant_roundTrips`: one element
- `convertArrayToLPXloper_post`: the cells that are made
- `lpXloperToXlArray_post`: the array that is read
- `xlArray_roundTrips`: the round trip
-/

namespace Oxl.XlApi

open Machine Utf

namespace XlArray

/-! ## Elements -/

variable {array : XlArray} {i j : Nat} {value : XlVariant}

/-- Arrays of one shape with the same elements are the same. -/
theorem ext_get? {a b : XlArray} (hrows : a.rows = b.rows) (hcols : a.cols = b.cols)
    (h : ∀ i < a.rows, ∀ j < a.cols, a.get? i j = b.get? i j) : a = b := by
  -- rows of one length, and the same elements
  have hdata : a.data = b.data := by
    apply List.ext_getElem
    · rw [a.length_data, b.length_data, hrows]
    · intro i hi hi'
      have hlen := a.length_row _ (List.getElem_mem hi)
      have hlen' := b.length_row _ (List.getElem_mem hi')
      apply List.ext_getElem
      · rw [hlen, hlen', hcols]
      · intro j hj hj'
        have hget := h i (a.length_data ▸ hi) j (hlen ▸ hj)
        simpa [get?, hi, hi', hj, hj'] using hget
  exact XlArray.ext hrows hcols hdata

/-- There is an element at each place. -/
theorem exists_get? (hi : i < array.rows) (hj : j < array.cols) :
    ∃ value, array.get? i j = some value := by
  rw [← array.length_data] at hi
  have hrow := array.length_row _ (List.getElem_mem hi)
  rw [← hrow] at hj
  exact ⟨array.data[i][j], by simp [get?, hi, hj]⟩

/-- Reading an element. -/
theorem get_eq (h : array.get? i j = some value) : array.get i j = .ok value := by
  rw [get, h]

/-- An assignment changes one element. -/
theorem set_eq (hi : i < array.rows) (hj : j < array.cols) (value : XlVariant) :
    ∃ array', array.set i j value = .ok array' ∧ array'.rows = array.rows ∧
      array'.cols = array.cols ∧
      ∀ i' j', array'.get? i' j' = if i' = i ∧ j' = j then some value else array.get? i' j' := by
  obtain ⟨old, hold⟩ := exists_get? hi hj
  unfold set
  rw [hold]
  refine ⟨_, rfl, rfl, rfl, fun i' j' => ?_⟩
  unfold get? at hold ⊢
  simp only [List.getElem?_modify]
  -- another row is untouched, and so is another column of the same row
  rcases eq_or_ne i' i with rfl | hne
  · cases hrow : array.data[i']? with
    | none => simp [hrow] at hold
    | some row =>
      rw [hrow, Option.bind_some] at hold
      obtain ⟨hlt, -⟩ := List.getElem?_eq_some_iff.mp hold
      simp only [if_true, Option.bind_some, true_and]
      rcases eq_or_ne j' j with rfl | hne
      · simp [hlt]
      · simp [hne, hne.symm]
  · simp [hne, hne.symm]

end XlArray

/-! ## One element -/

/-- An ASCII string without a NUL that Excel has room for, or a value of another type. -/
def IsPlain : XlVariant → Prop
  | .string s => (∀ c ∈ s, 0 < c.toNat ∧ c.toNat < 0x80) ∧ s.length ≤ 32767
  | _ => True

/-- An element comes back from its cell. -/
theorem convertVariant_roundTrips (win : Win32) {value : XlVariant} (h : IsPlain value) :
    ∃ cell, convertVariantToLPXloper win value = .ok cell ∧
      cellToVariant win cell.clearDllFree = .ok value := by
  cases value with
  | double value => exact ⟨_, rfl, rfl⟩
  | bool value => exact ⟨_, rfl, rfl⟩
  | string s =>
    obtain ⟨hascii, hlen⟩ := h
    -- the bytes of the string are the text `cs`
    obtain ⟨cs, hcs⟩ : ∃ cs, cs = s.map fun c => Char.ofNat c.toNat := ⟨_, rfl⟩
    have hutf8 : utf8 cs = s := hcs ▸ utf8_ascii fun c hc => (hascii c hc).2
    have hsmall : ∀ c ∈ cs, 0 < c.toNat ∧ c.toNat < 0x80 := by
      intro c hc
      rw [hcs, List.mem_map] at hc
      obtain ⟨b, hb, rfl⟩ := hc
      rw [toNat_ofNat_ascii (hascii b hb).2]
      exact hascii b hb
    have hnul : Char.ofNat 0 ∉ cs := fun hmem => absurd (hsmall _ hmem).1 (by decide)
    have hlength := (length_utf16_eq_iff cs).mpr fun c hc => (hsmall c hc).2
    rw [hutf8] at hlength
    have hconvert : convertStrToLPXloper win (utf8 cs) = _ :=
      convertStrToLPXloper_eq win (by rw [hutf8]; omega)
    rw [hutf8, if_pos hlength.symm] at hconvert
    have hread := (lpXloperToStr_countedText win hnul (by omega)).mpr fun c hc => (hsmall c hc).2
    refine ⟨_, hconvert, ?_⟩
    simp only [Xloper12.clearDllFree, cellToVariant]
    rw [hread, hutf8]
    rfl

/-! ## The loops -/

variable {win : Win32} {array : XlArray}

/-- The first `k` cells of a block, row by row, read as the elements of the array. -/
structure Holds (win : Win32) (array : XlArray) (k : Nat) (lparray : List Xloper12) : Prop where
  length_eq : lparray.length = array.rows * array.cols
  cell : ∀ i < array.rows, ∀ j < array.cols, i * array.cols + j < k → ∃ value cell,
    array.get? i j = some value ∧ lparray[i * array.cols + j]? = some cell ∧
      cellToVariant win cell.clearDllFree = .ok value

/-- Writing the next cell. -/
theorem Holds.store {i j : Nat} {lparray : List Xloper12} {value : XlVariant} {cell : Xloper12}
    (h : Holds win array (i * array.cols + j) lparray) (hi : i < array.rows)
    (hj : j < array.cols) (hvalue : array.get? i j = some value)
    (hcell : cellToVariant win cell.clearDllFree = .ok value) :
    Holds win array (i * array.cols + j + 1) (lparray.set (i * array.cols + j) cell) := by
  have hlt := rowMajor_lt hi hj
  refine ⟨by rw [List.length_set, h.length_eq], fun i' hi' j' hj' hk => ?_⟩
  rcases Nat.lt_succ_iff_lt_or_eq.mp hk with hk | hk
  · rw [List.getElem?_set_ne (by omega)]
    exact h.cell i' hi' j' hj' hk
  · obtain ⟨rfl, rfl⟩ := rowMajor_inj hj' hj hk
    refine ⟨value, cell, hvalue, ?_, hcell⟩
    rw [List.getElem?_set_self (by rw [h.length_eq]; exact hlt)]

/-- The block that is made of an array of plain elements. -/
theorem convertArrayToLPXloper_post {E : Fault → Prop} (win : Win32)
    (h : ∀ i j value, array.get? i j = some value → IsPlain value) :
    Post (convertArrayToLPXloper win array) E fun cell => ∃ lparray,
      cell = .multi (castInt array.rows) (castInt array.cols) lparray true ∧
        Holds win array (array.rows * array.cols) lparray := by
  unfold convertArrayToLPXloper
  -- the loop invariant: the cells written so far hold the elements
  refine Post.bind (forRange_rows_post (Holds win array) ?_ ?_) ?_
  · intro i hi j hj lparray hlparray
    obtain ⟨value, hvalue⟩ := XlArray.exists_get? hi hj
    obtain ⟨cell, hconvert, hcell⟩ := convertVariant_roundTrips win (h i j value hvalue)
    have hlt := rowMajor_lt hi hj
    rw [XlArray.get_eq hvalue, ok_bind, hconvert, ok_bind,
      Block.store_eq (by rw [hlparray.length_eq]; exact hlt)]
    exact hlparray.store hi hj hvalue hcell
  · exact ⟨List.length_replicate, fun i _ j _ hk => absurd hk (Nat.not_lt_zero _)⟩
  · intro lparray hlparray
    exact post_pure.mpr ⟨lparray, rfl, hlparray⟩

/-- An array of the same dimensions that agrees on the first `k` elements, row by row. -/
structure Agrees (array : XlArray) (k : Nat) (read : XlArray) : Prop where
  rows_eq : read.rows = array.rows
  cols_eq : read.cols = array.cols
  element : ∀ i < array.rows, ∀ j < array.cols, i * array.cols + j < k →
    read.get? i j = array.get? i j

/-- Reading the next element. -/
theorem Agrees.set {i j : Nat} {read : XlArray} {value : XlVariant}
    (h : Agrees array (i * array.cols + j) read) (hi : i < array.rows) (hj : j < array.cols)
    (hvalue : array.get? i j = some value) :
    ∃ read', read.set i j value = .ok read' ∧ Agrees array (i * array.cols + j + 1) read' := by
  obtain ⟨read', hset, hrows, hcols, hget⟩ :=
    XlArray.set_eq (h.rows_eq ▸ hi) (h.cols_eq ▸ hj) value
  refine ⟨read', hset, hrows.trans h.rows_eq, hcols.trans h.cols_eq, fun i' hi' j' hj' hk => ?_⟩
  rw [hget]
  split
  · next heq => rw [heq.1, heq.2, hvalue]
  · next hne =>
    -- an element before the one that was set
    refine h.element i' hi' j' hj' (lt_of_le_of_ne (Nat.le_of_lt_succ hk) fun heq => hne ?_)
    exact rowMajor_inj hj' hj heq

/-- The array that is read from a block is the one that was put into it. -/
theorem lpXloperToXlArray_post {E : Fault → Prop} {lparray : List Xloper12}
    (h : Holds win array (array.rows * array.cols) lparray) :
    Post (lpXloperToXlArray win (.multi array.rows array.cols
      (lparray.map Xloper12.clearDllFree) false)) E (· = array) := by
  unfold lpXloperToXlArray XlArray.ofInts
  simp only
  rw [if_neg (by omega), ok_bind, Int.toNat_natCast, Int.toNat_natCast]
  -- the loop invariant: the elements read so far agree with the array
  refine Post.weaken (forRange_rows_post (Agrees array) ?_ ?_) ?_
  · intro i hi j hj read hread
    obtain ⟨value, cell, hvalue, hcell, hconvert⟩ := h.cell i hi j hj (rowMajor_lt hi hj)
    have hload : (lparray.map Xloper12.clearDllFree)[i * array.cols + j]? =
        some cell.clearDllFree := by
      rw [List.getElem?_map, hcell, Option.map_some]
    obtain ⟨read', hset, hread'⟩ := hread.set hi hj hvalue
    rw [Block.load_eq hload, ok_bind, hconvert, ok_bind, hset]
    exact hread'
  · exact ⟨rfl, rfl, fun i _ j _ hk => absurd hk (Nat.not_lt_zero _)⟩
  · intro read hread
    refine XlArray.ext_get? hread.rows_eq hread.cols_eq fun i hi j hj => ?_
    rw [hread.rows_eq] at hi
    rw [hread.cols_eq] at hj
    exact hread.element i hi j hj (rowMajor_lt hi hj)

/-! ## The round trip -/

/-- An array comes back with its dimensions and elements if its elements are plain and its
    dimensions fit the fields of a cell. -/
theorem xlArray_roundTrips (win : Win32) (array : XlArray)
    (hrows : array.rows ≤ 2147483647) (hcols : array.cols ≤ 2147483647)
    (h : ∀ i j value, array.get? i j = some value → IsPlain value) :
    ∃ cell, convertArrayToLPXloper win array = .ok cell ∧
      lpXloperToXlArray win cell.handBack = .ok array := by
  obtain ⟨cell, hcell, lparray, rfl, hholds⟩ :=
    (convertArrayToLPXloper_post (E := fun _ => False) win h).exists_ok fun _ _ => id
  refine ⟨_, hcell, ?_⟩
  rw [castInt_eq (by omega), castInt_eq (by omega)]
  exact (lpXloperToXlArray_post hholds).eq_ok

/-- One row of a double, an empty string, a boolean and a string. -/
theorem xlArray_roundTrips_row :
    ∃ cell, convertArrayToLPXloper Win32.unicode ⟨1, 4, [[.double (.finite 1), .string [],
      .bool true, .string (bytes "ab")]], rfl, by simp⟩ = .ok cell ∧
      lpXloperToXlArray Win32.unicode cell.handBack = .ok ⟨1, 4, [[.double (.finite 1),
        .string [], .bool true, .string (bytes "ab")]], rfl, by simp⟩ := by
  apply xlArray_roundTrips Win32.unicode _ (by decide) (by decide)
  intro i j value hvalue
  -- the elements are those of the one row
  have hmem : value ∈ [XlVariant.double (.finite 1), .string [], .bool true,
      .string (bytes "ab")] := by
    unfold XlArray.get? at hvalue
    obtain ⟨row, hrow, hvalue⟩ := Option.bind_eq_some_iff.mp hvalue
    have hrow := List.mem_of_getElem? hrow
    rw [List.mem_singleton] at hrow
    exact hrow ▸ List.mem_of_getElem? hvalue
  simp only [List.mem_cons, List.not_mem_nil, or_false] at hmem
  rcases hmem with rfl | rfl | rfl | rfl
  · trivial
  · exact ⟨by simp, by decide⟩
  · trivial
  · exact ⟨by decide +kernel, by decide⟩

/-- An array without columns has no element that is not plain. -/
theorem isPlain_of_cols_eq_zero (hcols : array.cols = 0) (i j : Nat) (value : XlVariant)
    (hvalue : array.get? i j = some value) : IsPlain value := by
  unfold XlArray.get? at hvalue
  obtain ⟨row, hrow, hvalue⟩ := Option.bind_eq_some_iff.mp hvalue
  have hlength := array.length_row row (List.mem_of_getElem? hrow)
  rw [hcols, List.length_eq_zero_iff] at hlength
  simp [hlength] at hvalue

/-- Rows whose number becomes the `int` zero do not come back. -/
theorem not_roundTrips_of_castInt_eq_zero (win : Win32) (hcols : array.cols = 0)
    (hrows : 0 < array.rows) (hcast : castInt array.rows = 0) :
    ¬ ∃ cell, convertArrayToLPXloper win array = .ok cell ∧
      lpXloperToXlArray win cell.handBack = .ok array := by
  rintro ⟨cell, hcell, hread⟩
  obtain ⟨cell', hcell', lparray, rfl, -⟩ :=
    (convertArrayToLPXloper_post (E := fun _ => False) win
      (isPlain_of_cols_eq_zero hcols)).exists_ok fun _ _ => id
  rw [hcell, Except.ok.injEq] at hcell'
  rw [hcell', hcast, hcols, Xloper12.handBack, lpXloperToXlArray, XlArray.ofInts] at hread
  -- the cell has no rows, so no row is read
  simp only [Int.toNat_zero, forRange_zero] at hread
  have heq : XlArray.fill 0 _ (.double (.finite 0)) = array := Except.ok.inj hread
  rw [← heq] at hrows
  exact Nat.lt_irrefl 0 hrows

/-- The number of rows of a cell is an `int`: of 2^32 rows without columns, none come back. -/
theorem not_xlArray_roundTrips : ¬ ∀ (win : Win32) (array : XlArray),
    (∀ i j value, array.get? i j = some value → IsPlain value) →
    ∃ cell, convertArrayToLPXloper win array = .ok cell ∧
      lpXloperToXlArray win cell.handBack = .ok array := by
  intro hall
  have hdims : ∀ rows, ∃ array : XlArray, array.rows = rows ∧ array.cols = 0 :=
    fun rows => ⟨XlArray.fill rows 0 (.bool true), rfl, rfl⟩
  obtain ⟨array, hrows, hcols⟩ := hdims 4294967296
  refine not_roundTrips_of_castInt_eq_zero Win32.unicode hcols (by omega) ?_
    (hall Win32.unicode array (isPlain_of_cols_eq_zero hcols))
  rw [hrows]
  exact Int.bmod_self

end Oxl.XlApi
