import OdinAnalytics.Machine.Relate
import OdinAnalytics.Native.XlMemory
import OdinAnalytics.Spec.XlArrayCorrect

/-!
# Results in memory, and back out of it

What is written to the memory for a result is the cell that the result is converted to,
laid out over blocks of its own; and `xlAutoFree12` frees these blocks, each of them once,
and no other.

## Key results

- `convertToLPXloper_relates`: the conversion in memory refines the conversion to a cell
- `xlAutoFree12_eq`: which blocks `xlAutoFree12` frees
- `convertToLPXloper_post`: conversions do not throw
-/

namespace Oxl.XlApi

open Machine

/-! ## Cells in memory -/

/-- The block that an `xloper12` in an array owns. -/
def Oper.owned : Oper → List Nat
  | .str addr true => [addr]
  | _ => []

/-- An `xloper12` of the add-in in memory, if it is no array, stands for a cell. -/
def IsElem (mem : Memory) : Oper → Xloper12 → Prop
  | .num num, cell => cell = .num num
  | .bool xbool, cell => cell = .bool xbool
  | .err err, cell => cell = .err err
  | .str addr true, cell => ∃ units, mem.block addr = some (.chars units) ∧
      cell = .str units true
  | .other xltype, cell => cell = .other xltype
  | _, _ => False

/-- The `xloper12` at an address stands for a cell, over the blocks `owned` beside its own.
    They are listed in the order in which they are freed. -/
inductive IsResult (mem : Memory) (xlOper : Nat) : Xloper12 → List Nat → Prop where
  | elem {oper : Oper} {cell : Xloper12} (hoper : mem.block xlOper = some (.opers [oper]))
      (hcell : IsElem mem oper cell) : IsResult mem xlOper cell oper.owned
  | multi {rows columns : Int} {lparray : Nat} {cells : List Oper} {values : List Xloper12}
      (hoper : mem.block xlOper = some (.opers [.multi rows columns lparray true]))
      (hcells : mem.block lparray = some (.opers cells))
      (hvalues : List.Forall₂ (IsElem mem) cells values) :
      IsResult mem xlOper (.multi rows columns values true)
        (cells.flatMap Oper.owned ++ [lparray])

variable {base mem mem' : Memory} {as : List Nat} {p : Ptr} {cells : List Oper} {oper : Oper}
  {cell : Xloper12} {win : Win32}

/-- A cell does not change with blocks that it does not own. -/
theorem IsElem.frame (h : IsElem mem oper cell)
    (hkept : ∀ a ∈ oper.owned, mem'.block a = mem.block a) : IsElem mem' oper cell := by
  -- only a text owns a block, which is among those kept
  cases oper with
  | str addr dllFree =>
    cases dllFree with
    | true =>
      obtain ⟨units, hunits, hcell⟩ := h
      exact ⟨units, by rw [hkept addr List.mem_cons_self, hunits], hcell⟩
    | false => exact h
  | num num => exact h
  | bool xbool => exact h
  | err err => exact h
  | other xltype => exact h
  | ref lpmref dllFree => exact h
  | multi rows columns lparray dllFree => exact h

/-- Elements stay as they are while their blocks do. -/
theorem forall₂_isElem_frame {values : List Xloper12}
    (h : List.Forall₂ (IsElem mem) cells values)
    (hkept : ∀ a ∈ cells.flatMap Oper.owned, mem'.block a = mem.block a) :
    List.Forall₂ (IsElem mem') cells values := by
  induction h with
  | nil => exact .nil
  | @cons oper cell cells values hcell _ ih =>
    rw [List.flatMap_cons] at hkept
    exact .cons (hcell.frame fun a ha => hkept a (List.mem_append_left _ ha))
      (ih fun a ha => hkept a (List.mem_append_right _ ha))

/-- A result does not change with blocks that are not its own. -/
theorem IsResult.frame {xlOper : Nat} {owned : List Nat} (h : IsResult mem xlOper cell owned)
    (hkept : ∀ a ∈ xlOper :: owned, mem'.block a = mem.block a) :
    IsResult mem' xlOper cell owned := by
  cases h with
  | elem hoper hcell =>
    exact .elem ((hkept _ List.mem_cons_self).trans hoper)
      (hcell.frame fun a ha => hkept a (List.mem_cons_of_mem _ ha))
  | multi hoper hcells hvalues =>
    exact .multi ((hkept _ List.mem_cons_self).trans hoper) ((hkept _ (by simp)).trans hcells)
      (forall₂_isElem_frame hvalues fun a ha =>
        hkept a (List.mem_cons_of_mem _ (List.mem_append_left _ ha)))

/-! ## Writing to memory -/

/-- A place for an `xloper12`, in a block that has been allocated since `base`. -/
structure IsTarget (base mem : Memory) (as : List Nat) (p : Ptr) (cells : List Oper) : Prop where
  adds : base.Adds mem as
  mem_block : p.block ∈ as
  block_eq : mem.block p.block = some (.opers cells)
  lt : p.index < cells.length

/-- An `xloper12` has been written to its place, and blocks have been allocated for it. -/
structure IsFilled (base mem : Memory) (as : List Nat) (p : Ptr) (cells : List Oper)
    (oper : Oper) (mem' : Memory) : Prop where
  adds : base.Adds mem' (as ++ oper.owned)
  block_eq : mem'.block p.block = some (.opers (cells.set p.index oper))
  kept : ∀ a ∈ as, a ≠ p.block → mem'.block a = mem.block a

/-- Writing to a place that was allocated. -/
theorem IsTarget.storeOper (h : IsTarget base mem as p cells) (oper : Oper) :
    ∃ mem', mem.storeOper p oper = .ok mem' ∧ base.Adds mem' as ∧
      mem'.block p.block = some (.opers (cells.set p.index oper)) ∧
      ∀ a ≠ p.block, mem'.block a = mem.block a := by
  obtain ⟨mem', hwrite⟩ := Heap.exists_write (h := mem) (a := p.block) (by rw [h.block_eq]; rfl)
    (.opers (cells.set p.index oper))
  refine ⟨mem', ?_, h.adds.write h.mem_block hwrite, Heap.block_write hwrite,
    fun a ha => Heap.block_write_of_ne hwrite ha⟩
  unfold Memory.storeOper
  rw [h.block_eq]
  simp only [Block.store_eq h.lt, ok_bind, hwrite]
  rfl

/-- A value without blocks of its own. -/
theorem IsTarget.storeOper_relates (h : IsTarget base mem as p cells) (howned : oper.owned = [])
    (hcell : ∀ mem', IsElem mem' oper cell) :
    Relates (fun mem' cell => ∃ oper, IsElem mem' oper cell ∧
      IsFilled base mem as p cells oper mem') (mem.storeOper p oper) (.ok cell) := by
  obtain ⟨mem', hstore, hadds, hblock, hkept⟩ := h.storeOper oper
  rw [hstore]
  exact ⟨oper, hcell mem', by simpa [howned] using hadds, hblock, fun a _ ha => hkept a ha⟩

/-- Writing a unit of a string, beside what the same write does to the string alone. -/
theorem storeChar_relates {addr : Nat} {units : List UInt16} (hadds : base.Adds mem as)
    (haddr : addr ∈ as) (hunits : mem.block addr = some (.chars units)) (index : Nat)
    (unit : UInt16) :
    Relates (fun mem' units => mem'.block addr = some (.chars units) ∧ base.Adds mem' as ∧
      ∀ a ≠ addr, mem'.block a = mem.block a) (mem.storeChar ⟨addr, index⟩ unit)
      (Block.store units index unit) := by
  unfold Memory.storeChar
  rw [hunits]
  simp only
  apply relates_bind_self
  intro units' _
  -- the block is live, so it can be written back
  obtain ⟨mem', hwrite⟩ := Heap.exists_write (h := mem) (a := addr) (by rw [hunits]; rfl)
    (.chars units')
  rw [hwrite]
  exact ⟨Heap.block_write hwrite, hadds.write haddr hwrite,
    fun a ha => Heap.block_write_of_ne hwrite ha⟩

/-- A string in memory, in a block of its own. -/
theorem convertStr_relates (win : Win32) (value : Bytes) (h : IsTarget base mem as p cells) :
    Relates (fun mem' cell => ∃ oper, IsElem mem' oper cell ∧
      IsFilled base mem as p cells oper mem')
      (Memory.convertStrToLPXloper win value p mem) (convertStrToLPXloper win value) := by
  unfold Memory.convertStrToLPXloper convertStrToLPXloper
  simp only
  -- the block of the string, which is not among those of before
  have halloc := Heap.adds_alloc mem (.chars (List.replicate ((toWString win value).length + 2) 0))
  obtain ⟨addr, mem₁, heq⟩ : ∃ addr mem₁, mem.alloc
      (.chars (List.replicate ((toWString win value).length + 2) 0)) = (addr, mem₁) := ⟨_, _, rfl⟩
  have hunits₁ : mem₁.block addr = some (.chars (List.replicate
      ((toWString win value).length + 2) 0)) := by
    have := Heap.block_alloc mem (.chars (List.replicate ((toWString win value).length + 2) 0))
    rwa [heq] at this
  rw [heq] at halloc ⊢
  simp only at halloc ⊢
  have hnew : ∀ a ∈ as, a ≠ addr := by
    intro a ha haddr
    have hlt := h.adds.lt_next ha
    have hle := halloc.before addr List.mem_cons_self
    omega
  have htarget : IsTarget base mem₁ (as ++ [addr]) p cells := by
    refine ⟨h.adds.trans halloc, List.mem_append_left _ h.mem_block, ?_, h.lt⟩
    rw [halloc.kept _ (by simpa using hnew _ h.mem_block), h.block_eq]
  obtain ⟨mem₂, hstore, hadds₂, hblock₂, hkept₂⟩ := htarget.storeOper (.str addr true)
  refine Relates.bind_left hstore ?_
  -- from here on only the string is written to
  let I : Memory → List UInt16 → Prop := fun mem' units =>
    mem'.block addr = some (.chars units) ∧ base.Adds mem' (as ++ [addr]) ∧
      ∀ a ≠ addr, mem'.block a = mem₂.block a
  have hwrite : ∀ mem' units, I mem' units → ∀ index unit,
      Relates I (mem'.storeChar ⟨addr, index⟩ unit) (Block.store units index unit) := by
    rintro mem' units ⟨hunits, hadds, hkept⟩ index unit
    apply (storeChar_relates hadds (by simp) hunits index unit).imp
    rintro mem'' units' ⟨hunits', hadds', hkept'⟩
    exact ⟨hunits', hadds', fun a ha => (hkept' a ha).trans (hkept a ha)⟩
  have hstart : I mem₂ (List.replicate ((toWString win value).length + 2) 0) :=
    ⟨by rw [hkept₂ addr (hnew _ h.mem_block).symm, hunits₁], hadds₂, fun _ _ => rfl⟩
  apply (hwrite _ _ hstart 0 _).bind
  intro mem₃ units₃ h₃
  apply (foldlM_relates I (fun x _ s t hst => hwrite s t hst (x.2 + 1) x.1) h₃).bind
  intro mem₄ units₄ h₄
  apply (hwrite _ _ h₄ _ _).bind_right
  rintro mem₅ units₅ ⟨hunits₅, hadds₅, hkept₅⟩
  refine ⟨.str addr true, ⟨units₅, hunits₅, rfl⟩, hadds₅, ?_, fun a ha hne => ?_⟩
  · rw [hkept₅ _ (hnew _ h.mem_block), hblock₂]
  · rw [hkept₅ a (hnew a ha), hkept₂ a hne, halloc.kept a (by simpa using hnew a ha)]

/-- A value in memory, beside the cell it stands for. -/
theorem convertVariant_relates (win : Win32) (value : XlVariant)
    (h : IsTarget base mem as p cells) :
    Relates (fun mem' cell => ∃ oper, IsElem mem' oper cell ∧
      IsFilled base mem as p cells oper mem')
      (Memory.convertVariantToLPXloper win value p mem) (convertVariantToLPXloper win value) := by
  cases value with
  | bool value => exact h.storeOper_relates rfl fun _ => rfl
  | double value => exact h.storeOper_relates rfl fun _ => rfl
  | string value => exact convertStr_relates win value h

/-! ## Arrays in memory -/

/-- The first `k` of `n` cells have been written, in memory and in the list that the memory
    stands for. `xlOper` is the cell that points to the block. -/
structure IsWritten (base : Memory) (xlOper lparray : Nat) (array : Oper) (n k : Nat)
    (mem : Memory) (values : List Xloper12) : Prop where
  exists_cells : ∃ cells done,
    mem.block lparray = some (.opers (cells ++ List.replicate (n - k) (.other 0))) ∧
    values = done ++ List.replicate (n - k) (.other 0) ∧
    List.Forall₂ (IsElem mem) cells done ∧ cells.length = k ∧
    base.Adds mem (xlOper :: lparray :: cells.flatMap Oper.owned)
  array_eq : mem.block xlOper = some (.opers [array])

/-- Writing the next cell. -/
theorem IsWritten.step {xlOper lparray n k : Nat} {array : Oper} {values : List Xloper12}
    (h : IsWritten base xlOper lparray array n k mem values) (hk : k < n) (value : XlVariant) :
    Relates (IsWritten base xlOper lparray array n (k + 1))
      (Memory.convertVariantToLPXloper win value ⟨lparray, k⟩ mem)
      (convertVariantToLPXloper win value >>= Block.store values k) := by
  obtain ⟨⟨cells, done, hblock, hvalues, hdone, hlength, hadds⟩, harray⟩ := h
  have hrest : List.replicate (n - k) (.other 0 : Oper) =
      .other 0 :: List.replicate (n - (k + 1)) (.other 0) := by
    rw [← List.replicate_succ]
    congr 1
    omega
  have hrest' : List.replicate (n - k) (.other 0 : Xloper12) =
      .other 0 :: List.replicate (n - (k + 1)) (.other 0) := by
    rw [← List.replicate_succ]
    congr 1
    omega
  have htarget : IsTarget base mem (xlOper :: lparray :: cells.flatMap Oper.owned) ⟨lparray, k⟩
      (cells ++ List.replicate (n - k) (.other 0)) :=
    ⟨hadds, by simp, hblock, by simp; omega⟩
  apply (convertVariant_relates win value htarget).bind_right
  rintro mem' cell ⟨oper, hcell, hadds', hblock', hkept⟩
  -- the cells are written where those that have been written end
  have hlen : done.length = k := hdone.length_eq ▸ hlength
  have hset : (cells ++ List.replicate (n - k) (.other 0 : Oper)).set k oper =
      (cells ++ [oper]) ++ List.replicate (n - (k + 1)) (.other 0) := by
    rw [hrest, List.set_append_right _ _ (by omega), hlength, Nat.sub_self]
    simp
  have hset' : (done ++ List.replicate (n - k) (.other 0 : Xloper12)).set k cell =
      (done ++ [cell]) ++ List.replicate (n - (k + 1)) (.other 0) := by
    rw [hrest', List.set_append_right _ _ (by omega), hlen, Nat.sub_self]
    simp
  have hnodup := hadds.nodup
  rw [List.nodup_cons, List.nodup_cons, List.mem_cons, not_or] at hnodup
  obtain ⟨⟨hne, hxlOper⟩, hlparray, -⟩ := hnodup
  rw [hvalues, Block.store_eq (by simp; omega), hset']
  refine ⟨⟨cells ++ [oper], done ++ [cell], by rw [hblock', hset], rfl, ?_, by simp [hlength], ?_⟩,
    ?_⟩
  · -- the cells before are over blocks that have been there before
    apply List.rel_append (forall₂_isElem_frame hdone fun a ha => ?_) (.cons hcell .nil)
    refine hkept a (List.mem_cons_of_mem _ (List.mem_cons_of_mem _ ha)) ?_
    rintro rfl
    exact hlparray ha
  · simpa using hadds'
  · rw [hkept xlOper List.mem_cons_self hne, harray]

/-- The result is there, and its blocks are all that has been allocated. -/
def Delivered (base : Memory) (xlOper : Nat) (mem : Memory) (cell : Xloper12) : Prop :=
  ∃ owned, IsResult mem xlOper cell owned ∧ base.Adds mem (xlOper :: owned)

/-- An array in memory, beside the cell it stands for. -/
theorem convertArray_relates (win : Win32) (array : XlArray) {xlOper : Nat}
    (h : IsTarget base mem [xlOper] ⟨xlOper, 0⟩ [.other 0]) :
    Relates (Delivered base xlOper) (Memory.convertArrayToLPXloper win array ⟨xlOper, 0⟩ mem)
      (convertArrayToLPXloper win array) := by
  unfold Memory.convertArrayToLPXloper convertArrayToLPXloper
  obtain ⟨n, hn⟩ : ∃ n, n = array.rows * array.cols := ⟨_, rfl⟩
  rw [← hn]
  have halloc := Heap.adds_alloc mem (.opers (List.replicate n (.other 0)))
  have hblock := Heap.block_alloc mem (.opers (List.replicate n (.other 0)))
  obtain ⟨lparray, mem₁, heq⟩ : ∃ lparray mem₁,
      mem.alloc (.opers (List.replicate n (.other 0))) = (lparray, mem₁) := ⟨_, _, rfl⟩
  rw [heq] at halloc hblock ⊢
  simp only at halloc hblock ⊢
  -- the block of the elements is a new one
  have hne : xlOper ≠ lparray := by
    have hlt := h.adds.lt_next List.mem_cons_self
    have hle := halloc.before lparray List.mem_cons_self
    omega
  -- the result's own cell is still there
  have htarget : IsTarget base mem₁ [xlOper, lparray] ⟨xlOper, 0⟩ [.other 0] := by
    refine ⟨h.adds.trans halloc, List.mem_cons_self, ?_, h.lt⟩
    rw [halloc.kept _ (by simpa using hne), h.block_eq]
  obtain ⟨mem₂, hstore, hadds₂, hblock₂, hkept₂⟩ := htarget.storeOper
    (.multi (castInt array.rows) (castInt array.cols) lparray true)
  refine Relates.bind_left hstore ?_
  -- the loop invariant: the elements written so far, each with its text's block
  have hwritten : IsWritten base xlOper lparray
      (.multi (castInt array.rows) (castInt array.cols) lparray true) n 0 mem₂
      (List.replicate n (.other 0)) := by
    refine ⟨⟨[], [], ?_, rfl, .nil, rfl, hadds₂⟩, hblock₂⟩
    rw [hkept₂ lparray hne.symm, hblock]
    rfl
  -- one element
  have hbody : ∀ i < array.rows, ∀ j < array.cols, ∀ mem' values,
      IsWritten base xlOper lparray
        (.multi (castInt array.rows) (castInt array.cols) lparray true) n (i * array.cols + j)
        mem' values → Relates (IsWritten base xlOper lparray
          (.multi (castInt array.rows) (castInt array.cols) lparray true) n
          (i * array.cols + j + 1))
        (array.get i j >>= fun value =>
          Memory.convertVariantToLPXloper win value ⟨lparray, i * array.cols + j⟩ mem')
        (array.get i j >>= fun value => convertVariantToLPXloper win value >>=
          Block.store values (i * array.cols + j)) := by
    intro i hi j hj mem' values hwritten
    apply relates_bind_same
    intro value _
    exact hwritten.step (hn ▸ rowMajor_lt hi hj) value
  apply (forRange_rows_relates _ hbody hwritten).bind_right
  rintro mem₃ values ⟨⟨cells, done, hcells, rfl, hdone, -, hadds⟩, harray⟩
  rw [← hn, Nat.sub_self, List.replicate_zero, List.append_nil] at *
  refine ⟨_, .multi harray hcells hdone, hadds.perm ?_⟩
  exact (List.perm_append_singleton _ _).symm.cons _

/-! ## Results in memory -/

/-- What an exported function has allocated for its result before it knows it. -/
def Memory.callocOper (mem : Memory) : Nat × Memory := mem.alloc (.opers [.other 0])

/-- A result that was just allocated is a place to write to. -/
theorem isTarget_callocOper (base : Memory) : IsTarget base base.callocOper.2
    [base.callocOper.1] ⟨base.callocOper.1, 0⟩ [.other 0] :=
  ⟨Heap.adds_alloc base _, List.mem_cons_self, Heap.block_alloc base _, Nat.one_pos⟩

/-- What is written for a result is laid out over blocks of its own as the cell that the
    result is converted to, or neither comes to an end and both for the same reason. -/
theorem convertToLPXloper_relates (win : Win32) (base : Memory) (result : Result) :
    Relates (Delivered base base.callocOper.1)
      (base.callocOper.2.convertToLPXloper win result ⟨base.callocOper.1, 0⟩)
      (convertToLPXloper win result) := by
  have htarget := isTarget_callocOper base
  -- a scalar is written into the result's own cell
  have helem : ∀ {x : Exec Memory} {y : Exec Xloper12}, Relates (fun mem' cell => ∃ oper,
      IsElem mem' oper cell ∧ IsFilled base base.callocOper.2 [base.callocOper.1]
        ⟨base.callocOper.1, 0⟩ [.other 0] oper mem') x y →
      Relates (Delivered base base.callocOper.1) x y := by
    intro x y h
    apply h.imp
    rintro mem' cell ⟨oper, hcell, hadds, hblock, -⟩
    exact ⟨oper.owned, .elem hblock hcell, hadds⟩
  cases result with
  | double value => exact helem (htarget.storeOper_relates rfl fun _ => rfl)
  | int value => exact helem (htarget.storeOper_relates rfl fun _ => rfl)
  | bool value => exact helem (htarget.storeOper_relates rfl fun _ => rfl)
  | string value => exact helem (convertStr_relates win value htarget)
  | array value => exact convertArray_relates win value htarget

/-! ## Freeing -/

/-- The product of the dimensions of an array is an `int`, and counts its cells. -/
def Xloper12.Fits : Xloper12 → Prop
  | .multi rows columns lparray _ => InInt32 (rows * columns) ∧
      rows * columns = lparray.length
  | _ => True

/-- A dimension that is not negative is a size. -/
theorem castSize_eq {n : Int} {k : Nat} (hn : InInt32 n) (h : n = k) : castSize n = k := by
  unfold InInt32 at hn
  unfold castSize
  omega

/-- Freeing one more block. -/
theorem freeAll_free (mem : Memory) (as : List Nat) (a : Nat) :
    (Memory.orUndefined (mem.freeAll as) >>= fun mem => Memory.free mem a) =
      Memory.orUndefined (mem.freeAll (as ++ [a])) := by
  rw [Heap.freeAll_append]
  cases mem.freeAll as with
  | none => rfl
  | some mem' =>
    rw [Option.bind_some, Heap.freeAll_singleton]
    rfl

/-- Freeing an element frees what it owns. -/
theorem freeElement_eq (mem : Memory) (oper : Oper) :
    freeElement mem oper = Memory.orUndefined (mem.freeAll oper.owned) := by
  -- only a text with the bit owns a block
  cases oper with
  | str addr dllFree =>
    cases dllFree with
    | true =>
      show Memory.free mem addr = Memory.orUndefined (mem.freeAll [addr])
      rw [Heap.freeAll_singleton]
      rfl
    | false => rfl
  | num num => rfl
  | bool xbool => rfl
  | err err => rfl
  | other xltype => rfl
  | ref lpmref dllFree => rfl
  | multi rows columns lparray dllFree => rfl

/-- The loop over an array frees the strings of the cells that it has come by. -/
theorem freeCells_eq {lparray n : Nat} (hcells : mem.block lparray = some (.opers cells))
    (hn : n ≤ cells.length) (hnot : lparray ∉ cells.flatMap Oper.owned) :
    forRange n (fun i mem => Memory.loadOper mem ⟨lparray, i⟩ >>= freeElement mem) mem =
      Memory.orUndefined (mem.freeAll ((cells.take n).flatMap Oper.owned)) := by
  induction n with
  | zero => rfl
  | succ n ih =>
    have hget : cells[n]? = some cells[n] := List.getElem?_eq_getElem (by omega)
    rw [forRange_succ, ih (by omega), ← List.take_append_getElem (by omega), List.flatMap_append,
      Heap.freeAll_append]
    cases hfree : mem.freeAll ((cells.take n).flatMap Oper.owned) with
    | none => rfl
    | some mem' =>
      -- the strings that are freed are not the array
      have hkept : mem'.block lparray = some (.opers cells) := by
        rw [Heap.block_freeAll hfree, hcells]
        intro hmem
        obtain ⟨oper, hoper, howned⟩ := List.mem_flatMap.mp hmem
        exact hnot (List.mem_flatMap.mpr ⟨oper, List.mem_of_mem_take hoper, howned⟩)
      have hload : Memory.loadOper mem' ⟨lparray, n⟩ = .ok cells[n] := by
        unfold Memory.loadOper
        rw [hkept]
        exact Block.load_eq hget
      show (Memory.loadOper mem' ⟨lparray, n⟩ >>= freeElement mem') = _
      rw [hload, ok_bind, freeElement_eq]
      simp

/-- What is freed of a result that is no array. -/
theorem freeContents_elem (h : IsElem mem oper cell) :
    freeContents mem oper = Memory.orUndefined (mem.freeAll oper.owned) := by
  -- on a scalar it does what is done for an element
  cases oper with
  | str addr dllFree =>
    cases dllFree with
    | true => exact freeElement_eq mem (.str addr true)
    | false => exact h.elim
  | num num => rfl
  | bool xbool => rfl
  | err err => rfl
  | other xltype => rfl
  | ref lpmref dllFree => exact h.elim
  | multi rows columns lparray dllFree => exact h.elim

/-- `xlAutoFree12` frees the blocks of a result, its own at last. -/
theorem xlAutoFree12_eq {xlOper : Nat} {owned : List Nat} (h : IsResult mem xlOper cell owned)
    (hnodup : owned.Nodup) (hfits : cell.Fits) :
    xlAutoFree12 mem xlOper = Memory.orUndefined (mem.freeAll (owned ++ [xlOper])) := by
  have hload : ∀ {oper}, mem.block xlOper = some (.opers [oper]) →
      Memory.loadOper mem ⟨xlOper, 0⟩ = .ok oper := by
    intro oper hoper
    unfold Memory.loadOper
    rw [hoper]
    rfl
  unfold xlAutoFree12
  cases h with
  | elem hoper hcell => rw [hload hoper, ok_bind, freeContents_elem hcell, freeAll_free]
  | @multi rows columns lparray cells values hoper hcells hvalues =>
    obtain ⟨hint, hcount⟩ := hfits
    -- the product of the dimensions is the number of elements
    have hlen : castSize (rows * columns) = cells.length :=
      castSize_eq hint (by rw [hcount, hvalues.length_eq])
    have hnot : lparray ∉ cells.flatMap Oper.owned := by
      intro hmem
      exact (List.nodup_append.mp hnodup).2.2 _ hmem _ List.mem_cons_self rfl
    -- the elements go first, then their block, then the result
    have hloop := freeCells_eq hcells le_rfl hnot
    rw [List.take_length] at hloop
    rw [hload hoper, ok_bind]
    simp only [freeContents]
    rw [mul32, checked_eq hint, ok_bind, hlen, hloop, freeAll_free, freeAll_free]

/-! ## What conversions make -/

/-- A write outside of a block, which is all that a conversion can fail at. -/
def OutOfBlock (f : Fault) : Prop := f = .undefined .indexOutOfRange

/-- Writing may miss the block. -/
theorem post_store (str : List UInt16) (index : Nat) (unit : UInt16) :
    Post (Block.store str index unit) OutOfBlock fun _ => True := by
  unfold Block.store
  split
  · trivial
  · exact post_error.mpr rfl

/-- Converting a text may miss the block, and makes a text. -/
theorem convertStrToLPXloper_post (win : Win32) (value : Bytes) :
    Post (convertStrToLPXloper win value) OutOfBlock fun cell => ∃ str, cell = .str str true := by
  unfold convertStrToLPXloper
  apply (post_store _ _ _).bind
  intro str _
  apply Post.bind (post_foldlM (I := fun _ => True) (fun x _ str _ => post_store _ _ _) trivial)
  intro str _
  apply (post_store _ _ _).bind
  intro str _
  exact post_pure.mpr ⟨str, rfl⟩

/-- Converting a value may miss the block. -/
theorem convertVariantToLPXloper_post (win : Win32) (value : XlVariant) :
    Post (convertVariantToLPXloper win value) OutOfBlock fun _ => True := by
  cases value with
  | bool value => trivial
  | double value => trivial
  | string value => exact (convertStrToLPXloper_post win value).weaken fun _ _ => trivial

/-- The cell of an array has the dimensions of the array and its elements. -/
theorem convertArrayToLPXloper_shape (win : Win32) (array : XlArray) :
    Post (convertArrayToLPXloper win array) OutOfBlock fun cell => ∃ values,
      cell = .multi (castInt array.rows) (castInt array.cols) values true ∧
        values.length = array.rows * array.cols := by
  -- storing an element keeps the length of the block
  have hbody : ∀ i < array.rows, ∀ j < array.cols, ∀ lparray : List Xloper12,
      lparray.length = array.rows * array.cols → Post (array.get i j >>= fun value =>
        convertVariantToLPXloper win value >>= Block.store lparray (i * array.cols + j))
        OutOfBlock fun lparray => lparray.length = array.rows * array.cols := by
    intro i hi j hj lparray hlen
    obtain ⟨value, hvalue⟩ := XlArray.exists_get? hi hj
    rw [XlArray.get_eq hvalue, ok_bind]
    apply (convertVariantToLPXloper_post win value).bind
    intro cell _
    rw [Block.store_eq (by rw [hlen]; exact rowMajor_lt hi hj)]
    simpa using hlen
  unfold convertArrayToLPXloper
  refine Post.bind (forRange_rows_post
    (fun _ (lparray : List Xloper12) => lparray.length = array.rows * array.cols) hbody
    List.length_replicate) ?_
  intro values hlen
  exact post_pure.mpr ⟨values, rfl, hlen⟩

/-- Results are arrays of less than 2^31 elements, or no arrays. -/
def Result.Fits : Result → Prop
  | .array table => table.rows * table.cols < 2147483648
  | _ => True

/-- The dimensions of an array of less than 2^31 elements are not changed by their casts,
    unless one of them is zero. -/
theorem castInt_mul_castInt {rows cols : Nat} (h : rows * cols < 2147483648) :
    castInt rows * castInt cols = (rows * cols : Nat) := by
  rcases Nat.eq_zero_or_pos (rows * cols) with hzero | hpos
  · rcases Nat.mul_eq_zero.mp hzero with hrows | hcols
    · rw [hrows, show castInt 0 = 0 from rfl, Int.zero_mul, Nat.zero_mul]
      rfl
    · rw [hcols, show castInt 0 = 0 from rfl, Int.mul_zero, Nat.mul_zero]
      rfl
  · -- neither dimension is larger than the product
    have hrows := Nat.le_mul_of_pos_right rows (Nat.pos_of_mul_pos_left hpos)
    have hcols := Nat.le_mul_of_pos_left cols (Nat.pos_of_mul_pos_right hpos)
    rw [castInt_eq (by omega), castInt_eq (by omega), Nat.cast_mul]

/-- Converting a result may miss the block, and makes a cell that fits if the result does. -/
theorem convertToLPXloper_post (win : Win32) (result : Result) :
    Post (convertToLPXloper win result) OutOfBlock fun cell => result.Fits → cell.Fits := by
  cases result with
  | double value => exact fun _ => trivial
  | int value => exact fun _ => trivial
  | bool value => exact fun _ => trivial
  | string value =>
    apply (convertStrToLPXloper_post win value).weaken
    rintro cell ⟨str, rfl⟩ -
    trivial
  | array table =>
    apply (convertArrayToLPXloper_shape win table).weaken
    rintro cell ⟨values, rfl, hlen⟩ hfits
    -- dimensions that fit are handed over as they are
    have hprod := castInt_mul_castInt hfits
    refine ⟨?_, by rw [hprod, hlen]⟩
    simp only [Result.Fits] at hfits
    rw [hprod]
    unfold InInt32
    omega

end Oxl.XlApi
