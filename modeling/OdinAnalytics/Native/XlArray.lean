import OdinAnalytics.Machine.Block
import OdinAnalytics.Native.XloperConverter

/-!
# Excel arrays

The `XlArray` class (`oxl/xl_api/xl_array.cpp`), an array of variants, and its
conversions to and from a cell that holds an array of cells
(`oxl/xl_api/xloper_converter.cpp`).
-/

namespace Oxl.XlApi

open Machine

/-- An array of variants, with its dimensions. -/
@[ext] structure XlArray where
  rows : Nat
  cols : Nat
  data : List (List XlVariant)
  length_data : data.length = rows
  length_row : ∀ row ∈ data, row.length = cols

namespace XlArray

/-- `XlArray::XlArray(size_t, size_t, const XlVariant&)`. -/
def fill (rows cols : Nat) (var : XlVariant) : XlArray where
  rows := rows
  cols := cols
  data := List.replicate rows (List.replicate cols var)
  length_data := List.length_replicate
  length_row row h := by rw [List.eq_of_mem_replicate h, List.length_replicate]

/-- The same constructor from two `int`s, with a zero `double` in every element. A negative
    one becomes a size that no vector can have. -/
def ofInts (rows cols : Int) : Exec XlArray :=
  if rows < 0 ∨ cols < 0 then .error (.throws .lengthError)
  else .ok (fill rows.toNat cols.toNat (.double (.finite 0)))

/-- The element at a row and a column, if there are these. -/
def get? (array : XlArray) (row cols : Nat) : Option XlVariant :=
  array.data[row]?.bind fun values => values[cols]?

/-- `XlArray::operator()`. -/
def get (array : XlArray) (row cols : Nat) : Exec XlVariant :=
  match array.get? row cols with
  | some value => .ok value
  | none => .error (.throws .outOfRange)

/-- An assignment to the reference that `XlArray::operator()` returns. -/
def set (array : XlArray) (row cols : Nat) (value : XlVariant) : Exec XlArray :=
  match array.get? row cols with
  | some _ => .ok {
      rows := array.rows
      cols := array.cols
      data := array.data.modify row fun values => values.set cols value
      length_data := by rw [List.length_modify, array.length_data]
      length_row := by
        intro values hvalues
        obtain ⟨i, hi, rfl⟩ := List.getElem_of_mem hvalues
        rw [List.length_modify] at hi
        rw [List.getElem_modify]
        have hrow := array.length_row _ (List.getElem_mem hi)
        split
        · rw [List.length_set, hrow]
        · exact hrow }
  -- `at` throws for a row or a column out of range
  | none => .error (.throws .outOfRange)

/-- `XlArray::XlArray(std::initializer_list<std::initializer_list<XlVariant>>)`. -/
def ofRows (data : List (List XlVariant)) : Exec XlArray :=
  let cols := (data.headD []).length
  if data.length < 1 then throwInvalid "xl_array.cpp:148: at least 1 row required"
  else if cols < 1 then throwInvalid "xl_array.cpp:156: at least 1 col required"
  else
    -- the first row of another length
    match h : data.zipIdx.find? (fun (row, _) => row.length ≠ cols) with
    | some (row, i) => throwInvalid ("xl_array.cpp:165: row " ++ toString i ++ " has size " ++
        toString row.length ++ " != expected row size " ++ toString cols)
    | none => .ok {
        rows := data.length
        cols := cols
        data := data
        length_data := rfl
        length_row := by
          intro row hrow
          obtain ⟨i, hi, rfl⟩ := List.getElem_of_mem hrow
          have hmem : (data[i], i) ∈ data.zipIdx := by
            rw [List.mk_mem_zipIdx_iff_getElem?, List.getElem?_eq_getElem hi]
          simpa using List.find?_eq_none.mp h _ hmem }

/-- `XlArray::RowView::operator=`, of the row that `XlArray::operator[]` returns. -/
def setRow (array : XlArray) (index : Nat) (data : List XlVariant) : Exec XlArray :=
  match h : array.data[index]? with
  | none => .error (.throws .outOfRange)
  | some row =>
    if hsize : data.length = row.length then .ok {
      rows := array.rows
      cols := array.cols
      data := array.data.set index data
      length_data := by rw [List.length_set, array.length_data]
      length_row := by
        intro values hvalues
        rcases List.mem_or_eq_of_mem_set hvalues with hvalues | rfl
        · exact array.length_row values hvalues
        · rw [hsize, array.length_row row (List.mem_of_getElem? h)] }
    else throwInvalid ("xl_array.cpp:68: new row data size " ++ toString data.length ++
      " != expected row data size " ++ toString row.length)

/-- `XlArray::ToVector`. -/
def toVector (array : XlArray) : Exec (List XlVariant) :=
  if array.rows ≠ 1 ∧ array.cols ≠ 1 then
    throwRuntime "xl_array.cpp:202: array must be row or column only"
  else if array.cols = 1 then (List.range array.rows).mapM fun i => array.get i 0
  else (List.range array.cols).mapM fun j => array.get 0 j

end XlArray

/-! ## Arrays in cells -/

/-- What Excel does to the types of an array and its elements that it hands back. -/
def Xloper12.handBack : Xloper12 → Xloper12
  | .multi rows columns lparray _ => .multi rows columns (lparray.map clearDllFree) false
  | cell => cell.clearDllFree

/-- The conversion of one element, by the alternative it holds. -/
def convertVariantToLPXloper (win : Win32) : XlVariant → Exec Xloper12
  | .bool value => .ok (.bool value)
  | .double value => .ok (.num value)
  | .string value => convertStrToLPXloper win value

/-- `XLoperObj::ConvertToLPXloper` of an `XlArray`. -/
def convertArrayToLPXloper (win : Win32) (value : XlArray) : Exec Xloper12 := do
  -- `malloc`, with anything in the cells until they are written
  let lparray := List.replicate (value.rows * value.cols) (.other 0)
  let lparray ← forRange value.rows (fun i lparray => forRange value.cols (fun j lparray => do
    let cell ← convertVariantToLPXloper win (← value.get i j)
    Block.store lparray (i * value.cols + j) cell) lparray) lparray
  return .multi (castInt value.rows) (castInt value.cols) lparray true

/-- `XLoperObj::LPXloperToXlArray`. -/
def lpXloperToXlArray (win : Win32) (xlOper : Xloper12) : Exec XlArray :=
  match xlOper with
  | .multi rows columns lparray false => do
    let xlArrayData ← XlArray.ofInts rows columns
    forRange rows.toNat (fun i array => forRange columns.toNat (fun j array => do
      let cell ← Block.load lparray (i * columns.toNat + j)
      array.set i j (← cellToVariant win cell)) array) xlArrayData
  | _ => throwInvalid
      "xloper_converter.cpp:183:LPXloperToXlArray: Input was not 2D array check the input"

end Oxl.XlApi
