import OdinAnalytics.Lib.Heap
import OdinAnalytics.Native.XlArray

/-!
# Results in memory

An exported function returns a pointer to an `xloper12` that it has allocated, and the
strings and arrays of the result are blocks of their own. This is
`XLoperObj::ConvertToLPXloper` (`oxl/xl_api/xloper_converter.cpp`) as it writes to that
memory, and `xlAutoFree12` (`oxl/excel_functions.cpp`), which Excel calls to have a
result freed. An access outside of every block, and freeing what is no block, are
undefined behaviour.
-/

namespace Oxl.XlApi

open Machine

/-- A pointer to an element of a block. -/
structure Ptr where
  block : Nat
  index : Nat := 0

/-- An `xloper12` in memory. It points to its string, its references or its array. -/
inductive Oper where
  | num (num : Double)
  | str (str : Nat) (dllFree : Bool)
  | bool (xbool : Bool)
  | ref (lpmref : Nat) (dllFree : Bool)
  | err (err : Int)
  | multi (rows columns : Int) (lparray : Nat) (dllFree : Bool)
  /-- One of the types that no function here looks for. -/
  | other (xltype : Nat)

/-- A block, by the type of its elements. -/
inductive MemBlock where
  | chars (units : List UInt16)
  | opers (cells : List Oper)

/-- The memory of the add-in. An address is never given out twice. -/
abbrev Memory := Heap MemBlock

/-- `xlerrValue`. -/
def xlerrValue : Int := 15

namespace Memory

/-! ## Access -/

/-- What is found in the memory, undefined if it is not there. -/
def orUndefined {α : Type} : Option α → Exec α
  | some a => .ok a
  | none => .error (.undefined .indexOutOfRange)

/-- `*p` of a pointer to an `xloper12`. -/
def loadOper (mem : Memory) (p : Ptr) : Exec Oper :=
  match mem.block p.block with
  | some (.opers cells) => Block.load cells p.index
  | _ => .error (.undefined .indexOutOfRange)

/-- `*p = oper`. -/
def storeOper (mem : Memory) (p : Ptr) (oper : Oper) : Exec Memory :=
  match mem.block p.block with
  | some (.opers cells) => do
    let cells ← Block.store cells p.index oper
    orUndefined (mem.write p.block (.opers cells))
  | _ => .error (.undefined .indexOutOfRange)

/-- `*p = unit` of a pointer to an `XCHAR`. -/
def storeChar (mem : Memory) (p : Ptr) (unit : UInt16) : Exec Memory :=
  match mem.block p.block with
  | some (.chars units) => do
    let units ← Block.store units p.index unit
    orUndefined (mem.write p.block (.chars units))
  | _ => .error (.undefined .indexOutOfRange)

/-- `free(a)`. -/
def free (mem : Memory) (a : Nat) : Exec Memory := orUndefined (Heap.free mem a)

/-! ## Conversions -/

/-- `XLoperObj::ConvertToLPXloper` of a `double`. -/
def convertDoubleToLPXloper (value : Double) (xlOperRes : Ptr) (mem : Memory) : Exec Memory :=
  mem.storeOper xlOperRes (.num value)

/-- `XLoperObj::ConvertToLPXloper` of an `int`. -/
def convertIntToLPXloper (value : Int) (xlOperRes : Ptr) (mem : Memory) : Exec Memory :=
  mem.storeOper xlOperRes (.num (.ofInt value))

/-- `XLoperObj::ConvertToLPXloper` of a `bool`. -/
def convertBoolToLPXloper (value : Bool) (xlOperRes : Ptr) (mem : Memory) : Exec Memory :=
  mem.storeOper xlOperRes (.bool value)

/-- `XLoperObj::ConvertToLPXloper` of a `std::string`. -/
def convertStrToLPXloper (win : Win32) (value : Bytes) (xlOperRes : Ptr) (mem : Memory) :
    Exec Memory := do
  let wideStr := toWString win value
  -- `calloc`
  let (str, mem) := mem.alloc (.chars (List.replicate (wideStr.length + 2) 0))
  let mem ← storeOper mem xlOperRes (.str str true)
  let mem ← storeChar mem ⟨str, 0⟩ (UInt16.ofNat wideStr.length)
  let mem ← wideStr.zipIdx.foldlM (fun mem (unit, i) => storeChar mem ⟨str, i + 1⟩ unit) mem
  -- the length of the UTF-8 string, not of `wideStr`
  storeChar mem ⟨str, value.length + 1⟩ 0

/-- The conversion of one element, by the alternative it holds. -/
def convertVariantToLPXloper (win : Win32) (value : XlVariant) (xlOperRes : Ptr)
    (mem : Memory) : Exec Memory :=
  match value with
  | .bool value => convertBoolToLPXloper value xlOperRes mem
  | .double value => convertDoubleToLPXloper value xlOperRes mem
  | .string value => convertStrToLPXloper win value xlOperRes mem

/-- `XLoperObj::ConvertToLPXloper` of an `XlArray`. -/
def convertArrayToLPXloper (win : Win32) (value : XlArray) (xlOperRes : Ptr) (mem : Memory) :
    Exec Memory := do
  -- `malloc`, with anything in the cells until they are written
  let (lparray, mem) := mem.alloc (.opers (List.replicate (value.rows * value.cols) (.other 0)))
  let mem ← storeOper mem xlOperRes
    (.multi (castInt value.rows) (castInt value.cols) lparray true)
  forRange value.rows (fun i mem => forRange value.cols (fun j mem => do
    convertVariantToLPXloper win (← value.get i j) ⟨lparray, i * value.cols + j⟩ mem) mem) mem

end Memory

/-- What an exported function comes to, by the overload of `ConvertToLPXloper` it calls. -/
inductive Result where
  | double (value : Double)
  | int (value : Int)
  | bool (value : Bool)
  | string (value : Bytes)
  | array (value : XlArray)

/-- The overload of `XLoperObj::ConvertToLPXloper` for a result, in memory. -/
def Memory.convertToLPXloper (win : Win32) (result : Result) (xlOperRes : Ptr) (mem : Memory) :
    Exec Memory :=
  match result with
  | .double value => convertDoubleToLPXloper value xlOperRes mem
  | .int value => convertIntToLPXloper value xlOperRes mem
  | .bool value => convertBoolToLPXloper value xlOperRes mem
  | .string value => convertStrToLPXloper win value xlOperRes mem
  | .array value => convertArrayToLPXloper win value xlOperRes mem

/-- The overload of `XLoperObj::ConvertToLPXloper` for a result: the cell that it makes. -/
def convertToLPXloper (win : Win32) (result : Result) : Exec Xloper12 :=
  match result with
  | .double value => .ok (.num value)
  | .int value => .ok (.num (.ofInt value))
  | .bool value => .ok (.bool value)
  | .string value => convertStrToLPXloper win value
  | .array value => convertArrayToLPXloper win value

/-! ## Freeing -/

/-- `static_cast<size_t>` of an `int`. -/
def castSize (n : Int) : Nat := (n % 18446744073709551616).toNat

/-- What `xlAutoFree12` does for an element of an array. -/
def freeElement (mem : Memory) : Oper → Exec Memory
  | .str str true => Memory.free mem str
  | _ => .ok mem

/-- What `xlAutoFree12` frees of what a cell points to. -/
def freeContents (mem : Memory) : Oper → Exec Memory
  | .str str true => Memory.free mem str
  | .ref lpmref true => Memory.free mem lpmref
  | .multi rows columns lparray true => do
    -- the product of two `int`s
    let arraySize ← mul32 rows columns
    let mem ← forRange (castSize arraySize) (fun i mem => do
      freeElement mem (← Memory.loadOper mem ⟨lparray, i⟩)) mem
    Memory.free mem lparray
  | _ => .ok mem

/-- `xlAutoFree12`. -/
def xlAutoFree12 (mem : Memory) (xlOper : Nat) : Exec Memory := do
  let mem ← freeContents mem (← mem.loadOper ⟨xlOper, 0⟩)
  Memory.free mem xlOper

end Oxl.XlApi
