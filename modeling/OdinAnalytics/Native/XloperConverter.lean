import OdinAnalytics.Lib.Decimal
import OdinAnalytics.Lib.Utf
import OdinAnalytics.Machine.Block
import OdinAnalytics.Machine.Bytes
import OdinAnalytics.Machine.Double

/-!
# Excel cells and strings

`XLoperObj` (`oxl/xl_api/xloper_converter.cpp`) moves strings in and out of Excel
cells. A cell holds UTF-16 behind its length in units, a `std::string` holds UTF-8,
and two functions of the Windows API convert between them.
-/

namespace Oxl.XlApi

open Machine Utf

/-- `XlVariant`. -/
inductive XlVariant where
  | double (value : Double)
  | string (value : Bytes)
  | bool (value : Bool)
deriving DecidableEq

/-- An `xloper12`, by its `xltype`. A string is a block of memory, and `dllFree` is the
    bit `xlbitDLLFree` of the type. -/
inductive Xloper12 where
  | num (num : Double)
  | str (str : List UInt16) (dllFree : Bool)
  | bool (xbool : Bool)
  | err (err : Int)
  | multi (rows columns : Int) (lparray : List Xloper12) (dllFree : Bool)
  | missing
  | nil
  /-- One of the types that no function here looks for. -/
  | other (xltype : Nat)

/-- What Excel does to the type of a string that it hands back. -/
def Xloper12.clearDllFree : Xloper12 → Xloper12
  | .str units _ => .str units false
  | cell => cell

/-! ## Conversions of the Windows API -/

/-- The conversions between UTF-8 and UTF-16, of the first `count` elements at a pointer, or
    of all up to and with the first NUL if `count` is -1. Without a buffer they return the size
    that the output needs, and with one they write to it. -/
structure Win32 where
  /-- `MultiByteToWideChar(CP_UTF8, 0, memory, count, nullptr, 0)` -/
  sizeOfWideChar (memory : Bytes) (count : Int) : Nat
  /-- What `buffer` holds after `MultiByteToWideChar(CP_UTF8, 0, memory, count, buffer, size)`. -/
  multiByteToWideChar (memory : Bytes) (count : Int) (buffer : List UInt16) : List UInt16
  /-- `WideCharToMultiByte(CP_UTF8, 0, memory, count, nullptr, 0, nullptr, nullptr)` -/
  sizeOfMultiByte (memory : List UInt16) (count : Int) : Nat
  /-- What `buffer` holds after
      `WideCharToMultiByte(CP_UTF8, 0, memory, count, buffer, size, nullptr, nullptr)`. -/
  wideCharToMultiByte (memory : List UInt16) (count : Int) (buffer : Bytes) : Bytes
  sizeOfWideChar_utf8 : ∀ cs rest,
    sizeOfWideChar (utf8 cs ++ rest) (utf8 cs).length = (utf16 cs).length
  multiByteToWideChar_utf8 : ∀ cs rest buffer, buffer.length = (utf16 cs).length →
    multiByteToWideChar (utf8 cs ++ rest) (utf8 cs).length buffer = utf16 cs
  sizeOfMultiByte_utf16 : ∀ cs rest,
    sizeOfMultiByte (utf16 cs ++ rest) (utf16 cs).length = (utf8 cs).length
  /-- A buffer that ends before the output does: the characters that fit are written to it. -/
  wideCharToMultiByte_short : ∀ cs cs' rest buffer, Char.ofNat 0 ∉ cs → Char.ofNat 0 ∉ cs' →
    buffer.length = (utf8 cs).length →
      wideCharToMultiByte (utf16 (cs ++ cs') ++ 0 :: rest) (-1) buffer = utf8 cs

/-- `static_cast<int>` of a size. -/
def castInt (size : Nat) : Int := (size : Int).bmod 4294967296

/-- `XLoperObj::ToWString`. -/
def toWString (win : Win32) (value : Bytes) : List UInt16 :=
  let cStr := value ++ [0]
  let valueSize := castInt value.length
  let size := win.sizeOfWideChar cStr valueSize
  win.multiByteToWideChar cStr valueSize (List.replicate size 0)

/-- `XLoperObj::ToUTF8String`. The second conversion takes the NUL as well, for which the
    buffer has no room. -/
def toUTF8String (win : Win32) (value : List UInt16) : Bytes :=
  let cStr := value ++ [0]
  let valueSize := castInt value.length
  let size := win.sizeOfMultiByte cStr valueSize
  win.wideCharToMultiByte cStr (-1) (List.replicate size 0)

/-! ## Cells -/

/-- `XLoperObj::ConvertToLPXloper` of a `std::string`. -/
def convertStrToLPXloper (win : Win32) (value : Bytes) : Exec Xloper12 := do
  let wideStr := toWString win value
  -- `calloc`
  let str := List.replicate (wideStr.length + 2) 0
  let str ← Block.store str 0 (UInt16.ofNat wideStr.length)
  let str ← wideStr.zipIdx.foldlM (fun str (unit, i) => Block.store str (i + 1) unit) str
  -- the length of the UTF-8 string, not of `wideStr`
  let str ← Block.store str (value.length + 1) 0
  return .str str true

/-- `std::wstring` of a pointer: the units up to the first NUL. -/
def wstringOf (memory : List UInt16) : Exec (List UInt16) :=
  if 0 ∈ memory then .ok (memory.takeWhile (· ≠ 0)) else .error (.undefined .indexOutOfRange)

/-- `XLoperObj::LPXloperToStr`. -/
def lpXloperToStr (win : Win32) (xlOper : Xloper12) : Exec Bytes :=
  match xlOper with
  | .str (count :: memory) false => do
    let str := toUTF8String win (← wstringOf memory)
    return str.take count.toNat
  | .str [] false => .error (.undefined .indexOutOfRange)
  | _ => throwInvalid
      "xloper_converter.cpp:271:LPXloperToStr: Not an Excel String Type line check the input"

/-- `XLoperObj::LPXloperToDouble`. -/
def lpXloperToDouble (xlOper : Xloper12) : Exec Double :=
  match xlOper with
  | .num num => .ok num
  | _ => throwInvalid
      "xloper_converter.cpp:284:LPXloperToDouble: Not an Excel Double Type line check the input"

/-- `XLoperObj::IsMulti`. -/
def Xloper12.isMulti : Xloper12 → Bool
  | .multi _ _ _ false => true
  | _ => false

/-- `XLoperObj::IsStr`. -/
def Xloper12.isStr : Xloper12 → Bool
  | .str _ false => true
  | _ => false

/-- The value that `XLoperObj::LPXloperToXlArray` stores for a cell. -/
def cellToVariant (win : Win32) : Xloper12 → Exec XlVariant
  | .num num => .ok (.double num)
  | .bool xbool => .ok (.bool xbool)
  -- `xlretInvAsynchronousContext` has the value of `xltypeNil`
  | .nil => .ok (.string [])
  | cell => do return .string (← lpXloperToStr win cell)

/-! ## Calling cells -/

/-- What Excel says about the cell that a function is called from: the string that
    `xlSheetNm` returns, and where the reference is that `xlfCaller` returns. -/
structure Caller where
  sheetName : Xloper12
  rwFirst : Int
  colFirst : Int

/-- `XLoperObj::CellName`. -/
def cellName (win : Win32) (cellLoc : Caller) : Exec Bytes := do
  let sheetNameStr ← lpXloperToStr win cellLoc.sheetName
  return sheetNameStr ++ bytes "_$" ++ Decimal.reprInt cellLoc.rwFirst ++ bytes "$" ++
    Decimal.reprInt cellLoc.colFirst

end Oxl.XlApi
