import OdinAnalytics.Lib.Atomic
import OdinAnalytics.Lib.Decimal
import OdinAnalytics.Native.XloperConverter

/-!
# The object cache

`XlCacheObj` (`oxl/xl_api/cache_xl_obj.cpp`) keeps the arrays and dictionaries of a
spreadsheet under keys, and gives out handles that carry a key and a version. Every
access to the map is a section under one mutex. What the map does not look into, the
contents of arrays and dictionaries, is left open.
-/

namespace Oxl.XlApi

open Machine Atomic

variable {A D : Type}

/-- `CachedObjVar`: a pointer to an array or to a dictionary. -/
inductive CachedObjVar (A D : Type) where
  | array (xlArray : A)
  | dictionary (xlDictionary : D)
deriving DecidableEq

namespace CachedObjVar

/-- `std::holds_alternative` of a dictionary. -/
def holdsDictionary : CachedObjVar A D → Bool
  | .array _ => false
  | .dictionary _ => true

/-- `std::get` of an array. -/
def getArray : CachedObjVar A D → Exec A
  | .array xlArray => .ok xlArray
  | .dictionary _ => .error (.throws .badVariantAccess)

/-- `std::get` of a dictionary. -/
def getDictionary : CachedObjVar A D → Exec D
  | .array _ => .error (.throws .badVariantAccess)
  | .dictionary xlDictionary => .ok xlDictionary

end CachedObjVar

/-- `HandlePrefixer`. -/
def handlePrefixer : CachedObjVar A D → Bytes
  | .array _ => bytes "Array_"
  | .dictionary _ => bytes "Dictionary_"

/-- `CacheMap`: an object and its version, a `std::size_t` of 64 bits. -/
abbrev CacheMap (A D : Type) := Bytes → Option (CachedObjVar A D × Nat)

/-- An `XlCacheObj`. -/
structure XlCacheObj where
  /-- `cache_name_` -/
  key : Bytes

namespace XlCacheObj

/-! ## Keys and handles -/

/-- `XlCacheObj::GetKeyFromHandle`: all of the text if there is no colon. -/
def getKeyFromHandle (handleStr : Bytes) : Bytes := handleStr.takeWhile (· ≠ 58)

/-- The handle that `XlCacheObj::CacheName` formats. -/
def formatHandle (key : Bytes) (version : Nat) : Bytes :=
  key ++ bytes ":" ++ Decimal.repr version

/-- `XlCacheObj::GenHandleStr`, of the text of `XLoperObj::CellName`. -/
def genHandleStr (cellLoc : Bytes) (cachedObj : CachedObjVar A D) : Exec Bytes :=
  match cellLoc.findIdx? (· = 91) with
  | none => .error (.throws .outOfRange)
  | some start =>
    -- without a closing bracket the count wraps to zero
    let count := match cellLoc.findIdx? (· = 93) with
      | none => 0
      | some last => last + 1
    .ok (handlePrefixer cachedObj ++ (cellLoc.take start ++ cellLoc.drop (start + count)))

/-- `XlCacheObj::GenHandleStr`, in a call from a cell. -/
def genHandleStrFrom (win : Win32) (cellLoc : Caller) (cachedObj : CachedObjVar A D) :
    Exec Bytes := do
  genHandleStr (← cellName win cellLoc) cachedObj

/-! ## The map -/

/-- `XlCacheObj::UnsafeLoadPair`, which does not look whether the key is there. -/
def unsafeLoadPair (cache : CacheMap A D) (key : Bytes) : Exec (CachedObjVar A D × Nat) :=
  match cache key with
  | some pair => .ok pair
  | none => .error (.undefined .endIterator)

/-- The version that the constructor picks. -/
def nextVersion (cache : CacheMap A D) (key : Bytes) : Exec Nat := do
  if (cache key).isSome then
    let (_, storedVersion) ← unsafeLoadPair cache key
    return (storedVersion + 1) % 18446744073709551616
  else
    return 0

/-- `XlCacheObj::XlCacheObj`. -/
def construct (cachedObj : CachedObjVar A D) (key : Bytes) :
    Prog (CacheMap A D) Fault XlCacheObj :=
  Prog.atomically fun cache =>
    match nextVersion cache key with
    | .error f => (.error f, cache)
    | .ok version => (.ok ⟨key⟩, Function.update cache key (some (cachedObj, version)))

/-- `XlCacheObj::LoadPair`. -/
def loadPair (key : Bytes) : Prog (CacheMap A D) Fault (CachedObjVar A D × Nat) :=
  Prog.atomically fun cache => (unsafeLoadPair cache key, cache)

/-- `XlCacheObj::CacheName`. -/
def cacheName (obj : XlCacheObj) : Prog (CacheMap A D) Fault Bytes := do
  let (_, version) ← loadPair obj.key
  return formatHandle obj.key version

/-- `XlCacheObj::GetVariant`. -/
def getVariant (key : Bytes) : Prog (CacheMap A D) Fault (CachedObjVar A D) := do
  return (← loadPair key).1

/-- `XlCacheObj::IsHandle`. -/
def isHandle (handle : Bytes) : Prog (CacheMap A D) Fault Bool :=
  Prog.atomically fun cache => (.ok (cache (getKeyFromHandle handle)).isSome, cache)

/-- `XlCacheObj::IsDictionary`. -/
def isDictionary (handle : Bytes) : Prog (CacheMap A D) Fault Bool := do
  if ← isHandle handle then
    let cachedObj ← getVariant (getKeyFromHandle handle)
    return cachedObj.holdsDictionary
  else
    return false

end XlCacheObj

/-! ## Exported functions -/

open XlCacheObj

/-- How `oxlArray` and `oxlDictionary` make a handle. -/
def createHandle (cachedObj : CachedObjVar A D) (key : Bytes) :
    Prog (CacheMap A D) Fault Bytes := do
  let obj ← construct cachedObj key
  cacheName obj

/-- The dictionary that `oxlComputeDate` and `oxlAddBusinessDays` read for a handle; with
    none their dictionary stays empty. -/
def inputDictionary (handleStr : Bytes) : Prog (CacheMap A D) Fault (Option D) := do
  let key := getKeyFromHandle handleStr
  if ← isDictionary key then
    let cacheVariant ← getVariant key
    return some (← cacheVariant.getDictionary)
  else
    return none

/-- `RetrieveXLDict`, of the value that the dictionary holds under the given name. -/
def retrieveXLDict (value : XlVariant) : Prog (CacheMap A D) Fault D :=
  match value with
  | .string fixingDictHandle => do
    let key := getKeyFromHandle fixingDictHandle
    -- checked and read in two sections, each under the lock
    if ← isDictionary key then
      let cacheVariant ← getVariant key
      cacheVariant.getDictionary
    else
      liftM (throwRuntime (text fixingDictHandle ++
        " is not a valid cached dictionary handle please check input!") : Exec D)
  -- a `boost::get` of another alternative throws
  | _ => liftM (.error (.throws .badVariantAccess) : Exec D)

/-- `OxlDisplay`, of the text of the cell. -/
def oxlDisplay (xlDictionaryToXlArray : D → A) (handleStr : Bytes) :
    Prog (CacheMap A D) Fault A := do
  let key := getKeyFromHandle handleStr
  if ← isHandle key then
    let cacheVariant ← getVariant key
    -- a dictionary is shown as the range of its entries
    if cacheVariant.holdsDictionary then
      return xlDictionaryToXlArray (← cacheVariant.getDictionary)
    else
      cacheVariant.getArray
  else
    liftM (throwRuntime ("excel_base_funcs.cpp:53:OxlDisplay: " ++ text handleStr ++
      " is not a valid cache handle please check input!") : Exec A)

/-! ## Calls -/

/-- What the spreadsheet can ask of the cache. -/
inductive Call (A D : Type) where
  | construct (cachedObj : CachedObjVar A D) (key : Bytes)
  | cacheName (obj : XlCacheObj)
  | isHandle (handle : Bytes)
  | isDictionary (handle : Bytes)
  | getVariant (key : Bytes)
  | inputDictionary (handleStr : Bytes)
  | retrieveXLDict (value : XlVariant)
  | oxlDisplay (handleStr : Bytes)

/-- What a call returns. -/
inductive Answer (A D : Type) where
  | cacheObj (obj : XlCacheObj)
  | handle (handle : Bytes)
  | flag (flag : Bool)
  | variant (cachedObj : CachedObjVar A D)
  | dictionary (xlDictionary : Option D)
  | array (xlArray : A)

/-- The program of a call. -/
def Call.prog (xlDictionaryToXlArray : D → A) : Call A D → Prog (CacheMap A D) Fault (Answer A D)
  | .construct cachedObj key => do return .cacheObj (← XlCacheObj.construct cachedObj key)
  | .cacheName obj => do return .handle (← XlCacheObj.cacheName obj)
  | .isHandle handle => do return .flag (← XlCacheObj.isHandle handle)
  | .isDictionary handle => do return .flag (← XlCacheObj.isDictionary handle)
  | .getVariant key => do return .variant (← XlCacheObj.getVariant key)
  | .inputDictionary handleStr => do return .dictionary (← XlApi.inputDictionary handleStr)
  | .retrieveXLDict value => do return .dictionary (some (← XlApi.retrieveXLDict value))
  | .oxlDisplay handleStr => do
    return .array (← XlApi.oxlDisplay xlDictionaryToXlArray handleStr)

end Oxl.XlApi
