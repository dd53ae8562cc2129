import OdinAnalytics.Native.XlArray

/-!
# Excel dictionaries

The `XlDictionary` class (`oxl/xl_api/xl_dictionary.cpp`), a `std::map` from strings to
variants, and its conversions from and to an array
(`oxl/xl_api/xl_converter_funcs.cpp`). An operation that can throw on the way returns
the dictionary that it leaves behind.
-/

namespace Oxl.XlApi

open Machine

/-- `std::isspace` in the locale of the program. Outside of ASCII a `char` is negative, and
    nothing is known of the outcome. -/
structure CType where
  isspace (c : UInt8) : Exec Bool
  isspace_ascii : ∀ c, c.toNat < 0x80 → isspace c = .ok (c = 32 || 9 ≤ c && c ≤ 13)

/-- A `std::map` from strings to variants. -/
@[ext] structure XlDictionary where
  dict : Std.ExtTreeMap Bytes XlVariant compare := ∅

/-- `std::get<std::string>` of a variant. -/
def XlVariant.getString : XlVariant → Exec Bytes
  | .string value => .ok value
  | _ => .error (.throws .badVariantAccess)

/-- `std::get<double>` of a variant. -/
def XlVariant.getDouble : XlVariant → Exec Double
  | .double value => .ok value
  | _ => .error (.throws .badVariantAccess)

namespace XlDictionary

variable (ctype : CType)

/-! ## Checks -/

/-- `XlDictionary::check_key`. -/
def checkKey (key : Bytes) : Exec Unit :=
  match key with
  | [] => throwInvalid "empty string not allowed as key"
  | front :: rest => do
    let spaced ←
      if ← ctype.isspace front then pure true else ctype.isspace (rest.getLastD front)
    if spaced then
      throwInvalid ("xl_dictionary.cpp:151:check_key: key \"" ++ text key ++
        "\" invalid: keys cannot contain leading or trailing spaces")

/-- `XlDictionary::check_sizes`. -/
def checkSizes (nKeys nValues : Nat) : Exec Unit :=
  if nKeys ≠ nValues then
    throwInvalid ("xl_dictionary.cpp:135:check_sizes: Number of keys " ++ toString nKeys ++
      " != number of values " ++ toString nValues)
  else .ok ()

/-! ## Changes -/

/-- `m_dict_[key] = value`. -/
def insert (xlDictionary : XlDictionary) (key : Bytes) (value : XlVariant) : XlDictionary :=
  ⟨xlDictionary.dict.insert key value⟩

/-- `XlDictionary::operator[]`. A key that is not there gets a zero `double`. -/
def index (xlDictionary : XlDictionary) (key : Bytes) : Exec Unit × XlDictionary :=
  match checkKey ctype key with
  | .error f => (.error f, xlDictionary)
  | .ok () => (.ok (), ⟨xlDictionary.dict.insertIfNew key (.double (.finite 0))⟩)

/-- An assignment to the reference that `XlDictionary::operator[]` returns. -/
def assign (xlDictionary : XlDictionary) (key : Bytes) (value : XlVariant) :
    Exec Unit × XlDictionary :=
  match xlDictionary.index ctype key with
  | (.error f, xlDictionary) => (.error f, xlDictionary)
  | (.ok (), xlDictionary) => (.ok (), xlDictionary.insert key value)

/-- `XlDictionary::operator[] const`. -/
def get (xlDictionary : XlDictionary) (key : Bytes) : Exec XlVariant :=
  match xlDictionary.dict[key]? with
  | some value => .ok value
  | none => .error (.throws .outOfRange)

/-- `XlDictionary::Contains`. -/
def contains (xlDictionary : XlDictionary) (key : Bytes) : Bool := xlDictionary.dict.contains key

/-- `XlDictionary::GetKeyValuePair`. -/
def getKeyValuePair (xlDictionary : XlDictionary) : List (Bytes × XlVariant) :=
  xlDictionary.dict.toList

/-- `XlDictionary::ApplyOverrides`, which does not check the keys. -/
def applyOverrides (xlDictionary overridesDict : XlDictionary) : XlDictionary :=
  overridesDict.getKeyValuePair.foldl (fun dict (key, value) => dict.insert key value)
    xlDictionary

/-! ## Constructors -/

/-- A step of the loops of the constructors. -/
def insertChecked (xlDictionary : XlDictionary) (pair : Bytes × XlVariant) :
    Exec XlDictionary := do
  checkKey ctype pair.1
  return xlDictionary.insert pair.1 pair.2

/-- `XlDictionary::XlDictionary(std::initializer_list<PairType>)`. -/
def ofPairs (pairs : List (Bytes × XlVariant)) : Exec XlDictionary :=
  pairs.foldlM (insertChecked ctype) {}

/-- `XlDictionary::XlDictionary(KeySpan, ValueSpan)`. -/
def ofKeys (keys : List Bytes) (values : List XlVariant) : Exec XlDictionary := do
  checkSizes keys.length values.length
  (keys.zip values).foldlM (insertChecked ctype) {}

/-- `XlDictionary::XlDictionary(ValueSpan, ValueSpan)`. -/
def ofVariants (keys values : List XlVariant) : Exec XlDictionary := do
  checkSizes keys.length values.length
  (keys.zip values).foldlM (fun dict (variant, value) => do
    let key ← variant.getString
    insertChecked ctype dict (key, value)) {}

end XlDictionary

/-! ## Conversions -/

/-- The dictionary after an assignment, as far as one is reached that does not throw. -/
def XlDictionary.assigned (ctype : CType) (xlDictionary : XlDictionary) (key : Bytes)
    (value : XlVariant) : Exec XlDictionary :=
  match xlDictionary.assign ctype key value with
  | (.error f, _) => .error f
  | (.ok (), xlDictionary) => .ok xlDictionary

/-- `XlArrayToXlDictionary`. -/
def xlArrayToXlDictionary (ctype : CType) (xlArray : XlArray) : Exec XlDictionary :=
  if xlArray.rows ≠ 2 ∧ xlArray.cols ≠ 2 then
    throwInvalid ("xl_converter_funcs.cpp:23:XlArrayToXlDictionary: " ++
      "Input was not correctly formatted please check to make sure is is 2xN or NX2")
  else if xlArray.cols = 2 then
    -- the first column is the key
    forRange xlArray.rows (fun i xlDictionary => do
      let key ← (← xlArray.get i 0).getString
      xlDictionary.assigned ctype key (← xlArray.get i 1)) {}
  else
    -- the first row is the key
    forRange xlArray.cols (fun j xlDictionary => do
      let key ← (← xlArray.get 0 j).getString
      xlDictionary.assigned ctype key (← xlArray.get 1 j)) {}

/-- `XlDictionaryToXlArray`. -/
def xlDictionaryToXlArray (xlDictionary : XlDictionary) : Exec XlArray :=
  let keyValuePairList := xlDictionary.getKeyValuePair
  let xlArray := XlArray.fill keyValuePairList.length 2 (.double (.finite 0))
  keyValuePairList.zipIdx.foldlM (fun xlArray (keyValuePair, i) => do
    let xlArray ← xlArray.set i 0 (.string keyValuePair.1)
    xlArray.set i 1 keyValuePair.2) xlArray

/-- `XLoperObj::LPXloperToDictionary`, of one range. -/
def lpXloperToDictionary (win : Win32) (ctype : CType) (xlOper : Xloper12) :
    Exec XlDictionary := do
  if xlOper.isMulti = false then
    throwInvalid ("xloper_converter.cpp:229:LPXloperToDictionary: " ++
      "Input was not xltypeMulti check the input")
  else
    let xlArray ← lpXloperToXlArray win xlOper
    xlArrayToXlDictionary ctype xlArray

/-- `XLoperObj::LPXloperToDictionary`, of a range of keys and one of values. -/
def lpXloperToDictionaryOfKeys (win : Win32) (ctype : CType) (xlOperKeys xlOperValues : Xloper12) :
    Exec XlDictionary := do
  let xlArrayKey ← lpXloperToXlArray win xlOperKeys
  let xlArrayValues ← lpXloperToXlArray win xlOperValues
  XlDictionary.ofVariants ctype (← xlArrayKey.toVector) (← xlArrayValues.toVector)

end Oxl.XlApi
