import OdinAnalytics.Machine.Exec

/-! # Tenors

A signed count of a calendar unit (`time/tenor.cpp`, `oa/time/enums.h`), and the
texts that are accepted for one (`helpers/utils.h`). -/

namespace OA.Time

open Machine

/-- Tenor units. The source gives each the character code of its letter. -/
inductive Tenors where
  | kDays
  | kWeeks
  | kMonths
  | kYears
deriving DecidableEq, Repr

/-- A count of time units, e.g. six months. -/
structure Tenor where
  count : Int
  unit : Tenors
deriving DecidableEq, Repr

/-- `Tenor::operator-()`: flip the sign. -/
def Tenor.neg (tenor : Tenor) : Exec Tenor := do
  return ⟨← neg32 tenor.count, tenor.unit⟩

/-! ## Text -/

/-- A match of `[0-9]*\d{1}[YMDWymdw]`. -/
def matchesCountUnit : List Char → Bool
  | [] => false
  | [digit, unit] => digit.isDigit && "YMDWymdw".toList.contains unit
  | digit :: cs => digit.isDigit && matchesCountUnit cs

/-- `oa::utils::CheckTenorStr`: a match of `[-]?[0-9]*\d{1}[YMDWymdw]`. -/
def checkTenorStr (inputString : String) : Bool :=
  match inputString.toList with
  | '-' :: cs => matchesCountUnit cs
  | cs => matchesCountUnit cs

/-- The value of decimal digits, the most significant one first. -/
def digitsValue (digits : List Char) : Int :=
  digits.foldl (fun value c => 10 * value + (c.toNat - '0'.toNat : Nat)) 0

/-- The sign of a number, and what follows it. -/
def splitSign : List Char → Int × List Char
  | '-' :: rest => (-1, rest)
  | '+' :: rest => (1, rest)
  | rest => (1, rest)

/-- `std::stoi` of a text without leading white space: a sign and as many digits as follow. -/
def stoi (cs : List Char) : Exec Int :=
  let (sign, rest) := splitSign cs
  let digits := rest.takeWhile Char.isDigit
  let value := sign * digitsValue digits
  if digits = [] then .error (.throws (.invalidArgument "stoi"))
  else if InInt32 value then .ok value
  else .error (.throws .outOfRange)

/-- `oa::utils::ValueToEnum` for the tenor units, whose values are character codes. -/
def valueToTenors : Char → Exec Tenors
  | 'D' => .ok .kDays
  | 'W' => .ok .kWeeks
  | 'M' => .ok .kMonths
  | 'Y' => .ok .kYears
  | _ => .error (.throws (.text "invalid enum please check the given enum "))

/-- `Tenor::Tenor(const std::string&)`. -/
def Tenor.ofString (inputString : String) : Exec Tenor :=
  if checkTenorStr inputString then
    match inputString.toList.getLast? with
    | none => .error (.undefined .emptyContainer)
    | some letter => do
      -- everything before the unit's letter
      let count ← stoi inputString.toList.dropLast
      let unit ← valueToTenors letter.toUpper
      return ⟨count, unit⟩
  else
    .error (.throws (.text ("Invalid tenor type please check your input of " ++ inputString)))

/-- The value of a unit, the character code of its letter. -/
def Tenors.value : Tenors → Nat
  | .kDays => 'D'.toNat
  | .kWeeks => 'W'.toNat
  | .kMonths => 'M'.toNat
  | .kYears => 'Y'.toNat

/-- `operator<<(std::ostream&, const Tenor&)`: the count and the letter in lower case. -/
def Tenor.print (tenor : Tenor) : String :=
  -- ASCII offset of 'a' - 'A' is 32
  let unit := Char.ofNat (tenor.unit.value + 32)
  toString tenor.count ++ String.singleton unit

/-! ## Arithmetic of the count -/

/-- `Tenor::FlipSign`. -/
def Tenor.flipSign (tenor : Tenor) : Exec Tenor := tenor.neg

/-- `Tenor::operator+(int)`. -/
def Tenor.addCount (tenor : Tenor) (shift : Int) : Exec Tenor := do
  return ⟨← add32 tenor.count shift, tenor.unit⟩

/-- `Tenor::operator-(int)`. -/
def Tenor.subCount (tenor : Tenor) (shift : Int) : Exec Tenor := do
  return ⟨← sub32 tenor.count shift, tenor.unit⟩

/-! ## Keys of containers -/

/-- The ranking of the units in `Tenor::GroupLess`. -/
def Tenors.rank : Tenors → Nat
  | .kDays => 0
  | .kWeeks => 1
  | .kMonths => 2
  | .kYears => 3

/-- `Tenor::GroupLess`: by the count within a unit. -/
def Tenor.groupLess (a b : Tenor) : Bool :=
  if a.unit.rank = b.unit.rank then decide (a.count < b.count)
  else decide (a.unit.rank < b.unit.rank)

/-- What `Tenor::hash` computes with, by the size of a `size_t`. -/
structure SizeType where
  /-- The number of its values. -/
  modulus : Nat
  prime : Nat
  offset : Nat

/-- A `size_t` of 32 bits, with the constants of FNV-1. -/
def SizeType.bits32 : SizeType := ⟨4294967296, 0x1000193, 0x811c9dc5⟩

/-- A `size_t` of 64 bits, with the constants of FNV-1. -/
def SizeType.bits64 : SizeType := ⟨18446744073709551616, 0x100000001b3, 0xcbf29ce484222325⟩

/-- Multiply, then exclusive or with the low byte. -/
def hashLowByte (size : SizeType) (result : Nat) (num : Int) : Nat :=
  (result * size.prime % size.modulus) ^^^ (num % 256).toNat

/-- The loop over the bytes of the count, the lowest one first. -/
def hashCount (size : SizeType) : Nat → Nat → Int → Nat
  | 0, result, _ => result
  | bytes + 1, result, num => hashCount size bytes (hashLowByte size result num) (num / 256)

/-- `Tenor::hash`. -/
def Tenor.hash (size : SizeType) (tenor : Tenor) : Nat :=
  -- tenor unit fits in one byte so only hash low byte
  hashLowByte size (hashCount size 4 size.offset tenor.count) tenor.unit.value

end OA.Time
