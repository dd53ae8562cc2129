import OdinAnalytics.Machine.Exec
import Mathlib.Data.Rat.Cast.Defs

/-!
# Doubles and their conversion to int

A `double` is a rational or one of the values that are no number. Every `int` is a
`double`, so the conversions between the two do not round.
-/

namespace Machine

/-- A value of type `double`. The two zeros are one. -/
inductive Double where
  | finite (value : ℚ)
  | infinite (negative : Bool)
  | nan
deriving DecidableEq

namespace Double

/-- `static_cast<int>`: the fraction is dropped. A value without a 32-bit result is undefined. -/
def toInt : Double → Exec Int
  | .finite value =>
    let n := value.num.tdiv value.den
    if InInt32 n then .ok n else .error (.undefined .badConversion)
  | .infinite _ => .error (.undefined .badConversion)
  | .nan => .error (.undefined .badConversion)

/-- `static_cast<double>` of an `int`. -/
def ofInt (n : Int) : Double := .finite n

instance : IntCast Double := ⟨ofInt⟩

/-- An operation on numbers without rounding. -/
def exactly (op : ℚ → ℚ → ℚ) : Double → Double → Double
  | .finite x, .finite y => .finite (op x y)
  | _, _ => .nan

/-- An `int` that is converted to a `double` is converted back. -/
theorem toInt_ofInt {n : Int} (h : InInt32 n) : (ofInt n).toInt = .ok n := by
  simp [ofInt, toInt, h]

end Double

end Machine
