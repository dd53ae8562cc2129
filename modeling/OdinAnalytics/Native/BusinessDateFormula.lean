import OdinAnalytics.Native.Calendar

/-!
# Business date formulas

An adjustment of a date by a number of business days
(`derived_time/date_formula/business_date_formula.cpp`).
-/

namespace OA.DerivedTime

open Machine OA.Time

/-- A number of days, and the calendar they are counted on if there is one. -/
structure BusinessDateFormula where
  numOfBusinessDays : Int := 0
  calendar : Option Calendar := none
deriving DecidableEq

namespace BusinessDateFormula

/-- `BusinessDateFormula::operator bool`: whether the adjustment is nonzero. -/
def isSet (formula : BusinessDateFormula) : Bool := formula.numOfBusinessDays ≠ 0

/-- `BusinessDateFormula::Adjust`. Without a calendar, days are just added. -/
def adjust (formula : BusinessDateFormula) (baseDate : Date) : Comp Date :=
  match formula.calendar with
  | none => Comp.lift (baseDate.addDays formula.numOfBusinessDays)
  | some calendar => calendar.addBusinessDays formula.numOfBusinessDays baseDate

end BusinessDateFormula

end OA.DerivedTime
