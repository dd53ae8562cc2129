import OdinAnalytics.Machine.Loop
import OdinAnalytics.Native.Date

/-!
# Day counts

The day count conventions (`time/day_count/`): each counts the days between two
dates and turns them into a fraction of a year. Day counts are `int`s. A `double`
is an element of a type `F` with the arithmetic operations the source uses, and
nothing is assumed about them here.
-/

namespace OA.Time

open Machine

/-- Day count conventions. -/
inductive DayCountRule where
  | kACT_ACT
  | kACTB_ACTB
  | k30_360_BOND_BASIS
  | k30_E_360_ISDA
  | k30_360_E_EUROBOND
  | kACT_360
  | kACT_365_FIXED
deriving DecidableEq, Repr

/-- The interface of a day count convention. -/
structure DayCounterBase (F : Type) where
  dayCount : Date → Date → Exec Int
  yearFraction : Date → Date → Comp F

/-! ## Days -/

/-- The days that have passed, which every `ACT` convention counts. -/
def actualDays (date1 date2 : Date) : Exec Int := sub32 date2.julian date1.julian

/-- Days between two dates in a year of twelve months of thirty days. -/
def thirtyDayMonths (ymd1 ymd2 : YearMonthDay) : Exec Int := do
  let (y1, m1, d1) := ymd1
  let (y2, m2, d2) := ymd2
  add32 (← add32 (← mul32 360 (← sub32 y2 y1)) (← mul32 30 (← sub32 m2 m1))) (← sub32 d2 d1)

/-- `DayCountAct360::ComputeDayCountAct360`. -/
def computeDayCountAct360 (date1 date2 : Date) : Exec Int := actualDays date1 date2

/-- `DayCountAct365Fixed::ComputeDayCountAct365Fixed`. -/
def computeDayCountAct365Fixed (date1 date2 : Date) : Exec Int := actualDays date1 date2

/-- `DayCountActAct::ComputeDayCountActAct`. -/
def computeDayCountActAct (startDate endDate : Date) : Exec Int := actualDays startDate endDate

/-- The day of `DayCount30E360EuroBondBasis`: the 31st is the 30th. -/
def dayE360 (d : Int) : Int := if d = 31 then 30 else d

/-- `DayCount30E360EuroBondBasis::ComputeDayCount30E360`. -/
def computeDayCount30E360 (date1 date2 : Date) : Exec Int := do
  let (y1, m1, d1) ← date1.gregorian
  let (y2, m2, d2) ← date2.gregorian
  thirtyDayMonths (y1, m1, dayE360 d1) (y2, m2, dayE360 d2)

/-- The day of `DayCount30360EISDA`: the last day of February is the 30th too. -/
def dayEISDA (y m d : Int) : Exec Int :=
  if d = 31 then .ok 30
  else if m = 2 then do
    return if d = (← Date.daysInMonth y m) then 30 else d
  else .ok d

/-- `DayCount30360EISDA::ComputeDayCount30360EISDA`. -/
def computeDayCount30360EISDA (date1 date2 : Date) : Exec Int := do
  let (y1, m1, d1) ← date1.gregorian
  let (y2, m2, d2) ← date2.gregorian
  thirtyDayMonths (y1, m1, ← dayEISDA y1 m1 d1) (y2, m2, ← dayEISDA y2 m2 d2)

/-- `DayCount30360BondBasis::ComputeDayCount30360`, for dates in order. -/
def dayCount30360Ordered (date1 date2 : Date) : Exec Int := do
  let (y1, m1, d1) ← date1.gregorian
  let (y2, m2, d2) ← date2.gregorian
  let d1 := if d1 = 31 then 30 else d1
  let d2 := if d2 = 31 ∧ d1 > 29 then 30 else d2
  thirtyDayMonths (y1, m1, d1) (y2, m2, d2)

/-- `DayCount30360BondBasis::ComputeDayCount30360`: out of order, the call recurs
    once with the dates exchanged. -/
def computeDayCount30360 (date1 date2 : Date) : Exec Int := do
  if date2 < date1 then neg32 (← dayCount30360Ordered date2 date1)
  else dayCount30360Ordered date1 date2

/-! ## Year fractions -/

section YearFraction

variable {F : Type} [IntCast F] [Add F] [Div F] [Neg F]

/-- A count of days over a fixed number of days in the year. -/
def fractionOf (count : Date → Date → Exec Int) (daysInYear : Int) (date1 date2 : Date) :
    Comp F := do
  return ((← count date1 date2 : Int) : F) / ((daysInYear : Int) : F)

/-- `DayCountAct360::ComputeDayCountFractionAct360`. -/
def computeDayCountFractionAct360 : Date → Date → Comp F := fractionOf computeDayCountAct360 360

/-- `DayCountAct365Fixed::ComputeDayCountFraction`. -/
def computeDayCountFractionAct365Fixed : Date → Date → Comp F :=
  fractionOf computeDayCountAct365Fixed 365

/-- `DayCount30E360EuroBondBasis::ComputeDayCountFraction30E360`. -/
def computeDayCountFraction30E360 : Date → Date → Comp F := fractionOf computeDayCount30E360 360

/-- `DayCount30360EISDA::ComputeDayCountFraction30360EISDA`. -/
def computeDayCountFraction30360EISDA : Date → Date → Comp F :=
  fractionOf computeDayCount30360EISDA 360

/-- `DayCount30360BondBasis::ComputeDayCountFraction30360`. -/
def computeDayCountFraction30360 : Date → Date → Comp F := fractionOf computeDayCount30360 360

/-- The days of a year, as `ComputeDayCountFractionActAct` divides by them. -/
def daysInYear (year : Int) : Int := if Date.isLeap year then 366 else 365

/-- The variables of the loop of `ComputeDayCountFractionActAct`. -/
structure ActActState (F : Type) where
  currYear : Int
  priorDate : Date
  yearFraction : F

/-- The loop body of `ComputeDayCountFractionActAct`: add the part of one year. -/
def actActStep (endDate : Date) (s : ActActState F) : Exec (ActActState F) := do
  let currDate ← Date.ofYmd s.currYear 12 31
  if currDate < endDate then
    let days ← computeDayCountActAct s.priorDate currDate
    let yearFraction := s.yearFraction + (days : F) / ((daysInYear s.currYear : Int) : F)
    return ⟨← add32 s.currYear 1, currDate, yearFraction⟩
  else
    return ⟨← add32 s.currYear 1, s.priorDate, s.yearFraction⟩

/-- `DayCountActAct::ComputeDayCountFractionActAct`, for dates in order. -/
def fractionActActOrdered (startDate endDate : Date) : Comp F := do
  let startYear ← startDate.year
  let endYear ← endDate.year
  if endYear = startYear then
    let days ← computeDayCountActAct startDate endDate
    return ((0 : Int) : F) + (days : F) / ((daysInYear startYear : Int) : F)
  else
    -- the start date itself is counted in the first year
    let priorDate : Date := ⟨← sub32 startDate.julian 1⟩
    let s ← Comp.whileLoop (fun s => .ok (decide (s.currYear < endYear))) (actActStep endDate)
      ⟨startYear, priorDate, ((0 : Int) : F)⟩
    let newYear ← Date.ofYmd endYear 1 1
    let days ← computeDayCountActAct newYear endDate
    return s.yearFraction + (days : F) / ((daysInYear endYear : Int) : F)

/-- `DayCountActAct::ComputeDayCountFractionActAct`: out of order, the call recurs
    once with the dates exchanged. -/
def computeDayCountFractionActAct (startDate endDate : Date) : Comp F := do
  if endDate < startDate then return -(← fractionActActOrdered endDate startDate)
  else fractionActActOrdered startDate endDate

/-- `DayCounterFactory::GenerateDayCounter`. No convention stands for a null pointer. -/
def generateDayCounter : DayCountRule → Option (DayCounterBase F)
  | .kACT_360 => some ⟨computeDayCountAct360, computeDayCountFractionAct360⟩
  | .kACT_365_FIXED => some ⟨computeDayCountAct365Fixed, computeDayCountFractionAct365Fixed⟩
  | .kACT_ACT => some ⟨computeDayCountActAct, computeDayCountFractionActAct⟩
  | .k30_360_E_EUROBOND => some ⟨computeDayCount30E360, computeDayCountFraction30E360⟩
  | .k30_E_360_ISDA => some ⟨computeDayCount30360EISDA, computeDayCountFraction30360EISDA⟩
  | .k30_360_BOND_BASIS => some ⟨computeDayCount30360, computeDayCountFraction30360⟩
  | .kACTB_ACTB => none

end YearFraction

end OA.Time
