import OdinAnalytics.Native.BusinessDateFormula
import OdinAnalytics.Native.DayCount

/-!
# Fixed cash flow generation

`CashflowGen::CreateFixedCashflows` (`derived_time/cashflow_gen/cashflow_gen.cpp`):
the schedule loops, the stub adjustments and the coupons. A vector of dates is a
list. Reading or erasing an element of an empty vector, reading past the end of
one and calling through a null day counter are undefined behaviour.
-/

namespace OA.DerivedTime

open Machine OA.Time

/-- The currency of a deal. -/
inductive Currency where
  | kUSD
  | kEUR
  | kGBP
  | kJPY
  | kCHF
  | kAUD
  | kCAD
  | kNZD
  | kCNY
  | kINR
deriving DecidableEq, Repr

/-- What a cash flow is. -/
inductive CashflowType where
  | kFixed
  | kFloating
  | kPrincipal
  | kEquity
deriving DecidableEq, Repr

/-- From which end of a deal the dates are rolled. -/
inductive DateDirection where
  | kForward
  | kBackward
deriving DecidableEq, Repr

/-- Where the irregular period of a deal is, and whether it is long. -/
inductive StubType where
  | kNone
  | kShortFirst
  | kShortLast
  | kLongFirst
  | kLongLast
deriving DecidableEq, Repr

/-- Whether a rate is fixed before its period or at the end of it. -/
inductive ResetDirection where
  | kAdvance
  | kInArears
deriving DecidableEq, Repr

/-- How often coupons are paid. -/
inductive Frequency where
  | kOnce
  | kAnnual
  | kSemiAnnual
  | kQuarterly
  | kMonthly
  | kWeekly
  | kDaily
deriving DecidableEq, Repr

/-- How a coupon is computed. -/
inductive CalcType where
  | kFlat
  | kCompounding
  | kBBGCalcType1
  | kUSTStreetConv
  | kBBGCalcType2
deriving DecidableEq, Repr

/-- One cash flow. -/
structure CashflowStruct (F : Type) where
  unadjStartDate : Date
  unadjEndDate : Date
  startDate : Date
  endDate : Date
  fixingDate : Date
  paymentDate : Date
  notional : F
  rate : F
  cashflowAmount : F
  npvCashflowAmount : F
  days : Int
  dayCountFraction : F
  cfCurr : Currency
  cfType : CashflowType
deriving DecidableEq

/-- `CashflowGen::Options`, with the defaults of its members. -/
structure Options where
  calcType : CalcType := .kFlat
  currency : Currency := .kUSD
  dateDir : DateDirection := .kBackward
  cashflowType : CashflowType := .kFixed
  resetDir : ResetDirection := .kAdvance
  frontStubType : StubType := .kNone
  frontStubDate : Date := {}
  backStubType : StubType := .kNone
  backStubDate : Date := {}
  startAdj : BusinessDateFormula := {}
  endAdj : BusinessDateFormula := {}
  payAdj : BusinessDateFormula := {}
  fixAdj : BusinessDateFormula := {}
deriving DecidableEq

/-! ## Schedule -/

/-- The two vectors of unadjusted dates. -/
structure Schedule where
  startDates : List Date
  endDates : List Date
deriving DecidableEq, Repr

/-- The variables of the schedule loops. `currDate` is `curr_start_date` going
    forward and `curr_end_date` going backward. -/
structure GenState where
  currDate : Date
  totalLength : Int
  dates : Schedule
deriving DecidableEq, Repr

/-- The body of the forward loop. Its inner test repeats the loop condition. -/
def forwardStep (startDate : Date) (resetFreq : Tenor) (s : GenState) : Exec GenState := do
  -- the period ends a tenor after its own start date, but the next one starts at a
  -- date computed from the anchor
  let endDate ← s.currDate.addTenor resetFreq
  let dates : Schedule := ⟨s.dates.startDates ++ [s.currDate], s.dates.endDates ++ [endDate]⟩
  let currDate ← startDate.addTenor ⟨s.totalLength, resetFreq.unit⟩
  return ⟨currDate, ← add32 s.totalLength resetFreq.count, dates⟩

/-- The schedule built from the start date, in order. -/
def forwardDates (startDate matDate : Date) (resetFreq : Tenor) : Comp Schedule := do
  let s ← Comp.whileLoop (fun s => .ok (decide (s.currDate < matDate)))
    (forwardStep startDate resetFreq) ⟨startDate, resetFreq.count, ⟨[], []⟩⟩
  return s.dates

/-- The body of the backward loop. Its inner test repeats the loop condition. -/
def backwardStep (matDate : Date) (resetFreq : Tenor) (s : GenState) : Exec GenState := do
  let startDate ← s.currDate.addTenor ⟨← neg32 resetFreq.count, resetFreq.unit⟩
  let dates : Schedule := ⟨s.dates.startDates ++ [startDate], s.dates.endDates ++ [s.currDate]⟩
  let currDate ← matDate.addTenor ⟨s.totalLength, resetFreq.unit⟩
  return ⟨currDate, ← sub32 s.totalLength resetFreq.count, dates⟩

/-- The schedule built from the maturity date, then put in chronological order. -/
def backwardDates (startDate matDate : Date) (resetFreq : Tenor) : Comp Schedule := do
  let totalLength ← neg32 resetFreq.count
  let s ← Comp.whileLoop (fun s => .ok (decide (s.currDate > startDate)))
    (backwardStep matDate resetFreq) ⟨matDate, totalLength, ⟨[], []⟩⟩
  return ⟨s.dates.startDates.reverse, s.dates.endDates.reverse⟩

/-- The schedule loops of `CreateFixedCashflows`. -/
def generateDates (startDate matDate : Date) (resetFreq : Tenor) : DateDirection → Comp Schedule
  | .kForward => forwardDates startDate matDate resetFreq
  | .kBackward => backwardDates startDate matDate resetFreq

/-! ## Stubs -/

section Vector

variable {α : Type}

/-- `v.erase(v.begin())`. -/
def eraseFront : List α → Exec (List α)
  | [] => .error (.undefined .emptyContainer)
  | _ :: xs => .ok xs

/-- `v.front() = a`. -/
def setFront (a : α) : List α → Exec (List α)
  | [] => .error (.undefined .emptyContainer)
  | _ :: xs => .ok (a :: xs)

/-- `v.pop_back()`. -/
def popBack : List α → Exec (List α)
  | [] => .error (.undefined .emptyContainer)
  | x :: xs => .ok (x :: xs).dropLast

/-- `v.back() = a`. -/
def setBack (a : α) : List α → Exec (List α)
  | [] => .error (.undefined .emptyContainer)
  | x :: xs => .ok ((x :: xs).dropLast ++ [a])

/-- `v.back()`. -/
def back (xs : List α) : Exec α :=
  match xs.getLast? with
  | none => .error (.undefined .emptyContainer)
  | some x => .ok x

end Vector

/-- The `kShortFirst` case of `StubDateAdjustments`. -/
def shortFirst (startDate : Date) (opts : Options) (s : Schedule) : Exec Schedule := do
  return ⟨← setFront (opts.frontStubDate.valueOr startDate) s.startDates, s.endDates⟩

/-- The `kShortLast` case of `StubDateAdjustments`. -/
def shortLast (matDate : Date) (opts : Options) (s : Schedule) : Exec Schedule := do
  return ⟨s.startDates, ← setBack (opts.backStubDate.valueOr matDate) s.endDates⟩

/-- `CashflowGen::StubDateAdjustments`. Each long case falls through into the short one. -/
def stubDateAdjustments (startDate matDate : Date) (opts : Options) (s : Schedule) :
    Exec Schedule :=
  match opts.dateDir with
  | .kBackward =>
    match opts.frontStubType with
    | .kLongFirst => do
      -- nothing asks how many elements there are
      let startDates ← eraseFront s.startDates
      let endDates ← eraseFront s.endDates
      shortFirst startDate opts ⟨startDates, endDates⟩
    | .kShortFirst => shortFirst startDate opts s
    | _ => .ok s
  | .kForward =>
    match opts.backStubType with
    | .kLongLast => do
      let endDates ← popBack s.endDates
      let startDates ← popBack s.startDates
      shortLast matDate opts ⟨startDates, endDates⟩
    | .kShortLast => shortLast matDate opts s
    | _ => .ok s

/-- The call of `StubDateAdjustments`, made only if there is a stub type. -/
def applyStubs (startDate matDate : Date) (opts : Options) (s : Schedule) : Exec Schedule :=
  if opts.frontStubType ≠ .kNone ∨ opts.backStubType ≠ .kNone then
    stubDateAdjustments startDate matDate opts s
  else .ok s

/-! ## Coupons -/

/-- `CashflowGen::DayCountDenominator`. -/
def dayCountDenominator (dayCountRule : DayCountRule) (leapYear : Bool) : Int :=
  match dayCountRule with
  | .kACT_ACT => if leapYear then 366 else 365
  | .kACT_365_FIXED => 365
  | .kACT_360 => 360
  | .k30_360_BOND_BASIS => 360
  | _ => 365

section Coupon

variable {F : Type} [IntCast F] [Add F] [Mul F] [Div F] [Neg F]

/-- The coupon of a fraction of a year, for a reset frequency of `count` such fractions. -/
def unitCoupon (cf : CashflowStruct F) (unitsInYear count : Int) : F :=
  cf.notional * cf.rate * (((1 : Int) : F) / (unitsInYear : F)) * (count : F)

/-- `CashflowGen::ComputeUSTStreetConvCoupon`. -/
def computeUSTStreetConvCoupon (cf : CashflowStruct F) (resetFreq : Tenor)
    (dayCountRule : DayCountRule) : Exec F :=
  match resetFreq.unit with
  | .kYears => .ok (cf.notional * cf.rate * (resetFreq.count : F))
  | .kMonths => .ok (unitCoupon cf 12 resetFreq.count)
  | .kWeeks => .ok (unitCoupon cf 52 resetFreq.count)
  | .kDays => do
    let leapYear ← cf.fixingDate.inLeapYear
    return unitCoupon cf (dayCountDenominator dayCountRule leapYear) resetFreq.count

/-- `CashflowGen::ComputeCoupon`, which sets the amount of a cash flow. -/
def computeCoupon (cf : CashflowStruct F) (resetFreq : Tenor) (opts : Options)
    (dayCountRule : DayCountRule) : Exec (CashflowStruct F) :=
  match opts.calcType with
  | .kFlat => .ok { cf with cashflowAmount := cf.notional * cf.rate * cf.dayCountFraction }
  | .kBBGCalcType1 | .kBBGCalcType2 | .kUSTStreetConv => do
    return { cf with cashflowAmount := ← computeUSTStreetConvCoupon cf resetFreq dayCountRule }
  | .kCompounding => .error (.throws (.invalidArgument "Invalid calculation type provided"))

/-- Calling through a day counter pointer. -/
def deref (dayCount : Option (DayCounterBase F)) : Exec (DayCounterBase F) :=
  match dayCount with
  | none => .error (.undefined .nullPointer)
  | some counter => .ok counter

/-- The fixing date: the start date, or the adjusted start or end date. -/
def fixingDate (opts : Options) (startDate endDate : Date) : Comp Date :=
  if opts.fixAdj.isSet = false then pure startDate
  else if opts.resetDir = .kAdvance then opts.fixAdj.adjust startDate
  else opts.fixAdj.adjust endDate

/-- The body of the coupon loop of `CreateFixedCashflows`. -/
def makeCoupon (resetFreq : Tenor) (notional rate : F) (dayCountRule : DayCountRule)
    (opts : Options) (dayCount : Option (DayCounterBase F)) (unadjStartDate unadjEndDate : Date) :
    Comp (CashflowStruct F) := do
  let startDate ← opts.startAdj.adjust unadjStartDate
  let endDate ← opts.endAdj.adjust unadjEndDate
  let paymentDate ← opts.payAdj.adjust endDate
  -- the first use of the pointer comes after the date adjustments
  let counter ← deref dayCount
  let days ← counter.dayCount startDate endDate
  let dayCountFraction ← counter.yearFraction startDate endDate
  let fixing ← fixingDate opts startDate endDate
  computeCoupon {
    unadjStartDate := unadjStartDate
    unadjEndDate := unadjEndDate
    startDate := startDate
    endDate := endDate
    fixingDate := fixing
    paymentDate := paymentDate
    notional := notional
    rate := rate
    cashflowAmount := ((0 : Int) : F)
    npvCashflowAmount := ((0 : Int) : F)
    days := days
    dayCountFraction := dayCountFraction
    cfCurr := opts.currency
    cfType := opts.cashflowType } resetFreq opts dayCountRule

/-- The coupon loop of `CreateFixedCashflows`, over the start dates. -/
def makeCoupons (coupon : Date → Date → Comp (CashflowStruct F)) :
    List Date → List Date → Comp (List (CashflowStruct F))
  | [], _ => pure []
  | _ :: _, [] => Comp.lift (.error (.undefined .indexOutOfRange))
  | startDate :: startDates, endDate :: endDates => do
    let cf ← coupon startDate endDate
    let cfs ← makeCoupons coupon startDates endDates
    return cf :: cfs

/-- The principal: the last coupon with the notional as its amount. -/
def principal (notional : F) (last : CashflowStruct F) : CashflowStruct F :=
  { last with cashflowAmount := notional, rate := ((1 : Int) : F), cfType := .kPrincipal }

/-- What `CreateFixedCashflows` throws when the dates are out of order. -/
def startAfterMaturity {α : Type} (startDate matDate : Date) : Exec α := do
  let start ← startDate.toText
  let mat ← matDate.toText
  .error (.throws (.invalidArgument ("cashflow_gen.cpp:211:CreateFixedCashflows - Start date " ++
    start ++ " is before maturity date " ++ mat)))

/-- `CashflowGen::CreateFixedCashflows`, with a tenor. -/
def createFixedCashflows (startDate matDate : Date) (resetFreq : Tenor) (notional rate : F)
    (dayCountRule : DayCountRule) (opts : Options) : Comp (List (CashflowStruct F)) := do
  if startDate > matDate then
    Comp.lift (startAfterMaturity startDate matDate)
  else
    let generated ← generateDates startDate matDate resetFreq opts.dateDir
    let dates ← applyStubs startDate matDate opts generated
    let dayCount := generateDayCounter dayCountRule
    let cashflows ← makeCoupons
      (makeCoupon resetFreq notional rate dayCountRule opts dayCount)
      dates.startDates dates.endDates
    -- the principal is added to the last cash flow
    let last ← back cashflows
    return cashflows ++ [principal notional last]

/-- `CashflowGen::MapResetFreqEnumToTenor`. There is no entry for `kOnce`. -/
def mapResetFreqEnumToTenor : Frequency → Exec Tenor
  | .kAnnual => .ok ⟨1, .kYears⟩
  | .kSemiAnnual => .ok ⟨6, .kMonths⟩
  | .kQuarterly => .ok ⟨3, .kMonths⟩
  | .kMonthly => .ok ⟨1, .kMonths⟩
  | .kWeekly => .ok ⟨1, .kWeeks⟩
  | .kDaily => .ok ⟨1, .kDays⟩
  | .kOnce => .error (.throws .outOfRange)

/-- `CashflowGen::CreateFixedCashflows`, with a frequency. -/
def createFixedCashflowsOfFrequency (startDate matDate : Date) (resetFreq : Frequency)
    (notional rate : F) (dayCountRule : DayCountRule) (opts : Options) :
    Comp (List (CashflowStruct F)) := do
  let tenorFreq ← mapResetFreqEnumToTenor resetFreq
  createFixedCashflows startDate matDate tenorFreq notional rate dayCountRule opts

end Coupon

end OA.DerivedTime
