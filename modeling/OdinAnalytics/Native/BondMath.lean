import OdinAnalytics.Machine.Block
import OdinAnalytics.Machine.Boost
import OdinAnalytics.Machine.Loop

/-!
# Bond yields

The price, the yield and the duration of a bond with level coupons
(`solutions/BondMath/BondMath.cpp`). A `double` is an element of a type `F` with the
arithmetic operations that the source uses, and what it takes from `<cmath>` is a
parameter. A recursive call in the tail of a function is a loop.
-/

namespace OA.BondMath

open Machine

/-- What the source uses of `<cmath>`, and the conversion to `int`. -/
structure CMath (F : Type) where
  exp : F → F
  log : F → F
  abs : F → F
  toInt : F → Exec Int

variable {F : Type} [IntCast F] [Add F] [Sub F] [Mul F] [Div F] [Neg F] (cmath : CMath F)

/-! ## Rates -/

/-- `compoundedToContRate`: the continuous rate of a compounded one. -/
def compoundedToContRate (rate : F) (compounding : Int) : F :=
  (compounding : F) * cmath.log (((1 : Int) : F) + rate / (compounding : F))

/-- `contRateToCompounded`: the compounded rate of a continuous one. -/
def contRateToCompounded (rate : F) (compounding : Int) : F :=
  (compounding : F) * (cmath.exp (rate / (compounding : F)) - ((1 : Int) : F))

/-! ## Price and yield -/

/-- The loop of `price` and `firstOrderPrice`: a sum over the cash flows, each discounted. -/
def sumDiscounted (weight : F → F → F) (yield : F) (maturitySchedule cashflowSchedule : List F) :
    Exec F :=
  forRange cashflowSchedule.length (fun i result => do
    let cashflow ← Block.load cashflowSchedule i
    let maturity ← Block.load maturitySchedule i
    return result + weight cashflow maturity * cmath.exp (-yield * maturity)) ((0 : Int) : F)

/-- `firstOrderPrice`: the cash flows weighted by their maturities. -/
def firstOrderPrice : F → List F → List F → Exec F :=
  sumDiscounted cmath fun cashflow maturity => cashflow * maturity

/-- `price`: the discounted cash flows. -/
def price : F → List F → List F → Exec F :=
  sumDiscounted cmath fun cashflow _ => cashflow

/-- The new yield of a call of `computeYieldHelper`. -/
def newYieldOf (bondPrice : F) (maturitySchedule cashflowSchedule : List F) (yield : F) :
    Exec F := do
  let price ← price cmath yield maturitySchedule cashflowSchedule
  let firstOrder ← firstOrderPrice cmath yield maturitySchedule cashflowSchedule
  return yield + (price - bondPrice) / firstOrder

/-- The argument of a call of `computeYieldHelper`, and its new yield. -/
structure YieldState (F : Type) where
  yield : F
  newYield : F

section Yield

variable [LT F] [DecidableLT F]

/-- `computeYieldHelper`: its recursive call is the last thing it does. -/
def computeYieldHelper (yield bondPrice : F) (maturitySchedule cashflowSchedule : List F)
    (threshold : F) : Comp F := do
  let newYield ← newYieldOf cmath bondPrice maturitySchedule cashflowSchedule yield
  let s ← Comp.whileLoop
    -- the loop ends when two iterates are within the threshold
    (fun s : YieldState F => .ok (decide (cmath.abs (s.newYield - s.yield) > threshold)))
    (fun s => do
      return ⟨s.newYield, ← newYieldOf cmath bondPrice maturitySchedule cashflowSchedule
        s.newYield⟩)
    ⟨yield, newYield⟩
  return s.newYield

/-- The default threshold of `computeYieldHelper`. -/
def defaultThreshold : F := ((1 : Int) : F) / ((100000000000 : Int) : F)

/-- `computeYield`, which starts from zero. -/
def computeYield (maturitySchedule cashflowSchedule : List F) (bondPrice : F) : Comp F :=
  computeYieldHelper cmath ((0 : Int) : F) bondPrice maturitySchedule cashflowSchedule
    defaultThreshold

end Yield

/-! ## Schedules -/

/-- A payment frequency as a number, `CouponSchedule`. -/
def convertPaymentStringToEnum (boost : Boost) (paymentFreqInput : Bytes) : Exec Int :=
  let paymentFreq := boost.toUpperCopy paymentFreqInput
  if paymentFreq = bytes "PA" then .ok 1
  else if paymentFreq = bytes "SA" then .ok 2
  else if paymentFreq = bytes "Q" then .ok 4
  else if paymentFreq = bytes "M" then .ok 12
  -- a string that is thrown as it is passes the handler of `std::exception`
  else .error (.throws (.text "Not a proper input"))

/-- `createTimeMaturitySchedule`: the times of the payments, in years. -/
def createTimeMaturitySchedule (paymentFreq : Int) (years : F) : Exec (List F) := do
  let number ← cmath.toInt ((paymentFreq : F) * years)
  -- less than a year: one maturity
  let (numberOfMaturities, unitOfTime) :=
    if number < 1 then (1, years) else (number.toNat, ((1 : Int) : F) / (paymentFreq : F))
  let maturitySchedule := List.replicate numberOfMaturities ((0 : Int) : F)
  let maturitySchedule ← Block.store maturitySchedule 0 unitOfTime
  forRange (numberOfMaturities - 1) (fun i maturitySchedule => do
    let last ← Block.load maturitySchedule i
    Block.store maturitySchedule (i + 1) (unitOfTime + last)) maturitySchedule

/-- `createCashFlowGen`: the payments at these times. -/
def createCashFlowGen (years principle : F) (paymentFreq : Int) (couponRate : F) :
    Exec (List F) := do
  let cashFlow := couponRate / (paymentFreq : F) * principle
  let number ← cmath.toInt (years * (paymentFreq : F))
  let numberOfCashflows := if number < 1 then 1 else number.toNat
  let couponPaymentsSchedule := List.replicate numberOfCashflows ((0 : Int) : F)
  let couponPaymentsSchedule ← forRange numberOfCashflows (fun i couponPaymentsSchedule =>
    Block.store couponPaymentsSchedule i cashFlow) couponPaymentsSchedule
  -- the principal is paid with the last coupon
  let last ← Block.load couponPaymentsSchedule (numberOfCashflows - 1)
  Block.store couponPaymentsSchedule (numberOfCashflows - 1) (principle + last)

/-! ## Duration -/

/-- `computeDiscountedCashflow`: the present value of each payment. -/
def computeDiscountedCashflow (yield : F) (maturitySchedule cashflowSchedule : List F) :
    Exec (List F) :=
  forRange maturitySchedule.length (fun i presentValueCashflow => do
    let cashflow ← Block.load cashflowSchedule i
    let maturity ← Block.load maturitySchedule i
    Block.store presentValueCashflow i (cashflow * cmath.exp (-yield * maturity)))
    (List.replicate maturitySchedule.length ((0 : Int) : F))

/-- `computeDuration`: the times of the payments, weighted by present values. -/
def computeDuration (yield bondPrice : F) (maturitySchedule cashflowSchedule : List F) :
    Exec F := do
  let presentCashflow ←
    computeDiscountedCashflow cmath yield maturitySchedule cashflowSchedule
  forRange presentCashflow.length (fun i duration => do
    let maturity ← Block.load maturitySchedule i
    let cashflow ← Block.load presentCashflow i
    return duration + maturity * cashflow / bondPrice) ((0 : Int) : F)

/-- `computeFiniteDifference`: the change of the price for a change of the yield. -/
def computeFiniteDifference (bondPrice bondDuration difference : F) : F :=
  ((-1 : Int) : F) * bondPrice * bondDuration * difference

/-- `computeDV01`: the change of the price for one basis point. -/
def computeDV01 (bondPrice bondDuration : F) : F :=
  computeFiniteDifference bondPrice bondDuration (((1 : Int) : F) / ((10000 : Int) : F))

/-! ## Bonds -/

section Bonds

variable [LT F] [DecidableLT F]

/-- `getYield`, for a principal of 100. -/
def getYield (years couponRate bondPrice : F) (compounding : Int) : Comp F := do
  let maturitySchedule ← createTimeMaturitySchedule cmath compounding years
  let cashflowSchedule ← createCashFlowGen cmath years ((100 : Int) : F) compounding couponRate
  computeYield cmath maturitySchedule cashflowSchedule bondPrice

/-- `getDuration`, for a principal of 100. -/
def getDuration (years couponRate bondPrice : F) (compounding : Int) : Comp F := do
  let maturitySchedule ← createTimeMaturitySchedule cmath compounding years
  let cashflowSchedule ← createCashFlowGen cmath years ((100 : Int) : F) compounding couponRate
  let yield ← computeYield cmath maturitySchedule cashflowSchedule bondPrice
  computeDuration cmath yield bondPrice maturitySchedule cashflowSchedule

/-- The overload of `getYield` for the name of a frequency. -/
def getYieldOfName (boost : Boost) (years couponRate bondPrice : F) (compoundingStr : Bytes) :
    Comp F := do
  let paymentFreqInt ← convertPaymentStringToEnum boost compoundingStr
  getYield cmath years couponRate bondPrice paymentFreqInt

/-- The overload of `getDuration` for the name of a frequency, which drops the duration. -/
def getDurationOfName (boost : Boost) (years couponRate bondPrice : F) (compoundingStr : Bytes) :
    Comp F := do
  let paymentFreqInt ← convertPaymentStringToEnum boost compoundingStr
  let _ ← getDuration cmath years couponRate bondPrice paymentFreqInt
  return ((0 : Int) : F)

end Bonds

end OA.BondMath
