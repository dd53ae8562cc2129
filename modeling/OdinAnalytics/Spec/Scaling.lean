import OdinAnalytics.Machine.Action
import OdinAnalytics.Spec.CouponCorrect
import Mathlib.Tactic.Ring
import Mathlib.Algebra.Field.Defs

/-!
# The cash flows of a unit deal

The notional and the rate of a deal change nothing but numbers. The flows of a deal are
those of the same deal with a notional and a rate of one, each coupon multiplied by both
and the principal by the notional. The dates, the day counts, the exceptions and whether
the generation ends at all are the same, with exact arithmetic.

## Key results

- `computeCoupon_scale`: a coupon is linear in the notional and the rate
- `createFixedCashflows_eq_scale`: so are the flows of a deal
-/

namespace OA.DerivedTime

open Machine OA.Time

/-! ## Flows that are changed -/

/-- A loop over coupons that are changed is the loop, with its coupons changed. -/
theorem makeCoupons_map {F : Type} (g : CashflowStruct F → CashflowStruct F)
    (coupon : Date → Date → Comp (CashflowStruct F)) (startDates endDates : List Date) :
    makeCoupons (fun us ue => g <$> coupon us ue) startDates endDates =
      List.map g <$> makeCoupons coupon startDates endDates := by
  induction startDates generalizing endDates with
  | nil => rfl
  | cons us startDates ih =>
    cases endDates with
    | nil => rfl
    | cons ue endDates =>
      simp only [makeCoupons, ih, map_bind, bind_map_left, map_pure, List.map_cons]

/-- The last of the coupons that are changed is the last one, changed. -/
theorem back_map {α β : Type} (g : α → β) (xs : List α) : back (xs.map g) = g <$> back xs := by
  unfold back
  rw [List.getLast?_map]
  cases xs.getLast? with
  | none => rfl
  | some x => rfl

variable {F : Type} [Field F] {startDate matDate : Date} {resetFreq : Tenor}
  {rule : DayCountRule} {opts : Options}

namespace CashflowStruct

/-- A cash flow with other terms, before its amount is computed. -/
def withTerms (notional rate : F) (cf : CashflowStruct F) : CashflowStruct F :=
  { cf with notional := notional, rate := rate }

/-- The coupon of a unit deal, for a notional and a rate. -/
def scale (notional rate : F) (cf : CashflowStruct F) : CashflowStruct F :=
  { cf with
    notional := notional
    rate := rate
    cashflowAmount := notional * rate * cf.cashflowAmount }

/-- The principal of a unit deal, for a notional. Its rate is always one. -/
def scalePrincipal (notional : F) (cf : CashflowStruct F) : CashflowStruct F :=
  { cf with notional := notional, cashflowAmount := notional * cf.cashflowAmount }

end CashflowStruct

open CashflowStruct

/-- The flows of a unit deal, for a notional and a rate: the last one is the principal. -/
def scaleFlows (notional rate : F) (cfs : List (CashflowStruct F)) : List (CashflowStruct F) :=
  (couponFlows cfs).map (scale notional rate) ++ cfs.getLast?.toList.map (scalePrincipal notional)

/-! ## One coupon -/

section Coupon

variable {cf : CashflowStruct F}

/-- A coupon over a count of days scales with notional and rate. -/
theorem unitCoupon_scale (notional rate : F) (hnotional : cf.notional = 1) (hrate : cf.rate = 1)
    (unitsInYear count : Int) :
    unitCoupon (cf.withTerms notional rate) unitsInYear count =
      notional * rate * unitCoupon cf unitsInYear count := by
  unfold unitCoupon withTerms
  rw [hnotional, hrate]
  ring

/-- A coupon of the street convention scales with notional and rate. -/
theorem computeUSTStreetConvCoupon_scale (notional rate : F) (hnotional : cf.notional = 1)
    (hrate : cf.rate = 1) :
    computeUSTStreetConvCoupon (cf.withTerms notional rate) resetFreq rule =
      (notional * rate * ·) <$> computeUSTStreetConvCoupon cf resetFreq rule := by
  unfold computeUSTStreetConvCoupon
  cases resetFreq.unit with
  | kYears =>
    have hamount : notional * rate * (resetFreq.count : F) =
        notional * rate * (cf.notional * cf.rate * (resetFreq.count : F)) := by
      rw [hnotional, hrate]
      ring
    exact congrArg Except.ok hamount
  | kMonths => exact congrArg Except.ok (unitCoupon_scale notional rate hnotional hrate 12 _)
  | kWeeks => exact congrArg Except.ok (unitCoupon_scale notional rate hnotional hrate 52 _)
  | kDays =>
    -- the fixing date, which decides the days of the year, has nothing to do with the terms
    simp only [map_bind, map_pure, unitCoupon_scale notional rate hnotional hrate]
    rfl

/-- The amount of a coupon is linear in the notional and in the rate. -/
theorem computeCoupon_scale (notional rate : F) (hnotional : cf.notional = 1)
    (hrate : cf.rate = 1) :
    computeCoupon (cf.withTerms notional rate) resetFreq opts rule =
      scale notional rate <$> computeCoupon cf resetFreq opts rule := by
  -- the street convention multiplies the same notional and rate
  have hstreet : (do
        let amount ← computeUSTStreetConvCoupon (cf.withTerms notional rate) resetFreq rule
        return { cf.withTerms notional rate with cashflowAmount := amount } : Exec _) =
      scale notional rate <$> do
        let amount ← computeUSTStreetConvCoupon cf resetFreq rule
        return { cf with cashflowAmount := amount } := by
    simp only [computeUSTStreetConvCoupon_scale notional rate hnotional hrate, map_bind,
      bind_map_left, map_pure]
    rfl
  unfold computeCoupon
  cases opts.calcType with
  | kFlat =>
    -- so does the flat one
    have hamount : notional * rate * cf.dayCountFraction =
        notional * rate * (cf.notional * cf.rate * cf.dayCountFraction) := by
      rw [hnotional, hrate]
      ring
    exact congrArg (fun amount => Except.ok
      { cf.withTerms notional rate with cashflowAmount := amount }) hamount
  | kCompounding => rfl
  | kBBGCalcType1 => exact hstreet
  | kUSTStreetConv => exact hstreet
  | kBBGCalcType2 => exact hstreet

end Coupon

/-! ## All of them -/

/-- The dates and the day counts of a coupon are found without its terms. -/
theorem makeCoupon_scale (notional rate : F) (dayCount : Option (DayCounterBase F))
    (unadjStartDate unadjEndDate : Date) :
    makeCoupon resetFreq notional rate rule opts dayCount unadjStartDate unadjEndDate =
      scale notional rate <$>
        makeCoupon resetFreq 1 1 rule opts dayCount unadjStartDate unadjEndDate := by
  unfold makeCoupon
  simp only [map_bind, Comp.liftM_eq, ← Comp.lift_map]
  -- the same parts in the same order, down to the amount
  iterate 7 (refine bind_congr fun _ => ?_)
  apply congrArg Comp.lift
  symm
  exact (computeCoupon_scale notional rate rfl rfl).symm

/-- The principal goes with the last coupon. -/
theorem scaleFlows_principal (notional rate : F) (coupons : List (CashflowStruct F))
    (last : CashflowStruct F) :
    scaleFlows notional rate (coupons ++ [principal 1 last]) =
      coupons.map (scale notional rate) ++ [principal notional (scale notional rate last)] := by
  simp [scaleFlows, couponFlows, principal, scale, scalePrincipal]

/-- The flows of a deal are those of the unit deal, for its notional and its rate. -/
theorem createFixedCashflows_eq_scale (notional rate : F) :
    createFixedCashflows startDate matDate resetFreq notional rate rule opts =
      scaleFlows notional rate <$>
        createFixedCashflows startDate matDate resetFreq 1 1 rule opts := by
  unfold createFixedCashflows
  split
  · -- the texts of the dates are all that the exception says
    unfold startAfterMaturity
    simp only [← Comp.lift_map, map_bind]
    rfl
  · -- every coupon scales, and the principal with the last one
    have hcoupon : makeCoupon resetFreq notional rate rule opts (generateDayCounter rule) =
        fun us ue => scale notional rate <$>
          makeCoupon resetFreq 1 1 rule opts (generateDayCounter rule) us ue := by
      funext us ue
      exact makeCoupon_scale notional rate _ us ue
    simp only [hcoupon, makeCoupons_map, map_bind, bind_map_left, Comp.liftM_eq, back_map,
      Comp.lift_map, map_pure, scaleFlows_principal]

end OA.DerivedTime
