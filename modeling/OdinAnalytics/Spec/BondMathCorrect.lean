import OdinAnalytics.Lib.Discount
import OdinAnalytics.Native.BondMath
import Mathlib.Analysis.SpecialFunctions.Log.Basic

/-!
# The yield of a bond

With exact arithmetic the recursion of `computeYieldHelper` is Newton's method on the value
of the payments of a bond. It ends, for every bond and every price, and the yield that it
finds is never above the one that gives the price. It falls short of that by the square of
the threshold at most, times the years of the bond.

## Key results

- `newYieldOf_eq`: a call is a step of Newton's method
- `computeYieldHelper_ends`: the recursion ends
- `principal_paid_at_years_iff`: when the principal is paid
- `getYield_correct`: how good the yield is
- `getDuration_correct`: what the duration says about the price
-/

namespace OA.BondMath

open Machine Newton Discount

/-- Exact arithmetic. -/
noncomputable def CMath.real : CMath ℝ where
  exp := Real.exp
  log := Real.log
  abs x := |x|
  toInt x :=
    let n := if 0 ≤ x then ⌊x⌋ else ⌈x⌉
    if InInt32 n then .ok n else .error (.undefined .badConversion)

/-! ## Rates -/

section Rates

variable {rate : ℝ} {compounding : Int}

/-- A rate that grows an amount comes back from the continuous one. -/
theorem contRateToCompounded_compoundedToContRate (hcompounding : compounding ≠ 0)
    (hrate : 0 < 1 + rate / compounding) :
    contRateToCompounded .real (compoundedToContRate .real rate compounding) compounding =
      rate := by
  have hcast : (compounding : ℝ) ≠ 0 := Int.cast_ne_zero.mpr hcompounding
  unfold contRateToCompounded compoundedToContRate
  simp only [CMath.real, Int.cast_one]
  rw [mul_div_cancel_left₀ _ hcast, Real.exp_log hrate, add_sub_cancel_left,
    mul_div_cancel₀ _ hcast]

/-- A continuous rate comes back from the compounded one. -/
theorem compoundedToContRate_contRateToCompounded (hcompounding : compounding ≠ 0) :
    compoundedToContRate .real (contRateToCompounded .real rate compounding) compounding =
      rate := by
  have hcast : (compounding : ℝ) ≠ 0 := Int.cast_ne_zero.mpr hcompounding
  unfold contRateToCompounded compoundedToContRate
  simp only [CMath.real, Int.cast_one]
  rw [mul_div_cancel_left₀ _ hcast, add_sub_cancel, Real.log_exp, mul_div_cancel₀ _ hcast]

end Rates

/-! ## Sums over schedules -/

section Sums

variable {maturitySchedule cashflowSchedule : List ℝ} {yield bondPrice : ℝ}

/-- The payments of a schedule. -/
def payments (maturitySchedule cashflowSchedule : List ℝ) : List Payment :=
  List.zipWith Payment.mk cashflowSchedule maturitySchedule

/-- A payment is a cash flow and a maturity at one index. -/
theorem getElem?_payments {i : Nat} {p : Payment}
    (h : (payments maturitySchedule cashflowSchedule)[i]? = some p) :
    cashflowSchedule[i]? = some p.amount ∧ maturitySchedule[i]? = some p.time := by
  obtain ⟨amount, time, hamount, htime, rfl⟩ := List.getElem?_zipWith_eq_some.mp h
  exact ⟨hamount, htime⟩

/-- A loop that adds up the elements of a list. -/
theorem forRange_sum {terms : List ℝ} {body : Nat → ℝ → Exec ℝ}
    (h : ∀ i term, terms[i]? = some term → ∀ result, body i result = .ok (result + term)) :
    forRange terms.length body 0 = .ok terms.sum := by
  -- after as many iterations, the sum of as many terms
  have hpost : Post (forRange terms.length body 0) (fun _ => False)
      fun result => result = (terms.take terms.length).sum := by
    refine forRange_post (fun i result => result = (terms.take i).sum) ?_ rfl
    intro i hi result hresult
    have hterm : terms[i]? = some terms[i] := List.getElem?_eq_getElem hi
    rw [h i _ hterm, post_ok, List.take_add_one, hterm, List.sum_append, hresult]
    simp
  rw [hpost.eq_ok, List.take_length]

/-- The loop sums over the payments, each weighted and discounted. -/
theorem sumDiscounted_eq (weight : ℝ → ℝ → ℝ)
    (hlen : cashflowSchedule.length ≤ maturitySchedule.length) :
    sumDiscounted .real weight yield maturitySchedule cashflowSchedule =
      .ok ((payments maturitySchedule cashflowSchedule).map fun p =>
        weight p.amount p.time * Real.exp (-yield * p.time)).sum := by
  have hlength : ((payments maturitySchedule cashflowSchedule).map fun p =>
      weight p.amount p.time * Real.exp (-yield * p.time)).length = cashflowSchedule.length := by
    simp [payments, hlen]
  rw [← forRange_sum, hlength, ← Int.cast_zero]
  · rfl
  · intro i term hterm result
    -- one turn adds one payment, read from both schedules
    rw [List.getElem?_map] at hterm
    obtain ⟨p, hp, rfl⟩ := Option.map_eq_some_iff.mp hterm
    obtain ⟨hcashflow, hmaturity⟩ := getElem?_payments hp
    rw [Block.load_eq hcashflow, ok_bind, Block.load_eq hmaturity, ok_bind]
    rfl

/-- The price is the value of the payments. -/
theorem price_eq (hlen : cashflowSchedule.length ≤ maturitySchedule.length) :
    price .real yield maturitySchedule cashflowSchedule =
      .ok (value (payments maturitySchedule cashflowSchedule) yield) := sumDiscounted_eq _ hlen

/-- The first-order price is the fall of the value. -/
theorem firstOrderPrice_eq (hlen : cashflowSchedule.length ≤ maturitySchedule.length) :
    firstOrderPrice .real yield maturitySchedule cashflowSchedule =
      .ok (fall (payments maturitySchedule cashflowSchedule) yield) := sumDiscounted_eq _ hlen

/-- The present values of the payments, one by one. -/
theorem computeDiscountedCashflow_eq
    (hlen : cashflowSchedule.length = maturitySchedule.length) :
    computeDiscountedCashflow .real yield maturitySchedule cashflowSchedule =
      .ok ((payments maturitySchedule cashflowSchedule).map fun p =>
        p.amount * Real.exp (-yield * p.time)) := by
  have hlength : ((payments maturitySchedule cashflowSchedule).map fun p =>
      p.amount * Real.exp (-yield * p.time)).length = maturitySchedule.length := by
    simp [payments, hlen]
  unfold computeDiscountedCashflow
  rw [← hlength]
  -- the loop fills the block with the terms, one by one
  apply forRange_copy
  · rw [List.length_replicate]
  · intro i term hterm block
    rw [List.getElem?_map] at hterm
    obtain ⟨p, hp, rfl⟩ := Option.map_eq_some_iff.mp hterm
    obtain ⟨hcashflow, hmaturity⟩ := getElem?_payments hp
    rw [Block.load_eq hcashflow, ok_bind, Block.load_eq hmaturity, ok_bind]
    rfl

/-- The duration is how fast the price falls, as a part of the price. -/
theorem computeDuration_eq (hlen : cashflowSchedule.length = maturitySchedule.length) :
    computeDuration .real yield bondPrice maturitySchedule cashflowSchedule =
      .ok (fall (payments maturitySchedule cashflowSchedule) yield / bondPrice) := by
  -- the duration as a sum over the payments, in the order the loop adds them
  have hsum : fall (payments maturitySchedule cashflowSchedule) yield / bondPrice =
      ((payments maturitySchedule cashflowSchedule).map fun p =>
        p.time * (p.amount * Real.exp (-yield * p.time)) / bondPrice).sum := by
    rw [fall, div_eq_mul_inv, ← List.sum_map_mul_right]
    congr 1
    apply List.map_congr_left
    intro p _
    ring
  have hlength : ((payments maturitySchedule cashflowSchedule).map fun p =>
      p.amount * Real.exp (-yield * p.time)).length =
      ((payments maturitySchedule cashflowSchedule).map fun p =>
        p.time * (p.amount * Real.exp (-yield * p.time)) / bondPrice).length := by
    rw [List.length_map, List.length_map]
  unfold computeDuration
  rw [computeDiscountedCashflow_eq hlen, ok_bind, hlength, hsum, Int.cast_zero]
  -- one turn of the loop adds one payment's term
  apply forRange_sum
  intro i term hterm result
  rw [List.getElem?_map] at hterm
  obtain ⟨p, hp, rfl⟩ := Option.map_eq_some_iff.mp hterm
  have hpresent : ((payments maturitySchedule cashflowSchedule).map fun p =>
      p.amount * Real.exp (-yield * p.time))[i]? =
        some (p.amount * Real.exp (-yield * p.time)) := by
    rw [List.getElem?_map, hp]
    rfl
  rw [Block.load_eq (getElem?_payments hp).2, ok_bind, Block.load_eq hpresent, ok_bind]
  rfl

/-- Newton's method for a yield. -/
noncomputable def yieldStep (ps : List Payment) (bondPrice : ℝ) : ℝ → ℝ :=
  step (fun x => value ps x - bondPrice) (fall ps)

/-- A call of `computeYieldHelper` takes a step. -/
theorem newYieldOf_eq (hlen : cashflowSchedule.length ≤ maturitySchedule.length) :
    newYieldOf .real bondPrice maturitySchedule cashflowSchedule yield =
      .ok (yieldStep (payments maturitySchedule cashflowSchedule) bondPrice yield) := by
  rw [newYieldOf, price_eq hlen, ok_bind, firstOrderPrice_eq hlen]
  rfl

end Sums

/-! ## The recursion -/

section Recursion

variable {maturitySchedule cashflowSchedule : List ℝ} {yield bondPrice threshold : ℝ}

/-- What a call of `computeYieldHelper` ends in: a step that is no longer than the threshold. -/
def LastStep (ps : List Payment) (bondPrice threshold result : ℝ) : Prop :=
  ∃ yield, result = yieldStep ps bondPrice yield ∧ |result - yield| ≤ threshold

/-- One call, by what the recursive call must start from. -/
theorem iterPost_yield (hlen : cashflowSchedule.length ≤ maturitySchedule.length)
    {s : YieldState ℝ} {I : YieldState ℝ → Prop}
    (hs : s.newYield = yieldStep (payments maturitySchedule cashflowSchedule) bondPrice s.yield)
    (hI : threshold < |s.newYield - s.yield| → I ⟨s.newYield,
      yieldStep (payments maturitySchedule cashflowSchedule) bondPrice s.newYield⟩) :
    Comp.IterPost
      (fun s : YieldState ℝ => .ok (decide (CMath.real.abs (s.newYield - s.yield) > threshold)))
      (fun s => do
        return ⟨s.newYield, ← newYieldOf .real bondPrice maturitySchedule cashflowSchedule
          s.newYield⟩)
      (fun _ => False) I
      (fun s => LastStep (payments maturitySchedule cashflowSchedule) bondPrice threshold
        s.newYield) s := by
  unfold Comp.IterPost
  rw [post_ok]
  -- a step past the threshold goes on, any other is the last one
  by_cases hlong : threshold < |s.newYield - s.yield|
  · have hcond : decide (CMath.real.abs (s.newYield - s.yield) > threshold) = true :=
      decide_eq_true hlong
    rw [if_pos hcond]
    simp only [newYieldOf_eq hlen]
    exact hI hlong
  · have hcond : ¬ decide (CMath.real.abs (s.newYield - s.yield) > threshold) = true :=
      fun h => hlong (of_decide_eq_true h)
    rw [if_neg hcond]
    exact ⟨s.yield, hs, not_lt.mp hlong⟩

/-- The recursion ends, wherever it starts. -/
theorem computeYieldHelper_ends (hlen : cashflowSchedule.length ≤ maturitySchedule.length)
    (hahead : Ahead (payments maturitySchedule cashflowSchedule)) (hprice : 0 < bondPrice)
    (hthreshold : 0 < threshold) (yield : ℝ) :
    (computeYieldHelper .real yield bondPrice maturitySchedule cashflowSchedule threshold).Ends
      (fun _ => False)
      (LastStep (payments maturitySchedule cashflowSchedule) bondPrice threshold) := by
  obtain ⟨rate, hrate⟩ := exists_rate hahead hprice
  have hfalling := falling_value hahead bondPrice
  have hzero : value (payments maturitySchedule cashflowSchedule) rate - bondPrice ≤ 0 := by
    rw [hrate, sub_self]
  unfold computeYieldHelper
  rw [Comp.liftM_eq, newYieldOf_eq hlen, Comp.lift_ok_bind]
  refine Comp.Ends.bind (Q := fun s : YieldState ℝ =>
    LastStep (payments maturitySchedule cashflowSchedule) bondPrice threshold s.newYield) ?_
    fun s hs => Comp.ends_pure hs
  -- the first step may go down, and from there on they go up
  apply Comp.whileLoop_ends_iter
  apply iterPost_yield hlen rfl
  intro _
  refine Comp.whileLoop_ends
    (fun s => s.newYield = yieldStep (payments maturitySchedule cashflowSchedule) bondPrice
      s.yield ∧ 0 ≤ value (payments maturitySchedule cashflowSchedule) s.yield - bondPrice)
    _ _ (fun s => stepsLeft threshold rate s.yield) ?_ ⟨rfl, hfalling.step_nonneg _⟩
  intro s ⟨hnew, hpositive⟩
  apply iterPost_yield hlen hnew
  intro hlong
  rw [hnew] at hlong ⊢
  exact ⟨⟨rfl, hfalling.step_nonneg _⟩, hfalling.stepsLeft_lt hzero hpositive hthreshold hlong⟩

/-- The yield that is found is not above the one that gives the price, and falls short of it by
    the square of the threshold at most, times the last maturity. -/
theorem LastStep.close {ps : List Payment} {result rate T : ℝ}
    (h : LastStep ps bondPrice threshold result) (hahead : Ahead ps)
    (hrate : value ps rate = bondPrice) (hT : ∀ p ∈ ps, p.time ≤ T)
    (hsmall : T * threshold ≤ 1 / 2) :
    result ≤ rate ∧ rate ≤ result + T * threshold ^ 2 := by
  obtain ⟨yield, rfl, hshort⟩ := h
  obtain ⟨p, hp, -⟩ := hahead.paid
  have hTpos : 0 < T := (hahead.time_pos p hp).trans_le (hT p hp)
  -- Newton's method comes from below and does not step over the rate
  have hbefore : yieldStep ps bondPrice yield ≤ rate :=
    (falling_value hahead bondPrice).step_le (by rw [hrate, sub_self]) yield
  -- the last step was short, and the distance left is quadratic in it
  have hdist := rate_sub_step_le hahead hT hrate
    ((mul_le_mul_of_nonneg_left hshort hTpos.le).trans hsmall)
  have hsquare : (yieldStep ps bondPrice yield - yield) ^ 2 ≤ threshold ^ 2 := by
    rw [← sq_abs]
    exact pow_le_pow_left₀ (abs_nonneg _) hshort 2
  have hscaled := mul_le_mul_of_nonneg_left hsquare hTpos.le
  constructor
  · exact hbefore
  · unfold yieldStep at hscaled ⊢
    linarith

end Recursion

/-! ## Schedules -/

section Schedules

variable {years couponRate principle : ℝ} {compounding : Int}

/-- How many payments there are. -/
noncomputable def numberOfPayments (years : ℝ) (compounding : Int) : Nat :=
  if ⌊compounding * years⌋ < 1 then 1 else ⌊compounding * years⌋.toNat

/-- The time between two payments. -/
noncomputable def unitOfTime (years : ℝ) (compounding : Int) : ℝ :=
  if ⌊compounding * years⌋ < 1 then years else 1 / compounding

/-- Converting to `int` rounds down, for numbers that fit and are not negative. -/
theorem toInt_real {x : ℝ} (hx : 0 ≤ x) (hfit : InInt32 ⌊x⌋) : CMath.real.toInt x = .ok ⌊x⌋ := by
  simp only [CMath.real]
  rw [if_pos hx, if_pos hfit]

/-- There is a payment in any number of years. -/
theorem numberOfPayments_pos (years : ℝ) (compounding : Int) :
    0 < numberOfPayments years compounding := by
  unfold numberOfPayments
  split
  · exact Nat.one_pos
  · omega

/-- The maturities are the multiples of a unit. -/
theorem createTimeMaturitySchedule_eq (hyears : 0 < years) (hcompounding : 0 < compounding)
    (hfit : InInt32 ⌊compounding * years⌋) :
    createTimeMaturitySchedule .real compounding years =
      .ok ((List.range (numberOfPayments years compounding)).map fun i : Nat =>
        ((i : ℝ) + 1) * unitOfTime years compounding) := by
  have hproduct : (0 : ℝ) ≤ compounding * years :=
    mul_nonneg (Int.cast_nonneg hcompounding.le) hyears.le
  have hchoice : (if ⌊compounding * years⌋ < 1 then (1, years)
      else (⌊compounding * years⌋.toNat, ((1 : Int) : ℝ) / (compounding : ℝ))) =
      (numberOfPayments years compounding, unitOfTime years compounding) := by
    unfold numberOfPayments unitOfTime
    split <;> simp
  obtain ⟨n, hn⟩ := Nat.exists_eq_succ_of_ne_zero (numberOfPayments_pos years compounding).ne'
  unfold createTimeMaturitySchedule
  rw [toInt_real hproduct hfit, ok_bind, hchoice]
  simp only [hn, Nat.succ_eq_add_one, Nat.add_sub_cancel]
  rw [Block.store_eq (by simp), ok_bind]
  -- each of the others is a unit after the one before it
  apply forRange_fill
  · simp
  · rw [Block.take_succ_set (by simp)]
    simp
  · intro i hi block hblock
    have hlast : block[i]? = some (((i : ℝ) + 1) * unitOfTime years compounding) := by
      have hget : (block.take (i + 1))[i]? = block[i]? := by
        rw [List.getElem?_take, if_pos (Nat.lt_succ_self i)]
      rw [← hget, hblock]
      simp
    rw [Block.load_eq hlast, ok_bind]
    congr 1
    push_cast
    ring

/-- The coupons are level, and the principal is paid with the last one. -/
theorem createCashFlowGen_eq (hyears : 0 < years) (hcompounding : 0 < compounding)
    (hfit : InInt32 ⌊compounding * years⌋) :
    createCashFlowGen .real years principle compounding couponRate =
      .ok (List.replicate (numberOfPayments years compounding - 1)
        (couponRate / compounding * principle) ++
          [principle + couponRate / compounding * principle]) := by
  have hproduct : (0 : ℝ) ≤ years * compounding :=
    mul_nonneg hyears.le (Int.cast_nonneg hcompounding.le)
  have hnumber : (if ⌊years * compounding⌋ < 1 then 1 else ⌊years * compounding⌋.toNat) =
      numberOfPayments years compounding := by
    rw [numberOfPayments, mul_comm]
  obtain ⟨n, hn⟩ := Nat.exists_eq_succ_of_ne_zero (numberOfPayments_pos years compounding).ne'
  unfold createCashFlowGen
  rw [toInt_real hproduct (by rwa [mul_comm]), ok_bind, hnumber, hn]
  -- the loop writes the same coupon everywhere
  have hcoupons : forRange (n + 1) (fun i couponPaymentsSchedule =>
      Block.store couponPaymentsSchedule i (couponRate / compounding * principle))
      (List.replicate (n + 1) ((0 : Int) : ℝ)) =
      .ok (List.replicate (n + 1) (couponRate / compounding * principle)) := by
    refine (forRange_fill (k := 0) (f := fun _ => couponRate / compounding * principle) ?_ rfl
      fun _ _ _ _ => rfl).trans ?_
    · rw [List.length_replicate, Nat.add_zero]
    · rw [List.map_const', List.length_range, Nat.add_zero]
  simp only [Nat.succ_eq_add_one, Nat.add_sub_cancel]
  -- the principal is added to the last one
  have hlast : (List.replicate (n + 1) (couponRate / compounding * principle))[n]? =
      some (couponRate / compounding * principle) := by
    simp
  rw [hcoupons, ok_bind, Block.load_eq hlast, ok_bind, Block.store_eq (by simp),
    List.replicate_succ', List.set_append_right _ _ (by simp)]
  simp

/-- Some time passes between two payments. -/
theorem unitOfTime_pos (hyears : 0 < years) (hcompounding : 0 < compounding) :
    0 < unitOfTime years compounding := by
  unfold unitOfTime
  split
  · exact hyears
  · exact one_div_pos.mpr (Int.cast_pos.mpr hcompounding)

/-- The last maturity is a whole number of periods. -/
theorem numberOfPayments_mul_eq (hmany : ¬ ⌊compounding * years⌋ < 1) :
    numberOfPayments years compounding * unitOfTime years compounding =
      ⌊compounding * years⌋ / compounding := by
  have hcast : ((⌊compounding * years⌋.toNat : Nat) : ℝ) = (⌊compounding * years⌋ : ℝ) := by
    exact_mod_cast Int.toNat_of_nonneg (by omega)
  unfold numberOfPayments unitOfTime
  rw [if_neg hmany, if_neg hmany, hcast, mul_one_div]

/-- A bond of less than a coupon period pays once, at its end. -/
theorem numberOfPayments_mul_of_less (hless : ⌊compounding * years⌋ < 1) :
    numberOfPayments years compounding * unitOfTime years compounding = years := by
  unfold numberOfPayments unitOfTime
  rw [if_pos hless, if_pos hless, Nat.cast_one, one_mul]

/-- The last maturity does not lie beyond the years of the bond. -/
theorem numberOfPayments_mul_le (hcompounding : 0 < compounding) :
    numberOfPayments years compounding * unitOfTime years compounding ≤ years := by
  have hpos : (0 : ℝ) < compounding := Int.cast_pos.mpr hcompounding
  by_cases hless : ⌊compounding * years⌋ < 1
  · exact (numberOfPayments_mul_of_less hless).le
  · rw [numberOfPayments_mul_eq hless, div_le_iff₀ hpos, mul_comm years]
    exact Int.floor_le _

/-- It is the end of these years only if they are a whole number of periods, or less than one. -/
theorem numberOfPayments_mul_eq_years (hcompounding : 0 < compounding) :
    numberOfPayments years compounding * unitOfTime years compounding = years ↔
      compounding * years < 1 ∨ ∃ periods : Int, compounding * years = periods := by
  have hpos : (0 : ℝ) < compounding := Int.cast_pos.mpr hcompounding
  -- below one period there is one payment, at the end of the bond
  by_cases hless : ⌊compounding * years⌋ < 1
  · have hperiod : compounding * years < 1 := by
      simpa using Int.floor_lt.mp hless
    simp only [numberOfPayments_mul_of_less hless, hperiod, true_or]
  · -- else the truncated number of periods is to be the whole of it
    have hperiod : ¬ compounding * years < 1 := by
      intro h
      exact hless (Int.floor_lt.mpr (by simpa using h))
    rw [numberOfPayments_mul_eq hless, div_eq_iff hpos.ne', mul_comm years, or_iff_right hperiod]
    constructor
    · intro h
      exact ⟨_, h.symm⟩
    · rintro ⟨periods, h⟩
      rw [h, Int.floor_intCast]

/-- The principal is paid at the end of the years of a bond only if these are a whole number
    of periods, or less than one. -/
theorem principal_paid_at_years_iff (hyears : 0 < years) (hcompounding : 0 < compounding)
    (hfit : InInt32 ⌊compounding * years⌋) :
    ∃ maturitySchedule cashflowSchedule,
      createTimeMaturitySchedule .real compounding years = .ok maturitySchedule ∧
      createCashFlowGen .real years principle compounding couponRate = .ok cashflowSchedule ∧
      cashflowSchedule.length = maturitySchedule.length ∧
      cashflowSchedule.getLast? = some (principle + couponRate / compounding * principle) ∧
      (maturitySchedule.getLast? = some years ↔
        compounding * years < 1 ∨ ∃ periods : Int, compounding * years = periods) := by
  -- there is a last payment
  have hcount := numberOfPayments_pos years compounding
  obtain ⟨n, hn⟩ := Nat.exists_eq_succ_of_ne_zero hcount.ne'
  refine ⟨_, _, createTimeMaturitySchedule_eq hyears hcompounding hfit,
    createCashFlowGen_eq hyears hcompounding hfit, ?_, ?_, ?_⟩
  · simp
    omega
  · -- the principal is the last cash flow
    rw [List.getLast?_append]
    simp
  · -- the last time is the number of payments times the unit
    rw [← numberOfPayments_mul_eq_years hcompounding, hn, Nat.succ_eq_add_one, List.range_succ,
      List.map_append, List.getLast?_append]
    simp

/-- A year and a half, paid yearly: the whole of it is paid after a year. -/
theorem principal_paid_at_years_iff_yearAndHalf : ∃ maturitySchedule cashflowSchedule,
    createTimeMaturitySchedule .real 1 (3 / 2) = .ok maturitySchedule ∧
    createCashFlowGen .real (3 / 2) 100 1 (1 / 20) = .ok cashflowSchedule ∧
    cashflowSchedule.length = maturitySchedule.length ∧
    cashflowSchedule.getLast? = some (100 + 1 / 20 / ((1 : Int) : ℝ) * 100) ∧
    (maturitySchedule.getLast? = some (3 / 2) ↔ ((1 : Int) : ℝ) * (3 / 2) < 1 ∨
      ∃ periods : Int, ((1 : Int) : ℝ) * (3 / 2) = periods) := by
  have hfloor : ⌊((1 : Int) : ℝ) * (3 / 2)⌋ = 1 := by norm_num
  exact principal_paid_at_years_iff (by norm_num) one_pos (by rw [hfloor]; decide)

/-- A payment is a cash flow at a maturity. -/
theorem mem_payments {maturitySchedule cashflowSchedule : List ℝ} {p : Payment}
    (h : p ∈ payments maturitySchedule cashflowSchedule) :
    p.amount ∈ cashflowSchedule ∧ p.time ∈ maturitySchedule := by
  obtain ⟨i, hi⟩ := List.getElem?_of_mem h
  obtain ⟨hamount, htime⟩ := getElem?_payments hi
  exact ⟨List.mem_of_getElem? hamount, List.mem_of_getElem? htime⟩

/-- Every cash flow is one of the payments. -/
theorem exists_payment {maturitySchedule cashflowSchedule : List ℝ} {cashflow : ℝ}
    (hlen : cashflowSchedule.length ≤ maturitySchedule.length) (h : cashflow ∈ cashflowSchedule) :
    ∃ p ∈ payments maturitySchedule cashflowSchedule, p.amount = cashflow := by
  obtain ⟨i, hi, rfl⟩ := List.getElem_of_mem h
  have hi' : i < (payments maturitySchedule cashflowSchedule).length := by
    simp [payments]
    omega
  exact ⟨_, List.getElem_mem hi', by simp [payments]⟩

/-- The payments of a bond. -/
structure IsBond (years : ℝ) (maturitySchedule cashflowSchedule : List ℝ) : Prop where
  length_eq : cashflowSchedule.length = maturitySchedule.length
  ahead : Ahead (payments maturitySchedule cashflowSchedule)
  time_le : ∀ p ∈ payments maturitySchedule cashflowSchedule, p.time ≤ years

/-- The schedules of `getYield` are those of a bond. -/
theorem exists_schedules (hyears : 0 < years) (hcoupon : 0 ≤ couponRate)
    (hprinciple : 0 < principle) (hcompounding : 0 < compounding)
    (hfit : InInt32 ⌊compounding * years⌋) :
    ∃ maturitySchedule cashflowSchedule,
      createTimeMaturitySchedule .real compounding years = .ok maturitySchedule ∧
      createCashFlowGen .real years principle compounding couponRate = .ok cashflowSchedule ∧
      IsBond years maturitySchedule cashflowSchedule := by
  have hunit := unitOfTime_pos hyears hcompounding
  have hcount := numberOfPayments_pos years compounding
  -- no coupon is negative
  have hlevel : 0 ≤ couponRate / compounding * principle :=
    mul_nonneg (div_nonneg hcoupon (Int.cast_nonneg hcompounding.le)) hprinciple.le
  -- both schedules have one entry per payment
  have hlength : (List.replicate (numberOfPayments years compounding - 1)
      (couponRate / compounding * principle) ++
        [principle + couponRate / compounding * principle]).length =
      ((List.range (numberOfPayments years compounding)).map fun i : Nat =>
        ((i : ℝ) + 1) * unitOfTime years compounding).length := by
    simp
    omega
  refine ⟨_, _, createTimeMaturitySchedule_eq hyears hcompounding hfit,
    createCashFlowGen_eq hyears hcompounding hfit, hlength, ⟨?_, ?_, ?_⟩, ?_⟩
  · intro p hp
    -- every amount is a coupon, the last one with the principal
    rcases List.mem_append.mp (mem_payments hp).1 with hmem | hmem
    · rw [List.eq_of_mem_replicate hmem]
      exact hlevel
    · rw [List.mem_singleton.mp hmem]
      linarith
  · intro p hp
    -- the times are multiples of the unit, counted from one
    obtain ⟨i, -, htime⟩ := List.mem_map.mp (mem_payments hp).2
    rw [← htime]
    positivity
  · -- the principal makes the last payment positive
    obtain ⟨p, hp, hlast⟩ :=
      exists_payment hlength.le (List.mem_append_right _ (List.mem_singleton_self _))
    refine ⟨p, hp, ?_⟩
    rw [hlast]
    linarith
  · intro p hp
    obtain ⟨i, hi, htime⟩ := List.mem_map.mp (mem_payments hp).2
    -- the last payment is no later than the end of the bond
    have hle : (i : ℝ) + 1 ≤ numberOfPayments years compounding := by
      exact_mod_cast List.mem_range.mp hi
    rw [← htime]
    exact (mul_le_mul_of_nonneg_right hle hunit.le).trans (numberOfPayments_mul_le hcompounding)

end Schedules

/-! ## Bonds -/

section Bonds

variable {years couponRate bondPrice : ℝ} {compounding : Int}

/-- A yield is found for the payments of a bond. -/
theorem computeYield_returns {maturitySchedule cashflowSchedule : List ℝ}
    (hbond : IsBond years maturitySchedule cashflowSchedule) (hprice : 0 < bondPrice) :
    ∃ result, (computeYield .real maturitySchedule cashflowSchedule bondPrice).Returns result ∧
      LastStep (payments maturitySchedule cashflowSchedule) bondPrice defaultThreshold result := by
  have hthreshold : (0 : ℝ) < defaultThreshold := by
    norm_num [defaultThreshold]
  exact (computeYieldHelper_ends hbond.length_eq.le hbond.ahead hprice hthreshold _).exists_returns
    fun _ h => h.elim

/-- The yield is that of the schedules that the call creates. -/
theorem getYield_eq {maturitySchedule cashflowSchedule : List ℝ}
    (hmaturity : createTimeMaturitySchedule .real compounding years = .ok maturitySchedule)
    (hcashflow : createCashFlowGen .real years 100 compounding couponRate = .ok cashflowSchedule) :
    getYield .real years couponRate bondPrice compounding =
      computeYield .real maturitySchedule cashflowSchedule bondPrice := by
  unfold getYield
  rw [Int.cast_ofNat, Comp.liftM_eq, hmaturity, Comp.lift_ok_bind, Comp.liftM_eq, hcashflow,
    Comp.lift_ok_bind]

/-- A bond whose periods an `int` counts has too few years for the threshold to matter. -/
theorem years_mul_threshold_le (hyears : 0 < years) (hcompounding : 0 < compounding)
    (hfit : InInt32 ⌊compounding * years⌋) : years * defaultThreshold ≤ 1 / 2 := by
  have hone : (1 : ℝ) ≤ compounding := by exact_mod_cast hcompounding
  -- the periods are an `int`, and the years are no more than they are
  have hperiods : compounding * years < 2147483648 := by
    have hlt := Int.lt_floor_add_one ((compounding : ℝ) * years)
    have hle : ((⌊compounding * years⌋ : Int) : ℝ) ≤ 2147483647 := by exact_mod_cast hfit.2
    linarith
  have hle : years ≤ compounding * years := le_mul_of_one_le_left hyears.le hone
  unfold defaultThreshold
  linarith

/-- The yield that `getYield` finds for a bond is not above the one that gives its price, and
    falls short of it by less than the threshold, squared and times the years. -/
theorem getYield_correct (hyears : 0 < years) (hcoupon : 0 ≤ couponRate) (hprice : 0 < bondPrice)
    (hcompounding : 0 < compounding) (hfit : InInt32 ⌊compounding * years⌋) :
    ∃ maturitySchedule cashflowSchedule rate result,
      createTimeMaturitySchedule .real compounding years = .ok maturitySchedule ∧
      createCashFlowGen .real years 100 compounding couponRate = .ok cashflowSchedule ∧
      (∀ yield, price .real yield maturitySchedule cashflowSchedule = .ok bondPrice ↔
        yield = rate) ∧
      (getYield .real years couponRate bondPrice compounding).Returns result ∧
      result ≤ rate ∧ rate ≤ result + years * defaultThreshold ^ 2 := by
  obtain ⟨maturitySchedule, cashflowSchedule, hmaturity, hcashflow, hbond⟩ :=
    exists_schedules hyears hcoupon (show (0 : ℝ) < 100 by norm_num) hcompounding hfit
  -- there is a yield that gives the price, and the recursion ends close to it
  obtain ⟨rate, hrate⟩ := exists_rate hbond.ahead hprice
  obtain ⟨result, hresult, hlast⟩ := computeYield_returns hbond hprice
  have hclose := hlast.close hbond.ahead hrate hbond.time_le
    (years_mul_threshold_le hyears hcompounding hfit)
  refine ⟨maturitySchedule, cashflowSchedule, rate, result, hmaturity, hcashflow, ?_, ?_, hclose⟩
  · -- the price falls strictly, so one yield at most gives it
    intro yield
    rw [price_eq hbond.length_eq.le, Except.ok.injEq]
    constructor
    · intro hyield
      exact (falling_value hbond.ahead bondPrice).zero_unique (by rw [hyield, sub_self])
        (by rw [hrate, sub_self])
    · rintro rfl
      exact hrate
  · rw [getYield_eq hmaturity hcashflow]
    exact hresult

/-- Two years of half-yearly coupons of five percent, at 98. -/
theorem getYield_correct_twoYears : ∃ maturitySchedule cashflowSchedule rate result,
    createTimeMaturitySchedule .real 2 2 = .ok maturitySchedule ∧
    createCashFlowGen .real 2 100 2 (1 / 20) = .ok cashflowSchedule ∧
    (∀ yield, price .real yield maturitySchedule cashflowSchedule = .ok 98 ↔ yield = rate) ∧
    (getYield .real 2 (1 / 20) 98 2).Returns result ∧
    result ≤ rate ∧ rate ≤ result + 2 * defaultThreshold ^ 2 := by
  have hfloor : ⌊((2 : Int) : ℝ) * 2⌋ = 4 := by norm_num
  exact getYield_correct two_pos (by norm_num) (by norm_num) two_pos (by rw [hfloor]; decide)

/-- The duration is the first-order price at the yield, over the price. -/
theorem getDuration_returns {maturitySchedule cashflowSchedule : List ℝ} {result : ℝ}
    (hmaturity : createTimeMaturitySchedule .real compounding years = .ok maturitySchedule)
    (hcashflow : createCashFlowGen .real years 100 compounding couponRate = .ok cashflowSchedule)
    (hlen : cashflowSchedule.length = maturitySchedule.length)
    (hresult : (computeYield .real maturitySchedule cashflowSchedule bondPrice).Returns result) :
    (getDuration .real years couponRate bondPrice compounding).Returns
      (fall (payments maturitySchedule cashflowSchedule) result / bondPrice) := by
  unfold getDuration
  rw [Int.cast_ofNat, Comp.liftM_eq, hmaturity, Comp.lift_ok_bind, Comp.liftM_eq, hcashflow,
    Comp.lift_ok_bind]
  rw [Comp.bind_returns_of hresult, computeDuration_eq hlen]
  exact Comp.lift_returns.mpr rfl

/-- `computeDV01` is what the price falls by when the yield rises by a hundredth of a percent,
    up to a part of it that grows with the years. -/
theorem getDuration_correct (hyears : 0 < years) (hcoupon : 0 ≤ couponRate)
    (hprice : 0 < bondPrice) (hcompounding : 0 < compounding)
    (hfit : InInt32 ⌊compounding * years⌋) :
    ∃ maturitySchedule cashflowSchedule result duration before after,
      createTimeMaturitySchedule .real compounding years = .ok maturitySchedule ∧
      createCashFlowGen .real years 100 compounding couponRate = .ok cashflowSchedule ∧
      (getYield .real years couponRate bondPrice compounding).Returns result ∧
      (getDuration .real years couponRate bondPrice compounding).Returns duration ∧
      price .real result maturitySchedule cashflowSchedule = .ok before ∧
      price .real (result + 1 / 10000) maturitySchedule cashflowSchedule = .ok after ∧
      before + computeDV01 bondPrice duration ≤ after ∧
      after ≤ before + computeDV01 bondPrice duration * (1 - years / 20000) := by
  obtain ⟨maturitySchedule, cashflowSchedule, hmaturity, hcashflow, hbond⟩ :=
    exists_schedules hyears hcoupon (show (0 : ℝ) < 100 by norm_num) hcompounding hfit
  obtain ⟨result, hresult, -⟩ := computeYield_returns hbond hprice
  -- the price cancels: what remains is the slope times a basis point
  have hDV01 : computeDV01 bondPrice
      (fall (payments maturitySchedule cashflowSchedule) result / bondPrice) =
      -(fall (payments maturitySchedule cashflowSchedule) result * (1 / 10000)) := by
    unfold computeDV01 computeFiniteDifference
    push_cast
    field_simp
  -- the price lies above its tangent, and below it by the curvature at most
  have htangent := tangent_le hbond.ahead.amount_nonneg result (result + 1 / 10000)
  have hcurve := value_add_le hbond.ahead hbond.time_le result
    (show (0 : ℝ) ≤ 1 / 10000 by norm_num)
  refine ⟨maturitySchedule, cashflowSchedule, result, _, _, _, hmaturity, hcashflow, ?_,
    getDuration_returns hmaturity hcashflow hbond.length_eq hresult, price_eq hbond.length_eq.le,
    price_eq hbond.length_eq.le, ?_, ?_⟩
  · rw [getYield_eq hmaturity hcashflow]
    exact hresult
  · rw [hDV01]
    linarith
  · rw [hDV01]
    linarith

/-- Two years of half-yearly coupons of five percent, at 98. -/
theorem getDuration_correct_twoYears :
    ∃ maturitySchedule cashflowSchedule result duration before after,
      createTimeMaturitySchedule .real 2 2 = .ok maturitySchedule ∧
      createCashFlowGen .real 2 100 2 (1 / 20) = .ok cashflowSchedule ∧
      (getYield .real 2 (1 / 20) 98 2).Returns result ∧
      (getDuration .real 2 (1 / 20) 98 2).Returns duration ∧
      price .real result maturitySchedule cashflowSchedule = .ok before ∧
      price .real (result + 1 / 10000) maturitySchedule cashflowSchedule = .ok after ∧
      before + computeDV01 98 duration ≤ after ∧
      after ≤ before + computeDV01 98 duration * (1 - 2 / 20000) := by
  have hfloor : ⌊((2 : Int) : ℝ) * 2⌋ = 4 := by norm_num
  exact getDuration_correct two_pos (by norm_num) (by norm_num) two_pos (by rw [hfloor]; decide)

/-! ## Names of frequencies -/

/-- A name is that of a frequency, or it is thrown. -/
theorem convertPaymentStringToEnum_post (boost : Boost) (compoundingStr : Bytes) :
    Post (convertPaymentStringToEnum boost compoundingStr)
      (· = .throws (.text "Not a proper input")) fun n => 0 < n ∧ n ≤ 12 := by
  unfold convertPaymentStringToEnum
  dsimp only
  split_ifs
  all_goals simp

/-- Where a name is ASCII, its letters may be small or capital ones. -/
theorem convertPaymentStringToEnum_eq_ok_iff {boost : Boost} {compoundingStr : Bytes}
    (hascii : ∀ c ∈ compoundingStr, c.toNat < 0x80) {n : Int} :
    convertPaymentStringToEnum boost compoundingStr = .ok n ↔
      (compoundingStr.map toUpperAscii, n) ∈
        [(bytes "PA", 1), (bytes "SA", 2), (bytes "Q", 4), (bytes "M", 12)] := by
  have hne : bytes "PA" ≠ bytes "SA" ∧ bytes "PA" ≠ bytes "Q" ∧ bytes "PA" ≠ bytes "M" ∧
      bytes "SA" ≠ bytes "Q" ∧ bytes "SA" ≠ bytes "M" ∧ bytes "Q" ≠ bytes "M" := by decide
  obtain ⟨h₁, h₂, h₃, h₄, h₅, h₆⟩ := hne
  unfold convertPaymentStringToEnum
  rw [boost.toUpperCopy_ascii _ hascii]
  dsimp only
  split_ifs <;> simp_all [eq_comm]

/-- A bond whose months can be counted can be paid at any of the frequencies. -/
theorem inInt32_of_frequency (hyears : 0 < years) (hfit : InInt32 ⌊12 * years⌋)
    (hcompounding : 0 < compounding) (hmonthly : compounding ≤ 12) :
    InInt32 ⌊compounding * years⌋ := by
  have hle : (compounding : ℝ) ≤ 12 := by exact_mod_cast hmonthly
  have hpos : (0 : ℝ) ≤ compounding := by exact_mod_cast hcompounding.le
  have hfloor := Int.floor_le_floor (mul_le_mul_of_nonneg_right hle hyears.le)
  have hnonneg := Int.floor_nonneg.mpr (mul_nonneg hpos hyears.le)
  unfold InInt32 at hfit ⊢
  omega

/-- The schedules of a bond that is paid at a frequency with a name. -/
theorem exists_schedules_of_frequency (hyears : 0 < years) (hcoupon : 0 ≤ couponRate)
    (hfit : InInt32 ⌊12 * years⌋) (hfrequency : 0 < compounding ∧ compounding ≤ 12) :
    ∃ maturitySchedule cashflowSchedule,
      createTimeMaturitySchedule .real compounding years = .ok maturitySchedule ∧
      createCashFlowGen .real years 100 compounding couponRate = .ok cashflowSchedule ∧
      IsBond years maturitySchedule cashflowSchedule :=
  exists_schedules hyears hcoupon (by norm_num) hfrequency.1
    (inInt32_of_frequency hyears hfit hfrequency.1 hfrequency.2)

/-- The yield by the name of a frequency is the yield by its number. -/
theorem getYieldOfName_ends (hyears : 0 < years) (hcoupon : 0 ≤ couponRate)
    (hprice : 0 < bondPrice) (hfit : InInt32 ⌊12 * years⌋) (boost : Boost)
    (compoundingStr : Bytes) :
    (getYieldOfName .real boost years couponRate bondPrice compoundingStr).Ends
      (· = .throws (.text "Not a proper input")) fun result => ∃ compounding,
        convertPaymentStringToEnum boost compoundingStr = .ok compounding ∧
          (getYield .real years couponRate bondPrice compounding).Returns result := by
  have hpost := convertPaymentStringToEnum_post boost compoundingStr
  unfold getYieldOfName
  cases hname : convertPaymentStringToEnum boost compoundingStr with
  | error f =>
    rw [hname] at hpost
    -- a name that is none of the four throws
    exact Comp.ends_lift (x := .error f) hpost
  | ok compounding =>
    rw [hname] at hpost
    -- twelve payments a year at most, so the schedules fit
    obtain ⟨maturitySchedule, cashflowSchedule, hmaturity, hcashflow, hbond⟩ :=
      exists_schedules_of_frequency hyears hcoupon hfit hpost
    obtain ⟨result, hresult, -⟩ := computeYield_returns hbond hprice
    have hyield : (getYield .real years couponRate bondPrice compounding).Returns result := by
      rw [getYield_eq hmaturity hcashflow]
      exact hresult
    rw [Comp.liftM_eq, Comp.lift_ok_bind]
    exact Or.inr ⟨result, hyield, compounding, rfl, hyield⟩

/-- The duration of a bond whose frequency has a name is computed, and zero is returned. -/
theorem getDurationOfName_ends (hyears : 0 < years) (hcoupon : 0 ≤ couponRate)
    (hprice : 0 < bondPrice) (hfit : InInt32 ⌊12 * years⌋) (boost : Boost)
    (compoundingStr : Bytes) :
    (getDurationOfName .real boost years couponRate bondPrice compoundingStr).Ends
      (· = .throws (.text "Not a proper input")) (· = 0) := by
  unfold getDurationOfName
  apply Comp.Ends.bind (Comp.ends_lift (convertPaymentStringToEnum_post boost compoundingStr))
  intro compounding hfrequency
  obtain ⟨maturitySchedule, cashflowSchedule, hmaturity, hcashflow, hbond⟩ :=
    exists_schedules_of_frequency hyears hcoupon hfit hfrequency
  obtain ⟨result, hresult, -⟩ := computeYield_returns hbond hprice
  -- the yield and the duration are computed before the result is dropped
  have hduration := getDuration_returns hmaturity hcashflow hbond.length_eq hresult
  apply Comp.Ends.bind (Q := fun _ => True) (Or.inr ⟨_, hduration, trivial⟩)
  intro _ _
  exact Comp.ends_pure Int.cast_zero

end Bonds

end OA.BondMath
