import OdinAnalytics.Lib.Newton
import Mathlib.Analysis.Convex.SpecificFunctions.Basic
import Mathlib.Analysis.SpecialFunctions.Exp
import Mathlib.Topology.Order.IntermediateValue

/-!
# Payments discounted at a rate

The value of payments falls with the rate that they are discounted at and lies above its
tangents, so there is one rate for every price, and Newton's method finds it. How far it
still is from it depends on the square of the last step only.

## Key results

- `falling_value`: the value minus a price is what Newton's method needs
- `exists_rate`: there is a rate for every price
- `rate_sub_step_le`: how far a step is from it
-/

namespace Discount

open Newton Filter Topology

/-- An amount that is paid at a time. -/
structure Payment where
  amount : ℝ
  time : ℝ

/-- The value of payments at a rate. -/
noncomputable def value (ps : List Payment) (rate : ℝ) : ℝ :=
  (ps.map fun p => p.amount * Real.exp (-rate * p.time)).sum

/-- How fast the value falls. -/
noncomputable def fall (ps : List Payment) (rate : ℝ) : ℝ :=
  (ps.map fun p => p.amount * p.time * Real.exp (-rate * p.time)).sum

/-- Payments that lie ahead, and one that is not zero. -/
structure Ahead (ps : List Payment) : Prop where
  amount_nonneg : ∀ p ∈ ps, 0 ≤ p.amount
  time_pos : ∀ p ∈ ps, 0 < p.time
  paid : ∃ p ∈ ps, 0 < p.amount

variable {ps : List Payment} {x y : ℝ}

/-- The value of the first payment and of the others. -/
theorem value_cons (p : Payment) (ps : List Payment) (x : ℝ) :
    value (p :: ps) x = p.amount * Real.exp (-x * p.time) + value ps x := by
  rw [value, List.map_cons, List.sum_cons, value]

/-- The fall of the first payment and of the others. -/
theorem fall_cons (p : Payment) (ps : List Payment) (x : ℝ) :
    fall (p :: ps) x = p.amount * p.time * Real.exp (-x * p.time) + fall ps x := by
  rw [fall, List.map_cons, List.sum_cons, fall]

/-! ## The exponential function -/

/-- Discounting at one rate is discounting at another one, and at the difference. -/
theorem exp_shift (x y t : ℝ) :
    Real.exp (-y * t) = Real.exp (-x * t) * Real.exp (-(y - x) * t) := by
  rw [← Real.exp_add]
  ring_nf

/-- A payment before a time `T` falls at least as a linear part of one at `T`. -/
theorem mul_one_sub_exp_le {t T : ℝ} (ht : 0 ≤ t) (hT : t ≤ T) (s : ℝ) :
    t * (1 - Real.exp (-s * T)) ≤ T * (1 - Real.exp (-s * t)) := by
  rcases ht.eq_or_lt with rfl | hpos
  · simp
  · have hTpos : 0 < T := hpos.trans_le hT
    -- the exponential function is convex, and `t` lies between zero and `T`
    have hconvex := convexOn_exp.2 (Set.mem_univ 0) (Set.mem_univ (-s * T))
      (div_nonneg (sub_nonneg.mpr hT) hTpos.le) (div_nonneg ht hTpos.le)
      (by rw [← add_div, sub_add_cancel, div_self hTpos.ne'])
    have hpoint : ((T - t) / T) • (0 : ℝ) + (t / T) • (-s * T) = -s * t := by
      rw [smul_eq_mul, smul_eq_mul, mul_zero, zero_add]
      field_simp
    rw [hpoint, Real.exp_zero, smul_eq_mul, smul_eq_mul] at hconvex
    have hscaled := mul_le_mul_of_nonneg_left hconvex hTpos.le
    have hright : T * ((T - t) / T * 1 + t / T * Real.exp (-s * T)) =
        T - t + t * Real.exp (-s * T) := by
      field_simp
    linarith

/-- The inverse function of `1 - exp (-u)`, as far as its second order. -/
theorem le_add_sq {u z : ℝ} (hz : |z| ≤ 1 / 2) (h : 1 - Real.exp (-u) ≤ z) : u ≤ z + z ^ 2 := by
  obtain ⟨hlow, hhigh⟩ := abs_le.mp hz
  -- the bound itself, which the exponential function of `u` cannot exceed
  have hbound : 1 ≤ (1 - z) * Real.exp (z + z ^ 2) := by
    rcases le_total z 0 with hneg | hpos
    · have hexp := Real.add_one_le_exp (z + z ^ 2)
      have hcube : 0 ≤ -(z ^ 3) := by
        have := pow_nonneg (neg_nonneg.mpr hneg) 3
        nlinarith
      nlinarith
    · have hexp := Real.quadratic_le_exp_of_nonneg (by positivity : 0 ≤ z + z ^ 2)
      have hpoly : 1 ≤ (1 - z) * (1 + (z + z ^ 2) + (z + z ^ 2) ^ 2 / 2) := by
        have hrest : 0 ≤ 1 - z - z ^ 2 - z ^ 3 := by nlinarith [pow_nonneg hpos 2]
        nlinarith [mul_nonneg (sq_nonneg z) hrest]
      exact hpoly.trans (mul_le_mul_of_nonneg_left hexp (by linarith))
  by_contra hlt
  have hexp : Real.exp (-u) < Real.exp (-(z + z ^ 2)) := Real.exp_lt_exp.mpr (by linarith)
  have hinv : Real.exp (-(z + z ^ 2)) ≤ 1 - z := by
    rw [Real.exp_neg, inv_le_iff_one_le_mul₀ (Real.exp_pos _)]
    exact hbound
  linarith

/-- A discount is a linear part of the time, up to its second order. -/
theorem sub_sq_half_le {u : ℝ} (hu : 0 ≤ u) : u - u ^ 2 / 2 ≤ 1 - Real.exp (-u) := by
  -- the exponential is above its second order polynomial, whose inverse is bounded
  have hexp := Real.quadratic_le_exp_of_nonneg hu
  have hprod : 1 ≤ (1 - u + u ^ 2 / 2) * (1 + u + u ^ 2 / 2) := by nlinarith [sq_nonneg (u ^ 2)]
  have hfactor : 0 ≤ 1 - u + u ^ 2 / 2 := by nlinarith [sq_nonneg (u - 1)]
  have hinv : Real.exp (-u) ≤ 1 - u + u ^ 2 / 2 := by
    rw [Real.exp_neg, inv_le_iff_one_le_mul₀ (Real.exp_pos _)]
    exact hprod.trans (mul_le_mul_of_nonneg_left hexp hfactor)
  linarith

/-! ## Values -/

/-- The value lies above its tangents. -/
theorem tangent_le (h : ∀ p ∈ ps, 0 ≤ p.amount) (x y : ℝ) :
    value ps x - fall ps x * (y - x) ≤ value ps y := by
  induction ps with
  | nil => simp [value, fall]
  | cons p ps ih =>
    rw [List.forall_mem_cons] at h
    -- each term is convex: the exponential is above its tangent
    have hexp := Real.add_one_le_exp (-(y - x) * p.time)
    have hscaled := mul_le_mul_of_nonneg_left hexp
      (mul_nonneg h.1 (Real.exp_pos (-x * p.time)).le)
    rw [value_cons, value_cons, fall_cons, exp_shift x y]
    linarith [ih h.2]

/-- The value falls at least as payments at the last time do that fall as fast at first. -/
theorem fall_mul_le (h : Ahead ps) {T : ℝ} (hT : ∀ p ∈ ps, p.time ≤ T) (x y : ℝ) :
    fall ps x * (1 - Real.exp (-(y - x) * T)) ≤ T * (value ps x - value ps y) := by
  obtain ⟨hamount, htime, -⟩ := h
  induction ps with
  | nil => simp [value, fall]
  | cons p ps ih =>
    rw [List.forall_mem_cons] at hamount htime hT
    -- the bound for the first payment, scaled by its present value
    have hone := mul_one_sub_exp_le htime.1.le hT.1 (y - x)
    have hscaled := mul_le_mul_of_nonneg_left hone
      (mul_nonneg hamount.1 (Real.exp_pos (-x * p.time)).le)
    rw [value_cons, value_cons, fall_cons, exp_shift x y]
    linarith [ih hT.2 hamount.2 htime.2]

/-- One of the payments is not worth more than all of them. -/
theorem single_le_value (h : ∀ p ∈ ps, 0 ≤ p.amount) {p : Payment} (hp : p ∈ ps) (x : ℝ) :
    p.amount * Real.exp (-x * p.time) ≤ value ps x := by
  apply List.single_le_sum
  · intro v hv
    obtain ⟨q, hq, rfl⟩ := List.mem_map.mp hv
    exact mul_nonneg (h q hq) (Real.exp_pos _).le
  · exact List.mem_map_of_mem hp

/-- The value of payments ahead falls at every rate. -/
theorem fall_pos (h : Ahead ps) (x : ℝ) : 0 < fall ps x := by
  obtain ⟨p, hp, hpaid⟩ := h.paid
  have hterm : 0 < p.amount * p.time * Real.exp (-x * p.time) :=
    mul_pos (mul_pos hpaid (h.time_pos p hp)) (Real.exp_pos _)
  -- one term is positive and no other negative
  apply hterm.trans_le
  apply List.single_le_sum
  · intro v hv
    obtain ⟨q, hq, rfl⟩ := List.mem_map.mp hv
    exact mul_nonneg (mul_nonneg (h.amount_nonneg q hq) (h.time_pos q hq).le) (Real.exp_pos _).le
  · exact List.mem_map_of_mem (f := fun p => p.amount * p.time * Real.exp (-x * p.time)) hp

/-- What the tangent overstates the fall of the value by. -/
theorem value_add_le (h : Ahead ps) {T : ℝ} (hT : ∀ p ∈ ps, p.time ≤ T) (x : ℝ) {d : ℝ}
    (hd : 0 ≤ d) : value ps (x + d) ≤ value ps x - fall ps x * d * (1 - T * d / 2) := by
  obtain ⟨p, hp, -⟩ := h.paid
  have hTpos : 0 < T := (h.time_pos p hp).trans_le (hT p hp)
  have hfall := fall_mul_le h hT x (x + d)
  -- the exponential lies below its second order expansion
  have hexp := mul_le_mul_of_nonneg_left (sub_sq_half_le (mul_nonneg hd hTpos.le))
    (fall_pos h x).le
  rw [add_sub_cancel_left, neg_mul] at hfall
  have hscaled : T * (fall ps x * d * (1 - T * d / 2)) ≤
      T * (value ps x - value ps (x + d)) := by
    calc T * (fall ps x * d * (1 - T * d / 2)) = fall ps x * (d * T - (d * T) ^ 2 / 2) := by ring
      _ ≤ _ := hexp.trans hfall
  -- `T` is positive, so it cancels
  have hfinal := le_of_mul_le_mul_left hscaled hTpos
  linarith

/-- The value minus a price is what Newton's method needs. -/
theorem falling_value (h : Ahead ps) (price : ℝ) :
    Falling (fun x => value ps x - price) (fall ps) where
  slope_pos := fall_pos h
  tangent x y := by linarith [tangent_le h.amount_nonneg x y]

/-! ## The rate of a price -/

/-- The value is continuous in the rate. -/
theorem continuous_value (ps : List Payment) : Continuous (value ps) := by
  induction ps with
  | nil => exact continuous_const
  | cons p ps ih =>
    -- a sum of exponentials
    have heq : value (p :: ps) = fun x => p.amount * Real.exp (-x * p.time) + value ps x :=
      funext (value_cons p ps)
    rw [heq]
    fun_prop

/-- At high rates nothing is worth much. -/
theorem tendsto_value (h : ∀ p ∈ ps, 0 < p.time) : Tendsto (value ps) atTop (𝓝 0) := by
  induction ps with
  | nil => exact tendsto_const_nhds
  | cons p ps ih =>
    rw [List.forall_mem_cons] at h
    have heq : value (p :: ps) = fun x => p.amount * Real.exp (-x * p.time) + value ps x :=
      funext (value_cons p ps)
    -- each payment is discounted to nothing
    have hexp : Tendsto (fun x => Real.exp (-x * p.time)) atTop (𝓝 0) :=
      Real.tendsto_exp_atBot.comp (tendsto_neg_atTop_atBot.atBot_mul_const h.1)
    rw [heq]
    simpa using (hexp.const_mul p.amount).add (ih h.2)

/-- There is a rate for every price. -/
theorem exists_rate (h : Ahead ps) {price : ℝ} (hprice : 0 < price) :
    ∃ rate, value ps rate = price := by
  obtain ⟨p, hp, hpaid⟩ := h.paid
  have htime := h.time_pos p hp
  have hlow : ∃ x, value ps x ≤ price :=
    ((tendsto_value h.time_pos).eventually_le_const hprice).exists
  -- at a rate that is low enough, one of the payments is worth the price already
  have hhigh : ∃ x, price ≤ value ps x := by
    refine ⟨-(price / p.amount / p.time), ?_⟩
    have hexp := Real.add_one_le_exp (price / p.amount)
    have hscaled := mul_le_mul_of_nonneg_left hexp hpaid.le
    have hone := single_le_value h.amount_nonneg hp (-(price / p.amount / p.time))
    rw [neg_neg, div_mul_cancel₀ _ htime.ne'] at hone
    have hcancel : p.amount * (price / p.amount + 1) = price + p.amount := by
      field_simp
    linarith
  exact mem_range_of_exists_le_of_exists_ge (continuous_value ps) hlow hhigh

/-- A step of Newton's method ends short of the rate of the price by no more than the last
    time, times the square of the step. -/
theorem rate_sub_step_le (h : Ahead ps) {T : ℝ} (hT : ∀ p ∈ ps, p.time ≤ T) {price rate : ℝ}
    (hrate : value ps rate = price) {x : ℝ}
    (hsmall : T * |step (fun x => value ps x - price) (fall ps) x - x| ≤ 1 / 2) :
    rate - step (fun x => value ps x - price) (fall ps) x ≤
      T * (step (fun x => value ps x - price) (fall ps) x - x) ^ 2 := by
  obtain ⟨p, hp, -⟩ := h.paid
  have hTpos : 0 < T := (h.time_pos p hp).trans_le (hT p hp)
  have hslope := fall_pos h x
  set d := step (fun x => value ps x - price) (fall ps) x - x with hd
  -- what the step is: the slope times it is the missing value
  have hstep : fall ps x * d = value ps x - value ps rate := by
    rw [hd, step, hrate]
    field_simp
    ring
  have hfall := fall_mul_le h hT x rate
  rw [← hstep] at hfall
  -- the slope is positive and cancels on both sides
  have hexp : 1 - Real.exp (-(rate - x) * T) ≤ T * d := by
    have hcancel : fall ps x * (1 - Real.exp (-(rate - x) * T)) ≤ fall ps x * (T * d) := by
      linarith
    exact le_of_mul_le_mul_left hcancel hslope
  have hbound := le_add_sq (z := T * d) (u := (rate - x) * T)
    (by rwa [abs_mul, abs_of_pos hTpos]) (by rwa [← neg_mul])
  -- the rest is the quadratic bound of the exponential
  have hscaled : T * (rate - x) ≤ T * (d + T * d ^ 2) := by nlinarith
  have hfinal := le_of_mul_le_mul_left hscaled hTpos
  linarith

end Discount
