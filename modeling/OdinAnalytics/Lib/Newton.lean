import Mathlib.Algebra.Order.Archimedean.Basic
import Mathlib.Algebra.Order.Field.Basic
import Mathlib.Tactic.Linarith
import Mathlib.Tactic.FieldSimp

/-!
# Newton's method on a falling convex function

A function that falls and lies above its tangents is brought down to zero from the left:
wherever a step starts, it does not go beyond a point where the function is no longer
positive, and from there on the steps go up. So they get short, and the method stops.

## Key results

- `Falling.step_le`, `Falling.le_step`: where a step goes
- `Falling.stepsLeft_lt`: after a long step there are fewer of them left
-/

namespace Newton

variable {F : Type} [Field F] [LinearOrder F] [IsStrictOrderedRing F] {f g : F → F}

/-- `f` falls with the slope `-g` and lies above its tangents. -/
structure Falling (f g : F → F) : Prop where
  slope_pos : ∀ x, 0 < g x
  tangent : ∀ x y, f x - g x * (y - x) ≤ f y

/-- Where the tangent at a point is zero. -/
def step (f g : F → F) (x : F) : F := x + f x / g x

namespace Falling

variable (h : Falling f g) {x b threshold : F}

include h

/-- A step does not go past the root. -/
theorem step_nonneg (x : F) : 0 ≤ f (step f g x) := by
  -- the function is above its tangent, which is zero there
  have htangent := h.tangent x (step f g x)
  have hzero : g x * (step f g x - x) = f x := by
    have := (h.slope_pos x).ne'
    unfold step
    field_simp
    ring
  linarith

/-- A step goes on from where the function is not negative. -/
theorem le_step (hx : 0 ≤ f x) : x ≤ step f g x := by
  have := div_nonneg hx (h.slope_pos x).le
  unfold step
  linarith

/-- A point where `f` is positive lies before one where it is not. -/
theorem le_of_nonpos (hx : 0 ≤ f x) (hb : f b ≤ 0) : x ≤ b := by
  by_contra hlt
  have htangent := h.tangent x b
  have := mul_neg_of_pos_of_neg (h.slope_pos x) (by linarith : b - x < 0)
  linarith

/-- No step goes beyond a point where `f` is no longer positive. -/
theorem step_le (hb : f b ≤ 0) (x : F) : step f g x ≤ b := h.le_of_nonpos (h.step_nonneg x) hb

/-- There is one zero at most. -/
theorem zero_unique (hx : f x = 0) (hb : f b = 0) : x = b :=
  le_antisymm (h.le_of_nonpos hx.ge hb.le) (h.le_of_nonpos hb.ge hx.le)

end Falling

section Steps

variable [FloorSemiring F]

/-- How many steps that are longer than a threshold fit before a point. -/
def stepsLeft (threshold b x : F) : Nat := ⌈(b - x) / threshold⌉₊

/-- A long step leaves fewer of them. -/
theorem Falling.stepsLeft_lt (h : Falling f g) {x b threshold : F} (hb : f b ≤ 0)
    (hx : 0 ≤ f x) (hthreshold : 0 < threshold) (hlong : threshold < |step f g x - x|) :
    stepsLeft threshold b (step f g x) < stepsLeft threshold b x := by
  have hstep := h.step_le hb x
  rw [abs_of_nonneg (by linarith [h.le_step hx])] at hlong
  -- a step longer than the threshold takes at least one unit off the distance
  have hleft : (b - step f g x) / threshold + 1 ≤ (b - x) / threshold := by
    rw [div_add_one hthreshold.ne', div_le_div_iff_of_pos_right hthreshold]
    linarith
  have hnonneg : 0 ≤ (b - step f g x) / threshold := by
    apply div_nonneg _ hthreshold.le
    linarith
  unfold stepsLeft
  calc ⌈(b - step f g x) / threshold⌉₊ < ⌈(b - step f g x) / threshold⌉₊ + 1 := Nat.lt_succ_self _
    _ = ⌈(b - step f g x) / threshold + 1⌉₊ := (Nat.ceil_add_one hnonneg).symm
    _ ≤ ⌈(b - x) / threshold⌉₊ := Nat.ceil_mono hleft

end Steps

end Newton
