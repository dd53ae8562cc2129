import Mathlib.Data.Int.ModEq
import Mathlib.Data.Nat.Bitwise
import Mathlib.Algebra.Order.Group.Unbundled.Int
import Mathlib.Algebra.Order.Ring.Abs
import Mathlib.Tactic.Linarith
import Mathlib.Tactic.Ring

/-!
# Collisions of the FNV-1 hash

A round multiplies the state by a prime modulo `m` and changes its low byte. Two runs
from one state differ by a number that has small digits to the base of the prime, so
they meet only if some such number is a multiple of `m`. Whether there is one is a
question about a lattice, which enough independent multiples with small coefficients
settle.

## Key results

- `hash_injective`: no collisions if no number with small digits is a multiple of `m`
- `dot_eq_zero`: a multiple of `m` with small coefficients is an equation
-/

namespace Fnv

/-! ## Rounds -/

/-- One round: multiply, then exclusive or with a byte. -/
def round (m p h b : Nat) : Nat := (h * p % m) ^^^ b

/-- The hash of a list of bytes, from a state on. -/
def hash (m p : Nat) (h : Nat) (bs : List Nat) : Nat := bs.foldl (round m p) h

/-- A byte changes a number by less than 256. -/
theorem abs_xor_sub_lt (x : Nat) {b : Nat} (hb : b < 256) :
    |((x ^^^ b : Nat) : Int) - x| < 256 := by
  have hdiv : (x ^^^ b) / 2 ^ 8 = x / 2 ^ 8 := by
    rw [Nat.xor_div_two_pow, Nat.div_eq_of_lt hb, Nat.xor_zero]
  rw [abs_lt]
  omega

/-! ## Numbers with given digits -/

/-- The number with these digits to the base `p`, after the number `d`. -/
def horner (p : Int) (d : Int) (es : List Int) : Int := es.foldl (fun d e => d * p + e) d

/-- One digit more, at the front. -/
theorem horner_cons (p d e : Int) (es : List Int) :
    horner p d (e :: es) = horner p (d * p + e) es := rfl

/-- Starting from a congruent number leads to a congruent number. -/
theorem horner_modEq {m d d' : Int} (p : Int) (h : d ≡ d' [ZMOD m]) (es : List Int) :
    horner p d es ≡ horner p d' es [ZMOD m] := by
  induction es generalizing d d' with
  | nil => exact h
  | cons e es ih => exact ih ((h.mul_right p).add_right e)

/-- Two runs over as many bytes differ by a number with small digits, up to a multiple of
    `m`. Runs from one state whose digits are all zero are over the same bytes. -/
theorem exists_digits (m p : Nat) {bs bs' : List Nat} (hlen : bs.length = bs'.length)
    (hbs : ∀ b ∈ bs, b < 256) (hbs' : ∀ b ∈ bs', b < 256) (h h' : Nat) :
    ∃ es : List Int, es.length = bs.length ∧ (∀ e ∈ es, |e| ≤ 510) ∧
      (hash m p h bs - hash m p h' bs' : Int) ≡ horner p (h - h') es [ZMOD m] ∧
      (h = h' → (∀ e ∈ es, e = 0) → bs = bs') := by
  induction bs generalizing bs' h h' with
  | nil =>
    obtain rfl := List.length_eq_zero_iff.mp hlen.symm
    exact ⟨[], rfl, by simp, Int.ModEq.refl _, fun _ _ => rfl⟩
  | cons b bs ih =>
    cases bs' with
    | nil => simp at hlen
    | cons b' bs' =>
      simp only [List.mem_cons, forall_eq_or_imp] at hbs hbs'
      obtain ⟨es, hes, hsmall, hdigits, hbytes⟩ := ih (Nat.succ.inj hlen) hbs.2 hbs'.2
        (round m p h b) (round m p h' b')
      -- the digit of this round: what the two bytes change
      have hx := abs_lt.mp (abs_xor_sub_lt (h * p % m) hbs.1)
      have hx' := abs_lt.mp (abs_xor_sub_lt (h' * p % m) hbs'.1)
      let e : Int := ((round m p h b : Int) - (h * p % m : Nat)) -
        ((round m p h' b' : Int) - (h' * p % m : Nat))
      refine ⟨e :: es, by simp [hes], ?_, ?_, ?_⟩
      · simp only [List.mem_cons, forall_eq_or_imp]
        refine ⟨?_, hsmall⟩
        rw [abs_le]
        unfold e round
        omega
      · refine hdigits.trans (horner_modEq p ?_ es)
        -- before the bytes, the difference was multiplied by the prime
        have hmul : ((h * p % m : Nat) - (h' * p % m : Nat) : Int) ≡ (h - h') * p [ZMOD m] := by
          rw [sub_mul]
          push_cast
          exact (Int.mod_modEq _ _).sub (Int.mod_modEq _ _)
        have hround : (round m p h b - round m p h' b' : Int) =
            ((h * p % m : Nat) - (h' * p % m : Nat) : Int) + e := by
          unfold e
          ring
        rw [hround]
        exact hmul.add_right e
      · intro heq hzero
        simp only [List.mem_cons, forall_eq_or_imp] at hzero
        subst heq
        have hround : round m p h b = round m p h b' := by
          have := hzero.1
          unfold e at this
          omega
        have hb : b = b' := Nat.xor_right_injective hround
        rw [hb, hbytes (by rw [hb]) hzero.2]

/-- No number with `n` small digits to the base `p` but zero is a multiple of `m`. -/
def Separates (m p n : Nat) : Prop :=
  ∀ es : List Int, es.length = n → (∀ e ∈ es, |e| ≤ 510) → horner p 0 es ≡ 0 [ZMOD m] →
    ∀ e ∈ es, e = 0

/-- Separated powers make a hash without collisions among lists of one length. -/
theorem hash_injective {m p n h : Nat} (hsep : Separates m p n) {bs bs' : List Nat}
    (hlen : bs.length = n) (hlen' : bs'.length = n) (hbs : ∀ b ∈ bs, b < 256)
    (hbs' : ∀ b ∈ bs', b < 256) (heq : hash m p h bs = hash m p h bs') : bs = bs' := by
  obtain ⟨es, hes, hsmall, hdigits, hbytes⟩ :=
    exists_digits m p (hlen.trans hlen'.symm) hbs hbs' h h
  have hzero : horner p 0 es ≡ 0 [ZMOD m] := by
    rw [heq, sub_self, sub_self] at hdigits
    exact hdigits.symm
  exact hbytes rfl (hsep es (hes.trans hlen) hsmall hzero)

/-! ## Multiples with small coefficients -/

/-- A sum with coefficients. -/
def dot : List Int → List Int → Int
  | c :: cs, e :: es => c * e + dot cs es
  | _, _ => 0

/-- The sum of the absolute values. -/
def norm : List Int → Int
  | [] => 0
  | c :: cs => |c| + norm cs

/-- The powers of a base below the `n`-th one, the highest one first. -/
def powers (p : Int) : Nat → List Int
  | 0 => []
  | n + 1 => p ^ n :: powers p n

/-- The digits of a number are the coefficients of powers. -/
theorem horner_eq_dot (p d : Int) (es : List Int) :
    horner p d es = d * p ^ es.length + dot (powers p es.length) es := by
  induction es generalizing d with
  | nil => simp [horner, dot, powers]
  | cons e es ih =>
    rw [horner_cons, ih, List.length_cons, powers, dot]
    ring

/-- Bounded factors make a bounded sum of products. -/
theorem abs_dot_le {B : Int} (hB : 0 ≤ B) {es : List Int} (hes : ∀ e ∈ es, |e| ≤ B)
    (cs : List Int) : |dot cs es| ≤ norm cs * B := by
  induction cs generalizing es with
  | nil => simp [dot, norm]
  | cons c cs ih =>
    -- a missing element counts as zero
    have hnorm : 0 ≤ norm cs * B := le_trans (abs_nonneg _) (ih (by simp) : |dot cs []| ≤ _)
    cases es with
    | nil =>
      simp only [dot, norm, abs_zero, add_mul]
      exact add_nonneg (mul_nonneg (abs_nonneg c) hB) hnorm
    | cons e es =>
      simp only [List.mem_cons, forall_eq_or_imp] at hes
      have hhead : |c * e| ≤ |c| * B := by
        rw [abs_mul]
        exact mul_le_mul_of_nonneg_left hes.1 (abs_nonneg c)
      rw [dot, norm, add_mul]
      exact (abs_add_le _ _).trans (add_le_add hhead (ih hes.2))

/-- A sum of products modulo `m`, factor by factor. -/
theorem dot_modEq {m k : Int} {cs gs : List Int}
    (h : List.Forall₂ (fun c g => c ≡ k * g [ZMOD m]) cs gs) (es : List Int) :
    dot cs es ≡ k * dot gs es [ZMOD m] := by
  induction h generalizing es with
  | nil => simp [dot]
  | @cons c g cs gs hcg hrest ih =>
    cases es with
    | nil => simp [dot]
    | cons e es =>
      simp only [dot, mul_add, ← mul_assoc]
      exact (hcg.mul_right e).add (ih es)

/-- A multiple of an equation modulo `m` is an equation, if its coefficients are small. -/
theorem dot_eq_zero {m k B : Int} (hB : 0 ≤ B) {cs gs es : List Int}
    (hcs : List.Forall₂ (fun c g => c ≡ k * g [ZMOD m]) cs gs) (hnorm : norm cs * B < m)
    (hes : ∀ e ∈ es, |e| ≤ B) (h : dot gs es ≡ 0 [ZMOD m]) : dot cs es = 0 := by
  have hdvd : m ∣ dot cs es := by
    have hmod := (dot_modEq hcs es).trans (h.mul_left k)
    rw [mul_zero] at hmod
    exact Int.modEq_zero_iff_dvd.mp hmod
  exact Int.eq_zero_of_abs_lt_dvd hdvd ((abs_dot_le hB hes cs).trans_lt hnorm)

end Fnv
