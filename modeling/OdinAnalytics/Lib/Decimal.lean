import Mathlib.Algebra.Ring.Nat
import Mathlib.Data.List.Basic
import Mathlib.Data.List.TakeDrop
import Mathlib.Data.List.TakeWhile
import Mathlib.Data.Nat.Basic

/-!
# Decimal numerals in ASCII

Numbers written as ASCII digits: `repr` writes one, `value` reads one, and
`padded` fills one up with zeros on the left. `span_eq_iff` says what a scanner
finds that stops at the first character which is no digit.

## Key results

- `value_repr`, `value_padded`: what is written is read back
- `length_padded`: a field is exactly as wide as asked for, if the number fits
-/

namespace Decimal

/-- An ASCII digit. -/
def isDigit (c : UInt8) : Bool := 48 ≤ c && c ≤ 57

/-- The number that ASCII digits stand for, the most significant one first. -/
def value (ds : List UInt8) : ℕ := ds.foldl (fun v c => 10 * v + (c.toNat - 48)) 0

/-- The decimal digits of a number, without leading zeros. -/
def repr (n : ℕ) : List UInt8 := (Nat.toDigits 10 n).map fun c => UInt8.ofNat c.toNat

/-- The decimal digits of an integer, behind a minus sign if it is negative. -/
def reprInt (n : Int) : List UInt8 := if n < 0 then 45 :: repr n.natAbs else repr n.natAbs

/-- The decimal digits of a number, filled up to a width with leading zeros. -/
def padded (width n : ℕ) : List UInt8 := (repr n).leftpad width 48

/-! ## Digits -/

/-- The digits are the codes from 48 to 57. -/
theorem isDigit_iff {c : UInt8} : isDigit c = true ↔ 48 ≤ c.toNat ∧ c.toNat ≤ 57 := by
  simp [isDigit, UInt8.le_iff_toNat_le]

/-- A character of a numeral is a digit and keeps its code. -/
private theorem toNat_of_mem_toDigits {n : ℕ} {c : Char} (h : c ∈ Nat.toDigits 10 n) :
    48 ≤ c.toNat ∧ c.toNat ≤ 57 ∧ (UInt8.ofNat c.toNat).toNat = c.toNat := by
  have hd := Nat.isDigit_of_mem_toDigits (by decide) (by decide) h
  simp only [Char.isDigit, Bool.and_eq_true, decide_eq_true_eq, ge_iff_le, UInt32.le_iff_toNat_le]
    at hd
  have hlo : 48 ≤ c.toNat := hd.1
  have hhi : c.toNat ≤ 57 := hd.2
  refine ⟨hlo, hhi, ?_⟩
  rw [UInt8.toNat_ofNat']
  omega

/-- Only digits are printed for a natural number. -/
theorem isDigit_of_mem_repr {n : ℕ} {c : UInt8} (h : c ∈ repr n) : isDigit c = true := by
  obtain ⟨d, hd, rfl⟩ := List.mem_map.mp h
  obtain ⟨hlo, hhi, heq⟩ := toNat_of_mem_toDigits hd
  rw [isDigit_iff, heq]
  exact ⟨hlo, hhi⟩

/-- A number has at most `k` digits exactly if it is below the power of ten. -/
theorem length_repr_le_iff {n k : ℕ} (hk : 0 < k) : (repr n).length ≤ k ↔ n < 10 ^ k := by
  rw [repr, List.length_map]
  exact Nat.length_toDigits_le_iff (by decide) hk

/-! ## Reading -/

/-- Reading on from a number already read. -/
theorem foldl_digits (ds : List UInt8) (v : ℕ) :
    ds.foldl (fun v c => 10 * v + (c.toNat - 48)) v = 10 ^ ds.length * v + value ds := by
  unfold value
  induction ds generalizing v with
  | nil => simp
  | cons d ds ih =>
    rw [List.foldl_cons, List.foldl_cons, ih, ih (10 * 0 + _), List.length_cons, Nat.pow_succ]
    simp only [Nat.mul_add, Nat.mul_zero, Nat.zero_add, Nat.mul_assoc, Nat.add_assoc]

@[simp] theorem value_nil : value [] = 0 := rfl

/-- The first digit has the highest weight. -/
theorem value_cons (d : UInt8) (ds : List UInt8) :
    value (d :: ds) = 10 ^ ds.length * (d.toNat - 48) + value ds := by
  rw [value, List.foldl_cons, foldl_digits, Nat.mul_zero, Nat.zero_add]

/-- Digits in a row: those on the left weigh as much as there are others behind them. -/
theorem value_append (ds es : List UInt8) :
    value (ds ++ es) = 10 ^ es.length * value ds + value es := by
  rw [value, List.foldl_append, foldl_digits]
  rfl

/-- A number of so many digits is below the power of ten. -/
theorem value_lt {ds : List UInt8} (h : ∀ c ∈ ds, isDigit c = true) :
    value ds < 10 ^ ds.length := by
  induction ds with
  | nil => simp
  | cons d ds ih =>
    rw [List.forall_mem_cons] at h
    have hd := isDigit_iff.mp h.1
    have hds := ih h.2
    rw [value_cons, List.length_cons, Nat.pow_succ]
    -- the first digit is at most nine
    have hle : 10 ^ ds.length * (d.toNat - 48) ≤ 10 ^ ds.length * 9 := by
      apply Nat.mul_le_mul_left
      omega
    omega

/-- What is printed is read back. -/
theorem value_repr (n : ℕ) : value (repr n) = n := by
  have hfold : value (repr n) = Nat.ofDigitChars 10 (Nat.toDigits 10 n) 0 := by
    rw [value, repr, List.foldl_map, Nat.ofDigitChars_eq_foldl]
    apply List.foldl_ext
    intro v c hc
    rw [(toNat_of_mem_toDigits hc).2.2]
    rfl
  rw [hfold, Nat.ofDigitChars_ten_toDigits]

/-- No two numbers are printed alike. -/
theorem repr_injective : Function.Injective repr :=
  Function.LeftInverse.injective value_repr

/-! ## Signs -/

/-- A numeral of an integer is made of digits and a minus sign. -/
theorem isDigit_of_mem_reprInt {n : Int} {c : UInt8} (h : c ∈ reprInt n) :
    isDigit c = true ∨ c = 45 := by
  unfold reprInt at h
  split at h
  · rw [List.mem_cons] at h
    exact h.symm.imp_left isDigit_of_mem_repr
  · exact Or.inl (isDigit_of_mem_repr h)

/-- No two integers are printed alike. -/
theorem reprInt_injective : Function.Injective reprInt := by
  -- a minus sign is no digit
  have hsign : ∀ m n, repr m ≠ 45 :: repr n := by
    intro m n h
    exact absurd (isDigit_of_mem_repr (h ▸ List.mem_cons_self)) (by decide)
  intro m n h
  unfold reprInt at h
  split at h <;> split at h
  · rw [List.cons.injEq, repr_injective.eq_iff] at h
    omega
  · exact absurd h.symm (hsign _ _)
  · exact absurd h (hsign _ _)
  · rw [repr_injective.eq_iff] at h
    omega

/-! ## Leading zeros -/

/-- Padding adds nothing but digits. -/
theorem isDigit_of_mem_padded {w n : ℕ} {c : UInt8} (h : c ∈ padded w n) : isDigit c = true := by
  rw [padded, List.leftpad, List.mem_append, List.mem_replicate] at h
  rcases h with ⟨-, rfl⟩ | h
  · rfl
  · exact isDigit_of_mem_repr h

/-- A number that fits the width takes up just the width. -/
theorem length_padded {w n : ℕ} (hw : 0 < w) (hn : n < 10 ^ w) : (padded w n).length = w := by
  have hlen := (length_repr_le_iff hw).mpr hn
  rw [padded, List.length_leftpad]
  omega

/-- Padding does not change the value. -/
theorem value_padded (w n : ℕ) : value (padded w n) = n := by
  rw [padded, List.leftpad, value_append, value_repr]
  -- leading zeros add nothing
  have hzeros : ∀ k, value (List.replicate k 48) = 0 := by
    intro k
    induction k with
    | zero => rfl
    | succ k ih =>
      rw [List.replicate_succ, value_cons, ih]
      rfl
  rw [hzeros, Nat.mul_zero, Nat.zero_add]

/-- Leading zeros do not change the value. -/
theorem value_dropWhile (ds : List UInt8) : value (ds.dropWhile (· = 48)) = value ds := by
  induction ds with
  | nil => rfl
  | cons d ds ih =>
    rw [List.dropWhile_cons]
    split
    · next hd =>
      -- a leading zero adds nothing
      rw [ih, value_cons, of_decide_eq_true hd]
      simp
    · rfl

/-! ## Scanning -/

/-- A scanner splits a list where its predicate first fails. -/
theorem span_eq_iff {α : Type} {p : α → Bool} {l a b : List α} :
    l.span p = (a, b) ↔ l = a ++ b ∧ (∀ x ∈ a, p x = true) ∧ ∀ x ∈ b.head?, p x = false := by
  rw [List.span_eq_takeWhile_dropWhile, Prod.mk.injEq]
  constructor
  · rintro ⟨rfl, rfl⟩
    refine ⟨List.takeWhile_append_dropWhile.symm, fun x hx => List.mem_takeWhile_imp hx, ?_⟩
    intro x hx
    -- the rest starts with the first element that fails the test
    have hnot := List.head?_dropWhile_not p l
    rw [Option.mem_def.mp hx] at hnot
    simpa using hnot
  · rintro ⟨rfl, ha, hb⟩
    rw [List.takeWhile_append_of_pos ha, List.dropWhile_append_of_pos ha]
    -- the prefix passes throughout, so the scan stops where the rest begins
    cases b with
    | nil => simp
    | cons x b => simp [hb x rfl]

end Decimal
