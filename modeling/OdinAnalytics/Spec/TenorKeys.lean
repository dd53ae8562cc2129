import OdinAnalytics.Lib.Fnv
import OdinAnalytics.Native.Tenor
import OdinAnalytics.Machine.Exec
import Mathlib.Data.List.Basic
import Mathlib.Data.Prod.Lex
import Mathlib.Tactic.LinearCombination

/-!
# Tenors as keys

A tenor can be a key of an ordered container and of a hashed one. `GroupLess` is a strict
total order whose ties are equal tenors. With 64-bit sizes the hash tells all tenors
apart: the five bytes that it reads are too few for the FNV prime to let two runs meet.
With 32-bit sizes it cannot.

## Key results

- `separates_bits64`: no number with five small digits is a multiple of `2^64`
- `Tenor.hash_eq_iff`: equal hashes are equal tenors
-/

namespace OA.Time

open Machine

/-! ## Counts -/

section Counts

variable {a b : Tenor}

/-- Shifting the count is undone by shifting it back. -/
theorem Tenor.subCount_addCount (ha : InInt32 a.count) {shift : Int}
    (h : a.addCount shift = .ok b) : b.subCount shift = .ok a := by
  obtain ⟨count, hcount, hb⟩ := bind_eq_ok.mp h
  obtain ⟨-, rfl⟩ := checked_eq_ok.mp hcount
  cases hb
  have hback : a.count + shift - shift = a.count := by omega
  rw [subCount, sub32, hback, checked_eq ha]
  rfl

/-- So is flipping the sign by flipping it again. -/
theorem Tenor.flipSign_flipSign (ha : InInt32 a.count) (h : a.flipSign = .ok b) :
    b.flipSign = .ok a := by
  obtain ⟨count, hcount, hb⟩ := bind_eq_ok.mp h
  obtain ⟨-, rfl⟩ := checked_eq_ok.mp hcount
  cases hb
  rw [flipSign, neg, neg32, neg_neg, checked_eq ha]
  rfl

end Counts

/-! ## The hash -/

/-- The bytes that the hash of a tenor reads. -/
def Tenor.hashedBytes (tenor : Tenor) : List Nat :=
  [(tenor.count % 256).toNat, (tenor.count / 256 % 256).toNat,
    (tenor.count / 256 / 256 % 256).toNat, (tenor.count / 256 / 256 / 256 % 256).toNat,
    tenor.unit.value]

/-- A unit is hashed as one byte. -/
theorem Tenors.value_lt (unit : Tenors) : unit.value < 256 := by
  cases unit <;> decide

/-- No two units have one value. -/
theorem Tenors.value_inj {unit unit' : Tenors} (h : unit.value = unit'.value) : unit = unit' := by
  cases unit <;> cases unit' <;> first | rfl | exact absurd h (by decide)

/-- The hash goes over the bytes of the count and the unit. -/
theorem Tenor.hash_eq (size : SizeType) (tenor : Tenor) :
    tenor.hash size = Fnv.hash size.modulus size.prime size.offset tenor.hashedBytes := by
  have hunit : ((tenor.unit.value : Int) % 256).toNat = tenor.unit.value := by
    have := tenor.unit.value_lt
    omega
  simp only [hash, hashCount, hashLowByte, hashedBytes, Fnv.hash, Fnv.round, List.foldl_cons,
    List.foldl_nil, hunit]

/-- What is hashed are bytes. -/
theorem Tenor.hashedBytes_lt (tenor : Tenor) : ∀ b ∈ tenor.hashedBytes, b < 256 := by
  have := tenor.unit.value_lt
  simp only [hashedBytes, List.mem_cons, List.not_mem_nil, or_false, forall_eq_or_imp, forall_eq]
  omega

/-- A number is told from its low byte and the rest. -/
theorem eq_of_low_byte {x y : Int} (hlow : (x % 256).toNat = (y % 256).toNat)
    (hhigh : x / 256 = y / 256) : x = y := by
  omega

/-- An `int` is told by its four bytes. -/
theorem Tenor.hashedBytes_inj {a b : Tenor} (ha : InInt32 a.count) (hb : InInt32 b.count)
    (h : a.hashedBytes = b.hashedBytes) : a = b := by
  obtain ⟨count, unit⟩ := a
  obtain ⟨count', unit'⟩ := b
  simp only [hashedBytes, List.cons.injEq, and_true] at h
  obtain ⟨h₀, h₁, h₂, h₃, hunit⟩ := h
  simp only [InInt32] at ha hb
  -- the highest byte first, which has the sign
  have h₃ : count / 256 / 256 / 256 = count' / 256 / 256 / 256 := by
    clear h₀ h₁ h₂
    omega
  have h₂ : count / 256 / 256 = count' / 256 / 256 := eq_of_low_byte h₂ h₃
  have h₁ : count / 256 = count' / 256 := eq_of_low_byte h₁ h₂
  rw [eq_of_low_byte h₀ h₁, Tenors.value_inj hunit]

/-- Five digits of at most 510 do not make a multiple of `2^64`. Each of the five equations
    is a multiple of the one at hand, with coefficients so small that it holds exactly. -/
theorem separates_bits64 : Fnv.Separates SizeType.bits64.modulus SizeType.bits64.prime 5 := by
  intro es hlen hsmall hzero
  rw [Fnv.horner_eq_dot, hlen, zero_mul, zero_add] at hzero
  have hdot : ∀ (k : Int) (cs : List Int),
      List.Forall₂ (fun c g => c ≡ k * g [ZMOD SizeType.bits64.modulus]) cs
        (Fnv.powers SizeType.bits64.prime 5) →
      Fnv.norm cs * 510 < SizeType.bits64.modulus → Fnv.dot cs es = 0 := by
    intro k cs hcs hnorm
    exact Fnv.dot_eq_zero (by decide) hcs hnorm hsmall hzero
  have h₁ := hdot 99714494064542
    [-1264951109371778, 828873876634250, -776068528819634, 483856318534010,
      99714494064542] (by decide) (by decide)
  have h₂ := hdot (-492337503210218)
    [-332808740996746, 75786207857074, 1365150925308550, -1066067270667166,
      -492337503210218] (by decide) (by decide)
  have h₃ := hdot (-1943876159160156)
    [683920695004388, 1261061537293708, 785680497854020, 1270920617940652,
      -1943876159160156] (by decide) (by decide)
  have h₄ := hdot (-1563393562940081)
    [-796977101541953, -1558530804324923, -2249334065361241, -790219657528003,
      -1563393562940081] (by decide) (by decide)
  have h₅ := hdot 384096391768546
    [2728029415092482, 3201522895468022, -1252609729520846, -1273091002488058,
      384096391768546] (by decide) (by decide)
  obtain ⟨a, es, rfl⟩ := List.exists_cons_of_length_eq_add_one hlen
  obtain ⟨b, c, d, e, rfl⟩ := List.length_eq_four.mp (Nat.succ.inj hlen)
  simp only [Fnv.dot, add_zero] at h₁ h₂ h₃ h₄ h₅
  -- the inverse of the coefficients, times the modulus
  have ha : 18446744073709551616 * a = 0 := by
    linear_combination -8767 * h₁ - 4459 * h₂ + 1225 * h₃ - 242 * h₄ + 1775 * h₅
  have hb : 18446744073709551616 * b = 0 := by
    linear_combination 6702 * h₁ + 2786 * h₂ + 1431 * h₃ - 1584 * h₄ + 2626 * h₅
  have hc : 18446744073709551616 * c = 0 := by
    linear_combination -2065 * h₁ + 4738 * h₂ + 1060 * h₃ - 3340 * h₄ - 1621 * h₅
  have hd : 18446744073709551616 * d = 0 := by
    linear_combination 285 * h₁ - 8173 * h₂ + 3559 * h₃ - 2440 * h₄ - 2470 * h₅
  have he : 18446744073709551616 * e = 0 := by
    linear_combination 615 * h₁ - 3190 * h₂ - 5375 * h₃ - 4058 * h₄ + 58 * h₅
  clear h₁ h₂ h₃ h₄ h₅ hdot hzero hsmall
  simp only [List.mem_cons, List.not_mem_nil, or_false, forall_eq_or_imp, forall_eq]
  omega

/-- With 64-bit sizes, tenors that have one hash are equal. -/
theorem Tenor.hash_inj {a b : Tenor} (ha : InInt32 a.count) (hb : InInt32 b.count)
    (h : a.hash .bits64 = b.hash .bits64) : a = b := by
  rw [hash_eq, hash_eq] at h
  exact hashedBytes_inj ha hb
    (Fnv.hash_injective separates_bits64 rfl rfl a.hashedBytes_lt b.hashedBytes_lt h)

/-- With 32-bit sizes there are more tenors than hashes. -/
example : (Tenor.mk 2091 .kDays).hash .bits32 = (Tenor.mk (-207757) .kYears).hash .bits32 := by
  decide

/-! ## The order -/

/-- No two units have one rank. -/
theorem Tenors.rank_inj {unit unit' : Tenors} (h : unit.rank = unit'.rank) : unit = unit' := by
  cases unit <;> cases unit' <;> first | rfl | exact absurd h (by decide)

/-- The order is that of the pairs of a rank and a count. -/
theorem Tenor.groupLess_iff {a b : Tenor} :
    a.groupLess b ↔ toLex (a.unit.rank, a.count) < toLex (b.unit.rank, b.count) := by
  rw [Prod.Lex.toLex_lt_toLex, groupLess]
  split
  · simp [*]
  · simp only [decide_eq_true_eq]
    omega

/-- `GroupLess` is a strict total order, as `std::map` and `std::set` ask for. -/
instance Tenor.groupLess_isStrictTotalOrder :
    IsStrictTotalOrder Tenor fun a b => a.groupLess b = true where
  irrefl a := by
    rw [groupLess_iff]
    exact lt_irrefl _
  trans a b c := by
    simp only [groupLess_iff]
    exact lt_trans
  trichotomous a b hab hba := by
    rw [groupLess_iff, not_lt] at hab hba
    obtain ⟨hrank, hcount⟩ := Prod.mk.inj (toLex_inj.mp (le_antisymm hba hab))
    have hunit := Tenors.rank_inj hrank
    cases a
    cases b
    rw [Tenor.mk.injEq]
    exact ⟨hcount, hunit⟩

/-- An ordered container and a hashed one tell apart the same tenors as `==` does. -/
theorem Tenor.sameKey_iff {a b : Tenor} (ha : InInt32 a.count) (hb : InInt32 b.count) :
    (a.groupLess b = false ∧ b.groupLess a = false ↔ a = b) ∧
      (a.hash .bits64 = b.hash .bits64 ↔ a = b) := by
  constructor
  · constructor
    · -- a strict total order leaves equality where neither is before the other
      intro ⟨hab, hba⟩
      exact Tenor.groupLess_isStrictTotalOrder.trichotomous a b (by simp [hab]) (by simp [hba])
    · intro h
      have hirrefl := Tenor.groupLess_isStrictTotalOrder.irrefl b
      simp only [Bool.not_eq_true] at hirrefl
      rw [h]
      exact ⟨hirrefl, hirrefl⟩
  · constructor
    · -- the hash is injective on counts that are `int`s
      exact hash_inj ha hb
    · intro h
      rw [h]

/-- Seven days are no week. -/
theorem Tenor.sameKey_iff_week :
    (Tenor.mk 7 .kDays).hash .bits64 ≠ (Tenor.mk 1 .kWeeks).hash .bits64 := by
  intro h
  have hkey := (sameKey_iff (a := ⟨7, .kDays⟩) (b := ⟨1, .kWeeks⟩) (by decide) (by decide)).2.mp h
  cases hkey

end OA.Time
