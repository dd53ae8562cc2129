import Mathlib.Data.List.TakeWhile
import OdinAnalytics.Native.FixedString

/-!
# Fixed strings and `std::string`

Operators among fixed strings go by the size, those with a `std::string` read up to the
first null character. This file says when they agree.

## Key results

- `chars_ofArgs`: the constructor concatenates its arguments, cut at the size
- `equal_iff`: comparison is by the characters
- `cString_eq_iff`: what is read up to the first null character is everything
- `agree_iff`: the strings for which all operators agree
-/

namespace Oa

open Machine

namespace FixedString

variable {n m : Nat} {s : FixedString n} {t : FixedString m}

/-- The characters of a fixed string, as many as its size says. -/
def chars (s : FixedString n) : Bytes := s.data.take n

/-- Behind the characters there is a NUL. -/
theorem data_eq (s : FixedString n) : s.data = s.chars ++ [0] := by
  have htake := List.take_append_drop n s.data
  have hdrop : s.data.drop n = [0] := by
    have hlen : (s.data.drop n).length = 1 := by simp [s.length_data]
    have hget : (s.data.drop n)[0]? = some 0 := by simpa using s.terminated
    obtain ⟨c, hc⟩ := List.length_eq_one_iff.mp hlen
    rw [hc] at hget ⊢
    simpa using hget
  rw [chars, ← hdrop, htake]

/-! ## Construction and concatenation -/

/-- The constructor concatenates the characters of its arguments, cut at the size. -/
theorem chars_ofArgs {args : List FixedStringInput}
    (h : n ≤ FixedStringInput.totalSize args) :
    (ofArgs n args h).chars = (args.flatMap FixedStringInput.chars).take n := by
  show (copyArgs n args ++ [0]).take n = _
  rw [List.take_left' (length_copyArgs h), copyArgs_eq]

/-- Two inputs in a row. -/
theorem chars_concat (s t : FixedStringInput) : (concat s t).chars = s.chars ++ t.chars := by
  have hlen : (s.chars ++ t.chars).length = s.fixedSize + t.fixedSize := by
    rw [List.length_append, s.length_chars, t.length_chars]
  have hchars : (concat s t).chars =
      ([s, t].flatMap FixedStringInput.chars).take (s.fixedSize + t.fixedSize) := chars_ofArgs _
  rw [hchars, List.flatMap_cons, List.flatMap_cons, List.flatMap_nil, List.append_nil, ← hlen,
    List.take_length]

/-- A sum has the characters of both. -/
theorem chars_add (s : FixedString n) (t : FixedString m) :
    (s.add t).chars = s.chars ++ t.chars :=
  chars_concat _ _

/-! ## Comparison -/

/-- The loop compares the characters one by one. -/
theorem equalLoop_iff {cs ds : Bytes} (h : cs.length = ds.length) :
    equalLoop cs ds = true ↔ cs = ds := by
  induction cs generalizing ds with
  | nil =>
    rw [List.length_eq_zero_iff.mp h.symm]
    exact iff_of_true rfl rfl
  | cons c cs ih =>
    cases ds with
    | nil => cases h
    | cons d ds =>
      rw [equalLoop, List.cons.injEq]
      -- the loop returns at the first difference
      split
      case isTrue hne => exact iff_of_false Bool.false_ne_true fun h => hne h.1
      case isFalse heq =>
        rw [ih (Nat.succ.inj h)]
        exact (and_iff_right (not_not.mp heq)).symm

/-- Inputs are compared by their characters. -/
theorem equal_iff (s t : FixedStringInput) : equal s t = true ↔ s.chars = t.chars := by
  unfold equal
  split
  case isTrue hsize =>
    refine iff_of_false Bool.false_ne_true fun h => hsize ?_
    rw [← s.length_chars, ← t.length_chars, h]
  case isFalse hsize =>
    refine equalLoop_iff ?_
    rw [s.length_chars, t.length_chars]
    exact not_not.mp hsize

/-- Strings are equal exactly if their characters are. -/
theorem eqFixed_iff : s.eqFixed t = true ↔ s.chars = t.chars :=
  equal_iff _ _

/-- Stream output appends the characters. -/
theorem write_inj {out : Bytes} : write out s = write out t ↔ s.chars = t.chars :=
  List.append_right_inj out

/-! ## Null-terminated strings -/

/-- What is read up to the first null character is everything, when there is none before
    the terminator. -/
theorem cString_eq_iff : s.cString = s.chars ↔ 0 ∉ s.chars := by
  constructor
  · intro h hmem
    -- a null character is never among those before the first one
    rw [← h] at hmem
    simpa using List.mem_takeWhile_imp hmem
  · intro h
    rw [cString, data_eq]
    exact takeWhile_ne h []

/-- The operators among fixed strings and those with the `std::string` of the same
    characters agree. -/
structure Agree (s : FixedString n) (t : FixedString m) : Prop where
  add : (s.add t).chars = s.chars ++ t.chars
  addString : s.addString t.chars = s.chars ++ t.chars
  stringAdd : stringAdd s.chars t = s.chars ++ t.chars
  eqString : s.eqFixed t = s.eqString t.chars
  write : s.eqFixed t = true ↔ ∀ out, write out s = write out t

/-- All operators agree for the strings without null characters. -/
theorem agree_iff (s : FixedString n) (t : FixedString m) :
    Agree s t ↔ 0 ∉ s.chars ∧ 0 ∉ t.chars := by
  rw [← cString_eq_iff, ← cString_eq_iff]
  constructor
  · -- where the operators agree, both strings are kept whole
    intro h
    exact ⟨List.append_cancel_right h.addString, List.append_cancel_left h.stringAdd⟩
  · intro h
    -- and strings without a zero are their own C strings
    obtain ⟨hs, ht⟩ := h
    refine ⟨chars_add s t, ?_, ?_, ?_, ?_⟩
    · rw [addString, hs]
    · rw [stringAdd, ht]
    · rw [eqString, hs, Bool.eq_iff_iff, eqFixed_iff, beq_iff_eq]
    · rw [eqFixed_iff]
      exact ⟨fun h out => write_inj.mpr h, fun h => write_inj.mp (h [])⟩

/-- A string with a null character in it, and one of a single character. -/
theorem not_agree :
    ¬ ∀ (n m : Nat) (s : FixedString n) (t : FixedString m), Agree s t := by
  intro h
  have hadd := (h 3 1 (ofArgs 3 [.array [97, 0, 98, 0]] (by decide))
    (ofArgs 1 [.array [99, 0]] (by decide))).addString
  exact absurd hadd (by decide)

end FixedString

end Oa
