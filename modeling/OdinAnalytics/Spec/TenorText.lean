import OdinAnalytics.Native.Tenor
import Mathlib.Data.List.TakeWhile

/-!
# Tenors as text, read and written

Three places decide what is a tenor: the pattern of `checkTenorStr`, the range check
of `stoi` and the cast of the letter to a unit. Together they accept a sign, digits
and a letter, if the number fits in an `int`.

## Key results

- `ofString_spec`: the accepted texts, their tenors, and that printing is undone
-/

namespace OA.Time

open Machine

/-! ## The grammar -/

/-- The letters that stand for a unit. -/
def IsUnitLetter (letter : Char) : Prop := letter ∈ ['Y', 'M', 'W', 'D', 'y', 'm', 'w', 'd']

/-- A text of digits and a letter behind an optional minus sign, with the number that
    the digits stand for. -/
def HasTenorForm (s : String) (count : Int) (letter : Char) : Prop :=
  ∃ sign digits, s.toList = sign ++ digits ++ [letter] ∧ IsUnitLetter letter ∧ digits ≠ [] ∧
    (∀ c ∈ digits, c.isDigit = true) ∧
    (sign = [] ∧ count = Nat.ofDigitChars 10 digits 0 ∨
      sign = ['-'] ∧ count = -Nat.ofDigitChars 10 digits 0)

/-- The letters of the units, small and large. -/
theorem isUnitLetter_iff {letter : Char} :
    IsUnitLetter letter ↔ "YMDWymdw".toList.contains letter = true := by
  rw [List.contains_iff_mem]
  unfold IsUnitLetter
  rw [show "YMDWymdw".toList = ['Y', 'M', 'D', 'W', 'y', 'm', 'd', 'w'] by decide]
  simp only [List.mem_cons, List.not_mem_nil, or_false]
  tauto

/-- Before the last two characters, the pattern reads a digit at a time. -/
private theorem matchesCountUnit_cons {digit : Char} {cs : List Char} (h : 2 ≤ cs.length) :
    matchesCountUnit (digit :: cs) = (digit.isDigit && matchesCountUnit cs) := by
  match cs with
  | _ :: _ :: _ => rfl

/-- Digits and a letter of a unit match. -/
theorem matchesCountUnit_append {digits : List Char} {letter : Char} (hne : digits ≠ [])
    (hdigits : ∀ c ∈ digits, c.isDigit = true) (hletter : IsUnitLetter letter) :
    matchesCountUnit (digits ++ [letter]) = true := by
  induction digits with
  | nil => exact absurd rfl hne
  | cons digit digits ih =>
    rw [List.forall_mem_cons] at hdigits
    rcases eq_or_ne digits [] with rfl | hne'
    · exact Bool.and_eq_true_iff.mpr ⟨hdigits.1, isUnitLetter_iff.mp hletter⟩
    · have hpos := List.length_pos_iff.mpr hne'
      rw [List.cons_append, matchesCountUnit_cons (by simp; omega), hdigits.1, ih hne' hdigits.2]
      rfl

/-- Nothing but digits and a letter of a unit matches. -/
theorem exists_of_matchesCountUnit {cs : List Char} (h : matchesCountUnit cs = true) :
    ∃ digits letter, cs = digits ++ [letter] ∧ IsUnitLetter letter ∧ digits ≠ [] ∧
      ∀ c ∈ digits, c.isDigit = true := by
  fun_induction matchesCountUnit cs with
  | case1 => exact nomatch h
  -- the last digit and the unit's letter
  | case2 digit unit =>
    rw [Bool.and_eq_true, ← isUnitLetter_iff] at h
    exact ⟨[digit], unit, rfl, h.2, List.cons_ne_nil _ _, by simpa using h.1⟩
  | case3 digit cs _ ih =>
    rw [Bool.and_eq_true] at h
    obtain ⟨digits, letter, rfl, hletter, -, hdigits⟩ := ih h.2
    exact ⟨digit :: digits, letter, rfl, hletter, List.cons_ne_nil _ _,
      List.forall_mem_cons.mpr ⟨h.1, hdigits⟩⟩

/-- The text that `checkTenorStr` accepts has the form. -/
theorem exists_of_checkTenorStr {s : String} (h : checkTenorStr s = true) :
    ∃ count letter, HasTenorForm s count letter := by
  unfold checkTenorStr at h
  split at h
  · next cs heq =>
    obtain ⟨digits, letter, rfl, hrest⟩ := exists_of_matchesCountUnit h
    exact ⟨_, letter, ['-'], digits, heq, hrest.1, hrest.2.1, hrest.2.2, Or.inr ⟨rfl, rfl⟩⟩
  · obtain ⟨digits, letter, heq, hrest⟩ := exists_of_matchesCountUnit h
    exact ⟨_, letter, [], digits, heq, hrest.1, hrest.2.1, hrest.2.2, Or.inl ⟨rfl, rfl⟩⟩

/-! ## Reading -/

/-- The value of decimal digits. -/
theorem digitsValue_eq (digits : List Char) :
    digitsValue digits = (Nat.ofDigitChars 10 digits 0 : ℕ) := by
  -- from any value already read
  have hfold : ∀ v : ℕ, digits.foldl
      (fun (value : Int) c => 10 * value + (c.toNat - '0'.toNat : ℕ)) v =
      (Nat.ofDigitChars 10 digits v : ℕ) := by
    induction digits with
    | nil =>
      intro v
      rw [Nat.ofDigitChars_nil, List.foldl_nil]
    | cons c digits ih =>
      intro v
      rw [List.foldl_cons, Nat.ofDigitChars_cons, ← ih]
      push_cast
      rfl
  exact hfold 0

/-- A digit is no sign. -/
theorem splitSign_digits {digits : List Char} (hne : digits ≠ [])
    (h : ∀ c ∈ digits, c.isDigit = true) : splitSign digits = (1, digits) := by
  unfold splitSign
  split
  · exact absurd (h '-' (List.mem_cons_self ..)) (by decide)
  · exact absurd (h '+' (List.mem_cons_self ..)) (by decide)
  · rfl

section Form

variable {s : String} {count : Int} {letter : Char}

/-- The texts of tenors are accepted by the regular expression. -/
theorem HasTenorForm.checkTenorStr_eq (h : HasTenorForm s count letter) :
    checkTenorStr s = true := by
  obtain ⟨sign, digits, heq, hletter, hne, hdigits, hsign⟩ := h
  have hmatch := matchesCountUnit_append hne hdigits hletter
  unfold checkTenorStr
  rw [heq]
  rcases hsign with ⟨rfl, -⟩ | ⟨rfl, -⟩
  · -- a digit comes first, which is no minus sign
    obtain ⟨digit, digits, rfl⟩ := List.exists_cons_of_ne_nil hne
    have hdigit := hdigits digit (List.mem_cons_self ..)
    split
    · next hminus =>
      obtain rfl : digit = '-' := by simpa using (List.cons.inj hminus).1
      exact absurd hdigit (by decide)
    · exact hmatch
  · -- the minus sign is taken off before the match
    exact hmatch

/-- The count is read if an `int` holds it. -/
theorem HasTenorForm.stoi_eq (h : HasTenorForm s count letter) : stoi s.toList.dropLast =
    if InInt32 count then .ok count else .error (.throws .outOfRange) := by
  obtain ⟨sign, digits, heq, hletter, hne, hdigits, hsign⟩ := h
  have hall : digits.takeWhile Char.isDigit = digits := List.takeWhile_eq_self_iff.mpr hdigits
  rw [heq, List.dropLast_concat]
  unfold stoi
  rcases hsign with ⟨rfl, rfl⟩ | ⟨rfl, rfl⟩
  · rw [List.nil_append, splitSign_digits hne hdigits]
    simp only [hall, digitsValue_eq, if_neg hne, Int.one_mul]
  · simp only [List.singleton_append, splitSign, hall, digitsValue_eq, if_neg hne, Int.neg_one_mul]

/-- A letter of a unit is mapped to its unit. -/
theorem IsUnitLetter.valueToTenors_eq (h : IsUnitLetter letter) :
    ∃ unit, valueToTenors letter.toUpper = .ok unit ∧ unit.value = letter.toUpper.toNat := by
  simp only [IsUnitLetter, List.mem_cons, List.not_mem_nil, or_false] at h
  -- four letters, in capitals and small
  rcases h with rfl | rfl | rfl | rfl | rfl | rfl | rfl | rfl
  · exact ⟨.kYears, rfl, rfl⟩
  · exact ⟨.kMonths, rfl, rfl⟩
  · exact ⟨.kWeeks, rfl, rfl⟩
  · exact ⟨.kDays, rfl, rfl⟩
  · exact ⟨.kYears, rfl, rfl⟩
  · exact ⟨.kMonths, rfl, rfl⟩
  · exact ⟨.kWeeks, rfl, rfl⟩
  · exact ⟨.kDays, rfl, rfl⟩

/-- The texts of tenors construct them, if the count is an `int`. -/
theorem HasTenorForm.ofString_eq (h : HasTenorForm s count letter) :
    ∃ unit : Tenors, unit.value = letter.toUpper.toNat ∧ Tenor.ofString s =
      if InInt32 count then .ok ⟨count, unit⟩ else .error (.throws .outOfRange) := by
  have hstoi := h.stoi_eq
  have hcheck := h.checkTenorStr_eq
  obtain ⟨sign, digits, heq, hletter, -⟩ := h
  obtain ⟨unit, hunit, hvalue⟩ := hletter.valueToTenors_eq
  -- the letter comes last, and all before it is the count
  have hlast : s.toList.getLast? = some letter := by
    rw [heq, List.getLast?_concat]
  refine ⟨unit, hvalue, ?_⟩
  unfold Tenor.ofString
  rw [if_pos hcheck, hlast]
  simp only [hstoi, hunit]
  split
  · rfl
  · rfl

end Form

/-! ## Printing -/

/-- No two units have one value. -/
theorem Tenors.value_injective : Function.Injective Tenors.value := by
  rintro (_ | _ | _ | _) (_ | _ | _ | _) h <;> first | rfl | exact absurd h (by decide)

/-- The letter that is printed for a unit, at the offset to the lower case. -/
theorem Tenors.letter_eq (unit : Tenors) : IsUnitLetter (Char.ofNat (unit.value + 32)) ∧
    (Char.ofNat (unit.value + 32)).toUpper.toNat = unit.value := by
  unfold IsUnitLetter
  cases unit with
  | kDays => decide
  | kWeeks => decide
  | kMonths => decide
  | kYears => decide

/-- What is printed has the form of a tenor. -/
theorem hasTenorForm_print (count : Int) (unit : Tenors) :
    HasTenorForm (Tenor.print ⟨count, unit⟩) count (Char.ofNat (unit.value + 32)) := by
  have hdigits : ∀ n : ℕ, ∀ c ∈ Nat.toDigits 10 n, c.isDigit = true := fun n c hc =>
    Nat.isDigit_of_mem_toDigits (by decide) (by decide) hc
  have hne : ∀ n : ℕ, Nat.toDigits 10 n ≠ [] := fun n => Nat.toDigits_ne_nil
  unfold Tenor.print
  rw [Int.toString_eq_repr, Int.repr_eq_if]
  simp only
  -- with a minus sign for a negative count
  split
  · next hnonneg =>
    refine ⟨[], _, ?_, unit.letter_eq.1, hne count.toNat, hdigits _, Or.inl ⟨rfl, ?_⟩⟩
    · simp
    · rw [Nat.ofDigitChars_ten_toDigits]
      omega
  · next hneg =>
    refine ⟨['-'], _, ?_, unit.letter_eq.1, hne (-count).toNat, hdigits _, Or.inr ⟨rfl, ?_⟩⟩
    · simp
    · rw [Nat.ofDigitChars_ten_toDigits]
      omega

/-- A tenor is read from a minus sign or none, digits and a letter in either case, if the
    number fits in an `int`, and what is printed for a tenor is read back. -/
theorem ofString_spec :
    (∀ s, (∃ t, Tenor.ofString s = .ok t) ↔
      ∃ count letter, HasTenorForm s count letter ∧ InInt32 count) ∧
    (∀ s count letter t, HasTenorForm s count letter → Tenor.ofString s = .ok t →
      t.count = count ∧ t.unit.value = letter.toUpper.toNat) ∧
    (∀ count unit, InInt32 count →
      Tenor.ofString (Tenor.print ⟨count, unit⟩) = .ok ⟨count, unit⟩) := by
  refine ⟨fun s => ⟨?_, ?_⟩, ?_, ?_⟩
  · rintro ⟨t, ht⟩
    -- an accepted text has the form, and its count fits
    by_cases hcheck : checkTenorStr s = true
    · obtain ⟨count, letter, hform⟩ := exists_of_checkTenorStr hcheck
      obtain ⟨unit, -, heq⟩ := hform.ofString_eq
      refine ⟨count, letter, hform, ?_⟩
      by_contra hout
      rw [heq, if_neg hout] at ht
      exact nomatch ht
    · unfold Tenor.ofString at ht
      rw [if_neg hcheck] at ht
      exact nomatch ht
  · rintro ⟨count, letter, hform, hin⟩
    obtain ⟨unit, -, heq⟩ := hform.ofString_eq
    exact ⟨⟨count, unit⟩, by rw [heq, if_pos hin]⟩
  · intro s count letter t hform ht
    obtain ⟨unit, hvalue, heq⟩ := hform.ofString_eq
    rw [heq] at ht
    split at ht
    · obtain rfl := Except.ok.inj ht
      exact ⟨rfl, hvalue⟩
    · exact nomatch ht
  · -- the printed tenor has the form, with the unit's own letter
    intro count unit hin
    obtain ⟨unit', hvalue, heq⟩ := (hasTenorForm_print count unit).ofString_eq
    obtain rfl : unit' = unit := Tenors.value_injective (hvalue.trans unit.letter_eq.2)
    rw [heq, if_pos hin]

end OA.Time
