import OdinAnalytics.Native.DateCheck
import OdinAnalytics.Spec.DateTextCorrect

/-!
# Two checks of the text of a date

`CheckDateStr` looks at the text of a date, the constructor of `Date` at the date as well. The
constructor accepts the texts that pass the check whose delimiters are the same and whose
month has the day.

## Key results

- `checkDateStr_iff`: the texts that pass the check
- `ofText_iff_checkDateStr`: those that the constructor accepts
-/

namespace OA.Time

open Machine RegularExpression Decimal Date

/-! ## Classes of characters -/

/-- A class matches each of its characters. -/
theorem anyOf_rmatch_iff {cs x : Bytes} : (anyOf cs).rmatch x ↔ ∃ c ∈ cs, x = [c] := by
  induction cs with
  | nil => simp [anyOf]
  | cons c cs ih =>
    have hcons : anyOf (c :: cs) = char c + anyOf cs := rfl
    rw [hcons, add_rmatch_iff, char_rmatch_iff, ih]
    simp

/-- A range matches the characters between its ends. -/
theorem between_rmatch_iff {lo hi : UInt8} {x : Bytes} : (between lo hi).rmatch x ↔
    ∃ c : UInt8, (lo.toNat ≤ c.toNat ∧ c.toNat ≤ hi.toNat) ∧ x = [c] := by
  -- the characters of the class are those of the range
  have hmem : ∀ c : UInt8, c ∈ (List.range' lo.toNat (hi.toNat + 1 - lo.toNat)).map UInt8.ofNat ↔
      lo.toNat ≤ c.toNat ∧ c.toNat ≤ hi.toNat := by
    intro c
    have hhi := hi.toNat_lt
    rw [List.mem_map]
    constructor
    · rintro ⟨k, hk, rfl⟩
      rw [List.mem_range'_1] at hk
      rw [UInt8.toNat_ofNat']
      omega
    · rintro ⟨hlo, hle⟩
      refine ⟨c.toNat, ?_, UInt8.ofNat_toNat⟩
      rw [List.mem_range'_1]
      omega
  rw [between, anyOf_rmatch_iff]
  simp only [hmem]

/-- A character matches itself. -/
theorem char_rmatch_iff_toNat {a : UInt8} {x : Bytes} :
    (char a).rmatch x ↔ ∃ c : UInt8, c.toNat = a.toNat ∧ x = [c] := by
  rw [char_rmatch_iff]
  simp [UInt8.toNat_inj]

/-- The class of delimiters matches the delimiters of the scanner. -/
theorem delimClass_rmatch_iff {x : Bytes} :
    delimClass.rmatch x ↔ ∃ c, isDelim c = true ∧ x = [c] := by
  rw [delimClass, anyOf_rmatch_iff]
  simp [isDelim, or_assoc, or_left_comm]

/-- One character of a kind after another. -/
theorem mul_rmatch_iff_of_single {p q : RegularExpression UInt8} {P Q : UInt8 → Prop} {x : Bytes}
    (hp : ∀ {x}, p.rmatch x ↔ ∃ c, P c ∧ x = [c]) (hq : ∀ {x}, q.rmatch x ↔ ∃ c, Q c ∧ x = [c]) :
    (p * q).rmatch x ↔ ∃ c d, (P c ∧ Q d) ∧ x = [c, d] := by
  rw [mul_rmatch_iff]
  constructor
  · rintro ⟨t, u, rfl, ht, hu⟩
    obtain ⟨c, hc, rfl⟩ := hp.mp ht
    obtain ⟨d, hd, rfl⟩ := hq.mp hu
    exact ⟨c, d, ⟨hc, hd⟩, rfl⟩
  · rintro ⟨c, d, ⟨hc, hd⟩, rfl⟩
    exact ⟨[c], [d], rfl, hp.mpr ⟨c, hc, rfl⟩, hq.mpr ⟨d, hd, rfl⟩⟩

/-- A character that may be left out. -/
theorem optional_mul_rmatch_iff {p q : RegularExpression UInt8} {x : Bytes} :
    (optional p * q).rmatch x ↔ q.rmatch x ∨ (p * q).rmatch x := by
  rw [mul_rmatch_iff, mul_rmatch_iff]
  constructor
  · rintro ⟨t, u, rfl, ht, hu⟩
    rw [optional, add_rmatch_iff, one_rmatch_iff] at ht
    -- the optional part is left out, or it is there
    rcases ht with rfl | ht
    · exact Or.inl hu
    · exact Or.inr ⟨t, u, rfl, ht, hu⟩
  · rintro (hu | ⟨t, u, rfl, ht, hu⟩)
    · exact ⟨[], x, rfl, (add_rmatch_iff ..).mpr (Or.inl ((one_rmatch_iff _).mpr rfl)), hu⟩
    · exact ⟨t, u, rfl, (add_rmatch_iff ..).mpr (Or.inr ht), hu⟩

/-! ## Fields -/

/-- A field of one or two digits, written out. -/
theorem exists_field_iff {x : Bytes} {P : Int → Prop} : (∃ v, Field 1 2 x v ∧ P v) ↔
    (∃ c : UInt8, ((48 ≤ c.toNat ∧ c.toNat ≤ 57) ∧ P (c.toNat - 48)) ∧ x = [c]) ∨
      ∃ c d : UInt8, ((48 ≤ c.toNat ∧ c.toNat ≤ 57) ∧ (48 ≤ d.toNat ∧ d.toNat ≤ 57) ∧
        P (10 * (c.toNat - 48) + (d.toNat - 48))) ∧ x = [c, d] := by
  -- the values of one and of two digits
  have hone : ∀ {c : UInt8}, 48 ≤ c.toNat → ((value [c] : ℕ) : Int) = c.toNat - 48 := by
    intro c hc
    rw [value_cons, value_nil]
    simp
    omega
  have htwo : ∀ {c d : UInt8}, 48 ≤ c.toNat → 48 ≤ d.toNat →
      ((value [c, d] : ℕ) : Int) = 10 * (c.toNat - 48) + (d.toNat - 48) := by
    intro c d hc hd
    rw [value_cons, value_cons, value_nil]
    simp
    omega
  constructor
  · rintro ⟨v, hfield, hv⟩
    have hdigits := hfield.digits
    -- a field has one or two characters
    match x, hfield with
    | [], hfield => exact absurd hfield.lo_le (by simp)
    | [c], hfield =>
      have hc := isDigit_iff.mp (hdigits c (by simp))
      rw [hfield.value_eq, hone hc.1] at hv
      exact Or.inl ⟨c, ⟨hc, hv⟩, rfl⟩
    | [c, d], hfield =>
      have hc := isDigit_iff.mp (hdigits c (by simp))
      have hd := isDigit_iff.mp (hdigits d (by simp))
      rw [hfield.value_eq, htwo hc.1 hd.1] at hv
      exact Or.inr ⟨c, d, ⟨hc, hd, hv⟩, rfl⟩
    | c :: d :: e :: rest, hfield => exact absurd hfield.le_hi (by simp)
  · rintro (⟨c, ⟨hc, hv⟩, rfl⟩ | ⟨c, d, ⟨hc, hd, hv⟩, rfl⟩)
    · refine ⟨_, ⟨?_, by simp, by simp, rfl⟩, by rwa [hone hc.1]⟩
      simpa using isDigit_iff.mpr hc
    · refine ⟨_, ⟨?_, by simp, by simp, rfl⟩, by rwa [htwo hc.1 hd.1]⟩
      simpa using ⟨isDigit_iff.mpr hc, isDigit_iff.mpr hd⟩

/-- The pattern of months matches the numbers from 1 to 12, of one or two digits. -/
theorem monthPattern_rmatch_iff {x : Bytes} :
    monthPattern.rmatch x ↔ ∃ m, Field 1 2 x m ∧ 1 ≤ m ∧ m ≤ 12 := by
  -- the pattern as conditions on the codes of one or two characters
  rw [monthPattern, add_rmatch_iff, optional_mul_rmatch_iff, between_rmatch_iff,
    mul_rmatch_iff_of_single char_rmatch_iff_toNat between_rmatch_iff,
    mul_rmatch_iff_of_single char_rmatch_iff_toNat between_rmatch_iff, exists_field_iff, or_assoc]
  simp only [UInt8.reduceToNat]
  constructor
  · rintro (⟨c, hc, rfl⟩ | ⟨c, d, hcd, rfl⟩ | ⟨c, d, hcd, rfl⟩)
    · exact Or.inl ⟨c, by omega, rfl⟩
    · exact Or.inr ⟨c, d, by omega, rfl⟩
    · exact Or.inr ⟨c, d, by omega, rfl⟩
  · rintro (⟨c, hc, rfl⟩ | ⟨c, d, hcd, rfl⟩)
    · exact Or.inl ⟨c, by omega, rfl⟩
    · -- two digits: the first is 0 or 1, which are two alternatives of the pattern
      by_cases hzero : c.toNat = 48
      · exact Or.inr (Or.inl ⟨c, d, by omega, rfl⟩)
      · exact Or.inr (Or.inr ⟨c, d, by omega, rfl⟩)

/-- The pattern of days matches the numbers from 1 to 31, of one or two digits. -/
theorem dayPattern_rmatch_iff {x : Bytes} :
    dayPattern.rmatch x ↔ ∃ d, Field 1 2 x d ∧ 1 ≤ d ∧ d ≤ 31 := by
  rw [dayPattern, add_rmatch_iff, add_rmatch_iff, optional_mul_rmatch_iff, between_rmatch_iff,
    mul_rmatch_iff_of_single char_rmatch_iff_toNat between_rmatch_iff,
    mul_rmatch_iff_of_single between_rmatch_iff between_rmatch_iff,
    mul_rmatch_iff_of_single char_rmatch_iff_toNat between_rmatch_iff, exists_field_iff, or_assoc,
    or_assoc]
  simp only [UInt8.reduceToNat]
  constructor
  · rintro (⟨c, hc, rfl⟩ | ⟨c, d, hcd, rfl⟩ | ⟨c, d, hcd, rfl⟩ | ⟨c, d, hcd, rfl⟩)
    · exact Or.inl ⟨c, by omega, rfl⟩
    · exact Or.inr ⟨c, d, by omega, rfl⟩
    · exact Or.inr ⟨c, d, by omega, rfl⟩
    · exact Or.inr ⟨c, d, by omega, rfl⟩
  · rintro (⟨c, hc, rfl⟩ | ⟨c, d, hcd, rfl⟩)
    · exact Or.inl ⟨c, by omega, rfl⟩
    · -- two digits: the first one decides between the alternatives
      by_cases hzero : c.toNat = 48
      · exact Or.inr (Or.inl ⟨c, d, by omega, rfl⟩)
      · -- a first digit 3 is an alternative of its own
        by_cases hthree : c.toNat = 51
        · exact Or.inr (Or.inr (Or.inr ⟨c, d, by omega, rfl⟩))
        · exact Or.inr (Or.inr (Or.inl ⟨c, d, by omega, rfl⟩))

/-- The class of digits matches one digit. -/
theorem digitClass_rmatch_iff {x : Bytes} :
    digitClass.rmatch x ↔ (∀ c ∈ x, isDigit c = true) ∧ x.length = 1 := by
  rw [digitClass, between_rmatch_iff]
  simp only [UInt8.reduceToNat, List.length_eq_one_iff]
  constructor
  · rintro ⟨c, hc, rfl⟩
    exact ⟨by simpa using isDigit_iff.mpr hc, c, rfl⟩
  · rintro ⟨hdigits, c, rfl⟩
    exact ⟨c, isDigit_iff.mp (hdigits c (by simp)), rfl⟩

/-- One more digit. -/
theorem mul_digitClass_rmatch_iff {p : RegularExpression UInt8} {n : ℕ} {x : Bytes}
    (hp : ∀ {x}, p.rmatch x ↔ (∀ c ∈ x, isDigit c = true) ∧ x.length = n) :
    (p * digitClass).rmatch x ↔ (∀ c ∈ x, isDigit c = true) ∧ x.length = n + 1 := by
  rw [mul_rmatch_iff]
  simp only [hp, digitClass_rmatch_iff]
  constructor
  · rintro ⟨t, u, rfl, ⟨ht, htlen⟩, hu, hulen⟩
    refine ⟨List.forall_mem_append.mpr ⟨ht, hu⟩, ?_⟩
    rw [List.length_append, htlen, hulen]
  · rintro ⟨hx, hlen⟩
    -- all digits but the last, and the last
    refine ⟨x.take n, x.drop n, (List.take_append_drop n x).symm, ⟨?_, ?_⟩, ?_, ?_⟩
    · exact fun c hc => hx c (List.mem_of_mem_take hc)
    · rw [List.length_take, hlen, Nat.min_eq_left (Nat.le_succ n)]
    · exact fun c hc => hx c (List.mem_of_mem_drop hc)
    · rw [List.length_drop, hlen, Nat.add_sub_cancel_left]

/-- The pattern of years matches four digits. -/
theorem yearPattern_rmatch_iff {x : Bytes} :
    (digitClass * digitClass * digitClass * digitClass).rmatch x ↔ ∃ y, Field 4 4 x y := by
  rw [mul_digitClass_rmatch_iff (mul_digitClass_rmatch_iff
    (mul_digitClass_rmatch_iff digitClass_rmatch_iff))]
  constructor
  · rintro ⟨hdigits, hlen⟩
    exact ⟨_, hdigits, hlen.ge, hlen.le, rfl⟩
  · rintro ⟨y, hfield⟩
    exact ⟨hfield.digits, le_antisymm hfield.le_hi hfield.lo_le⟩

/-! ## Texts -/

/-- A pattern behind a delimiter matches what follows it. -/
theorem delimClass_mul_rmatch_iff {q : RegularExpression UInt8} {x : Bytes} :
    (delimClass * q).rmatch x ↔ ∃ c u, isDelim c = true ∧ q.rmatch u ∧ x = c :: u := by
  rw [mul_rmatch_iff]
  simp only [delimClass_rmatch_iff]
  constructor
  · rintro ⟨_, u, rfl, ⟨c, hc, rfl⟩, hu⟩
    exact ⟨c, u, hc, hu, rfl⟩
  · rintro ⟨c, u, hc, hu, rfl⟩
    exact ⟨[c], u, rfl, ⟨c, hc, rfl⟩, hu⟩

/-- Two delimiters, which may be different, between the numbers of a year, of a month and of a
    day that some month has. -/
theorem checkDateStr_iff {s : Bytes} : checkDateStr s = true ↔ ∃ Y M D delim delim',
    s = Y ++ delim :: (M ++ delim' :: D) ∧ isDelim delim = true ∧ isDelim delim' = true ∧
      (∃ y, Field 4 4 Y y) ∧ (∃ m, Field 1 2 M m ∧ 1 ≤ m ∧ m ≤ 12) ∧
      ∃ d, Field 1 2 D d ∧ 1 ≤ d ∧ d ≤ 31 := by
  rw [checkDateStr, dateStr]
  constructor
  · intro h
    -- the text is taken apart as the pattern is put together
    obtain ⟨Y, r₁, rfl, hY, h₁⟩ := (mul_rmatch_iff ..).mp h
    obtain ⟨delim, r₂, hdelim, h₂, rfl⟩ := delimClass_mul_rmatch_iff.mp h₁
    obtain ⟨M, r₃, rfl, hM, h₃⟩ := (mul_rmatch_iff ..).mp h₂
    obtain ⟨delim', D, hdelim', hD, rfl⟩ := delimClass_mul_rmatch_iff.mp h₃
    exact ⟨Y, M, D, delim, delim', rfl, hdelim, hdelim', yearPattern_rmatch_iff.mp hY,
      monthPattern_rmatch_iff.mp hM, dayPattern_rmatch_iff.mp hD⟩
  · rintro ⟨Y, M, D, delim, delim', rfl, hdelim, hdelim', hY, hM, hD⟩
    -- and put together from the end on
    have hrest := delimClass_mul_rmatch_iff.mpr
      ⟨delim', D, hdelim', dayPattern_rmatch_iff.mpr hD, rfl⟩
    have hmonth := (mul_rmatch_iff ..).mpr ⟨M, _, rfl, monthPattern_rmatch_iff.mpr hM, hrest⟩
    have hyear := delimClass_mul_rmatch_iff.mpr ⟨delim, _, hdelim, hmonth, rfl⟩
    exact (mul_rmatch_iff ..).mpr ⟨Y, _, rfl, yearPattern_rmatch_iff.mpr hY, hyear⟩

/-- A field before a delimiter is found in one way. -/
theorem Date.Field.unique {lo hi lo' hi' : ℕ} {ds ds' rest rest' : Bytes} {c c' : UInt8}
    {v v' : Int} (h : Field lo hi ds v) (h' : Field lo' hi' ds' v') (hc : isDelim c = true)
    (hc' : isDelim c' = true) (heq : ds ++ c :: rest = ds' ++ c' :: rest') :
    ds = ds' ∧ c = c' ∧ rest = rest' := by
  have hspan : (ds ++ c :: rest).span isDigit = (ds, c :: rest) :=
    span_field h (by simpa using not_isDigit_of_isDelim hc)
  have hspan' : (ds' ++ c' :: rest').span isDigit = (ds', c' :: rest') :=
    span_field h' (by simpa using not_isDigit_of_isDelim hc')
  rw [heq] at hspan
  obtain ⟨rfl, htail⟩ := Prod.mk.inj (hspan.symm.trans hspan')
  obtain ⟨rfl, rfl⟩ := List.cons.inj htail
  exact ⟨rfl, rfl, rfl⟩

/-- The constructor accepts what passes the check, if the two delimiters are the same and the
    month has the day. -/
theorem ofText_iff_checkDateStr (s : Bytes) : (∃ date, ofText s = .ok date) ↔
    checkDateStr s = true ∧ ∃ y m d, HasDateForm s y m d ∧
      ∀ n, daysInMonth y m = .ok n → d ≤ n := by
  rw [exists_ofText_iff, checkDateStr_iff]
  constructor
  · rintro ⟨y, m, d, h⟩
    obtain ⟨n, hn, hd⟩ := h.day_le
    have hle := h.valid.day_le.trans (Gregorian.monthLength_le y m)
    refine ⟨?_, y, m, d, h.form, ?_⟩
    · obtain ⟨Y, M, D, delim, rfl, hdelim, hY, hM, hD⟩ := h.form
      exact ⟨Y, M, D, delim, delim, rfl, hdelim, hdelim, ⟨y, hY⟩,
        ⟨m, hM, h.one_le_month, h.month_le⟩, d, hD, h.one_le_day, hle⟩
    · intro n' hn'
      cases hn.symm.trans hn'
      exact hd
  · rintro ⟨⟨Y, M, D, delim, delim', hs, hdelim, hdelim', ⟨y', hY⟩, ⟨m', hM, hm⟩, d', hD, hd⟩,
      y, m, d, hform, hday⟩
    refine ⟨y, m, d, ?_⟩
    -- the fields of the check are those of the form
    obtain ⟨Y₁, M₁, D₁, c, rfl, hc, hY₁, hM₁, hD₁⟩ := hform
    obtain ⟨rfl, rfl, hrest⟩ := hY₁.unique hY hc hdelim hs
    obtain ⟨rfl, rfl, rfl⟩ := hM₁.unique hM hc hdelim' hrest
    cases hM₁.value_eq.trans hM.value_eq.symm
    cases hD₁.value_eq.trans hD.value_eq.symm
    exact ⟨⟨_, _, _, _, rfl, hc, hY₁, hM, hD⟩, hm.1, hm.2, hd.1, _, daysInMonth_eq hm.1 hm.2 y,
      hday _ (daysInMonth_eq hm.1 hm.2 y)⟩

-- these pass the check, but they are no dates
example : checkDateStr (bytes "2022-07/23") = true ∧
    checkDateStr (bytes "2023-02-29") = true := by
  decide +kernel

end OA.Time
