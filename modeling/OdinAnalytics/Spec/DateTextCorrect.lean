import OdinAnalytics.Native.DateText
import OdinAnalytics.Spec.DateRange

/-!
# Dates as text, read and written

The scanner accepts exactly the texts `YYYY-[M]M-[D]D` of a date that exists, and
what is printed for a date of ten millennia is such a text.

## Key results

- `ofText_spec`: the accepted texts, the dates they stand for, and the exception
- `print_spec`: a printed date is read back, and printing is canonical
-/

namespace OA.Time

open Machine Decimal Gregorian

/-! ## Digits -/

/-- A shift to the left multiplies by eight, in range. -/
theorem shl3_eq {v : Int} (h₀ : 0 ≤ v) (h₁ : v ≤ 100000000) : shl3 v = 8 * v :=
  Int.bmod_eq_of_le (by omega) (by omega)

/-- The digit loop, as long as the number to come stays small. -/
private theorem toInt_loop {ds : Bytes} (hds : ∀ c ∈ ds, isDigit c = true) (v : ℕ)
    (hv : (v + 1) * 10 ^ ds.length ≤ 100000000) :
    ds.foldlM (fun (v : Int) c => do
      let v ← add32 (← add32 (shl3 v) v) v
      add32 v ((c.toNat : Int) - 48)) (v : Int) =
      .ok (ds.foldl (fun v c => 10 * v + (c.toNat - 48)) v : ℕ) := by
  induction ds generalizing v with
  | nil => rfl
  | cons c ds ih =>
    rw [List.forall_mem_cons] at hds
    have hc := isDigit_iff.mp hds.1
    rw [List.length_cons, pow_succ] at hv
    have hpow : 1 ≤ 10 ^ ds.length := Nat.one_le_pow _ _ (by decide)
    have hsmall : (v + 1) * 10 ≤ (v + 1) * (10 ^ ds.length * 10) :=
      Nat.mul_le_mul_left _ (by omega)
    -- the accumulator after this digit
    have hnext : ((10 * v + (c.toNat - 48) : ℕ) : Int) = 8 * v + v + v + (c.toNat - 48) := by
      omega
    have hle : (10 * v + (c.toNat - 48) + 1) * 10 ^ ds.length ≤ 100000000 := by
      refine le_trans (Nat.mul_le_mul_right _ (show _ ≤ (v + 1) * 10 by omega)) ?_
      rwa [mul_assoc, mul_comm 10]
    rw [List.foldlM_cons, List.foldl_cons, ← ih hds.2 _ hle, hnext]
    simp (disch := omega) only [shl3_eq, add32, checked_of_bounds, ok_bind]

/-- Up to four digits are read as their value. -/
theorem toInt_eq {ds : Bytes} (hds : ∀ c ∈ ds, isDigit c = true) (hlen : ds.length ≤ 4) :
    toInt ds = .ok (value ds) := by
  have hsub : (ds.dropWhile (· = 48)).Sublist ds := List.dropWhile_sublist _
  have hpow : 10 ^ (ds.dropWhile (· = 48)).length ≤ 10 ^ 4 :=
    Nat.pow_le_pow_right (by decide) (hsub.length_le.trans hlen)
  rw [← value_dropWhile ds]
  exact toInt_loop (fun c hc => hds c (hsub.subset hc)) 0 (by omega)

namespace Date

/-! ## The grammar -/

/-- A field of the text: digits of a width between `lo` and `hi`, with their value. -/
structure Field (lo hi : ℕ) (ds : Bytes) (v : Int) : Prop where
  digits : ∀ c ∈ ds, isDigit c = true
  lo_le : lo ≤ ds.length
  le_hi : ds.length ≤ hi
  value_eq : v = value ds

/-- Four digits, one or two digits, and one or two digits, with a delimiter between them. -/
def HasDateForm (s : Bytes) (y m d : Int) : Prop :=
  ∃ Y M D delim, s = Y ++ delim :: (M ++ delim :: D) ∧ isDelim delim = true ∧ Field 4 4 Y y ∧
    Field 1 2 M m ∧ Field 1 2 D d

/-- The exceptions that reject a text. -/
def IsRuntimeError (f : Fault) : Prop := ∃ what, f = .throws (.runtimeError what)

/-- A `std::runtime_error` is one. -/
theorem isRuntimeError (what : String) : IsRuntimeError (.throws (.runtimeError what)) :=
  ⟨what, rfl⟩

/-- No delimiter is a digit. -/
theorem not_isDigit_of_isDelim {c : UInt8} (h : isDelim c = true) : isDigit c = false := by
  simp only [isDelim, Bool.or_eq_true, decide_eq_true_eq] at h
  obtain (rfl | rfl) | rfl := h <;> rfl

section Scan

variable {s Y M D rest : Bytes} {delim : UInt8} {y m d : Int}

/-- A field is not negative. -/
theorem Field.nonneg {lo hi : ℕ} {ds : Bytes} {v : Int} (h : Field lo hi ds v) : 0 ≤ v := by
  rw [h.value_eq]
  exact Int.natCast_nonneg _

/-- A field with digits is not empty. -/
theorem Field.ne_nil {lo hi : ℕ} {ds : Bytes} {v : Int} (h : Field lo hi ds v) (hlo : 1 ≤ lo) :
    ds ≠ [] := by
  rintro rfl
  exact absurd (hlo.trans h.lo_le) (by decide)

/-- A field of up to four digits is read as its value. -/
theorem Field.toInt_eq {lo hi : ℕ} {ds : Bytes} {v : Int} (h : Field lo hi ds v) (hhi : hi ≤ 4) :
    toInt ds = .ok v := by
  rw [OA.Time.toInt_eq h.digits (h.le_hi.trans hhi), h.value_eq]

/-- A digit run that a byte other than a digit ends. -/
theorem span_field {lo hi : ℕ} {ds : Bytes} {v : Int} (h : Field lo hi ds v)
    (hrest : ∀ c ∈ rest.head?, isDigit c = false) : (ds ++ rest).span isDigit = (ds, rest) :=
  span_eq_iff.mpr ⟨rfl, h.digits, hrest⟩

/-- Four digits before a delimiter are scanned as the year. -/
theorem scanYear_eq (hY : Field 4 4 Y y) (hdelim : isDelim delim = true) :
    scanYear (Y ++ delim :: rest) = .ok (y, delim, rest) := by
  have hspan : (Y ++ delim :: rest).span isDigit = (Y, delim :: rest) := by
    apply span_field hY
    simpa using not_isDigit_of_isDelim hdelim
  have hlen : Y.length = 4 := le_antisymm hY.le_hi hY.lo_le
  simp only [scanYear, hspan]
  rw [if_neg (hY.ne_nil (by decide)), if_neg (by simp [hlen]), if_neg (by simp [hdelim]),
    hY.toInt_eq le_rfl]
  rfl

/-- Nothing but four digits before a delimiter is scanned as a year. -/
theorem scanYear_post (s : Bytes) : Post (scanYear s) IsRuntimeError fun (y, delim, rest) =>
    ∃ Y, s = Y ++ delim :: rest ∧ isDelim delim = true ∧ Field 4 4 Y y := by
  rcases hspan : s.span isDigit with ⟨Y, rest⟩
  obtain ⟨rfl, hY, -⟩ := span_eq_iff.mp hspan
  unfold scanYear
  simp only [hspan]
  split
  · exact isRuntimeError _
  split
  · exact isRuntimeError _
  · next hlen =>
    rw [not_not] at hlen
    -- four digits, whose value is an `int`
    have hfield : Field 4 4 Y (value Y) := ⟨hY, hlen.ge, hlen.le, rfl⟩
    cases rest with
    | nil => exact isRuntimeError _
    | cons delim rest =>
      simp only
      split
      · exact isRuntimeError _
      · next hdelim =>
        rw [hfield.toInt_eq le_rfl, ok_bind]
        exact ⟨Y, rfl, by simpa using hdelim, hfield⟩

/-- One or two digits before the same delimiter are scanned as the month. -/
theorem scanMonth_eq (hM : Field 1 2 M m) (hdelim : isDelim delim = true) :
    scanMonth delim (M ++ delim :: rest) = .ok (m, rest) := by
  have hspan : (M ++ delim :: rest).span isDigit = (M, delim :: rest) := by
    apply span_field hM
    simpa using not_isDigit_of_isDelim hdelim
  simp only [scanMonth, hspan]
  rw [if_neg (hM.ne_nil le_rfl), if_neg hM.le_hi.not_gt, if_neg (by simp),
    hM.toInt_eq (by decide)]
  rfl

/-- Nothing but one or two digits before the delimiter is scanned as a month. -/
theorem scanMonth_post (delim : UInt8) (s : Bytes) :
    Post (scanMonth delim s) IsRuntimeError fun (m, rest) =>
      ∃ M, s = M ++ delim :: rest ∧ Field 1 2 M m := by
  rcases hspan : s.span isDigit with ⟨M, rest⟩
  obtain ⟨rfl, hM, -⟩ := span_eq_iff.mp hspan
  unfold scanMonth
  simp only [hspan]
  split
  · exact isRuntimeError _
  split
  · exact isRuntimeError _
  · next hne hlen =>
    have hpos := List.length_pos_of_ne_nil hne
    -- one or two digits, then the separator the year ended with
    have hfield : Field 1 2 M (value M) := ⟨hM, hpos, not_lt.mp hlen, rfl⟩
    cases rest with
    | nil => exact isRuntimeError _
    | cons c rest =>
      simp only
      split
      · exact isRuntimeError _
      · next hc =>
        rw [not_not] at hc
        rw [hfield.toInt_eq (by decide), ok_bind, hc]
        exact ⟨M, rfl, hfield⟩

/-- One or two digits at the end are scanned as the day. -/
theorem scanDay_eq (hD : Field 1 2 D d) : scanDay D = .ok d := by
  have hspan : (D ++ []).span isDigit = (D, []) := span_field hD (by simp)
  rw [List.append_nil] at hspan
  simp only [scanDay, hspan]
  rw [if_neg (hD.ne_nil le_rfl), if_neg hD.le_hi.not_gt, if_neg (by simp),
    hD.toInt_eq (by decide)]

/-- Nothing but one or two digits is scanned as a day. -/
theorem scanDay_post (s : Bytes) : Post (scanDay s) IsRuntimeError (Field 1 2 s) := by
  rcases hspan : s.span isDigit with ⟨D, rest⟩
  obtain ⟨rfl, hD, -⟩ := span_eq_iff.mp hspan
  unfold scanDay
  simp only [hspan]
  split
  · exact isRuntimeError _
  split
  · exact isRuntimeError _
  split
  · exact isRuntimeError _
  · next hne hlen hrest =>
    rw [not_not] at hrest
    subst hrest
    -- one or two digits and nothing after them
    have hpos := List.length_pos_of_ne_nil hne
    have hfield : Field 1 2 D (value D) := ⟨hD, hpos, not_lt.mp hlen, rfl⟩
    rw [hfield.toInt_eq (by decide), List.append_nil]
    exact hfield

end Scan

/-! ## Accepted texts -/

/-- A text of the accepted form whose date exists. -/
structure IsDateText (s : Bytes) (y m d : Int) : Prop where
  form : HasDateForm s y m d
  one_le_month : 1 ≤ m
  month_le : m ≤ 12
  one_le_day : 1 ≤ d
  day_le : ∃ n, daysInMonth y m = .ok n ∧ d ≤ n

section Accept

variable {s : Bytes} {y m d : Int}

/-- A year of four digits. -/
theorem HasDateForm.year_bounds (h : HasDateForm s y m d) : 0 ≤ y ∧ y ≤ 9999 := by
  obtain ⟨Y, -, -, -, -, -, hY, -⟩ := h
  have hlt := value_lt hY.digits
  have hlen : Y.length = 4 := le_antisymm hY.le_hi hY.lo_le
  rw [hlen] at hlt
  have hv := hY.value_eq
  omega

/-- The text of a date is that of a valid one. -/
theorem IsDateText.valid (h : IsDateText s y m d) : Valid y m d := by
  obtain ⟨n, hn, hd⟩ := h.day_le
  rw [daysInMonth_eq h.one_le_month h.month_le] at hn
  cases hn
  exact ⟨h.one_le_month, h.month_le, h.one_le_day, hd⟩

/-- The dates of ten millennia have day numbers far from the limits of an `int`. -/
theorem toDay_bounds (hv : Valid y m d) (h₀ : 0 ≤ y) (h₁ : y ≤ 9999) :
    0 ≤ toDay y m d ∧ toDay y m d ≤ maxJulian := by
  have hm₁ := hv.one_le_month
  have hm₂ := hv.month_le
  have hd₁ := hv.one_le_day
  have hd₂ := hv.day_le.trans (monthLength_le y m)
  -- the month lies between January 0 and December 9999
  have hlo : months.start 0 ≤ months.start (monthOf y m) :=
    months.start_strictMono.monotone (by unfold monthOf; omega)
  have hhi : months.start (monthOf y m) ≤ months.start 119999 :=
    months.start_strictMono.monotone (by unfold monthOf; omega)
  rw [months_start] at hlo hhi
  have h0 : monthStart 0 = 1721060 := by decide
  have h1 : monthStart 119999 = 5373454 := by decide
  rw [months_start] at hlo hhi
  unfold toDay maxJulian
  omega

/-- The text of a date is scanned as it says. -/
theorem ymdOfText_eq (h : IsDateText s y m d) : ymdOfText s = .ok (y, m, d) := by
  obtain ⟨Y, M, D, delim, rfl, hdelim, hY, hM, hD⟩ := h.form
  obtain ⟨n, hn, hd⟩ := h.day_le
  have hd₀ : d ≠ 0 := by
    have := h.one_le_day
    omega
  unfold ymdOfText
  -- the three scanners, then the check of the day
  rw [scanYear_eq hY hdelim, ok_bind]
  simp only
  rw [scanMonth_eq hM hdelim, ok_bind]
  simp only
  rw [scanDay_eq hD, ok_bind, if_neg hd₀, hn, ok_bind, if_neg (not_lt.mpr hd)]
  rfl

/-- A text that is not rejected is a date text. -/
theorem ymdOfText_post (s : Bytes) : Post (ymdOfText s) IsRuntimeError fun (y, m, d) =>
    IsDateText s y m d := by
  unfold ymdOfText
  apply (scanYear_post s).bind
  rintro ⟨y, delim, rest⟩ ⟨Y, hs, hdelim, hY⟩
  apply (scanMonth_post delim rest).bind
  rintro ⟨m, rest'⟩ ⟨M, hrest, hM⟩
  apply (scanDay_post rest').bind
  intro d hD
  have hform : HasDateForm s y m d := ⟨Y, M, rest', delim, by rw [hs, hrest], hdelim, hY, hM, hD⟩
  have hnonneg := hD.nonneg
  simp only
  split
  · exact isRuntimeError _
  · next hd =>
    have hd₁ : 1 ≤ d := by omega
    -- the month is checked with the length of it
    by_cases hm : 1 ≤ m ∧ m ≤ 12
    · have hn := daysInMonth_eq hm.1 hm.2 y
      rw [hn, ok_bind]
      split
      · exact isRuntimeError _
      · next hle => exact ⟨hform, hm.1, hm.2, hd₁, _, hn, not_lt.mp hle⟩
    · rw [daysInMonth, if_pos (by omega), error_bind]
      exact isRuntimeError _

/-- The text of a date constructs the date. -/
theorem ofText_eq (h : IsDateText s y m d) : ofText s = .ok ⟨toDay y m d⟩ := by
  have hy := h.form.year_bounds
  have hb := toDay_bounds h.valid hy.1 hy.2
  unfold ofText
  rw [ymdOfText_eq h, ok_bind]
  simp only
  rw [convertToJulian_eq h.valid hb.1 hb.2]
  rfl

/-- Nothing but the text of a date constructs a date, and the exception is a runtime error. -/
theorem ofText_post (s : Bytes) : Post (ofText s) IsRuntimeError fun date =>
    ∃ y m d, IsDateText s y m d ∧ date = ⟨toDay y m d⟩ := by
  rcases hs : ymdOfText s with f | ⟨y, m, d⟩
  · have hpost := ymdOfText_post s
    unfold ofText
    rw [hs] at hpost ⊢
    exact hpost
  · -- what was scanned is the text's date
    have h : IsDateText s y m d := by
      have hpost := ymdOfText_post s
      rwa [hs] at hpost
    rw [ofText_eq h]
    exact ⟨y, m, d, h, rfl⟩

/-- A date with a year of four digits is told as it is. -/
theorem gregorian_eq (hv : Valid y m d) (h₀ : 0 ≤ y) (h₁ : y ≤ 9999) :
    gregorian ⟨toDay y m d⟩ = .ok (y, m, d) := by
  have hb := toDay_bounds hv h₀ h₁
  rw [gregorian, ymd_eq hb.1 hb.2, ofDay_toDay hv]

end Accept

/-- The texts that construct a date are the texts of dates. -/
theorem exists_ofText_iff (s : Bytes) :
    (∃ date, ofText s = .ok date) ↔ ∃ y m d, IsDateText s y m d := by
  have hpost := ofText_post s
  constructor
  · rintro ⟨date, hdate⟩
    rw [hdate] at hpost
    obtain ⟨y, m, d, h, -⟩ := hpost
    exact ⟨y, m, d, h⟩
  · rintro ⟨y, m, d, h⟩
    exact ⟨_, ofText_eq h⟩

/-- The constructor from text accepts `YYYY-[M]M-[D]D` for the dates that exist, with
    any of the delimiters, and rejects every other text with the same exception. -/
theorem ofText_spec (s : Bytes) :
    ((∃ date, ofText s = .ok date) ↔ ∃ y m d, IsDateText s y m d) ∧
    (∀ y m d, IsDateText s y m d → ∃ date, ofText s = .ok date ∧
      date.gregorian = .ok (y, m, d)) ∧
    ((¬ ∃ y m d, IsDateText s y m d) →
      ∃ what, ofText s = .error (.throws (.runtimeError what))) := by
  have hpost := ofText_post s
  refine ⟨exists_ofText_iff s, ?_, ?_⟩
  · intro y m d h
    have hy := h.form.year_bounds
    exact ⟨_, ofText_eq h, gregorian_eq h.valid hy.1 hy.2⟩
  · intro hnot
    -- the postcondition leaves a result its date and a failure its kind
    cases hs : ofText s with
    | ok date =>
      rw [hs] at hpost
      obtain ⟨y, m, d, h, -⟩ := hpost
      exact absurd ⟨y, m, d, h⟩ hnot
    | error f =>
      rw [hs] at hpost
      obtain ⟨what, rfl⟩ := hpost
      exact ⟨what, rfl⟩

/-! ## Printed texts -/

/-- The ten characters `YYYY-MM-DD` of three components. -/
def canonical (y m d : Int) : Bytes :=
  padded 4 y.toNat ++ bytes "-" ++ padded 2 m.toNat ++ bytes "-" ++ padded 2 d.toNat

section Print

variable {y m d : Int}

/-- Zeros in front make up the width. -/
theorem setw_eq (w : ℕ) {n : Int} (hn : 0 ≤ n) : setw w n = padded w n.toNat := by
  rw [setw, reprInt, if_neg (by omega), padded, show n.natAbs = n.toNat by omega]

/-- A number that fits a field is written to its full width. -/
theorem field_padded {w : ℕ} {n : Int} (hw : 0 < w) (h₀ : 0 ≤ n) (hn : n < 10 ^ w) :
    Field w w (padded w n.toNat) n := by
  -- the number has at most as many digits as the field
  have hlen : (padded w n.toNat).length = w := by
    apply length_padded hw
    zify
    omega
  refine ⟨fun c hc => isDigit_of_mem_padded hc, hlen.ge, hlen.le, ?_⟩
  rw [value_padded]
  omega

/-- A field may be wider. -/
theorem Field.mono {lo hi lo' hi' : ℕ} {ds : Bytes} {v : Int} (h : Field lo hi ds v)
    (hlo : lo' ≤ lo) (hhi : hi ≤ hi') : Field lo' hi' ds v :=
  ⟨h.digits, hlo.trans h.lo_le, h.le_hi.trans hhi, h.value_eq⟩

variable (hv : Valid y m d) (h₀ : 0 ≤ y) (h₁ : y ≤ 9999)

include hv h₀ h₁

/-- A date with a year of four digits is printed in the canonical form. -/
theorem print_eq : print ⟨toDay y m d⟩ = .ok (canonical y m d) := by
  have hm := hv.one_le_month
  have hd := hv.one_le_day
  unfold print canonical
  rw [gregorian_eq hv h₀ h₁, ok_bind, ← setw_eq 4 h₀, ← setw_eq 2 (by omega),
    ← setw_eq 2 (by omega)]
  rfl

/-- The canonical form has four digits for the year and two for month and day. -/
theorem canonical_fields : Field 4 4 (padded 4 y.toNat) y ∧ Field 2 2 (padded 2 m.toNat) m ∧
    Field 2 2 (padded 2 d.toNat) d := by
  have hm₁ := hv.one_le_month
  have hm₂ := hv.month_le
  have hd₁ := hv.one_le_day
  have hd₂ := hv.day_le.trans (monthLength_le y m)
  exact ⟨field_padded (by decide) h₀ (by omega), field_padded (by decide) (by omega) (by omega),
    field_padded (by decide) (by omega) (by omega)⟩

/-- The canonical form has ten characters. -/
theorem length_canonical : (canonical y m d).length = 10 := by
  obtain ⟨hY, hM, hD⟩ := canonical_fields hv h₀ h₁
  simp only [canonical, List.length_append, le_antisymm hY.le_hi hY.lo_le,
    le_antisymm hM.le_hi hM.lo_le, le_antisymm hD.le_hi hD.lo_le]
  rfl

/-- What is printed is a date text of the same components. -/
theorem isDateText_canonical : IsDateText (canonical y m d) y m d := by
  obtain ⟨hY, hM, hD⟩ := canonical_fields hv h₀ h₁
  refine ⟨⟨_, _, _, 45, ?_, rfl, hY, hM.mono (by decide) le_rfl, hD.mono (by decide) le_rfl⟩,
    hv.one_le_month, hv.month_le, hv.one_le_day,
    _, daysInMonth_eq hv.one_le_month hv.month_le y, hv.day_le⟩
  have hdash : bytes "-" = [45] := by decide
  simp [canonical, hdash]

/-- The canonical form is read back. -/
theorem ofText_canonical : ofText (canonical y m d) = .ok ⟨toDay y m d⟩ :=
  ofText_eq (isDateText_canonical hv h₀ h₁)

end Print

/-- A date whose year is not negative is one of the calendar. -/
theorem year_eq_ok {date : Date} {y : Int} (h : date.year = .ok y) (h₀ : 0 ≤ y) :
    ∃ m d, Valid y m d ∧ date = ⟨toDay y m d⟩ := by
  obtain ⟨j⟩ := date
  obtain ⟨⟨y', m, d⟩, hymd, hyear⟩ := bind_eq_ok.mp h
  obtain rfl : y' = y := Except.ok.inj hyear
  obtain ⟨-, heq⟩ | ⟨-, hi, -, hm, -⟩ := ymd_eq_ok hymd
  · obtain ⟨hv, -, -, rfl⟩ := of_eq_ofDay heq
    exact ⟨m, d, hv, rfl⟩
  · unfold monthOf at hi
    omega

/-- A date of the ten millennia is printed as a text that stands for it, and what a
    text stands for is printed in the one form of ten characters, which is read as the
    same date: print-after-parse is idempotent. -/
theorem print_spec :
    (∀ (date : Date) y, date.year = .ok y → 0 ≤ y → y ≤ 9999 →
      ∃ t, date.print = .ok t ∧ ofText t = .ok date) ∧
    (∀ s date, ofText s = .ok date → ∃ y m d, date.gregorian = .ok (y, m, d) ∧
      date.print = .ok (canonical y m d) ∧ (canonical y m d).length = 10 ∧
      ofText (canonical y m d) = .ok date) := by
  constructor
  · -- a printed date is read back
    intro date y hyear h₀ h₁
    obtain ⟨m, d, hv, rfl⟩ := year_eq_ok hyear h₀
    exact ⟨_, print_eq hv h₀ h₁, ofText_canonical hv h₀ h₁⟩
  · -- a text that is read prints canonically, whatever its own delimiters
    intro s date hs
    -- the text is that of a valid date with a year of four digits
    have hpost := ofText_post s
    rw [hs] at hpost
    obtain ⟨y, m, d, h, rfl⟩ := hpost
    have hv := h.valid
    obtain ⟨h₀, h₁⟩ := h.form.year_bounds
    exact ⟨y, m, d, gregorian_eq hv h₀ h₁, print_eq hv h₀ h₁, length_canonical hv h₀ h₁,
      ofText_canonical hv h₀ h₁⟩

end Date

end OA.Time
