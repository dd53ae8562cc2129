import OdinAnalytics.Native.XlUtils
import OdinAnalytics.Spec.XloperCorrect

/-!
# The readers of dates in Excel cells

On a serial number the three readers find one day. On text one of them adds the
offset of the serial numbers to a day that is none, so the exported functions ask
about a day more than six thousand years later.

## Key results

- `toDateObj_toExcelDate`: a date that is written is read back
- `xloperToJulianInt_text`: the day that is found in a text
- `readersAgree_iff`: the cells on which the readers agree
-/

namespace Oxl

open Machine OA.Time OA.StaticCache OA.Dao Atomic

namespace XlApi

variable {win : Win32} {cell : Xloper12} {s : Bytes} {date : Date}

/-- A cell that holds a date: a number, or a text that `Date(std::string_view)` accepts. -/
def DateCell (win : Win32) (cell : Xloper12) : Prop :=
  (∃ num, cell = .num num) ∨
    ∃ s date, lpXloperToStr win cell = .ok s ∧ Date.ofText s = .ok date

/-- The three readers come to the same outcome. -/
def ReadersAgree (win : Win32) (cell : Xloper12) : Prop :=
  xloperToJulianInt win cell = Date.julian <$> toDateObj win cell ∧
    (cellToVariant win cell >>= XlVariant.toDateObj) = toDateObj win cell

/-- The exported functions say of a cell what they say of the serial number of its date. -/
def SerialAgrees (win : Win32) (cell : Xloper12) : Prop :=
  ∀ date serial, toDateObj win cell = .ok date → toExcelDate date = .ok serial →
    ∀ boost dataDir centers,
      oxlIsBizDay win boost dataDir cell centers =
        oxlIsBizDay win boost dataDir (.num serial) centers ∧
      oxlIsHolDay win boost dataDir cell centers =
        oxlIsHolDay win boost dataDir (.num serial) centers

/-! ## Serial numbers -/

/-- The two readers agree on a number. -/
theorem readersAgree_num (win : Win32) (num : Double) : ReadersAgree win (.num num) := by
  constructor
  · simp only [xloperToJulianInt, toDateObj]
    -- the same cast and the same sum
    cases num.toInt with
    | error f => rfl
    | ok n =>
      rw [ok_bind, ok_bind, add32, add32, add_comm]
      cases checked (n + kXlJulianOffSet) with
      | error f => rfl
      | ok j => rfl
  · rfl

/-- A serial number is as far from its day. -/
theorem toExcelDate_eq_ok {date : Date} {x : Double} (h : toExcelDate date = .ok x) :
    x = .ofInt (date.julian - kXlJulianOffSet) := by
  obtain ⟨serial, hserial, hx⟩ := bind_eq_ok.mp h
  obtain ⟨-, rfl⟩ := checked_eq_ok.mp hserial
  exact (Except.ok.inj hx).symm

/-- A date that is written is read back. -/
theorem toDateObj_toExcelDate (win : Win32) (h : InInt32 date.julian)
    (hserial : InInt32 (date.julian - kXlJulianOffSet)) :
    toExcelDate date = .ok (.ofInt (date.julian - kXlJulianOffSet)) ∧
      toDateObj win (.num (.ofInt (date.julian - kXlJulianOffSet))) = .ok date := by
  constructor
  · rw [toExcelDate, sub32_eq hserial]
    rfl
  · have hsum : add32 (date.julian - kXlJulianOffSet) kXlJulianOffSet = .ok date.julian := by
      rw [add32, sub_add_cancel, checked_eq h]
    simp only [toDateObj, Double.toInt_ofInt hserial, ok_bind, hsum]
    rfl

/-- The day numbers that are read are `int`s. -/
theorem inInt32_of_xloperToJulianInt {j : Int} (h : xloperToJulianInt win cell = .ok j) :
    InInt32 j := by
  unfold xloperToJulianInt at h
  -- a number or a text, the last operation is checked
  split at h
  · obtain ⟨n, -, h⟩ := bind_eq_ok.mp h
    obtain ⟨hj, rfl⟩ := checked_eq_ok.mp h
    exact hj
  · obtain ⟨s, -, h⟩ := bind_eq_ok.mp h
    obtain ⟨date, -, h⟩ := bind_eq_ok.mp h
    obtain ⟨hj, rfl⟩ := checked_eq_ok.mp h
    exact hj
  · cases h

/-- The day of a cell is all that the exported functions look at. -/
theorem serialAgrees_of_readersAgree (h : ReadersAgree win cell) : SerialAgrees win cell := by
  intro date serial hdate hwrite boost dataDir centers
  have hcell : xloperToJulianInt win cell = .ok date.julian := by
    rw [h.1, hdate]
    rfl
  have hj := inInt32_of_xloperToJulianInt hcell
  obtain ⟨n, hsub, hserial⟩ := bind_eq_ok.mp hwrite
  obtain ⟨hn, rfl⟩ := checked_eq_ok.mp hsub
  cases hserial
  -- the serial is read as the date it was written for
  have hnum := (readersAgree_num win (.ofInt (date.julian - kXlJulianOffSet))).1
  rw [(toDateObj_toExcelDate win hj hn).2] at hnum
  constructor
  · unfold oxlIsBizDay
    rw [hcell, hnum]
    rfl
  · unfold oxlIsHolDay
    rw [hcell, hnum]
    rfl

/-! ## Text -/

/-- A text is in a string cell that the add-in does not free. -/
theorem exists_str (h : lpXloperToStr win cell = .ok s) : ∃ str, cell = .str str false := by
  unfold lpXloperToStr at h
  split at h
  · exact ⟨_, rfl⟩
  · cases h
  · cases h

/-- A text is read as a date. -/
theorem toDateObj_text (h : lpXloperToStr win cell = .ok s) :
    toDateObj win cell = Date.ofText s := by
  obtain ⟨str, rfl⟩ := exists_str h
  simp only [toDateObj, h, ok_bind]

/-- The day number of a text is taken for a serial number. -/
theorem xloperToJulianInt_text (h : lpXloperToStr win cell = .ok s)
    (hdate : Date.ofText s = .ok date) :
    xloperToJulianInt win cell = add32 kXlJulianOffSet date.julian := by
  obtain ⟨str, rfl⟩ := exists_str h
  simp only [xloperToJulianInt, h, ok_bind, hdate]

/-- The two readers do not agree on the text of a date. -/
theorem not_readersAgree_text (h : lpXloperToStr win cell = .ok s)
    (hdate : Date.ofText s = .ok date) : ¬ ReadersAgree win cell := by
  rintro ⟨hjulian, -⟩
  rw [xloperToJulianInt_text h hdate, toDateObj_text h, hdate] at hjulian
  obtain ⟨-, heq⟩ := checked_eq_ok.mp hjulian
  unfold kXlJulianOffSet at heq
  omega

/-! ## All cells -/

/-- The readers agree on a cell that holds a date exactly if it is a number, and a date
    comes back from its serial number. -/
theorem readersAgree_iff (win : Win32) :
    (∀ cell, DateCell win cell →
      (ReadersAgree win cell ∧ SerialAgrees win cell ↔ ∃ num, cell = .num num)) ∧
    ∀ date : Date, InInt32 date.julian → InInt32 (date.julian - kXlJulianOffSet) →
      ∃ serial, toExcelDate date = .ok serial ∧ toDateObj win (.num serial) = .ok date := by
  constructor
  · intro cell hcell
    constructor
    · intro hagree
      -- a number is one reading for both, a text adds the offset for one of them
      cases hcell with
      | inl hnum => exact hnum
      | inr htext =>
        obtain ⟨s, date, hs, hdate⟩ := htext
        exact absurd hagree.1 (not_readersAgree_text hs hdate)
    · rintro ⟨num, rfl⟩
      have hagree := readersAgree_num win num
      exact ⟨hagree, serialAgrees_of_readersAgree hagree⟩
  · intro date h hserial
    exact ⟨_, toDateObj_toExcelDate win h hserial⟩

/-- The second of January 2024 as a serial number. -/
theorem readersAgree_iff_serial :
    (ReadersAgree Win32.unicode (.num (.ofInt 45293)) ∧
      SerialAgrees Win32.unicode (.num (.ofInt 45293))) ∧
    ∃ serial, toExcelDate ⟨2460312⟩ = .ok serial ∧
      toDateObj Win32.unicode (.num serial) = .ok ⟨2460312⟩ := by
  have h := readersAgree_iff Win32.unicode
  exact ⟨(h.1 _ (Or.inl ⟨_, rfl⟩)).mpr ⟨_, rfl⟩, h.2 _ (by decide) (by decide)⟩

/-- The second of January 2024 as a text. -/
theorem not_readersAgree_newYear : ¬ ∀ (win : Win32) (cell : Xloper12), DateCell win cell →
    ReadersAgree win cell ∧ SerialAgrees win cell := by
  intro h
  let cs := ['2', '0', '2', '4', '-', '0', '1', '-', '0', '2']
  have hascii : ∀ c ∈ cs, c.toNat < 0x80 := by simp [cs]
  have hs : lpXloperToStr Win32.unicode (.str (countedText cs) false) = .ok (Utf.utf8 cs) :=
    (lpXloperToStr_countedText _ (by decide) (by decide)).mpr hascii
  have hdate : Date.ofText (Utf.utf8 cs) = .ok ⟨2460312⟩ := by decide
  exact not_readersAgree_text hs hdate (h _ _ (Or.inr ⟨_, _, hs, hdate⟩)).1

end XlApi

end Oxl
