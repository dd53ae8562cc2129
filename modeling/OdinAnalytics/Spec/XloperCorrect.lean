import OdinAnalytics.Native.XloperConverter
import Mathlib.Data.List.TakeDrop

/-!
# Strings in Excel cells

A string goes into a cell and comes back as it was exactly if it is ASCII. Otherwise
it has more bytes than UTF-16 units: the terminating NUL, stored at the index of the
last byte, misses the block, and a string that is read from a cell is cut after as
many bytes as it has units.

## Key results

- `convertStrToLPXloper_eq`: the cell that is made, or the write outside of its block
- `lpXloperToStr_eq`: what is read from a counted and terminated string
- `roundTrips_iff`: the strings that come back
-/

namespace Oxl.XlApi

open Machine Utf

/-! ## The conversions on well-formed text -/

namespace Win32

/-- A buffer that a conversion has written to: as much of its output as fits. -/
def fill {α : Type} (buffer output : List α) : List α :=
  output.take buffer.length ++ buffer.drop output.length

/-- What is written to a buffer that has the size of the output, or that ends before it. -/
theorem fill_eq {α : Type} {buffer output : List α} (rest : List α)
    (h : buffer.length = output.length) : fill buffer (output ++ rest) = output := by
  rw [fill, h, List.take_left, List.drop_eq_nil_of_le, List.append_nil]
  rw [List.length_append]
  omega

/-- The bytes that the units up to a pointer's end, or up to the first NUL, encode. -/
def decoded (memory : List UInt16) (count : Int) : Bytes :=
  if count = -1 then utf8 (utf16Decode (memory.takeWhile (· ≠ 0))) ++ [0]
  else utf8 (utf16Decode (memory.take count.toNat))

/-- The conversions that decode and encode again. -/
def unicode : Win32 where
  sizeOfWideChar memory count := (utf16 (utf8Decode (memory.take count.toNat))).length
  multiByteToWideChar memory count buffer :=
    fill buffer (utf16 (utf8Decode (memory.take count.toNat)))
  sizeOfMultiByte memory count := (decoded memory count).length
  wideCharToMultiByte memory count buffer := fill buffer (decoded memory count)
  sizeOfWideChar_utf8 cs rest := by
    rw [Int.toNat_natCast, List.take_left, utf8Decode_utf8]
  multiByteToWideChar_utf8 cs rest buffer h := by
    rw [Int.toNat_natCast, List.take_left, utf8Decode_utf8]
    simpa using fill_eq [] h
  sizeOfMultiByte_utf16 cs rest := by
    rw [decoded, if_neg (by omega), Int.toNat_natCast, List.take_left, utf16Decode_utf16]
  -- the buffer is too short for the whole text and receives its beginning
  wideCharToMultiByte_short cs cs' rest buffer h h' hlen := by
    have hnul : Char.ofNat 0 ∉ cs ++ cs' := by simp [h, h']
    rw [decoded, if_pos rfl, takeWhile_ne (zero_not_mem_utf16 hnul), utf16Decode_utf16, utf8,
      List.flatMap_append, List.append_assoc]
    exact fill_eq _ hlen

end Win32

variable {win : Win32} {cs : List Char}

/-- The sizes that an `int` holds. -/
theorem castInt_eq {size : ℕ} (h : size < 2147483648) : castInt size = size := by
  apply Int.bmod_eq_of_le
  · omega
  · omega

/-- A text in UTF-8 is converted to UTF-16. -/
theorem toWString_utf8 (h : (utf8 cs).length < 2147483648) :
    toWString win (utf8 cs) = utf16 cs := by
  simp only [toWString, castInt_eq h, win.sizeOfWideChar_utf8]
  exact win.multiByteToWideChar_utf8 cs _ _ List.length_replicate

/-- A text in UTF-16 is converted to UTF-8: what has no room in the buffer is the NUL alone. -/
theorem toUTF8String_utf16 (hnul : Char.ofNat 0 ∉ cs) (h : (utf16 cs).length < 2147483648) :
    toUTF8String win (utf16 cs) = utf8 cs := by
  simp only [toUTF8String, castInt_eq h, win.sizeOfMultiByte_utf16]
  simpa using win.wideCharToMultiByte_short cs [] [] _ hnul List.not_mem_nil List.length_replicate

/-! ## Into a cell -/

/-- A text as Excel holds it: the number of units, the units, and a NUL. -/
def countedText (cs : List Char) : List UInt16 :=
  UInt16.ofNat (utf16 cs).length :: (utf16 cs ++ [0])

/-- Writing behind what has been written before. -/
theorem store_append {before rest : List UInt16} {index : ℕ} (h : before.length = index)
    (old unit : UInt16) :
    Block.store (before ++ old :: rest) index unit = .ok (before ++ unit :: rest) := by
  rw [Block.store_eq (by simp [← h]), ← h, List.set_append_right _ _ le_rfl, Nat.sub_self,
    List.set_cons_zero]

/-- The loop that copies the units behind what has been written before. -/
theorem foldlM_store (units before rest : List UInt16) {index : ℕ}
    (hbefore : before.length = index + 1) (hrest : units.length ≤ rest.length) :
    (units.zipIdx index).foldlM (fun str (unit, i) => Block.store str (i + 1) unit)
      (before ++ rest) = .ok (before ++ (units ++ rest.drop units.length)) := by
  induction units generalizing before rest index with
  | nil => rfl
  | cons unit units ih =>
    cases rest with
    | nil => simp at hrest
    | cons old rest =>
      rw [List.length_cons, List.length_cons, Nat.add_le_add_iff_right] at hrest
      -- the unit just written joins what is before
      have hwritten : before ++ unit :: rest = (before ++ [unit]) ++ rest := by simp
      rw [List.zipIdx_cons, List.foldlM_cons]
      simp only
      rw [store_append hbefore, ok_bind, hwritten, ih _ _ (by simp [hbefore]) hrest]
      simp

/-- What becomes of a text on its way into a cell: the last write is inside of the block
    exactly if there are no more bytes than units. -/
theorem convertStrToLPXloper_eq (win : Win32) (h : (utf8 cs).length < 2147483648) :
    convertStrToLPXloper win (utf8 cs) =
      if (utf8 cs).length = (utf16 cs).length then .ok (.str (countedText cs) true)
      else .error (.undefined .indexOutOfRange) := by
  have hle := length_utf16_le cs
  have hcount : Block.store (List.replicate ((utf16 cs).length + 2) 0) 0
      (UInt16.ofNat (utf16 cs).length) =
      .ok ([UInt16.ofNat (utf16 cs).length] ++ List.replicate ((utf16 cs).length + 1) 0) := by
    rw [Block.store_eq (by simp)]
    rfl
  have hcopy : (utf16 cs ++ (List.replicate ((utf16 cs).length + 1) (0 : UInt16)).drop
      (utf16 cs).length) = utf16 cs ++ [0] := by
    rw [List.drop_replicate, Nat.add_sub_cancel_left]
    rfl
  unfold convertStrToLPXloper
  simp only [toWString_utf8 h]
  rw [hcount, ok_bind, foldlM_store _ _ _ rfl (by simp), ok_bind, hcopy]
  split
  · next heq =>
    have hblock : [UInt16.ofNat (utf16 cs).length] ++ (utf16 cs ++ [0]) =
        (UInt16.ofNat (utf16 cs).length :: utf16 cs) ++ 0 :: [] := by simp
    rw [hblock, store_append (by simp [heq])]
    simp [countedText]
  · next hne =>
    -- more bytes than units
    rw [Block.store, if_neg]
    · rfl
    · simp only [List.length_append, List.length_cons, List.length_nil]
      omega

/-! ## Out of a cell -/

/-- Reading a terminated string cuts it after as many bytes as the cell counts. -/
theorem lpXloperToStr_eq (win : Win32) (hnul : Char.ofNat 0 ∉ cs)
    (h : (utf16 cs).length < 2147483648) (count : UInt16) (rest : List UInt16) :
    lpXloperToStr win (.str (count :: (utf16 cs ++ 0 :: rest)) false) =
      .ok ((utf8 cs).take count.toNat) := by
  have hterminated : wstringOf (utf16 cs ++ 0 :: rest) = .ok (utf16 cs) := by
    rw [wstringOf, if_pos (by simp), takeWhile_ne (zero_not_mem_utf16 hnul)]
  simp only [lpXloperToStr]
  rw [hterminated, ok_bind, toUTF8String_utf16 hnul h]
  rfl

/-- A counted text is read as it was exactly if it is ASCII. -/
theorem lpXloperToStr_countedText (win : Win32) (hnul : Char.ofNat 0 ∉ cs)
    (hlen : (utf16 cs).length ≤ 32767) :
    lpXloperToStr win (.str (countedText cs) false) = .ok (utf8 cs) ↔
      ∀ c ∈ cs, c.toNat < 0x80 := by
  have hle := length_utf16_le cs
  have hcount : (UInt16.ofNat (utf16 cs).length).toNat = (utf16 cs).length :=
    UInt16.toNat_ofNat_of_lt' (by simp [UInt16.size]; omega)
  rw [countedText, lpXloperToStr_eq win hnul (by omega), hcount, Except.ok.injEq,
    List.take_eq_self_iff, ← length_utf16_eq_iff]
  omega

/-! ## The round trip -/

/-- A string is put into a cell with every write inside of its block, and is what is read
    from the cell when Excel hands it back. -/
def RoundTrips (win : Win32) (s : Bytes) : Prop :=
  ∃ cell, convertStrToLPXloper win s = .ok cell ∧ lpXloperToStr win cell.clearDllFree = .ok s

/-- A text comes back exactly if all its characters are ASCII. -/
theorem roundTrips_iff (win : Win32) (hnul : Char.ofNat 0 ∉ cs)
    (hlen : (utf16 cs).length ≤ 32767) :
    RoundTrips win (utf8 cs) ↔ ∀ c ∈ cs, c.toNat < 0x80 := by
  have hbytes := length_utf8_le cs
  have hconvert : convertStrToLPXloper win (utf8 cs) = _ :=
    convertStrToLPXloper_eq win (by omega)
  rw [RoundTrips, hconvert, ← length_utf16_eq_iff]
  -- as many bytes as units: then the block has room for the terminator
  by_cases h : (utf8 cs).length = (utf16 cs).length
  · rw [if_pos h]
    constructor
    · intro _
      exact h.symm
    · intro heq
      have hascii := (length_utf16_eq_iff cs).mp heq
      exact ⟨_, rfl, (lpXloperToStr_countedText win hnul hlen).mpr hascii⟩
  · rw [if_neg h]
    constructor
    · rintro ⟨cell, hcell, -⟩
      cases hcell
    · intro heq
      exact absurd heq.symm h

/-- A letter comes back. -/
theorem roundTrips_iff_letter :
    RoundTrips Win32.unicode (utf8 ['a']) ↔ ∀ c ∈ ['a'], c.toNat < 0x80 :=
  roundTrips_iff Win32.unicode (by decide) (by decide)

/-- A letter with an accent takes two bytes and one unit, so it does not come back. -/
theorem not_roundTrips_accent : ¬ ∀ (win : Win32) (cs : List Char), Char.ofNat 0 ∉ cs →
    (utf16 cs).length ≤ 32767 → RoundTrips win (utf8 cs) := by
  intro h
  obtain ⟨cell, hcell, -⟩ := h Win32.unicode ['é'] (by decide) (by decide)
  rw [convertStrToLPXloper_eq _ (by decide), if_neg (by decide)] at hcell
  cases hcell

end Oxl.XlApi
