import Mathlib.Data.List.Basic
import Mathlib.Tactic.Common

/-!
# UTF-8 and UTF-16

A text is a list of characters, `utf8` and `utf16` encode it, and the decoders
read well-formed encodings back. A character takes one to four bytes, and one or
two 16-bit units.

## Key results

- `utf8Decode_utf8`, `utf16Decode_utf16`: what is encoded is decoded
- `length_utf16_eq_iff`: a text has as many units as bytes exactly if it is ASCII
-/

namespace Utf

/-- The UTF-8 encoding of a text. -/
def utf8 (cs : List Char) : List UInt8 := cs.flatMap String.utf8EncodeChar

/-- The UTF-16 units of a character: one, or a pair of surrogates. -/
def utf16EncodeChar (c : Char) : List UInt16 :=
  if c.toNat < 0x10000 then [UInt16.ofNat c.toNat]
  else [UInt16.ofNat (0xD800 + (c.toNat - 0x10000) / 0x400),
    UInt16.ofNat (0xDC00 + (c.toNat - 0x10000) % 0x400)]

/-- The UTF-16 encoding of a text. -/
def utf16 (cs : List Char) : List UInt16 := cs.flatMap utf16EncodeChar

/-- The text of well-formed UTF-8. -/
def utf8Decode (s : List UInt8) : List Char :=
  match s.toByteArray.utf8Decode? with
  | some cs => cs.toList
  | none => []

/-- The text of well-formed UTF-16. -/
def utf16Decode : List UInt16 → List Char
  | [] => []
  | u :: us =>
    if 0xD800 ≤ u.toNat ∧ u.toNat < 0xDC00 then
      match us with
      | [] => []
      | v :: us =>
        Char.ofNat (0x10000 + (u.toNat - 0xD800) * 0x400 + (v.toNat - 0xDC00)) :: utf16Decode us
    else Char.ofNat u.toNat :: utf16Decode us

@[simp] theorem utf8_nil : utf8 [] = [] := rfl

@[simp] theorem utf8_cons (c : Char) (cs : List Char) :
    utf8 (c :: cs) = String.utf8EncodeChar c ++ utf8 cs := rfl

@[simp] theorem utf16_nil : utf16 [] = [] := rfl

@[simp] theorem utf16_cons (c : Char) (cs : List Char) :
    utf16 (c :: cs) = utf16EncodeChar c ++ utf16 cs := rfl

/-! ## Characters -/

/-- A character is no surrogate. -/
theorem toNat_cases (c : Char) :
    c.toNat < 0xD800 ∨ 0xE000 ≤ c.toNat ∧ c.toNat < 0x110000 := by
  cases c.valid with
  | inl h => exact Or.inl h
  | inr h => exact Or.inr ⟨Nat.succ_le_of_lt h.1, h.2⟩

/-- The length of a character in bytes, by its code: ASCII, one unit, two units. -/
theorem utf8Size_cases (c : Char) : c.utf8Size = 1 ∧ c.toNat < 0x80 ∨
    (c.utf8Size = 2 ∨ c.utf8Size = 3) ∧ 0x80 ≤ c.toNat ∧ c.toNat < 0x10000 ∨
    c.utf8Size = 4 ∧ 0x10000 ≤ c.toNat := by
  unfold Char.utf8Size Char.toNat
  simp only [UInt32.le_iff_toNat_le]
  repeat' split
  all_goals simp_all; try omega

/-- The units of a character are at most its bytes, as many for ASCII only, and at least
    a third of them. -/
theorem length_utf16EncodeChar (c : Char) :
    (utf16EncodeChar c).length ≤ (String.utf8EncodeChar c).length ∧
      ((utf16EncodeChar c).length = (String.utf8EncodeChar c).length ↔ c.toNat < 0x80) ∧
      (String.utf8EncodeChar c).length ≤ 3 * (utf16EncodeChar c).length := by
  have hsize := utf8Size_cases c
  rw [String.length_utf8EncodeChar, utf16EncodeChar]
  split
  · simp only [List.length_singleton]
    omega
  · simp only [List.length_cons, List.length_nil]
    omega

/-- A NUL unit is the NUL character. -/
theorem zero_mem_utf16EncodeChar {c : Char} (h : (0 : UInt16) ∈ utf16EncodeChar c) :
    c = Char.ofNat 0 := by
  have hc := toNat_cases c
  unfold utf16EncodeChar at h
  split at h
  · next hlt =>
    rw [List.mem_singleton, ← UInt16.toNat_inj, UInt16.toNat_ofNat_of_lt' hlt] at h
    rw [← Char.ofNat_toNat c, ← h]
    rfl
  · -- surrogates are at least 0xD800
    simp only [List.mem_cons, List.not_mem_nil, or_false, ← UInt16.toNat_inj] at h
    rw [UInt16.toNat_ofNat_of_lt' (by simp [UInt16.size]; omega),
      UInt16.toNat_ofNat_of_lt' (by simp [UInt16.size]; omega)] at h
    simp only [UInt16.toNat_zero] at h
    omega

/-! ## Texts -/

/-- A text without NUL has no zero unit. -/
theorem zero_not_mem_utf16 {cs : List Char} (h : Char.ofNat 0 ∉ cs) :
    (0 : UInt16) ∉ utf16 cs := by
  intro hmem
  obtain ⟨c, hc, hzero⟩ := List.mem_flatMap.mp hmem
  exact h (zero_mem_utf16EncodeChar hzero ▸ hc)

/-- A terminated text is read up to the first NUL. -/
theorem takeWhile_utf16 (cs : List Char) : (utf16 cs ++ [0]).takeWhile (· ≠ 0) =
    utf16 (cs.takeWhile (· ≠ Char.ofNat 0)) := by
  induction cs with
  | nil => rfl
  | cons c cs ih =>
    by_cases hc : c = Char.ofNat 0
    · -- the unit of the null character is zero
      rw [hc]
      rfl
    · -- no unit of another character is zero
      have hunits : ∀ u ∈ utf16EncodeChar c, decide (u ≠ 0) = true := by
        intro u hu
        rw [decide_eq_true_iff]
        rintro rfl
        exact hc (zero_mem_utf16EncodeChar hu)
      rw [utf16_cons, List.append_assoc, List.takeWhile_append_of_pos hunits, ih,
        List.takeWhile_cons, if_pos (decide_eq_true hc), utf16_cons]

/-- A text has no more units than bytes. -/
theorem length_utf16_le (cs : List Char) : (utf16 cs).length ≤ (utf8 cs).length := by
  induction cs with
  | nil => simp
  | cons c cs ih =>
    have hc := (length_utf16EncodeChar c).1
    simp only [utf16_cons, utf8_cons, List.length_append]
    omega

/-- A text has at most three bytes for each unit. -/
theorem length_utf8_le (cs : List Char) : (utf8 cs).length ≤ 3 * (utf16 cs).length := by
  induction cs with
  | nil => simp
  | cons c cs ih =>
    have hc := (length_utf16EncodeChar c).2.2
    simp only [utf16_cons, utf8_cons, List.length_append]
    omega

/-- A text has as many units as bytes exactly if all its characters are ASCII. -/
theorem length_utf16_eq_iff (cs : List Char) :
    (utf16 cs).length = (utf8 cs).length ↔ ∀ c ∈ cs, c.toNat < 0x80 := by
  induction cs with
  | nil => simp
  | cons c cs ih =>
    have hle := length_utf16_le cs
    obtain ⟨hc, hiff, -⟩ := length_utf16EncodeChar c
    simp only [utf16_cons, utf8_cons, List.length_append, List.forall_mem_cons]
    rw [← hiff, ← ih]
    omega

/-- The code of an ASCII character. -/
theorem toNat_ofNat_ascii {n : ℕ} (h : n < 0x80) : (Char.ofNat n).toNat = n := by
  have hvalid : n.isValidChar := Or.inl (by omega)
  rw [Char.ofNat, dif_pos hvalid]
  rfl

/-- An ASCII character is encoded as its code. -/
theorem utf8EncodeChar_ascii {c : Char} (h : c.toNat < 0x80) :
    String.utf8EncodeChar c = [c.val.toUInt8] ∧ c.val.toUInt8.toNat = c.toNat := by
  have hsize : c.utf8Size = 1 := by
    have := utf8Size_cases c
    omega
  refine ⟨String.utf8EncodeChar_eq_singleton hsize, ?_⟩
  rw [UInt32.toNat_toUInt8, Char.toNat_val, Nat.mod_eq_of_lt (by omega)]

/-- ASCII bytes are the encoding of a text, byte by byte. -/
theorem utf8_ascii {s : List UInt8} (h : ∀ c ∈ s, c.toNat < 0x80) :
    utf8 (s.map fun c => Char.ofNat c.toNat) = s := by
  induction s with
  | nil => rfl
  | cons c s ih =>
    have hchar := toNat_ofNat_ascii (h c List.mem_cons_self)
    -- an ASCII character is one byte, its code
    obtain ⟨hencode, hcode⟩ := utf8EncodeChar_ascii (hchar ▸ h c List.mem_cons_self)
    have hbyte := UInt8.toNat_inj.mp (hcode.trans hchar)
    rw [List.map_cons, utf8_cons, hencode, hbyte,
      ih fun c' hc' => h c' (List.mem_cons_of_mem c hc')]
    rfl

/-- The codes that are not in an ASCII text are not in its encoding. -/
theorem not_mem_utf8_ascii {cs : List Char} (hascii : ∀ c ∈ cs, c.toNat < 0x80) {code : UInt8}
    (h : Char.ofNat code.toNat ∉ cs) : code ∉ utf8 cs := by
  intro hcode
  obtain ⟨c, hc, hcode⟩ := List.mem_flatMap.mp hcode
  obtain ⟨hencode, hval⟩ := utf8EncodeChar_ascii (hascii c hc)
  rw [hencode, List.mem_singleton] at hcode
  apply h
  rwa [hcode, hval, Char.ofNat_toNat]

/-- The bytes of an ASCII text are the codes of its characters. -/
theorem utf8_eq_map {cs : List Char} (hascii : ∀ c ∈ cs, c.toNat < 0x80) :
    utf8 cs = cs.map fun c => c.val.toUInt8 := by
  induction cs with
  | nil => rfl
  | cons c cs ih =>
    rw [List.forall_mem_cons] at hascii
    rw [utf8_cons, (utf8EncodeChar_ascii hascii.1).1, ih hascii.2]
    rfl

/-! ## Decoding -/

/-- What was encoded as UTF-8 is decoded. -/
theorem utf8Decode_utf8 (cs : List Char) : utf8Decode (utf8 cs) = cs := by
  have h : (utf8 cs).toByteArray = cs.utf8Encode := rfl
  rw [utf8Decode, h, List.utf8Decode?_utf8Encode]

/-- Decoding takes one character off the front. -/
theorem utf16Decode_append (c : Char) (us : List UInt16) :
    utf16Decode (utf16EncodeChar c ++ us) = c :: utf16Decode us := by
  have hc := toNat_cases c
  unfold utf16EncodeChar
  split
  · next h =>
    -- one unit, which is not a surrogate
    have hu : (UInt16.ofNat c.toNat).toNat = c.toNat := UInt16.toNat_ofNat_of_lt' h
    rw [List.singleton_append, utf16Decode.eq_def]
    simp only [hu]
    rw [if_neg (by omega), Char.ofNat_toNat]
  · -- a pair of surrogates
    have hu : (UInt16.ofNat (0xD800 + (c.toNat - 0x10000) / 0x400)).toNat =
        0xD800 + (c.toNat - 0x10000) / 0x400 :=
      UInt16.toNat_ofNat_of_lt' (by simp [UInt16.size]; omega)
    have hv : (UInt16.ofNat (0xDC00 + (c.toNat - 0x10000) % 0x400)).toNat =
        0xDC00 + (c.toNat - 0x10000) % 0x400 :=
      UInt16.toNat_ofNat_of_lt' (by simp [UInt16.size]; omega)
    have hval : 0x10000 + (0xD800 + (c.toNat - 0x10000) / 0x400 - 0xD800) * 0x400 +
        (0xDC00 + (c.toNat - 0x10000) % 0x400 - 0xDC00) = c.toNat := by omega
    rw [List.cons_append, List.singleton_append, utf16Decode.eq_def]
    simp only [hu, hv]
    rw [if_pos (by omega), hval, Char.ofNat_toNat]

/-- What was encoded as UTF-16 is decoded. -/
theorem utf16Decode_utf16 (cs : List Char) : utf16Decode (utf16 cs) = cs := by
  induction cs with
  | nil => rfl
  | cons c cs ih => rw [utf16_cons, utf16Decode_append, ih]

end Utf
