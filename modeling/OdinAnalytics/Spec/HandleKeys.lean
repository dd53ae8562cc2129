import OdinAnalytics.Native.CacheXlObj
import OdinAnalytics.Spec.XloperCorrect

/-!
# Keys of handles

The key of an object is made of its kind, of the name of the sheet that asks for the
handle, and of the row and the column of the cell. The name of the workbook is erased,
so sheets of the same name share their keys. What is left of a name with other than
ASCII characters also lacks its last bytes.

## Key results

- `genHandleStrFrom_eq`: the key of a cell
- `key_inj`: what a key determines
- `keysApart_iff`: the calls that share a key only if they are of one cell and kind
-/

namespace Oxl.XlApi

open Machine Utf

variable {A D : Type} {win : Win32}

/-- What `xlSheetNm` writes for a sheet. -/
def sheetNm (workbook sheet : List Char) : List Char := '[' :: (workbook ++ ']' :: sheet)

/-- What follows the first closing bracket, or everything if there is none. -/
def afterBracket (name : Bytes) : Bytes :=
  match name.findIdx? (· = 93) with
  | none => name
  | some last => name.drop (last + 1)

/-- A cell of a sheet of a workbook, with names that a counted string has room for. -/
@[ext] structure SheetCell where
  workbook : List Char
  sheet : List Char
  row : Int
  col : Int
  not_mem_workbook : '[' ∉ workbook ∧ ']' ∉ workbook
  not_mem_sheet : '[' ∉ sheet ∧ ']' ∉ sheet
  length_lt : (utf16 (sheetNm workbook sheet)).length < 65536

namespace SheetCell

/-- What Excel says about a cell. -/
def caller (cell : SheetCell) : Caller :=
  ⟨.str (countedText (sheetNm cell.workbook cell.sheet)) false, cell.row, cell.col⟩

/-- What is read of the name: as many bytes as it has units, up to a NUL. -/
def readName (cell : SheetCell) : Bytes :=
  (utf8 ((sheetNm cell.workbook cell.sheet).takeWhile (· ≠ Char.ofNat 0))).take
    (utf16 (sheetNm cell.workbook cell.sheet)).length

/-- What is kept of the name. -/
def keptName (cell : SheetCell) : Bytes := afterBracket cell.readName

end SheetCell

/-! ## The key of a cell -/

/-- What is not there has no index. -/
theorem findIdx?_eq_none {c : UInt8} {s : Bytes} (h : c ∉ s) : s.findIdx? (· = c) = none := by
  rw [List.findIdx?_eq_none_iff]
  intro c' hc'
  rw [decide_eq_false_iff_not]
  rintro rfl
  exact h hc'

/-- Everything through the first bracket is cut off. -/
theorem afterBracket_append {before : Bytes} (h : 93 ∉ before) (rest : Bytes) :
    afterBracket (before ++ 93 :: rest) = rest := by
  have hindex : (before ++ 93 :: rest).findIdx? (· = 93) = some before.length := by
    rw [List.findIdx?_append, findIdx?_eq_none h]
    simp [List.findIdx?_cons]
  rw [afterBracket, hindex]
  simp

/-- How the row and the column are written behind a name. -/
def formatPosition (cell : SheetCell) : Bytes :=
  95 :: 36 :: (Decimal.reprInt cell.row ++ 36 :: Decimal.reprInt cell.col)

/-- What a key consists of. -/
def formatKey (cell : SheetCell) (cachedObj : CachedObjVar A D) : Bytes :=
  handlePrefixer cachedObj ++ (cell.keptName ++ formatPosition cell)

/-- A number is printed with digits and a minus sign only. -/
theorem not_mem_reprInt {c : UInt8} (h : Decimal.isDigit c = false) (hminus : c ≠ 45) (n : Int) :
    c ∉ Decimal.reprInt n := by
  intro hc
  rcases Decimal.isDigit_of_mem_reprInt hc with hdigit | rfl
  · rw [h] at hdigit
    cases hdigit
  · exact hminus rfl

/-- A counted text is read up to a NUL, and cut after as many bytes as it has units. -/
theorem lpXloperToStr_cut (win : Win32) {cs : List Char} (h : (utf16 cs).length < 65536) :
    lpXloperToStr win (.str (countedText cs) false) =
      .ok ((utf8 (cs.takeWhile (· ≠ Char.ofNat 0))).take (utf16 cs).length) := by
  have hcount : (UInt16.ofNat (utf16 cs).length).toNat = (utf16 cs).length :=
    UInt16.toNat_ofNat_of_lt' h
  -- the terminator, or a zero within the text, ends it
  have hterminated : wstringOf (utf16 cs ++ [0]) =
      .ok (utf16 (cs.takeWhile (· ≠ Char.ofNat 0))) := by
    rw [wstringOf, if_pos (by simp), takeWhile_utf16]
  -- what is left has no zero, so it is converted whole
  have hnul : Char.ofNat 0 ∉ cs.takeWhile (· ≠ Char.ofNat 0) := by
    intro hmem
    exact absurd (List.mem_takeWhile_imp hmem) (by decide)
  -- the block is as long as the count says, which the shorter text fits
  have hle : (utf16 (cs.takeWhile (· ≠ Char.ofNat 0))).length ≤ (utf16 cs).length := by
    obtain ⟨rest, hrest⟩ := List.takeWhile_prefix (l := cs) (· ≠ Char.ofNat 0)
    conv_rhs => rw [← hrest, utf16, List.flatMap_append, List.length_append]
    exact Nat.le_add_right _ _
  unfold countedText lpXloperToStr
  simp only
  rw [hterminated, ok_bind, toUTF8String_utf16 hnul (by omega), hcount]
  rfl

namespace SheetCell

/-- What is read of a name begins with the opening bracket. -/
theorem exists_readName (cell : SheetCell) : ∃ rest, cell.readName = 91 :: rest := by
  have hbracket : utf8 ['['] = [91] := by decide
  obtain ⟨n, hn⟩ : ∃ n, (utf16 (sheetNm cell.workbook cell.sheet)).length = n + 1 :=
    ⟨_, rfl⟩
  rw [readName, hn, sheetNm, List.takeWhile_cons, if_pos (by decide), utf8_cons]
  exact ⟨_, rfl⟩

/-- The name of a cell is what is kept of its sheet, and its position. -/
theorem cellName_caller (win : Win32) (cell : SheetCell) :
    cellName win cell.caller = .ok (cell.readName ++ formatPosition cell) := by
  have hseparator : bytes "_$" = [95, 36] ∧ bytes "$" = [36] := by decide
  unfold cellName caller formatPosition
  simp only
  rw [lpXloperToStr_cut win cell.length_lt, ok_bind, hseparator.1, hseparator.2]
  change Except.ok _ = Except.ok _
  simp [readName]

end SheetCell

/-- A position has no bracket. -/
theorem not_mem_formatPosition (cell : SheetCell) : 93 ∉ formatPosition cell := by
  have hbracket : ∀ n, (93 : UInt8) ∉ Decimal.reprInt n :=
    not_mem_reprInt (by decide) (by decide)
  simp [formatPosition, hbracket]

/-- The name of the workbook is erased from what a cell is called. -/
theorem XlCacheObj.genHandleStr_eq (cachedObj : CachedObjVar A D) {name rest suffix : Bytes}
    (hname : name = 91 :: rest) (hsuffix : 93 ∉ suffix) :
    genHandleStr (name ++ suffix) cachedObj =
      .ok (handlePrefixer cachedObj ++ (afterBracket name ++ suffix)) := by
  -- the opening bracket comes first, so nothing before it is kept
  have hstart : (name ++ suffix).findIdx? (· = 91) = some 0 := by
    rw [hname]
    rfl
  unfold genHandleStr afterBracket
  rw [hstart, List.findIdx?_append, findIdx?_eq_none hsuffix]
  simp only [List.take_zero, List.nil_append, Nat.zero_add, Option.map_none]
  -- without a closing bracket the whole name is kept
  cases hlast : name.findIdx? (· = 93) with
  | none => rfl
  | some last =>
    have hle : last + 1 ≤ name.length := (List.findIdx?_eq_some_iff_findIdx_eq.mp hlast).1
    simp only [Option.some_or]
    rw [List.drop_append_of_le_length hle]

/-- The key of a cell, whatever the names. -/
theorem XlCacheObj.genHandleStrFrom_eq (win : Win32) (cell : SheetCell)
    (cachedObj : CachedObjVar A D) :
    genHandleStrFrom win cell.caller cachedObj = .ok (formatKey cell cachedObj) := by
  obtain ⟨rest, hrest⟩ := cell.exists_readName
  unfold genHandleStrFrom
  rw [cell.cellName_caller, ok_bind, genHandleStr_eq cachedObj hrest (not_mem_formatPosition cell)]
  rfl

/-! ## What a key determines -/

/-- The prefix tells the kind of object. -/
theorem handlePrefixer_append {cachedObj cachedObj' : CachedObjVar A D} {s s' : Bytes}
    (h : handlePrefixer cachedObj ++ s = handlePrefixer cachedObj' ++ s') :
    cachedObj.holdsDictionary = cachedObj'.holdsDictionary ∧ s = s' := by
  have harray : bytes "Array_" = 65 :: bytes "rray_" := by decide
  have hdictionary : bytes "Dictionary_" = 68 :: bytes "ictionary_" := by decide
  -- the kinds differ in their first letter
  cases cachedObj <;> cases cachedObj'
  · exact ⟨rfl, List.append_cancel_left h⟩
  · simp [handlePrefixer, harray, hdictionary] at h
  · simp [handlePrefixer, harray, hdictionary] at h
  · exact ⟨rfl, List.append_cancel_left h⟩

/-- The position is told from the end of the key. -/
theorem formatPosition_append {cell cell' : SheetCell} {s s' : Bytes}
    (h : s ++ formatPosition cell = s' ++ formatPosition cell') :
    s = s' ∧ cell.row = cell'.row ∧ cell.col = cell'.col := by
  have hdollar : ∀ n, (36 : UInt8) ∉ Decimal.reprInt n := not_mem_reprInt (by decide) (by decide)
  -- the last dollar sign, and then the one before
  have hcol : (s ++ 95 :: 36 :: Decimal.reprInt cell.row) ++ 36 :: Decimal.reprInt cell.col =
      (s' ++ 95 :: 36 :: Decimal.reprInt cell'.row) ++ 36 :: Decimal.reprInt cell'.col := by
    simpa [formatPosition] using h
  obtain ⟨hleft, hcol⟩ := append_cons_inj (hdollar _) (hdollar _) hcol
  have hrow : (s ++ [95]) ++ 36 :: Decimal.reprInt cell.row =
      (s' ++ [95]) ++ 36 :: Decimal.reprInt cell'.row := by
    simpa using hleft
  obtain ⟨hname, hrow⟩ := append_cons_inj (hdollar _) (hdollar _) hrow
  exact ⟨List.append_cancel_right hname, Decimal.reprInt_injective hrow,
    Decimal.reprInt_injective hcol⟩

/-- Equal keys are of one kind, one row, one column and one kept name. -/
theorem formatKey_inj {cell cell' : SheetCell} {cachedObj cachedObj' : CachedObjVar A D} :
    formatKey cell cachedObj = formatKey cell' cachedObj' ↔
      cachedObj.holdsDictionary = cachedObj'.holdsDictionary ∧
        cell.keptName = cell'.keptName ∧ cell.row = cell'.row ∧ cell.col = cell'.col := by
  constructor
  · intro h
    -- the prefix tells the kind, the rest the position
    obtain ⟨hkind, h⟩ := handlePrefixer_append h
    exact ⟨hkind, formatPosition_append h⟩
  · rintro ⟨hkind, hname, hrow, hcol⟩
    have hprefix : handlePrefixer cachedObj = handlePrefixer cachedObj' := by
      cases cachedObj <;> cases cachedObj'
      all_goals first | rfl | cases hkind
    rw [formatKey, formatKey, formatPosition, formatPosition, hprefix, hname, hrow, hcol]

/-! ## Which cells share a key -/

/-- The two calls get the same key only if they are made from one cell, for objects of one
    kind. -/
def KeysApart (win : Win32) (cell cell' : SheetCell) (cachedObj cachedObj' : CachedObjVar A D) :
    Prop :=
  ∀ key, XlCacheObj.genHandleStrFrom win cell.caller cachedObj = .ok key →
    XlCacheObj.genHandleStrFrom win cell'.caller cachedObj' = .ok key →
      cell = cell' ∧ cachedObj.holdsDictionary = cachedObj'.holdsDictionary

/-- Keys are apart where names, positions and kinds of objects tell the cells apart. -/
theorem keysApart_of_names {cachedObj cachedObj' : CachedObjVar A D} {cell cell' : SheetCell}
    (h : cachedObj.holdsDictionary = cachedObj'.holdsDictionary → cell.row = cell'.row →
      cell.col = cell'.col → cell.keptName = cell'.keptName →
        cell.workbook = cell'.workbook ∧ cell.sheet = cell'.sheet) :
    KeysApart win cell cell' cachedObj cachedObj' := by
  intro key hkey hkey'
  rw [XlCacheObj.genHandleStrFrom_eq, Except.ok.injEq] at hkey hkey'
  obtain ⟨hkind, hname, hrow, hcol⟩ := formatKey_inj.mp (hkey.trans hkey'.symm)
  obtain ⟨hworkbook, hsheet⟩ := h hkind hrow hcol hname
  exact ⟨SheetCell.ext hworkbook hsheet hrow hcol, hkind⟩

/-- An ASCII name is kept from the closing bracket on. -/
theorem SheetCell.keptName_ascii (cell : SheetCell)
    (hascii : ∀ c ∈ sheetNm cell.workbook cell.sheet, c.toNat < 0x80)
    (hnul : Char.ofNat 0 ∉ sheetNm cell.workbook cell.sheet) :
    cell.keptName = utf8 cell.sheet := by
  -- nothing cuts the name short
  have hwhole : (sheetNm cell.workbook cell.sheet).takeWhile (· ≠ Char.ofNat 0) =
      sheetNm cell.workbook cell.sheet := by
    rw [List.takeWhile_eq_self_iff]
    intro c hc
    rw [decide_eq_true_iff]
    rintro rfl
    exact hnul hc
  have hbrackets : String.utf8EncodeChar '[' = [91] ∧ String.utf8EncodeChar ']' = [93] := by
    decide
  -- one byte per character
  have hread : cell.readName = (91 :: utf8 cell.workbook) ++ 93 :: utf8 cell.sheet := by
    rw [readName, hwhole, (length_utf16_eq_iff _).mpr hascii, List.take_length]
    simp [sheetNm, utf8, hbrackets]
  -- the first closing bracket is the one of the workbook
  have hbracket : (93 : UInt8) ∉ utf8 cell.workbook := by
    refine not_mem_utf8_ascii (fun c hc => hascii c ?_) cell.not_mem_workbook.2
    simp [sheetNm, hc]
  rw [keptName, hread, afterBracket_append (by simp [hbracket])]

/-- In one workbook the sheets with ASCII names have keys of their own. -/
theorem keysApart_of_workbook (cachedObj cachedObj' : CachedObjVar A D) {cell cell' : SheetCell}
    (hworkbook : cell.workbook = cell'.workbook)
    (hascii : ∀ c ∈ sheetNm cell.workbook cell.sheet, c.toNat < 0x80)
    (hnul : Char.ofNat 0 ∉ sheetNm cell.workbook cell.sheet)
    (hascii' : ∀ c ∈ sheetNm cell'.workbook cell'.sheet, c.toNat < 0x80)
    (hnul' : Char.ofNat 0 ∉ sheetNm cell'.workbook cell'.sheet) :
    KeysApart win cell cell' cachedObj cachedObj' := by
  apply keysApart_of_names
  intro _ _ _ hname
  rw [cell.keptName_ascii hascii hnul, cell'.keptName_ascii hascii' hnul'] at hname
  refine ⟨hworkbook, ?_⟩
  rw [← utf8Decode_utf8 cell.sheet, hname, utf8Decode_utf8]

namespace XlCacheObj

/-- Keys tell two calls apart exactly if the kept names do where all else agrees. -/
theorem keysApart_iff (win : Win32) (cell cell' : SheetCell)
    (cachedObj cachedObj' : CachedObjVar A D) :
    KeysApart win cell cell' cachedObj cachedObj' ↔
      (cachedObj.holdsDictionary = cachedObj'.holdsDictionary → cell.row = cell'.row →
        cell.col = cell'.col → cell.keptName = cell'.keptName →
          cell.workbook = cell'.workbook ∧ cell.sheet = cell'.sheet) := by
  constructor
  · intro h hkind hrow hcol hname
    have hkey := formatKey_inj.mpr ⟨hkind, hname, hrow, hcol⟩
    obtain ⟨rfl, -⟩ := h _ (genHandleStrFrom_eq win cell cachedObj)
      (hkey ▸ genHandleStrFrom_eq win cell' cachedObj')
    exact ⟨rfl, rfl⟩
  · exact keysApart_of_names

/-- The same cell of the sheets of one name in two workbooks. -/
theorem not_keysApart : ¬ ∀ (win : Win32) (cell cell' : SheetCell)
    (cachedObj cachedObj' : CachedObjVar Unit Unit),
    KeysApart win cell cell' cachedObj cachedObj' := by
  intro h
  have hcell := h Win32.unicode
    ⟨['a'], ['s'], 0, 0, by decide, by decide, by decide⟩
    ⟨['b'], ['s'], 0, 0, by decide, by decide, by decide⟩ (.array ()) (.array ()) _
    (genHandleStrFrom_eq _ _ _) ((genHandleStrFrom_eq _ _ _).trans (congrArg _ (by decide)))
  exact absurd hcell.1 (by simp)

end XlCacheObj

end Oxl.XlApi
