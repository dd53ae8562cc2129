import OdinAnalytics.Native.ExcelBase
import OdinAnalytics.Spec.XlArrayCorrect
import OdinAnalytics.Spec.XlUtilsCorrect

/-!
# The table of the cash flows

A table shows a flow in a row, with its dates as serial numbers and its currency and type
as names. Nothing is lost: the flows can be read back from the table, also after it went
into cells and came back.

## Key results

- `decodeRow_cashflowRow`: a row tells its flow
- `decodeTable_convert`: a table tells its flows
- `lpXloperToXlArray_handBack`: and it comes back from cells
-/

namespace Oxl.XlApi

open Machine OA.Time OA.DerivedTime

/-! ## Reading a row -/

/-- The whole number that a double is. -/
def wholeOf : Double → Option Int
  | .finite value => if value.den = 1 then some value.num else none
  | _ => none

/-- An `int` is told from its `double`. -/
theorem wholeOf_ofInt (n : Int) : wholeOf (.ofInt n) = some n := rfl

/-- The value with a name. -/
def ofCleanName {α : Type} (values : List α) (cleanName : α → String) (name : Bytes) : Option α :=
  values.find? fun value => bytes (cleanName value) = name

/-- The flow that a row shows. -/
def decodeRow : List XlVariant → Option (CashflowStruct Double)
  | [.double unadjStartDate, .double unadjEndDate, .double startDate, .double endDate,
      .double fixingDate, .double paymentDate, .double notional, .double rate,
      .double cashflowAmount, .double npvCashflowAmount, .double days, .double dayCountFraction,
      .string cfCurr, .string cfType] => do
    let dateOf (serial : Double) : Option Date := do
      return ⟨(← wholeOf serial) + kXlJulianOffSet⟩
    return {
      unadjStartDate := ← dateOf unadjStartDate
      unadjEndDate := ← dateOf unadjEndDate
      startDate := ← dateOf startDate
      endDate := ← dateOf endDate
      fixingDate := ← dateOf fixingDate
      paymentDate := ← dateOf paymentDate
      notional := notional
      rate := rate
      cashflowAmount := cashflowAmount
      npvCashflowAmount := npvCashflowAmount
      days := ← wholeOf days
      dayCountFraction := dayCountFraction
      cfCurr := ← ofCleanName [.kUSD, .kEUR, .kGBP, .kJPY, .kCHF, .kAUD, .kCAD, .kNZD, .kCNY,
        .kINR] Currency.cleanName cfCurr
      cfType := ← ofCleanName [.kFixed, .kFloating, .kPrincipal, .kEquity] CashflowType.cleanName
        cfType }
  | _ => none

/-- The flows that a table shows under its header. -/
def decodeTable (table : XlArray) : Option (List (CashflowStruct Double)) :=
  match table.data with
  | header :: rows => if header = cashflowHeader then rows.mapM decodeRow else none
  | [] => none

/-- The name of a currency tells the currency. -/
theorem ofCleanName_currency (cfCurr : Currency) :
    ofCleanName [.kUSD, .kEUR, .kGBP, .kJPY, .kCHF, .kAUD, .kCAD, .kNZD, .kCNY, .kINR]
      Currency.cleanName (bytes cfCurr.cleanName) = some cfCurr := by
  cases cfCurr <;> decide +kernel

/-- The name of a type tells the type. -/
theorem ofCleanName_cashflowType (cfType : CashflowType) :
    ofCleanName [.kFixed, .kFloating, .kPrincipal, .kEquity] CashflowType.cleanName
      (bytes cfType.cleanName) = some cfType := by
  cases cfType <;> decide +kernel

/-- A row tells its flow. -/
theorem decodeRow_cashflowRow {cf : CashflowStruct Double} {row : List XlVariant}
    (h : cashflowRow cf = .ok row) : decodeRow row = some cf := by
  unfold cashflowRow at h
  obtain ⟨d₁, h₁, h⟩ := bind_eq_ok.mp h
  obtain ⟨d₂, h₂, h⟩ := bind_eq_ok.mp h
  obtain ⟨d₃, h₃, h⟩ := bind_eq_ok.mp h
  obtain ⟨d₄, h₄, h⟩ := bind_eq_ok.mp h
  obtain ⟨d₅, h₅, h⟩ := bind_eq_ok.mp h
  obtain ⟨d₆, h₆, h⟩ := bind_eq_ok.mp h
  cases h
  -- each serial decodes to the date it was written for
  simp only [toExcelDate_eq_ok h₁, toExcelDate_eq_ok h₂, toExcelDate_eq_ok h₃, toExcelDate_eq_ok h₄,
    toExcelDate_eq_ok h₅, toExcelDate_eq_ok h₆, decodeRow, wholeOf_ofInt, ofCleanName_currency,
    ofCleanName_cashflowType, Option.bind_eq_bind, Option.bind_some, Option.pure_def,
    Int.sub_add_cancel]

/-! ## Writing the rows -/

/-- Setting a row changes this row only. -/
theorem XlArray.setRow_eq_ok {array array' : XlArray} {index : Nat} {row : List XlVariant}
    (h : array.setRow index row = .ok array') :
    index < array.data.length ∧ array'.data = array.data.set index row := by
  unfold setRow at h
  split at h
  · cases h
  · next old hold =>
    -- the row is there, and the new one is as long
    obtain ⟨hlt, -⟩ := List.getElem?_eq_some_iff.mp hold
    split at h
    · cases h
      exact ⟨hlt, rfl⟩
    · cases h

/-- The header is written, and the rows of the first `i` flows. -/
structure Written (cfs : List (CashflowStruct Double)) (i : Nat) (array : XlArray) : Prop where
  length_eq : array.data.length = cfs.length + 1
  rows : ∃ rows, array.data.take (i + 1) = cashflowHeader :: rows ∧
    List.Forall₂ (fun cf row => cashflowRow cf = .ok row) (cfs.take i) rows

/-- Writing the row of the next flow. -/
theorem Written.setRow {cfs : List (CashflowStruct Double)} {i : Nat} {array array' : XlArray}
    {cf : CashflowStruct Double} {row : List XlVariant} (h : Written cfs i array)
    (hcf : cfs[i]? = some cf) (hrow : cashflowRow cf = .ok row)
    (hset : array.setRow (i + 1) row = .ok array') : Written cfs (i + 1) array' := by
  obtain ⟨rows, htake, hrows⟩ := h.rows
  obtain ⟨hlt, hdata⟩ := XlArray.setRow_eq_ok hset
  constructor
  · rw [hdata, List.length_set, h.length_eq]
  · -- the row joins those written before
    refine ⟨rows ++ [row], ?_, ?_⟩
    · rw [hdata]
      rw [Block.take_succ_set hlt, htake]
      rfl
    · rw [List.take_add_one, hcf]
      exact List.rel_append hrows (List.Forall₂.cons hrow .nil)

/-- The table has a row for each flow, under the header. -/
theorem convertCFStructToXlArray_eq_ok {cfs : List (CashflowStruct Double)} {table : XlArray}
    (h : convertCFStructToXlArray cfs .kFixed = .ok table) :
    ∃ rows, table.data = cashflowHeader :: rows ∧
      List.Forall₂ (fun cf row => cashflowRow cf = .ok row) cfs rows := by
  obtain ⟨xlResults, hheader, hloop⟩ := bind_eq_ok.mp h
  obtain ⟨hlt, hdata⟩ := XlArray.setRow_eq_ok hheader
  -- the header is the first row
  have hstart : Written cfs 0 xlResults := by
    constructor
    · rw [hdata]
      simp [XlArray.fill]
    · refine ⟨[], ?_, .nil⟩
      rw [hdata]
      exact Block.take_succ_set hlt cashflowHeader
  -- the loop invariant: the rows so far are those of the flows so far
  have hwritten : Post (.ok table) (fun _ => True) (Written cfs cfs.length) := by
    rw [← hloop]
    refine forRange_post (Written cfs) ?_ hstart
    intro i hi array harray
    have hcf : cfs[i]? = some cfs[i] := List.getElem?_eq_getElem hi
    rw [Block.load_eq hcf, ok_bind]
    cases hrow : cashflowRow cfs[i] with
    | error f => trivial
    | ok row =>
      rw [ok_bind]
      cases hset : array.setRow (i + 1) row with
      | error f => trivial
      | ok array' => exact harray.setRow hcf hrow hset
  obtain ⟨hlength, rows, htake, hrows⟩ := post_ok.mp hwritten
  refine ⟨rows, ?_, ?_⟩
  · rw [← htake, List.take_of_length_le (by omega)]
  · rwa [List.take_length] at hrows

/-- A table tells its flows. -/
theorem decodeTable_convert {cfs : List (CashflowStruct Double)} {table : XlArray}
    (h : convertCFStructToXlArray cfs .kFixed = .ok table) : decodeTable table = some cfs := by
  obtain ⟨rows, hdata, hrows⟩ := convertCFStructToXlArray_eq_ok h
  -- row by row
  have hdecode : rows.mapM decodeRow = some cfs := by
    clear hdata h
    induction hrows with
    | nil => rfl
    | cons hrow _ ih =>
      rw [List.mapM_cons, decodeRow_cashflowRow hrow, ih]
      rfl
  rw [decodeTable, hdata]
  simp only [if_true]
  exact hdecode

/-! ## Through the cells -/

/-- The strings of ASCII bytes among the plain elements. -/
def isAsciiText : XlVariant → Bool
  | .string s => s.all (fun c => decide (0 < c.toNat ∧ c.toNat < 0x80)) && s.length ≤ 32767
  | _ => true

/-- A short text of ASCII characters is plain. -/
theorem isPlain_of_isAsciiText {value : XlVariant} (h : isAsciiText value = true) :
    IsPlain value := by
  cases value with
  | string s =>
    simp only [isAsciiText, Bool.and_eq_true, List.all_eq_true, decide_eq_true_eq] at h
    exact h
  | double value => trivial
  | bool value => trivial

/-- The names in the table are such texts. -/
theorem isAsciiText_names (cfCurr : Currency) (cfType : CashflowType) :
    isAsciiText (.string (bytes cfCurr.cleanName)) = true ∧
      isAsciiText (.string (bytes cfType.cleanName)) = true := by
  cases cfCurr <;> cases cfType <;> decide +kernel

/-- All texts in a row of the table are such texts. -/
theorem isAsciiText_cashflowRow {cf : CashflowStruct Double} {row : List XlVariant}
    (h : cashflowRow cf = .ok row) : row.all isAsciiText = true := by
  obtain ⟨hcfCurr, hcfType⟩ := isAsciiText_names cf.cfCurr cf.cfType
  unfold cashflowRow at h
  -- six dates are written as numbers
  obtain ⟨d₁, -, h⟩ := bind_eq_ok.mp h
  obtain ⟨d₂, -, h⟩ := bind_eq_ok.mp h
  obtain ⟨d₃, -, h⟩ := bind_eq_ok.mp h
  obtain ⟨d₄, -, h⟩ := bind_eq_ok.mp h
  obtain ⟨d₅, -, h⟩ := bind_eq_ok.mp h
  obtain ⟨d₆, -, h⟩ := bind_eq_ok.mp h
  cases h
  simp only [List.all_cons, List.all_nil, hcfCurr, hcfType]
  rfl

/-- Every element of a table is plain. -/
theorem isPlain_table {cfs : List (CashflowStruct Double)} {table : XlArray}
    (h : convertCFStructToXlArray cfs .kFixed = .ok table) (i j : Nat) (value : XlVariant)
    (hvalue : table.get? i j = some value) : IsPlain value := by
  obtain ⟨rows, hdata, hrows⟩ := convertCFStructToXlArray_eq_ok h
  obtain ⟨row, hrow, hvalue⟩ := Option.bind_eq_some_iff.mp hvalue
  rw [hdata] at hrow
  have hmem := List.mem_of_getElem? hvalue
  apply isPlain_of_isAsciiText
  -- a cell of the header, or one of a flow
  rcases List.mem_cons.mp (List.mem_of_getElem? hrow) with rfl | hmemrow
  · have hheader : cashflowHeader.all isAsciiText = true := by decide +kernel
    exact List.all_eq_true.mp hheader value hmem
  · obtain ⟨cf, -, hcf⟩ := (exists_of_forall₂ hrows).2 row hmemrow
    exact List.all_eq_true.mp (isAsciiText_cashflowRow hcf) value hmem

/-- The size of a table. -/
theorem size_table {cfs : List (CashflowStruct Double)} {table : XlArray}
    (h : convertCFStructToXlArray cfs .kFixed = .ok table) :
    table.rows = cfs.length + 1 ∧ table.cols = 14 := by
  obtain ⟨rows, hdata, hrows⟩ := convertCFStructToXlArray_eq_ok h
  constructor
  · rw [← table.length_data, hdata, List.length_cons, hrows.length_eq]
  · rw [← table.length_row cashflowHeader (by rw [hdata]; exact List.mem_cons_self)]
    rfl

/-- A table comes back from its cells, if their number is an `int`. -/
theorem lpXloperToXlArray_handBack {win : Win32} {cfs : List (CashflowStruct Double)}
    {table : XlArray} {rows columns : Int} {lparray : List Xloper12}
    (h : convertCFStructToXlArray cfs .kFixed = .ok table)
    (hcell : convertArrayToLPXloper win table = .ok (.multi rows columns lparray true))
    (hlen : lparray.length ≤ 2147483647) :
    lpXloperToXlArray win (Xloper12.multi rows columns lparray true).handBack = .ok table := by
  -- one row for each flow and one of titles, in fourteen columns
  obtain ⟨hrows, hcols⟩ := size_table h
  have hmade := convertArrayToLPXloper_post (E := fun _ => False) win (isPlain_table h)
  rw [hcell, post_ok] at hmade
  obtain ⟨lparray', heq, hholds⟩ := hmade
  -- the cell is the one that the table was written into
  obtain ⟨hrowsCell, hcolsCell, hcells, -⟩ := Xloper12.multi.inj heq
  have hlength := hholds.length_eq
  rw [← hcells, hrows, hcols] at hlength
  rw [hrowsCell, hcolsCell, hcells, castInt_eq (by omega), castInt_eq (by omega)]
  exact (lpXloperToXlArray_post hholds).eq_ok

end Oxl.XlApi
