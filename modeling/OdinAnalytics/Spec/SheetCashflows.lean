import OdinAnalytics.Spec.CashflowTable
import OdinAnalytics.Spec.SheetDates

/-!
# Cash flows on a sheet

`oxlGenerateCashFlows` answers with the table of the flows of a deal. The terms of the deal
and its options are what the dictionary of the call says, the flows are those that
`CreateFixedCashflows` makes of them, and the table tells them all: handed back to the
add-in, it is read as the array that it was.

## Key results

- `oxlGenerateCashflow_leads_iff`: where the table comes from
- `answered_table_decodes`: what the sheet can read from it
-/

namespace Oxl

open Machine Atomic OA OA.Time OA.DerivedTime OA.StaticCache OA.Dao XlApi Transition

variable {host : Host} {boost : Boost} {dataDir : DataDir} {dictionary : XlDictionary}

/-! ## What a dictionary asks for -/

/-- The terms of a deal. -/
structure DealTerms where
  startDate : Date
  matDate : Date
  notional : Double
  rate : Double
  dayCntFrac : DayCountRule
  freq : Tenor
  dateDir : DateDirection

/-- A dictionary has the required keys, and these values under them. -/
structure DescribesDeal (dictionary : XlDictionary) (terms : DealTerms) : Prop where
  valid : validCashflowGenDictionary dictionary = true
  startDate : (dictionary.get (bytes "Start_Date") >>= XlVariant.toDateObj) =
    .ok terms.startDate
  matDate : handleMatDate dictionary = .ok terms.matDate
  notional : (dictionary.get (bytes "Notional") >>= XlVariant.getDouble) = .ok terms.notional
  rate : (dictionary.get (bytes "Rate") >>= XlVariant.getDouble) = .ok terms.rate
  dayCntFrac : (textAt dictionary "Day_Count_Frac" >>= mapInputToDayCountEnum) =
    .ok terms.dayCntFrac
  freq : (textAt dictionary "Frequency" >>= freqOf) = .ok terms.freq
  dateDir : (textAt dictionary "Date_Dir" >>= mapInputToDateDir) = .ok terms.dateDir

section Arithmetic

variable [Add Double] [Mul Double] [Div Double] [Neg Double]

/-- The flows of a deal, with the options that its dictionary asks for. -/
def DealTerms.flows (terms : DealTerms)
    (opts : Options) : Comp (List (CashflowStruct Double)) :=
  createFixedCashflows terms.startDate terms.matDate terms.freq terms.notional terms.rate
    terms.dayCntFrac opts

/-- A table is made of the flows of a deal with the terms and the options of the dictionary. -/
theorem oxlGenerateCashflow_leads_iff (hvalid : validCashflowGenDictionary dictionary = true)
    {caches caches' : Caches} {table : XlArray} :
    (oxlGenerateCashflow boost dataDir dictionary).Leads caches (.ok table) caches' ↔
      ∃ terms opts cfs, DescribesDeal dictionary terms ∧
        (cashflowOptions boost dataDir dictionary terms.dateDir).Leads caches (.ok opts) caches' ∧
        (terms.flows opts).Returns cfs ∧ convertCFStructToXlArray cfs .kFixed = .ok table := by
  unfold oxlGenerateCashflow
  rw [if_pos hvalid]
  simp only [Action.liftM_eq, Action.lift_bind_leads_ok]
  simp only [Action.bind_leads_ok, Action.ofComp_leads_ok, Action.lift_leads]
  constructor
  · -- the entries in the order they are read
    rintro ⟨_, hstart, startDate, hstartDate, matDate, hmatDate, _, hget₁, notional, hnotional,
      _, hget₂, rate, hrate, _, hget₃, _, hstr₃, dayCntFrac, hdayCntFrac, _, hget₄, _, hstr₄,
      freq, hfreq, _, hget₅, _, hstr₅, dateDir, hdateDir, opts, t, hopts, cfs, _,
      ⟨hcfs, rfl⟩, htable, rfl⟩
    refine ⟨⟨startDate, matDate, notional, rate, dayCntFrac, freq, dateDir⟩, opts, cfs, ?_, hopts,
      hcfs, htable⟩
    exact {
      valid := hvalid
      startDate := bind_eq_ok.mpr ⟨_, hstart, hstartDate⟩
      matDate := hmatDate
      notional := bind_eq_ok.mpr ⟨_, hget₁, hnotional⟩
      rate := bind_eq_ok.mpr ⟨_, hget₂, hrate⟩
      dayCntFrac := bind_eq_ok.mpr ⟨_, bind_eq_ok.mpr ⟨_, hget₃, hstr₃⟩, hdayCntFrac⟩
      freq := bind_eq_ok.mpr ⟨_, bind_eq_ok.mpr ⟨_, hget₄, hstr₄⟩, hfreq⟩
      dateDir := bind_eq_ok.mpr ⟨_, bind_eq_ok.mpr ⟨_, hget₅, hstr₅⟩, hdateDir⟩ }
  · rintro ⟨terms, opts, cfs, hterms, hopts, hcfs, htable⟩
    -- and the same reads, from what describes the deal
    obtain ⟨_, hstart, hstartDate⟩ := bind_eq_ok.mp hterms.startDate
    obtain ⟨_, hget₁, hnotional⟩ := bind_eq_ok.mp hterms.notional
    obtain ⟨_, hget₂, hrate⟩ := bind_eq_ok.mp hterms.rate
    obtain ⟨_, htext₃, hdayCntFrac⟩ := bind_eq_ok.mp hterms.dayCntFrac
    obtain ⟨_, hget₃, hstr₃⟩ := bind_eq_ok.mp htext₃
    obtain ⟨_, htext₄, hfreq⟩ := bind_eq_ok.mp hterms.freq
    obtain ⟨_, hget₄, hstr₄⟩ := bind_eq_ok.mp htext₄
    obtain ⟨_, htext₅, hdateDir⟩ := bind_eq_ok.mp hterms.dateDir
    obtain ⟨_, hget₅, hstr₅⟩ := bind_eq_ok.mp htext₅
    exact ⟨_, hstart, _, hstartDate, _, hterms.matDate, _, hget₁, _, hnotional, _, hget₂, _, hrate,
      _, hget₃, _, hstr₃, _, hdayCntFrac, _, hget₄, _, hstr₄, _, hfreq, _, hget₅, _, hstr₅, _,
      hdateDir, opts, caches', hopts, cfs, caches', ⟨hcfs, rfl⟩, htable, rfl⟩

end Arithmetic

/-! ## What is answered -/

/-- The flows of a deal, with the arithmetic of a machine. -/
def Host.flows (host : Host) (terms : DealTerms) (opts : Options) :
    Comp (List (CashflowStruct Double)) :=
  letI : Add Double := ⟨host.add⟩
  letI : Mul Double := ⟨host.mul⟩
  letI : Div Double := ⟨host.div⟩
  letI : Neg Double := ⟨host.neg⟩
  terms.flows opts

variable {caches caches' : Caches} {cfParams cfValues : Xloper12} {rows columns : Int}
  {lparray : List Xloper12}

/-- A table that is answered is the one of the flows of the deal. -/
theorem answers_table_iff
    (hinput : (dictionaryInput host cfParams cfValues .ok).Leads caches (.ok dictionary) caches)
    (hvalid : validCashflowGenDictionary dictionary = true) :
    (Request.oxlGenerateCashFlows cfParams cfValues).Answers host caches
        (.ok (.multi rows columns lparray true)) caches' ↔
      ∃ terms opts cfs table, DescribesDeal dictionary terms ∧
        (cashflowOptions host.boost host.dataDir dictionary terms.dateDir).Leads caches (.ok opts)
          caches' ∧
        (host.flows terms opts).Returns cfs ∧ convertCFStructToXlArray cfs .kFixed = .ok table ∧
        convertArrayToLPXloper host.win table = .ok (.multi rows columns lparray true) := by
  let _ : Add Double := ⟨host.add⟩
  let _ : Mul Double := ⟨host.mul⟩
  let _ : Div Double := ⟨host.div⟩
  let _ : Neg Double := ⟨host.neg⟩
  -- a table is no error cell
  have hstr : ∀ str, Xloper12.multi rows columns lparray true ≠ .str str true := by simp
  have herr : Xloper12.multi rows columns lparray true ≠ .err xlerrValue := by simp
  -- the arguments are the dictionary itself
  have hbody : (Request.oxlGenerateCashFlows cfParams cfValues).body host =
      dictionaryInput host cfParams cfValues .ok >>= fun dictionary =>
        oxlGenerateCashflow host.boost host.dataDir dictionary >>= fun value =>
          pure (.array value) := rfl
  rw [answers_computed_iff hbody hinput hstr herr]
  simp only [oxlGenerateCashflow_leads_iff hvalid]
  constructor
  · rintro ⟨table, ⟨terms, opts, cfs, hterms, hopts, hcfs, htable⟩, hcell⟩
    exact ⟨terms, opts, cfs, table, hterms, hopts, hcfs, htable, hcell⟩
  · rintro ⟨terms, opts, cfs, table, hterms, hopts, hcfs, htable, hcell⟩
    exact ⟨table, ⟨terms, opts, cfs, hterms, hopts, hcfs, htable⟩, hcell⟩

/-- A table that is answered tells the flows of the deal that the dictionary describes: handed
    back to the add-in it is read as an array, whose rows are the flows. -/
theorem answered_table_decodes
    (hinput : (dictionaryInput host cfParams cfValues .ok).Leads caches (.ok dictionary) caches)
    (hvalid : validCashflowGenDictionary dictionary = true)
    (hanswer : (Request.oxlGenerateCashFlows cfParams cfValues).Answers host caches
      (.ok (.multi rows columns lparray true)) caches')
    (hlen : lparray.length ≤ 2147483647) :
    ∃ terms opts cfs table, DescribesDeal dictionary terms ∧
      (cashflowOptions host.boost host.dataDir dictionary terms.dateDir).Leads caches (.ok opts)
        caches' ∧
      (host.flows terms opts).Returns cfs ∧
      lpXloperToXlArray host.win (Xloper12.multi rows columns lparray true).handBack =
        .ok table ∧ decodeTable table = some cfs := by
  -- what the answer says of the flows, and how its cells read
  obtain ⟨terms, opts, cfs, table, hterms, hopts, hcfs, htable, hcell⟩ :=
    (answers_table_iff hinput hvalid).mp hanswer
  exact ⟨terms, opts, cfs, table, hterms, hopts, hcfs,
    lpXloperToXlArray_handBack htable hcell hlen, decodeTable_convert htable⟩

/-- A deal over one year, in a range of two columns. -/
def askYear : Xloper12 :=
  let text (s : String) : Xloper12 := .str (countedText s.toList) false
  .multi 8 2 [
    text "Start_Date", .num (.finite 43831),
    text "Mat_Date", .num (.finite 44197),
    text "Notional", .num (.finite 100),
    text "Rate", .num (.finite (1 / 20)),
    text "Day_Count_Frac", text "ACT/360",
    text "Frequency", text "A",
    text "Date_Dir", text "FWD",
    text "Front_Stub_Type", text "N"] false

/-- The terms of that deal. -/
def yearTerms : DealTerms :=
  ⟨⟨2458850⟩, ⟨2459216⟩, .finite 100, .finite (1 / 20), .kACT_360, ⟨1, .kYears⟩, .kForward⟩

/-- A dictionary that has the required keys only describes a deal without rules. -/
theorem cashflowOptions_leads {caches : Caches} {dateDir : DateDirection}
    (hfront : stubOf dictionary "Front_Stub_Type" = .ok .kNone)
    (hmissing : ["Back_Stub_Type", "Fixing_Date_Rule", "Payment_Date_Rule", "Acc_Adj_Rule",
      "End_Adj_Rule", "Start_Adj_Rule", "Calc_Type"].all
        (fun key => dictionary.contains (bytes key) == false) = true) :
    (cashflowOptions boost dataDir dictionary dateDir).Leads caches (.ok { dateDir := dateDir })
      caches := by
  simp only [List.all_cons, List.all_nil, Bool.and_eq_true, beq_iff_eq, and_true] at hmissing
  obtain ⟨hback, hfix, hpay, hacc, hend, hstart, hcalc⟩ := hmissing
  have hbackStub : stubOf dictionary "Back_Stub_Type" = .ok .kNone := by
    rw [stubOf, hback]
    rfl
  -- none of the other optional keys is there, so every option keeps its default
  unfold cashflowOptions accrualRulesOf ruleOf
  simp only [hfix, hpay, hacc, hend, hstart, hcalc, hfront, hbackStub, Action.liftM_eq,
    Bool.false_eq_true, if_false, Action.lift_ok_bind]
  exact Action.lift_leads.mpr ⟨rfl, rfl⟩

/-- A value that is computed, with what can be checked about it. -/
theorem exists_ok_of_check {α : Type} (x : Exec α) (check : α → Bool)
    (h : x.toOption.any check = true) : ∃ a, x = .ok a ∧ check a = true := by
  cases x with
  | ok a => exact ⟨a, rfl, h⟩
  | error f => cases h

/-- What the range asks for. -/
theorem asks_askYear : ∃ dictionary,
    (dictionaryInput .exact askYear .nil .ok).Leads {} (.ok dictionary) {} ∧
      DescribesDeal dictionary yearTerms ∧
      (cashflowOptions Host.exact.boost Host.exact.dataDir dictionary .kForward).Leads {}
        (.ok { dateDir := .kForward }) {} := by
  -- all that is asked of the dictionary, checked in one run
  obtain ⟨dictionary, hdictionary, hcheck⟩ := exists_ok_of_check
    (lpXloperToDictionary Host.exact.win Host.exact.ctype askYear)
    (fun dictionary => decide (
      validCashflowGenDictionary dictionary = true ∧
      (dictionary.get (bytes "Start_Date") >>= XlVariant.toDateObj) = .ok yearTerms.startDate ∧
      handleMatDate dictionary = .ok yearTerms.matDate ∧
      (dictionary.get (bytes "Notional") >>= XlVariant.getDouble) = .ok yearTerms.notional ∧
      (dictionary.get (bytes "Rate") >>= XlVariant.getDouble) = .ok yearTerms.rate ∧
      (textAt dictionary "Day_Count_Frac" >>= mapInputToDayCountEnum) =
        .ok yearTerms.dayCntFrac ∧
      (textAt dictionary "Frequency" >>= freqOf) = .ok yearTerms.freq ∧
      (textAt dictionary "Date_Dir" >>= mapInputToDateDir) = .ok yearTerms.dateDir ∧
      stubOf dictionary "Front_Stub_Type" = .ok .kNone ∧
      ["Back_Stub_Type", "Fixing_Date_Rule", "Payment_Date_Rule", "Acc_Adj_Rule",
        "End_Adj_Rule", "Start_Adj_Rule", "Calc_Type"].all
          (fun key => dictionary.contains (bytes key) == false) = true)) (by decide +kernel)
  obtain ⟨hvalid, hstart, hmat, hnotional, hrate, hcount, hfreq, hdir, hfront, hmissing⟩ :=
    of_decide_eq_true hcheck
  refine ⟨dictionary, ?_, ⟨hvalid, hstart, hmat, hnotional, hrate, hcount, hfreq, hdir⟩,
    cashflowOptions_leads hfront hmissing⟩
  exact Action.lift_leads.mpr ⟨hdictionary, rfl⟩

/-- The table of the deal over one year. -/
theorem answered_table_decodes_year : ∃ terms opts cfs table caches rows columns lparray,
    (Host.exact.flows terms opts).Returns cfs ∧
      (Request.oxlGenerateCashFlows askYear .nil).Answers .exact {}
        (.ok (.multi rows columns lparray true)) caches ∧
      lpXloperToXlArray Host.exact.win (Xloper12.multi rows columns lparray true).handBack =
        .ok table ∧ decodeTable table = some cfs := by
  obtain ⟨dictionary, hinput, hterms, hopts⟩ := asks_askYear
  obtain ⟨cfs, hcfs, hcheck⟩ := Comp.exists_returns_of_run (b := true)
    (c := Host.exact.flows yearTerms { dateDir := .kForward })
    (g := fun cfs => (convertCFStructToXlArray cfs .kFixed).toOption.any (·.rows == 3)) 5
    (by decide +kernel)
  obtain ⟨table, htable, hrows⟩ := exists_ok_of_check _ _ hcheck
  obtain ⟨cell, hcell, lparray, rfl, hholds⟩ := (convertArrayToLPXloper_post
    (E := fun _ => False) Host.exact.win (isPlain_table htable)).exists_ok fun _ _ => id
  -- three rows of fourteen columns
  have hlen : lparray.length ≤ 2147483647 := by
    rw [hholds.length_eq, beq_iff_eq.mp hrows, (size_table htable).2]
    decide
  -- the request is answered with that table
  have hanswer := (answers_table_iff hinput hterms.valid).mpr
    ⟨yearTerms, _, cfs, table, hterms, hopts, hcfs, htable, hcell⟩
  obtain ⟨terms, opts, cfs, table, -, -, hflows, hread, hdecode⟩ :=
    answered_table_decodes hinput hterms.valid hanswer hlen
  exact ⟨terms, opts, cfs, table, _, _, _, lparray, hflows, hanswer, hread, hdecode⟩

end Oxl
