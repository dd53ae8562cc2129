import OdinAnalytics.Lib.Transition
import OdinAnalytics.Spec.AddInCorrect
import OdinAnalytics.Spec.XloperCorrect

/-!
# Sessions

Excel calls the exported functions one after another. It keeps the results for as long as
it wants, and has those freed whose type carries `xlbitDLLFree`. On a sheet there are only
cells (`Spreadsheet`); in the add-in there are pointers to blocks (`Session`). The session
follows the sheet: nothing that is freed was freed before or is still in use, what is kept
stays as it was delivered, and there are no blocks but those of the results.

## Key results

- `Represents.call`, `Represents.free`: one step of the session follows one of the sheet
- `sessions_refine`: so do whole sessions
- `session_leaks`: what is left when all that may be freed has been freed
-/

namespace Oxl

open Machine OA.Dao XlApi Transition

/-! ## Results that are kept -/

/-- Pointers to results, the cells that they stand for, and all of their blocks. -/
inductive Holds (mem : Memory) : List Nat → List Xloper12 → List Nat → Prop where
  | nil : Holds mem [] [] []
  | cons {p : Nat} {ps : List Nat} {cell : Xloper12} {cells : List Xloper12}
      {owned as : List Nat} (hresult : IsResult mem p cell owned) (hrest : Holds mem ps cells as) :
      Holds mem (p :: ps) (cell :: cells) (p :: owned ++ as)

variable {mem mem' : Memory} {p : Nat} {ps as : List Nat} {cell : Xloper12}
  {cells : List Xloper12}

/-- Results stay as they are while their blocks do. -/
theorem Holds.frame (h : Holds mem ps cells as)
    (hkept : ∀ a ∈ as, mem'.block a = mem.block a) : Holds mem' ps cells as := by
  induction h with
  | nil => exact .nil
  | cons hresult _ ih =>
    exact .cons (hresult.frame fun a ha => hkept a (List.mem_append_left _ ha))
      (ih fun a ha => hkept a (List.mem_append_right _ ha))

/-- There are as many pointers as results. -/
theorem Holds.length_eq (h : Holds mem ps cells as) : ps.length = cells.length := by
  induction h with
  | nil => rfl
  | cons _ _ ih => rw [List.length_cons, List.length_cons, ih]

/-- One of the results, and the others. -/
theorem Holds.eraseIdx {i : Nat} (h : Holds mem ps cells as) (hcell : cells[i]? = some cell) :
    ∃ p owned rest, ps[i]? = some p ∧ as.Perm (owned ++ [p] ++ rest) ∧
      IsResult mem p cell owned ∧ Holds mem (ps.eraseIdx i) (cells.eraseIdx i) rest := by
  induction h generalizing i with
  | nil => simp at hcell
  | @cons p ps cell' cells owned as hresult hrest ih =>
    cases i with
    | zero =>
      cases hcell
      exact ⟨p, owned, as, rfl, (List.perm_append_singleton _ _).symm.append_right _, hresult,
        hrest⟩
    | succ i =>
      obtain ⟨p', owned', rest, hp', hperm, hresult', hrest'⟩ := ih hcell
      refine ⟨p', owned', p :: owned ++ rest, hp', ?_, hresult', .cons hresult hrest'⟩
      -- the blocks found later are moved to the front
      exact (hperm.append_left (p :: owned)).trans (List.perm_append_comm_assoc _ _ _)

/-! ## What may be freed -/

/-- The type of a cell carries `xlbitDLLFree`. -/
def dllFree : Xloper12 → Bool
  | .str _ dllFree => dllFree
  | .multi _ _ _ dllFree => dllFree
  | _ => false

/-- The type of an `xloper12` in memory carries `xlbitDLLFree`. -/
def operDllFree : Oper → Bool
  | .str _ dllFree => dllFree
  | .ref _ dllFree => dllFree
  | .multi _ _ _ dllFree => dllFree
  | _ => false

/-- The bit is there in memory just when it is there in the cell. -/
theorem isResult_dllFree {owned : List Nat} (h : IsResult mem p cell owned) :
    ∃ oper, Memory.loadOper mem ⟨p, 0⟩ = .ok oper ∧ operDllFree oper = dllFree cell := by
  have hload : ∀ {oper}, mem.block p = some (.opers [oper]) →
      Memory.loadOper mem ⟨p, 0⟩ = .ok oper := by
    intro oper hoper
    unfold Memory.loadOper
    rw [hoper]
    rfl
  cases h with
  | multi hoper hcells hvalues => exact ⟨_, hload hoper, rfl⟩
  | @elem oper _ hoper hcell =>
    refine ⟨oper, hload hoper, ?_⟩
    -- only a text bears the bit
    cases oper with
    | str addr free =>
      cases free with
      | true =>
        obtain ⟨units, -, rfl⟩ := hcell
        rfl
      | false => exact hcell.elim
    | ref lpmref free => exact hcell.elim
    | multi rows columns lparray free => exact hcell.elim
    | num num => cases hcell; rfl
    | bool xbool => cases hcell; rfl
    | err err => cases hcell; rfl
    | other xltype => cases hcell; rfl

/-- A result that may not be freed has one block. -/
theorem isResult_owned {owned : List Nat} (h : IsResult mem p cell owned)
    (hfree : dllFree cell = false) : owned = [] := by
  cases h with
  | multi => exact nomatch hfree
  | @elem oper _ _ hcell =>
    -- without the bit there is no block beside the result's own
    cases oper with
    | str addr free =>
      cases free with
      | true =>
        obtain ⟨units, -, rfl⟩ := hcell
        exact nomatch hfree
      | false => exact hcell.elim
    | num num => rfl
    | bool xbool => rfl
    | err err => rfl
    | other xltype => rfl
    | ref lpmref free => exact hcell.elim
    | multi rows columns lparray free => exact hcell.elim

/-- Results that may not be freed have no blocks but their cells. -/
theorem Holds.blocks_eq (h : Holds mem ps cells as)
    (hfree : ∀ cell ∈ cells, dllFree cell = false) : as = ps := by
  induction h with
  | nil => rfl
  | cons hresult _ ih =>
    rw [isResult_owned hresult (hfree _ List.mem_cons_self),
      ih fun cell hcell => hfree cell (List.mem_cons_of_mem _ hcell)]
    rfl

/-! ## Two views of a session -/

/-- What Excel does: it calls a function, or has a result freed that it keeps. -/
inductive Event where
  | call (request : Request)
  | free (index : Nat)

/-- The event is a call. -/
def Event.isCall : Event → Bool
  | .call _ => true
  | .free _ => false

/-- The event is a freeing. -/
def Event.isFree : Event → Bool
  | .call _ => false
  | .free _ => true

/-- The sheet: what the add-in remembers, and the results that are kept, the latest first. -/
structure Spreadsheet where
  caches : Caches := {}
  results : List Xloper12 := []

/-- The add-in with its memory, and the pointers to the results that are kept. -/
structure Session where
  addIn : AddIn := {}
  results : List Nat := []

/-- The session stands for the sheet: the pointers are to the results, each over blocks of
    its own, and these are all the blocks there are. -/
structure Represents (session : Session) (sheet : Spreadsheet) : Prop where
  caches_eq : session.addIn.caches = sheet.caches
  exists_blocks : ∃ as, Holds session.addIn.memory session.results sheet.results as ∧
    session.addIn.memory.Live as
  fits : ∀ cell ∈ sheet.results, cell.Fits

/-- The add-in and the sheet both begin with nothing. -/
theorem represents_start : Represents {} {} :=
  ⟨rfl, ⟨[], .nil, Heap.live_empty⟩, by simp⟩

/-- The freeing in the add-in that follows one on the sheet. -/
theorem Represents.free {session : Session} {sheet : Spreadsheet} {index : Nat}
    (h : Represents session sheet) (hcell : sheet.results[index]? = some cell)
    (hfree : dllFree cell) : ∃ p oper memory, session.results[index]? = some p ∧
      Memory.loadOper session.addIn.memory ⟨p, 0⟩ = .ok oper ∧ operDllFree oper ∧
      xlAutoFree12 session.addIn.memory p = .ok memory ∧
      Represents ⟨{ session.addIn with memory := memory }, session.results.eraseIdx index⟩
        ⟨sheet.caches, sheet.results.eraseIdx index⟩ := by
  obtain ⟨as, hholds, hlive⟩ := h.exists_blocks
  -- the blocks of the result that is freed, and those of the rest
  obtain ⟨p, owned, rest, hp, hperm, hresult, hrest⟩ := hholds.eraseIdx hcell
  obtain ⟨oper, hoper, hbit⟩ := isResult_dllFree hresult
  have hlive' := hlive.perm hperm
  -- freeing all of the former leaves the latter as they are
  obtain ⟨memory, hall, hliverest, hkept⟩ := hlive'.freeAll
  refine ⟨p, oper, memory, hp, hoper, hbit.trans hfree, ?_, h.caches_eq, ⟨rest, ?_, hliverest⟩, ?_⟩
  · rw [xlAutoFree12_eq hresult, hall]
    · rfl
    · exact ((List.nodup_append.mp (List.nodup_append.mp hlive'.nodup).1).1)
    · exact h.fits cell (List.mem_of_getElem? hcell)
  · -- what is freed is nothing of the other results
    apply hrest.frame
    intro a ha
    apply hkept
    intro hmem
    exact (List.nodup_append.mp hlive'.nodup).2.2 a hmem a ha rfl
  · intro cell' hcell'
    exact h.fits cell' (List.mem_of_mem_eraseIdx hcell')

/-! ## Steps -/

variable {host : Host}

/-- A step on the sheet. The product of the dimensions of an array is to be an `int`, since
    `xlAutoFree12` computes it in one. -/
inductive Spreadsheet.Step (host : Host) : Event → Spreadsheet → Spreadsheet → Prop where
  | call {request : Request} {caches caches' : Caches} {results : List Xloper12} {cell : Xloper12}
      (hanswer : request.Answers host caches (.ok cell) caches') (hfits : cell.Fits) :
      Step host (.call request) ⟨caches, results⟩ ⟨caches', cell :: results⟩
  | free {index : Nat} {caches : Caches} {results : List Xloper12} {cell : Xloper12}
      (hcell : results[index]? = some cell) (hfree : dllFree cell) :
      Step host (.free index) ⟨caches, results⟩ ⟨caches, results.eraseIdx index⟩

/-- A step in the add-in. -/
inductive Session.Step (host : Host) : Event → Session → Session → Prop where
  | call {request : Request} {addIn addIn' : AddIn} {results : List Nat} {p : Nat}
      (hcall : (request.call host).Leads addIn (.ok p) addIn') :
      Step host (.call request) ⟨addIn, results⟩ ⟨addIn', p :: results⟩
  | free {index : Nat} {addIn : AddIn} {memory : Memory} {results : List Nat} {p : Nat}
      {oper : Oper} (hp : results[index]? = some p)
      (hoper : Memory.loadOper addIn.memory ⟨p, 0⟩ = .ok oper) (hfree : operDllFree oper)
      (hmemory : xlAutoFree12 addIn.memory p = .ok memory) :
      Step host (.free index) ⟨addIn, results⟩
        ⟨{ addIn with memory := memory }, results.eraseIdx index⟩

/-- The call of the add-in that follows an answer on the sheet. -/
theorem Represents.call {session : Session} {sheet : Spreadsheet} {request : Request}
    {caches' : Caches} (h : Represents session sheet)
    (hanswer : request.Answers host sheet.caches (.ok cell) caches') (hfits : cell.Fits) :
    ∃ addIn' p, (request.call host).Leads session.addIn (.ok p) addIn' ∧
      Represents ⟨addIn', p :: session.results⟩ ⟨caches', cell :: sheet.results⟩ := by
  obtain ⟨as, hholds, hlive⟩ := h.exists_blocks
  rw [← h.caches_eq] at hanswer
  obtain ⟨hends, hreturns⟩ := request.call_refines host session.addIn
  -- the answer has its call, and the call this answer only
  obtain ⟨x, addIn', hcall, hcaches⟩ := hreturns _ _ hanswer
  obtain ⟨z, hanswer', hrel⟩ := hends x addIn' hcall
  obtain ⟨rfl, -⟩ := hanswer.unique hanswer'
  cases x with
  | error f => exact hrel.elim
  | ok p =>
    obtain ⟨owned, hresult, hadds⟩ := hrel
    refine ⟨addIn', p, hcall, hcaches, ⟨p :: owned ++ as, .cons hresult ?_, ?_⟩, ?_⟩
    · -- the results before are over blocks that were there before
      apply hholds.frame
      intro a ha
      exact hadds.old ((hlive.isSome_iff a).mpr ha)
    · exact hlive.adds hadds
    · rintro cell' (_ | ⟨_, hcell'⟩)
      · exact hfits
      · exact h.fits cell' hcell'

/-- The step of the session that follows a step of the sheet. -/
theorem Represents.step (event : Event) (sheet sheet' : Spreadsheet) (session : Session)
    (h : Represents session sheet) (hstep : sheet.Step host event sheet') :
    ∃ session', session.Step host event session' ∧ Represents session' sheet' := by
  cases hstep with
  | call hanswer hfits =>
    obtain ⟨addIn', p, hcall, hrep⟩ := h.call hanswer hfits
    exact ⟨_, .call hcall, hrep⟩
  | free hcell hfree =>
    obtain ⟨p, oper, memory, hp, hoper, hbit, hmemory, hrep⟩ := h.free hcell hfree
    exact ⟨_, .free hp hoper hbit hmemory, hrep⟩

/-- The add-in has no choice. -/
theorem session_step_unique (event : Event) (session session' session'' : Session)
    (h : session.Step host event session') (h' : session.Step host event session'') :
    session'' = session' := by
  cases h with
  | call hcall =>
    cases h' with
    | call hcall' =>
      obtain ⟨hp, rfl⟩ := hcall.unique hcall'
      cases hp
      rfl
  | free hp _ _ hmemory =>
    cases h' with
    | free hp' _ _ hmemory' =>
      -- a release frees the one result of its index
      cases hp.symm.trans hp'
      cases hmemory.symm.trans hmemory'
      rfl

/-- The session that follows a sheet. -/
theorem exists_session {events : List Event} {sheet : Spreadsheet}
    (h : Runs (Spreadsheet.Step host) {} events sheet) :
    ∃ session, Runs (Session.Step host) {} events session ∧ Represents session sheet :=
  h.simulate (R := fun sheet session => Represents session sheet)
    (fun event sheet sheet' session hrep => Represents.step event sheet sheet' session hrep)
    represents_start

/-- Whatever happens on the sheet happens in the add-in, in one way only: all that is freed
    can be freed, the results that are kept are the cells on the sheet, and their blocks,
    which they do not share, are the only ones. -/
theorem sessions_refine {events : List Event} {sheet : Spreadsheet}
    (h : Runs (Spreadsheet.Step host) {} events sheet) :
    ∃ session, Runs (Session.Step host) {} events session ∧ Represents session sheet ∧
      ∀ session', Runs (Session.Step host) {} events session' → session' = session := by
  obtain ⟨session, hrun, hrep⟩ := exists_session h
  exact ⟨session, hrun, hrep, fun session' hrun' => hrun.unique session_step_unique hrun'⟩

/-- A text that is delivered twice, with the first one freed last. -/
theorem runs_oxlDisplay_nil (host : Host) : Runs (Spreadsheet.Step host) {}
    [.call (.oxlDisplay .nil), .call (.oxlDisplay .nil), .free 0, .free 0] {} := by
  obtain ⟨str, hanswer⟩ := answers_oxlDisplay_nil host {}
  exact (((Runs.nil.concat (.call hanswer trivial)).concat (.call hanswer trivial)).concat
    (.free rfl rfl)).concat (.free rfl rfl)

/-- The same session in the add-in. -/
theorem sessions_refine_oxlDisplay : ∃ session, Runs (Session.Step .exact) {}
    [.call (.oxlDisplay .nil), .call (.oxlDisplay .nil), .free 0, .free 0] session ∧
      Represents session {} ∧ ∀ session', Runs (Session.Step .exact) {}
        [.call (.oxlDisplay .nil), .call (.oxlDisplay .nil), .free 0, .free 0] session' →
          session' = session :=
  sessions_refine (runs_oxlDisplay_nil .exact)

/-- Every call leaves a result, and every freeing takes one away. -/
theorem sheet_results {events : List Event} {sheet : Spreadsheet}
    (h : Runs (Spreadsheet.Step host) {} events sheet) :
    sheet.results.length + events.countP Event.isFree = events.countP Event.isCall := by
  induction h with
  | nil => rfl
  | concat _ hstep ih =>
    rw [List.countP_append, List.countP_append]
    -- a call adds a result, a release takes one away
    cases hstep with
    | call =>
      simp only [List.length_cons, List.countP_singleton, Event.isFree, Event.isCall] at *
      simp
      omega
    | @free index _ results _ hcell =>
      obtain ⟨hlt, -⟩ := List.getElem?_eq_some_iff.mp hcell
      simp only [List.length_eraseIdx_of_lt hlt, List.countP_singleton, Event.isFree,
        Event.isCall] at *
      simp
      omega

/-- Once all that may be freed has been freed, the memory still holds the results that may
    not: a block for each, and one such result for each call whose result was not freed. -/
theorem session_leaks {events : List Event} {sheet : Spreadsheet} {session : Session}
    (h : Runs (Spreadsheet.Step host) {} events sheet)
    (hsession : Runs (Session.Step host) {} events session)
    (hfreed : ∀ cell ∈ sheet.results, dllFree cell = false) :
    session.addIn.memory.Live session.results ∧
      session.results.length + events.countP Event.isFree = events.countP Event.isCall := by
  obtain ⟨session', hrun, hrep⟩ := exists_session h
  rw [hrun.unique session_step_unique hsession]
  obtain ⟨as, hholds, hlive⟩ := hrep.exists_blocks
  rw [hholds.blocks_eq hfreed] at hlive
  exact ⟨hlive, by rw [hholds.length_eq]; exact sheet_results h⟩

/-- A number of days is a result that may not be freed. -/
theorem answers_oxlComputeDayCount : (Request.oxlComputeDayCount (.num (.finite 43831))
    (.num (.finite 43841)) (.str (countedText ['A', 'C', 'T', '3', '6', '5']) false)).Answers
      .exact {} (.ok (.num (.finite 10))) {} := by
  have hdays : @oxlComputeDayCount ⟨Host.exact.add⟩ ⟨Host.exact.div⟩ ⟨Host.exact.neg⟩
      Host.exact.win (.num (.finite 43831)) (.num (.finite 43841))
      (.str (countedText ['A', 'C', 'T', '3', '6', '5']) false) = .ok 10 := by
    decide +kernel
  refine ⟨.ok (.int 10), ?_, rfl⟩
  exact Action.bind_leads.mpr (Or.inl ⟨10, {}, Action.lift_leads.mpr ⟨hdays, rfl⟩,
    Action.pure_leads.mpr ⟨rfl, rfl⟩⟩)

/-- Two numbers of days and a text: once the text has been freed, the blocks of the numbers
    are left. -/
theorem session_leaks_oxlComputeDayCount : ∃ events session,
    Runs (Session.Step .exact) {} events session ∧ events.countP Event.isCall = 3 ∧
      session.addIn.memory.Live session.results ∧ session.results.length + 1 = 3 := by
  obtain ⟨str, hanswer⟩ := answers_oxlDisplay_nil .exact {}
  have hruns : Runs (Spreadsheet.Step .exact) {} [.call _, .call (.oxlDisplay .nil), .call _,
      .free 1] ⟨{}, [.num (.finite 10), .num (.finite 10)]⟩ :=
    (((Runs.nil.concat (.call answers_oxlComputeDayCount trivial)).concat
      (.call hanswer trivial)).concat (.call answers_oxlComputeDayCount trivial)).concat
      (.free rfl rfl)
  obtain ⟨session, hsession, -⟩ := exists_session hruns
  exact ⟨_, session, hsession, rfl, session_leaks hruns hsession (by simp [dllFree])⟩

end Oxl
