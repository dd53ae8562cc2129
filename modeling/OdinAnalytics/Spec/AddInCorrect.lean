import OdinAnalytics.Native.AddIn
import OdinAnalytics.Spec.XlDictionaryCorrect
import OdinAnalytics.Spec.XlMemoryCorrect

/-!
# What a call comes to

A call of an exported function allocates, computes and writes. Seen from the sheet it is
simpler: from what the add-in remembers it makes a cell, and the text or the error value
that stands for an exception is a cell like any other. The calls in memory refine these
answers.

## Key results

- `exported_leads`: a call is its body, and then the writing of the result
- `Request.call_refines`: a call in memory delivers the answer, over blocks of its own
-/

namespace Oxl

open Machine OA.Dao XlApi

variable {host : Host} {body : Action Caches Result} {addIn addIn' : AddIn}

/-! ## Calls -/

/-- What is written for what the body of a function has come to. -/
def deliver (host : Host) (xloperResult : Nat) (mem : Memory) : Exec Result → Exec Memory
  | .ok result => mem.convertToLPXloper host.win result ⟨xloperResult, 0⟩
  | .error (.throws e) =>
    match host.what e with
    | some what =>
      mem.convertToLPXloper host.win (.string (bytes "ERROR:" ++ what)) ⟨xloperResult, 0⟩
    | none => mem.storeOper ⟨xloperResult, 0⟩ (.err xlerrValue)
  | .error f => .error f

/-- The cell for what the body of a function has come to. -/
def describe (host : Host) : Exec Result → Exec Xloper12
  | .ok result => XlApi.convertToLPXloper host.win result
  | .error (.throws e) =>
    match host.what e with
    | some what => XlApi.convertToLPXloper host.win (.string (bytes "ERROR:" ++ what))
    | none => .ok (.err xlerrValue)
  | .error f => .error f

/-- What is written is the cell, or neither comes to an end and both for the same reason. -/
theorem deliver_relates (host : Host) (base : Memory) (y : Exec Result) :
    Relates (Delivered base base.callocOper.1)
      (deliver host base.callocOper.1 base.callocOper.2 y) (describe host y) := by
  cases y with
  | ok result => exact convertToLPXloper_relates host.win base result
  | error f =>
    cases f with
    | undefined u => exact relates_error.mpr rfl
    | throws e =>
      simp only [deliver, describe]
      -- the handler puts the exception's text, if it knows one, into the result
      cases host.what e with
      | some what => exact convertToLPXloper_relates host.win base _
      | none =>
        obtain ⟨mem, hstore, hadds, hblock, -⟩ :=
          (isTarget_callocOper base).storeOper (.err xlerrValue)
        rw [hstore]
        exact ⟨[], .elem hblock rfl, hadds⟩

/-- The state that a function leaves once it has written to the memory `mem`. -/
def written (xloperResult : Nat) (caches : Caches) (mem : Memory) :
    Exec Memory → Exec Nat × AddIn
  | .ok memory => (.ok xloperResult, ⟨caches, memory⟩)
  | .error f => (.error f, ⟨caches, mem⟩)

/-- The state that a function ends in once its body has come to something. -/
def finish (host : Host) (addIn : AddIn) (y : Exec Result) (caches : Caches) :
    Exec Nat × AddIn :=
  let (xloperResult, mem) := addIn.memory.callocOper
  written xloperResult caches mem (deliver host xloperResult mem y)

/-- Nothing that writes a result throws. -/
theorem convertToLPXloper_eq_undefined {base : Memory} {result : Result} {f : Fault}
    (h : base.callocOper.2.convertToLPXloper host.win result ⟨base.callocOper.1, 0⟩ =
      .error f) : ∃ u, f = .undefined u := by
  have hpost := convertToLPXloper_post host.win result
  rw [(convertToLPXloper_relates host.win base result).error_left h] at hpost
  exact ⟨_, hpost⟩

/-- The last part of a call. -/
theorem onMemory_return (write : Memory → Exec Memory) (xloperResult : Nat) (caches : Caches)
    (mem : Memory) : (AddIn.onMemory write >>= fun _ => pure xloperResult) ⟨caches, mem⟩ =
      pure (written xloperResult caches mem (write mem)) := by
  -- the caches stay, whether or not the write succeeds
  cases hwrite : write mem with
  | ok memory =>
    have hmemory : AddIn.onMemory write ⟨caches, mem⟩ = pure (.ok (), ⟨caches, memory⟩) := by
      unfold AddIn.onMemory
      rw [hwrite]
    exact Action.bind_of_ok hmemory
  | error f =>
    have hmemory : AddIn.onMemory write ⟨caches, mem⟩ = pure (.error f, ⟨caches, mem⟩) := by
      unfold AddIn.onMemory
      rw [hwrite]
    exact Action.bind_of_error hmemory

/-- The `try` and the handlers of a call whose body is done. -/
theorem catching_ended {base : Memory} {xloperResult : Nat} {mem : Memory}
    (hbase : base.callocOper = (xloperResult, mem)) (before caches : Caches) (y : Exec Result) :
    (tried host (.ended y caches) xloperResult).catching (caught host xloperResult)
      ⟨before, mem⟩ = pure (written xloperResult caches mem (deliver host xloperResult mem y)) := by
  have hbody : AddIn.onCaches (.ended y caches) ⟨before, mem⟩ = pure (y, ⟨caches, mem⟩) := rfl
  cases y with
  | ok result =>
    have htry : tried host (.ended (.ok result) caches) xloperResult ⟨before, mem⟩ = _ :=
      Action.bind_of_ok hbody
    rw [onMemory_return] at htry
    simp only [deliver]
    cases hwrite : mem.convertToLPXloper host.win result ⟨xloperResult, 0⟩ with
    | ok memory =>
      rw [hwrite] at htry
      exact Action.catching_of_ok htry
    | error f =>
      -- a handler would look at an exception, but there is none
      obtain ⟨u, rfl⟩ : ∃ u, f = .undefined u := by
        apply convertToLPXloper_eq_undefined
        rw [hbase]
        exact hwrite
      rw [hwrite] at htry
      exact Action.catching_of_undefined htry
  | error f =>
    have htry : tried host (.ended (.error f) caches) xloperResult ⟨before, mem⟩ =
        pure (.error f, ⟨caches, mem⟩) := Action.bind_of_error hbody
    cases f with
    | undefined u => exact Action.catching_of_undefined htry
    | throws e =>
      rw [Action.catching_of_throws htry]
      simp only [deliver, caught]
      cases host.what e with
      | some what => exact onMemory_return _ _ _ _
      | none => exact onMemory_return _ _ _ _

/-- A call is its body, and then the writing of the result. -/
theorem exported_leads {x : Exec Nat} : (exported host body).Leads addIn x addIn' ↔
    ∃ y caches, body.Leads addIn.caches y caches ∧
      finish host addIn y caches = (x, addIn') := by
  have hended : ∀ y caches, exported host (.ended y caches) addIn =
      pure (finish host addIn y caches) := by
    intro y caches
    exact (Action.bind_of_ok rfl).trans (catching_ended rfl addIn.caches caches y)
  -- the body runs on the caches, the rest on what it left
  have heq : exported host body addIn = body addIn.caches >>= fun r =>
      exported host (.ended r.1 r.2) addIn := by
    show ((body addIn.caches >>= _) >>= _) >>= _ = _
    rw [Comp.bind_assoc, Comp.bind_assoc]
    rfl
  unfold Action.Leads
  rw [heq, Comp.bind_returns]
  constructor
  · rintro ⟨⟨y, caches⟩, hbody, hrest⟩
    rw [hended, Comp.pure_returns] at hrest
    exact ⟨y, caches, hbody, hrest⟩
  · rintro ⟨y, caches, hbody, hfinish⟩
    refine ⟨(y, caches), hbody, ?_⟩
    rw [hended, Comp.pure_returns]
    exact hfinish

/-- What a call leaves once its body is done. -/
theorem finish_relates (host : Host) (addIn : AddIn) (y : Exec Result) (caches : Caches)
    {x : Exec Nat} (h : finish host addIn y caches = (x, addIn')) : addIn'.caches = caches ∧
      Relates (fun p cell => Delivered addIn.memory p addIn'.memory cell) x (describe host y) := by
  have hdeliver := deliver_relates host addIn.memory y
  unfold finish at h
  simp only at h
  -- the memory and the sheet agree on whether the result could be written
  cases hwrite : deliver host addIn.memory.callocOper.1 addIn.memory.callocOper.2 y with
  | ok memory =>
    rw [hwrite] at h hdeliver
    obtain ⟨rfl, rfl⟩ := Prod.mk.inj h
    cases hcell : describe host y with
    | ok cell =>
      rw [hcell] at hdeliver
      exact ⟨rfl, hdeliver⟩
    | error f =>
      rw [hcell] at hdeliver
      exact hdeliver.elim
  | error f =>
    rw [hwrite] at h hdeliver
    obtain ⟨rfl, rfl⟩ := Prod.mk.inj h
    rw [hdeliver.error_left rfl]
    exact ⟨rfl, relates_error.mpr rfl⟩

/-! ## Answers -/

/-- What the sheet sees of a call: a cell, made from what the add-in remembers. -/
def Request.Answers (host : Host) (request : Request) (caches : Caches) (x : Exec Xloper12)
    (caches' : Caches) : Prop :=
  ∃ y, (request.body host).Leads caches y caches' ∧ describe host y = x

/-- A request has one answer only. -/
theorem Request.Answers.unique {request : Request} {caches caches' caches'' : Caches}
    {x z : Exec Xloper12} (h : request.Answers host caches x caches')
    (h' : request.Answers host caches z caches'') : z = x ∧ caches'' = caches' := by
  obtain ⟨y, hbody, rfl⟩ := h
  obtain ⟨y', hbody', rfl⟩ := h'
  obtain ⟨rfl, rfl⟩ := hbody.unique hbody'
  exact ⟨rfl, rfl⟩

/-- A call ends just when there is an answer, and then it delivers the answer: the cell at
    the address that it returns, over new blocks, with all other blocks as they were. It
    comes to undefined behaviour just when the answer does. -/
theorem Request.call_refines (host : Host) (request : Request) (addIn : AddIn) :
    (∀ x addIn', (request.call host).Leads addIn x addIn' → ∃ z,
      request.Answers host addIn.caches z addIn'.caches ∧
        Relates (fun p cell => Delivered addIn.memory p addIn'.memory cell) x z) ∧
    ∀ z caches', request.Answers host addIn.caches z caches' → ∃ x addIn',
      (request.call host).Leads addIn x addIn' ∧ addIn'.caches = caches' := by
  constructor
  · -- what a call leads to is an answer, written into memory
    intro x addIn' hcall
    obtain ⟨y, caches, hbody, hfinish⟩ := exported_leads.mp hcall
    obtain ⟨rfl, hrel⟩ := finish_relates host addIn y caches hfinish
    exact ⟨describe host y, ⟨y, hbody, rfl⟩, hrel⟩
  · -- and an answer has its call, which may still fail to write it
    rintro z caches' ⟨y, hbody, rfl⟩
    obtain ⟨x, addIn', hfinish⟩ : ∃ x addIn', finish host addIn y caches' = (x, addIn') :=
      ⟨_, _, rfl⟩
    exact ⟨x, addIn', exported_leads.mpr ⟨y, caches', hbody, hfinish⟩,
      (finish_relates host addIn y caches' hfinish).1⟩

/-- A machine without calendar files, on which `double`s are never rounded. -/
def Host.exact : Host where
  win := .unicode
  ctype := XlDictionary.classic
  boost := .classic
  dataDir _ := .missing
  standardWhat _ := []
  add := Double.exactly (· + ·)
  mul := Double.exactly (· * ·)
  div := Double.exactly (· / ·)
  neg := fun x => Double.exactly (fun _ x => -x) x x

/-- The answer to a request for the handle in an empty cell. -/
theorem answers_oxlDisplay_nil (host : Host) (caches : Caches) : ∃ str,
    (Request.oxlDisplay .nil).Answers host caches (.ok (.str str true)) caches := by
  -- the text is kept under a name, so that it is not taken apart
  obtain ⟨what, hwhat⟩ : ∃ what, what = "xloper_converter.cpp:271:LPXloperToStr: " ++
    "Not an Excel String Type line check the input" := ⟨_, rfl⟩
  have hbody : (Request.oxlDisplay .nil).body host caches =
      pure (.error (.throws (.invalidArgument what)), caches) := by
    rw [hwhat]
    exact Action.bind_of_error (Action.bind_of_error rfl)
  -- the answer is the error text, which is plain
  have hplain : IsPlain (.string (bytes "ERROR:" ++ bytes what)) := by
    rw [hwhat]
    exact ⟨by decide +kernel, by decide +kernel⟩
  obtain ⟨cell, hcell, -⟩ := convertVariant_roundTrips host.win hplain
  have hpost := convertStrToLPXloper_post host.win (bytes "ERROR:" ++ bytes what)
  rw [show convertStrToLPXloper host.win _ = _ from hcell] at hpost
  obtain ⟨str, rfl⟩ := hpost
  refine ⟨str, .error (.throws (.invalidArgument what)), ?_, hcell⟩
  unfold Action.Leads
  rw [hbody, Comp.pure_returns]

end Oxl
