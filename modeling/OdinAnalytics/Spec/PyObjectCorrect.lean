import Mathlib.Tactic.Abel
import OdinAnalytics.Lib.Run
import OdinAnalytics.Native.PyObject

/-!
# Wrappers of Python objects and reference counts

Copy assignment gives the reference of its object up before it takes the new one. This
file says in which runs the counts stay right and no object is freed that is held: the
assignment of an object of `py_object` to itself is the only exception.

## Key results

- `step_effect`: the reference that an operation gives up and the one that it takes
- `step_accounts`: the steps that keep the account
- `throughout_sound_iff`: the runs that are sound throughout
- `throughout_sound`: those that assign no object to itself
-/

namespace Oa

open Slots RefHeap

variable {α : Type}

namespace Interpreter

variable [DecidableEq α] {s s' : Interpreter α} {op : PyOp α} {ops : List (PyOp α)}
  {external : α → Nat} {x : α}

/-- A program starts without objects of `py_object`. -/
def start (external : α → Nat) : Interpreter α where
  heap := { count := fun x => external x, freed := [] }
  external := external
  objs := []

/-- Counts are those of the references outside the class and of the objects that hold one,
    and none of these holds one to a freed object. -/
structure Sound (s : Interpreter α) : Prop where
  counted : ∀ x, s.heap.count x = s.external x + s.objs.count (some x)
  not_held : ∀ x ∈ s.heap.freed, some x ∉ s.objs

/-- No object is assigned to itself that holds the only reference to its Python object. -/
def SafeAssign (s : Interpreter α) : PyOp α → Prop
  | .copyAssign i other => i = other → ∀ x ∈ s.obj i, s.heap.count x ≠ 1
  | _ => True

/-- All references to an object. -/
def refs (s : Interpreter α) : α → Nat := s.external + held s.objs

/-- Where the counts are right, nothing that is referred to is gone. -/
theorem sound_of_accounts (h : Accounts s.heap s.refs) : s.Sound where
  counted x := by
    rw [h.count_eq x]
    exact Nat.cast_add _ _
  not_held x hx := by
    have hzero : s.external x + held s.objs x = 0 := h.freed_refs x hx
    rw [← held_pos_iff]
    omega

/-- The counts are right to begin with. -/
theorem start_accounts : Accounts (start external).heap (start external).refs where
  count_eq x := by simp [start, refs, held]
  freed_refs := by simp [start]

/-! ## The functions of the class -/

/-- The references without the one that an object holds. -/
theorem refs_eq {i : Nat} (hi : i < s.objs.length) :
    s.refs = s.external + held (s.objs.eraseIdx i) + held [s.obj i] := by
  have hheld : held s.objs = held [s.obj i] + held (s.objs.eraseIdx i) := held_eraseIdx hi
  rw [refs, hheld]
  abel

/-- What an object holds is referred to. -/
theorem refs_obj_pos {i : Nat} (hobj : s.obj i = some x) : 0 < s.refs x := by
  have hi : i < s.objs.length := by
    by_contra hge
    simp [obj, List.getElem?_eq_none (Nat.le_of_not_lt hge)] at hobj
  rw [refs_eq hi, hobj]
  simp

/-- A new object refers to what it is made with. -/
theorem refs_constructWith (v : Option α) : (s.constructWith v).refs = s.refs + held [v] := by
  rw [refs, constructWith, held_append, refs]
  exact (add_assoc _ _ _).symm

/-- Counting up changes no reference. -/
theorem refs_pyXIncref (v : Option α) : (s.pyXIncref v).refs = s.refs := rfl

/-- One reference more from outside. -/
theorem refs_acquire (x : α) :
    (s.setExternal x (s.external x + 1)).refs = s.refs + held [some x] := by
  rw [refs, setExternal, update_add_one]
  exact add_right_comm _ _ _

/-- One reference less from outside. -/
theorem refs_release (hx : 0 < s.external x) :
    s.refs = (s.setExternal x (s.external x - 1)).refs + held [some x] := by
  have hext := update_sub_one hx
  rw [refs, refs, setExternal]
  nth_rewrite 1 [hext]
  exact add_right_comm _ _ _

omit [DecidableEq α] in
/-- A new object is the last one, and what was there before is still in its place. -/
theorem obj_construct {other : Nat} (ho : other < s.objs.length) :
    s.construct.obj other = s.obj other := by
  simp [obj, construct, constructWith, List.getElem?_append_left ho]

/-- The constructor that counts up is the other one, and then the count. -/
theorem constructInc_eq (v : Option α) :
    s.constructInc v = (s.constructWith v).pyXIncref v := by
  simp [constructInc, constructWith, obj]

/-- Copying takes over the pointer and counts it up. -/
theorem fromCopy_eq {i : Nat} (hi : i < s.objs.length) (other : Nat) :
    s.fromCopy i other = { s with
      heap := s.heap.xincref (s.obj other)
      objs := s.objs.set i (s.obj other) } := by
  simp [fromCopy, pyXIncref, obj, hi]

/-- A copy is made of the pointer and counts it up. -/
theorem copyConstruct_eq {other : Nat} (ho : other < s.objs.length) :
    s.copyConstruct other = (s.constructWith (s.obj other)).pyXIncref (s.obj other) := by
  have hlen : s.objs.length < s.construct.objs.length := by simp [construct, constructWith]
  rw [copyConstruct, fromCopy_eq hlen, obj_construct ho]
  simp [construct, constructWith, pyXIncref]

/-- An assignment counts down what it drops and up what it takes. -/
theorem copyAssign_eq {i : Nat} (hi : i < s.objs.length) (other : Nat) :
    s.copyAssign i other = { s with
      heap := (s.heap.xdecref (s.obj i)).xincref (s.obj other)
      objs := s.objs.set i (s.obj other) } :=
  fromCopy_eq (s := s.pyXDecref (s.obj i)) hi other

/-- The references after an assignment. -/
theorem refs_copyAssign {i : Nat} (hi : i < s.objs.length) (other : Nat) :
    (s.copyAssign i other).refs =
      s.external + held (s.objs.eraseIdx i) + held [s.obj other] := by
  rw [copyAssign_eq hi, refs, held_set hi]
  abel

/-- The reference is one of the new object instead of the other one. -/
theorem refs_moveConstruct {other : Nat} (ho : other < s.objs.length) :
    (s.moveConstruct other).refs = s.refs := by
  have hlen : s.objs.length < (s.objs ++ [none]).length := by simp
  have hheld : held (s.moveConstruct other).objs =
      held ((s.objs ++ [none]).eraseIdx s.objs.length) :=
    held_moveSlot hlen (Nat.lt_trans ho hlen)
  rw [List.eraseIdx_append_of_length_le (Nat.le_refl _), Nat.sub_self] at hheld
  rw [refs, refs, hheld]
  simp [moveConstruct, fromMove, construct, constructWith]

/-- A move drops what the target held. -/
theorem refs_moveAssign {i other : Nat} (hi : i < s.objs.length) (ho : other < s.objs.length) :
    s.refs = (s.moveAssign i other).refs + held [s.obj i] := by
  have hheld : held (s.moveAssign i other).objs = held (s.objs.eraseIdx i) :=
    held_moveSlot hi ho
  rw [refs_eq hi, refs, hheld]
  rfl

/-! ## One operation -/

/-- What an operation does. -/
inductive Effect (s : Interpreter α) (op : PyOp α) (s' : Interpreter α) : Prop where
  /-- A reference is given up, or none. -/
  | give (obj : Option α) (hheap : s'.heap = s.heap.xdecref obj)
      (hrefs : s.refs = s'.refs + held [obj])
  /-- A reference is taken, to an object that has one already or is not freed. -/
  | take (obj : Option α) (hlive : ∀ x ∈ obj, 0 < s.refs x ∨ x ∉ s.heap.freed)
      (hheap : s'.heap = s.heap.xincref obj) (hrefs : s'.refs = s.refs + held [obj])
  /-- A copy is assigned. -/
  | assign (i other : Nat) (hop : op = .copyAssign i other) (hi : i < s.objs.length)
      (hheap : s'.heap = (s.heap.xdecref (s.obj i)).xincref (s.obj other))
      (hrefs : s'.refs = s.external + held (s.objs.eraseIdx i) + held [s.obj other])

/-- What one operation does, by what happens to the references. -/
theorem step_effect (h : s.step op = some s') : Effect s op s' := by
  cases op with
  | construct =>
    cases h
    refine .give none rfl ?_
    rw [construct, refs_constructWith, add_held_none, add_held_none]
  | own obj =>
    cases obj with
    | none =>
      cases h
      refine .give none rfl ?_
      rw [refs_constructWith, add_held_none, add_held_none]
    | some x =>
      simp only [step, Option.ite_none_right_eq_some] at h
      obtain ⟨hx, h⟩ := h
      cases h
      -- the reference is one of the new object now
      refine .give none rfl ?_
      rw [add_held_none, refs_constructWith]
      exact refs_release hx
  | share obj =>
    simp only [step, Option.ite_none_right_eq_some] at h
    obtain ⟨halive, h⟩ := h
    cases h
    rw [constructInc_eq]
    refine .take obj (fun x hx => .inr (halive x hx).1) rfl ?_
    rw [refs_pyXIncref, refs_constructWith]
  | copyConstruct other =>
    simp only [step, Option.ite_none_right_eq_some] at h
    obtain ⟨ho, h⟩ := h
    cases h
    rw [copyConstruct_eq ho]
    refine .take _ (fun x hx => .inl (refs_obj_pos hx)) rfl ?_
    rw [refs_pyXIncref, refs_constructWith]
  | moveConstruct other =>
    simp only [step, Option.ite_none_right_eq_some] at h
    obtain ⟨ho, h⟩ := h
    cases h
    refine .give none rfl ?_
    rw [add_held_none, refs_moveConstruct ho]
  | copyAssign i other =>
    simp only [step, Option.ite_none_right_eq_some] at h
    obtain ⟨⟨hi, ho⟩, h⟩ := h
    cases h
    refine .assign i other rfl hi ?_ (refs_copyAssign hi other)
    rw [copyAssign_eq hi]
  | moveAssign i other =>
    simp only [step, Option.ite_none_right_eq_some] at h
    obtain ⟨⟨hi, ho⟩, h⟩ := h
    cases h
    exact .give (s.obj i) rfl (refs_moveAssign hi ho)
  | destroy i =>
    simp only [step, Option.ite_none_right_eq_some] at h
    obtain ⟨hi, h⟩ := h
    cases h
    exact .give (s.obj i) rfl (refs_eq hi)
  | acquire x =>
    simp only [step, Option.ite_none_right_eq_some] at h
    obtain ⟨hx, h⟩ := h
    cases h
    refine .take (some x) ?_ rfl (refs_acquire x)
    intro y hy
    cases hy
    exact .inr hx
  | release x =>
    simp only [step, Option.ite_none_right_eq_some] at h
    obtain ⟨hx, h⟩ := h
    cases h
    exact .give (some x) rfl (refs_release hx)

/-! ## The account -/

/-- When the object that is assigned is another one, it has a reference of its own. -/
theorem rest_pos_of_ne {i other : Nat} (hne : i ≠ other) (hobj : s.obj other = some x) :
    0 < held (s.objs.eraseIdx i) x := by
  have hget : s.objs[other]? = some (some x) := by
    have ho : s.objs.getD other none = some x := hobj
    rw [List.getD_eq_getElem?_getD, Option.getD_eq_iff] at ho
    simpa using ho
  rw [held_pos_iff, List.mem_eraseIdx_iff_getElem?]
  exact ⟨other, hne.symm, hget⟩

/-- Every operation keeps the account, but for an assignment of the only reference to
    itself. -/
theorem step_accounts (hs : Accounts s.heap s.refs) (hsafe : s.SafeAssign op)
    (h : s.step op = some s') : Accounts s'.heap s'.refs := by
  -- a step gives a reference up, takes a new one, or does first one and then the other
  cases step_effect h with
  | give obj hheap hrefs =>
    rw [hheap]
    rw [hrefs] at hs
    exact hs.xdecref
  | take obj hlive hheap hrefs =>
    rw [hheap, hrefs]
    refine hs.xincref fun x hx => ?_
    rcases hlive x hx with hpos | hfreed
    · exact hs.not_mem_freed hpos
    · exact hfreed
  | assign i other hop hi hheap hrefs =>
    subst hop
    have hdrop := hs
    rw [refs_eq hi] at hdrop
    rw [hheap, hrefs]
    refine hdrop.xdecref.xincref fun x hx => ?_
    by_cases heq : i = other
    · -- the object is freed only with its last reference
      rw [mem_freed_xdecref]
      rintro (⟨hobj, hone⟩ | hfreed)
      · exact hsafe heq x hobj hone
      · exact hs.not_mem_freed (refs_obj_pos hx) hfreed
    · refine hdrop.xdecref.not_mem_freed ?_
      exact Nat.lt_of_lt_of_le (rest_pos_of_ne heq hx) (Nat.le_add_left _ _)

/-- The assignment of the only reference to itself frees the object, which is held
    nevertheless. -/
theorem safeAssign_of_sound (h : s.step op = some s') (hs' : s'.Sound) : s.SafeAssign op := by
  cases op with
  | copyAssign i other =>
    simp only [step, Option.ite_none_right_eq_some] at h
    obtain ⟨⟨hi, ho⟩, h⟩ := h
    rw [copyAssign_eq hi] at h
    cases h
    -- a self-assignment of the last reference frees what it then holds
    rintro rfl x hx hone
    refine hs'.not_held x ?_ ?_
    · rw [xincref_freed, mem_freed_xdecref]
      exact .inl ⟨hx, hone⟩
    · rw [show s.obj i = some x from hx]
      exact List.mem_set hi _
  | _ => trivial

/-! ## Runs -/

/-- The runs that are sound throughout: those that assign no object to itself that holds
    the only reference to its Python object. -/
theorem throughout_sound_iff (external : α → Nat) (ops : List (PyOp α)) :
    Run.Throughout step (start external) ops Sound ↔
      Run.Along step (start external) ops SafeAssign :=
  Run.throughout_iff_along (J := fun s => Accounts s.heap s.refs) start_accounts
    (fun _ => sound_of_accounts) step_accounts fun _ => safeAssign_of_sound

/-- The only reference to an object, in an object of `py_object` that is assigned to
    itself. -/
theorem not_throughout_sound :
    ¬ ∀ (external : Nat → Nat) (ops : List (PyOp Nat)),
      Run.Throughout step (start external) ops Sound := by
  intro h
  have hsound := h (fun _ => 1) [.own (some 0), .copyAssign 0 0] _ _ (List.prefix_refl _) rfl
  exact hsound.not_held 0 (by decide) (by decide)

/-- What is not assigned to itself is counted throughout, and held only while it lives. -/
theorem throughout_sound (h : ∀ i, .copyAssign i i ∉ ops) :
    Run.Throughout step (start external) ops Sound := by
  have hsafe : Run.Along step (start external) ops SafeAssign := by
    intro pre op s hpre _ _
    -- no assignment is to itself, so all of them are safe
    cases op with
    | copyAssign i other =>
      rintro rfl
      refine absurd (hpre.subset ?_) (h i)
      exact List.mem_append_right _ (List.mem_singleton.mpr rfl)
    | _ => trivial
  have haccounts := Run.throughout_of_along (I := fun s => Accounts s.heap s.refs)
    start_accounts step_accounts hsafe
  exact haccounts.mono fun _ => sound_of_accounts

end Interpreter

end Oa
