import Mathlib.Data.List.ReduceOption
import OdinAnalytics.Lib.Run
import OdinAnalytics.Lib.Slots
import OdinAnalytics.Native.Sexp

/-!
# Owners of R objects and the protection stack

A `sexp` that gives up its object removes the entry on top of the protection stack,
whichever entry that is. This file says when all objects that are owned stay on the
stack nevertheless, and that its height comes back.

## Key results

- `step_effect`: what an operation does to the stack and to the objects that are owned
- `step_protected`: the steps that keep the objects protected
- `balanced_iff`: the runs that keep them protected and restore the height
- `balanced_of_inTurn`: objects that are given up in turn
- `not_protected_of_moveAssign`: assigning to a `sexp` that owns an object
-/

namespace Oa

open List (Perm)

variable {α : Type}

/-- A program starts without objects of `sexp`. -/
def Frame.start (base : List (Option α)) : Frame α := ⟨base, []⟩

/-- The object that an operation calls `unprotect` on. -/
def SexpOp.givesUp (s : Frame α) : SexpOp α → Option Nat
  | .moveAssign i _ => some i
  | .destroy => some (s.objs.length - 1)
  | _ => none

/-- The operations that protect an `SEXP` that no `sexp` gives up. -/
def SexpOp.isNull : SexpOp α → Bool
  | .constructWith none => true
  | _ => false

namespace Frame

variable {s s' : Frame α} {op : SexpOp α} {ops : List (SexpOp α)} {base : List (Option α)}

/-- The objects of R that live objects own. -/
def owned (s : Frame α) : List α := s.objs.reduceOption

/-- Those that others than the `i`-th one own. -/
def ownedBut (s : Frame α) (i : Nat) : List α := (s.objs.eraseIdx i).reduceOption

/-- What is owned is on the protection stack. -/
def Protected (s : Frame α) : Prop := ∀ x ∈ s.owned, some x ∈ s.stack

/-! ## One operation -/

/-- The order does not matter for what is there. -/
theorem reduceOption_perm {xs ys : List (Option α)} (h : Perm xs ys) :
    Perm xs.reduceOption ys.reduceOption :=
  h.filterMap id

/-- What is there in the first slot and in the others. -/
theorem reduceOption_cons (x : Option α) (xs : List (Option α)) :
    (x :: xs).reduceOption = x.toList ++ xs.reduceOption := by
  cases x <;> simp

/-- An object owns what the others do not. -/
theorem owned_perm {i : Nat} (hi : i < s.objs.length) :
    Perm s.owned ((s.obj i).toList ++ s.ownedBut i) := by
  have h := reduceOption_perm (Slots.slot_cons_eraseIdx_perm hi)
  rw [reduceOption_cons] at h
  exact h.symm

/-- What the other objects own is owned. -/
theorem mem_owned_of_mem_ownedBut {i : Nat} {x : α} (h : x ∈ s.ownedBut i) : x ∈ s.owned :=
  ((List.eraseIdx_sublist _ _).filterMap id).mem h

/-- What is owned after one object was moved into another. -/
theorem owned_fromOther {i other : Nat} (hi : i < s.objs.length) (ho : other < s.objs.length) :
    Perm (s.fromOther i other).owned (s.ownedBut i) := by
  have h := reduceOption_perm (Slots.moveSlot_perm hi ho)
  rw [List.reduceOption_cons_of_none] at h
  exact h

/-- `unprotect` removes an entry of the stack when the object owns something. -/
theorem unprotect_eq (s : Frame α) (i : Nat) :
    s.unprotect i = { s with stack := s.stack.drop (s.obj i).toList.length } := by
  unfold unprotect rfUnprotect
  cases s.obj i <;> simp

/-- What an operation does. -/
inductive Effect (s : Frame α) (op : SexpOp α) (s' : Frame α) : Prop where
  | keep (hgive : op.givesUp s = none) (hnull : op.isNull = false)
      (hstack : s'.stack = s.stack) (howned : Perm s'.owned s.owned)
  | protect (obj : Option α) (hop : op = .constructWith obj)
      (hstack : s'.stack = obj :: s.stack) (howned : Perm s'.owned (obj.toList ++ s.owned))
  | giveUp (i : Nat) (hgive : op.givesUp s = some i) (hnull : op.isNull = false)
      (hi : i < s.objs.length) (hstack : s'.stack = s.stack.drop (s.obj i).toList.length)
      (howned : Perm s'.owned (s.ownedBut i))

/-- What one operation does to the stack and to what is owned. -/
theorem step_effect (h : s.step op = some s') : Effect s op s' := by
  cases op with
  | construct =>
    cases h
    exact .keep rfl rfl rfl (by simp [owned, construct, List.reduceOption_append])
  | constructWith obj =>
    cases h
    refine .protect obj rfl rfl ?_
    rw [owned, constructWith, List.reduceOption_append, reduceOption_cons]
    simpa [rfProtect, owned] using List.perm_append_comm
  | moveConstruct other =>
    simp only [step, Option.ite_none_right_eq_some] at h
    obtain ⟨ho, h⟩ := h
    cases h
    -- the new object is the last one, without anything to lose
    have hlen : s.construct.objs.length = s.objs.length + 1 := by simp [construct]
    refine .keep rfl rfl rfl ((owned_fromOther (by omega) (by omega)).trans ?_)
    rw [ownedBut, construct, List.eraseIdx_append_of_length_le (Nat.le_refl _)]
    simp [owned]
  | moveAssign i other =>
    simp only [step, Option.ite_none_right_eq_some] at h
    obtain ⟨hlt, h⟩ := h
    cases h
    unfold moveAssign
    rw [unprotect_eq]
    exact .giveUp i rfl rfl hlt.1 rfl
      (owned_fromOther (s := { s with stack := s.stack.drop (s.obj i).toList.length })
        hlt.1 hlt.2)
  | destroy =>
    simp only [step, Option.ite_none_left_eq_some] at h
    obtain ⟨hne, h⟩ := h
    cases h
    have hpos := List.length_pos_iff.mpr hne
    unfold destroy
    rw [unprotect_eq]
    refine .giveUp (s.objs.length - 1) rfl rfl (by omega) rfl ?_
    rw [ownedBut, owned, ← List.dropLast_eq_eraseIdx (by omega)]

/-! ## What stays protected -/

/-- An object that is given up leaves another one than an only protection of what
    another object owns. -/
def PopsSpare (s : Frame α) (op : SexpOp α) : Prop :=
  ∀ i ∈ op.givesUp s, (s.obj i).isSome → ∀ x ∈ s.ownedBut i,
    s.stack.head? = some (some x) → some x ∈ s.stack.tail

/-- What is on a stack stays there when the top is removed, unless it is the top only. -/
theorem mem_tail_iff {x : α} {stack : List (Option α)} (h : some x ∈ stack) :
    some x ∈ stack.tail ↔ (stack.head? = some (some x) → some x ∈ stack.tail) := by
  constructor
  · exact fun hmem _ => hmem
  · intro hspare
    cases stack with
    | nil => cases h
    | cons y rest =>
      rcases List.mem_cons.mp h with hy | hmem
      · exact hspare (congrArg some hy.symm)
      · exact hmem

/-- Popping for an object leaves the others protected, unless the top entry was of another one
    and the last of its kind. -/
theorem protected_of_giveUp {i : Nat} (hs : s.Protected)
    (hstack : s'.stack = s.stack.drop (s.obj i).toList.length)
    (howned : Perm s'.owned (s.ownedBut i)) :
    s'.Protected ↔ ((s.obj i).isSome → ∀ x ∈ s.ownedBut i,
      s.stack.head? = some (some x) → some x ∈ s.stack.tail) := by
  have hprotected : s'.Protected ↔ ∀ x ∈ s.ownedBut i, some x ∈ s'.stack :=
    forall_congr' fun x => imp_congr_left howned.mem_iff
  have hmem : ∀ x ∈ s.ownedBut i, some x ∈ s.stack := fun x hx =>
    hs x (mem_owned_of_mem_ownedBut hx)
  rw [hprotected, hstack]
  -- an empty object pops nothing, any other pops the top
  cases s.obj i with
  | none => exact iff_of_true hmem fun h => absurd h Bool.false_ne_true
  | some z =>
    simp only [Option.isSome_some, forall_const, Option.toList_some, List.length_singleton,
      List.drop_one]
    exact forall₂_congr fun x hx => mem_tail_iff (hmem x hx)

/-- A step keeps what is owned protected just when the entry that it removes is not
    needed. -/
theorem step_protected (hs : s.Protected) (h : s.step op = some s') :
    s'.Protected ↔ s.PopsSpare op := by
  cases step_effect h with
  | keep hgive hnull hstack howned =>
    -- nothing is popped, and the same objects are owned
    refine iff_of_true (fun x hx => ?_) (by simp [PopsSpare, hgive])
    rw [hstack]
    exact hs x (howned.mem_iff.mp hx)
  | protect obj hop hstack howned =>
    subst hop
    refine iff_of_true (fun x hx => ?_) (by simp [PopsSpare, SexpOp.givesUp])
    rw [hstack]
    rcases List.mem_append.mp (howned.mem_iff.mp hx) with hx | hx
    · -- the new object is on top
      rw [Option.mem_toList] at hx
      rw [hx]
      exact List.mem_cons_self
    · exact List.mem_cons_of_mem _ (hs x hx)
  | giveUp i hgive hnull hi hstack howned =>
    -- the top entry is popped, whichever object was given up
    rw [protected_of_giveUp hs hstack howned]
    simp [PopsSpare, hgive]

/-- The stack grows with what is owned, and with each null pointer that is protected. -/
theorem step_height {n : Nat} (hn : s.stack.length = n + s.owned.length)
    (h : s.step op = some s') :
    s'.stack.length = n + [op].countP SexpOp.isNull + s'.owned.length := by
  -- an object constructed over null is on the stack though it owns nothing
  cases step_effect h with
  | keep hgive hnull hstack howned =>
    simp [hstack, howned.length_eq, hn, hnull]
  | protect obj hop hstack howned =>
    subst hop
    cases obj <;> simp [hstack, howned.length_eq, hn, SexpOp.isNull] <;> omega
  | giveUp i hgive hnull hi hstack howned =>
    have howns := (owned_perm hi).length_eq
    simp only [hstack, howned.length_eq, List.length_drop, List.length_append] at howns ⊢
    simp [hnull]
    omega

/-! ## Runs -/

/-- The operations of a run all meet a condition in the states that they start from. -/
def Along (base : List (Option α)) (ops : List (SexpOp α))
    (P : Frame α → SexpOp α → Prop) : Prop :=
  ∀ pre op s, pre ++ [op] <+: ops → (start base).run pre = some s → (s.step op).isSome →
    P s op

/-- The stack is as high as it was, with an entry for each object that is owned or null. -/
theorem run_height {n : Nat} (hn : s.stack.length = n + s.owned.length)
    (h : s.run ops = some s') :
    s'.stack.length = n + ops.countP SexpOp.isNull + s'.owned.length := by
  induction ops generalizing s n with
  | nil =>
    cases h
    exact hn
  | cons op ops ih =>
    rw [run, List.foldlM_cons] at h
    obtain ⟨t, ht, h⟩ := Option.bind_eq_some_iff.mp h
    -- the nulls of the first step and of the rest
    have hcount : ([op] ++ ops).countP SexpOp.isNull =
        [op].countP SexpOp.isNull + ops.countP SexpOp.isNull := List.countP_append
    rw [List.singleton_append] at hcount
    rw [ih (step_height hn ht) h, hcount, Nat.add_assoc n]

/-- The height after a run, by what is owned and by the null pointers. -/
theorem run_start_height (h : (start base).run ops = some s) :
    s.stack.length = base.length + ops.countP SexpOp.isNull + s.owned.length :=
  run_height (n := base.length) (by simp [start, owned]) h

/-- In a run all that is owned is protected, and the stack has its height again when all
    objects are destroyed. -/
structure Balanced (base : List (Option α)) (ops : List (SexpOp α)) : Prop where
  protects : ∀ pre s, pre <+: ops → (start base).run pre = some s → s.Protected
  restores : ∀ s, (start base).run ops = some s → s.objs = [] →
    s.stack.length = base.length

/-- What is given up is not needed, and no null pointer is protected in a run that destroys
    its objects. -/
structure Careful (base : List (Option α)) (ops : List (SexpOp α)) : Prop where
  spare : Along base ops PopsSpare
  nonnull : ∀ s, (start base).run ops = some s → s.objs = [] → ∀ op ∈ ops, op.isNull = false

/-- Nothing is owned to begin with. -/
theorem start_protected : (start base).Protected := by
  intro x hx
  simp [start, owned] at hx

/-- What is owned stays protected when the operations remove entries to spare only. -/
theorem protects_iff :
    Run.Throughout step (start base) ops Protected ↔ Along base ops PopsSpare :=
  Run.throughout_iff_along (J := Protected) start_protected (fun _ => id)
    (fun hs hspare h => (step_protected hs h).mpr hspare)
    (fun hs h => (step_protected hs h).mp)

/-- The runs that protect what is owned and that restore the height. -/
theorem balanced_iff (base : List (Option α)) (ops : List (SexpOp α)) :
    Balanced base ops ↔ Careful base ops := by
  -- when nothing is owned any more, the height counts the null pointers
  have hnulls : ∀ s, (start base).run ops = some s → s.objs = [] →
      (s.stack.length = base.length ↔ ∀ op ∈ ops, op.isNull = false) := by
    intro s h hobjs
    have howned : s.owned = [] := by simp [owned, hobjs]
    rw [run_start_height h, howned, List.length_nil, Nat.add_zero, Nat.add_eq_left,
      List.countP_eq_zero]
    simp
  constructor
  · intro h
    exact ⟨protects_iff.mp h.protects, fun s hrun hobjs =>
      (hnulls s hrun hobjs).mp (h.restores s hrun hobjs)⟩
  · intro h
    exact ⟨protects_iff.mpr h.spare, fun s hrun hobjs =>
      (hnulls s hrun hobjs).mpr (h.nonnull s hrun hobjs)⟩

/-- A temporary object that is assigned to one that owns something already. -/
theorem not_balanced :
    ¬ ∀ (base : List (Option Nat)) (ops : List (SexpOp Nat)), Balanced base ops := by
  intro h
  have hprotected := (h [] [.constructWith (some 1), .constructWith (some 2),
    .moveAssign 0 1]).protects _ ⟨[some 1], [some 2, none]⟩ (List.prefix_refl _) (by decide)
  have hmem := hprotected 2 (by decide)
  exact absurd hmem (by decide)

/-! ## Objects that are given up in turn -/

/-- A new object has an `SEXP`, and an object gives up the one on top of the stack. -/
def InTurn (s : Frame α) (op : SexpOp α) : Prop :=
  op.isNull = false ∧ ∀ i ∈ op.givesUp s, ∀ x ∈ s.obj i, s.stack.head? = some (some x)

/-- The stack has one entry for each object that is owned, above those of the callers. -/
def Matched (base : List (Option α)) (s : Frame α) : Prop :=
  ∃ entries, s.stack = entries ++ base ∧ Perm entries (s.owned.map some)

/-- Where the stack is in the order of the objects, all of them are protected. -/
theorem Matched.protected (h : Matched base s) : s.Protected := by
  intro x hx
  obtain ⟨entries, hstack, hperm⟩ := h
  rw [hstack]
  exact List.mem_append_left _ (hperm.mem_iff.mpr (List.mem_map_of_mem hx))

/-- Objects that come and go in turn keep the stack in their order. -/
theorem step_matched (hm : Matched base s) (hturn : s.InTurn op) (h : s.step op = some s') :
    Matched base s' := by
  obtain ⟨entries, hentries, hperm⟩ := hm
  cases step_effect h with
  | keep hgive hnull hstack howned =>
    exact ⟨entries, by rw [hstack, hentries], hperm.trans (howned.symm.map some)⟩
  | protect obj hop hstack howned =>
    subst hop
    cases obj with
    | none => cases hturn.1
    | some x =>
      refine ⟨some x :: entries, by rw [hstack, hentries, List.cons_append], ?_⟩
      exact (hperm.cons _).trans (howned.symm.map some)
  | giveUp i hgive hnull hi hstack howned =>
    have howns := (owned_perm hi).map some
    cases hobj : s.obj i with
    | none =>
      rw [hobj] at hstack howns
      exact ⟨entries, by rw [hstack, ← hentries]; rfl,
        hperm.trans (howns.trans (howned.symm.map some))⟩
    | some x =>
      rw [hobj] at hstack howns
      -- the entry on top is that of the object
      have hhead := hturn.2 i hgive x hobj
      cases entries with
      | nil =>
        have hnil := List.nil_perm.mp (hperm.trans howns)
        simp at hnil
      | cons e entries =>
        rw [hentries] at hhead
        cases hhead
        refine ⟨entries, by rw [hstack, hentries]; rfl, ?_⟩
        exact (hperm.trans howns).cons_inv.trans (howned.symm.map some)

/-- Objects that are given up in turn stay protected while they are owned. -/
theorem balanced_of_inTurn (h : Along base ops InTurn) : Balanced base ops := by
  -- the invariant: the stack is what the objects own, over the base
  have hmatched : Run.Throughout step (start base) ops (Matched base) :=
    Run.throughout_of_along ⟨[], rfl, Perm.refl _⟩ step_matched h
  constructor
  · intro pre s hpre hrun
    exact (hmatched pre s hpre hrun).protected
  · intro s hrun hobjs
    obtain ⟨entries, hstack, hperm⟩ := hmatched ops s (List.prefix_refl _) hrun
    -- at the end no object is left, so nothing is owned
    have howned : s.owned = [] := by simp [owned, hobjs]
    rw [howned, List.map_nil] at hperm
    rw [hstack, List.perm_nil.mp hperm, List.nil_append]

/-- A `sexp` that owns an object and is assigned a temporary one that owns another: the new
    object loses its protection. -/
theorem not_protected_of_moveAssign {i : Nat} {x y : α} (hs : s.Protected)
    (hobj : s.obj i = some x) (hy : some y ∉ s.stack)
    (h : s.run [.constructWith (some y), .moveAssign i s.objs.length] = some s') :
    ¬ s'.Protected := by
  have hi : i < s.objs.length := by
    by_contra hge
    simp [obj, List.getElem?_eq_none (Nat.le_of_not_lt hge)] at hobj
  have hstep : (s.constructWith (some y)).step (.moveAssign i s.objs.length) = some s' := by
    simpa [run, step] using h
  have hconstruct : s.step (.constructWith (some y)) = some (s.constructWith (some y)) := rfl
  have hs' : (s.constructWith (some y)).Protected :=
    (step_protected hs hconstruct).mpr fun _ hj => nomatch hj
  rw [step_protected hs' hstep]
  -- the entry on top is the only one of the new object, which the temporary one owns
  intro hspare
  have hsome : ((s.constructWith (some y)).obj i).isSome := by
    simpa [obj, constructWith, rfProtect, List.getElem?_append_left hi] using
      congrArg Option.isSome hobj
  refine hy (hspare i rfl hsome y ?_ rfl)
  simp [ownedBut, constructWith, rfProtect, List.eraseIdx_append_of_lt_length hi,
    List.reduceOption_append]

/-- The typemaps assign to a `sexp` that owns nothing, and protect the result. -/
theorem run_typemapOut (r : RStrings α) (str : Machine.Bytes) (s : Frame α) :
    s.run (typemapOut r str s.objs.length) =
      some (s.constructWith (some (toSexp r str))) := by
  -- the assignment pops nothing, as the object assigned to is empty
  have hassign : (s.construct.constructWith (some (toSexp r str))).moveAssign s.objs.length
      (s.objs.length + 1) = ⟨some (toSexp r str) :: s.stack,
        s.objs ++ [some (toSexp r str)] ++ [none]⟩ := by
    simp [construct, constructWith, rfProtect, moveAssign, unprotect, obj, fromOther]
  -- the temporary was emptied by the move, so its end pops nothing either
  have hdestroy : Frame.destroy ⟨some (toSexp r str) :: s.stack,
      s.objs ++ [some (toSexp r str)] ++ [none]⟩ = s.constructWith (some (toSexp r str)) := by
    simp [destroy, unprotect, obj, constructWith, rfProtect]
  have hlen : (s.construct.constructWith (some (toSexp r str))).objs.length =
      s.objs.length + 2 := by
    simp [construct, constructWith, rfProtect]
  simp only [run, typemapOut, List.foldlM_cons, List.foldlM_nil, step, Option.bind_eq_bind,
    Option.bind_some]
  rw [if_pos (by omega), Option.bind_some, hassign, if_neg (by simp), hdestroy]
  rfl

end Frame

end Oa
