import Mathlib.Data.List.InsertIdx
import OdinAnalytics.Lib.Radix
import OdinAnalytics.Lib.Transition
import OdinAnalytics.Native.VersionObjects
import OdinAnalytics.Spec.VersionInfoCorrect

/-!
# Objects of version info are values

A program that moves objects of `version_info` about sees values that are moved about: no
implementation is deleted twice or used afterwards, none is left over, and an object that
was moved from has nothing to tell. The digits of `version_hex` are in the order of versions.

## Key results

- `Holds.step`: one operation on objects follows one on values
- `objects_refine`: so do the operations of a program
- `bytesLe_hexOf_iff`: the order of `version_hex`
-/

namespace OA.Config

open Machine Slots Transition

/-! ## Values -/

/-- What becomes of the values that the live objects have, one operation at a time. A
    constructor that throws makes no object. -/
inductive ValueStep (plat : Platform) :
    ObjectOp → List (Option VersionInfo) → List (Option VersionInfo) → Prop where
  | construct {vs : List (Option VersionInfo)} : ValueStep plat .construct vs (vs ++ [none])
  | load {contents : Bytes} {info : VersionInfo} {vs : List (Option VersionInfo)}
      (hload : versionInfo plat contents = .ok info) :
      ValueStep plat (.load contents) vs (vs ++ [some info])
  | refuse {contents : Bytes} {e : Exn} {vs : List (Option VersionInfo)}
      (hload : versionInfo plat contents = .error (.throws e)) :
      ValueStep plat (.load contents) vs vs
  | moveConstruct {other : Nat} {vs : List (Option VersionInfo)} (ho : other < vs.length) :
      ValueStep plat (.moveConstruct other) vs (moveSlot (vs ++ [none]) vs.length other)
  | moveAssign {i other : Nat} {vs : List (Option VersionInfo)} (hi : i < vs.length)
      (ho : other < vs.length) : ValueStep plat (.moveAssign i other) vs (moveSlot vs i other)
  | destruct {i : Nat} {vs : List (Option VersionInfo)} (hi : i < vs.length) :
      ValueStep plat (.destruct i) vs (vs.eraseIdx i)

namespace VersionObjects

variable {plat : Platform} {s s' : VersionObjects} {op : ObjectOp} {ops : List ObjectOp}
  {vs vs' : List (Option VersionInfo)} {i other : Nat}

/-- An operation on live objects, whose exception is caught if it throws one. -/
inductive Step (plat : Platform) (op : ObjectOp) (s : VersionObjects) :
    VersionObjects → Prop where
  | done {s' : VersionObjects} (hnames : op.Names s.objs.length)
      (hstep : s.step plat op = .ok s') : Step plat op s s'
  | caught {e : Exn} (hnames : op.Names s.objs.length)
      (hstep : s.step plat op = .error (.throws e)) : Step plat op s s

/-- What a pointer to an implementation is worth. -/
def worth (impls : Heap VersionInfo) (p : Option Nat) : Option VersionInfo := p.bind impls.block

/-- The objects have the values. Each has an implementation of its own, and there are no
    other implementations. -/
structure Holds (s : VersionObjects) (vs : List (Option VersionInfo)) : Prop where
  live : s.impls.Live (s.objs.filterMap id)
  worth_eq : s.objs.map (worth s.impls) = vs

/-- There are no objects to begin with. -/
theorem holds_start : Holds {} [] := ⟨Heap.live_empty, rfl⟩

/-- There are as many objects as values. -/
theorem Holds.length_eq (h : s.Holds vs) : s.objs.length = vs.length := by
  rw [← h.worth_eq, List.length_map]

/-- The implementations of all objects but one. -/
theorem filterMap_perm (hi : i < s.objs.length) :
    (s.objs.filterMap id).Perm ((s.impl i).toList ++ (s.objs.eraseIdx i).filterMap id) := by
  have hperm := (slot_cons_eraseIdx_perm hi).symm.filterMap id
  rw [List.filterMap_cons] at hperm
  -- the object has an implementation or none
  cases himpl : slot s.objs i with
  | none =>
    rw [himpl] at hperm
    simpa [impl, himpl] using hperm
  | some a =>
    rw [himpl] at hperm
    simpa [impl, himpl] using hperm

/-- What an object owned is deleted, which is there to be deleted, and all the other objects
    keep what they own. -/
theorem Holds.destroy (h : s.Holds vs) (hi : i < s.objs.length) : ∃ impls,
    s.destroy i = .ok { s with impls := impls } ∧
      impls.Live ((s.objs.eraseIdx i).filterMap id) ∧
      ∀ p ∈ s.objs.eraseIdx i, worth impls p = worth s.impls p := by
  have hlive := h.live.perm (filterMap_perm hi)
  unfold VersionObjects.destroy
  cases himpl : s.impl i with
  | none =>
    rw [himpl] at hlive
    exact ⟨s.impls, rfl, hlive, fun _ _ => rfl⟩
  | some a =>
    rw [himpl] at hlive
    obtain ⟨impls, hfree, hlive', hkept⟩ := hlive.free
    simp only [hfree]
    refine ⟨impls, rfl, hlive', fun p hp => ?_⟩
    cases p with
    | none => rfl
    | some a' =>
      -- no other object owns the implementation that was deleted
      apply hkept
      rintro rfl
      have hmem : a' ∈ (s.objs.eraseIdx i).filterMap id := List.mem_filterMap.mpr ⟨_, hp, rfl⟩
      exact (List.nodup_cons.mp hlive.nodup).1 hmem

/-- Moving what a slot holds moves what it is worth, whatever was in the other slot. -/
theorem map_worth_moveSlot {impls impls' : Heap VersionInfo} {objs : List (Option Nat)}
    (h : ∀ p ∈ objs.eraseIdx i, worth impls' p = worth impls p) :
    (moveSlot objs i other).map (worth impls') =
      moveSlot (objs.map (worth impls)) i other := by
  -- a pointer beyond the end is null
  have hslot : ∀ impls, worth impls (slot objs other) =
      (objs[other]?.map (worth impls)).getD none := by
    intro impls
    rw [slot, List.getD_eq_getElem?_getD]
    cases objs[other]? <;> rfl
  -- the other slots are worth what they were
  have hkept : ∀ k ≠ i, objs[k]?.map (worth impls') = objs[k]?.map (worth impls) := by
    intro k hk
    cases hobj : objs[k]? with
    | none => rfl
    | some p => exact congrArg some (h p (List.mem_eraseIdx_iff_getElem?.mpr ⟨k, hk, hobj⟩))
  apply List.ext_getElem?
  intro k
  simp only [moveSlot, List.getElem?_map, List.getElem?_set, List.length_set, List.length_map]
  by_cases hother : other = k
  · simp only [if_pos hother]
    split <;> rfl
  · simp only [if_neg hother]
    by_cases hi : i = k
    · -- the slot that is moved from is another one
      have hmoved : slot (objs.map (worth impls)) other = worth impls' (slot objs other) := by
        rw [hslot, hkept other (hi ▸ hother), slot, List.getD_eq_getElem?_getD, List.getElem?_map]
      simp only [if_pos hi, hmoved]
      split <;> rfl
    · simp only [if_neg hi]
      exact hkept k fun heq => hi heq.symm

/-- A move loses the pointer of the target, and no other. -/
theorem filterMap_moveSlot_perm {objs : List (Option Nat)} (hi : i < objs.length)
    (ho : other < objs.length) :
    ((moveSlot objs i other).filterMap id).Perm ((objs.eraseIdx i).filterMap id) :=
  (moveSlot_perm hi ho).filterMap id

/-! ## Operations -/

/-- A load that returns makes an object. -/
theorem step_load_ok {contents : Bytes} {info : VersionInfo}
    (hload : versionInfo plat contents = .ok info) : s.step plat (.load contents) =
      .ok ⟨(s.impls.alloc info).2, s.objs ++ [some (s.impls.alloc info).1]⟩ := by
  show load plat contents s = _
  unfold load
  rw [hload]
  rfl

/-- A load that throws makes no object. -/
theorem step_load_error {contents : Bytes} {f : Fault}
    (hload : versionInfo plat contents = .error f) : s.step plat (.load contents) = .error f := by
  show load plat contents s = _
  unfold load
  rw [hload]
  rfl

/-- A move assignment destroys the target, then takes over the pointer. -/
theorem step_moveAssign (hdestroy : s.destroy i = .ok s') :
    s.step plat (.moveAssign i other) = .ok (s'.fromOther i other) := by
  show moveAssign s i other = _
  unfold moveAssign
  rw [hdestroy]
  rfl

/-- A destruction takes the object away. -/
theorem step_destruct (hdestroy : s.destroy i = .ok s') :
    s.step plat (.destruct i) = .ok { s' with objs := s'.objs.eraseIdx i } := by
  show destruct s i = _
  unfold destruct
  rw [hdestroy]
  rfl

/-- Moving a pointer moves its value. -/
theorem Holds.moveSlot (h : s.Holds vs) (hi : i < s.objs.length) (ho : other < s.objs.length)
    {impls : Heap VersionInfo} (hlive : impls.Live ((s.objs.eraseIdx i).filterMap id))
    (hworth : ∀ p ∈ s.objs.eraseIdx i, worth impls p = worth s.impls p) :
    Holds ⟨impls, moveSlot s.objs i other⟩ (Slots.moveSlot vs i other) where
  live := hlive.perm (filterMap_moveSlot_perm hi ho).symm
  worth_eq := by rw [map_worth_moveSlot hworth, h.worth_eq]

/-- A default object has no value. -/
theorem Holds.construct (h : s.Holds vs) : s.construct.Holds (vs ++ [none]) where
  live := by
    have hobjs : s.construct.objs.filterMap id = s.objs.filterMap id := by
      simp [VersionObjects.construct]
    rw [hobjs]
    exact h.live
  worth_eq := by
    rw [VersionObjects.construct, List.map_append, h.worth_eq]
    rfl

/-- A new object has the value it was loaded with. -/
theorem Holds.alloc (h : s.Holds vs) (info : VersionInfo) :
    Holds ⟨(s.impls.alloc info).2, s.objs ++ [some (s.impls.alloc info).1]⟩
      (vs ++ [some info]) where
  live := by
    have hlive := h.live.adds (Heap.adds_alloc s.impls info)
    rw [List.filterMap_append]
    exact hlive.perm List.perm_append_comm
  worth_eq := by
    -- a new block takes none of the old addresses
    have hold : ∀ p ∈ s.objs, worth (s.impls.alloc info).2 p = worth s.impls p := by
      intro p hp
      cases p with
      | none => rfl
      | some a =>
        have hmem : a ∈ s.objs.filterMap id := List.mem_filterMap.mpr ⟨_, hp, rfl⟩
        exact (Heap.adds_alloc s.impls info).old ((h.live.isSome_iff a).mpr hmem)
    rw [List.map_append, List.map_congr_left hold, h.worth_eq, List.map_cons, List.map_nil]
    exact congrArg (fun v => vs ++ [v]) (Heap.block_alloc s.impls info)

/-- What an operation does to the objects that have values, it does to the values. -/
theorem Holds.step (op : ObjectOp) (vs vs' : List (Option VersionInfo)) (s : VersionObjects)
    (h : s.Holds vs) (hstep : ValueStep plat op vs vs') : ∃ s', s.Step plat op s' ∧
      s'.Holds vs' := by
  have hlen := h.length_eq
  -- each step of the values is one of the objects
  cases hstep with
  | construct => exact ⟨_, .done trivial rfl, h.construct⟩
  | @load contents info _ hload =>
    exact ⟨_, .done trivial (step_load_ok hload), h.alloc info⟩
  | refuse hload => exact ⟨s, .caught trivial (step_load_error hload), h⟩
  | moveConstruct ho =>
    rw [← hlen] at ho
    refine ⟨_, .done ho rfl, ?_⟩
    have hobjs : s.construct.objs.eraseIdx s.objs.length = s.objs := by
      simp [VersionObjects.construct, List.eraseIdx_append_of_length_le]
    -- the new object is the last one
    have hlt : ∀ {k}, k ≤ s.objs.length → k < s.construct.objs.length := by
      intro k hk
      rw [VersionObjects.construct, List.length_append]
      exact Nat.lt_succ_of_le hk
    rw [← hlen]
    apply h.construct.moveSlot (hlt (Nat.le_refl _)) (hlt ho.le)
    · rw [hobjs]
      exact h.live
    · exact fun _ _ => rfl
  | @moveAssign i other _ hi ho =>
    rw [← hlen] at hi ho
    obtain ⟨impls, hdestroy, hlive, hworth⟩ := h.destroy hi
    exact ⟨_, .done ⟨hi, ho⟩ (step_moveAssign hdestroy), h.moveSlot hi ho hlive hworth⟩
  | @destruct i _ hi =>
    rw [← hlen] at hi
    obtain ⟨impls, hdestroy, hlive, hworth⟩ := h.destroy hi
    refine ⟨_, .done hi (step_destruct hdestroy), hlive, ?_⟩
    rw [List.map_congr_left hworth, ← List.eraseIdx_map, h.worth_eq]

/-! ## Programs -/

/-- A step names objects that there are. -/
theorem Step.names (h : s.Step plat op s') : op.Names s.objs.length := by
  cases h with
  | done hnames _ => exact hnames
  | caught hnames _ => exact hnames

/-- A step leaves no choice. -/
theorem Step.unique {s'' : VersionObjects} (h : s.Step plat op s') (h' : s.Step plat op s'') :
    s'' = s' := by
  -- a step is done or caught, but not both
  cases h with
  | done _ hstep =>
    cases h' with
    | done _ hstep' => exact Except.ok.inj (hstep'.symm.trans hstep)
    | caught _ hstep' => cases hstep'.symm.trans hstep
  | caught _ hstep =>
    cases h' with
    | done _ hstep' => cases hstep'.symm.trans hstep
    | caught _ _ => rfl

/-- The values have an operation for each one on the objects. -/
theorem Step.exists_valueStep (h : s.Step plat op s') (hlen : s.objs.length = vs.length) :
    ∃ vs', ValueStep plat op vs vs' := by
  have hnames := h.names
  rw [hlen] at hnames
  cases op with
  | construct => exact ⟨_, .construct⟩
  | moveConstruct other => exact ⟨_, .moveConstruct hnames⟩
  | moveAssign i other => exact ⟨_, .moveAssign hnames.1 hnames.2⟩
  | destruct i => exact ⟨_, .destruct hnames⟩
  | load contents =>
    cases hload : versionInfo plat contents with
    | ok info => exact ⟨_, .load hload⟩
    | error f =>
      have hstep := step_load_error (s := s) hload
      -- a load that throws leaves the objects as they were
      cases h with
      | done _ hstep' => cases hstep.symm.trans hstep'
      | caught _ hstep' =>
        cases hstep.symm.trans hstep'
        exact ⟨_, .refuse hload⟩

/-- The values follow the objects. -/
theorem Holds.follow (op : ObjectOp) (s s' : VersionObjects) (vs : List (Option VersionInfo))
    (h : s.Holds vs) (hstep : s.Step plat op s') :
    ∃ vs', ValueStep plat op vs vs' ∧ s'.Holds vs' := by
  obtain ⟨vs', hvalues⟩ := hstep.exists_valueStep h.length_eq
  obtain ⟨s'', hstep', hholds⟩ := Holds.step op vs vs' s h hvalues
  rw [← hstep.unique hstep']
  exact ⟨vs', hvalues, hholds⟩

/-- The only undefined behaviour of an operation is that of reading a file. -/
theorem Holds.step_post (h : s.Holds vs) (hnames : op.Names s.objs.length) :
    Post (s.step plat op) (fun f => ∃ contents, op = .load contents ∧
      versionInfo plat contents = .error f) fun _ => True := by
  cases op with
  | construct => trivial
  | moveConstruct other => trivial
  | load contents =>
    -- only a load can fail, with the error of its contents
    cases hload : versionInfo plat contents with
    | ok info =>
      rw [step_load_ok hload]
      trivial
    | error f =>
      rw [step_load_error hload]
      exact ⟨contents, rfl, hload⟩
  | moveAssign i other =>
    obtain ⟨impls, hdestroy, -, -⟩ := h.destroy hnames.1
    rw [step_moveAssign hdestroy]
    trivial
  | destruct i =>
    obtain ⟨impls, hdestroy, -, -⟩ := h.destroy hnames
    rw [step_destruct hdestroy]
    trivial

/-- What can be asked of a value: nothing, if there is none. -/
def answer : Option VersionInfo → Exec VersionInfo
  | none => .error (.undefined .nullPointer)
  | some info => .ok info

/-- Asking an object gives its value. -/
theorem Holds.arrow_eq (h : s.Holds vs) (i : Nat) : s.arrow i = answer (slot vs i) := by
  -- what the object holds is what its pointer is worth
  have hslot : slot vs i = worth s.impls (s.impl i) := by
    rw [← h.worth_eq, impl, slot, slot, List.getD_eq_getElem?_getD, List.getD_eq_getElem?_getD,
      List.getElem?_map]
    cases s.objs[i]? <;> rfl
  rw [hslot]
  unfold arrow
  cases himpl : s.impl i with
  | none => rfl
  | some a =>
    have hmem : some a ∈ s.objs := by
      have hget : s.objs[i]?.getD none = some a := by
        rw [← List.getD_eq_getElem?_getD]
        exact himpl
      cases hobj : s.objs[i]? with
      | none =>
        rw [hobj] at hget
        cases hget
      | some p =>
        rw [hobj] at hget
        cases hget
        exact List.mem_of_getElem? hobj
    -- a pointer that is not null is live
    have hlive := (h.live.isSome_iff a).mpr (List.mem_filterMap.mpr ⟨_, hmem, rfl⟩)
    obtain ⟨info, hinfo⟩ := Option.isSome_iff_exists.mp hlive
    simp only [worth, Option.bind_some, hinfo]
    rfl

/-- Whatever a program has done with objects that were live, they answer as the values do that
    were moved about in their place. Each implementation is owned by just one of them, so that
    there are none without objects, and nothing that the program may do next is undefined but
    to read a file that is undefined to read. -/
theorem objects_refine (h : Runs (Step plat) {} ops s) : ∃ vs,
    Runs (ValueStep plat) [] ops vs ∧ (∀ i, s.arrow i = answer (slot vs i)) ∧
      s.impls.Live (s.objs.filterMap id) ∧ ∀ op : ObjectOp, op.Names s.objs.length →
        Post (s.step plat op) (fun f => ∃ contents, op = .load contents ∧
          versionInfo plat contents = .error f) fun _ => True := by
  obtain ⟨vs, hrun, hholds⟩ := h.simulate (R := fun s vs => Holds s vs) Holds.follow holds_start
  exact ⟨vs, hrun, hholds.arrow_eq, hholds.live, fun op => hholds.step_post⟩

/-- An object that takes over what another one has read, and the other one is destroyed. -/
theorem objects_refine_cutObject : ∃ s : VersionObjects, Runs (Step posix) {}
    [.load cutObject, .construct, .moveAssign 1 0, .destruct 0] s ∧ ∃ vs,
      Runs (ValueStep posix) [] [.load cutObject, .construct, .moveAssign 1 0, .destruct 0] vs ∧
        (∀ i, s.arrow i = answer (slot vs i)) ∧ s.impls.Live (s.objs.filterMap id) ∧
        ∀ op : ObjectOp, op.Names s.objs.length → Post (s.step posix op)
          (fun f => ∃ contents, op = .load contents ∧ versionInfo posix contents = .error f)
          fun _ => True := by
  -- the file has no texts, and its number is cut off
  have hload : versionInfo posix cutObject = .ok ⟨[], [], [], [], [], 0⟩ := by decide +kernel
  have hvalues : Runs (ValueStep posix) []
      [.load cutObject, .construct, .moveAssign 1 0, .destruct 0] _ :=
    (((Runs.nil.concat (.load hload)).concat .construct).concat
      (.moveAssign (by decide) (by decide))).concat (.destruct (by decide))
  obtain ⟨s, hrun, -⟩ := hvalues.simulate (R := fun vs s => Holds s vs) Holds.step holds_start
  exact ⟨s, hrun, objects_refine hrun⟩

/-! ## The hexadecimal version -/

/-- A digit depends on four bits. -/
theorem hexDigit_mod (n : Nat) : hexDigit (n % 16) = hexDigit n := by
  have hand : ∀ m : Nat, m &&& 0xF = m % 16 := fun m => Nat.and_two_pow_sub_one_eq_mod m 4
  unfold hexDigit
  rw [hand, hand, Nat.mod_mod]

/-- What the loop writes are the digits of the number. -/
theorem hexOf_eq (ver : Nat) : hexOf ver = (Radix.digits 16 16 ver).map hexDigit := by
  have hloop : hexOf ver = (List.range 16).map fun k => hexDigit (ver >>> (4 * (15 - k))) := rfl
  rw [hloop, Radix.digits_eq_map, List.map_map]
  apply List.map_congr_left
  intro k _
  -- shifting by four bits is dividing by sixteen
  have hpow : 16 ^ (16 - 1 - k) = 2 ^ (4 * (15 - k)) := by
    rw [Nat.pow_mul]
  rw [Function.comp_apply, hexDigit_mod, hpow, Nat.shiftRight_eq_div_pow]

/-- Versions are in order just when what `version_hex` says of them is in the order of strings. -/
theorem bytesLe_hexOf_iff {v w : Nat} (hv : v < 2 ^ 64) (hw : w < 2 ^ 64) :
    BytesLe (hexOf v) (hexOf w) ↔ v ≤ w := by
  -- the characters are in the order of the digits
  have hdigits : StrictMonoOn (UInt8.toNat ∘ hexDigit) (Set.Iio 16) := by
    have hall : ∀ d < 16, ∀ e < 16, d < e → (hexDigit d).toNat < (hexDigit e).toNat := by
      decide
    intro d hd e he hlt
    exact hall d hd e he hlt
  have hpow : (2 : Nat) ^ 64 = 16 ^ 16 := rfl
  rw [hpow] at hv hw
  rw [BytesLe, hexOf_eq, hexOf_eq, List.map_map, List.map_map, ← not_lt,
    Radix.map_digits_lt_iff (by decide) hdigits hw hv, not_lt]

/-- Versions 1.9 and 1.10, whose decimal texts are the other way round. -/
theorem bytesLe_hexOf_minor :
    BytesLe (hexOf 0x0001000900000000) (hexOf 0x0001000a00000000) :=
  (bytesLe_hexOf_iff (by decide) (by decide)).mpr (by decide)

end VersionObjects

end OA.Config
