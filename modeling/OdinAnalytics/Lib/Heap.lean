import Mathlib.Data.List.Nodup
import Mathlib.Data.List.Perm.Basic
import Mathlib.Logic.Function.Basic

/-!
# A memory of blocks

A `Heap` maps addresses to the blocks that are there now. `alloc` puts a block at an
address that none had before, `free` takes one away, and a block that is gone can be
neither written nor freed. `Adds` says what a piece of code has allocated, and `Live` which
blocks there are.

## Key results

- `Adds.trans`, `Adds.write`: what code allocates, piece by piece
- `Live.freeAll`: freeing some of the blocks there are leaves the others
-/

/-- A memory of blocks. No address from `next` on has been given out. -/
structure Heap (β : Type) where
  block : Nat → Option β
  next : Nat
  fresh : ∀ a, next ≤ a → block a = none

namespace Heap

variable {β : Type} {h h' h'' : Heap β} {a : Nat} {b : β} {as bs : List Nat}

/-- A memory without blocks. -/
def empty : Heap β := ⟨fun _ => none, 0, fun _ _ => rfl⟩

/-- A block at an address of its own. -/
def alloc (h : Heap β) (b : β) : Nat × Heap β :=
  (h.next, {
    block := Function.update h.block h.next (some b)
    next := h.next + 1
    fresh := by
      intro a ha
      rw [Function.update_of_ne (by omega)]
      exact h.fresh a (by omega) })

/-- The memory with another block, or none, at an address that has been given out. -/
def put (h : Heap β) (a : Nat) (b : Option β) (ha : a < h.next) : Heap β where
  block := Function.update h.block a b
  next := h.next
  fresh := by
    intro a' ha'
    rw [Function.update_of_ne (by omega)]
    exact h.fresh a' ha'

/-- An address that has a block has been given out. -/
theorem lt_next (ha : (h.block a).isSome) : a < h.next := by
  by_contra hlt
  rw [h.fresh a (by omega)] at ha
  exact nomatch ha

/-- A block in the place of one that is there. -/
def write (h : Heap β) (a : Nat) (b : β) : Option (Heap β) :=
  if ha : (h.block a).isSome then some (h.put a (some b) (lt_next ha)) else none

/-- The memory without a block that is there. -/
def free (h : Heap β) (a : Nat) : Option (Heap β) :=
  if ha : (h.block a).isSome then some (h.put a none (lt_next ha)) else none

/-- The memory without the blocks at some addresses, which are freed one after the other. -/
def freeAll (h : Heap β) (as : List Nat) : Option (Heap β) := as.foldlM free h

/-! ## What the operations do -/

/-- The memory with another block is known by its blocks and its next address. -/
theorem put_eq_iff {b : Option β} (ha : a < h.next) : h.put a b ha = h' ↔
    h'.block = Function.update h.block a b ∧ h'.next = h.next := by
  constructor
  · rintro rfl
    exact ⟨rfl, rfl⟩
  · rintro ⟨hblock, hnext⟩
    -- that fresh addresses have no block is a proof, and proofs are equal
    cases h'
    simp only at hblock hnext
    subst hblock hnext
    rfl

/-- Writing succeeds exactly on a block that is there, and changes that block only. -/
theorem write_eq_some_iff : h.write a b = some h' ↔
    (h.block a).isSome ∧ h'.block = Function.update h.block a (some b) ∧ h'.next = h.next := by
  unfold write
  split
  · next ha =>
    rw [Option.some.injEq, put_eq_iff]
    exact (and_iff_right ha).symm
  · next ha => simp [ha]

/-- Freeing succeeds exactly on a block that is there, and takes that block only. -/
theorem free_eq_some_iff : h.free a = some h' ↔
    (h.block a).isSome ∧ h'.block = Function.update h.block a none ∧ h'.next = h.next := by
  unfold free
  split
  · next ha =>
    rw [Option.some.injEq, put_eq_iff]
    exact (and_iff_right ha).symm
  · next ha => simp [ha]

/-- A block that is there can be written. -/
theorem exists_write (ha : (h.block a).isSome) (b : β) : ∃ h', h.write a b = some h' := by
  rw [write, dif_pos ha]
  exact ⟨_, rfl⟩

/-- A block that is there can be freed. -/
theorem exists_free (ha : (h.block a).isSome) : ∃ h', h.free a = some h' := by
  rw [free, dif_pos ha]
  exact ⟨_, rfl⟩

/-- What is there once a block has been written. -/
theorem block_write (hwrite : h.write a b = some h') : h'.block a = some b := by
  rw [(write_eq_some_iff.mp hwrite).2.1, Function.update_self]

/-- Writing leaves the other blocks as they were. -/
theorem block_write_of_ne (hwrite : h.write a b = some h') {a' : Nat} (hne : a' ≠ a) :
    h'.block a' = h.block a' := by
  rw [(write_eq_some_iff.mp hwrite).2.1, Function.update_of_ne hne]

/-- What was allocated is found at its address. -/
theorem block_alloc (h : Heap β) (b : β) : (h.alloc b).2.block (h.alloc b).1 = some b :=
  Function.update_self ..

/-- Freeing may be done in two parts. -/
theorem freeAll_append (h : Heap β) (as bs : List Nat) :
    h.freeAll (as ++ bs) = (h.freeAll as).bind fun h' => h'.freeAll bs := by
  rw [freeAll, List.foldlM_append]
  rfl

/-- Freeing one block. -/
theorem freeAll_singleton (h : Heap β) (a : Nat) : h.freeAll [a] = h.free a := by
  simp [freeAll]

/-- Freeing some blocks leaves what is elsewhere as it was. -/
theorem block_freeAll (hfree : h.freeAll as = some h') (ha : a ∉ as) : h'.block a = h.block a := by
  induction as generalizing h with
  | nil =>
    cases hfree
    rfl
  | cons a' as ih =>
    rw [freeAll, List.foldlM_cons] at hfree
    obtain ⟨h₁, hfree₁, hrest⟩ := Option.bind_eq_some_iff.mp hfree
    -- the address is neither the first one nor among the rest
    rw [List.mem_cons, not_or] at ha
    rw [ih hrest ha.2, (free_eq_some_iff.mp hfree₁).2.1, Function.update_of_ne ha.1]

/-! ## Allocated blocks -/

/-- The blocks of `h'` are those of `h`, unchanged, and new ones at the addresses `as`. -/
structure Adds (h h' : Heap β) (as : List Nat) : Prop where
  nodup : as.Nodup
  before : ∀ a ∈ as, h.next ≤ a
  after : ∀ a ∈ as, (h'.block a).isSome
  kept : ∀ a ∉ as, h'.block a = h.block a
  next_le : h.next ≤ h'.next

/-- An allocation adds one block. -/
theorem adds_alloc (h : Heap β) (b : β) : Adds h (h.alloc b).2 [(h.alloc b).1] where
  nodup := List.nodup_singleton _
  before := by simp [alloc]
  after := by simp [alloc]
  kept a ha := Function.update_of_ne (fun heq => ha (List.mem_singleton.mpr heq)) _ _
  next_le := Nat.le_succ _

/-- What is already there when code starts is there, as it was, when it ends. -/
theorem Adds.old (hadds : Adds h h' as) (ha : (h.block a).isSome) : h'.block a = h.block a := by
  apply hadds.kept
  intro hmem
  have hlt := lt_next ha
  have hle := hadds.before a hmem
  omega

/-- Blocks that were added have addresses that have been given out. -/
theorem Adds.lt_next (hadds : Adds h h' as) (ha : a ∈ as) : a < h'.next :=
  Heap.lt_next (hadds.after a ha)

/-- What two pieces of code add, one after the other. -/
theorem Adds.trans (hadds : Adds h h' as) (hadds' : Adds h' h'' bs) : Adds h h'' (as ++ bs) where
  nodup := by
    rw [List.nodup_append]
    refine ⟨hadds.nodup, hadds'.nodup, fun a ha b hb heq => ?_⟩
    -- the later blocks are beyond all the earlier ones
    have hlt := hadds.lt_next ha
    have hle := hadds'.before b hb
    omega
  before a ha := by
    rcases List.mem_append.mp ha with ha | ha
    · exact hadds.before a ha
    · exact Nat.le_trans hadds.next_le (hadds'.before a ha)
  after a ha := by
    rcases List.mem_append.mp ha with ha | ha
    · rw [hadds'.old (hadds.after a ha)]
      exact hadds.after a ha
    · exact hadds'.after a ha
  kept a ha := by
    rw [List.mem_append, not_or] at ha
    rw [hadds'.kept a ha.2, hadds.kept a ha.1]
  next_le := Nat.le_trans hadds.next_le hadds'.next_le

/-- Writing to a block that was allocated on the way. -/
theorem Adds.write (hadds : Adds h h' as) (ha : a ∈ as) (hwrite : h'.write a b = some h'') :
    Adds h h'' as := by
  obtain ⟨-, hblock, hnext⟩ := write_eq_some_iff.mp hwrite
  refine ⟨hadds.nodup, hadds.before, fun a' ha' => ?_, fun a' ha' => ?_, hnext ▸ hadds.next_le⟩
  · rw [hblock]
    by_cases heq : a' = a
    · rw [heq, Function.update_self]
      rfl
    · rw [Function.update_of_ne heq]
      exact hadds.after a' ha'
  · -- an old address is not among the added ones
    have hne : a' ≠ a := fun heq => ha' (heq ▸ ha)
    rw [hblock, Function.update_of_ne hne]
    exact hadds.kept a' ha'

/-- The order in which addresses are listed does not matter. -/
theorem Adds.perm (hadds : Adds h h' as) (hperm : as.Perm bs) : Adds h h' bs where
  nodup := hperm.nodup_iff.mp hadds.nodup
  before a ha := hadds.before a (hperm.mem_iff.mpr ha)
  after a ha := hadds.after a (hperm.mem_iff.mpr ha)
  kept a ha := hadds.kept a fun hmem => ha (hperm.mem_iff.mp hmem)
  next_le := hadds.next_le

/-! ## The blocks there are -/

/-- The blocks of a memory are at the addresses `as`. -/
structure Live (h : Heap β) (as : List Nat) : Prop where
  nodup : as.Nodup
  isSome_iff : ∀ a, (h.block a).isSome ↔ a ∈ as

/-- There are no blocks to begin with. -/
theorem live_empty : Live (empty : Heap β) [] := ⟨List.nodup_nil, by simp [empty]⟩

/-- What code allocates is there in the end, beside what was there before. -/
theorem Live.adds (hlive : Live h as) (hadds : Adds h h' bs) : Live h' (bs ++ as) where
  nodup := by
    rw [List.nodup_append]
    refine ⟨hadds.nodup, hlive.nodup, fun b hb a ha heq => ?_⟩
    -- an old block lies below the next address, a new one at or past it
    have hlt := Heap.lt_next ((hlive.isSome_iff a).mpr ha)
    have hle := hadds.before b hb
    omega
  isSome_iff a := by
    rw [List.mem_append]
    by_cases ha : a ∈ bs
    · simp [ha, hadds.after a ha]
    · rw [hadds.kept a ha, hlive.isSome_iff]
      simp [ha]

/-- The order in which the blocks are listed does not matter. -/
theorem Live.perm (hlive : Live h as) (hperm : as.Perm bs) : Live h bs :=
  ⟨hperm.nodup_iff.mp hlive.nodup, fun a => (hlive.isSome_iff a).trans hperm.mem_iff⟩

/-- Freeing one of the blocks. -/
theorem Live.free (hlive : Live h (a :: as)) :
    ∃ h', h.free a = some h' ∧ Live h' as ∧ ∀ a' ≠ a, h'.block a' = h.block a' := by
  obtain ⟨h', hfree⟩ := exists_free ((hlive.isSome_iff a).mpr List.mem_cons_self)
  obtain ⟨-, hblock, -⟩ := free_eq_some_iff.mp hfree
  obtain ⟨hnot, hnodup⟩ := List.nodup_cons.mp hlive.nodup
  refine ⟨h', hfree, ⟨hnodup, fun a' => ?_⟩, fun a' ha' => ?_⟩
  · rw [hblock]
    -- only the freed address changes
    by_cases heq : a' = a
    · simp [heq, hnot]
    · rw [Function.update_of_ne heq, hlive.isSome_iff]
      simp [heq]
  · rw [hblock, Function.update_of_ne ha']

/-- Freeing some of the blocks leaves the others, as they were. -/
theorem Live.freeAll (hlive : Live h (as ++ bs)) : ∃ h', h.freeAll as = some h' ∧ Live h' bs ∧
    ∀ a ∉ as, h'.block a = h.block a := by
  induction as generalizing h with
  | nil => exact ⟨h, rfl, hlive, fun _ _ => rfl⟩
  | cons a as ih =>
    -- the first block goes, then the rest of the list
    obtain ⟨h₁, hfree, hlive₁, hkept⟩ := hlive.free
    obtain ⟨h₂, hall, hlive₂, hkept₂⟩ := ih hlive₁
    refine ⟨h₂, ?_, hlive₂, fun a' ha' => ?_⟩
    · rw [Heap.freeAll, List.foldlM_cons, hfree]
      exact hall
    · rw [List.mem_cons, not_or] at ha'
      rw [hkept₂ a' ha'.2, hkept a' ha'.1]

end Heap
