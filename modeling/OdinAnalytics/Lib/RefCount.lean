import Mathlib.Logic.Function.Basic
import OdinAnalytics.Lib.Slots

/-!
# Reference counts

Objects with a count of the references to them, which frees an object when it reaches
zero. `Accounts` says that the counts are right for the references that there are, given
as a number of them for each object.

## Key results

- `Accounts.xincref`: one more reference, to an object that is not freed
- `Accounts.xdecref`: one reference less
- `Accounts.mem_freed_decref`: what is freed by that
-/

open Slots

/-- The counts of objects, and those that were freed. -/
structure RefHeap (α : Type) where
  count : α → Int
  freed : List α

namespace RefHeap

variable {α : Type} [DecidableEq α] {h : RefHeap α} {refs : α → Nat} {x y : α}
  {obj : Option α}

/-- A reference to an object is added. -/
def incref (h : RefHeap α) (x : α) : RefHeap α :=
  { h with count := Function.update h.count x (h.count x + 1) }

/-- A reference to an object is removed, and the object is freed with the last one. -/
def decref (h : RefHeap α) (x : α) : RefHeap α where
  count := Function.update h.count x (h.count x - 1)
  freed := if h.count x - 1 = 0 then x :: h.freed else h.freed

/-- The same for a pointer, which may be null. -/
def xincref (h : RefHeap α) : Option α → RefHeap α
  | none => h
  | some x => h.incref x

/-- `DECREF` of an object that may be missing. -/
def xdecref (h : RefHeap α) : Option α → RefHeap α
  | none => h
  | some x => h.decref x

@[simp] theorem xincref_none : h.xincref none = h := rfl

@[simp] theorem xdecref_none : h.xdecref none = h := rfl

/-- `INCREF` frees nothing. -/
@[simp] theorem xincref_freed : (h.xincref obj).freed = h.freed := by
  cases obj <;> rfl

/-- The counts are those of the references, and no reference is to a freed object. -/
structure Accounts (h : RefHeap α) (refs : α → Nat) : Prop where
  count_eq : ∀ x, h.count x = refs x
  freed_refs : ∀ x ∈ h.freed, refs x = 0

omit [DecidableEq α] in
/-- An object that is referred to has not been freed. -/
theorem Accounts.not_mem_freed (hacc : Accounts h refs) (hpos : 0 < refs x) : x ∉ h.freed :=
  fun hmem => Nat.ne_of_gt hpos (hacc.freed_refs x hmem)

/-- One reference more is accounted for. -/
theorem Accounts.xincref (hacc : Accounts h refs) (hlive : ∀ x ∈ obj, x ∉ h.freed) :
    Accounts (h.xincref obj) (refs + held [obj]) := by
  cases obj with
  | none => simpa using hacc
  | some y =>
    constructor
    · intro x
      have hcount := hacc.count_eq x
      -- only the count of `y` changes
      rcases eq_or_ne x y with rfl | hne
      · simp [RefHeap.xincref, incref, hcount]
      · simp [RefHeap.xincref, incref, held_some_of_ne hne, hne, hcount]
    · intro x hx
      -- a freed object is not referred to again
      have hne : x ≠ y := fun h => hlive y rfl (h ▸ hx)
      simpa [held_some_of_ne hne] using hacc.freed_refs x hx

/-- One reference less is accounted for. -/
theorem Accounts.xdecref (hacc : Accounts h (refs + held [obj])) :
    Accounts (h.xdecref obj) refs := by
  cases obj with
  | none => simpa using hacc
  | some y =>
    have hcount : ∀ x, h.count x = refs x + held [some y] x := hacc.count_eq
    constructor
    · intro x
      rcases eq_or_ne x y with rfl | hne
      · simp [RefHeap.xdecref, decref, hcount]
      · simp [RefHeap.xdecref, decref, held_some_of_ne hne, hne, hcount]
    · intro x hx
      have hfreed : ∀ x ∈ h.freed, refs x = 0 := fun x hx =>
        Nat.eq_zero_of_add_eq_zero_right (hacc.freed_refs x hx)
      simp only [RefHeap.xdecref, decref] at hx
      -- the object is freed exactly when the last reference goes
      split at hx
      case isTrue hlast =>
        rcases List.mem_cons.mp hx with rfl | hx
        · -- the last reference
          simpa [hcount] using hlast
        · exact hfreed x hx
      case isFalse => exact hfreed x hx

/-- An object is freed with its last reference. -/
theorem mem_freed_xdecref :
    x ∈ (h.xdecref obj).freed ↔ (obj = some x ∧ h.count x = 1) ∨ x ∈ h.freed := by
  cases obj with
  | none => simp
  | some y =>
    simp only [RefHeap.xdecref, decref]
    -- the object joins the freed ones when this was its last reference
    split
    case isTrue hlast =>
      have hone : h.count y = 1 := by omega
      rw [List.mem_cons]
      refine or_congr_left ⟨?_, ?_⟩
      · rintro rfl
        exact ⟨rfl, hone⟩
      · rintro ⟨heq, -⟩
        exact (Option.some.inj heq).symm
    case isFalse hmore =>
      refine (or_iff_right ?_).symm
      rintro ⟨heq, hone⟩
      cases heq
      omega

end RefHeap
