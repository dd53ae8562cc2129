import Mathlib.Algebra.Group.Nat.Defs
import Mathlib.Algebra.Group.Pi.Basic
import Mathlib.Data.List.Perm.Basic

/-!
# Slots that may hold something

A list of slots, each of which holds a value or nothing. `held` tells how many of them
hold a value. A slot whose content is moved to another one is left empty.

## Key results

- `held_set`: overwriting a slot
- `moveSlot_perm`: moving the content of a slot, which may be the slot itself
-/

namespace Slots

open List (Perm)

variable {α : Type} {xs ys : List (Option α)} {i j : Nat}

/-- What a slot holds, nothing when there is no such slot. -/
def slot (xs : List (Option α)) (i : Nat) : Option α := xs.getD i none

/-- Slot `i` takes over what slot `j` holds. -/
def moveSlot (xs : List (Option α)) (i j : Nat) : List (Option α) :=
  (xs.set i (slot xs j)).set j none

/-- The slot of an index in range. -/
theorem slot_eq_getElem (hi : i < xs.length) : slot xs i = xs[i] := by
  unfold slot
  rw [List.getD_eq_getElem?_getD, List.getElem?_eq_getElem hi, Option.getD_some]

/-- One slot and the others are all of them. -/
theorem slot_cons_eraseIdx_perm (hi : i < xs.length) :
    Perm (slot xs i :: xs.eraseIdx i) xs := by
  rw [slot_eq_getElem hi]
  exact List.getElem_cons_eraseIdx_perm hi

/-- Afterwards slot `i` has lost what it held, and slot `j` has what slot `i` holds then:
    nothing, as it is moved on. -/
theorem moveSlot_perm (hi : i < xs.length) (hj : j < xs.length) :
    Perm (moveSlot xs i j) (none :: xs.eraseIdx i) := by
  -- slot `i` takes the content of slot `j`
  have hset : Perm (xs.set i (slot xs j)) (slot xs j :: xs.eraseIdx i) :=
    List.set_perm_cons_eraseIdx hi _
  have hlen : j < (xs.set i (slot xs j)).length := by
    rw [List.length_set]
    exact hj
  have hslot : (xs.set i (slot xs j))[j] = slot xs j := by
    rw [List.getElem_set]
    split
    · rfl
    · exact (slot_eq_getElem hj).symm
  -- and slot `j` is emptied
  have herase := List.getElem_cons_eraseIdx_perm hlen
  rw [hslot] at herase
  have hrest : Perm ((xs.set i (slot xs j)).eraseIdx j) (xs.eraseIdx i) :=
    (herase.trans hset).cons_inv
  exact (List.set_perm_cons_eraseIdx hlen none).trans (hrest.cons none)

variable [DecidableEq α]

/-- The number of slots that hold a value. -/
def held (xs : List (Option α)) (x : α) : Nat := xs.count (some x)

/-- Nothing is held by an empty slot. -/
@[simp] theorem held_none_add (n : α → Nat) : held [none] + n = n := by
  funext x
  simp [held]

@[simp] theorem add_held_none (n : α → Nat) : n + held [none] = n := by
  funext x
  simp [held]

/-- What two parts hold together. -/
@[simp] theorem held_append : held (xs ++ ys) = held xs + held ys := by
  funext x
  simp [held, List.count_append]

/-- What the first slot and the others hold together. -/
theorem held_cons (v : Option α) : held (v :: xs) = held [v] + held xs := by
  rw [← List.singleton_append, held_append]

/-- The order of the slots does not matter. -/
theorem held_perm (h : Perm xs ys) : held xs = held ys := by
  funext x
  exact h.count_eq _

/-- A slot holds its object once. -/
@[simp] theorem held_some_self (x : α) : held [some x] x = 1 := by
  simp [held]

/-- A slot holds no object but its own. -/
theorem held_some_of_ne {x y : α} (h : y ≠ x) : held [some x] y = 0 := by
  simp [held, h.symm]

/-- Numbers of values, with one more of a value. -/
theorem update_add_one (n : α → Nat) (x : α) :
    Function.update n x (n x + 1) = n + held [some x] := by
  funext y
  rcases eq_or_ne y x with rfl | hne
  · simp
  · simp [hne, held_some_of_ne hne]

/-- Numbers of values, with one less of a value. -/
theorem update_sub_one {n : α → Nat} {x : α} (hx : 0 < n x) :
    n = Function.update n x (n x - 1) + held [some x] := by
  funext y
  rcases eq_or_ne y x with rfl | hne
  · simp
    omega
  · simp [hne, held_some_of_ne hne]

/-- An object is held exactly if it is in some slot. -/
theorem held_pos_iff {x : α} : 0 < held xs x ↔ some x ∈ xs :=
  List.count_pos_iff

/-- A slot holds what the others do not. -/
theorem held_eraseIdx (hi : i < xs.length) :
    held xs = held [slot xs i] + held (xs.eraseIdx i) := by
  rw [← held_cons]
  exact (held_perm (slot_cons_eraseIdx_perm hi)).symm

/-- What is held after one slot was assigned. -/
theorem held_set (hi : i < xs.length) (v : Option α) :
    held (xs.set i v) = held [v] + held (xs.eraseIdx i) := by
  rw [← held_cons]
  exact held_perm (List.set_perm_cons_eraseIdx hi v)

/-- What is held after one slot was moved into another. -/
theorem held_moveSlot (hi : i < xs.length) (hj : j < xs.length) :
    held (moveSlot xs i j) = held (xs.eraseIdx i) := by
  rw [held_perm (moveSlot_perm hi hj), held_cons, held_none_add]

end Slots
