import OdinAnalytics.Machine.Exec
import Mathlib.Data.List.Lex
import Mathlib.Data.Nat.Basic
import Mathlib.Order.Defs.LinearOrder

/-!
# Byte strings

A `std::string` is the list of its bytes. `bytes` writes down the ones of an
ASCII literal and `text` turns bytes into the text of an error message.
-/

namespace Machine

/-- The contents of a `std::string` or a `std::string_view`. -/
abbrev Bytes := List UInt8

/-- The bytes of an ASCII string literal. -/
def bytes (literal : String) : Bytes := literal.toList.map fun c => UInt8.ofNat c.toNat

/-- The bytes of a `std::string` as the characters of a message. -/
def text (s : Bytes) : String := String.ofList (s.map fun c => Char.ofNat c.toNat)

/-- `throw std::runtime_error{what}`. -/
def throwRuntime {α : Type} (what : String) : Exec α := .error (.throws (.runtimeError what))

/-- `throw std::invalid_argument{what}`. -/
def throwInvalid {α : Type} (what : String) : Exec α := .error (.throws (.invalidArgument what))

/-- `if (c) throw std::runtime_error{what};`. -/
def throwIf (c : Prop) [Decidable c] (what : String) : Exec Unit :=
  if c then throwRuntime what else .ok ()

/-- A terminated string is read up to its terminator. -/
theorem takeWhile_ne {α : Type} [DecidableEq α] {a : α} {s : List α} (h : a ∉ s) (rest : List α) :
    (s ++ a :: rest).takeWhile (· ≠ a) = s := by
  rw [List.takeWhile_append_of_pos]
  · simp
  · intro c hc
    rw [decide_eq_true_iff]
    rintro rfl
    exact h hc

/-- The last occurrence of a separator splits a list in one way. -/
theorem append_cons_inj {α : Type} {a : α} {l l' r r' : List α} (h : a ∉ r) (h' : a ∉ r')
    (heq : l ++ a :: r = l' ++ a :: r') : l = l' ∧ r = r' := by
  rw [List.append_eq_append_iff] at heq
  rcases heq with ⟨m, rfl, hm⟩ | ⟨m, rfl, hm⟩
  all_goals
    rw [List.cons_eq_append_iff] at hm
    rcases hm with ⟨rfl, hm⟩ | ⟨m, rfl, rfl⟩
    · rw [List.cons.injEq] at hm
      simp [hm.2]
    · simp at *

/-- The order of `std::string`: the bytes compare unsigned, from the left. -/
def BytesLe (a b : Bytes) : Prop := a.map UInt8.toNat ≤ b.map UInt8.toNat

instance : DecidableRel BytesLe := fun a b => by unfold BytesLe; infer_instance

instance : IsTrans Bytes BytesLe := ⟨fun _ _ _ hab hbc => le_trans hab hbc⟩

instance : Std.Total BytesLe := ⟨fun _ _ => le_total _ _⟩

instance : Std.Antisymm BytesLe where
  antisymm a b hab hba := by
    have hinj : Function.Injective (List.map UInt8.toNat) :=
      List.map_injective_iff.mpr fun x y h => UInt8.toNat_inj.mp h
    exact hinj (le_antisymm hab hba)

end Machine
