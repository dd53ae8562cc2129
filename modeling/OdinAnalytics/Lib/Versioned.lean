import Mathlib.Data.List.Induction
import Mathlib.Logic.Function.Basic

/-!
# Versioned stores

A store keeps the last value that was written under each key, with a version that
starts at zero and goes up by one at every further write, modulo `m`. What a store
holds is a function of the log of its writes.

## Key results

- `ofLog_apply`: an entry is the last value under its key and counts the writes to it
- `nextVersion_ofLog`: the version that the next write gets
-/

namespace Versioned

variable {K V : Type} [DecidableEq K] {m : ℕ}

/-- For each key, the last value and its version. -/
abbrev Store (K V : Type) := K → Option (V × ℕ)

/-- The version of a write over an entry. -/
def nextVersion (m : ℕ) : Option (V × ℕ) → ℕ
  | none => 0
  | some (_, version) => (version + 1) % m

/-- Write a value under a key. -/
def write (m : ℕ) (s : Store K V) (k : K) (v : V) : Store K V :=
  Function.update s k (some (v, nextVersion m (s k)))

/-- The store after a log of writes. -/
def ofLog (m : ℕ) (log : List (K × V)) : Store K V :=
  log.foldl (fun s w => write m s w.1 w.2) fun _ => none

/-- The values written under a key, in order. -/
def valuesOf (k : K) (log : List (K × V)) : List V :=
  (log.filter fun w => w.1 = k).map Prod.snd

/-- A write is found under its key, with the next version. -/
theorem write_self (s : Store K V) (k : K) (v : V) :
    write m s k v k = some (v, nextVersion m (s k)) := Function.update_self _ _ _

/-- A write leaves the other keys as they were. -/
theorem write_of_ne (s : Store K V) {k k' : K} (h : k' ≠ k) (v : V) : write m s k v k' = s k' :=
  Function.update_of_ne h _ _

/-- One write more at the end of the log. -/
theorem ofLog_concat (log : List (K × V)) (k : K) (v : V) :
    ofLog m (log ++ [(k, v)]) = write m (ofLog m log) k v := by
  simp [ofLog]

/-- The values under a key in two parts of a log. -/
theorem valuesOf_append (k : K) (log log' : List (K × V)) :
    valuesOf k (log ++ log') = valuesOf k log ++ valuesOf k log' := by
  simp [valuesOf]

/-- The values under a key in a log of one write. -/
theorem valuesOf_singleton (k k' : K) (v : V) :
    valuesOf k [(k', v)] = if k' = k then [v] else [] := by
  by_cases h : k' = k
  · simp [valuesOf, h]
  · simp [valuesOf, h]

/-- The version after the one of the last of some writes. -/
theorem nextVersion_getLast? (vs : List V) :
    nextVersion m (vs.getLast?.map fun v => (v, (vs.length - 1) % m)) = vs.length % m := by
  cases hlast : vs.getLast? with
  | none =>
    rw [List.getLast?_eq_none_iff] at hlast
    simp [hlast, nextVersion]
  | some last =>
    have hpos : 0 < vs.length := List.length_pos_of_mem (List.mem_of_getLast? hlast)
    rw [Option.map_some, nextVersion, Nat.mod_add_mod, Nat.sub_add_cancel hpos]

/-- An entry is the last value written under its key; its version is the number of the
    writes before it, modulo `m`. -/
theorem ofLog_apply (log : List (K × V)) (k : K) :
    ofLog m log k = (valuesOf k log).getLast?.map fun v =>
      (v, ((valuesOf k log).length - 1) % m) := by
  induction log using List.reverseRecOn with
  | nil => rfl
  | append_singleton log w ih =>
    obtain ⟨k', v⟩ := w
    rw [ofLog_concat, valuesOf_append, valuesOf_singleton]
    -- only a write under the same key counts
    by_cases hk : k' = k
    · subst hk
      rw [write_self, ih, nextVersion_getLast?, if_pos rfl]
      simp
    · rw [write_of_ne _ (Ne.symm hk), ih, if_neg hk, List.append_nil]

/-- The version of a write counts the writes before it, modulo `m`. -/
theorem nextVersion_ofLog (log : List (K × V)) (k : K) :
    nextVersion m (ofLog m log k) = (valuesOf k log).length % m := by
  rw [ofLog_apply, nextVersion_getLast?]

end Versioned
