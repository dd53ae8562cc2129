import Mathlib.Data.Int.ConditionallyCompleteOrder
import Mathlib.Order.Monotone.Basic
import Mathlib.Tactic.Linarith

/-!
# Moving dates by a count of units

A day number is an integer. This file is about the operations that move a day
number by a signed count of some unit: a unit of fixed length in days, or a
calendar unit (a month) whose blocks have different lengths, where a day that
does not exist in the target block is clamped to the last day of that block.

`DateShift` states what all of them have in common; `Tiling` is a partition of
the days into consecutive blocks, and `Tiling.shift` moves between its blocks.

## Key results

- `Tiling.lt_iff`: the order of the days is the order of (block, offset)
- `Tiling.shift_shift_eq_iff`: when moving twice is moving by the sum
- `DateShift.days`, `DateShift.ofTiling`, `DateShift.scale`: the instances
-/

/-- An operation that moves a day by a signed count of units. Moving twice may
    fall short of moving by the sum, because the first move may clamp. -/
structure DateShift where
  shift : ℤ → ℤ → ℤ
  shift_zero : ∀ j, shift 0 j = j
  strictMono_count : ∀ j, StrictMono fun n => shift n j
  mono_date : ∀ n, Monotone (shift n)
  shift_shift_le : ∀ a b j, shift a (shift b j) ≤ shift (b + a) j

namespace DateShift

/-- A positive count leads to a later date. -/
theorem lt_shift (S : DateShift) {n : ℤ} (hn : 0 < n) (j : ℤ) : j < S.shift n j := by
  have h := S.strictMono_count j hn
  simpa only [S.shift_zero] using h

/-- A negative count leads to an earlier date. -/
theorem shift_lt (S : DateShift) {n : ℤ} (hn : n < 0) (j : ℤ) : S.shift n j < j := by
  have h := S.strictMono_count j hn
  simpa only [S.shift_zero] using h

/-- Moving by `c` days for each unit. -/
def days (c : ℤ) (hc : 0 < c) : DateShift where
  shift n j := j + c * n
  shift_zero j := by simp
  strictMono_count j := by
    intro n m h
    have := mul_lt_mul_of_pos_left h hc
    show j + c * n < j + c * m
    omega
  mono_date n := by
    intro j j' h
    show j + c * n ≤ j' + c * n
    omega
  shift_shift_le a b j := by
    have : c * (b + a) = c * b + c * a := mul_add c b a
    show j + c * b + c * a ≤ j + c * (b + a)
    omega

/-- Counting in groups of `c` units. -/
def scale (S : DateShift) (c : ℤ) (hc : 0 < c) : DateShift where
  shift n j := S.shift (c * n) j
  shift_zero j := by simp [S.shift_zero]
  strictMono_count j _ _ h := S.strictMono_count j (mul_lt_mul_of_pos_left h hc)
  mono_date n := S.mono_date (c * n)
  shift_shift_le a b j := by
    have h := S.shift_shift_le (c * a) (c * b) j
    rwa [← mul_add] at h

end DateShift

/-- A partition of the days into consecutive nonempty blocks, numbered by the
    integers, with a function that finds the block of a day. -/
structure Tiling where
  start : ℤ → ℤ
  index : ℤ → ℤ
  start_lt_succ : ∀ i, start i < start (i + 1)
  start_index_le : ∀ j, start (index j) ≤ j
  lt_start_index_succ : ∀ j, j < start (index j + 1)

namespace Tiling

variable (T : Tiling)

/-- The number of days of a block. -/
def len (i : ℤ) : ℤ := T.start (i + 1) - T.start i

/-- The position of a day in its block, from zero. -/
def offset (j : ℤ) : ℤ := j - T.start (T.index j)

/-- Move by `n` blocks, clamping to the last day of the target block. -/
def shift (n j : ℤ) : ℤ :=
  T.start (T.index j + n) + min (T.offset j) (T.len (T.index j + n) - 1)

/-- No interval is empty. -/
theorem len_pos (i : ℤ) : 0 < T.len i := by
  have := T.start_lt_succ i
  unfold len
  omega

/-- The intervals are in order. -/
theorem start_strictMono : StrictMono T.start := strictMono_int_of_lt_succ T.start_lt_succ

/-- No position comes before the start of its interval. -/
theorem offset_nonneg (j : ℤ) : 0 ≤ T.offset j := by
  have := T.start_index_le j
  unfold offset
  omega

/-- Every position is in its interval. -/
theorem offset_lt_len (j : ℤ) : T.offset j < T.len (T.index j) := by
  have := T.lt_start_index_succ j
  unfold offset len
  omega

/-- Interval and offset tell the position. -/
theorem start_add_offset (j : ℤ) : T.start (T.index j) + T.offset j = j := by
  unfold offset
  omega

/-! ## Locating a day -/

/-- A day between the start of a block and the start of the next is in that block. -/
theorem index_eq {i j : ℤ} (h : T.start i ≤ j) (h' : j < T.start (i + 1)) : T.index j = i := by
  have h₁ := T.start_index_le j
  have h₂ := T.lt_start_index_succ j
  -- the two blocks overlap, and starts are strictly increasing
  have hlt : T.index j < i + 1 := T.start_strictMono.lt_iff_lt.mp (lt_of_le_of_lt h₁ h')
  have hgt : i < T.index j + 1 := T.start_strictMono.lt_iff_lt.mp (lt_of_le_of_lt h h₂)
  omega

/-- The interval of a position that is given by interval and offset. -/
theorem index_start_add {i o : ℤ} (ho : 0 ≤ o) (ho' : o < T.len i) :
    T.index (T.start i + o) = i := by
  unfold len at ho'
  exact T.index_eq (by omega) (by omega)

/-- The offset of a position that is given by interval and offset. -/
theorem offset_start_add {i o : ℤ} (ho : 0 ≤ o) (ho' : o < T.len i) :
    T.offset (T.start i + o) = o := by
  unfold offset
  rw [T.index_start_add ho ho']
  omega

/-- A later position is in no earlier interval. -/
theorem index_mono : Monotone T.index := by
  intro j j' h
  have h₁ := T.start_index_le j
  have h₂ := T.lt_start_index_succ j'
  have : T.index j < T.index j' + 1 := T.start_strictMono.lt_iff_lt.mp (by omega)
  omega

/-- The order of the days is the lexicographic order of (block, offset). -/
theorem lt_iff {j j' : ℤ} :
    j < j' ↔ T.index j < T.index j' ∨ T.index j = T.index j' ∧ T.offset j < T.offset j' := by
  have h := T.start_add_offset j
  have h' := T.start_add_offset j'
  constructor
  · intro hlt
    -- within one block the days compare as their offsets
    rcases (T.index_mono hlt.le).lt_or_eq with hi | hi
    · exact Or.inl hi
    · rw [hi] at h
      exact Or.inr ⟨hi, by omega⟩
  · rintro (hi | ⟨hi, ho⟩)
    · -- the next block starts after the last day of this one
      have hle : T.start (T.index j + 1) ≤ T.start (T.index j') :=
        T.start_strictMono.monotone (by omega)
      have := T.lt_start_index_succ j
      have := T.start_index_le j'
      omega
    · rw [hi] at h
      omega

/-! ## Placing an offset

The second half of a move on its own, for any offset: one that is negative counts
back from the start of the block. -/

/-- The day at an offset of a block, clamped to the last day of the block. -/
def place (i o : ℤ) : ℤ := T.start i + min o (T.len i - 1)

/-- The same offset is later in a later block. -/
theorem place_strictMono (o : ℤ) : StrictMono fun i => T.place i o := by
  intro i i' h
  have hstart : T.start (i + 1) ≤ T.start i' := T.start_strictMono.monotone (by omega)
  have hlen := T.len_pos i
  have hlen' := T.len_pos i'
  show T.start i + min o (T.len i - 1) < T.start i' + min o (T.len i' - 1)
  unfold len at *
  rcases lt_or_ge o 0 with ho | ho
  · -- both days lie before their blocks
    omega
  · -- the first day lies in its block, the second not before its own
    omega

/-- What is placed in an interval does not come after it. -/
theorem index_place_le (i o : ℤ) : T.index (T.place i o) ≤ i := by
  have hlt : T.place i o < T.start (i + 1) := by
    unfold place len
    omega
  have hle := T.start_index_le (T.place i o)
  have := T.start_strictMono.lt_iff_lt.mp (hle.trans_lt hlt)
  omega

/-- A shift puts the offset into another interval. -/
theorem shift_eq_place (n j : ℤ) : T.shift n j = T.place (T.index j + n) (T.offset j) := rfl

/-! ## Moving by blocks -/

/-- A shift keeps the offset if the interval it leads to is long enough for it, and goes to the
    end of that interval otherwise. -/
theorem shift_eq (n j : ℤ) : T.shift n j =
    T.start (T.index j + n) + min (T.offset j) (T.len (T.index j + n) - 1) := rfl

/-- A shift moves by whole intervals. -/
theorem index_shift (n j : ℤ) : T.index (T.shift n j) = T.index j + n := by
  have h₀ := T.offset_nonneg j
  have h₁ := T.len_pos (T.index j + n)
  exact T.index_start_add (by omega) (by omega)

/-- What a shift does to the offset. -/
theorem offset_shift (n j : ℤ) :
    T.offset (T.shift n j) = min (T.offset j) (T.len (T.index j + n) - 1) := by
  have h₀ := T.offset_nonneg j
  have h₁ := T.len_pos (T.index j + n)
  exact T.offset_start_add (by omega) (by omega)

/-- Nothing is moved by no intervals. -/
theorem shift_zero (j : ℤ) : T.shift 0 j = j := by
  have h := T.offset_lt_len j
  have h' := T.start_add_offset j
  rw [T.shift_eq, add_zero]
  omega

/-- More intervals lead to a later position. -/
theorem shift_strictMono_count (j : ℤ) : StrictMono fun n => T.shift n j := by
  intro n m h
  -- a higher count reaches a later block, whatever is clamped there
  exact T.place_strictMono (T.offset j) (by omega)

/-- A later position is not shifted to an earlier one. -/
theorem shift_mono_date (n : ℤ) : Monotone (T.shift n) := by
  intro j j' h
  rcases h.lt_or_eq with hlt | rfl
  · rcases T.lt_iff.mp hlt with hi | ⟨hi, ho⟩
    · -- a later block stays a later block
      apply le_of_lt
      apply T.lt_iff.mpr
      rw [T.index_shift, T.index_shift]
      exact Or.inl (by omega)
    · -- within a block, clamping keeps the order of the offsets
      rw [T.shift_eq, T.shift_eq, hi]
      omega
  · exact le_rfl

/-- Two shifts in a row: the offset is cut twice. -/
theorem shift_shift (a b j : ℤ) : T.shift a (T.shift b j) =
    T.start (T.index j + (b + a)) +
      min (min (T.offset j) (T.len (T.index j + b) - 1)) (T.len (T.index j + (b + a)) - 1) := by
  rw [T.shift_eq a, T.index_shift, T.offset_shift, add_assoc]

/-- Two shifts in a row lead no further than one shift by the sum. -/
theorem shift_shift_le (a b j : ℤ) : T.shift a (T.shift b j) ≤ T.shift (b + a) j := by
  -- both days are in the same block, one of them clamped twice
  rw [T.shift_shift, T.shift_eq]
  omega

/-- Moving twice is moving by the sum exactly when the day reached by the sum
    fits into the block passed on the way. -/
theorem shift_shift_eq_iff (a b j : ℤ) : T.shift a (T.shift b j) = T.shift (b + a) j ↔
    min (T.offset j) (T.len (T.index j + (b + a)) - 1) < T.len (T.index j + b) := by
  rw [T.shift_shift, T.shift_eq]
  omega

/-- Moving there and back loses the days that are clamped on the way there. -/
theorem shift_neg_shift (n j : ℤ) :
    T.shift (-n) (T.shift n j) = j - (T.offset j - T.offset (T.shift n j)) := by
  have h := T.offset_lt_len j
  have h' := T.start_add_offset j
  rw [T.shift_shift, T.offset_shift, add_neg_cancel, add_zero]
  omega

/-- No clamping happens to a day that fits into every block. -/
theorem shift_shift_eq {j : ℤ} (h : ∀ i, T.offset j < T.len i) (a b : ℤ) :
    T.shift a (T.shift b j) = T.shift (b + a) j := by
  rw [T.shift_shift_eq_iff]
  have := h (T.index j + b)
  omega

end Tiling

/-- Moving by blocks of a tiling. -/
def DateShift.ofTiling (T : Tiling) : DateShift where
  shift := T.shift
  shift_zero := T.shift_zero
  strictMono_count := T.shift_strictMono_count
  mono_date := T.shift_mono_date
  shift_shift_le := T.shift_shift_le
