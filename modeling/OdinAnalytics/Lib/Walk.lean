import Mathlib.Data.Int.ConditionallyCompleteOrder
import Mathlib.Data.Nat.Count
import Mathlib.Data.Int.Interval
import Mathlib.Tactic.Linarith

/-!
# Counting along the integers

A walk leaves a day, in either direction, and stops on the `m`-th day that
satisfies a predicate. The walk itself counts its steps (`Nat.count` over the
steps); what it computes is stated on intervals: the stop satisfies the
predicate and the interval from the start to the stop holds exactly `m` such days.

## Key results

- `exists_stop`: a predicate that holds again and again is met any number of times
- `card_Ioc_eq_count`, `card_Ico_eq_count`: the steps of a walk as an interval
- `card_Ioc_add`, `card_Ico_add`: intervals that meet
- `stop_after_mono`, `stop_before_mono`: a later start stops no earlier
- `stop_after_imp`, `stop_before_imp`: where fewer days count, the stop is further off
-/

namespace Walk

/-! ## Steps -/

section Steps

variable (q : ℕ → Prop) [DecidablePred q]

/-- A predicate that holds beyond every step is counted without bound. -/
theorem exists_le_count (h : ∀ N, ∃ k, N ≤ k ∧ q k) (m : ℕ) : ∃ K, m ≤ Nat.count q K := by
  induction m with
  | zero => exact ⟨0, Nat.zero_le _⟩
  | succ m ih =>
    -- after the first `m` there is one more
    obtain ⟨K, hK⟩ := ih
    obtain ⟨k, hk, hq⟩ := h K
    have hmono := Nat.count_monotone q hk
    have hsucc := Nat.count_succ_eq_succ_count_iff.mpr hq
    exact ⟨k + 1, by omega⟩

/-- The walk stops after `k` steps: that is when it has met `m` of the steps sought. -/
structure Stop (m k : ℕ) : Prop where
  count_eq : Nat.count q k = m
  count_lt : ∀ i < k, Nat.count q i < m

/-- A walk that meets enough of the steps sought has stopped by then. -/
theorem exists_stop_le {m K : ℕ} (h : m ≤ Nat.count q K) : ∃ k ≤ K, Stop q m k := by
  have hex : ∃ K, m ≤ Nat.count q K := ⟨K, h⟩
  have hlt : ∀ i < Nat.find hex, Nat.count q i < m := fun i hi => not_le.mp (Nat.find_min hex hi)
  refine ⟨Nat.find hex, Nat.find_min' hex h, le_antisymm ?_ (Nat.find_spec hex), hlt⟩
  -- One step counts at most one
  cases hk : Nat.find hex with
  | zero => simp
  | succ k =>
    have := hlt k (by omega)
    rw [Nat.count_succ]
    split <;> omega

/-- A walk stops if there is always a further step that counts. -/
theorem exists_stop (h : ∀ N, ∃ k, N ≤ k ∧ q k) (m : ℕ) : ∃ k, Stop q m k := by
  obtain ⟨K, hK⟩ := exists_le_count q h m
  obtain ⟨k, -, hk⟩ := exists_stop_le q hK
  exact ⟨k, hk⟩

variable {q} {m k : ℕ}

/-- A walk stops on a step that counts. -/
theorem Stop.last (h : Stop q m (k + 1)) : q k := by
  -- the count changes with the last step
  have hlt := h.count_lt k (lt_add_one k)
  rw [← h.count_eq, Nat.count_succ] at hlt
  by_contra hq
  simp [hq] at hlt

/-- A walk stops where the count is reached by its last step. -/
theorem Stop.of_last (hcount : Nat.count q (k + 1) = m) (hq : q k) : Stop q m (k + 1) := by
  refine ⟨hcount, fun i hi => ?_⟩
  have hle := Nat.count_monotone q (Nat.le_of_lt_succ hi)
  have hsucc := Nat.count_succ_eq_succ_count_iff.mpr hq
  omega

/-- A walk that counts anything takes a step. -/
theorem Stop.pos (h : Stop q m k) (hm : 0 < m) : 0 < k := by
  rcases Nat.eq_zero_or_pos k with rfl | hk
  · have := h.count_eq
    rw [Nat.count_zero] at this
    omega
  · exact hk

/-- A walk that counts nothing stays where it is. -/
theorem stop_zero_iff : Stop q 0 k ↔ k = 0 := by
  constructor
  · intro h
    by_contra hk
    exact absurd (h.count_lt 0 (by omega)) (by simp)
  · intro hk
    subst hk
    exact ⟨Nat.count_zero q, by simp⟩

/-- The walk to the first step sought. -/
theorem stop_one_iff : Stop q 1 (k + 1) ↔ q k ∧ ∀ i < k, ¬ q i := by
  constructor
  · intro h
    refine ⟨h.last, fun i hi hq => ?_⟩
    -- an earlier step sought would already be the first one
    have hlt := h.count_lt (i + 1) (by omega)
    have hsucc := Nat.count_succ_eq_succ_count_iff.mpr hq
    omega
  · intro ⟨hq, hnot⟩
    have hzero : ∀ i ≤ k, Nat.count q i = 0 := by
      intro i hi
      rw [Nat.count_iff_forall_not]
      exact fun j hj => hnot j (by omega)
    constructor
    · rw [Nat.count_succ, hzero k le_rfl, if_pos hq]
    · intro i hi
      rw [hzero i (by omega)]
      exact Nat.zero_lt_one

end Steps

/-! ## Intervals -/

section Intervals

variable (p : ℤ → Prop) [DecidablePred p]

/-- One element more counts if it satisfies `p`. -/
theorem card_filter_insert {s : Finset ℤ} {x : ℤ} (hx : x ∉ s) :
    ((insert x s).filter p).card = (s.filter p).card + if p x then 1 else 0 := by
  rw [Finset.filter_insert]
  split
  · rw [Finset.card_insert_of_notMem]
    simp [hx]
  · rfl

/-- The days counted on the way up from `a`. -/
theorem card_Ioc_eq_count (a : ℤ) (n : ℕ) : ((Finset.Ioc a (a + n)).filter p).card =
    Nat.count (fun k => p (a + (k + 1))) n := by
  induction n with
  | zero => simp
  | succ n ih =>
    -- the last step adds the day at the upper end
    have hins : Finset.Ioc a (a + (n + 1 : ℕ)) = insert (a + (n + 1)) (Finset.Ioc a (a + n)) := by
      ext x
      simp only [Finset.mem_insert, Finset.mem_Ioc]
      omega
    have hnot : a + ((n : ℤ) + 1) ∉ Finset.Ioc a (a + n) := by
      rw [Finset.mem_Ioc]
      omega
    rw [hins, card_filter_insert p hnot, Nat.count_succ, ih]

/-- The days counted on the way down from `a`. -/
theorem card_Ico_eq_count (a : ℤ) (n : ℕ) : ((Finset.Ico (a - n) a).filter p).card =
    Nat.count (fun k => p (a - (k + 1))) n := by
  induction n with
  | zero => simp
  | succ n ih =>
    -- the last step adds the day at the lower end
    have hins : Finset.Ico (a - (n + 1 : ℕ)) a = insert (a - (n + 1)) (Finset.Ico (a - n) a) := by
      ext x
      simp only [Finset.mem_insert, Finset.mem_Ico]
      omega
    have hnot : a - ((n : ℤ) + 1) ∉ Finset.Ico (a - n) a := by
      rw [Finset.mem_Ico]
      omega
    rw [hins, card_filter_insert p hnot, Nat.count_succ, ih]

/-- Two intervals that meet are counted one after the other. -/
theorem card_Ioc_add {a b c : ℤ} (hab : a ≤ b) (hbc : b ≤ c) : ((Finset.Ioc a b).filter p).card +
    ((Finset.Ioc b c).filter p).card = ((Finset.Ioc a c).filter p).card := by
  rw [← Finset.card_union_of_disjoint, ← Finset.filter_union, Finset.Ioc_union_Ioc_eq_Ioc hab hbc]
  exact Finset.disjoint_filter_filter (Finset.Ioc_disjoint_Ioc_of_le le_rfl)

/-- Two intervals that meet are counted one after the other. -/
theorem card_Ico_add {a b c : ℤ} (hab : a ≤ b) (hbc : b ≤ c) : ((Finset.Ico a b).filter p).card +
    ((Finset.Ico b c).filter p).card = ((Finset.Ico a c).filter p).card := by
  rw [← Finset.card_union_of_disjoint, ← Finset.filter_union, Finset.Ico_union_Ico_eq_Ico hab hbc]
  exact Finset.disjoint_filter_filter (Finset.Ico_disjoint_Ico_consecutive a b c)

variable {p} in
/-- Between two days that count, either end may be left out. -/
theorem card_Ioc_eq_card_Ico {a b : ℤ} (hab : a ≤ b) (ha : p a) (hb : p b) :
    ((Finset.Ioc a b).filter p).card = ((Finset.Ico a b).filter p).card := by
  have hleft := card_filter_insert p (Finset.left_notMem_Ioc (a := a) (b := b))
  have hright := card_filter_insert p (Finset.right_notMem_Ico (a := a) (b := b))
  rw [Finset.Ioc_insert_left hab, if_pos ha] at hleft
  rw [Finset.Ico_insert_right hab, if_pos hb] at hright
  omega

variable {p}

/-- Going up from a later day to the same count stops no earlier. -/
theorem stop_after_mono {a a' r r' : ℤ} (h : a ≤ a') (hr : a < r) (hp : p r)
    (hcard : ((Finset.Ioc a r).filter p).card = ((Finset.Ioc a' r').filter p).card) : r ≤ r' := by
  by_contra hlt
  have hsub : (Finset.Ioc a' r').filter p ⊆ (Finset.Ioc a r).filter p := by
    apply Finset.filter_subset_filter
    exact Finset.Ioc_subset_Ioc h (by omega)
  -- the interval from the later day misses `r`, so it counts fewer
  have hmem : r ∈ (Finset.Ioc a r).filter p := by simp [hr, hp]
  have hnot : r ∉ (Finset.Ioc a' r').filter p := by
    simp only [Finset.mem_filter, Finset.mem_Ioc]
    omega
  have hcount := Finset.card_lt_card ((Finset.ssubset_iff_of_subset hsub).mpr ⟨r, hmem, hnot⟩)
  omega

/-- Going down from a later day to the same count stops no earlier. -/
theorem stop_before_mono {a a' r r' : ℤ} (h : a ≤ a') (hr' : r' < a') (hp : p r')
    (hcard : ((Finset.Ico r a).filter p).card = ((Finset.Ico r' a').filter p).card) : r ≤ r' := by
  by_contra hlt
  have hsub : (Finset.Ico r a).filter p ⊆ (Finset.Ico r' a').filter p := by
    apply Finset.filter_subset_filter
    exact Finset.Ico_subset_Ico (by omega) h
  -- the interval from the earlier day misses `r'`, so it counts fewer
  have hmem : r' ∈ (Finset.Ico r' a').filter p := by simp [hr', hp]
  have hnot : r' ∉ (Finset.Ico r a).filter p := by
    simp only [Finset.mem_filter, Finset.mem_Ico]
    omega
  have hcount := Finset.card_lt_card ((Finset.ssubset_iff_of_subset hsub).mpr ⟨r', hmem, hnot⟩)
  omega

/-- Going up to the same count of fewer days stops no earlier. -/
theorem stop_after_imp {q : ℤ → Prop} [DecidablePred q] {a r r' : ℤ} (hqp : ∀ x, q x → p x)
    (hr : a < r) (hp : p r)
    (hcard : ((Finset.Ioc a r).filter p).card = ((Finset.Ioc a r').filter q).card) : r ≤ r' := by
  -- otherwise the days up to `r'` would hold fewer `p` than the count asks for
  by_contra hlt
  have hle : ((Finset.Ioc a r').filter q).card ≤ ((Finset.Ioc a r').filter p).card := by
    apply Finset.card_le_card
    exact Finset.monotone_filter_right _ fun x _ => hqp x
  -- `r` itself is the one counted last
  have hadd := card_filter_insert p (Finset.right_notMem_Ioo (a := a) (b := r))
  have hins : insert r (Finset.Ioo a r) = Finset.Ioc a r := Finset.Ioo_insert_right hr
  have hsub : ((Finset.Ioc a r').filter p).card ≤ ((Finset.Ioo a r).filter p).card := by
    apply Finset.card_le_card
    apply Finset.filter_subset_filter
    exact Finset.Ioc_subset_Ioo_right (by omega)
  rw [hins, if_pos hp] at hadd
  omega

/-- Going down to the same count of fewer days stops no later. -/
theorem stop_before_imp {q : ℤ → Prop} [DecidablePred q] {a r r' : ℤ} (hqp : ∀ x, q x → p x)
    (hr : r < a) (hp : p r)
    (hcard : ((Finset.Ico r a).filter p).card = ((Finset.Ico r' a).filter q).card) : r' ≤ r := by
  -- otherwise the days down to `r'` would hold fewer `p` than the count asks for
  by_contra hlt
  have hle : ((Finset.Ico r' a).filter q).card ≤ ((Finset.Ico r' a).filter p).card := by
    apply Finset.card_le_card
    exact Finset.monotone_filter_right _ fun x _ => hqp x
  -- `r` itself is the one counted last
  have hadd := card_filter_insert p (Finset.left_notMem_Ioo (a := r) (b := a))
  have hins : insert r (Finset.Ioo r a) = Finset.Ico r a := Finset.Ioo_insert_left hr
  have hsub : ((Finset.Ico r' a).filter p).card ≤ ((Finset.Ioo r a).filter p).card := by
    apply Finset.card_le_card
    apply Finset.filter_subset_filter
    exact Finset.Ico_subset_Ioo_left (by omega)
  rw [hins, if_pos hp] at hadd
  omega

end Intervals

end Walk
