import OdinAnalytics.Lib.Walk
import OdinAnalytics.Native.Calendar
import Mathlib.Data.Set.Finite.Lattice
import Mathlib.Tactic.Ring

/-!
# Business days

The three loops of `Calendar` against their meaning: the day that is the given
number of business days away from a base date. A business day is a day whose
weekday is not a weekend and that is not a holiday; the loops are only defined
on day numbers from zero on, where the weekday of the source is the calendar's.

## Key results

- `exists_isStop`: the day exists as soon as some weekday is not a weekend
- `addBusinessDays_ends`: the loop reaches it, or overflows on the way
- `IsStop.mono`: a later base date leads to no earlier day
-/

namespace OA.Time

open Machine

namespace Calendar

variable (cal : Calendar)

/-! ## Business days of a calendar -/

/-- The weekday of a day number, Monday being zero. -/
def weekday (j : Int) : Fin 7 := ⟨(j % 7).toNat, by omega⟩

/-- A day that is neither on a weekend nor a holiday. -/
def Business (j : Int) : Prop := weekday j ∉ cal.weekends ∧ j ∉ cal.holidays

instance : DecidablePred cal.Business := fun j => by unfold Business; infer_instance

/-- Some weekday is not a weekend. -/
def HasBusinessWeekday : Prop := ∃ w, w ∉ cal.weekends

instance : Decidable cal.HasBusinessWeekday := by unfold HasBusinessWeekday; infer_instance

/-- The day `n` business days after `base`, or `|n|` before it: a business day,
    with exactly that many business days from `base` to it. -/
structure IsStop (n base r : Int) : Prop where
  zero : n = 0 → r = base
  after : 0 < n → cal.Business r ∧ ((Finset.Ioc base r).filter cal.Business).card = n
  before : n < 0 → cal.Business r ∧ ((Finset.Ico r base).filter cal.Business).card = -n

/-- The weekday number of the day is an index of the weekend bits. -/
def Indexed (j : Int) : Prop := 0 ≤ j ∨ 7 ∣ j

instance : DecidablePred Indexed := fun j => by unfold Indexed; infer_instance

/-- A day has an index exactly if the weekday of the source is one. -/
theorem indexed_iff {j : Int} : Indexed j ↔ 0 ≤ getDOWInt j ∧ getDOWInt j < 7 := by
  unfold Indexed getDOWInt
  have := tdiv_tmod_cases j 7
  omega

/-- Where there is an index, the holidays are the days that are no business days. -/
theorem isHoliday_of_indexed {j : Int} (h : Indexed j) :
    cal.isHoliday j = .ok (decide (¬ cal.Business j)) := by
  have hdow : getDOWInt j = j % 7 := by
    unfold getDOWInt
    have := tdiv_tmod_cases j 7
    unfold Indexed at h
    omega
  -- the index is in range, and the bit it selects is that of the weekday
  unfold isHoliday
  rw [dif_pos (indexed_iff.mp h)]
  have hw : (⟨(getDOWInt j).toNat, by omega⟩ : Fin 7) = weekday j := by simp only [hdow, weekday]
  rw [hw]
  unfold Business
  by_cases hwe : weekday j ∈ cal.weekends
  · simp [hwe]
  · by_cases hho : j ∈ cal.holidays
    · simp [hwe, hho]
    · simp [hwe, hho]

/-- Without an index, the array of weekdays is read out of range. -/
theorem isHoliday_of_not_indexed {j : Int} (h : ¬ Indexed j) :
    cal.isHoliday j = .error (.undefined .indexOutOfRange) := by
  unfold isHoliday
  rw [dif_neg (indexed_iff.not.mp h)]

/-- From day number zero on there is an index. -/
theorem isHoliday_eq {j : Int} (h : 0 ≤ j) : cal.isHoliday j = .ok (decide (¬ cal.Business j)) :=
  cal.isHoliday_of_indexed (Or.inl h)

/-- Where there is an index, the business days are told. -/
theorem isBusinessDay_of_indexed {j : Int} (h : Indexed j) :
    cal.isBusinessDay j = .ok (decide (cal.Business j)) := by
  unfold isBusinessDay
  rw [cal.isHoliday_of_indexed h, ok_bind]
  simp [pure, Except.pure]

/-- Without an index, asking for a business day reads the same array out of range. -/
theorem isBusinessDay_of_not_indexed {j : Int} (h : ¬ Indexed j) :
    cal.isBusinessDay j = .error (.undefined .indexOutOfRange) := by
  unfold isBusinessDay
  rw [cal.isHoliday_of_not_indexed h, error_bind]

variable {cal}

/-- Weeks do not change the weekday. -/
theorem weekday_add_mul (w : Fin 7) (t : Int) : weekday (7 * t + w) = w := by
  unfold weekday
  ext
  have := w.isLt
  simp only
  omega

/-- There are business days as late as one likes. -/
theorem exists_business_ge (h : cal.HasBusinessWeekday) (N : Int) :
    ∃ j, N ≤ j ∧ cal.Business j := by
  obtain ⟨w, hw⟩ := h
  -- the weekday `w` of a week after all holidays
  obtain ⟨M, hM⟩ := cal.holidays.bddAbove
  refine ⟨7 * (max N.natAbs M.natAbs + 1) + w, ?_, ?_, ?_⟩
  · omega
  · rw [weekday_add_mul]
    exact hw
  · intro hmem
    have := hM (Finset.mem_coe.mpr hmem)
    omega

/-- There are business days as early as one likes. -/
theorem exists_business_le (h : cal.HasBusinessWeekday) (N : Int) :
    ∃ j, j ≤ N ∧ cal.Business j := by
  obtain ⟨w, hw⟩ := h
  -- the weekday `w` of a week before all holidays
  obtain ⟨M, hM⟩ := cal.holidays.bddBelow
  refine ⟨7 * (-(max N.natAbs M.natAbs + 1)) + w, ?_, ?_, ?_⟩
  · have := w.isLt
    omega
  · rw [weekday_add_mul]
    exact hw
  · intro hmem
    have := hM (Finset.mem_coe.mpr hmem)
    have := w.isLt
    omega

/-! ## Steps of the walk -/

/-- The direction `addBusinessDays` walks in. -/
def dir (n : Int) : Int := if n < 0 then -1 else 1

/-- Whether the `i`-th step from `base` lands on a business day. -/
def Lands (cal : Calendar) (n base : Int) (i : Nat) : Prop := cal.Business (base + dir n * (i + 1))

instance (n base : Int) : DecidablePred (cal.Lands n base) := fun i => by
  unfold Lands
  infer_instance

/-- A walk meets business days again and again. -/
theorem exists_lands_ge (h : cal.HasBusinessWeekday) (n base : Int) (N : Nat) :
    ∃ i, N ≤ i ∧ cal.Lands n base i := by
  unfold Lands dir
  split
  · obtain ⟨j, hj, hb⟩ := exists_business_le h (base - N - 1)
    refine ⟨(base - j - 1).toNat, by omega, ?_⟩
    rwa [show base + -1 * (((base - j - 1).toNat : Int) + 1) = j by omega]
  · obtain ⟨j, hj, hb⟩ := exists_business_ge h (base + N + 1)
    refine ⟨(j - base - 1).toNat, by omega, ?_⟩
    rwa [show base + 1 * (((j - base - 1).toNat : Int) + 1) = j by omega]

/-- The business days on the way up are the landing steps. -/
theorem card_after {n : Int} (hn : 0 ≤ n) (base : Int) (k : Nat) :
    ((Finset.Ioc base (base + k)).filter cal.Business).card = Nat.count (cal.Lands n base) k := by
  simp only [Walk.card_Ioc_eq_count, Nat.count_eq_card_filter_range, Lands, dir,
    if_neg (not_lt.mpr hn), one_mul]

/-- The business days on the way down are the landing steps. -/
theorem card_before {n : Int} (hn : n < 0) (base : Int) (k : Nat) :
    ((Finset.Ico (base - k) base).filter cal.Business).card = Nat.count (cal.Lands n base) k := by
  rw [Walk.card_Ico_eq_count]
  simp only [Nat.count_eq_card_filter_range, Lands, dir, if_pos hn, neg_one_mul, sub_eq_add_neg]

/-- A walk forward over some business days moves on. -/
theorem IsStop.lt {n base r : Int} (h : cal.IsStop n base r) (hn : 0 < n) : base < r := by
  by_contra hle
  have hcard := (h.after hn).2
  rw [Finset.Ioc_eq_empty (by omega), Finset.filter_empty, Finset.card_empty] at hcard
  omega

/-- A walk backward over some business days moves back. -/
theorem IsStop.gt {n base r : Int} (h : cal.IsStop n base r) (hn : n < 0) : r < base := by
  by_contra hle
  have hcard := (h.before hn).2
  rw [Finset.Ico_eq_empty (by omega), Finset.filter_empty, Finset.card_empty] at hcard
  omega

/-- A walk backward stops after as many steps as it takes to count its business days. -/
theorem isStop_before_iff {n base r : Int} (hn : n < 0) :
    cal.IsStop n base r ↔ ∃ k : Nat, Walk.Stop (cal.Lands n base) n.natAbs k ∧ r = base - k := by
  have hdir : dir n = -1 := if_pos hn
  constructor
  · intro h
    obtain ⟨k, hk⟩ : ∃ k : Nat, r = base - (k + 1 : Nat) := ⟨(base - r - 1).toNat, by
      have := h.gt hn
      omega⟩
    obtain ⟨hb, hcard⟩ := h.before hn
    subst hk
    rw [card_before hn] at hcard
    -- the last step lands on `r`, which is a business day
    refine ⟨k + 1, Walk.Stop.of_last (by omega) ?_, rfl⟩
    unfold Lands
    rwa [hdir, show base + -1 * ((k : Int) + 1) = base - (k + 1 : Nat) by omega]
  · intro ⟨k, hk, hr⟩
    subst hr
    obtain ⟨k, rfl⟩ := Nat.exists_eq_succ_of_ne_zero (hk.pos (by omega)).ne'
    refine ⟨by omega, by omega, fun _ => ⟨?_, ?_⟩⟩
    · have hlast := hk.last
      unfold Lands at hlast
      rwa [hdir, show base + -1 * ((k : Int) + 1) = base - (k + 1 : Nat) by omega] at hlast
    · rw [card_before hn, hk.count_eq]
      omega

/-- A walk forward stops after as many steps as it takes to count its business days. -/
theorem isStop_after_iff {n base r : Int} (hn : 0 < n) :
    cal.IsStop n base r ↔ ∃ k : Nat, Walk.Stop (cal.Lands n base) n.natAbs k ∧ r = base + k := by
  have hdir : dir n = 1 := if_neg (by omega)
  constructor
  · intro h
    -- the stop as a number of steps from the base
    obtain ⟨k, hk⟩ : ∃ k : Nat, r = base + (k + 1 : Nat) := ⟨(r - base - 1).toNat, by
      have := h.lt hn
      omega⟩
    obtain ⟨hb, hcard⟩ := h.after hn
    subst hk
    rw [card_after hn.le] at hcard
    refine ⟨k + 1, Walk.Stop.of_last (by omega) ?_, rfl⟩
    unfold Lands
    rwa [hdir, one_mul]
  · intro ⟨k, hk, hr⟩
    subst hr
    -- a count other than zero takes a step at least
    obtain ⟨k, rfl⟩ := Nat.exists_eq_succ_of_ne_zero (hk.pos (by omega)).ne'
    refine ⟨by omega, fun _ => ⟨?_, ?_⟩, by omega⟩
    · have hlast := hk.last
      unfold Lands at hlast
      rwa [hdir, one_mul] at hlast
    · rw [card_after hn.le, hk.count_eq]
      omega

/-- The walk stops on the day that is sought. -/
theorem isStop_iff {n base r : Int} :
    cal.IsStop n base r ↔ ∃ k, Walk.Stop (cal.Lands n base) n.natAbs k ∧ r = base + dir n * k := by
  rcases lt_trichotomy n 0 with hn | rfl | hn
  · rw [isStop_before_iff hn]
    simp only [dir, if_pos hn, neg_one_mul, sub_eq_add_neg]
  · -- no step is made, and none is sought
    constructor
    · intro h
      exact ⟨0, Walk.stop_zero_iff.mpr rfl, by simpa using h.zero rfl⟩
    · intro ⟨k, hk, hr⟩
      rw [Walk.stop_zero_iff.mp hk] at hr
      exact ⟨fun _ => by simpa using hr, by omega, by omega⟩
  · rw [isStop_after_iff hn]
    simp only [dir, if_neg hn.not_gt, one_mul]

/-- Every walk stops, in a calendar with a business weekday. -/
theorem exists_isStop (h : cal.HasBusinessWeekday) (n base : Int) : ∃ r, cal.IsStop n base r := by
  obtain ⟨k, hk⟩ := Walk.exists_stop (cal.Lands n base) (exists_lands_ge h n base) n.natAbs
  exact ⟨_, isStop_iff.mpr ⟨k, hk, rfl⟩⟩

/-- A later base date leads to no earlier day. -/
theorem IsStop.mono {n a a' r r' : Int} (h : cal.IsStop n a r) (h' : cal.IsStop n a' r')
    (hle : a ≤ a') : r ≤ r' := by
  rcases lt_trichotomy n 0 with hn | rfl | hn
  · obtain ⟨-, hcard⟩ := h.before hn
    obtain ⟨hb', hcard'⟩ := h'.before hn
    -- with as many days to count, the walk from the later date stops no earlier
    exact Walk.stop_before_mono hle (h'.gt hn) hb' (by omega)
  · rw [h.zero rfl, h'.zero rfl]
    exact hle
  · obtain ⟨hb, hcard⟩ := h.after hn
    obtain ⟨-, hcard'⟩ := h'.after hn
    exact Walk.stop_after_mono hle (h.lt hn) hb (by omega)

/-! ## The loops -/

/-- The loops walk from `base` to the day that is `n` business days away, and every day on
    the way is an `int` and has a weekday. -/
structure Walks (cal : Calendar) (n base r : Int) : Prop where
  stop : cal.IsStop n base r
  passes : ∀ j, base < j ∧ j ≤ r ∨ r ≤ j ∧ j < base → InInt32 j ∧ Indexed j

variable {E : Fault → Prop} {n base r : Int}

/-- A walk goes in one of two directions. -/
theorem dir_eq (n : Int) : dir n = -1 ∨ dir n = 1 := by
  unfold dir
  split <;> simp

/-- The position after one step more. -/
theorem step_eq (n base : Int) (i : Nat) :
    base + dir n * i + dir n = base + dir n * (i + 1 : Nat) := by
  push_cast
  ring

/-- The days on the way are the steps of the walk. -/
theorem forall_between_iff (P : Int → Prop) (n base : Int) (k : Nat) :
    (∀ j, base < j ∧ j ≤ base + dir n * k ∨ base + dir n * k ≤ j ∧ j < base → P j) ↔
      ∀ i < k, P (base + dir n * (i + 1 : Nat)) := by
  constructor
  · -- every step lies between
    intro h i hi
    apply h
    rcases dir_eq n with hdir | hdir
    · rw [hdir]
      omega
    · rw [hdir]
      omega
  · intro h j hj
    -- and every day between is a step
    rcases dir_eq n with hdir | hdir
    · rw [hdir] at hj h
      have := h (base - j - 1).toNat (by omega)
      rwa [show base + -1 * (((base - j - 1).toNat + 1 : Nat) : Int) = j by omega] at this
    · rw [hdir] at hj h
      have := h (j - base - 1).toNat (by omega)
      rwa [show base + 1 * (((j - base - 1).toNat + 1 : Nat) : Int) = j by omega] at this

/-- A walk that returns, step by step: it counts its business days in range. -/
theorem walks_iff : cal.Walks n base r ↔ ∃ k : Nat, Walk.Stop (cal.Lands n base) n.natAbs k ∧
    r = base + dir n * k ∧ ∀ i < k, InInt32 (base + dir n * (i + 1 : Nat)) ∧
      Indexed (base + dir n * (i + 1 : Nat)) := by
  constructor
  · rintro ⟨hstop, hpass⟩
    obtain ⟨k, hk, rfl⟩ := isStop_iff.mp hstop
    exact ⟨k, hk, rfl, (forall_between_iff _ n base k).mp hpass⟩
  · rintro ⟨k, hk, rfl, hpass⟩
    exact ⟨isStop_iff.mpr ⟨k, hk, rfl⟩, (forall_between_iff _ n base k).mpr hpass⟩

/-- A step is one day, if that is in range. -/
theorem nextDate_eq (n j : Int) : nextDate n j = checked (j + dir n) := by
  unfold nextDate dir
  split
  · rw [sub32, Int.sub_eq_add_neg]
  · rfl

/-- What a step of the source does, and when it is defined. -/
theorem walkStep_eq_ok {s s' : WalkState} (h₁ : 0 < s.days) (h₂ : s.days ≤ 2147483647) :
    cal.walkStep n s = .ok s' ↔
      (InInt32 (s.currJulDate + dir n) ∧ Indexed (s.currJulDate + dir n)) ∧
        s' = ⟨s.currJulDate + dir n,
          s.days - if cal.Business (s.currJulDate + dir n) then 1 else 0⟩ := by
  unfold walkStep
  rw [nextDate_eq]
  -- the next day is an `int`, then its weekday an index, else the step faults
  by_cases hint : InInt32 (s.currJulDate + dir n)
  · rw [checked_eq hint, ok_bind]
    by_cases hidx : Indexed (s.currJulDate + dir n)
    · rw [isBusinessDay_of_indexed _ hidx, ok_bind, sub32_eq ⟨by omega, by omega⟩]
      by_cases hb : cal.Business (s.currJulDate + dir n)
      · simp [hint, hidx, hb, pure, Except.pure, eq_comm]
      · simp [hint, hidx, hb, pure, Except.pure, eq_comm]
    · -- the weekend bits have no such index
      rw [isBusinessDay_of_not_indexed _ hidx, error_bind]
      simp [hidx]
  · rw [checked_eq_overflow hint, error_bind]
    simp [hint]

/-- The loop of `addBusinessDays` after `i` steps: the days left are those not yet met. -/
def walkAt (cal : Calendar) (n base : Int) (i : Nat) : WalkState :=
  ⟨base + dir n * i, n.natAbs - Nat.count (cal.Lands n base) i⟩

/-- The business days that are left after so many steps. -/
theorem walkAt_days (i : Nat) :
    (cal.walkAt n base i).days = n.natAbs - Nat.count (cal.Lands n base) i := rfl

/-- The state that the walk starts from. -/
theorem walkAt_zero : cal.walkAt n base 0 = ⟨base, n.natAbs⟩ := by
  simp [walkAt]

/-- The state that the walk stops in. -/
theorem walkAt_stop {k : Nat} (hk : Walk.Stop (cal.Lands n base) n.natAbs k) :
    cal.walkAt n base k = ⟨base + dir n * k, 0⟩ := by
  simp [walkAt, hk.count_eq]

/-- A step of the loop while days are left: it counts exactly if it lands on a business day. -/
theorem walkStep_walkAt {i : Nat} {s : WalkState} (hn : InInt32 n.natAbs)
    (hi : Nat.count (cal.Lands n base) i < n.natAbs) :
    cal.walkStep n (cal.walkAt n base i) = .ok s ↔
      (InInt32 (base + dir n * (i + 1 : Nat)) ∧ Indexed (base + dir n * (i + 1 : Nat))) ∧
        s = cal.walkAt n base (i + 1) := by
  have hle : (n.natAbs : Int) - Nat.count (cal.Lands n base) i ≤ 2147483647 := by
    have := hn.2
    omega
  have hpos : 0 < (cal.walkAt n base i).days := by
    rw [walkAt_days]
    omega
  rw [walkStep_eq_ok hpos hle]
  have hlands : cal.Lands n base i = cal.Business (base + dir n * (i + 1 : Nat)) := by
    simp [Lands]
  simp only [walkAt, step_eq, Nat.count_succ, hlands]
  -- the count goes down by one on a business day
  have hleft : ((n.natAbs : Int) - (Nat.count (cal.Lands n base) i : Int) -
      if cal.Business (base + dir n * (i + 1 : Nat)) then 1 else 0) = (n.natAbs : Int) -
      ((Nat.count (cal.Lands n base) i +
        if cal.Business (base + dir n * (i + 1 : Nat)) then 1 else 0 : Nat) : Int) := by
    split <;> push_cast <;> ring
  rw [hleft]

/-- The loop of `addBusinessDays` makes the steps up to the stop. -/
theorem walkLoop_ends {k : Nat} (hk : Walk.Stop (cal.Lands n base) n.natAbs k)
    (hn : InInt32 n.natAbs) (hidx : ∀ i < k, Indexed (base + dir n * (i + 1 : Nat)))
    (hE : E .overflow ∨ ∀ i < k, InInt32 (base + dir n * (i + 1 : Nat))) :
    (Comp.whileLoop (fun s => .ok (decide (s.days ≠ 0))) (cal.walkStep n) ⟨base, n.natAbs⟩).Ends E
      (· = ⟨base + dir n * k, 0⟩) := by
  rw [← walkAt_zero, ← walkAt_stop hk]
  -- the walk is the loop's trace, which ends with the `k`-th step
  apply Comp.whileLoop_trace (cal.walkAt n base) k
  · intro i hi
    have := hk.count_lt i hi
    refine congrArg Except.ok (decide_eq_true ?_)
    rw [walkAt_days]
    omega
  · simp [walkAt_stop hk]
  · intro i hi
    by_cases hint : InInt32 (base + dir n * (i + 1 : Nat))
    · rw [(walkStep_walkAt hn (hk.count_lt i hi)).mpr ⟨⟨hint, hidx i hi⟩, rfl⟩]
      exact post_ok.mpr rfl
    · -- the next day is not an `int`
      have hstep : cal.walkStep n (cal.walkAt n base i) = .error .overflow := by
        unfold walkStep
        rw [nextDate_eq, walkAt, step_eq, checked_eq_overflow hint, error_bind]
      rw [hstep]
      exact hE.resolve_right fun h => hint (h i hi)

/-- If the loop of `addBusinessDays` returns, it has made the steps up to the stop. -/
theorem walkLoop_safe (hn : InInt32 n.natAbs) :
    (Comp.whileLoop (fun s => .ok (decide (s.days ≠ 0))) (cal.walkStep n) ⟨base, n.natAbs⟩).Safe
      (fun _ => True) (fun s => cal.Walks n base s.currJulDate) := by
  rw [← walkAt_zero]
  -- so far the walk has met fewer days than sought, and passed days with an index only
  apply Comp.whileLoop_safe fun s => ∃ k, s = cal.walkAt n base k ∧
    (∀ i < k, Nat.count (cal.Lands n base) i < n.natAbs) ∧
    Nat.count (cal.Lands n base) k ≤ n.natAbs ∧ ∀ i < k, InInt32 (base + dir n * (i + 1 : Nat)) ∧
      Indexed (base + dir n * (i + 1 : Nat))
  · rintro s ⟨k, rfl, hlt, hle, hpass⟩
    unfold Comp.IterPost
    rw [post_ok]
    by_cases hdone : Nat.count (cal.Lands n base) k = n.natAbs
    · have hstop : Walk.Stop (cal.Lands n base) n.natAbs k := ⟨hdone, hlt⟩
      rw [walkAt_stop hstop]
      simpa using walks_iff.mpr ⟨k, hstop, rfl, hpass⟩
    · have hlt' := lt_of_le_of_ne hle hdone
      rw [if_pos (decide_eq_true (by rw [walkAt_days]; omega))]
      cases hstep : cal.walkStep n (cal.walkAt n base k) with
      | error f => trivial
      | ok s' =>
        obtain ⟨hpass', rfl⟩ := (walkStep_walkAt hn hlt').mp hstep
        refine post_ok.mpr ⟨k + 1, rfl, Nat.forall_lt_succ_right.mpr ⟨hlt, hlt'⟩, ?_,
          Nat.forall_lt_succ_right.mpr ⟨hpass, hpass'⟩⟩
        rw [Nat.count_succ]
        split <;> omega
  · exact ⟨0, rfl, by simp, by simp, by simp⟩

/-- `addBusinessDays` returns the day it counts to, exactly if it can walk there. -/
theorem addBusinessDays_returns_iff : (cal.addBusinessDays n ⟨base⟩).Returns ⟨r⟩ ↔
    InInt32 n.natAbs ∧ cal.Walks n base r := by
  unfold addBusinessDays
  by_cases hn : InInt32 n.natAbs
  · simp only [abs32_eq hn, Comp.liftM_eq, Comp.lift_ok_bind, Comp.bind_returns,
      Comp.pure_returns, Date.mk.injEq]
    constructor
    · -- what a loop that ends has walked over
      rintro ⟨s, hs, rfl⟩
      exact ⟨hn, (walkLoop_safe hn).2 s hs⟩
    · rintro ⟨-, hw⟩
      -- and a loop with nothing in its way ends
      obtain ⟨k, hk, rfl, hpass⟩ := walks_iff.mp hw
      exact ⟨⟨base + dir n * k, 0⟩, (walkLoop_ends hk hn (fun i hi => (hpass i hi).2)
        (Or.inr fun i hi => (hpass i hi).1)).returns_of_eq fun _ => id, rfl⟩
  · -- the magnitude of the count overflows
    rw [abs32, checked_eq_overflow hn, Comp.liftM_eq, Comp.bind_returns]
    exact iff_of_false (by simp) fun h => hn h.1

/-- The days between the two ends of a walk are in the range its ends are in. -/
private theorem walk_between (n base : Int) {i k : Nat} (hi : i < k) :
    min base (base + dir n * k) ≤ base + dir n * (i + 1 : Nat) ∧
      base + dir n * (i + 1 : Nat) ≤ max base (base + dir n * k) := by
  rcases dir_eq n with hdir | hdir
  · rw [hdir]
    omega
  · rw [hdir]
    omega

/-- `addBusinessDays` reaches the day it counts to, if that and the base date are
    day numbers from zero on. -/
theorem addBusinessDays_ends (h : cal.IsStop n base r) (hlo : 0 ≤ min base r)
    (hE : E .overflow ∨ InInt32 n.natAbs ∧ max base r ≤ 2147483647) :
    (cal.addBusinessDays n ⟨base⟩).Ends E (· = ⟨r⟩) := by
  obtain ⟨k, hk, rfl⟩ := isStop_iff.mp h
  -- every day on the way is between the base and the result
  have hnonneg : ∀ i < k, 0 ≤ base + dir n * (i + 1 : Nat) := fun i hi =>
    hlo.trans (walk_between n base hi).1
  unfold addBusinessDays
  by_cases hn : InInt32 n.natAbs
  · rw [abs32_eq hn]
    refine (walkLoop_ends hk hn (fun i hi => Or.inl (hnonneg i hi)) (hE.imp_right ?_)).bind_eq
      (Comp.ends_pure rfl)
    intro hmax i hi
    -- so none of them leaves the range of `int`
    have := hnonneg i hi
    have := (walk_between n base hi).2.trans hmax.2
    exact ⟨by omega, by omega⟩
  · -- the magnitude of the count overflows
    rw [abs32, checked_eq_overflow hn]
    exact Or.inl ⟨.overflow, Comp.bind_faults.mpr (Or.inl (Comp.lift_faults.mpr rfl)),
      hE.resolve_right fun hb => hn hb.1⟩

/-- `getNextBusinessDay` and `getPrevBusinessDay`: one step in a direction, and more
    of them as long as they lead to holidays. -/
def nextStop (cal : Calendar) (n base : Int) : Comp Date := do
  let j ← nextDate n base
  let j ← Comp.whileLoop cal.isHoliday (nextDate n) j
  return ⟨j⟩

/-- The next business day is a walk of one forward. -/
theorem getNextBusinessDay_eq (base : Date) :
    cal.getNextBusinessDay base = cal.nextStop 1 base.julian := rfl

/-- The previous business day is a walk of one backward. -/
theorem getPrevBusinessDay_eq (base : Date) :
    cal.getPrevBusinessDay base = cal.nextStop (-1) base.julian := rfl

/-- The loop passes the days that are not business days, up to the stop. -/
theorem nextStop_ends {k : Nat} (hn : n.natAbs = 1)
    (hk : Walk.Stop (cal.Lands n base) n.natAbs (k + 1))
    (hidx : ∀ i < k + 1, Indexed (base + dir n * (i + 1 : Nat)))
    (hE : E .overflow ∨ ∀ i < k + 1, InInt32 (base + dir n * (i + 1 : Nat))) :
    (cal.nextStop n base).Ends E (· = ⟨base + dir n * (k + 1 : Nat)⟩) := by
  rw [hn] at hk
  obtain ⟨hb, hnot⟩ := Walk.stop_one_iff.mp hk
  have hwalk : ∀ i < k + 1, Post (nextDate n (base + dir n * i)) E
      (· = base + dir n * (i + 1 : Nat)) := by
    intro i hi
    rw [nextDate_eq, step_eq]
    exact post_checked_of (hE.imp_right fun h => h i hi)
  have hfirst : Post (nextDate n base) E (· = base + dir n * (0 + 1 : Nat)) := by
    simpa using hwalk 0 (Nat.succ_pos k)
  apply Comp.Ends.bind_eq (Comp.ends_lift hfirst)
  refine Comp.Ends.bind_eq ?_ (Comp.ends_pure rfl)
  -- the days passed are holidays, the one reached is not
  apply Comp.whileLoop_trace (fun i : Nat => base + dir n * (i + 1 : Nat)) k
  · intro i hi
    rw [isHoliday_of_indexed cal (hidx i (by omega))]
    simpa [Lands] using hnot i hi
  · rw [isHoliday_of_indexed cal (hidx k (by omega))]
    simpa [Lands] using hb
  · intro i hi
    exact hwalk (i + 1) (by omega)

/-- If the loop returns, it has passed days that are not business days only. -/
theorem nextLoop_safe (hn : n.natAbs = 1) (hfirst : InInt32 (base + dir n * (0 + 1 : Nat))) :
    (Comp.whileLoop cal.isHoliday (nextDate n) (base + dir n * (0 + 1 : Nat))).Safe
      (fun _ => True) (cal.Walks n base) := by
  -- the loop invariant: no day passed so far is a business day
  apply Comp.whileLoop_safe fun j => ∃ k : Nat, j = base + dir n * (k + 1 : Nat) ∧
    (∀ i < k, ¬ cal.Lands n base i ∧ Indexed (base + dir n * (i + 1 : Nat))) ∧
    ∀ i < k + 1, InInt32 (base + dir n * (i + 1 : Nat))
  · rintro j ⟨k, rfl, hnot, hint⟩
    unfold Comp.IterPost
    by_cases hidx : Indexed (base + dir n * (k + 1 : Nat))
    · rw [isHoliday_of_indexed cal hidx, post_ok]
      have hlands : cal.Lands n base k = cal.Business (base + dir n * (k + 1 : Nat)) := by
        simp [Lands]
      -- the loop ends on a business day, else it goes one day on
      by_cases hb : cal.Business (base + dir n * (k + 1 : Nat))
      · rw [if_neg (by simpa using hb)]
        have hindexed : ∀ i < k + 1, Indexed (base + dir n * (i + 1 : Nat)) :=
          Nat.forall_lt_succ_right.mpr ⟨fun i hi => (hnot i hi).2, hidx⟩
        refine walks_iff.mpr ⟨k + 1, ?_, rfl, fun i hi => ⟨hint i hi, hindexed i hi⟩⟩
        rw [hn]
        exact Walk.stop_one_iff.mpr ⟨hlands ▸ hb, fun i hi => (hnot i hi).1⟩
      · rw [if_pos (by simpa using hb), nextDate_eq, step_eq]
        cases hstep : checked (base + dir n * (k + 1 + 1 : Nat)) with
        | error f => trivial
        | ok j =>
          obtain ⟨hint', rfl⟩ := checked_eq_ok.mp hstep
          exact post_ok.mpr ⟨k + 1, rfl,
            Nat.forall_lt_succ_right.mpr ⟨hnot, hlands ▸ hb, hidx⟩,
            Nat.forall_lt_succ_right.mpr ⟨hint, hint'⟩⟩
    · -- the weekend bits have no such index
      rw [isHoliday_of_not_indexed cal hidx]
      trivial
  · refine ⟨0, rfl, by simp, fun i hi => ?_⟩
    obtain rfl : i = 0 := by omega
    exact hfirst

/-- `getNextBusinessDay` and `getPrevBusinessDay` return the business day they look for,
    exactly if they can walk there. -/
theorem nextStop_returns_iff (hn : n.natAbs = 1) :
    (cal.nextStop n base).Returns ⟨r⟩ ↔ cal.Walks n base r := by
  constructor
  · intro h
    unfold nextStop at h
    simp only [nextDate_eq, Comp.liftM_eq, Comp.bind_returns, Comp.lift_returns, checked_eq_ok,
      Comp.pure_returns, Date.mk.injEq] at h
    -- the first step is taken before the loop
    obtain ⟨j, ⟨hint, rfl⟩, r', hr', rfl⟩ := h
    have hfirst : base + dir n = base + dir n * (0 + 1 : Nat) := by simp
    rw [hfirst] at hint hr'
    exact (nextLoop_safe hn hint).2 r' (by simpa only [nextDate_eq] using hr')
  · intro hw
    obtain ⟨k, hk, rfl, hpass⟩ := walks_iff.mp hw
    obtain ⟨k, rfl⟩ := Nat.exists_eq_succ_of_ne_zero (hk.pos (by omega)).ne'
    exact (nextStop_ends hn hk (fun i hi => (hpass i hi).2)
      (Or.inr fun i hi => (hpass i hi).1)).returns_of_eq fun _ => id

/-- A walk on day numbers from zero on that are `int`s. -/
theorem IsStop.walks (h : cal.IsStop n base r) (hlo : 0 ≤ min base r)
    (hhi : max base r ≤ 2147483647) : cal.Walks n base r := by
  refine ⟨h, fun j hj => ?_⟩
  have : 0 ≤ j ∧ j ≤ 2147483647 := by omega
  exact ⟨⟨by omega, this.2⟩, Or.inl this.1⟩

/-! ## The walk to a business day -/

/-- A business day is one forward from the day before it. -/
theorem isStop_pred {j : Int} (h : cal.Business j) : cal.IsStop 1 (j - 1) j := by
  have hIoc : Finset.Ioc (j - 1) j = {j} := by
    ext x
    simp only [Finset.mem_Ioc, Finset.mem_singleton]
    omega
  exact ⟨by omega, fun _ => ⟨h, by simp [hIoc, Finset.filter_singleton, h]⟩, by omega⟩

/-- A business day is one backward from the day after it. -/
theorem isStop_succ {j : Int} (h : cal.Business j) : cal.IsStop (-1) (j + 1) j := by
  have hIco : Finset.Ico j (j + 1) = {j} := by
    ext x
    simp only [Finset.mem_Ico, Finset.mem_singleton]
    omega
  exact ⟨by omega, by omega, fun _ => ⟨h, by simp [hIco, Finset.filter_singleton, h]⟩⟩

/-- A walk of one forward stops at the first business day after the base. -/
theorem IsStop.isLeast (h : cal.IsStop 1 base r) : IsLeast {j | base < j ∧ cal.Business j} r :=
  ⟨⟨h.lt Int.one_pos, (h.after Int.one_pos).1⟩,
    fun _ hj => h.mono (isStop_pred hj.2) (Int.le_sub_one_of_lt hj.1)⟩

/-- A walk of one backward stops at the last business day before the base. -/
theorem IsStop.isGreatest (h : cal.IsStop (-1) base r) :
    IsGreatest {j | j < base ∧ cal.Business j} r :=
  ⟨⟨h.gt (by decide), (h.before (by decide)).1⟩, fun _ hj => (isStop_succ hj.2).mono h hj.1⟩

/-- `addBusinessDays` walks to the day that is `n` business days away, for every
    count whose magnitude is an `int`, as long as the walk stays on day numbers
    that are not negative and fit an `int`; the walk goes from `base` straight to
    `r`. `getNextBusinessDay` and `getPrevBusinessDay` are its first steps. -/
theorem addBusinessDays_spec (hcal : cal.HasBusinessWeekday) (base : Date)
    (hbase : 0 ≤ base.julian) (hbase' : base.julian ≤ 2147483647) :
    (∀ n, InInt32 n → n ≠ -2147483648 → ∃ r, cal.IsStop n base.julian r ∧
      (0 ≤ r → r ≤ 2147483647 → (cal.addBusinessDays n base).Returns ⟨r⟩)) ∧
    (∃ r, IsLeast {j | base.julian < j ∧ cal.Business j} r ∧ (r ≤ 2147483647 →
      (cal.addBusinessDays 1 base).Returns ⟨r⟩ ∧ (cal.getNextBusinessDay base).Returns ⟨r⟩)) ∧
    (∃ r, IsGreatest {j | j < base.julian ∧ cal.Business j} r ∧ (0 ≤ r →
      (cal.addBusinessDays (-1) base).Returns ⟨r⟩ ∧
      (cal.getPrevBusinessDay base).Returns ⟨r⟩)) := by
  -- a stop within the range of the dates is reached
  have hwalk : ∀ n r, InInt32 n → n ≠ -2147483648 → cal.IsStop n base.julian r → 0 ≤ r →
      r ≤ 2147483647 → (cal.addBusinessDays n base).Returns ⟨r⟩ := by
    intro n r hn hn' hstop hr hr'
    have habs : InInt32 n.natAbs := by unfold InInt32 at hn ⊢; omega
    exact (addBusinessDays_ends hstop (le_min hbase hr)
      (Or.inr ⟨habs, max_le hbase' hr'⟩)).returns_of_eq fun _ => id
  refine ⟨fun n hn hn' => ?_, ?_, ?_⟩
  · obtain ⟨r, hstop⟩ := exists_isStop hcal n base.julian
    exact ⟨r, hstop, hwalk n r hn hn' hstop⟩
  · -- one day forward is the next business day
    obtain ⟨r, hstop⟩ := exists_isStop hcal 1 base.julian
    have hlt := hstop.lt Int.one_pos
    exact ⟨r, hstop.isLeast, fun hr => ⟨hwalk 1 r (by decide) (by decide) hstop (by omega) hr,
      (nextStop_returns_iff rfl).mpr (hstop.walks (by omega) (by omega))⟩⟩
  · -- one day back is the previous one
    obtain ⟨r, hstop⟩ := exists_isStop hcal (-1) base.julian
    have hgt := hstop.gt (by decide)
    exact ⟨r, hstop.isGreatest, fun hr => ⟨hwalk (-1) r (by decide) (by decide) hstop hr (by omega),
      (nextStop_returns_iff rfl).mpr (hstop.walks (by omega) (by omega))⟩⟩

/-- A calendar with the usual weekend and one holiday. -/
theorem addBusinessDays_spec_weekend :
    (⟨{5, 6}, "TST", {2460004}⟩ : Calendar).HasBusinessWeekday ∧
    ∃ r, (⟨{5, 6}, "TST", {2460004}⟩ : Calendar).IsStop 3 2460001 r ∧ (0 ≤ r → r ≤ 2147483647 →
      (addBusinessDays ⟨{5, 6}, "TST", {2460004}⟩ 3 ⟨2460001⟩).Returns ⟨r⟩) := by
  have hcal : (⟨{5, 6}, "TST", {2460004}⟩ : Calendar).HasBusinessWeekday := by decide
  exact ⟨hcal, (addBusinessDays_spec hcal ⟨2460001⟩ (by decide) (by decide)).1 3 (by decide)
    (by decide)⟩

end Calendar

end OA.Time
