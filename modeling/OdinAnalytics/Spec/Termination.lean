import OdinAnalytics.Spec.Faults
import OdinAnalytics.Spec.ScheduleCorrect
import Mathlib.Data.Rat.Defs

/-!
# When the schedule loops end

Each iteration of a schedule loop moves `total_length` by the count of the reset
tenor, so unless the count is zero the loop ends, at the latest by overflow. A
positive count takes it to the other end of the deal. Nothing rules out the other
counts: with zero the loop stays where it is, and with a negative count it moves
away from the deal until the arithmetic gives up.

## Key results

- `generateDates_ends_any`: the loop ends on any input unless the count is zero
- `generateDates_returns_iff`, `generateDates_faults_iff`: how it ends, in terms of tenor arithmetic
- `generateDates_terminates_iff`: when the call throws or returns
- `createFixedCashflowsOfFrequency_not_diverges`: with a frequency it always does
-/

namespace OA.DerivedTime

open Machine OA.Time

namespace Deal

variable (d : Deal)

/-- The `i`-th roll date as tenor arithmetic computes it, on any input. -/
def rollAt : Nat → Exec Date
  | 0 => .ok ⟨d.anchor⟩
  | i + 1 => Date.addTenor ⟨d.anchor⟩ ⟨d.stride * (i + 1 : Nat), d.resetFreq.unit⟩

/-- The arithmetic of the `i`-th period: its far date, the next roll date, and the
    count of units from the anchor to the one after. -/
def periodAt (i : Nat) : Exec Date := do
  let date ← d.rollAt i
  let stride ← checked d.stride
  let _ ← date.addTenor ⟨stride, d.resetFreq.unit⟩
  let next ← d.rollAt (i + 1)
  let _ ← checked (d.stride * (i + 2 : Nat))
  return next

/-- The arithmetic of the `i`-th period does not fault. -/
def Computes (i : Nat) : Prop := ∃ next, d.periodAt i = .ok next

/-- The first `i` periods have their roll dates inside the deal and can be computed. -/
def Walks (i : Nat) : Prop :=
  ∀ j < i, (∃ date, d.rollAt j = .ok date ∧ d.Inside date.julian) ∧ d.Computes j

/-- After the first `i` periods, the roll date is no longer inside the deal. -/
def LeavesAt (i : Nat) : Prop :=
  d.Walks i ∧ ∃ date, d.rollAt i = .ok date ∧ ¬ d.Inside date.julian

/-- After the first `i` periods, the arithmetic of the next one faults. -/
def FaultsAt (i : Nat) (f : Fault) : Prop :=
  d.Walks i ∧ (∃ date, d.rollAt i = .ok date ∧ d.Inside date.julian) ∧ d.periodAt i = .error f

variable {d} {E : Fault → Prop} {i j : Nat} {f f' : Fault}

/-! ## The loop as a walk -/

/-- The loop state before the `i`-th period. -/
structure AtPeriod (d : Deal) (i : Nat) (s : GenState) : Prop where
  currDate : d.rollAt i = .ok s.currDate
  totalLength : s.totalLength = d.stride * (i + 1 : Nat)

/-- Both loop bodies, as one sequence of operations. -/
theorem loopStep_eq (hn : InInt32 d.resetFreq.count) (s : GenState) : d.loopStep s = (do
    let stride ← checked d.stride
    let far ← s.currDate.addTenor ⟨stride, d.resetFreq.unit⟩
    let next ← Date.addTenor ⟨d.anchor⟩ ⟨s.totalLength, d.resetFreq.unit⟩
    let total ← checked (s.totalLength + d.stride)
    return ⟨next, total, ⟨s.dates.startDates ++ (d.toSchedule [s.currDate] [far]).startDates,
      s.dates.endDates ++ (d.toSchedule [s.currDate] [far]).endDates⟩⟩) := by
  obtain ⟨_ | _, startDate, matDate, resetFreq⟩ := d
  · rw [show checked (stride ⟨.kForward, startDate, matDate, resetFreq⟩) = .ok resetFreq.count from
      checked_eq hn, ok_bind]
    rfl
  · rfl

/-- An iteration does what the arithmetic of its period does. -/
theorem AtPeriod.loopStep {s : GenState} (hs : d.AtPeriod i s)
    (hn : InInt32 d.resetFreq.count) : Post (d.loopStep s) (fun f => d.periodAt i = .error f)
      fun s' => d.periodAt i = .ok s'.currDate ∧ d.AtPeriod (i + 1) s' := by
  obtain ⟨hcurr, htotal⟩ := hs
  have htotal' : d.stride * (i + 2 : Nat) = s.totalLength + d.stride := by
    rw [htotal]
    push_cast
    ring
  have hnext : d.rollAt (i + 1) = Date.addTenor ⟨d.anchor⟩ ⟨s.totalLength, d.resetFreq.unit⟩ := by
    rw [htotal]
    rfl
  rw [loopStep_eq hn, periodAt, hcurr, ok_bind, htotal', hnext]
  -- the same operations on both sides: by the first of them that faults
  cases checked d.stride with
  | error f => simp
  | ok stride =>
    simp only [ok_bind]
    cases s.currDate.addTenor ⟨stride, d.resetFreq.unit⟩ with
    | error f => simp
    | ok far =>
      simp only [ok_bind]
      cases h : Date.addTenor ⟨d.anchor⟩ ⟨s.totalLength, d.resetFreq.unit⟩ with
      | error f => simp
      | ok next =>
        simp only [ok_bind]
        cases hc : checked (s.totalLength + d.stride) with
        | error f => simp
        | ok total =>
          refine ⟨rfl, hnext.trans h, ?_⟩
          rw [(checked_eq_ok.mp hc).2, ← htotal']

/-- One period more of the walk. -/
theorem Walks.succ (h : d.Walks i) {date next : Date} (hroll : d.rollAt i = .ok date)
    (hin : d.Inside date.julian) (hnext : d.periodAt i = .ok next) : d.Walks (i + 1) := by
  intro j hj
  rcases Nat.lt_succ_iff_lt_or_eq.mp hj with hlt | rfl
  · exact h j hlt
  · exact ⟨⟨date, hroll, hin⟩, next, hnext⟩

/-- However the loop ends, the walk ends that way. -/
theorem loop_safe (hn : InInt32 d.resetFreq.count) {s : GenState} (hs : d.AtPeriod 0 s) :
    (d.loop s).Safe (fun f => ∃ i, d.FaultsAt i f) fun _ => ∃ i, d.LeavesAt i := by
  -- the invariant: some number of periods has been walked
  refine Comp.whileLoop_safe (fun s => ∃ i, d.AtPeriod i s ∧ d.Walks i) _ _ ?_
    ⟨0, hs, fun j hj => absurd hj (Nat.not_lt_zero j)⟩
  intro s ⟨i, hs, hwalk⟩
  unfold Comp.IterPost
  rw [post_ok]
  split
  · next hin =>
    rw [decide_eq_true_iff] at hin
    apply (hs.loopStep hn).imp
    · intro f hf
      exact ⟨i, hwalk, ⟨_, hs.currDate, hin⟩, hf⟩
    · intro s' ⟨hnext, hs'⟩
      exact ⟨i + 1, hs', hwalk.succ hs.currDate hin hnext⟩
  · next hout =>
    rw [decide_eq_true_iff] at hout
    exact ⟨i, hwalk, _, hs.currDate, hout⟩

/-- The first states of the loop are those of a walk. -/
theorem AtPeriod.step_of_walks {s : GenState} (hn : InInt32 d.resetFreq.count)
    (hs : d.AtPeriod j s) (hwalk : d.Walks i) (hj : j < i) {E : Fault → Prop} :
    Post (d.loopStep s) E (d.AtPeriod (j + 1)) := by
  have hstep := hs.loopStep hn
  -- the walk computes this period, so the step does not fault
  obtain ⟨-, next, hnext⟩ := hwalk j hj
  cases h : d.loopStep s with
  | error f =>
    rw [h, post_error, hnext] at hstep
    exact nomatch hstep
  | ok s' =>
    rw [h, post_ok] at hstep
    exact hstep.2

/-- The loop ends with the fault of the walk. -/
theorem AtPeriod.loopStep_error {s : GenState} (hs : d.AtPeriod i s)
    (hn : InInt32 d.resetFreq.count) (hf : d.periodAt i = .error f) :
    d.loopStep s = .error f := by
  have hstep := hs.loopStep hn
  cases h : d.loopStep s with
  | error g =>
    rw [h, post_error, hf, Except.error.injEq] at hstep
    rw [hstep]
  | ok s' =>
    rw [h, post_ok, hf] at hstep
    exact nomatch hstep.1

/-- Before the end of the walk the loop goes on. -/
theorem AtPeriod.inside_of_walks {s : GenState} (hs : d.AtPeriod j s) (hwalk : d.Walks i)
    (hj : j < i) : d.Inside s.currDate.julian := by
  obtain ⟨⟨date, hdate, hin⟩, -⟩ := hwalk j hj
  rw [hs.currDate, Except.ok.injEq] at hdate
  exact hdate ▸ hin

/-- A walk that leaves the deal is a loop that returns. -/
theorem LeavesAt.loop_returns (h : d.LeavesAt i) (hn : InInt32 d.resetFreq.count) {s : GenState}
    (hs : d.AtPeriod 0 s) : ∃ t, (d.loop s).Returns t := by
  obtain ⟨hwalk, date, hdate, hout⟩ := h
  -- the loop invariant: the state is that of the `j`-th period
  have hends : (d.loop s).Ends (fun _ => False) (d.AtPeriod i) :=
    Comp.whileLoop_ends_after d.AtPeriod i
      (fun j hj s hs => congrArg Except.ok (decide_eq_true (hs.inside_of_walks hwalk hj)))
      (fun s hs => congrArg Except.ok (decide_eq_false (by
        rw [hs.currDate, Except.ok.injEq] at hdate
        exact hdate ▸ hout)))
      (fun j hj s hs => hs.step_of_walks hn hwalk hj) hs
  obtain ⟨t, ht, -⟩ := hends.exists_returns fun _ hf => hf.elim
  exact ⟨t, ht⟩

/-- A walk that faults is a loop that faults. -/
theorem FaultsAt.loop_faults (h : d.FaultsAt i f) (hn : InInt32 d.resetFreq.count) {s : GenState}
    (hs : d.AtPeriod 0 s) : (d.loop s).Faults f := by
  obtain ⟨hwalk, ⟨date, hdate, hin⟩, hf⟩ := h
  -- the invariant admits no state after the last iteration
  have hends : (d.loop s).Ends (· = f) fun s => i + 1 ≤ i ∧ d.AtPeriod (i + 1) s := by
    apply Comp.whileLoop_ends_after (fun j s => j ≤ i ∧ d.AtPeriod j s) (i + 1)
    · intro j hj s hs
      apply congrArg Except.ok
      apply decide_eq_true
      rcases Nat.lt_succ_iff_lt_or_eq.mp hj with hlt | rfl
      · exact hs.2.inside_of_walks hwalk hlt
      · rw [hs.2.currDate, Except.ok.injEq] at hdate
        exact hdate ▸ hin
    · intro s hs
      exact absurd hs.1 (by omega)
    · intro j hj s hs
      rcases Nat.lt_succ_iff_lt_or_eq.mp hj with hlt | rfl
      · exact (hs.2.step_of_walks hn hwalk hlt).weaken fun _ hs => ⟨hlt, hs⟩
      · rw [hs.2.loopStep_error hn hf]
        exact post_error.mpr rfl
    · exact ⟨Nat.zero_le i, hs⟩
  rcases hends with ⟨g, hg, hgf⟩ | ⟨t, -, hlt, -⟩
  · exact hgf ▸ hg
  · exact absurd hlt (by omega)

/-- With a count that is not zero, the count of units runs out of `int`s at the latest. -/
theorem loop_ends_any (hE : Arithmetic E) (hn : InInt32 d.resetFreq.count)
    (hzero : d.stride ≠ 0) (s : GenState) (hs : InInt32 s.totalLength) :
    (d.loop s).Ends E fun _ => True := by
  have hstep : ∀ s, Post (d.loopStep s) E fun s' =>
      InInt32 s'.totalLength ∧ room d.stride s'.totalLength < room d.stride s.totalLength := by
    intro s
    rw [loopStep_eq hn]
    apply (post_checked_any hE.overflow _).bind
    intro stride _
    apply (Date.addTenor_any hE _ _).bind
    intro far _
    apply (Date.addTenor_any hE _ _).bind
    intro next _
    exact (checked_room hE.overflow hzero _).bind fun total htotal => htotal
  -- the room for `total_length` is the variant
  apply Comp.whileLoop_ends (fun s => InInt32 s.totalLength) (fun _ => True) E
    fun s => room d.stride s.totalLength
  · intro s hs
    unfold Comp.IterPost
    rw [post_ok]
    split
    · exact hstep s
    · exact trivial
  · exact hs

/-- The loop begins at the anchor. -/
theorem atPeriod_zero : d.AtPeriod 0 ⟨⟨d.anchor⟩, d.stride, ⟨[], []⟩⟩ := ⟨rfl, by simp⟩

/-- The first total is the stride, if an `int` holds it. -/
theorem firstTotal_eq (hn : InInt32 d.resetFreq.count) : d.firstTotal = checked d.stride := by
  obtain ⟨_ | _, startDate, matDate, resetFreq⟩ := d
  · exact (checked_eq hn).symm
  · rfl

end Deal

/-! ## The schedule loops -/

section Loops

variable {d : Deal} {E : Fault → Prop}

/-- The loops with a first count that is an `int`. -/
theorem generateDates_eq_loop (hn : InInt32 d.resetFreq.count) (hstride : InInt32 d.stride) :
    generateDates d.startDate d.matDate d.resetFreq d.dateDir = (do
      let s ← d.loop ⟨⟨d.anchor⟩, d.stride, ⟨[], []⟩⟩
      return d.chronological s.dates) := by
  rw [Deal.generateDates_eq, Deal.firstTotal_eq hn, checked_eq hstride, Comp.lift_ok_bind]

/-- A stride that no `int` holds overflows. -/
theorem generateDates_faults_overflow (hn : InInt32 d.resetFreq.count)
    (hstride : ¬ InInt32 d.stride) :
    (generateDates d.startDate d.matDate d.resetFreq d.dateDir).Faults .overflow := by
  rw [Deal.generateDates_eq, Deal.firstTotal_eq hn, checked_eq_overflow hstride]
  exact Comp.lift_faults.mpr rfl

/-- Unless the count is zero, the loops end on any input. -/
theorem generateDates_ends_any (hE : Arithmetic E) (hn : InInt32 d.resetFreq.count)
    (hzero : d.resetFreq.count ≠ 0) :
    (generateDates d.startDate d.matDate d.resetFreq d.dateDir).Ends E fun _ => True := by
  -- a stride that is not zero ends in the range or overflows
  have hstride : d.stride ≠ 0 := by
    unfold Deal.stride
    split <;> omega
  by_cases hin : InInt32 d.stride
  · rw [generateDates_eq_loop hn hin]
    exact (Deal.loop_ends_any hE hn hstride _ hin).bind fun _ _ => Comp.ends_pure trivial
  · exact Or.inl ⟨_, generateDates_faults_overflow hn hin, hE.overflow⟩

/-- The loops return after a walk that leaves the deal. -/
theorem generateDates_returns_iff (hn : InInt32 d.resetFreq.count) (hstride : InInt32 d.stride) :
    (∃ dates, (generateDates d.startDate d.matDate d.resetFreq d.dateDir).Returns dates) ↔
      ∃ i, d.LeavesAt i := by
  rw [generateDates_eq_loop hn hstride]
  constructor
  · intro ⟨dates, h⟩
    obtain ⟨t, ht, -⟩ := Comp.bind_returns.mp h
    exact (Deal.loop_safe hn Deal.atPeriod_zero).2 t ht
  · intro ⟨i, h⟩
    obtain ⟨t, ht⟩ := h.loop_returns hn Deal.atPeriod_zero
    exact ⟨_, Comp.bind_returns.mpr ⟨t, ht, Comp.pure_returns.mpr rfl⟩⟩

/-- The loops fault after a walk whose next period faults. -/
theorem generateDates_faults_iff (hn : InInt32 d.resetFreq.count) (hstride : InInt32 d.stride)
    {f : Fault} : (generateDates d.startDate d.matDate d.resetFreq d.dateDir).Faults f ↔
      ∃ i, d.FaultsAt i f := by
  rw [generateDates_eq_loop hn hstride, Comp.bind_faults]
  constructor
  · intro hfaults
    rcases hfaults with h | ⟨t, -, h⟩
    · exact (Deal.loop_safe hn Deal.atPeriod_zero).1 f h
    · exact absurd h Comp.pure_faults
  · intro ⟨i, h⟩
    exact Or.inl (h.loop_faults hn Deal.atPeriod_zero)

/-- A walk that ends without a positive count: a roll date leaves the deal, or
    tenor arithmetic throws. -/
def Deal.GivesUp (d : Deal) : Prop := (∃ i, d.LeavesAt i) ∨ ∃ i e, d.FaultsAt i (.throws e)

/-- The loop returns or throws exactly if the walk leaves the deal or throws. -/
theorem generateDates_finishes_iff (hn : InInt32 d.resetFreq.count) :
    (generateDates d.startDate d.matDate d.resetFreq d.dateDir).Finishes ↔
      InInt32 d.stride ∧ d.GivesUp := by
  by_cases hstride : InInt32 d.stride
  · unfold Comp.Finishes Deal.GivesUp
    simp only [generateDates_returns_iff hn hstride, generateDates_faults_iff hn hstride, hstride,
      true_and]
    rw [exists_comm (α := Exn)]
  · -- the first count overflows, which is neither to return nor to throw
    have hover := generateDates_faults_overflow hn hstride
    refine ⟨fun h => ?_, fun h => absurd h.1 hstride⟩
    rcases h with ⟨dates, h⟩ | ⟨e, h⟩
    · exact absurd hover h.not_faults
    · exact nomatch hover.unique h

/-- A deal of no length is left at once. -/
theorem Deal.leavesAt_zero (h : d.startDate = d.matDate) : d.LeavesAt 0 :=
  ⟨fun j hj => absurd hj (Nat.not_lt_zero j), _, rfl, Deal.not_inside_anchor h⟩

/-! ## Counts that are not positive -/

section NotPositive

variable (hs : 0 ≤ d.startDate.julian) (hlt : d.startDate < d.matDate)

include hs hlt

omit hlt in
/-- The anchor is no earlier than the start. -/
theorem Deal.anchor_nonneg (hle : d.startDate ≤ d.matDate) : 0 ≤ d.anchor := by
  unfold Deal.anchor
  split
  · exact hs
  · exact hs.trans hle

/-- Roll dates are computed up to overflow. -/
theorem Deal.rollAt_post (i : Nat) :
    Post (d.rollAt i) (· = .overflow) (Date.Agrees · ⟨d.rollDate i⟩) := by
  cases i with
  | zero => exact Or.inl (by rw [Deal.rollDate_zero])
  | succ i => exact Date.addTenor_agrees rfl (Deal.anchor_nonneg hs hlt.le)

/-- Without a positive count, no roll date leaves the deal. -/
theorem Deal.rollAt_inside (hc : d.resetFreq.count ≤ 0) {i : Nat} {date : Date}
    (h : d.rollAt i = .ok date) : d.Inside date.julian := by
  have hagrees := Deal.rollAt_post hs hlt i
  rw [h, post_ok] at hagrees
  obtain ⟨_ | _, startDate, matDate, resetFreq⟩ := d
  · -- forward, the roll dates stay at the start date or go back from it
    have hroll : rollDate ⟨.kForward, startDate, matDate, resetFreq⟩ i ≤ startDate.julian :=
      DateShift.roll_le hc i
    -- the date computed is the roll date or below day number zero
    rcases hagrees with rfl | ⟨hneg, -⟩
    · exact lt_of_le_of_lt hroll hlt
    · exact hneg.trans (lt_of_le_of_lt hs hlt)
  · -- backward, they stay at the maturity date or go on from it
    have hroll : matDate.julian ≤ rollDate ⟨.kBackward, startDate, matDate, resetFreq⟩ i :=
      DateShift.le_roll (neg_nonneg_of_nonpos hc) i
    rw [hagrees.eq ((hs.trans (le_of_lt hlt)).trans hroll)]
    exact lt_of_lt_of_le hlt hroll

omit hs hlt in
/-- Days and weeks only overflow. -/
theorem addTenor_days_post (date : Date) {tenor : Tenor}
    (h : tenor.unit = .kDays ∨ tenor.unit = .kWeeks) :
    Post (date.addTenor tenor) (· = .overflow) fun _ => True := by
  have hchecked : ∀ x, Post (checked x) (· = .overflow) fun _ => True := post_checked_any rfl
  unfold Date.addTenor
  rcases h with h | h
  · rw [h]
    exact (hchecked _).bind fun _ _ => trivial
  · rw [h]
    exact (hchecked _).bind fun _ _ => (hchecked _).bind fun _ _ => trivial

/-- Of the steps of a period, only the move on from the roll date can throw. -/
theorem Deal.periodAt_throws {i : Nat} {date : Date} {e : Exn} (hdate : d.rollAt i = .ok date)
    (hperiod : d.periodAt i = .error (.throws e)) :
    date.addTenor ⟨d.stride, d.resetFreq.unit⟩ = .error (.throws e) := by
  unfold Deal.periodAt at hperiod
  rw [hdate, ok_bind] at hperiod
  -- the steps of a period: only adding the tenor throws
  rcases bind_eq_error.mp hperiod with h | ⟨stride, hstride, hperiod⟩
  · exact nomatch checked_eq_error h
  obtain ⟨-, rfl⟩ := checked_eq_ok.mp hstride
  rcases bind_eq_error.mp hperiod with h | ⟨far, -, hperiod⟩
  · exact h
  rcases bind_eq_error.mp hperiod with h | ⟨next, -, hperiod⟩
  · have hpost := Deal.rollAt_post hs hlt (i + 1)
    rw [h] at hpost
    exact nomatch hpost
  rcases bind_eq_error.mp hperiod with h | ⟨total, -, hperiod⟩
  · exact nomatch checked_eq_error h
  · exact nomatch hperiod

/-- Only forward, and by a negative count, the walk goes back past day number zero. -/
theorem Deal.forward_of_rollDate_neg (hc : d.resetFreq.count ≤ 0) {i : Nat}
    (hroll : d.rollDate i < 0) : d.dateDir = .kForward ∧ d.resetFreq.count < 0 := by
  obtain ⟨_ | _, startDate, matDate, resetFreq⟩ := d
  · refine ⟨rfl, hc.lt_of_ne fun hzero => ?_⟩
    have hle : startDate.julian ≤ rollDate ⟨.kForward, startDate, matDate, resetFreq⟩ i :=
      DateShift.le_roll hzero.ge i
    exact absurd hroll (not_lt.mpr (hs.trans hle))
  · have hle : matDate.julian ≤ rollDate ⟨.kBackward, startDate, matDate, resetFreq⟩ i :=
      DateShift.le_roll (neg_nonneg_of_nonpos hc) i
    exact absurd hroll (not_lt.mpr ((hs.trans (le_of_lt hlt)).trans hle))

/-- A roll date that is computed and inside the deal is that of the calendar. -/
theorem Deal.rollAt_eq (hc : 0 < d.resetFreq.count) {i : Nat} {date : Date}
    (h : d.rollAt i = .ok date) (hin : d.Inside (d.rollDate i) ∨ d.Inside date.julian) :
    date = ⟨d.rollDate i⟩ := by
  have hagrees := Deal.rollAt_post hs hlt i
  rw [h, post_ok] at hagrees
  rcases hagrees with heq | ⟨hneg, hneg'⟩
  · exact heq
  · -- below day number zero neither of them is inside
    simp only at hneg'
    obtain ⟨_ | _, startDate, matDate, resetFreq⟩ := d
    · exact absurd hneg' (not_lt.mpr (hs.trans (Deal.le_rollDate hc i)))
    · have hin : startDate.julian < rollDate ⟨.kBackward, startDate, matDate, resetFreq⟩ i ∨
          startDate.julian < date.julian := hin
      simp only at hs
      omega

/-- With a positive count, a walk that ends computes every period inside the deal. -/
theorem Deal.GivesUp.computes (hc : 0 < d.resetFreq.count) (h : d.GivesUp) {i : Nat}
    (hin : d.Inside (d.rollDate i)) : d.Computes i := by
  rcases h with ⟨n, hwalk, date, hdate, hout⟩ | ⟨n, e, -, ⟨date, hdate, hinside⟩, hperiod⟩
  · -- the walk left the deal at its first roll date that is not inside
    have hlt' : i < n := by
      by_contra hle
      obtain ⟨k, hk⟩ := Deal.exists_periods hc
      -- roll dates are ordered, so an earlier one is inside as well
      have hn : d.Inside (d.rollDate n) :=
        (hk.lt_iff hc).mp (lt_of_le_of_lt (not_lt.mp hle) ((hk.lt_iff hc).mpr hin))
      rw [Deal.rollAt_eq hs hlt hc hdate (Or.inl hn)] at hout
      exact hout hn
    exact (hwalk i hlt').2
  · -- from day number zero on, moving by a tenor at most overflows
    have hfar := Deal.periodAt_throws hs hlt hdate hperiod
    -- the date that the move starts from is not below day number zero
    have hnn : 0 ≤ date.julian := by
      obtain rfl := Deal.rollAt_eq hs hlt hc hdate (Or.inr hinside)
      obtain ⟨_ | _, startDate, matDate, resetFreq⟩ := d
      · exact hs.trans (Deal.le_rollDate hc n)
      · exact hs.trans (le_of_lt hinside)
    have hpost := Date.addTenor_agrees (E := (· = .overflow)) (u := d.resetFreq.unit)
      (n := d.stride) rfl hnn
    rw [hfar] at hpost
    exact nomatch hpost

/-- With a positive count, a walk that computes every period inside the deal leaves it. -/
theorem Deal.leavesAt_of_computes (hc : 0 < d.resetFreq.count)
    (h : ∀ i, d.Inside (d.rollDate i) → d.Computes i) : ∃ i, d.LeavesAt i := by
  obtain ⟨k, hk⟩ := Deal.exists_periods hc
  have hcomputes : ∀ i < k, d.Computes i := fun i hi => h i (hk.inside i hi)
  refine ⟨k, fun i hi => ⟨?_, hcomputes i hi⟩, ?_⟩
  · -- the dates of the periods before are inside
    obtain ⟨next, hnext⟩ := hcomputes i hi
    obtain ⟨date, hdate, -⟩ := bind_eq_ok.mp hnext
    obtain rfl := Deal.rollAt_eq hs hlt hc hdate (Or.inl (hk.inside i hi))
    exact ⟨_, hdate, hk.inside i hi⟩
  · -- the last period that is inside has computed the roll date after it
    obtain ⟨k, rfl⟩ := Nat.exists_eq_succ_of_ne_zero (hk.pos hlt).ne'
    obtain ⟨next, hnext⟩ := hcomputes k (Nat.lt_succ_self k)
    obtain ⟨_, -, hnext⟩ := bind_eq_ok.mp hnext
    obtain ⟨_, -, hnext⟩ := bind_eq_ok.mp hnext
    obtain ⟨_, -, hnext⟩ := bind_eq_ok.mp hnext
    obtain ⟨date, hdate, -⟩ := bind_eq_ok.mp hnext
    have hagrees := Deal.rollAt_post hs hlt (k + 1)
    rw [hdate, post_ok] at hagrees
    exact ⟨date, hdate,
      (Deal.tracks_agrees (E := (· = .overflow)) rfl hk hc hs hlt).outside date hagrees⟩

/-- What throws is a move on from a roll date before day number zero. -/
theorem Deal.FaultsAt.throws_below_zero {i : Nat} {e : Exn} (h : d.FaultsAt i (.throws e))
    (hc : d.resetFreq.count ≤ 0) : d.dateDir = .kForward ∧ d.resetFreq.count < 0 ∧
      (d.resetFreq.unit = .kMonths ∨ d.resetFreq.unit = .kYears) ∧
      ∃ date, d.rollAt i = .ok date ∧ date.julian < 0 ∧
        date.addTenor d.resetFreq = .error (.throws e) := by
  obtain ⟨-, ⟨date, hdate, -⟩, hperiod⟩ := h
  have hfar := Deal.periodAt_throws hs hlt hdate hperiod
  -- from day number zero on, moving by a tenor at most overflows
  have hneg : date.julian < 0 := by
    by_contra hnn
    have hpost := Date.addTenor_agrees (E := (· = .overflow)) (u := d.resetFreq.unit)
      (n := d.stride) rfl (not_lt.mp hnn)
    rw [hfar] at hpost
    exact nomatch hpost
  have hunit : d.resetFreq.unit = .kMonths ∨ d.resetFreq.unit = .kYears := by
    by_contra hdays
    have hpost : Post (date.addTenor ⟨d.stride, d.resetFreq.unit⟩) (· = .overflow) fun _ => True :=
      addTenor_days_post date (by cases hu : d.resetFreq.unit <;> simp_all)
    rw [hfar] at hpost
    exact nomatch hpost
  have hroll : d.rollDate i < 0 := by
    have hagrees := Deal.rollAt_post hs hlt i
    rw [hdate, post_ok] at hagrees
    rcases hagrees with rfl | ⟨-, h⟩
    · exact hneg
    · exact h
  obtain ⟨hdir, hcount⟩ := Deal.forward_of_rollDate_neg hs hlt hc hroll
  have hstride : d.stride = d.resetFreq.count := by
    rw [Deal.stride, hdir]
  rw [hstride] at hfar
  exact ⟨hdir, hcount, hunit, date, hdate, hneg, hfar⟩

end NotPositive

/-! ## Tenors given as text -/

/-- The counts that are read are `int`s. -/
theorem stoi_inInt32 {cs : List Char} {count : Int} (h : stoi cs = .ok count) : InInt32 count := by
  simp only [stoi] at h
  split at h
  · exact nomatch h
  · split at h
    · next hin => exact Except.ok.inj h ▸ hin
    · exact nomatch h

/-- All that is known of the count of an accepted tenor is that it is an `int`. -/
theorem ofString_inInt32 {inputString : String} {tenor : Tenor}
    (h : Tenor.ofString inputString = .ok tenor) : InInt32 tenor.count := by
  unfold Tenor.ofString at h
  split at h
  · split at h
    · exact nomatch h
    · obtain ⟨count, hcount, h⟩ := bind_eq_ok.mp h
      obtain ⟨unit, -, h⟩ := bind_eq_ok.mp h
      obtain rfl := Except.ok.inj h
      -- the count is what `std::stoi` returns
      exact stoi_inInt32 hcount
  · exact nomatch h

/-! ## The call -/

section Call

variable {F : Type} [IntCast F] [Add F] [Mul F] [Div F] [Neg F] {notional rate : F}
  {rule : DayCountRule} {opts : Options}

/-- What follows the schedule loops always ends. -/
theorem createFixedCashflows_ends_any (hdir : opts.dateDir = d.dateDir)
    (hgen : (generateDates d.startDate d.matDate d.resetFreq d.dateDir).Ends (fun _ => True)
      fun _ => True) :
    (createFixedCashflows d.startDate d.matDate d.resetFreq notional rate rule opts).Ends
      (fun _ => True) fun _ => True := by
  have hE : Arithmetic fun _ => True := ⟨trivial, fun _ => trivial⟩
  -- any part without a loop ends
  have hlift : ∀ {α : Type} (x : Exec α), (Comp.lift x).Ends (fun _ => True) fun _ => True := by
    intro α x
    cases x <;> exact Comp.ends_lift trivial
  unfold createFixedCashflows
  split
  · exact hlift _
  · rw [hdir]
    refine hgen.bind fun generated _ => (hlift _).bind fun dates _ => ?_
    refine (makeCoupons_ends_any trivial (makeCoupon_ends_any hE trivial fun _ => trivial) _ _).bind
      fun coupons _ => (hlift _).bind fun last _ => Comp.ends_pure trivial

/-- The call goes on for ever exactly if the schedule loop does. -/
theorem createFixedCashflows_diverges_iff (hle : d.startDate ≤ d.matDate)
    (hdir : opts.dateDir = d.dateDir) :
    (createFixedCashflows d.startDate d.matDate d.resetFreq notional rate rule opts).Diverges ↔
      (generateDates d.startDate d.matDate d.resetFreq d.dateDir).Diverges := by
  constructor
  · intro hcall
    by_contra hgen
    -- a loop that ends is followed by what always ends
    refine (createFixedCashflows_ends_any hdir ?_).not_diverges hcall
    rcases Comp.exists_fate hgen with ⟨dates, h⟩ | ⟨f, h⟩
    · exact Or.inr ⟨dates, h, trivial⟩
    · exact Or.inl ⟨f, h, trivial⟩
  · intro hgen
    unfold createFixedCashflows
    rw [if_neg (not_lt.mpr hle), hdir]
    exact hgen.bind _

/-- A frequency stands for a tenor with a positive count, or it is thrown out. -/
theorem mapResetFreqEnumToTenor_post (resetFreq : Frequency) :
    Post (mapResetFreqEnumToTenor resetFreq) (· = .throws .outOfRange) fun tenor =>
      0 < tenor.count ∧ InInt32 tenor.count := by
  cases resetFreq with
  | kOnce => rfl
  | _ => exact ⟨by decide, by decide⟩

/-- With a frequency in the place of a tenor, the call always comes to an end. -/
theorem createFixedCashflowsOfFrequency_not_diverges (startDate matDate : Date)
    (resetFreq : Frequency) (notional rate : F) (rule : DayCountRule) (opts : Options) :
    ¬ (createFixedCashflowsOfFrequency startDate matDate resetFreq notional rate rule
      opts).Diverges := by
  have htenor := mapResetFreqEnumToTenor_post resetFreq
  have hends : (createFixedCashflowsOfFrequency startDate matDate resetFreq notional rate rule
      opts).Ends (fun _ => True) fun _ => True := by
    unfold createFixedCashflowsOfFrequency
    refine (Comp.ends_lift (htenor.imp (fun _ _ => trivial) fun _ => id)).bind ?_
    intro tenor ⟨hpos, hint⟩
    -- the count is not zero, so the loop ends, and all that follows it does
    exact createFixedCashflows_ends_any (d := ⟨opts.dateDir, startDate, matDate, tenor⟩) rfl
      (generateDates_ends_any ⟨trivial, fun _ => trivial⟩ hint hpos.ne')
  exact hends.not_diverges

/-- Going forward by a negative count of months or years, tenor arithmetic throws on a
    roll date before day number zero, and no period before that one faults. -/
def Deal.ThrowsBack (d : Deal) : Prop :=
  d.dateDir = .kForward ∧ d.resetFreq.count < 0 ∧
    (d.resetFreq.unit = .kMonths ∨ d.resetFreq.unit = .kYears) ∧
    ∃ i date e, d.rollAt i = .ok date ∧ date.julian < 0 ∧
      date.addTenor d.resetFreq = .error (.throws e) ∧ ∀ j < i, d.Computes j

/-- Up to that roll date nothing leaves the deal, so the loop comes to it. -/
theorem Deal.ThrowsBack.givesUp (h : d.ThrowsBack) (hs : 0 ≤ d.startDate.julian)
    (hle : d.startDate ≤ d.matDate) (hn : InInt32 d.resetFreq.count) :
    InInt32 d.stride ∧ d.GivesUp := by
  obtain ⟨hdir, hc, -, i, date, e, hdate, -, hthrows, hcomputes⟩ := h
  have hstride : d.stride = d.resetFreq.count := by rw [Deal.stride, hdir]
  refine ⟨hstride ▸ hn, ?_⟩
  rcases eq_or_lt_of_le hle with heq | hlt
  · exact Or.inl ⟨0, Deal.leavesAt_zero heq⟩
  -- the walk gets to the date that cannot be moved, and throws there
  refine Or.inr ⟨i, e, fun j hj => ⟨?_, hcomputes j hj⟩,
    ⟨date, hdate, Deal.rollAt_inside hs hlt hc.le hdate⟩, ?_⟩
  · obtain ⟨next, hnext⟩ := hcomputes j hj
    obtain ⟨date, hdate, -⟩ := bind_eq_ok.mp hnext
    exact ⟨date, hdate, Deal.rollAt_inside hs hlt hc.le hdate⟩
  · rw [Deal.periodAt, hdate, ok_bind, hstride, checked_eq hn, ok_bind, hthrows]
    rfl

/-- For any accepted tenor, the schedule loop returns or throws exactly if the walk along
    the roll dates leaves the deal or throws. From day number zero on, that is so for a
    deal of no length, for a positive count whose arithmetic inside the deal does not
    overflow, and for no other count that does not throw on its way back. The call goes
    on for ever exactly if the loop does. -/
theorem generateDates_terminates_iff (notional rate : F) (rule : DayCountRule) (opts : Options)
    (hle : d.startDate ≤ d.matDate) {inputString : String}
    (htenor : Tenor.ofString inputString = .ok d.resetFreq) :
    ((generateDates d.startDate d.matDate d.resetFreq d.dateDir).Finishes ↔
      InInt32 d.stride ∧ d.GivesUp) ∧
    (0 ≤ d.startDate.julian →
      ((generateDates d.startDate d.matDate d.resetFreq d.dateDir).Finishes ↔
        InInt32 d.stride ∧ d.startDate = d.matDate ∨
        (0 < d.resetFreq.count ∧ ∀ i, d.Inside (d.rollDate i) → d.Computes i) ∨
        d.ThrowsBack)) ∧
    (opts.dateDir = d.dateDir →
      ((createFixedCashflows d.startDate d.matDate d.resetFreq notional rate rule opts).Diverges ↔
        (generateDates d.startDate d.matDate d.resetFreq d.dateDir).Diverges)) := by
  have hn := ofString_inInt32 htenor
  have hiff := generateDates_finishes_iff hn
  refine ⟨hiff, fun hs => hiff.trans ⟨?_, ?_⟩, createFixedCashflows_diverges_iff hle⟩
  · -- without a positive count no roll date leaves the deal, so the walk has to throw
    intro ⟨hstride, hgives⟩
    rcases eq_or_lt_of_le hle with heq | hlt
    · exact Or.inl ⟨hstride, heq⟩
    rcases lt_or_ge 0 d.resetFreq.count with hc | hc
    · exact Or.inr (Or.inl ⟨hc, fun i => hgives.computes hs hlt hc⟩)
    rcases hgives with ⟨i, -, date, hdate, hout⟩ | ⟨i, e, hfault⟩
    · -- the walk cannot have left the deal
      exact absurd (Deal.rollAt_inside hs hlt hc hdate) hout
    · -- it threw, which takes a date below day number zero
      obtain ⟨hdir, hneg, hunit, date, hdate, hbelow, hthrows⟩ := hfault.throws_below_zero hs hlt hc
      exact Or.inr (Or.inr ⟨hdir, hneg, hunit, i, date, e, hdate, hbelow, hthrows,
        fun j hj => (hfault.1 j hj).2⟩)
  · -- each of the three conditions makes the walk give up
    intro hcond
    rcases hcond with ⟨hstride, heq⟩ | ⟨hc, hcomputes⟩ | hback
    · exact ⟨hstride, Or.inl ⟨0, Deal.leavesAt_zero heq⟩⟩
    · -- the stride of a positive count is an `int`
      have hstride : InInt32 d.stride := by
        unfold Deal.stride
        unfold InInt32 at hn ⊢
        split <;> omega
      rcases eq_or_lt_of_le hle with heq | hlt
      · exact ⟨hstride, Or.inl ⟨0, Deal.leavesAt_zero heq⟩⟩
      · exact ⟨hstride, Or.inl (Deal.leavesAt_of_computes hs hlt hc hcomputes)⟩
    · exact hback.givesUp hs hle hn

end Call

/-- With a count of zero the loop never leaves its first date. -/
theorem generateDates_diverges_zero (hlt : d.startDate < d.matDate) (hzero : d.resetFreq.count = 0)
    (hs : 0 ≤ d.startDate.julian) (hmax : d.anchor ≤ maxJulian) :
    (generateDates d.startDate d.matDate d.resetFreq d.dateDir).Diverges := by
  have hstride : d.stride = 0 := by
    unfold Deal.stride
    split <;> omega
  have hn : InInt32 d.resetFreq.count := by rw [hzero]; decide
  have hstay : Date.addTenor ⟨d.anchor⟩ ⟨0, d.resetFreq.unit⟩ = .ok ⟨d.anchor⟩ := by
    have hanchor := Deal.anchor_nonneg hs hlt.le
    have hshift : (Date.unitShift d.resetFreq.unit).shift 0 d.anchor = d.anchor :=
      (Date.unitShift d.resetFreq.unit).shift_zero _
    have := Date.addTenor_eq (n := 0) (u := d.resetFreq.unit) hanchor hmax (by rwa [hshift])
      (by rwa [hshift])
    rwa [hshift] at this
  have hroll : ∀ i, d.rollAt i = .ok ⟨d.anchor⟩ := by
    intro i
    cases i with
    | zero => rfl
    | succ i => rw [Deal.rollAt, hstride, zero_mul, hstay]
  have hperiod : ∀ i, d.periodAt i = .ok ⟨d.anchor⟩ := by
    intro i
    rw [Deal.periodAt, hroll, hroll, hstride, zero_mul, checked_eq (x := 0) (by decide), ok_bind,
      ok_bind, hstay]
    rfl
  -- a walk that ends would leave the deal or fault, and this one stays at the anchor
  by_contra hends
  rcases Comp.exists_fate hends with hreturns | ⟨f, hf⟩
  · obtain ⟨i, -, date, hdate, hout⟩ :=
      (generateDates_returns_iff hn (by rw [hstride]; decide)).mp hreturns
    exact hout (Deal.rollAt_inside hs hlt hzero.le hdate)
  · obtain ⟨i, -, -, h⟩ := (generateDates_faults_iff hn (by rw [hstride]; decide)).mp hf
    rw [hperiod] at h
    cases h

end Loops

/-- Monthly periods over four months: the loop returns, so its arithmetic is in range. -/
theorem generateDates_terminates_iff_month :
    Tenor.ofString "1M" = .ok ⟨1, .kMonths⟩ ∧
    (generateDates ⟨2460691⟩ ⟨2460811⟩ ⟨1, .kMonths⟩ .kForward).Finishes ∧
    let d : Deal := ⟨.kForward, ⟨2460691⟩, ⟨2460811⟩, ⟨1, .kMonths⟩⟩
    ∀ i, d.Inside (d.rollDate i) → d.Computes i := by
  obtain ⟨dates, hdates, -⟩ := Comp.exists_returns_of_run (g := fun s => s.startDates.length)
    (b := 4) 5 (c := generateDates ⟨2460691⟩ ⟨2460811⟩ ⟨1, .kMonths⟩ .kForward) (by decide +kernel)
  have htenor : Tenor.ofString "1M" = .ok ⟨1, .kMonths⟩ := by decide +kernel
  have hcond := ((generateDates_terminates_iff (100 : ℚ) (1 / 20) .kACT_ACT {}
    (d := ⟨.kForward, ⟨2460691⟩, ⟨2460811⟩, ⟨1, .kMonths⟩⟩)
    (by decide) htenor).2.1 (by decide)).mp (Or.inl ⟨dates, hdates⟩)
  refine ⟨htenor, Or.inl ⟨dates, hdates⟩, ?_⟩
  -- the deal is not empty and its count is positive
  rcases hcond with ⟨-, heq⟩ | ⟨-, hcomputes⟩ | ⟨-, hneg, -⟩
  · exact absurd heq (by decide)
  · exact hcomputes
  · exact absurd hneg (by decide)

/-- Periods of zero months over four months. -/
theorem generateDates_zero_months :
    (⟨2460691⟩ : Date) ≤ ⟨2460811⟩ ∧ Tenor.ofString "0M" = .ok ⟨0, .kMonths⟩ ∧
    ¬ (generateDates ⟨2460691⟩ ⟨2460811⟩ ⟨0, .kMonths⟩ .kForward).Finishes ∧
    (createFixedCashflows (F := ℚ) ⟨2460691⟩ ⟨2460811⟩ ⟨0, .kMonths⟩ 100 (1 / 20) .kACT_ACT
      { dateDir := .kForward }).Diverges := by
  have hgen := generateDates_diverges_zero
    (d := ⟨.kForward, ⟨2460691⟩, ⟨2460811⟩, ⟨0, .kMonths⟩⟩) (by decide) rfl (by decide) (by decide)
  exact ⟨by decide, by decide +kernel, fun h => h.not_diverges hgen,
    (createFixedCashflows_diverges_iff
    (d := ⟨.kForward, ⟨2460691⟩, ⟨2460811⟩, ⟨0, .kMonths⟩⟩) (by decide) rfl).mpr hgen⟩

end OA.DerivedTime
