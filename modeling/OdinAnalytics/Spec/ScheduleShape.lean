import OdinAnalytics.Spec.ScheduleCorrect

/-!
# Schedules of arbitrary dates

What holds of the result of the schedule loops on any dates, whether or not tenor
arithmetic is the calendar's there: both vectors have the same length, and they
have two elements or more exactly when one reset tenor from the anchor is still
inside the deal. The stub adjustments need no more than these lengths.

## Key results

- `generateDates_shape`: the lengths of the vectors
- `applyStubs_balanced`, `applyStubs_single`: when a long stub finds a period to keep
-/

namespace OA.DerivedTime

open Machine OA.Time

/-- One reset tenor from the anchor is still inside the deal. -/
def Deal.SecondInside (d : Deal) : Prop :=
  ∃ date, Date.addTenor ⟨d.anchor⟩ ⟨d.stride, d.resetFreq.unit⟩ = .ok date ∧ d.Inside date.julian

/-- Both vectors have the same length, and at least `n` elements. -/
def Schedule.Balanced (n : Nat) (s : Schedule) : Prop :=
  s.startDates.length = s.endDates.length ∧ n ≤ s.startDates.length

variable {d : Deal} {s s' : GenState} {n : Nat}

/-- One iteration adds one date to either list. -/
theorem Schedule.Balanced.step (h : s.dates.Balanced n) (hstep : d.loopStep s = .ok s') :
    s'.dates.Balanced (n + 1) := by
  obtain ⟨far, -, -, -, hdates⟩ := Deal.loopStep_eq_ok hstep
  obtain ⟨heq, hle⟩ := h
  -- a period adds one date to each vector
  have hone : (d.toSchedule [s.currDate] [far]).startDates.length = 1 ∧
      (d.toSchedule [s.currDate] [far]).endDates.length = 1 := by
    unfold Deal.toSchedule
    split <;> simp
  rw [hdates]
  simp only [Schedule.Balanced, List.length_append]
  omega

/-- The loop only adds to balanced vectors. -/
theorem Schedule.Balanced.loop (h : s.dates.Balanced n) {t : GenState}
    (ht : (d.loop s).Returns t) : t.dates.Balanced n := by
  have hsafe : (d.loop s).Safe (fun _ => True) fun s => s.dates.Balanced n := by
    -- every step adds a start and an end
    apply Comp.whileLoop_safe (fun s => s.dates.Balanced n)
    · intro s hs
      unfold Comp.IterPost
      simp only [post_ok, decide_eq_true_iff]
      split
      · cases hstep : d.loopStep s with
        | error f => exact trivial
        | ok s' =>
          obtain ⟨heq, hle⟩ := hs.step hstep
          exact ⟨heq, by omega⟩
      · exact hs
    · exact h
  exact hsafe.2 t ht

/-- Reversing the lists does not change their lengths. -/
theorem Schedule.Balanced.chronological {dates : Schedule} (h : dates.Balanced n) :
    (d.chronological dates).Balanced n := by
  unfold Deal.chronological
  split
  · exact h
  · simpa [Schedule.Balanced] using h

/-- The lengths of the vectors of a deal that has not reached its end yet. -/
theorem generateDates_shape (hlt : d.startDate < d.matDate) {generated : Schedule}
    (h : (generateDates d.startDate d.matDate d.resetFreq d.dateDir).Returns generated) :
    d.SecondInside ∧ generated.Balanced 2 ∨
      ¬ d.SecondInside ∧ generated.Balanced 1 ∧ generated.startDates.length = 1 := by
  rw [Deal.generateDates_eq] at h
  obtain ⟨total, htotal, h⟩ := Comp.bind_returns.mp h
  obtain ⟨t, ht, h⟩ := Comp.bind_returns.mp h
  obtain rfl := Comp.pure_returns.mp h
  have htotal : total = d.stride := by
    have := (Deal.firstTotal_post (d := d) (E := fun _ => True) trivial)
    rw [Comp.lift_returns.mp htotal] at this
    exact this
  -- the first iteration runs, since the anchor is inside
  rcases Comp.whileLoop_returns_cases ht with ⟨hout, -⟩ | ⟨s₁, -, hstep₁, ht⟩
  · simp only [Except.ok.injEq, decide_eq_false_iff_not] at hout
    exact absurd (Deal.inside_anchor hlt) hout
  have hone : s₁.dates.Balanced 1 :=
    Schedule.Balanced.step (n := 0) ⟨rfl, le_rfl⟩ hstep₁
  obtain ⟨far, -, hnext, -, hdates⟩ := Deal.loopStep_eq_ok hstep₁
  rw [htotal] at hnext
  -- whether there is a second one is up to the second roll date
  rcases Comp.whileLoop_returns_cases ht with ⟨hout, rfl⟩ | ⟨s₂, hin, hstep₂, ht⟩
  · simp only [Except.ok.injEq, decide_eq_false_iff_not] at hout
    refine Or.inr ⟨?_, hone.chronological, ?_⟩
    · intro ⟨date, hdate, hinside⟩
      rw [hnext, Except.ok.injEq] at hdate
      exact hout (hdate ▸ hinside)
    · rw [hdates]
      unfold Deal.chronological Deal.toSchedule
      cases d.dateDir <;> rfl
  · simp only [Except.ok.injEq, decide_eq_true_eq] at hin
    exact Or.inl ⟨⟨_, hnext, hin⟩, ((hone.step hstep₂).loop ht).chronological⟩

/-! ## Stub adjustments -/

/-- The direction looks at a long stub. -/
def Options.LongStub (opts : Options) : Prop :=
  opts.dateDir = .kBackward ∧ opts.frontStubType = .kLongFirst ∨
    opts.dateDir = .kForward ∧ opts.backStubType = .kLongLast

section Stubs

variable {startDate matDate : Date} {opts : Options} {generated : Schedule}

/-- The last element of a vector that is not empty can be set. -/
theorem exists_setBack {α : Type} {xs : List α} (h : 1 ≤ xs.length) (a : α) :
    ∃ ys, setBack a xs = .ok ys ∧ ys.length = xs.length := by
  cases xs with
  | nil => simp at h
  | cons x xs => exact ⟨_, rfl, by simp⟩

/-- The last element of a vector that is not empty can be taken off. -/
theorem exists_popBack {α : Type} (xs : List α) (h : 1 ≤ xs.length) :
    ∃ ys, popBack xs = .ok ys ∧ ys.length + 1 = xs.length := by
  cases xs with
  | nil => simp at h
  | cons x xs => exact ⟨_, rfl, by simp⟩

/-- A short first stub needs one period and leaves one. -/
theorem shortFirst_balanced (h : generated.Balanced 1) :
    ∃ dates, shortFirst startDate opts generated = .ok dates ∧ dates.Balanced 1 := by
  obtain ⟨_ | ⟨a, starts⟩, ends⟩ := generated
  · simp [Schedule.Balanced] at h
  · exact ⟨_, rfl, h⟩

/-- A short last stub needs one period and leaves one. -/
theorem shortLast_balanced (h : generated.Balanced 1) :
    ∃ dates, shortLast matDate opts generated = .ok dates ∧ dates.Balanced 1 := by
  obtain ⟨starts, ends⟩ := generated
  obtain ⟨heq, hle⟩ := h
  obtain ⟨ends', hends, hlen⟩ := exists_setBack (heq ▸ hle) (opts.backStubDate.valueOr matDate)
  refine ⟨⟨starts, ends'⟩, ?_, heq.trans hlen.symm, hle⟩
  unfold shortLast
  rw [hends]
  rfl

/-- With a period for each vector that is reached into, the adjustments leave one. -/
theorem applyStubs_balanced (startDate matDate : Date) (h : generated.Balanced 1)
    (hlong : opts.LongStub → generated.Balanced 2) :
    ∃ dates, applyStubs startDate matDate opts generated = .ok dates ∧ dates.Balanced 1 := by
  unfold applyStubs
  split
  · unfold stubDateAdjustments
    cases hdir : opts.dateDir with
    | kBackward =>
      cases hfront : opts.frontStubType with
      | kLongFirst =>
        -- one element of each vector is erased, and the next one is reached into
        obtain ⟨starts, ends⟩ := generated
        obtain ⟨heq, hle⟩ := hlong (Or.inl ⟨hdir, hfront⟩)
        match starts, ends, heq, hle with
        | a :: starts, c :: ends, heq, hle =>
          simp only [List.length_cons] at heq hle
          exact shortFirst_balanced ⟨by simpa using heq, by simpa using hle⟩
      | kShortFirst => exact shortFirst_balanced h
      | kNone | kShortLast | kLongLast => exact ⟨_, rfl, h⟩
    | kForward =>
      cases hback : opts.backStubType with
      | kLongLast =>
        obtain ⟨starts, ends⟩ := generated
        obtain ⟨heq, hle⟩ := hlong (Or.inr ⟨hdir, hback⟩)
        simp only at heq hle
        obtain ⟨ends', hends, hlen⟩ := exists_popBack ends (by omega)
        obtain ⟨starts', hstarts, hlen'⟩ := exists_popBack starts (by omega)
        simp only [hends, hstarts, ok_bind]
        exact shortLast_balanced ⟨by simp only; omega, by simp only; omega⟩
      | kShortLast => exact shortLast_balanced h
      | kNone | kShortFirst | kLongFirst => exact ⟨_, rfl, h⟩
  · exact ⟨_, rfl, h⟩

/-- A long stub drops the only period and reaches into what is left. -/
theorem applyStubs_single (h : generated.Balanced 1) (hone : generated.startDates.length = 1)
    (hlong : opts.LongStub) :
    applyStubs startDate matDate opts generated = .error (.undefined .emptyContainer) := by
  obtain ⟨starts, ends⟩ := generated
  obtain ⟨a, rfl⟩ := List.length_eq_one_iff.mp hone
  obtain ⟨c, rfl⟩ := List.length_eq_one_iff.mp (h.1.symm.trans hone)
  unfold applyStubs stubDateAdjustments
  -- the call is made, since the stub type is not `kNone`
  rcases hlong with ⟨hdir, hstub⟩ | ⟨hdir, hstub⟩
  · rw [if_pos (Or.inl (by rw [hstub]; nofun)), hdir, hstub]
    rfl
  · rw [if_pos (Or.inr (by rw [hstub]; nofun)), hdir, hstub]
    rfl

/-- Without periods, the adjustments do nothing or reach into an empty vector. -/
theorem applyStubs_empty (startDate matDate : Date) (opts : Options) :
    applyStubs startDate matDate opts ⟨[], []⟩ = .ok ⟨[], []⟩ ∨
    applyStubs startDate matDate opts ⟨[], []⟩ = .error (.undefined .emptyContainer) := by
  unfold applyStubs
  split
  · unfold stubDateAdjustments
    cases opts.dateDir with
    | kBackward => cases opts.frontStubType <;> first | exact Or.inl rfl | exact Or.inr rfl
    | kForward => cases opts.backStubType <;> first | exact Or.inl rfl | exact Or.inr rfl
  · exact Or.inl rfl

end Stubs

end OA.DerivedTime
