import OdinAnalytics.Spec.ScheduleShape
import OdinAnalytics.Spec.Stubs

/-!
# Long stubs against short stubs

A long stub is meant to be the short stub with its neighbouring period merged into
it. It is, wherever both calls return; but the adjustment drops a period before it
looks at how many there are, so with a single period the call reaches into an
empty vector instead of leaving that period alone.

## Key results

- `applyStubs_merge`: the adjustments of a long stub merge two periods
- `longStub_merges_iff`: the calls agree exactly if there are two periods
-/

namespace OA.DerivedTime

open Machine OA.Time

/-! ## Merging two periods -/

/-- Merge the first two periods into one, if there are two. -/
def mergeFirst : List (Date × Date) → List (Date × Date)
  | p :: q :: periods => (p.1, q.2) :: periods
  | periods => periods

/-- Merge the last two periods into one, if there are two. -/
def mergeLast : List (Date × Date) → List (Date × Date)
  | [p, q] => [(p.1, q.2)]
  | p :: periods => p :: mergeLast periods
  | [] => []

/-- The last two periods are merged into one. -/
theorem mergeLast_concat (periods : List (Date × Date)) (p q : Date × Date) :
    mergeLast (periods ++ [p, q]) = periods ++ [(p.1, q.2)] := by
  induction periods with
  | nil => rfl
  | cons r periods ih =>
    -- only the last two periods are merged
    cases periods with
    | nil => rfl
    | cons s periods =>
      rw [List.cons_append, List.cons_append] at *
      rw [mergeLast, ih]
      · rfl
      · simp

/-- Merge the stub into its neighbour, at the end where the direction puts it. -/
def Deal.merge (d : Deal) (periods : List (Date × Date)) : List (Date × Date) :=
  match d.dateDir with
  | .kForward => mergeLast periods
  | .kBackward => mergeFirst periods

/-! ## The adjustments -/

/-- A list of two or more has two elements at its end. -/
theorem exists_concat_pair {α : Type} {xs : List α} (h : 2 ≤ xs.length) :
    ∃ ys a b, xs = ys ++ [a, b] := by
  rcases List.eq_nil_or_concat' xs with rfl | ⟨ys, b, rfl⟩
  · simp at h
  rcases List.eq_nil_or_concat' ys with rfl | ⟨zs, a, rfl⟩
  · simp at h
  exact ⟨zs, a, b, by simp⟩

/-- A list of two or more has two elements at its front. -/
theorem exists_cons_pair {α : Type} {xs : List α} (h : 2 ≤ xs.length) :
    ∃ a b ys, xs = a :: b :: ys := by
  match xs, h with
  | a :: b :: ys, _ => exact ⟨a, b, ys, rfl⟩

section Pair

variable {startDate matDate a b c e : Date} {resetFreq : Tenor} {xs ys : List Date}

/-- Going forward, the short stub ends at the maturity. -/
theorem applyStubs_short_forward : applyStubs startDate matDate
    (Deal.shortOptions ⟨.kForward, startDate, matDate, resetFreq⟩) ⟨xs ++ [a, b], ys ++ [c, e]⟩ =
      .ok ⟨xs ++ [a, b], ys ++ [c, matDate]⟩ := by
  have hback := Deal.setBack_concat (ys ++ [c]) e matDate
  rw [List.append_assoc, List.append_assoc] at hback
  show (setBack matDate (ys ++ [c, e]) >>= fun ends => pure (Schedule.mk _ ends)) = _
  rw [show [c, e] = [c] ++ [e] from rfl, hback, ok_bind]
  rfl

/-- Going forward, the long stub takes the place of the last two periods. -/
theorem applyStubs_long_forward : applyStubs startDate matDate
    (Deal.longOptions ⟨.kForward, startDate, matDate, resetFreq⟩) ⟨xs ++ [a, b], ys ++ [c, e]⟩ =
      .ok ⟨xs ++ [a], ys ++ [matDate]⟩ := by
  have hends := Deal.popBack_concat (ys ++ [c]) e
  have hstarts := Deal.popBack_concat (xs ++ [a]) b
  rw [List.append_assoc] at hends hstarts
  show (popBack (ys ++ [c, e]) >>= fun ends => popBack (xs ++ [a, b]) >>= fun starts =>
    setBack matDate ends >>= fun ends => pure (Schedule.mk starts ends)) = _
  rw [show [c, e] = [c] ++ [e] from rfl, show [a, b] = [a] ++ [b] from rfl, hends, ok_bind, hstarts,
    ok_bind, Deal.setBack_concat, ok_bind]
  rfl

end Pair

variable {d : Deal} {generated short long : Schedule}

/-- On any two periods or more, the long stub is the short stub with two periods merged. -/
theorem applyStubs_merge (h : generated.Balanced 2)
    (hshort : applyStubs d.startDate d.matDate d.shortOptions generated = .ok short)
    (hlong : applyStubs d.startDate d.matDate d.longOptions generated = .ok long) :
    long.periods = d.merge short.periods := by
  obtain ⟨starts, ends⟩ := generated
  obtain ⟨heq, hle⟩ := h
  obtain ⟨_ | _, startDate, matDate, resetFreq⟩ := d
  · -- forward, the last two elements of each vector matter
    obtain ⟨xs, a, b, rfl⟩ := exists_concat_pair hle
    obtain ⟨ys, c, e, rfl⟩ := exists_concat_pair (heq ▸ hle)
    have hlen : xs.length = ys.length := by simpa using heq
    -- the short stub overwrites the last end, the long one joins the last two periods
    rw [applyStubs_short_forward, Except.ok.injEq] at hshort
    rw [applyStubs_long_forward, Except.ok.injEq] at hlong
    subst hshort hlong
    show (xs ++ [a]).zip (ys ++ [matDate]) = mergeLast ((xs ++ [a, b]).zip (ys ++ [c, matDate]))
    rw [List.zip_append hlen, List.zip_append hlen]
    exact (mergeLast_concat _ (a, c) (b, matDate)).symm
  · -- backward, the first two
    obtain ⟨a, b, xs, rfl⟩ := exists_cons_pair hle
    obtain ⟨c, e, ys, rfl⟩ := exists_cons_pair (heq ▸ hle)
    obtain rfl := Except.ok.inj hshort
    obtain rfl := Except.ok.inj hlong
    rfl

/-- These options ask for a long stub. -/
theorem longStub_longOptions : d.longOptions.LongStub := by
  unfold Options.LongStub Deal.longOptions
  split
  · exact Or.inr ⟨rfl, rfl⟩
  · exact Or.inl ⟨rfl, rfl⟩

/-! ## The calls -/

section Calls

variable {F : Type} [IntCast F] [Add F] [Mul F] [Div F] [Neg F] {notional rate : F}
  {rule : DayCountRule}

/-- One reset tenor from the anchor is inside the deal if there is a second roll date. -/
theorem Deal.SecondInside.inside (h : d.SecondInside) (hlt : d.startDate < d.matDate)
    (hnn : d.GeneratedNonneg) : d.Inside (d.rollDate 1) := by
  obtain ⟨date, hdate, hin⟩ := h
  have hgen := hnn 0 (by rw [Deal.rollDate_zero]; exact Deal.inside_anchor hlt)
  have hnext : 0 ≤ d.rollDate 1 := hgen.2.trans (Deal.farDate_le 0)
  rw [Deal.rollDate_zero] at hgen
  -- the date one tenor on is the second roll date
  have hroll : d.unit.shift d.stride d.anchor = d.rollDate 1 := by
    rw [Deal.rollDate, DateShift.roll, Nat.cast_one, mul_one]
  have hpost := Date.addTenor_post (E := fun _ => True) (n := d.stride) (u := d.resetFreq.unit)
    hgen.1 (hroll ▸ hnext) (Or.inl trivial)
  rw [hdate, post_ok] at hpost
  subst hpost
  exact hroll ▸ hin

/-- Where both calls return, they return the same coupons but for the merged ones. -/
theorem couponPeriods_merge (hlt : d.startDate < d.matDate) {short long : List (CashflowStruct F)}
    (hshort : (createFixedCashflows d.startDate d.matDate d.resetFreq notional rate rule
      d.shortOptions).Returns short)
    (hlong : (createFixedCashflows d.startDate d.matDate d.resetFreq notional rate rule
      d.longOptions).Returns long) :
    couponPeriods long = d.merge (couponPeriods short) ∧ d.SecondInside := by
  obtain ⟨-, g, dates, coupons, last, hgen, hdates, -, hall, -, rfl⟩ :=
    createFixedCashflows_returns hshort
  obtain ⟨-, g', dates', coupons', last', hgen', hdates', -, hall', -, rfl⟩ :=
    createFixedCashflows_returns hlong
  rw [Deal.shortOptions_dateDir] at hgen
  rw [Deal.longOptions_dateDir] at hgen'
  obtain rfl := hgen.unique hgen'
  rw [couponPeriods_eq hall, couponPeriods_eq hall']
  rcases generateDates_shape hlt hgen with ⟨hin, htwo⟩ | ⟨-, hone, hlen⟩
  · exact ⟨applyStubs_merge htwo hdates hdates', hin⟩
  · -- with a single period, the long stub does not return
    rw [applyStubs_single hone hlen longStub_longOptions] at hdates'
    exact nomatch hdates'

/-- With a single period, the short stub returns it and the long stub never returns. -/
theorem long_faults_of_short (hlt : d.startDate < d.matDate) {short : List (CashflowStruct F)}
    (hshort : (createFixedCashflows d.startDate d.matDate d.resetFreq notional rate rule
      d.shortOptions).Returns short) (hout : ¬ d.SecondInside) :
    (couponPeriods short).length = 1 ∧ (createFixedCashflows d.startDate d.matDate d.resetFreq
      notional rate rule d.longOptions).Faults (.undefined .emptyContainer) := by
  obtain ⟨-, g, dates, coupons, last, hgen, hdates, -, hall, -, rfl⟩ :=
    createFixedCashflows_returns hshort
  rw [Deal.shortOptions_dateDir] at hgen
  rcases generateDates_shape hlt hgen with ⟨hin, -⟩ | ⟨-, hone, hlen⟩
  · exact absurd hin hout
  constructor
  · obtain ⟨starts, ends⟩ := g
    obtain ⟨a, rfl⟩ := List.length_eq_one_iff.mp hlen
    obtain ⟨c, rfl⟩ := List.length_eq_one_iff.mp (hone.1.symm.trans hlen)
    rw [couponPeriods_eq hall]
    -- the short stub replaces one end of the only period
    obtain ⟨_ | _, startDate, matDate, resetFreq⟩ := d
    · obtain rfl := Except.ok.inj hdates
      rfl
    · obtain rfl := Except.ok.inj hdates
      rfl
  · unfold createFixedCashflows
    rw [if_neg (not_lt.mpr hlt.le), Deal.longOptions_dateDir, Comp.bind_faults]
    refine Or.inr ⟨g, hgen, Comp.bind_faults.mpr (Or.inl (Comp.lift_faults.mpr ?_))⟩
    exact applyStubs_single hone hlen longStub_longOptions

/-- On any dates, where both calls return the long stub is the short stub with two
    periods merged, and where only the short stub returns with a single period the
    long stub reaches into an empty vector. On dates from day number zero on, up to
    overflow, both calls return exactly if a second roll date is inside the deal. -/
theorem longStub_merges_iff (hlt : d.startDate < d.matDate) (hn : 0 < d.resetFreq.count)
    (hrule : rule ≠ .kACTB_ACTB) :
    (∀ short long, (createFixedCashflows d.startDate d.matDate d.resetFreq notional rate rule
        d.shortOptions).Returns short →
      (createFixedCashflows d.startDate d.matDate d.resetFreq notional rate rule
        d.longOptions).Returns long →
      couponPeriods long = d.merge (couponPeriods short)) ∧
    (∀ short, (createFixedCashflows d.startDate d.matDate d.resetFreq notional rate rule
        d.shortOptions).Returns short → ¬ d.SecondInside →
      (couponPeriods short).length = 1 ∧
      (createFixedCashflows d.startDate d.matDate d.resetFreq notional rate rule
        d.longOptions).Faults (.undefined .emptyContainer)) ∧
    (d.GeneratedNonneg →
      ¬ (createFixedCashflows d.startDate d.matDate d.resetFreq notional rate rule
        d.shortOptions).Faults .overflow →
      ¬ (createFixedCashflows d.startDate d.matDate d.resetFreq notional rate rule
        d.longOptions).Faults .overflow →
      ((∃ short long, (createFixedCashflows d.startDate d.matDate d.resetFreq notional rate rule
          d.shortOptions).Returns short ∧
        (createFixedCashflows d.startDate d.matDate d.resetFreq notional rate rule
          d.longOptions).Returns long ∧
        couponPeriods long = d.merge (couponPeriods short)) ↔ d.SecondInside)) := by
  refine ⟨fun short long hs hl => (couponPeriods_merge hlt hs hl).1,
    fun short hs hout => long_faults_of_short hlt hs hout, fun hnn hofs hofl => ?_⟩
  constructor
  · -- a long call that returns had a second period to erase
    intro ⟨short, long, hs, hl, _⟩
    exact (couponPeriods_merge hlt hs hl).2
  · -- two roll dates inside the deal are two periods, enough for both stubs
    intro hin
    obtain ⟨k, hk⟩ := Deal.exists_periods hn
    have hk₂ : 1 < k := (hk.lt_iff hn).mpr (hin.inside hlt hnn)
    obtain ⟨k, rfl⟩ : ∃ j, k = j + 2 := ⟨k - 2, by omega⟩
    have hends : (createFixedCashflows d.startDate d.matDate d.resetFreq notional rate rule
        d.shortOptions).Ends (· = .overflow) fun _ => True :=
      createFixedCashflows_ends_short rfl hrule hlt hk hnn
    have hends' : (createFixedCashflows d.startDate d.matDate d.resetFreq notional rate rule
        d.longOptions).Ends (· = .overflow) fun _ => True :=
      createFixedCashflows_ends_long rfl hrule hlt hk hnn
    obtain ⟨short, hs, -⟩ := hends.exists_returns_unless hofs
    obtain ⟨long, hl, -⟩ := hends'.exists_returns_unless hofl
    exact ⟨short, long, hs, hl, (couponPeriods_merge hlt hs hl).1⟩

end Calls

/-- Six-month periods over eighteen months and five days. -/
theorem longStub_merges_iff_backward :
    ∃ short long, (createFixedCashflows (F := ℚ) ⟨2460264⟩ ⟨2460816⟩ ⟨6, .kMonths⟩ 100 (1 / 20)
        .kACT_ACT (Deal.shortOptions ⟨.kBackward, ⟨2460264⟩, ⟨2460816⟩, ⟨6, .kMonths⟩⟩)).Returns
        short ∧
      (createFixedCashflows (F := ℚ) ⟨2460264⟩ ⟨2460816⟩ ⟨6, .kMonths⟩ 100 (1 / 20)
        .kACT_ACT (Deal.longOptions ⟨.kBackward, ⟨2460264⟩, ⟨2460816⟩, ⟨6, .kMonths⟩⟩)).Returns
        long ∧
      couponPeriods long = mergeFirst (couponPeriods short) := by
  -- four periods with the short stub, three with the long one
  obtain ⟨short, hs, -⟩ := Comp.exists_returns_of_run (g := couponPeriods) (b :=
      [(⟨2460264⟩, ⟨2460269⟩), (⟨2460269⟩, ⟨2460451⟩), (⟨2460451⟩, ⟨2460635⟩),
        (⟨2460635⟩, ⟨2460816⟩)]) 5
    (c := createFixedCashflows (F := ℚ) ⟨2460264⟩ ⟨2460816⟩ ⟨6, .kMonths⟩ 100 (1 / 20) .kACT_ACT
      (Deal.shortOptions ⟨.kBackward, ⟨2460264⟩, ⟨2460816⟩, ⟨6, .kMonths⟩⟩)) (by decide +kernel)
  obtain ⟨long, hl, -⟩ := Comp.exists_returns_of_run (g := couponPeriods) (b :=
      [(⟨2460264⟩, ⟨2460451⟩), (⟨2460451⟩, ⟨2460635⟩), (⟨2460635⟩, ⟨2460816⟩)]) 5
    (c := createFixedCashflows (F := ℚ) ⟨2460264⟩ ⟨2460816⟩ ⟨6, .kMonths⟩ 100 (1 / 20) .kACT_ACT
      (Deal.longOptions ⟨.kBackward, ⟨2460264⟩, ⟨2460816⟩, ⟨6, .kMonths⟩⟩)) (by decide +kernel)
  exact ⟨short, long, hs, hl, (longStub_merges_iff
    (d := ⟨.kBackward, ⟨2460264⟩, ⟨2460816⟩, ⟨6, .kMonths⟩⟩) (by decide) (by decide)
    (by decide)).1 short long hs hl⟩

/-- A deal of five days with a long first period of at least six months. -/
theorem longStub_single_period :
    (⟨2460811⟩ : Date) < ⟨2460816⟩ ∧
    (∃ short, (createFixedCashflows (F := ℚ) ⟨2460811⟩ ⟨2460816⟩ ⟨6, .kMonths⟩ 100 (1 / 20)
        .kACT_ACT { dateDir := .kBackward, frontStubType := .kShortFirst }).Returns short ∧
      couponPeriods short = [(⟨2460811⟩, ⟨2460816⟩)]) ∧
    (createFixedCashflows (F := ℚ) ⟨2460811⟩ ⟨2460816⟩ ⟨6, .kMonths⟩ 100 (1 / 20) .kACT_ACT
      { dateDir := .kBackward, frontStubType := .kLongFirst }).Faults
      (.undefined .emptyContainer) ∧
    ∀ long, ¬ (createFixedCashflows (F := ℚ) ⟨2460811⟩ ⟨2460816⟩ ⟨6, .kMonths⟩ 100 (1 / 20)
      .kACT_ACT { dateDir := .kBackward, frontStubType := .kLongFirst }).Returns long := by
  have hfault : (createFixedCashflows (F := ℚ) ⟨2460811⟩ ⟨2460816⟩ ⟨6, .kMonths⟩ 100 (1 / 20)
      .kACT_ACT { dateDir := .kBackward, frontStubType := .kLongFirst }).Faults
      (.undefined .emptyContainer) := ⟨3, by decide +kernel⟩
  exact ⟨by decide, Comp.exists_returns_of_run 3 (by decide +kernel), hfault,
    fun long hl => hl.not_faults hfault⟩

end OA.DerivedTime
