import OdinAnalytics.Spec.CouponCorrect
import OdinAnalytics.Spec.ScheduleShape
import OdinAnalytics.Spec.Termination

/-!
# Empty containers and null pointers

The only check that `CreateFixedCashflows` makes of its input is the order of the two
dates. It reaches into an empty vector if they are equal, or if a long stub drops
the only period, and it calls through a null pointer for the day count convention
that the factory does not know. On all other input it does neither.

## Key results

- `createFixedCashflows_ends_accessible`: how the call ends on other input
- `createFixedCashflows_not_returns`: it never returns on that input
- `createFixedCashflows_delivers_iff`: when the call throws or returns flows
-/

namespace OA.DerivedTime

open Machine OA.Time

/-! ## The call -/

/-- What the call needs of its input to stay within its vectors and to have a day
    counter: a deal of some length, a convention that the factory knows, and two
    periods where a long stub drops one. -/
structure Accessible (d : Deal) (rule : DayCountRule) (opts : Options) : Prop where
  lt : d.startDate < d.matDate
  rule_ne : rule ≠ .kACTB_ACTB
  second : opts.LongStub → d.SecondInside

section Call

variable {F : Type} [IntCast F] [Add F] [Mul F] [Div F] [Neg F] {notional rate : F}
  {rule : DayCountRule} {opts : Options} {d : Deal} {E : Fault → Prop}

/-- The loops return as many periods as the stub adjustments reach into. -/
theorem generateDates_balanced (h : d.startDate < d.matDate) {generated : Schedule}
    (hgen : (generateDates d.startDate d.matDate d.resetFreq d.dateDir).Returns generated) :
    generated.Balanced 1 ∧ (d.SecondInside → generated.Balanced 2) := by
  rcases generateDates_shape h hgen with ⟨-, htwo⟩ | ⟨hout, hone, -⟩
  · exact ⟨⟨htwo.1, by have := htwo.2; omega⟩, fun _ => htwo⟩
  · exact ⟨hone, fun hin => absurd hin hout⟩

/-- On accessible input the call ends, in exceptions, overflow, an index out of range
    or a value that is not empty. -/
theorem createFixedCashflows_ends_accessible (hE : Arithmetic E)
    (hidx : E (.undefined .indexOutOfRange)) (hdir : opts.dateDir = d.dateDir)
    (hn : 0 < d.resetFreq.count) (hint : InInt32 d.resetFreq.count) (h : Accessible d rule opts) :
    (createFixedCashflows d.startDate d.matDate d.resetFreq notional rate rule opts).Ends E
      fun cfs => cfs ≠ [] := by
  unfold createFixedCashflows
  rw [if_neg (not_lt.mpr h.lt.le), hdir]
  refine ((generateDates_ends_any hE hint hn.ne').and_returns
    fun _ => generateDates_balanced h.lt).bind fun generated hgenerated => ?_
  obtain ⟨-, hone, htwo⟩ := hgenerated
  -- the stubs find the dates they write to
  obtain ⟨dates, hdates, heq, hle⟩ := applyStubs_balanced d.startDate d.matDate hone
    fun hlong => htwo (h.second hlong)
  rw [hdates]
  refine (makeCoupons_ends heq fun p _ => makeCoupon_ends_any hE hidx
    (fun hrule => absurd hrule h.rule_ne) p.1 p.2).bind fun coupons hcoupons => ?_
  -- and there is a coupon for the principal to follow
  obtain ⟨last, hlast⟩ := exists_back (hcoupons ▸ hle)
  rw [hlast]
  exact Comp.ends_pure (by simp)

/-- A deal of no length has no periods. -/
theorem generateDates_ends_empty (hE : E .overflow) (heq : d.startDate = d.matDate) :
    (generateDates d.startDate d.matDate d.resetFreq d.dateDir).Ends E (· = ⟨[], []⟩) := by
  -- the anchor is not inside a deal of no length, so the loop is over at once
  have hout : ¬ d.Inside d.anchor := Deal.not_inside_anchor heq
  rw [Deal.generateDates_eq]
  apply (Comp.ends_lift (Deal.firstTotal_post hE)).bind
  intro total _
  have hloop : (d.loop ⟨⟨d.anchor⟩, total, ⟨[], []⟩⟩).Returns ⟨⟨d.anchor⟩, total, ⟨[], []⟩⟩ :=
    Comp.whileLoop_returns_done (congrArg Except.ok (decide_eq_false hout))
  refine Comp.Ends.bind_eq (Or.inr ⟨_, hloop, rfl⟩) (Comp.ends_pure ?_)
  unfold Deal.chronological
  split <;> rfl

/-- On other input the call never returns. -/
theorem createFixedCashflows_not_returns (hdir : opts.dateDir = d.dateDir)
    (h : ¬ Accessible d rule opts) (cfs : List (CashflowStruct F)) :
    ¬ (createFixedCashflows d.startDate d.matDate d.resetFreq notional rate rule opts).Returns
      cfs := by
  intro hcfs
  obtain ⟨hle, generated, dates, coupons, last, hgen, hdates, -, hall, hlast, -⟩ :=
    createFixedCashflows_returns hcfs
  obtain ⟨p, hp, hmade⟩ := exists_made hall (List.mem_of_getLast? hlast)
  rw [hdir] at hgen
  have hlt : d.startDate < d.matDate := by
    apply hle.lt_of_ne
    intro heq
    -- without periods there is no last coupon
    obtain rfl := (generateDates_ends_empty (E := fun _ => True) trivial heq).of_returns hgen
    rcases applyStubs_empty d.startDate d.matDate opts with hempty | hempty
    · rw [hempty, Except.ok.injEq] at hdates
      subst hdates
      exact nomatch hp
    · exact nomatch hempty.symm.trans hdates
  refine h ⟨hlt, ?_, fun hlong => ?_⟩
  · intro hrule
    subst hrule
    obtain ⟨c, hc, -⟩ := hmade.counter
    exact nomatch hc
  · rcases generateDates_shape hlt hgen with ⟨hin, -⟩ | ⟨-, hone, hlen⟩
    · exact hin
    · rw [applyStubs_single hone hlen hlong] at hdates
      exact nomatch hdates

/-- Without a day counter, a coupon comes to the null pointer. -/
theorem makeCoupon_ends_null {resetFreq : Tenor} (hE : E .overflow)
    (hidx : E (.undefined .indexOutOfRange)) (hnull : E (.undefined .nullPointer)) (us ue : Date) :
    (makeCoupon resetFreq notional rate .kACTB_ACTB opts (generateDayCounter .kACTB_ACTB)
      us ue).Ends
      E fun _ => False := by
  unfold makeCoupon
  apply (adjust_ends_any hE hidx _ _).bind
  intro s _
  apply (adjust_ends_any hE hidx _ _).bind
  intro e _
  apply (adjust_ends_any hE hidx _ _).bind
  intro p _
  exact Or.inl ⟨_, Comp.bind_faults.mpr (Or.inl (Comp.lift_faults.mpr rfl)), hnull⟩

/-- On other input, unless tenor arithmetic throws first, the call comes to an empty
    vector or to the null pointer, up to overflow and an index out of range. -/
theorem createFixedCashflows_ends_inaccessible (hE : E .overflow)
    (hidx : E (.undefined .indexOutOfRange)) (hempty : E (.undefined .emptyContainer))
    (hnull : E (.undefined .nullPointer)) (hle : d.startDate ≤ d.matDate)
    (hdir : opts.dateDir = d.dateDir) (hn : 0 < d.resetFreq.count)
    (hint : InInt32 d.resetFreq.count) (h : ¬ Accessible d rule opts)
    (hthrows : ∀ e,
      ¬ (generateDates d.startDate d.matDate d.resetFreq d.dateDir).Faults (.throws e)) :
    (createFixedCashflows d.startDate d.matDate d.resetFreq notional rate rule opts).Ends E
      fun _ => False := by
  unfold createFixedCashflows
  rw [if_neg (not_lt.mpr hle), hdir]
  rcases hle.eq_or_lt with heq | hlt
  · -- without periods, the call comes to an empty vector in the stubs or at the end
    apply (generateDates_ends_empty hE heq).bind_eq
    rcases applyStubs_empty d.startDate d.matDate opts with hstubs | hstubs
    · rw [hstubs]
      exact Comp.ends_lift (x := .error _) hempty
    · rw [hstubs]
      exact Comp.ends_lift (x := .error _) hempty
  · have hgen : (generateDates d.startDate d.matDate d.resetFreq d.dateDir).Ends E
        fun _ => True := by
      rcases generateDates_ends_any (d := d) (E := fun f => f = .overflow ∨ ∃ e, f = .throws e)
        ⟨Or.inl rfl, fun e => Or.inr ⟨e, rfl⟩⟩ hint hn.ne' with ⟨f, hf, rfl | ⟨e, rfl⟩⟩ | hreturns
      · exact Or.inl ⟨_, hf, hE⟩
      · exact absurd hf (hthrows e)
      · exact Or.inr hreturns
    refine (hgen.and_returns fun _ hreturns => And.intro (generateDates_balanced hlt hreturns)
      (generateDates_shape hlt hreturns)).bind fun generated hgenerated => ?_
    obtain ⟨-, ⟨hone, htwo⟩, hshape⟩ := hgenerated
    by_cases hsecond : opts.LongStub → d.SecondInside
    · -- what is left is the convention without a day counter
      obtain rfl : rule = .kACTB_ACTB := by
        by_contra hrule
        exact h ⟨hlt, hrule, hsecond⟩
      obtain ⟨dates, hdates, heq, hlen⟩ := applyStubs_balanced d.startDate d.matDate hone
        fun hlong => htwo (hsecond hlong)
      rw [hdates]
      obtain ⟨starts, ends⟩ := dates
      -- the first coupon already asks for the counter
      match starts, ends, heq, hlen with
      | s :: starts, e :: ends, _, _ =>
        simp only [Comp.liftM_eq, Comp.lift_ok_bind]
        refine Comp.Ends.bind (Q := fun _ => False) ?_ fun _ h => h.elim
        exact (makeCoupon_ends_null hE hidx hnull s e).bind fun _ h => h.elim
    · -- a long stub on a single period
      obtain ⟨hlong, hout⟩ := Classical.not_imp.mp hsecond
      rcases hshape with ⟨hin, -⟩ | ⟨-, -, hlen⟩
      · exact absurd hin hout
      · rw [applyStubs_single hone hlen hlong]
        exact Comp.ends_lift (x := .error _) hempty

/-- A positive count has a stride that an `int` holds. -/
theorem Deal.inInt32_stride (hn : 0 < d.resetFreq.count) (hint : InInt32 d.resetFreq.count) :
    InInt32 d.stride := by
  unfold Deal.stride
  unfold InInt32 at *
  split <;> omega

/-- From day number zero on, positive counts do not throw on their way. -/
theorem Deal.not_throws (hs : 0 ≤ d.startDate.julian) (hle : d.startDate ≤ d.matDate)
    (hn : 0 < d.resetFreq.count) (e : Exn) :
    ¬ (generateDates d.startDate d.matDate d.resetFreq d.dateDir).Faults (.throws e) := by
  intro hthrows
  have hends : (generateDates d.startDate d.matDate d.resetFreq d.dateDir).Ends (· = .overflow)
      fun _ => True := by
    rcases hle.eq_or_lt with heq | hlt
    · exact (generateDates_ends_empty (E := (· = .overflow)) rfl heq).weaken
        fun _ _ => trivial
    · -- from day number zero on, adding a tenor at most overflows
      obtain ⟨k, hk⟩ := Deal.exists_periods hn
      exact (generateDates_related (E := (· = .overflow)) rfl
        (Deal.tracks_agrees rfl hk hn hs hlt)).weaken fun _ _ => trivial
  exact nomatch hends.safe.1 _ hthrows

/-- The call throws, or returns at least one flow. -/
def Delivers (call : Comp (List (CashflowStruct F))) : Prop :=
  (∃ cfs, call.Returns cfs ∧ cfs ≠ []) ∨ ∃ e, call.Faults (.throws e)

/-- What the loops throw, the call throws. -/
theorem createFixedCashflows_faults (hle : d.startDate ≤ d.matDate)
    (hdir : opts.dateDir = d.dateDir) {f : Fault}
    (hf : (generateDates d.startDate d.matDate d.resetFreq d.dateDir).Faults f) :
    (createFixedCashflows d.startDate d.matDate d.resetFreq notional rate rule opts).Faults f := by
  unfold createFixedCashflows
  rw [if_neg (not_lt.mpr hle), hdir]
  exact Comp.bind_faults.mpr (Or.inl hf)

/-- A deal that can be accessed returns flows or throws, unless it comes to other undefined
    behaviour. -/
theorem delivers_of_accessible (hdir : opts.dateDir = d.dateDir) (hn : 0 < d.resetFreq.count)
    (hint : InInt32 d.resetFreq.count) (h : Accessible d rule opts)
    (hof : ¬ (createFixedCashflows d.startDate d.matDate d.resetFreq notional rate rule opts).Faults
      .overflow)
    (hidx : ¬ (createFixedCashflows d.startDate d.matDate d.resetFreq notional rate rule
      opts).Faults (.undefined .indexOutOfRange)) :
    Delivers (createFixedCashflows d.startDate d.matDate d.resetFreq notional rate rule opts) := by
  have hends : (createFixedCashflows d.startDate d.matDate d.resetFreq notional rate rule
      opts).Ends
      (fun f => f = .overflow ∨ f = .undefined .indexOutOfRange ∨ ∃ e, f = .throws e)
      fun cfs => cfs ≠ [] :=
    createFixedCashflows_ends_accessible
      ⟨Or.inl rfl, fun e => Or.inr (Or.inr ⟨e, rfl⟩)⟩ (Or.inr (Or.inl rfl)) hdir hn hint h
  -- two of the faults are excluded, the third is an exception
  rcases hends with ⟨f, hf, rfl | rfl | ⟨e, rfl⟩⟩ | ⟨cfs, hcfs, hne⟩
  · exact absurd hf hof
  · exact absurd hf hidx
  · exact Or.inr ⟨e, hf⟩
  · exact Or.inl ⟨cfs, hcfs, hne⟩

/-- On other input all that is left is undefined behaviour, unless tenor arithmetic
    throws. -/
theorem accessible_of_delivers (hle : d.startDate ≤ d.matDate) (hdir : opts.dateDir = d.dateDir)
    (hn : 0 < d.resetFreq.count) (hint : InInt32 d.resetFreq.count)
    (hthrows : ∀ e,
      ¬ (generateDates d.startDate d.matDate d.resetFreq d.dateDir).Faults (.throws e))
    (h : Delivers (createFixedCashflows d.startDate d.matDate d.resetFreq notional rate rule
      opts)) : Accessible d rule opts := by
  by_contra hinaccessible
  -- otherwise the call neither returns nor throws
  have hends : (createFixedCashflows d.startDate d.matDate d.resetFreq notional rate rule
      opts).Ends (fun f => ∃ u, f = .undefined u) fun _ => False :=
    createFixedCashflows_ends_inaccessible ⟨_, rfl⟩ ⟨_, rfl⟩ ⟨_, rfl⟩ ⟨_, rfl⟩ hle hdir hn hint
      hinaccessible hthrows
  rcases h with ⟨cfs, hcfs, -⟩ | ⟨e, he⟩
  · exact hends.safe.2 cfs hcfs
  · obtain ⟨u, hu⟩ := hends.safe.1 _ he
    exact nomatch hu

/-- On accessible input the call reads no empty vector and no null pointer, and what
    it returns is not empty; on other input it never returns. Up to overflow and an
    index out of range, it throws or returns flows exactly if its input is accessible
    or tenor arithmetic throws on the way, which needs dates before day number zero. -/
theorem createFixedCashflows_delivers_iff (hle : d.startDate ≤ d.matDate)
    (hdir : opts.dateDir = d.dateDir) (hn : 0 < d.resetFreq.count)
    (hint : InInt32 d.resetFreq.count) :
    (Accessible d rule opts →
      ¬ (createFixedCashflows d.startDate d.matDate d.resetFreq notional rate rule opts).Faults
        (.undefined .emptyContainer) ∧
      ¬ (createFixedCashflows d.startDate d.matDate d.resetFreq notional rate rule opts).Faults
        (.undefined .nullPointer) ∧
      ∀ cfs, (createFixedCashflows d.startDate d.matDate d.resetFreq notional rate rule
        opts).Returns cfs → cfs ≠ []) ∧
    (¬ Accessible d rule opts → ∀ cfs, ¬ (createFixedCashflows d.startDate d.matDate d.resetFreq
      notional rate rule opts).Returns cfs) ∧
    (¬ (createFixedCashflows d.startDate d.matDate d.resetFreq notional rate rule opts).Faults
        .overflow →
      ¬ (createFixedCashflows d.startDate d.matDate d.resetFreq notional rate rule opts).Faults
        (.undefined .indexOutOfRange) →
      (Delivers (createFixedCashflows d.startDate d.matDate d.resetFreq notional rate rule opts) ↔
        Accessible d rule opts ∨ ∃ i e, d.FaultsAt i (.throws e))) ∧
    (0 ≤ d.startDate.julian → ∀ i e, ¬ d.FaultsAt i (.throws e)) := by
  have hstride := Deal.inInt32_stride hn hint
  refine ⟨fun h => ?_, fun h => createFixedCashflows_not_returns hdir h, fun hof hidx => ?_,
    fun hs i e hfault => ?_⟩
  · -- neither of the two accesses faults
    have hends : (createFixedCashflows d.startDate d.matDate d.resetFreq notional rate rule
        opts).Ends (fun f => f ≠ .undefined .emptyContainer ∧ f ≠ .undefined .nullPointer)
        fun cfs => cfs ≠ [] :=
      createFixedCashflows_ends_accessible ⟨⟨nofun, nofun⟩, fun _ => ⟨nofun, nofun⟩⟩
        ⟨nofun, nofun⟩ hdir hn hint h
    obtain ⟨hfaults, hreturns⟩ := hends.safe
    exact ⟨fun hf => (hfaults _ hf).1 rfl, fun hf => (hfaults _ hf).2 rfl, hreturns⟩
  · constructor
    · -- a call that delivers has a schedule it can access, or the schedule throws
      intro hdelivers
      by_contra hnot
      rw [not_or] at hnot
      obtain ⟨hinaccessible, hnofault⟩ := hnot
      have hthrows : ∀ e,
          ¬ (generateDates d.startDate d.matDate d.resetFreq d.dateDir).Faults (.throws e) := by
        intro e he
        obtain ⟨i, hi⟩ := (generateDates_faults_iff hint hstride).mp he
        exact hnofault ⟨i, e, hi⟩
      exact hinaccessible (accessible_of_delivers hle hdir hn hint hthrows hdelivers)
    · intro hcond
      -- either condition makes it deliver
      rcases hcond with h | ⟨i, e, hfault⟩
      · exact delivers_of_accessible hdir hn hint h hof hidx
      · have hthrows := (generateDates_faults_iff hint hstride).mpr ⟨i, hfault⟩
        exact Or.inr ⟨e, createFixedCashflows_faults hle hdir hthrows⟩
  · exact Deal.not_throws hs hle hn e ((generateDates_faults_iff hint hstride).mpr ⟨i, hfault⟩)

end Call

/-- Six-month periods over a year, with a long first period. -/
theorem createFixedCashflows_delivers_iff_long :
    Delivers (createFixedCashflows (F := ℚ) ⟨2460811⟩ ⟨2461176⟩ ⟨6, .kMonths⟩ 100 (1 / 20) .kACT_360
      { dateDir := .kBackward, frontStubType := .kLongFirst }) := by
  obtain ⟨cfs, hcfs, -⟩ := Comp.exists_returns_of_run (g := List.length) (b := 2) 5
    (c := createFixedCashflows (F := ℚ) ⟨2460811⟩ ⟨2461176⟩ ⟨6, .kMonths⟩ 100 (1 / 20) .kACT_360
      { dateDir := .kBackward, frontStubType := .kLongFirst }) (by decide +kernel)
  refine ((createFixedCashflows_delivers_iff
    (d := ⟨.kBackward, ⟨2460811⟩, ⟨2461176⟩, ⟨6, .kMonths⟩⟩) (by decide) rfl (by decide)
    (by decide)).2.2.1 hcfs.not_faults hcfs.not_faults).mpr (Or.inl ⟨by decide, by decide, ?_⟩)
  -- six months before the end there is a second period
  exact fun _ => ⟨⟨2460995⟩, by decide +kernel, by decide⟩

/-- A deal of no length, and a convention that the factory does not know. -/
theorem createFixedCashflows_empty_and_null :
    (createFixedCashflows (F := ℚ) ⟨2460811⟩ ⟨2460811⟩ ⟨6, .kMonths⟩ 100 (1 / 20) .kACT_ACT
      {}).Faults (.undefined .emptyContainer) ∧
    (createFixedCashflows (F := ℚ) ⟨2460811⟩ ⟨2461176⟩ ⟨6, .kMonths⟩ 100 (1 / 20) .kACTB_ACTB
      {}).Faults (.undefined .nullPointer) ∧
    ¬ Delivers (createFixedCashflows (F := ℚ) ⟨2460811⟩ ⟨2460811⟩ ⟨6, .kMonths⟩ 100 (1 / 20)
      .kACT_ACT {}) := by
  have hempty : (createFixedCashflows (F := ℚ) ⟨2460811⟩ ⟨2460811⟩ ⟨6, .kMonths⟩ 100 (1 / 20)
      .kACT_ACT {}).Faults (.undefined .emptyContainer) := ⟨3, by decide +kernel⟩
  refine ⟨hempty, ⟨5, by decide +kernel⟩, ?_⟩
  intro hdelivers
  -- what faults neither returns nor throws
  rcases hdelivers with ⟨cfs, hcfs, -⟩ | ⟨e, he⟩
  · exact hcfs.not_faults hempty
  · exact nomatch he.unique hempty

end OA.DerivedTime
