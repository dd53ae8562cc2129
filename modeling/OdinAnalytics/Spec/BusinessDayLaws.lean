import OdinAnalytics.Spec.CalendarCorrect

/-!
# Laws of business day walks

How the walks of `AddBusinessDays` on one calendar relate to each other: one walk
after another, back again, and side by side. The laws are facts about the days the
walks stop on (`IsStop`); a walk that stays on day numbers from zero on returns the
day it stops on.

## Key results

- `IsStop.add`: a walk in two parts
- `IsStop.neg`: from a business day, the way back
- `addBusinessDays_laws`: composition, inverse and monotonicity of the loop
-/

namespace OA.Time

open Machine

namespace Calendar

variable {cal : Calendar} {n base r : Int}

/-! ## Stops -/

/-- A walk forward does not stop before its base. -/
theorem IsStop.le (h : cal.IsStop n base r) (hn : 0 ≤ n) : base ≤ r := by
  rcases hn.eq_or_lt with rfl | hn
  · exact (h.zero rfl).ge
  · exact (h.lt hn).le

/-- A walk backward does not stop after its base. -/
theorem IsStop.ge (h : cal.IsStop n base r) (hn : n ≤ 0) : r ≤ base := by
  rcases hn.eq_or_lt with rfl | hn
  · exact (h.zero rfl).le
  · exact (h.gt hn).le

/-- A walk stops at one day only. -/
theorem IsStop.unique {r' : Int} (h : cal.IsStop n base r) (h' : cal.IsStop n base r') : r = r' :=
  le_antisymm (h.mono h' le_rfl) (h'.mono h le_rfl)

/-- A walk over no business days stops where it is. -/
theorem isStop_zero : cal.IsStop 0 base base :=
  ⟨fun _ => rfl, by omega, by omega⟩

/-- One walk after another in the same direction is a walk of all their days. -/
theorem IsStop.add {a b m : Int} (hab : 0 ≤ a ∧ 0 ≤ b ∨ a ≤ 0 ∧ b ≤ 0)
    (h : cal.IsStop a base m) (h' : cal.IsStop b m r) : cal.IsStop (a + b) base r := by
  rcases eq_or_ne a 0 with rfl | ha
  · rwa [zero_add, ← h.zero rfl]
  rcases eq_or_ne b 0 with rfl | hb
  · rwa [add_zero, h'.zero rfl]
  -- the business days passed add up, going forward or back
  rcases hab with hab | hab
  · have hcard := Walk.card_Ioc_add cal.Business (h.le hab.1) (h'.le hab.2)
    obtain ⟨-, hm⟩ := h.after (by omega)
    obtain ⟨hr, hr'⟩ := h'.after (by omega)
    exact ⟨by omega, fun _ => ⟨hr, by omega⟩, by omega⟩
  · have hcard := Walk.card_Ico_add cal.Business (h'.ge hab.2) (h.ge hab.1)
    obtain ⟨-, hm⟩ := h.before (by omega)
    obtain ⟨hr, hr'⟩ := h'.before (by omega)
    exact ⟨by omega, by omega, fun _ => ⟨hr, by omega⟩⟩

/-- The walk from a business day leads back to it: the two ends change their roles. -/
theorem IsStop.neg (hbase : cal.Business base) (h : cal.IsStop n base r) :
    cal.IsStop (-n) r base := by
  rcases lt_trichotomy n 0 with hn | rfl | hn
  · obtain ⟨hr, hcard⟩ := h.before hn
    -- between two business days the count is the same from either end
    rw [← Walk.card_Ioc_eq_card_Ico (h.gt hn).le hr hbase] at hcard
    exact ⟨by omega, fun _ => ⟨hbase, hcard⟩, by omega⟩
  · rw [neg_zero, h.zero rfl]
    exact isStop_zero
  · obtain ⟨hr, hcard⟩ := h.after hn
    rw [Walk.card_Ioc_eq_card_Ico (h.lt hn).le hbase hr] at hcard
    exact ⟨by omega, by omega, fun _ => ⟨hbase, by omega⟩⟩

/-- A walk passes at least as many days as it counts. -/
theorem IsStop.natAbs_le (h : cal.IsStop n base r) : n.natAbs ≤ (r - base).natAbs := by
  -- no more business days than days
  have hpass : ∀ s : Finset Int, (s.filter cal.Business).card ≤ s.card :=
    fun s => Finset.card_filter_le s _
  rcases lt_trichotomy n 0 with hn | rfl | hn
  · have := hpass (Finset.Ico r base)
    rw [Int.card_Ico] at this
    have := (h.before hn).2
    omega
  · simp
  · have := hpass (Finset.Ioc base r)
    rw [Int.card_Ioc] at this
    have := (h.after hn).2
    omega

/-! ## Runs of the loop -/

/-- The walk of `n` business days from `base` is on day numbers from zero on that fit
    an `int`. -/
def Stays (cal : Calendar) (n : Int) (base : Date) : Prop :=
  ∀ r, cal.IsStop n base.julian r → 0 ≤ min base.julian r ∧ max base.julian r ≤ 2147483647

/-- A walk between two `int`s that are not negative stays in range. -/
theorem IsStop.stays {base r : Date} (h : cal.IsStop n base.julian r.julian)
    (hlo : 0 ≤ min base.julian r.julian) (hhi : max base.julian r.julian ≤ 2147483647) :
    cal.Stays n base := by
  intro r' h'
  rw [h'.unique h]
  exact ⟨hlo, hhi⟩

/-- A walk that stays in range returns its stop. -/
theorem IsStop.returns {base r : Date} (h : cal.IsStop n base.julian r.julian)
    (hlo : 0 ≤ min base.julian r.julian) (hhi : max base.julian r.julian ≤ 2147483647) :
    (cal.addBusinessDays n base).Returns r := by
  refine addBusinessDays_returns_iff.mpr ⟨?_, h.walks hlo hhi⟩
  have := h.natAbs_le
  exact ⟨by omega, by omega⟩

/-- A walk that stays in range returns the day that it stops at. -/
theorem Stays.returns {base r : Date} (hs : cal.Stays n base)
    (h : cal.IsStop n base.julian r.julian) : (cal.addBusinessDays n base).Returns r :=
  h.returns (hs _ h).1 (hs _ h).2

/-- The three laws of `addBusinessDays`: days of one sign are counted in one walk or in
    two, the days counted from a business day are counted back to it, and a later base date
    leads to no earlier day. -/
theorem addBusinessDays_laws (hcal : cal.HasBusinessWeekday) :
    (∀ a b d, (0 ≤ a ∧ 0 ≤ b ∨ a ≤ 0 ∧ b ≤ 0) → cal.Stays (a + b) d →
      ∃ m r, (cal.addBusinessDays a d).Returns m ∧ (cal.addBusinessDays b m).Returns r ∧
        (cal.addBusinessDays (a + b) d).Returns r) ∧
    (∀ n d, cal.Business d.julian → cal.Stays n d →
      ∃ r, (cal.addBusinessDays n d).Returns r ∧ (cal.addBusinessDays (-n) r).Returns d) ∧
    (∀ n d₁ d₂, d₁ ≤ d₂ → cal.Stays n d₁ → cal.Stays n d₂ →
      ∃ r₁ r₂, (cal.addBusinessDays n d₁).Returns r₁ ∧ (cal.addBusinessDays n d₂).Returns r₂ ∧
        r₁ ≤ r₂) := by
  refine ⟨?_, ?_, ?_⟩
  · intro a b d hab hs
    obtain ⟨m, hm⟩ := exists_isStop hcal a d.julian
    obtain ⟨r, hr⟩ := exists_isStop hcal b m
    have hstop := hm.add hab hr
    obtain ⟨hlo, hhi⟩ := hs r hstop
    -- the first walk stops between the two ends of the whole one
    have hbetween : min d.julian r ≤ m ∧ m ≤ max d.julian r := by
      rcases hab with hab | hab
      · have := hm.le hab.1
        have := hr.le hab.2
        omega
      · have := hm.ge hab.1
        have := hr.ge hab.2
        omega
    refine ⟨⟨m⟩, ⟨r⟩, IsStop.returns hm ?_ ?_, IsStop.returns hr ?_ ?_, hs.returns hstop⟩
    all_goals
      simp only
      omega
  · intro n d hd hs
    obtain ⟨r, hr⟩ := exists_isStop hcal n d.julian
    obtain ⟨hlo, hhi⟩ := hs r hr
    refine ⟨⟨r⟩, hs.returns hr, IsStop.returns (hr.neg hd) ?_ ?_⟩
    · rwa [min_comm]
    · rwa [max_comm]
  · intro n d₁ d₂ hd hs₁ hs₂
    obtain ⟨r₁, hr₁⟩ := exists_isStop hcal n d₁.julian
    obtain ⟨r₂, hr₂⟩ := exists_isStop hcal n d₂.julian
    exact ⟨⟨r₁⟩, ⟨r₂⟩, hs₁.returns hr₁, hs₂.returns hr₂, hr₁.mono hr₂ hd⟩

/-- Over a weekend and the holiday after it: one and two business days from a Saturday,
    two from the Monday and back, and three from the Saturday and from the Monday. -/
theorem addBusinessDays_laws_weekend :
    (∃ m r, (addBusinessDays ⟨{5, 6}, "TST", {2460004}⟩ 1 ⟨2460001⟩).Returns m ∧
      (addBusinessDays ⟨{5, 6}, "TST", {2460004}⟩ 2 m).Returns r ∧
      (addBusinessDays ⟨{5, 6}, "TST", {2460004}⟩ (1 + 2) ⟨2460001⟩).Returns r) ∧
    (∃ r, (addBusinessDays ⟨{5, 6}, "TST", {2460004}⟩ 2 ⟨2460003⟩).Returns r ∧
      (addBusinessDays ⟨{5, 6}, "TST", {2460004}⟩ (-2) r).Returns ⟨2460003⟩) ∧
    ∃ r₁ r₂, (addBusinessDays ⟨{5, 6}, "TST", {2460004}⟩ 3 ⟨2460001⟩).Returns r₁ ∧
      (addBusinessDays ⟨{5, 6}, "TST", {2460004}⟩ 3 ⟨2460003⟩).Returns r₂ ∧ r₁ ≤ r₂ := by
  -- the walks needed stay on day numbers from zero on
  have hsat : Stays ⟨{5, 6}, "TST", {2460004}⟩ 3 ⟨2460001⟩ :=
    IsStop.stays (r := ⟨2460006⟩) ⟨by decide, by decide, by decide⟩ (by decide) (by decide)
  have hmon : Stays ⟨{5, 6}, "TST", {2460004}⟩ 3 ⟨2460003⟩ :=
    IsStop.stays (r := ⟨2460007⟩) ⟨by decide, by decide, by decide⟩ (by decide) (by decide)
  have hmon' : Stays ⟨{5, 6}, "TST", {2460004}⟩ 2 ⟨2460003⟩ :=
    IsStop.stays (r := ⟨2460006⟩) ⟨by decide, by decide, by decide⟩ (by decide) (by decide)
  have hcal : (⟨{5, 6}, "TST", {2460004}⟩ : Calendar).HasBusinessWeekday := by decide
  obtain ⟨hadd, hneg, hmono⟩ := addBusinessDays_laws hcal
  exact ⟨hadd 1 2 ⟨2460001⟩ (by decide) hsat, hneg 2 ⟨2460003⟩ (by decide) hmon',
    hmono 3 ⟨2460001⟩ ⟨2460003⟩ (by decide) hsat hmon⟩

end Calendar

end OA.Time
