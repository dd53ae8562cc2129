import OdinAnalytics.Spec.BusinessDayLaws
import OdinAnalytics.Spec.CalendarFileCorrect

/-!
# When the business day walks end

`AddBusinessDays`, `GetNextBusinessDay` and `GetPrevBusinessDay` on any calendar
and any date: they look for business days as long as the day numbers last, and
index the weekend bits with the weekday of every day they pass. Nothing checks that
there is a business day to find, or that the weekday is an index.

## Key results

- `walks_iff_inReach`: the business days that can be walked to
- `walks_return_iff`: when the three loops return
-/

namespace OA.Time

open Machine

namespace Calendar

variable {cal : Calendar} {n base r : Int}

/-- There are `n` business days to walk to: between the base date and the last `int`, or day
    number zero. From before day number zero only the very next day can be one. -/
def InReach (cal : Calendar) (n base : Int) : Prop :=
  n = 0 ∨
  0 < n ∧ (-1 ≤ base ∧ n ≤ ((Finset.Ioc base 2147483647).filter cal.Business).card ∨
    n = 1 ∧ 7 ∣ base + 1 ∧ cal.Business (base + 1)) ∨
  n < 0 ∧ (0 ≤ base ∧ -n ≤ ((Finset.Ico 0 base).filter cal.Business).card ∨
    n = -1 ∧ 7 ∣ base - 1 ∧ cal.Business (base - 1))

/-- Through negative day numbers a walk is one step long: of two days in a row, one is no
    multiple of seven. -/
theorem Walks.next_of_neg (hw : cal.Walks n base r) (hn : n ≠ 0) (hneg : base + dir n < 0) :
    r = base + dir n ∧ 7 ∣ base + dir n := by
  obtain ⟨k, hk, rfl, hpass⟩ := walks_iff.mp hw
  have hpos : 0 < k := hk.pos (Int.natAbs_pos.mpr hn)
  have hfirst := (hpass 0 hpos).2
  -- of two days in a row below zero one has no weekday
  have hone : ¬ 1 < k := by
    intro hlt
    have hsecond := (hpass 1 hlt).2
    unfold Indexed at hfirst hsecond
    rcases dir_eq n with hdir | hdir
    · rw [hdir] at hfirst hsecond hneg
      omega
    · rw [hdir] at hfirst hsecond hneg
      omega
  obtain rfl : k = 1 := by omega
  have hdvd := hfirst.resolve_left (by simpa using hneg)
  exact ⟨by simp, by simpa using hdvd⟩

/-- A walk that returns has business days within reach. -/
theorem Walks.inReach (hw : cal.Walks n base r) : cal.InReach n base := by
  have hle := hw.stop.natAbs_le
  -- backward, at once, or forward
  rcases lt_trichotomy n 0 with hn | rfl | hn
  · have hlt := hw.stop.gt hn
    obtain ⟨hb, hcard⟩ := hw.stop.before hn
    refine Or.inr (Or.inr ⟨hn, ?_⟩)
    by_cases hbase : 0 ≤ base
    · -- day number -1 has no weekday, so the walk ends before it
      have hr : 0 ≤ r := by
        by_contra hr
        have := (hw.passes (-1) (Or.inr ⟨by omega, by omega⟩)).2
        exact absurd this (by decide)
      refine Or.inl ⟨hbase, ?_⟩
      rw [← hcard]
      exact_mod_cast Finset.card_le_card
        (Finset.filter_subset_filter _ (Finset.Ico_subset_Ico_left hr))
    · have hdir : dir n = -1 := if_pos hn
      obtain ⟨rfl, hdvd⟩ := hw.next_of_neg hn.ne (by omega)
      rw [hdir] at hb hdvd hle
      exact Or.inr ⟨by omega, hdvd, hb⟩
  · exact Or.inl rfl
  · have hlt := hw.stop.lt hn
    obtain ⟨hb, hcard⟩ := hw.stop.after hn
    refine Or.inr (Or.inl ⟨hn, ?_⟩)
    by_cases hbase : -1 ≤ base
    · -- the walk stops on an `int`
      have hr := (hw.passes r (Or.inl ⟨hlt, le_rfl⟩)).1.2
      refine Or.inl ⟨hbase, ?_⟩
      rw [← hcard]
      exact_mod_cast Finset.card_le_card
        (Finset.filter_subset_filter _ (Finset.Ioc_subset_Ioc_right hr))
    · have hdir : dir n = 1 := if_neg hn.not_gt
      obtain ⟨rfl, hdvd⟩ := hw.next_of_neg hn.ne' (by omega)
      rw [hdir] at hb hdvd hle
      exact Or.inr ⟨by omega, hdvd, hb⟩

/-- The business days in reach can be walked to. -/
theorem InReach.walks (h : cal.InReach n base) (hbase : InInt32 base) :
    ∃ r, cal.Walks n base r := by
  unfold InInt32 at hbase
  rcases h with rfl | ⟨hn, ⟨hlo, hcard⟩ | ⟨rfl, hdvd, hb⟩⟩ | ⟨hn, ⟨hlo, hcard⟩ | ⟨rfl, hdvd, hb⟩⟩
  · exact ⟨base, isStop_zero, by omega⟩
  · -- the walk stops within the days counted
    obtain ⟨K, hK⟩ := Int.eq_ofNat_of_zero_le (show 0 ≤ 2147483647 - base by omega)
    rw [show (2147483647 : Int) = base + K by omega, card_after hn.le] at hcard
    obtain ⟨k, hk, hstop⟩ := Walk.exists_stop_le (cal.Lands n base)
      (show n.natAbs ≤ Nat.count (cal.Lands n base) K by omega)
    -- every day on the way is an `int` and has a weekday
    refine ⟨base + k, isStop_after_iff hn |>.mpr ⟨k, hstop, rfl⟩, fun j hj => ?_⟩
    have : 0 ≤ j ∧ j ≤ 2147483647 := by omega
    exact ⟨⟨by omega, this.2⟩, Or.inl this.1⟩
  · -- the next day has a weekday and is a business day
    refine ⟨base + 1, ?_, fun j hj => ?_⟩
    · simpa using isStop_pred hb
    · obtain rfl : j = base + 1 := by omega
      exact ⟨⟨by omega, by omega⟩, Or.inr hdvd⟩
  · -- backward the walk stops before day zero
    obtain ⟨K, rfl⟩ := Int.eq_ofNat_of_zero_le hlo
    rw [show (0 : Int) = K - K by omega, card_before hn] at hcard
    obtain ⟨k, hk, hstop⟩ := Walk.exists_stop_le (cal.Lands n K)
      (show n.natAbs ≤ Nat.count (cal.Lands n K) K by omega)
    refine ⟨K - k, isStop_before_iff hn |>.mpr ⟨k, hstop, rfl⟩, fun j hj => ?_⟩
    have : 0 ≤ j ∧ j ≤ 2147483647 := by omega
    exact ⟨⟨by omega, this.2⟩, Or.inl this.1⟩
  · -- the previous day has a weekday and is a business day
    refine ⟨base - 1, ?_, fun j hj => ?_⟩
    · simpa using isStop_succ hb
    · obtain rfl : j = base - 1 := by omega
      exact ⟨⟨by omega, by omega⟩, Or.inr hdvd⟩

/-- The count is an `int` whose magnitude is one, if the business days are in reach. -/
theorem InReach.natAbs (h : cal.InReach n base) (hbase : InInt32 base) (hn : InInt32 n) :
    InInt32 n.natAbs := by
  have hcard := Finset.card_filter_le (Finset.Ico 0 base) cal.Business
  rw [Int.card_Ico] at hcard
  unfold InReach at h
  unfold InInt32 at hbase hn ⊢
  omega

/-- The call ends, and every weekday it looks up is an index of the weekend bits. -/
def EndsInRange (c : Comp Date) : Prop :=
  (∃ r, c.Returns r) ∧ ¬ c.Faults (.undefined .indexOutOfRange)

/-- Ending in range is the same as returning. -/
theorem endsInRange_iff {c : Comp Date} : EndsInRange c ↔ ∃ r, c.Returns r := by
  constructor
  · exact And.left
  · rintro ⟨r, hr⟩
    exact ⟨⟨r, hr⟩, hr.not_faults⟩

/-- The three loops end in range exactly if the business days they count are in reach. -/
theorem walks_return_iff {d : Date} (hd : InInt32 d.julian) :
    (EndsInRange (cal.getNextBusinessDay d) ↔ cal.InReach 1 d.julian) ∧
    (EndsInRange (cal.getPrevBusinessDay d) ↔ cal.InReach (-1) d.julian) ∧
    ∀ n, InInt32 n → (EndsInRange (cal.addBusinessDays n d) ↔ cal.InReach n d.julian) := by
  simp only [endsInRange_iff, getNextBusinessDay_eq, getPrevBusinessDay_eq]
  -- the next and the previous business day are walks of one step
  have hstop : ∀ n : Int, n.natAbs = 1 →
      ((∃ r, (cal.nextStop n d.julian).Returns r) ↔ cal.InReach n d.julian) := by
    intro n hn
    constructor
    · rintro ⟨r, hr⟩
      exact ((nextStop_returns_iff hn).mp hr).inReach
    · intro h
      obtain ⟨r, hr⟩ := h.walks hd
      exact ⟨⟨r⟩, (nextStop_returns_iff hn).mpr hr⟩
  refine ⟨hstop 1 rfl, hstop (-1) rfl, fun n hn => ?_⟩
  constructor
  · rintro ⟨r, hr⟩
    exact (addBusinessDays_returns_iff.mp hr).2.inReach
  · intro h
    obtain ⟨r, hr⟩ := h.walks hd
    exact ⟨⟨r⟩, addBusinessDays_returns_iff.mpr ⟨h.natAbs hd hn, hr⟩⟩

/-- From a Saturday, on a calendar with the usual weekend. -/
theorem walks_return_iff_saturday :
    EndsInRange (getNextBusinessDay ⟨{5, 6}, "TST", {}⟩ ⟨2460001⟩) ↔
      InReach ⟨{5, 6}, "TST", {}⟩ 1 2460001 :=
  (walks_return_iff (d := ⟨2460001⟩) (by decide)).1

/-- No day is a business day of a calendar whose file lists all weekdays. -/
theorem not_business_of_week {data : CalendarDataStruct}
    (h : Dao.Reads (bytes "0123456") [] data) (j : Int) : ¬ (ofData [data]).Business j := by
  rw [StaticCache.not_business_ofData]
  refine ⟨data, by simp, (h.dayOff_iff j).mpr (Or.inl ?_)⟩
  have hdigits : bytes "0123456" = [48, 49, 50, 51, 52, 53, 54] := by decide
  have hmod : 0 ≤ j % 7 ∧ j % 7 < 7 := by omega
  generalize j % 7 = v at hmod
  obtain rfl | rfl | rfl | rfl | rfl | rfl | rfl :
    v = 0 ∨ v = 1 ∨ v = 2 ∨ v = 3 ∨ v = 4 ∨ v = 5 ∨ v = 6 := by omega
  all_goals simp [hdigits]

/-- A calendar file whose weekend is the whole week is accepted, and no walk on its calendar
    ends. On every calendar, the walk back from `Date()` looks up a negative weekday. -/
theorem not_walks_return :
    (∃ data, Dao.getCalendarData (Dao.oneFile (Dao.unlines
        [bytes "#Weekend", bytes "0123456", bytes "# Holidays"])) (bytes "ALL") = .ok data ∧
      ∀ d, ¬ EndsInRange ((ofData [data]).getNextBusinessDay d)) ∧
    ∀ cal : Calendar, ¬ EndsInRange (cal.getPrevBusinessDay {}) := by
  constructor
  · have hfile : Dao.IsCalendarFile
        (Dao.unlines [bytes "#Weekend", bytes "0123456", bytes "# Holidays"])
        (bytes "0123456") [] := by
      refine ⟨[], [], by simp, by simp, ?_⟩
      rw [Dao.fileLines_unlines (by decide)]
      rfl
    have hread := Dao.oneFile_apply
      (Dao.unlines [bytes "#Weekend", bytes "0123456", bytes "# Holidays"]) (bytes "ALL")
    obtain ⟨data, hdata⟩ := Dao.getCalendarData_eq_ok hread hfile
      (by unfold Dao.IsWeekdayDigit; decide +kernel) (by simp)
    have hreads := Dao.reads_of_eq_ok hread hfile hdata
    refine ⟨data, hdata, fun d h => ?_⟩
    obtain ⟨⟨r⟩, hr⟩ := endsInRange_iff.mp h
    rw [getNextBusinessDay_eq] at hr
    -- the day returned would be a business day
    have hw := (nextStop_returns_iff rfl).mp hr
    exact not_business_of_week hreads r (hw.stop.after Int.one_pos).1
  · intro cal h
    exact h.2 ⟨1, rfl⟩

end Calendar

end OA.Time
