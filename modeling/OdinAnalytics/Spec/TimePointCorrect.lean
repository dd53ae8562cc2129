import OdinAnalytics.Native.TimePoint
import OdinAnalytics.Spec.DateTextCorrect

/-!
# Dates through time points

A date is converted to the time point of its local midnight, and a time point to
its date in UTC. Local midnight is on the same UTC date only in zones from UTC
westward.

## Key results

- `roundTrip_iff`: the dates that survive the conversion, by the offset of the zone
-/

namespace OA.Time

open Machine Gregorian

namespace Date

variable (sys : SystemTime)

/-- The time point of a date's local midnight is one the system can represent. -/
def Representable (date : Date) : Prop :=
  ∃ tm, date.midnight = .ok tm ∧ sys.holds (sys.timeValue tm) = true

/-- Converting to a time point and back is the identity. -/
def RoundTrips (date : Date) : Prop :=
  ∃ tp, date.convertToTimePt sys = .ok tp ∧ ofTimePoint sys tp = .ok date

/-- Local midnight of a date, in seconds from the local epoch. -/
def midnightSeconds (date : Date) : Int := 86400 * (date.julian - epochDay)

variable {sys} {date : Date}

/-- The fields of midnight are the components, shifted as `std::tm` counts them. -/
private theorem seconds_midnight (y m d : Int) :
    (⟨y - 1900, m - 1, d, 0, 0, 0, -1⟩ : Tm).seconds = 86400 * (toDay y m d - epochDay) := by
  simp only [Tm.seconds, add_sub_cancel]
  omega

/-- Midnight of a day, in seconds. -/
theorem midnight_post {E : Fault → Prop} (h : 0 ≤ date.julian)
    (hE : E .overflow ∨ date.julian ≤ maxJulian) :
    Post date.midnight E (·.seconds = date.midnightSeconds) := by
  obtain ⟨y, m, d, hof, hv, -, -, htoDay⟩ := ofDay_spec date.julian
  have hm₁ := hv.one_le_month
  have hm₂ := hv.month_le
  have hy : -4713 ≤ y := year_ge hv (by omega)
  have hy' : date.julian ≤ maxJulian → y ≤ 1465002 := fun hj => year_le hv (by omega)
  have hymd := ymd_post h hE
  rw [hof] at hymd
  unfold midnight
  apply Post.bind_eq hymd
  -- the year and the month, counted as the C library counts them
  apply Post.bind_eq (post_checked_of (hE.imp_right fun hj => ⟨by omega, by have := hy' hj; omega⟩))
  apply Post.bind_eq (post_checked_of (Or.inr ⟨by omega, by omega⟩))
  rw [post_pure, seconds_midnight, htoDay]
  rfl

/-- No system reaches back to the dates before day number zero. -/
theorem Representable.bounds (h : Representable sys date) : ∃ tm, date.midnight = .ok tm ∧
    tm.seconds = date.midnightSeconds ∧ sys.holds (sys.timeValue tm) = true ∧
    1000000 ≤ date.julian ∧ date.julian ≤ 4000000 := by
  obtain ⟨tm, htm, hholds⟩ := h
  -- what the clock holds and what the zone may add bound the seconds
  have hb := sys.holds_bounds _ hholds
  have hoff := sys.utcOffset_bounds tm.seconds
  unfold SystemTime.timeValue at hb
  rcases le_or_gt 0 date.julian with hj | hj
  · -- the time since the epoch is that of the day, within what the clock holds
    have hpost := midnight_post (E := (· = .overflow)) hj (Or.inl rfl)
    rw [htm, post_ok] at hpost
    refine ⟨tm, htm, hpost, hholds, ?_⟩
    unfold midnightSeconds epochDay at hpost
    omega
  · -- the components would be those of a year before -4710
    have hpost : Post date.midnight (fun _ => True) (·.seconds < -200000000000) := by
      unfold midnight
      apply (ymd_neg hj).bind
      rintro ⟨y, m, d⟩ ⟨hy, hm, hd⟩
      apply Post.bind_eq (post_checked_of (Or.inl trivial))
      apply Post.bind_eq (post_checked_of (Or.inl trivial))
      rw [post_pure, seconds_midnight]
      have hmono : months.start (monthOf y m) ≤ months.start (-56521) :=
        months.start_strictMono.monotone (by unfold monthOf; omega)
      rw [months_start, months_start, show monthStart (-56521) = 738 by decide] at hmono
      unfold toDay epochDay
      omega
    rw [htm, post_ok] at hpost
    omega

/-! ## Back from a time point -/

/-- Whole seconds come back from a time point. -/
theorem toTimeT_fromTimeT (t : Int) : sys.toTimeT (sys.fromTimeT t) = t :=
  Int.mul_tdiv_cancel t sys.ticks_pos.ne'

/-- The constructor from a time point takes the date in UTC. -/
theorem ofTimePoint_fromTimeT {t : Int} (h : 0 ≤ epochDay + t / 86400)
    (h' : epochDay + t / 86400 ≤ maxJulian) :
    ofTimePoint sys (sys.fromTimeT t) = .ok ⟨epochDay + t / 86400⟩ := by
  obtain ⟨y, m, d, hof, hv, -, -, htoDay⟩ := ofDay_spec (epochDay + t / 86400)
  have hm₁ := hv.one_le_month
  have hm₂ := hv.month_le
  have hy : -4713 ≤ y := year_ge hv (by omega)
  have hy' : y ≤ 1465002 := year_le hv (by omega)
  -- the broken-down time names the same date
  have hymd : ymdOfTimePoint sys (sys.fromTimeT t) = .ok (y, m, d) := by
    unfold ymdOfTimePoint SystemTime.gmtime
    rw [toTimeT_fromTimeT, hof]
    simp only [add32, add_sub_cancel]
    rw [checked_of_bounds (by omega) (by omega), checked_of_bounds (by omega) (by omega)]
    rfl
  unfold ofTimePoint
  rw [hymd, ok_bind]
  simp only
  rw [convertToJulian_eq hv (by omega) (by omega), htoDay]
  rfl

/-- A date survives the conversion to a time point and back exactly in the zones that
    are at UTC or less than a day west of it at the local midnight of the date. -/
theorem roundTrip_iff (h : Representable sys date) : RoundTrips sys date ↔
    -86400 < sys.utcOffset date.midnightSeconds ∧ sys.utcOffset date.midnightSeconds ≤ 0 := by
  obtain ⟨tm, htm, hseconds, hholds, hlo, hhi⟩ := h.bounds
  have hoff := sys.utcOffset_bounds date.midnightSeconds
  have hvalue : sys.timeValue tm = date.midnightSeconds - sys.utcOffset date.midnightSeconds := by
    rw [SystemTime.timeValue, hseconds]
  have htp : date.convertToTimePt sys = .ok (sys.fromTimeT (sys.timeValue tm)) := by
    unfold convertToTimePt SystemTime.mktime
    rw [htm, ok_bind, if_pos hholds]
    rfl
  -- the date in UTC of local midnight
  have hday : epochDay + sys.timeValue tm / 86400 =
      date.julian + -sys.utcOffset date.midnightSeconds / 86400 := by
    rw [hvalue, midnightSeconds]
    omega
  have hback : ofTimePoint sys (sys.fromTimeT (sys.timeValue tm)) =
      .ok ⟨epochDay + sys.timeValue tm / 86400⟩ := by
    apply ofTimePoint_fromTimeT
    · rw [hday]
      omega
    · rw [hday, maxJulian]
      omega
  rw [hday] at hback
  have hiff : RoundTrips sys date ↔ -sys.utcOffset date.midnightSeconds / 86400 = 0 := by
    constructor
    · rintro ⟨tp, htp', hdate⟩
      cases htp.symm.trans htp'
      rw [hback] at hdate
      have hjulian := congrArg julian (Except.ok.inj hdate)
      simp only at hjulian
      omega
    · intro hzero
      refine ⟨_, htp, ?_⟩
      rw [hback, hzero, add_zero]
  rw [hiff]
  omega

/-- A machine whose zone has a fixed UTC offset, with a clock of nanoseconds. -/
def fixedZone (offset : Int) (h : -172800 ≤ offset ∧ offset ≤ 172800) : SystemTime where
  utcOffset _ := offset
  holds t := decide (-9223372036 ≤ t ∧ t ≤ 9223372036)
  ticks := 1000000000
  ticks_pos := by decide
  utcOffset_bounds _ := h
  holds_bounds t ht := by
    have := of_decide_eq_true ht
    omega

/-- The epoch in UTC. -/
theorem roundTrip_iff_utc : RoundTrips (fixedZone 0 (by decide)) ⟨2440588⟩ ↔
    -86400 < (0 : Int) ∧ (0 : Int) ≤ 0 :=
  roundTrip_iff ⟨⟨70, 0, 1, 0, 0, 0, -1⟩, by decide, by decide⟩

/-- Nine hours east of UTC, the first day of 2024 comes back as the day before. -/
theorem not_roundTrips_east : Representable (fixedZone 32400 (by decide)) ⟨2460311⟩ ∧
    ¬ RoundTrips (fixedZone 32400 (by decide)) ⟨2460311⟩ := by
  have htp : (⟨2460311⟩ : Date).convertToTimePt (fixedZone 32400 (by decide)) =
      .ok 1704034800000000000 := by decide
  have hback : ofTimePoint (fixedZone 32400 (by decide)) 1704034800000000000 =
      .ok ⟨2460310⟩ := by decide
  refine ⟨⟨⟨124, 0, 1, 0, 0, 0, -1⟩, by decide, by decide⟩, ?_⟩
  rintro ⟨tp, htp', hdate⟩
  cases htp.symm.trans htp'
  rw [hback] at hdate
  cases hdate

end Date

end OA.Time
