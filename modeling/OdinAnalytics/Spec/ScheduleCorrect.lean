import OdinAnalytics.Lib.Roll
import OdinAnalytics.Native.CashflowGen
import OdinAnalytics.Spec.DateCorrect
import Mathlib.Tactic.Ring

/-!
# The schedule loops

Both schedule loops of `CreateFixedCashflows` compute roll dates: forward from the
start date, backward from the maturity date. The `i`-th period lies between the
`i`-th roll date and its far date, one reset tenor on from that roll date.

## Key results

- `generateDates_ends`: the loops produce the periods whose roll dates are inside the deal
- `Deal.exists_periods`: for a positive reset tenor there are finitely many of them
-/

namespace OA.DerivedTime

open Machine OA.Time

/-- The periods of a schedule, as pairs of a start and an end date. -/
def Schedule.periods (s : Schedule) : List (Date × Date) := s.startDates.zip s.endDates

/-- Two schedules whose dates are related one by one. -/
structure Schedule.Related (R : Date → Date → Prop) (s t : Schedule) : Prop where
  startDates : List.Forall₂ R s.startDates t.startDates
  endDates : List.Forall₂ R s.endDates t.endDates

/-! ## Roll dates of a deal -/

/-- What the schedule loops read. -/
structure Deal where
  dateDir : DateDirection
  startDate : Date
  matDate : Date
  resetFreq : Tenor

namespace Deal

variable (d : Deal)

/-- The move of a day number that the unit of the reset tenor stands for. -/
def unit : DateShift := Date.unitShift d.resetFreq.unit

/-- The date the schedule is built from. -/
def anchor : Int :=
  match d.dateDir with
  | .kForward => d.startDate.julian
  | .kBackward => d.matDate.julian

/-- The count of units from one roll date to the next. -/
def stride : Int :=
  match d.dateDir with
  | .kForward => d.resetFreq.count
  | .kBackward => -d.resetFreq.count

/-- The condition of the schedule loop. -/
def Inside (j : Int) : Prop :=
  match d.dateDir with
  | .kForward => j < d.matDate.julian
  | .kBackward => d.startDate.julian < j

instance : DecidablePred d.Inside := fun j => by
  unfold Inside
  split <;> infer_instance

/-- The `i`-th roll date. -/
def rollDate (i : Nat) : Int := d.unit.roll d.stride d.anchor i

/-- One reset tenor on from the `i`-th roll date. -/
def farDate (i : Nat) : Int := d.unit.rollNext d.stride d.anchor i

/-- The number of periods: the roll dates inside the deal. -/
def HasPeriods (k : Nat) : Prop := d.unit.Spans d.stride d.anchor d.Inside k

/-- No generated date lies before day number zero. -/
def GeneratedNonneg : Prop := ∀ i, d.Inside (d.rollDate i) → 0 ≤ d.rollDate i ∧ 0 ≤ d.farDate i

/-- Two vectors of dates, given by roll and far dates, as start and end dates. -/
def toSchedule (rolls fars : List Date) : Schedule :=
  match d.dateDir with
  | .kForward => ⟨rolls, fars⟩
  | .kBackward => ⟨fars, rolls⟩

/-- The dates of the first `k` periods, in the order they are generated. -/
def generated (k : Nat) : Schedule :=
  d.toSchedule ((List.range k).map fun i => ⟨d.rollDate i⟩)
    ((List.range k).map fun i => ⟨d.farDate i⟩)

/-- The dates of the first `k` periods, in chronological order. -/
def gridDates (k : Nat) : Schedule :=
  match d.dateDir with
  | .kForward => d.generated k
  | .kBackward => ⟨(d.generated k).startDates.reverse, (d.generated k).endDates.reverse⟩

/-- The `i`-th period, from its start date to its end date. -/
def period (i : Nat) : Date × Date :=
  match d.dateDir with
  | .kForward => (⟨d.rollDate i⟩, ⟨d.farDate i⟩)
  | .kBackward => (⟨d.farDate i⟩, ⟨d.rollDate i⟩)

/-- The first `k` periods, in chronological order. -/
def periods (k : Nat) : List (Date × Date) :=
  match d.dateDir with
  | .kForward => (List.range k).map d.period
  | .kBackward => ((List.range k).map d.period).reverse

variable {d} {k : Nat}

@[simp] theorem rollDate_zero : d.rollDate 0 = d.anchor := DateShift.roll_zero _ _ _

/-- Moving on from a roll date leads no further than to the next one. -/
theorem farDate_le (i : Nat) : d.farDate i ≤ d.rollDate (i + 1) := DateShift.rollNext_le i

/-- The anchor is inside of a deal of some length. -/
theorem inside_anchor (h : d.startDate < d.matDate) : d.Inside d.anchor := by
  unfold Inside anchor
  split <;> exact h

/-- The anchor is not inside of a deal of no length. -/
theorem not_inside_anchor (h : d.startDate = d.matDate) : ¬ d.Inside d.anchor := by
  unfold Inside anchor
  rw [h]
  split <;> exact lt_irrefl _

/-- A deal of some length has a period. -/
theorem HasPeriods.pos (hk : d.HasPeriods k) (h : d.startDate < d.matDate) : 0 < k :=
  DateShift.Spans.pos hk (inside_anchor h)

/-- Roll dates move away from the anchor, so they never come back inside. -/
theorem HasPeriods.lt_iff (hk : d.HasPeriods k) (hn : 0 < d.resetFreq.count) {i : Nat} :
    i < k ↔ d.Inside (d.rollDate i) := by
  apply DateShift.Spans.lt_iff hk
  intro i j hij hj
  obtain ⟨_ | _, startDate, matDate, resetFreq⟩ := d
  · exact lt_of_le_of_lt ((DateShift.roll_strictMono hn).monotone hij) hj
  · exact lt_of_lt_of_le hj ((DateShift.roll_strictAnti (neg_neg_of_pos hn)).antitone hij)

/-- A positive reset tenor leaves the deal after finitely many periods. -/
theorem exists_periods (hn : 0 < d.resetFreq.count) : ∃ k, d.HasPeriods k := by
  obtain ⟨_ | _, startDate, matDate, resetFreq⟩ := d
  · exact DateShift.exists_spans_lt hn _
  · exact DateShift.exists_spans_gt (neg_neg_of_pos hn) _

/-- The dates of a period are at day number zero or later. -/
theorem HasPeriods.nonneg (hk : d.HasPeriods k) (h : d.GeneratedNonneg) {i : Nat} (hi : i < k) :
    0 ≤ d.rollDate i ∧ 0 ≤ d.farDate i := h i (hk.inside i hi)

/-- The dates of any period that begins inside of the deal are at day number zero or later. -/
theorem period_nonneg (h : d.GeneratedNonneg) {i : Nat} (hi : d.Inside (d.rollDate i)) :
    0 ≤ (d.period i).1.julian ∧ 0 ≤ (d.period i).2.julian := by
  obtain ⟨hroll, hfar⟩ := h i hi
  unfold period
  split
  · exact ⟨hroll, hfar⟩
  · exact ⟨hfar, hroll⟩

/-- There are as many dates as periods. -/
theorem gridDates_length (k : Nat) :
    (d.gridDates k).startDates.length = k ∧ (d.gridDates k).endDates.length = k := by
  unfold gridDates generated toSchedule
  split <;> simp

/-- The dates in pairs are the periods. -/
theorem gridDates_periods (k : Nat) : (d.gridDates k).periods = d.periods k := by
  unfold gridDates generated toSchedule periods period Schedule.periods
  cases d.dateDir with
  | kForward => simp [List.zip_map']
  | kBackward => simp [← List.map_reverse, List.zip_map']

/-- The periods of a deal, by their index. -/
theorem mem_periods {p : Date × Date} : p ∈ d.periods k ↔ ∃ i < k, d.period i = p := by
  unfold periods
  split <;> simp

/-! ## Dates before day number zero -/

/-- Going forward, no roll date comes before the start. -/
theorem le_rollDate {startDate matDate : Date} {resetFreq : Tenor} (hn : 0 < resetFreq.count)
    (i : Nat) : startDate.julian ≤ rollDate ⟨.kForward, startDate, matDate, resetFreq⟩ i :=
  DateShift.le_roll hn.le i

/-- Going forward from day number zero on, no date is below it. -/
theorem generatedNonneg_forward {startDate matDate : Date} {resetFreq : Tenor}
    (hs : 0 ≤ startDate.julian) (hn : 0 < resetFreq.count) :
    GeneratedNonneg ⟨.kForward, startDate, matDate, resetFreq⟩ := by
  intro i _
  have hroll : 0 ≤ rollDate ⟨.kForward, startDate, matDate, resetFreq⟩ i :=
    hs.trans (le_rollDate hn i)
  exact ⟨hroll, hroll.trans (DateShift.lt_rollNext hn i).le⟩

/-- Going backward, the earliest date that may be generated is one reset tenor
    before the start date. -/
theorem generatedNonneg_backward {startDate matDate : Date} {resetFreq : Tenor}
    (hs : 0 ≤ (Date.unitShift resetFreq.unit).shift (-resetFreq.count) startDate.julian)
    (hn : 0 < resetFreq.count) :
    GeneratedNonneg ⟨.kBackward, startDate, matDate, resetFreq⟩ := by
  intro i hi
  -- the roll date is after the start date, so one tenor before it is later too
  have hfar := (Date.unitShift resetFreq.unit).mono_date (-resetFreq.count) (le_of_lt hi)
  have hstart := (Date.unitShift resetFreq.unit).shift_lt (neg_neg_of_pos hn) startDate.julian
  have hi' : startDate.julian < rollDate ⟨.kBackward, startDate, matDate, resetFreq⟩ i := hi
  exact ⟨by omega, hs.trans hfar⟩

end Deal

/-! ## The loops -/

namespace Deal

variable (d : Deal)

/-- The loop body of the direction of the deal. -/
def loopStep : GenState → Exec GenState :=
  match d.dateDir with
  | .kForward => forwardStep d.startDate d.resetFreq
  | .kBackward => backwardStep d.matDate d.resetFreq

/-- The loop of the direction of the deal. -/
def loop (s : GenState) : Comp GenState :=
  Comp.whileLoop (fun s => .ok (decide (d.Inside s.currDate.julian))) d.loopStep s

/-- The `total_length` that the loop starts with. -/
def firstTotal : Exec Int :=
  match d.dateDir with
  | .kForward => .ok d.resetFreq.count
  | .kBackward => neg32 d.resetFreq.count

/-- Generated vectors in chronological order. -/
def chronological (s : Schedule) : Schedule :=
  match d.dateDir with
  | .kForward => s
  | .kBackward => ⟨s.startDates.reverse, s.endDates.reverse⟩

variable {d}

/-- Both directions are the same loop, over their own anchor, stride and range. -/
theorem generateDates_eq : generateDates d.startDate d.matDate d.resetFreq d.dateDir = (do
    let total ← Comp.lift d.firstTotal
    let s ← d.loop ⟨⟨d.anchor⟩, total, ⟨[], []⟩⟩
    return d.chronological s.dates) := by
  obtain ⟨_ | _, startDate, matDate, resetFreq⟩ := d
  · -- the two loop conditions agree, and the rest by unfolding
    have hcond : (fun s : GenState => (.ok (decide (s.currDate < matDate)) : Exec Bool)) =
        fun s => .ok (decide (Inside ⟨.kForward, startDate, matDate, resetFreq⟩
          s.currDate.julian)) := by
      funext s
      congr 1
    unfold generateDates forwardDates
    rw [hcond]
    rfl
  · -- backward the loop runs while the date is after the start
    have hcond : (fun s : GenState => (.ok (decide (s.currDate > startDate)) : Exec Bool)) =
        fun s => .ok (decide (Inside ⟨.kBackward, startDate, matDate, resetFreq⟩
          s.currDate.julian)) := by
      funext s
      congr 1
    unfold generateDates backwardDates
    rw [hcond]
    rfl

/-- An iteration pushes a roll date and its far date, one on each vector. -/
theorem loopStep_post {E : Fault → Prop} (hE : E .overflow) {s : GenState} {Q Q' : Date → Prop}
    (hfar : Post (s.currDate.addTenor ⟨d.stride, d.resetFreq.unit⟩) E Q)
    (hnext : Post (Date.addTenor ⟨d.anchor⟩ ⟨s.totalLength, d.resetFreq.unit⟩) E Q') :
    Post (d.loopStep s) E fun s' => ∃ far, Q far ∧ Q' s'.currDate ∧
      s'.totalLength = s.totalLength + d.stride ∧
      s'.dates = ⟨s.dates.startDates ++ (d.toSchedule [s.currDate] [far]).startDates,
        s.dates.endDates ++ (d.toSchedule [s.currDate] [far]).endDates⟩ := by
  obtain ⟨_ | _, startDate, matDate, resetFreq⟩ := d
  · refine Post.bind hfar fun far hfar => Post.bind hnext fun next hnext => ?_
    exact Post.bind_eq (post_checked_of (Or.inl hE)) ⟨far, hfar, hnext, rfl, rfl⟩
  · -- going backward, the tenor is negated first
    apply Post.bind_eq (post_checked_of (Or.inl hE))
    refine Post.bind hfar fun far hfar => Post.bind hnext fun next hnext => ?_
    exact Post.bind_eq (post_checked_of (Or.inl hE)) ⟨far, hfar, hnext, rfl, rfl⟩

/-- What an iteration that runs has done, on any dates. -/
theorem loopStep_eq_ok {s s' : GenState} (h : d.loopStep s = .ok s') :
    ∃ far, s.currDate.addTenor ⟨d.stride, d.resetFreq.unit⟩ = .ok far ∧
      Date.addTenor ⟨d.anchor⟩ ⟨s.totalLength, d.resetFreq.unit⟩ = .ok s'.currDate ∧
      s'.totalLength = s.totalLength + d.stride ∧
      s'.dates = ⟨s.dates.startDates ++ (d.toSchedule [s.currDate] [far]).startDates,
        s.dates.endDates ++ (d.toSchedule [s.currDate] [far]).endDates⟩ := by
  obtain ⟨_ | _, startDate, matDate, resetFreq⟩ := d
  · -- the far end of the period, the next roll date and the count
    obtain ⟨far, hfar, h⟩ := bind_eq_ok.mp h
    obtain ⟨next, hnext, h⟩ := bind_eq_ok.mp h
    obtain ⟨total, htotal, h⟩ := bind_eq_ok.mp h
    obtain rfl := Except.ok.inj h
    exact ⟨far, hfar, hnext, (checked_eq_ok.mp htotal).2, rfl⟩
  · -- backward the count is negated first
    obtain ⟨count, hneg, h⟩ := bind_eq_ok.mp h
    obtain ⟨-, rfl⟩ := checked_eq_ok.mp hneg
    obtain ⟨far, hfar, h⟩ := bind_eq_ok.mp h
    obtain ⟨next, hnext, h⟩ := bind_eq_ok.mp h
    obtain ⟨total, htotal, h⟩ := bind_eq_ok.mp h
    obtain rfl := Except.ok.inj h
    exact ⟨far, hfar, hnext, (checked_eq_ok.mp htotal).2, rfl⟩

/-- One iteration adds one date to either list. -/
theorem generated_succ (d : Deal) (i : Nat) : d.generated (i + 1) =
    ⟨(d.generated i).startDates ++ (d.toSchedule [⟨d.rollDate i⟩] [⟨d.farDate i⟩]).startDates,
      (d.generated i).endDates ++ (d.toSchedule [⟨d.rollDate i⟩] [⟨d.farDate i⟩]).endDates⟩ := by
  unfold generated toSchedule
  simp only [List.range_succ, List.map_append, List.map_cons, List.map_nil]
  split <;> rfl

/-- Tenor arithmetic follows the roll dates of `k` periods up to a relation, and the
    relation knows when the loop ends. -/
structure Tracks (d : Deal) (E : Fault → Prop) (R : Date → Date → Prop) (k : Nat) : Prop where
  anchor : R ⟨d.anchor⟩ ⟨d.anchor⟩
  inside : ∀ i < k, ∀ date, R date ⟨d.rollDate i⟩ → d.Inside date.julian
  outside : ∀ date, R date ⟨d.rollDate k⟩ → ¬ d.Inside date.julian
  far : ∀ i < k, ∀ date, R date ⟨d.rollDate i⟩ →
    Post (date.addTenor ⟨d.stride, d.resetFreq.unit⟩) E (R · ⟨d.farDate i⟩)
  next : ∀ i < k, Post (Date.addTenor ⟨d.anchor⟩ ⟨d.stride * (i + 1 : Nat), d.resetFreq.unit⟩) E
    (R · ⟨d.rollDate (i + 1)⟩)

/-- A loop state related to the one after `i` periods. -/
structure StateRelated (d : Deal) (R : Date → Date → Prop) (i : Nat) (s : GenState) : Prop where
  currDate : R s.currDate ⟨d.rollDate i⟩
  totalLength : s.totalLength = d.stride * (i + 1 : Nat)
  dates : s.dates.Related R (d.generated i)

/-- Pairs of related dates, in either order. -/
theorem toSchedule_related {R : Date → Date → Prop} {roll far roll' far' : Date}
    (hroll : R roll roll') (hfar : R far far') :
    Schedule.Related R (d.toSchedule [roll] [far]) (d.toSchedule [roll'] [far']) := by
  unfold toSchedule
  split
  · exact ⟨List.Forall₂.cons hroll .nil, List.Forall₂.cons hfar .nil⟩
  · exact ⟨List.Forall₂.cons hfar .nil, List.Forall₂.cons hroll .nil⟩

/-- One iteration adds a roll date and the date that is moved on to, or overflows. -/
theorem Tracks.loopStep {E : Fault → Prop} (hE : E .overflow) {R : Date → Date → Prop} {k : Nat}
    (h : d.Tracks E R k) {i : Nat} (hi : i < k) {s : GenState} (hs : d.StateRelated R i s) :
    Post (d.loopStep s) E (d.StateRelated R (i + 1)) := by
  obtain ⟨hcurr, htotal, hdates⟩ := hs
  apply (loopStep_post hE (h.far i hi _ hcurr) (htotal ▸ h.next i hi)).weaken
  intro s' ⟨far, hfar, hnext, htotal', hdates'⟩
  -- the period pushed is one of the grid
  have hpushed := toSchedule_related (d := d) hcurr hfar
  refine ⟨hnext, ?_, ?_⟩
  · -- the running total is that of the next iteration
    rw [htotal', htotal]
    push_cast
    ring
  · rw [hdates', generated_succ]
    exact ⟨List.rel_append hdates.startDates hpushed.startDates,
      List.rel_append hdates.endDates hpushed.endDates⟩

end Deal

variable {E : Fault → Prop} {d : Deal} {k : Nat}

/-- The first total is the stride, or overflows. -/
theorem Deal.firstTotal_post (hE : E .overflow) : Post d.firstTotal E (· = d.stride) := by
  obtain ⟨_ | _, startDate, matDate, resetFreq⟩ := d
  · exact rfl
  · exact post_checked_of (Or.inl hE)

/-- Brought into order, the generated dates are those of the periods. -/
theorem Deal.chronological_related {R : Date → Date → Prop} {s : Schedule}
    (h : s.Related R (d.generated k)) : (d.chronological s).Related R (d.gridDates k) := by
  unfold Deal.chronological Deal.gridDates
  cases d.dateDir with
  | kForward => exact h
  | kBackward => exact ⟨List.rel_reverse h.startDates, List.rel_reverse h.endDates⟩

/-- The schedule loops generate the periods whose roll dates are inside the deal, up
    to the relation that tenor arithmetic follows. -/
theorem generateDates_related (hE : E .overflow) {R : Date → Date → Prop} (h : d.Tracks E R k) :
    (generateDates d.startDate d.matDate d.resetFreq d.dateDir).Ends E
      (Schedule.Related R · (d.gridDates k)) := by
  -- before the loop nothing is pushed
  have hfirst : d.StateRelated R 0 ⟨⟨d.anchor⟩, d.stride, ⟨[], []⟩⟩ := by
    refine ⟨by simpa using h.anchor, by simp, ?_⟩
    unfold Deal.generated Deal.toSchedule
    split <;> exact ⟨List.Forall₂.nil, List.Forall₂.nil⟩
  -- the loop goes on for `k` periods
  have hloop : (d.loop ⟨⟨d.anchor⟩, d.stride, ⟨[], []⟩⟩).Ends E (d.StateRelated R k) :=
    Comp.whileLoop_ends_after (d.StateRelated R) k
      (fun i hi s hs => congrArg Except.ok (decide_eq_true (h.inside i hi _ hs.currDate)))
      (fun s hs => congrArg Except.ok (decide_eq_false (h.outside _ hs.currDate)))
      (fun i hi s hs => h.loopStep hE hi hs) hfirst
  rw [Deal.generateDates_eq]
  apply (Comp.ends_lift (Deal.firstTotal_post hE)).bind_eq
  exact hloop.bind fun s hs => Comp.ends_pure (Deal.chronological_related hs.dates)

/-- Tenor arithmetic follows the roll dates where it moves by the unit of the deal. -/
theorem Deal.tracks_eq (hk : d.HasPeriods k)
    (hfar : ∀ i < k, Post (Date.addTenor ⟨d.rollDate i⟩ ⟨d.stride, d.resetFreq.unit⟩) E
      (· = ⟨d.farDate i⟩))
    (hnext : ∀ i < k, Post (Date.addTenor ⟨d.anchor⟩
      ⟨d.stride * (i + 1 : Nat), d.resetFreq.unit⟩) E (· = ⟨d.rollDate (i + 1)⟩)) :
    d.Tracks E (· = ·) k := by
  refine ⟨rfl, ?_, ?_, ?_, hnext⟩
  · intro i hi date hdate
    exact hdate ▸ hk.inside i hi
  · intro date hdate
    exact hdate ▸ hk.outside
  · intro i hi date hdate
    exact hdate ▸ hfar i hi

/-- It does so on dates from day number zero on. -/
theorem Deal.tracks_eq_of_nonneg (hE : E .overflow) (hk : d.HasPeriods k)
    (hnn : d.GeneratedNonneg) : d.Tracks E (· = ·) k := by
  apply Deal.tracks_eq hk
  · intro i hi
    obtain ⟨hroll, hfar⟩ := hk.nonneg hnn hi
    exact Date.addTenor_post hroll hfar (Or.inl hE)
  · intro i hi
    have hanchor : 0 ≤ d.anchor := Deal.rollDate_zero ▸ (hk.nonneg hnn (i := 0) (by omega)).1
    exact Date.addTenor_post hanchor ((hk.nonneg hnn hi).2.trans (d.farDate_le i)) (Or.inl hE)

/-- In days and weeks it does so on any dates. -/
theorem Deal.tracks_eq_of_days (hE : E .overflow) (hk : d.HasPeriods k)
    (hdays : d.resetFreq.unit = .kDays ∨ d.resetFreq.unit = .kWeeks) : d.Tracks E (· = ·) k :=
  Deal.tracks_eq hk (fun _ _ => Date.addTenor_of_days hdays (Or.inl hE))
    fun _ _ => Date.addTenor_of_days hdays (Or.inl hE)

/-- Where tenor arithmetic follows the roll dates, the loops generate exactly their periods. -/
theorem generateDates_ends_of_tracks (hE : E .overflow) (h : d.Tracks E (· = ·) k) :
    (generateDates d.startDate d.matDate d.resetFreq d.dateDir).Ends E (· = d.gridDates k) := by
  apply (generateDates_related hE h).weaken
  intro ⟨starts, ends⟩ ⟨hstarts, hends⟩
  rw [List.forall₂_eq_eq_eq] at hstarts hends
  simp only at hstarts hends
  rw [hstarts, hends]

/-- On dates from day number zero on, the loops generate exactly these periods. -/
theorem generateDates_ends (hE : E .overflow) (hk : d.HasPeriods k) (hnn : d.GeneratedNonneg) :
    (generateDates d.startDate d.matDate d.resetFreq d.dateDir).Ends E (· = d.gridDates k) :=
  generateDates_ends_of_tracks hE (Deal.tracks_eq_of_nonneg hE hk hnn)

/-- Roll dates inside a deal from day number zero on are not before it. -/
theorem Deal.HasPeriods.rollDate_nonneg (hk : d.HasPeriods k) (hn : 0 < d.resetFreq.count)
    (hs : 0 ≤ d.startDate.julian) {i : Nat} (hi : i < k) : 0 ≤ d.rollDate i := by
  have hin := hk.inside i hi
  obtain ⟨_ | _, startDate, matDate, resetFreq⟩ := d
  · exact hs.trans (Deal.le_rollDate hn i)
  · exact hs.trans (le_of_lt hin)

/-- Between dates from day number zero on, only dates past the far end of the deal
    may lie before it. -/
theorem Deal.tracks_agrees (hE : E .overflow) (hk : d.HasPeriods k) (hn : 0 < d.resetFreq.count)
    (hs : 0 ≤ d.startDate.julian) (hlt : d.startDate < d.matDate) : d.Tracks E Date.Agrees k := by
  have hroll : ∀ i < k, 0 ≤ d.rollDate i := fun i hi => hk.rollDate_nonneg hn hs hi
  have hanchor : 0 ≤ d.anchor := Deal.rollDate_zero ▸ hroll 0 (hk.pos hlt)
  refine ⟨Or.inl rfl, fun i hi date hdate => ?_, fun date hdate => ?_, fun i hi date hdate => ?_,
    fun i _ => Date.addTenor_agrees hE hanchor⟩
  · -- a roll date inside the deal is computed as it is
    rw [hdate.eq (hroll i hi)]
    exact hk.inside i hi
  · -- a date before day number zero is only reached going backward, and leaves the deal
    rcases hdate with rfl | ⟨hlow, hlow'⟩
    · exact hk.outside
    · obtain ⟨_ | _, startDate, matDate, resetFreq⟩ := d
      · exact absurd hlow' (not_lt.mpr (hs.trans (le_rollDate hn k)))
      · exact not_lt.mpr (hlow.le.trans hs)
  · -- and so is the move from it
    rw [hdate.eq (hroll i hi)]
    exact Date.addTenor_agrees hE (hroll i hi)

end OA.DerivedTime
