import OdinAnalytics.Native.Calendar

/-!
# Business day adjustment

The four ways to move a date that is not a business day (`time/date_adjust`), and
the factory that makes one of them for an adjustment rule.
-/

namespace OA.Time

open Machine

/-- `AdjRule`. -/
inductive AdjRule where
  | kFollowing
  | kPreceding
  | kModifiedFollowing
  | kPlainAdjustment
deriving DecidableEq, Repr

/-- The classes derived from `DateAdjustBase`, with their `m_holidays_`. -/
inductive DateAdjust where
  | plain
  | following (holidays : Calendar)
  | preceding (holidays : Calendar)
  | modFollowing (holidays : Calendar)

namespace DateAdjust

/-- `DateAdjustFollowing::AdjustFollowing`. -/
def adjustFollowing (givenDate : Date) (givenCalendar : Calendar) : Comp Date := do
  if ← givenCalendar.isHoliday givenDate.julian then
    givenCalendar.getNextBusinessDay givenDate
  else
    return givenDate

/-- `DateAdjustPreceding::AdjustPreceding`. -/
def adjustPreceding (givenDate : Date) (givenCalendar : Calendar) : Comp Date := do
  if ← givenCalendar.isHoliday givenDate.julian then
    givenCalendar.getPrevBusinessDay givenDate
  else
    return givenDate

/-- `DateAdjustModFollowing::AdjustModFollowing`. The months are compared, not the years. -/
def adjustModFollowing (givenDate : Date) (givenCalendar : Calendar) : Comp Date := do
  if ← givenCalendar.isHoliday givenDate.julian then
    let nextBusinessDay ← givenCalendar.getNextBusinessDay givenDate
    if (← givenDate.month) ≠ (← nextBusinessDay.month) then
      givenCalendar.getPrevBusinessDay givenDate
    else
      return nextBusinessDay
  else
    return givenDate

/-- `DateAdjustBase::AdjustDate` of each class. -/
def adjustDate (adjust : DateAdjust) (givenDate : Date) : Comp Date :=
  match adjust with
  | .plain => return givenDate
  | .following holidays => adjustFollowing givenDate holidays
  | .preceding holidays => adjustPreceding givenDate holidays
  | .modFollowing holidays => adjustModFollowing givenDate holidays

end DateAdjust

/-- `AdjustmentFactory::CreateDateAdjust(AdjRule, const Calendar&)`. -/
def createDateAdjust (rule : AdjRule) (givenCalendar : Calendar) : DateAdjust :=
  match rule with
  | .kFollowing => .following givenCalendar
  | .kPreceding => .preceding givenCalendar
  | .kModifiedFollowing => .modFollowing givenCalendar
  | .kPlainAdjustment => .plain

end OA.Time
