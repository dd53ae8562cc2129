import OdinAnalytics.Native.CalendarCache
import OdinAnalytics.Native.DateAdjust
import OdinAnalytics.Native.EnumMappers

/-!
# Date formulas

An adjustment of a date by a tenor, and then to a business day
(`derived_time/date_formula/date_formula.cpp`).
-/

namespace OA.DerivedTime

open Machine OA.Time OA.StaticCache OA.Dao Atomic

/-- A tenor, and how the date that it leads to is adjusted. -/
structure DateFormula where
  tenor : Tenor
  holidayAdjuster : DateAdjust

namespace DateFormula

/-- `DateFormula::DateFormula(const Tenor&, AdjRule, const Calendar&)`. -/
def ofTenor (tenor : Tenor) (adjustmentRule : AdjRule) (calendar : Calendar) : DateFormula :=
  ⟨tenor, createDateAdjust adjustmentRule calendar⟩

/-- `DateFormula::DateFormula(const std::string&, const std::string&, const std::string&)`. -/
def ofTexts (boost : Boost) (dataDir : DataDir) (tenor adjustmentRule calendar : Bytes) :
    Prog CalendarCache Fault DateFormula := do
  let tenor ← Tenor.ofString (text tenor)
  -- one argument names the rule, the other the calendar, and either may be looked at first
  let adjustmentRule ← mapInputToDayAdjustEnum adjustmentRule
  let calendar ← CalendarCache.getCalendar boost dataDir calendar
  return ofTenor tenor adjustmentRule calendar.calendar

/-- `DateFormula::Adjust`. -/
def adjust (formula : DateFormula) (date : Date) : Comp Date := do
  formula.holidayAdjuster.adjustDate (← date.addTenor formula.tenor)

end DateFormula

end OA.DerivedTime
