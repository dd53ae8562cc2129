import OdinAnalytics.Machine.Exec
import OdinAnalytics.Machine.Bytes
import OdinAnalytics.Machine.Block
import OdinAnalytics.Machine.Relate
import OdinAnalytics.Machine.Comp
import OdinAnalytics.Machine.Loop
import OdinAnalytics.Machine.Action
import OdinAnalytics.Machine.Traced
import OdinAnalytics.Machine.Double
import OdinAnalytics.Machine.Ifstream
import OdinAnalytics.Lib.DateShift
import OdinAnalytics.Lib.Gregorian
import OdinAnalytics.Lib.Walk
import OdinAnalytics.Lib.Rounding
import OdinAnalytics.Lib.Roll
import OdinAnalytics.Lib.Decimal
import OdinAnalytics.Lib.Utf
import OdinAnalytics.Lib.Atomic
import OdinAnalytics.Lib.Versioned
import OdinAnalytics.Lib.Run
import OdinAnalytics.Lib.Slots
import OdinAnalytics.Lib.Radix
import OdinAnalytics.Lib.RefCount
import OdinAnalytics.Lib.Heap
import OdinAnalytics.Lib.Fnv
import OdinAnalytics.Lib.Newton
import OdinAnalytics.Lib.Discount
import OdinAnalytics.Lib.Transition
import OdinAnalytics.Native.Tenor
import OdinAnalytics.Native.Date
import OdinAnalytics.Native.DateText
import OdinAnalytics.Native.DateCheck
import OdinAnalytics.Native.TimePoint
import OdinAnalytics.Native.Calendar
import OdinAnalytics.Native.DateAdjust
import OdinAnalytics.Native.CalendarDao
import OdinAnalytics.Native.CalendarCache
import OdinAnalytics.Native.DayCount
import OdinAnalytics.Native.BusinessDateFormula
import OdinAnalytics.Native.CashflowGen
import OdinAnalytics.Native.BondMath
import OdinAnalytics.Native.EnumMappers
import OdinAnalytics.Native.DateFormula
import OdinAnalytics.Native.XloperConverter
import OdinAnalytics.Native.XlArray
import OdinAnalytics.Native.XlMemory
import OdinAnalytics.Native.XlDictionary
import OdinAnalytics.Native.XlUtils
import OdinAnalytics.Native.CacheXlObj
import OdinAnalytics.Native.ExcelBase
import OdinAnalytics.Native.TimeXl
import OdinAnalytics.Native.AddIn
import OdinAnalytics.Native.VersionInfo
import OdinAnalytics.Native.VersionObjects
import OdinAnalytics.Native.Sexp
import OdinAnalytics.Native.PyObject
import OdinAnalytics.Native.ScopeExit
import OdinAnalytics.Native.FixedString
import OdinAnalytics.Spec.DateCorrect
import OdinAnalytics.Spec.DateRange
import OdinAnalytics.Spec.CalendarCorrect
import OdinAnalytics.Spec.BusinessDayLaws
import OdinAnalytics.Spec.DateAdjustCorrect
import OdinAnalytics.Spec.ScheduleCorrect
import OdinAnalytics.Spec.ScheduleShape
import OdinAnalytics.Spec.DateTextCorrect
import OdinAnalytics.Spec.DateCheckCorrect
import OdinAnalytics.Spec.TenorArith
import OdinAnalytics.Spec.TenorOverflow
import OdinAnalytics.Spec.TenorText
import OdinAnalytics.Spec.CalendarCacheCorrect
import OdinAnalytics.Spec.CalendarFileCorrect
import OdinAnalytics.Spec.CalendarTermination
import OdinAnalytics.Spec.TimePointCorrect
import OdinAnalytics.Spec.DayCountCorrect
import OdinAnalytics.Spec.ActActCorrect
import OdinAnalytics.Spec.DayCountOrder
import OdinAnalytics.Spec.MonthPeriods
import OdinAnalytics.Spec.CouponCorrect
import OdinAnalytics.Spec.StreetConvention
import OdinAnalytics.Spec.Contiguity
import OdinAnalytics.Spec.Stubs
import OdinAnalytics.Spec.LongStub
import OdinAnalytics.Spec.Directions
import OdinAnalytics.Spec.Order
import OdinAnalytics.Spec.Amounts
import OdinAnalytics.Spec.Faults
import OdinAnalytics.Spec.Termination
import OdinAnalytics.Spec.Safety
import OdinAnalytics.Spec.BondMathCorrect
import OdinAnalytics.Spec.XloperCorrect
import OdinAnalytics.Spec.XlUtilsCorrect
import OdinAnalytics.Spec.HandleCorrect
import OdinAnalytics.Spec.HandleRace
import OdinAnalytics.Spec.HandleSafety
import OdinAnalytics.Spec.HandleKeys
import OdinAnalytics.Spec.XlArrayCorrect
import OdinAnalytics.Spec.XlMemoryCorrect
import OdinAnalytics.Spec.XlDictionaryCorrect
import OdinAnalytics.Spec.AddInCorrect
import OdinAnalytics.Spec.Sessions
import OdinAnalytics.Spec.Requests
import OdinAnalytics.Spec.CalendarTransparency
import OdinAnalytics.Spec.SheetObjects
import OdinAnalytics.Spec.DateFormulaCorrect
import OdinAnalytics.Spec.SheetDates
import OdinAnalytics.Spec.CashflowTable
import OdinAnalytics.Spec.SheetCashflows
import OdinAnalytics.Spec.Scaling
import OdinAnalytics.Spec.TenorKeys
import OdinAnalytics.Spec.ElfHeaders
import OdinAnalytics.Spec.ElfLookup
import OdinAnalytics.Spec.VersionInfoCorrect
import OdinAnalytics.Spec.VersionObjectsCorrect
import OdinAnalytics.Spec.SexpCorrect
import OdinAnalytics.Spec.PyObjectCorrect
import OdinAnalytics.Spec.ScopeExitCorrect
import OdinAnalytics.Spec.FixedStringCorrect
import OdinAnalytics.Spec.CashflowSafety
import OdinAnalytics.Spec.CallSafety
