import OdinAnalytics.Lib.Atomic
import OdinAnalytics.Machine.Boost
import OdinAnalytics.Native.CalendarDao
import Mathlib.Data.List.Sort

/-!
# The calendar cache

`CalendarCache` (`static_data_cache/calendar_cache.cpp`) keeps one calendar object
for each set of regions it was asked for. Everything after the key is computed
happens under the lock of the cache, so a call is one atomic section.
-/

namespace OA.StaticCache

open Machine Time Dao Atomic

/-- A `std::shared_ptr<const Calendar>`: the object it points to, told apart by its address. -/
structure CalendarPtr where
  addr : Nat
  calendar : Calendar
deriving DecidableEq

/-- The members of `CalendarCache`, with the address of the next object to be made. -/
structure CalendarCache where
  /-- `m_calendar_cache_` -/
  calendarCache : Bytes → Option CalendarPtr := fun _ => none
  next : Nat := 0

/-- One of the delimiters `,`, `:`, `;` and `.`. -/
def isDelimiter (c : UInt8) : Bool := c = 44 || c = 58 || c = 59 || c = 46

/-- The sorted region names of a calendar string. -/
def listOfCalendars (boost : Boost) (calendarsStr : Bytes) : List Bytes :=
  (boost.split calendarsStr isDelimiter).insertionSort BytesLe

/-- The key of a list of region names. -/
def joinKey (boost : Boost) (listOfCalendars : List Bytes) : Bytes :=
  boost.join listOfCalendars (bytes ",")

namespace CalendarCache

/-- `CalendarCache::IsCached`. -/
def isCached (cache : CalendarCache) (calendarStr : Bytes) : Bool :=
  (cache.calendarCache calendarStr).isSome

/-- `CalendarCache::StoreCalendar`: `try_emplace` keeps an entry that is there. -/
def storeCalendar (cache : CalendarCache) (calendarStr : Bytes) (calendarData : CalendarPtr) :
    CalendarCache :=
  if cache.isCached calendarStr then cache
  else { cache with
    calendarCache := Function.update cache.calendarCache calendarStr (some calendarData) }

/-- `std::make_shared<const Calendar>`: an object at an address of its own. -/
def makeShared (cache : CalendarCache) (calendar : Calendar) : CalendarPtr × CalendarCache :=
  (⟨cache.next, calendar⟩, { cache with next := cache.next + 1 })

/-- What `CalendarCache::GetCalendar` does under the lock. -/
def lookup (boost : Boost) (dataDir : DataDir) (listOfCalendars : List Bytes)
    (cache : CalendarCache) : Exec CalendarPtr × CalendarCache :=
  let strKey := joinKey boost listOfCalendars
  match cache.calendarCache strKey with
  | some calendar => (.ok calendar, cache)
  | none =>
    -- if we can't find the calendar store it
    match listOfCalendars.mapM (getCalendarData dataDir) with
    | .error f => (.error f, cache)
    | .ok rawCalendarData =>
      let (newCalendar, cache) := cache.makeShared (Calendar.ofData rawCalendarData)
      (.ok newCalendar, cache.storeCalendar strKey newCalendar)

/-- `CalendarCache::GetCalendar`. -/
def getCalendar (boost : Boost) (dataDir : DataDir) (calendarsStr : Bytes) :
    Prog CalendarCache Fault CalendarPtr :=
  Prog.atomically (lookup boost dataDir (listOfCalendars boost calendarsStr))

end CalendarCache

end OA.StaticCache
