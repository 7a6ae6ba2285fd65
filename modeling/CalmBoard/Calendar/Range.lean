import CalmBoard.Values
import CalmBoard.Lib.DateText

/-!
# CalmBoard.Calendar.Range — the visible days, what is queried for them and what is shown

* `TimeZone`, `ZoneTable`, `LocalCalendar`: what the browser knows of times.
* `calendarDaysForView`: the days of a view.
* `zonedTimeToUtc`, `visibleCalendarQueryRange`: the query.
* `taskOccursWithinVisibleRange`: the test that decides what is shown.
* `calendarCondition`: the condition of the server.

Times are in milliseconds, days are counted from 1970-01-01 and months from 1.
-/

namespace CalmBoard.Calendar

open IsoDate (msPerDay)
open DateText (dateText dayText)

/-! ### Time zones -/

def hours (n : ℤ) : ℤ := n * 60 * 60 * 1000

/-- The offsets of a time zone from UTC, in the course of time. -/
structure TimeZone where
  offset : ℤ → ℤ
  least : ∀ t, hours (-12) ≤ offset t
  most : ∀ t, offset t ≤ hours 14
  spread : ∀ t u, offset t - offset u ≤ hours 24

def TimeZone.fixed (offset : ℤ) (h : hours (-12) ≤ offset ∧ offset ≤ hours 14) : TimeZone where
  offset _ := offset
  least _ := h.1
  most _ := h.2
  spread _ _ := by
    rw [Int.sub_self]
    decide

def TimeZone.utc : TimeZone := .fixed 0 (by decide)

/-- The time zones that `Intl.DateTimeFormat` knows; it throws a `RangeError` for other names. -/
structure ZoneTable where
  zone : String → Option TimeZone
  utc : zone "UTC" = some TimeZone.utc

/-- The calendar of the browser: midnight of a day is on that day, or on the next one where the clocks
leave the day out. -/
structure LocalCalendar where
  midnight : ℤ → ℤ
  le_midnight : ∀ n, n ≤ midnight n
  midnight_le : ∀ n, midnight n ≤ n + 1
  mono : ∀ m n, m ≤ n → midnight m ≤ midnight n

/-! ### Dates -/

/-- The times that a date can have. -/
def timeClip (t : ℤ) : Option ℤ := if t.natAbs ≤ 8640000000000000 then some t else none

/-- The years 0 to 99 stand for 1900 to 1999. -/
def fullYear (year : ℤ) : ℤ := if 0 ≤ year ∧ year ≤ 99 then 1900 + year else year

/-- Days before the first or after the last of the month run on. -/
def makeDay (year : ℤ) (month : ℕ) (day : ℤ) : ℤ := Civil.daysFromCivil ⟨year, month, 1⟩ + (day - 1)

structure DateTime where
  year : ℤ
  month : ℕ
  day : ℕ
  hours : ℕ
  minutes : ℕ
  seconds : ℕ
  ms : ℕ

/-- `Date.UTC` -/
def dateUTC (d : DateTime) : Option ℤ :=
  timeClip (makeDay (fullYear d.year) d.month d.day * msPerDay +
    (((d.hours * 60 + d.minutes) * 60 + d.seconds) * 1000 + d.ms : ℕ))

/-- `new Date(year, month, day)`, by its day. -/
def newDate (browser : LocalCalendar) (year : ℤ) (month : ℕ) (day : ℤ) : ℤ :=
  browser.midnight (makeDay (fullYear year) month day)

/-! ### Views -/

inductive TaskCalendarMode where
  | day | week | month

/-- Sunday is day 0 of a week, Saturday day 6. -/
inductive WeekStart where
  | sunday | saturday

def WeekStart.number : WeekStart → ℤ
  | .sunday => 0
  | .saturday => 6

/-- `getDay`; the epoch was a Thursday. -/
def weekday (day : ℤ) : ℤ := (day + 4) % 7

def addCalendarDays (browser : LocalCalendar) (value amount : ℤ) : ℤ :=
  let date := Civil.civilFromDays value
  newDate browser date.year date.month (date.day + amount)

def calendarDayStart (browser : LocalCalendar) (value : ℤ) : ℤ :=
  let date := Civil.civilFromDays value
  newDate browser date.year date.month date.day

def startOfCalendarWeek (browser : LocalCalendar) (value : ℤ) (weekStartsOn : WeekStart) : ℤ :=
  let start := calendarDayStart browser value
  let offset := (weekday start - weekStartsOn.number + 7) % 7
  addCalendarDays browser start (-offset)

def calendarDaysForView (browser : LocalCalendar) (anchor : ℤ) (mode : TaskCalendarMode)
    (weekStartsOn : WeekStart) : List ℤ :=
  match mode with
  | .day => [calendarDayStart browser anchor]
  | .week =>
    let start := startOfCalendarWeek browser anchor weekStartsOn
    (List.range 7).map fun (index : ℕ) => addCalendarDays browser start index
  | .month =>
    let date := Civil.civilFromDays anchor
    let monthStart := newDate browser date.year date.month 1
    let gridStart := startOfCalendarWeek browser monthStart weekStartsOn
    (List.range 42).map fun (index : ℕ) => addCalendarDays browser gridStart index

/-! ### The query -/

/-- Where the calendar has no year 0, the years before are counted backwards from 1, without a sign. -/
def eraYear (year : ℤ) : ℤ := if year ≤ 0 then 1 - year else year

def TimeZone.localTime (zone : TimeZone) (t : ℤ) : ℤ := t + zone.offset t

/-- `formatToParts`, with hour 24 read as hour 0. -/
def formatToParts (zone : TimeZone) (t : ℤ) : DateTime :=
  let date := Civil.civilFromDays (zone.localTime t / msPerDay)
  let n := (zone.localTime t % msPerDay).toNat
  { year := eraYear date.year, month := date.month, day := date.day, hours := n / 3600000
    minutes := n / 60000 % 60, seconds := n / 1000 % 60, ms := n % 1000 }

/-- `timezone?.trim() || "UTC"` -/
def zoneName (timezone : String) : String :=
  if Text.trim timezone = "" then "UTC" else Text.trim timezone

/-- One round of the loop of `zonedTimeToUtc`: the next guess, and whether the loop ends.  The
formatter throws where the guess is no date. -/
def correct (zone : TimeZone) (targetAsUtc : ℤ) (guess : Option ℤ) : Except Unit (Option ℤ × Bool) :=
  match guess.bind timeClip with
  | none => .error ()
  | some t =>
    match dateUTC (formatToParts zone t) with
    | none => .ok (none, false)
    | some zonedAsUtc =>
      if zonedAsUtc - targetAsUtc = 0 then .ok (some t, true)
      else .ok (some (t - (zonedAsUtc - targetAsUtc)), false)

def adjust (zone : TimeZone) (targetAsUtc : ℤ) : ℕ → Option ℤ → Except Unit (Option ℤ)
  | 0, guess => .ok guess
  | n + 1, guess =>
    match correct zone targetAsUtc guess with
    | .error e => .error e
    | .ok (guess, true) => .ok guess
    | .ok (guess, false) => adjust zone targetAsUtc n guess

/-- The time at which the clocks of a zone show a date; `none` is an invalid date. -/
def zonedTimeToUtc (zones : ZoneTable) (d : DateTime) (timezone : String) : Option ℤ :=
  match dateUTC d, zones.zone (zoneName timezone) with
  | some targetAsUtc, some zone =>
    match adjust zone targetAsUtc 4 (some targetAsUtc) with
    | .ok guess => guess.bind timeClip
    | .error _ => some targetAsUtc
  | targetAsUtc, _ => targetAsUtc

def startOfDay (day : ℤ) : DateTime :=
  let date := Civil.civilFromDays day
  { year := date.year, month := date.month, day := date.day, hours := 0, minutes := 0, seconds := 0
    ms := 0 }

def endOfDay (day : ℤ) : DateTime :=
  { startOfDay day with hours := 23, minutes := 59, seconds := 59, ms := 999 }

/-- The ISO texts of a query are kept as the times they are read back as. -/
structure QueryRange where
  days : List ℤ
  rangeStart : ℤ
  rangeEnd : ℤ
  envelopeStart : ℤ
  envelopeEnd : ℤ
  calendarFrom : ℤ
  calendarTo : ℤ
  calendarTimezone : String

/-- `toISOString` throws for an invalid date, and there is no query. -/
def visibleCalendarQueryRange (browser : LocalCalendar) (zones : ZoneTable) (anchor : ℤ)
    (mode : TaskCalendarMode) (weekStartsOn : WeekStart) (calendarTimezone : Option String) :
    Option QueryRange := do
  let days := calendarDaysForView browser anchor mode weekStartsOn
  let firstDay ← days.head?
  let lastDay ← days.getLast?
  let tz := zoneName (calendarTimezone.getD "UTC")
  let rangeStart ← zonedTimeToUtc zones (startOfDay firstDay) tz
  let rangeEnd ← zonedTimeToUtc zones (endOfDay lastDay) tz
  let envelopeStart ← timeClip (rangeStart - hours 24)
  let envelopeEnd ← timeClip (rangeEnd + hours 24)
  some
    { days, rangeStart, rangeEnd, envelopeStart, envelopeEnd, calendarFrom := envelopeStart
      calendarTo := envelopeEnd, calendarTimezone := tz }

/-! ### Tasks -/

def calendarDayKey (day : ℤ) : List Char := dayText day

/-- A date of a task, as a text or as a `Date`; `day` is a text of the form `yyyy-mm-dd`. -/
inductive TaskDate where
  | day (text : List Char)
  | time (date : JsDate)

structure CalendarTaskInput where
  startDate : Option TaskDate
  dueDate : Option TaskDate
  timezone : Option String

/-- The key of a time: as `en-CA` writes it, or in UTC where the time zone is unknown. -/
def timeKey (zones : ZoneTable) (t : ℤ) (timezone : String) : List Char :=
  match zones.zone (zoneName timezone) with
  | some zone =>
    let parts := formatToParts zone t
    dateText parts.year parts.month parts.day
  | none => dayText (t / msPerDay)

def taskDayKey (zones : ZoneTable) (value : Option TaskDate) (timezone : String) :
    Option (List Char) :=
  match value with
  | none => none
  | some (.day text) => some text
  | some (.time .invalid) => none
  | some (.time (.time t)) => some (timeKey zones t timezone)

/-- A text that is not empty. -/
def truthy (text : Option String) : Option String := text.filter fun t => t ≠ ""

/-- `calendarTimezone || task.timezone || "UTC"` -/
def CalendarTaskInput.dayTimezone (task : CalendarTaskInput) (calendarTimezone : Option String) :
    String :=
  ((truthy calendarTimezone).or (truthy task.timezone)).getD "UTC"

def taskOccursOnCalendarDay (zones : ZoneTable) (task : CalendarTaskInput) (day : ℤ)
    (calendarTimezone : Option String) : Bool :=
  let tz := task.dayTimezone calendarTimezone
  match taskDayKey zones (task.startDate.or task.dueDate) tz,
      taskDayKey zones (task.dueDate.or task.startDate) tz with
  | some startKey, some dueKey =>
    let targetKey := calendarDayKey day
    let lower := if startKey ≤ dueKey then startKey else dueKey
    let upper := if startKey ≤ dueKey then dueKey else startKey
    lower ≤ targetKey && targetKey ≤ upper
  | _, _ => false

def taskOccursWithinVisibleRange (zones : ZoneTable) (task : CalendarTaskInput) (days : List ℤ)
    (calendarTimezone : Option String) : Bool :=
  days.any fun day => taskOccursOnCalendarDay zones task day calendarTimezone

/-! ### The server -/

/-- The conditions of `buildListConditions` on the dates of a row; a comparison with null is not
fulfilled. -/
def calendarCondition (calendarFrom calendarTo startDate dueDate : Option Timestamptz) : Bool :=
  let dated := startDate.isSome || dueDate.isSome
  let startsBefore (time : Timestamptz) := (startDate.or dueDate).any fun date => date ≤ time
  let endsAfter (time : Timestamptz) := (dueDate.or startDate).any fun date => time ≤ date
  match calendarFrom, calendarTo with
  | some calendarFrom, some calendarTo => dated && startsBefore calendarTo && endsAfter calendarFrom
  | some calendarFrom, none => dated && endsAfter calendarFrom
  | none, some calendarTo => dated && startsBefore calendarTo
  | none, none => true

end CalmBoard.Calendar
