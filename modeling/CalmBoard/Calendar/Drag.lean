import CalmBoard.Calendar.Covered

/-!
# CalmBoard.Calendar.Drag — moving tasks in the calendar

* `CalendarDay`: the days whose keys `calendarDayFromKey` reads back (`calendarDayFromKey_eq_some_iff`).
* `FixedClock`: the clocks of a browser at a fixed offset from UTC.
* `shiftTaskCalendarDates`, `resizeTaskCalendarEnd`: the new dates of a task that is moved, or whose end
  is moved.

An empty text is a missing date.
-/

namespace CalmBoard.Calendar

open IsoDate (msPerDay matchDate pad2 pad3 pad4)
open DateText (dateText dayText)

/-! ### Days with a key of ten characters -/

variable {n : ℤ}

def CalendarDay (n : ℤ) : Prop :=
  1000 ≤ (Civil.civilFromDays n).year ∧ (Civil.civilFromDays n).year ≤ 9999

instance (n : ℤ) : Decidable (CalendarDay n) := inferInstanceAs (Decidable (_ ∧ _))

/-- The key must be the one of the day that it is read as. -/
def calendarDayFromKey (value : List Char) : Option ℤ :=
  match matchDate value with
  | some (date, []) =>
    let day := makeDay (fullYear date.year) date.month date.day
    if calendarDayKey day = value then some day else none
  | _ => none

theorem year_le_iff (year : ℤ) :
    year ≤ (Civil.civilFromDays n).year ↔ Civil.daysBeforeYear year ≤ n + Civil.epochOffset := by
  obtain ⟨hle, hlt⟩ := Civil.yearOf_spec (n + Civil.epochOffset)
  have hyear : (Civil.civilFromDays n).year = Civil.yearOf (n + Civil.epochOffset) := rfl
  rw [hyear]
  constructor
  · intro h
    exact (Civil.daysBeforeYear_mono h).trans hle
  · intro h
    by_contra hbefore
    have hmono := Civil.daysBeforeYear_mono
      (show Civil.yearOf (n + Civil.epochOffset) + 1 ≤ year by omega)
    omega

theorem calendarDay_iff : CalendarDay n ↔ -354285 ≤ n ∧ n ≤ 2932896 := by
  have hfirst : Civil.daysBeforeYear 1000 = -354285 + Civil.epochOffset := by decide
  have hlast : Civil.daysBeforeYear 10000 = 2932897 + Civil.epochOffset := by decide
  have hlow := year_le_iff (n := n) 1000
  have hhigh := year_le_iff (n := n) 10000
  unfold CalendarDay
  omega

theorem toDigits_four {y : ℕ} (h : 1000 ≤ y) (h' : y ≤ 9999) : Nat.toDigits 10 y = pad4 y := by
  have hdigit : ∀ d < 10, Nat.digitChar d = Char.ofNat (48 + d) := by decide
  rw [Nat.toDigits_of_base_le (by omega) (by omega), Nat.toDigits_of_base_le (by omega) (by omega),
    Nat.toDigits_of_base_le (by omega) (by omega), Nat.toDigits_of_lt_base (by omega)]
  rw [hdigit _ (by omega), hdigit _ (by omega), hdigit _ (by omega), hdigit _ (by omega)]
  simp only [pad4, pad3, pad2, IsoDate.digit, List.cons_append, List.nil_append, Nat.div_div_eq_div_mul]
  have htop : y / 1000 % 10 = y / 1000 := by omega
  simp [htop]

theorem calendarDayKey_eq (h : CalendarDay n) :
    calendarDayKey n = pad4 (Civil.civilFromDays n).year.natAbs ++
      '-' :: (pad2 (Civil.civilFromDays n).month ++ '-' :: pad2 (Civil.civilFromDays n).day) := by
  obtain ⟨hlow, hhigh⟩ := h
  rw [calendarDayKey, DateText.dayText_eq (by omega), toDigits_four (by omega) (by omega)]

theorem calendarDayFromKey_key (h : CalendarDay n) :
    calendarDayFromKey (calendarDayKey n) = some n := by
  have hmatch := IsoDate.matchDate_pad (show (Civil.civilFromDays n).year.natAbs < 10000 by
    have hyear := h.2
    have hlow := h.1
    omega) (DateText.month_lt n) (DateText.day_lt n) []
  have hyear : ((Civil.civilFromDays n).year.natAbs : ℤ) = (Civil.civilFromDays n).year := by
    have hlow := h.1
    omega
  have hkey := calendarDayKey_eq h
  have hmatch' : matchDate (calendarDayKey n) = some (Civil.civilFromDays n, []) := by
    rw [hkey]
    simp only [List.append_nil, List.append_assoc, List.cons_append] at hmatch
    rw [hmatch, hyear]
  unfold calendarDayFromKey
  rw [hmatch']
  dsimp only
  rw [fullYear_of_ge (by have hlow := h.1; omega), makeDay_civil, if_pos rfl]

theorem length_of_matchDate {value rest : List Char} {date : Civil.Date}
    (h : matchDate value = some (date, rest)) : value.length = 10 + rest.length := by
  unfold matchDate at h
  split at h
  · simp only [Option.bind_eq_bind, Option.bind_eq_some_iff] at h
    obtain ⟨y, -, m, -, d, -, hdate⟩ := h
    cases hdate
    simp only [List.length_cons]
    omega
  · cases h

/-- **Keys** stand for the days with four digits in their year, and for no others. -/
theorem calendarDayFromKey_eq_some_iff {value : List Char} :
    calendarDayFromKey value = some n ↔ CalendarDay n ∧ value = calendarDayKey n := by
  constructor
  · intro h
    unfold calendarDayFromKey at h
    split at h
    · rename_i date hmatch
      obtain ⟨hkey, hday⟩ := Option.ite_none_right_eq_some.mp h
      rw [Option.some.inj hday] at hkey
      refine ⟨?_, hkey.symm⟩
      have hlength := length_of_matchDate hmatch
      rw [← hkey] at hlength hmatch
      unfold calendarDayKey dayText dateText at hlength hmatch
      simp only [List.length_append, List.length_cons, pad2, List.length_nil] at hlength
      have hpos : 0 ≤ (Civil.civilFromDays n).year := by
        by_contra hneg
        rw [DateText.yearText, if_pos (by omega), List.cons_append,
          IsoDate.matchDate_of_head (by decide)] at hmatch
        cases hmatch
      rw [DateText.yearText_of_nonneg hpos] at hlength
      have hlow := Nat.length_toDigits_le_iff (n := (Civil.civilFromDays n).year.natAbs) (b := 10)
        (k := 3) (by omega) (by omega)
      have hhigh := Nat.length_toDigits_le_iff (n := (Civil.civilFromDays n).year.natAbs) (b := 10)
        (k := 4) (by omega) (by omega)
      unfold CalendarDay
      omega
    · cases h
  · rintro ⟨hday, rfl⟩
    exact calendarDayFromKey_key hday

/-! ### Moving dates -/

/-- The clocks of a browser, always as far from UTC. -/
structure FixedClock where
  offset : ℤ
  least : hours (-12) ≤ offset
  most : offset ≤ hours 14

namespace FixedClock

variable (browser : FixedClock)

/-- The day of `getFullYear`, `getMonth` and `getDate`. -/
def localDay (t : ℤ) : ℤ := (t + browser.offset) / msPerDay

def timeOfDay (t : ℤ) : ℤ := (t + browser.offset) % msPerDay

/-- `setDate` and `setFullYear` keep the time of day. -/
def setDay (t day : ℤ) : Option ℤ := timeClip (day * msPerDay + browser.timeOfDay t - browser.offset)

end FixedClock

/-- How `new Date` reads a date without a time: the ISO dates as midnight in UTC. -/
structure DateReader where
  day : List Char → JsDate
  iso : ∀ n, CalendarDay n → day (calendarDayKey n) = .time (n * msPerDay)

/-- `new Date(value)` -/
def DateReader.read (reader : DateReader) : TaskDate → JsDate
  | .day text => reader.day text
  | .time date => date

/-- Throws a `RangeError` for an invalid date. -/
def toISOString (t : Option ℤ) : Except Unit TaskDate :=
  match t with
  | some t => .ok (.time (.time t))
  | none => .error ()

/-- `Math.round` has nothing to do for two midnights; `none` is not a number. -/
def calendarDayDifference (target source : ℤ) : Option ℤ := do
  let targetSerial ← dateUTC (startOfDay target)
  let sourceSerial ← dateUTC (startOfDay source)
  some ((targetSerial - sourceSerial) / msPerDay)

section Moves

variable (reader : DateReader) (browser : FixedClock)

def shiftDate (value : TaskDate) (dayDelta : Option ℤ) : Except Unit (Option TaskDate) :=
  match reader.read value with
  | .invalid => .ok none
  | .time t => do
    let date := Civil.civilFromDays (browser.localDay t)
    let moved := dayDelta.bind fun dayDelta =>
      browser.setDay t (makeDay date.year date.month (date.day + dayDelta))
    some <$> toISOString moved

def moveDateToDay (value : TaskDate) (target : ℤ) : Except Unit (Option TaskDate) :=
  match reader.read value with
  | .invalid => .ok none
  | .time t => do
    let date := Civil.civilFromDays target
    some <$> toISOString (browser.setDay t (makeDay date.year date.month date.day))

structure TaskDates where
  startDate : Option TaskDate
  dueDate : Option TaskDate

/-- A date that is missing stays so. -/
def shiftOptional (value : Option TaskDate) (dayDelta : Option ℤ) :
    Except Unit (Option TaskDate) :=
  match value with
  | some value => shiftDate reader browser value dayDelta
  | none => .ok none

def shiftTaskCalendarDates (task : CalendarTaskInput) (targetDay sourceDay : ℤ) :
    Except Unit (Option TaskDates) :=
  if task.startDate.isNone && task.dueDate.isNone then .ok none
  else do
    let dayDelta := calendarDayDifference targetDay sourceDay
    let startDate ← shiftOptional reader browser task.startDate dayDelta
    let dueDate ← shiftOptional reader browser task.dueDate dayDelta
    if (task.startDate.isSome && startDate.isNone) || (task.dueDate.isSome && dueDate.isNone) then
      .ok none
    else .ok (some { startDate, dueDate })

def resizeTaskCalendarEnd (task : CalendarTaskInput) (targetDay : ℤ) :
    Except Unit (Option TaskDates) :=
  match task.startDate.or task.dueDate with
  | none => .ok none
  | some effectiveStartText =>
    match reader.read effectiveStartText with
    | .invalid => .ok none
    | .time effectiveStart =>
      -- a difference that is not a number is not less than zero
      if (calendarDayDifference targetDay (browser.localDay effectiveStart)).any (· < 0) then .ok none
      else do
        let dueDate ← moveDateToDay reader browser (task.dueDate.getD effectiveStartText) targetDay
        match dueDate with
        | none => .ok none
        | some dueDate =>
          .ok (some
            { startDate := some (task.startDate.getD (.time (.time effectiveStart)))
              dueDate := some dueDate })

end Moves

/-- The task as it is shown with new dates. -/
def CalendarTaskInput.withDates (task : CalendarTaskInput) (dates : TaskDates) : CalendarTaskInput :=
  { task with startDate := dates.startDate, dueDate := dates.dueDate }

end CalmBoard.Calendar
