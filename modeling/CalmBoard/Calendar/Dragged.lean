import CalmBoard.Calendar.Drag
import CalmBoard.Lib.Fallible
import Mathlib.Order.Bounds.Basic

/-!
# CalmBoard.Calendar.Dragged — where a dragged task is shown

* `occurs_iff`: the day test, for days with keys of ten characters.
* `EndsOn`: the start is not after the end, and the last day of a task is the given one.
* `drag_iff`: when a moved end lands on its day, and when moved dates take their days along.
* `resize_before_start`: an end in the morning of the day on which the task starts in the evening.
-/

namespace CalmBoard.Calendar

open IsoDate (msPerDay)

variable {zones : ZoneTable} {tz : String}

/-! ### Keys and days -/

variable {calendarTimezone : Option String} {date : TaskDate}

theorem calendarDayKey_le_iff {m n : ℤ} (hm : CalendarDay m) (hn : CalendarDay n) :
    calendarDayKey m ≤ calendarDayKey n ↔ m ≤ n := by
  have hlength : ∀ {n : ℤ}, CalendarDay n →
      (DateText.yearText (Civil.civilFromDays n).year).length = 4 := by
    rintro n ⟨hlow, hhigh⟩
    rw [DateText.yearText_of_nonneg (by omega), toDigits_four (by omega) (by omega)]
    rfl
  have hlt : ∀ {m n : ℤ}, CalendarDay m → CalendarDay n → m < n →
      calendarDayKey m < calendarDayKey n := by
    intro m n hm hn h
    have hpos := hm.1
    exact DateText.dayText_lt h (by omega) ((hlength hm).trans (hlength hn).symm)
  constructor
  · intro h
    by_contra hnot
    exact not_le.mpr (hlt hn hm (not_le.mp hnot)) h
  · intro h
    rcases h.lt_or_eq with h | rfl
    · exact le_of_lt (hlt hm hn h)
    · exact le_refl _

/-- The day that the day test takes for a date. -/
def shownDay (zones : ZoneTable) (tz : String) : TaskDate → Option ℤ
  | .day text => calendarDayFromKey text
  | .time .invalid => none
  | .time (.time t) => some (localDay zones tz t)

theorem taskDayKey_eq {n : ℤ} (h : shownDay zones tz date = some n) (hday : CalendarDay n) :
    taskDayKey zones (some date) tz = some (calendarDayKey n) := by
  match date with
  | .day text =>
    obtain ⟨-, rfl⟩ := calendarDayFromKey_eq_some_iff.mp h
    rfl
  | .time .invalid => cases h
  | .time (.time t) =>
    have hn : localDay zones tz t = n := Option.some.inj h
    subst hn
    have hyear := hday.1
    exact congrArg some (timeKey_eq (by omega))

theorem occurs_iff {task : CalendarTaskInput} {start due : TaskDate} {a b day : ℤ}
    (hstart : task.startDate.or task.dueDate = some start)
    (hdue : task.dueDate.or task.startDate = some due)
    (ha : shownDay zones (task.dayTimezone calendarTimezone) start = some a)
    (hb : shownDay zones (task.dayTimezone calendarTimezone) due = some b) (hda : CalendarDay a)
    (hdb : CalendarDay b) (hday : CalendarDay day) :
    taskOccursOnCalendarDay zones task day calendarTimezone = true ↔ min a b ≤ day ∧ day ≤ max a b := by
  unfold taskOccursOnCalendarDay
  dsimp only
  rw [hstart, hdue, taskDayKey_eq ha hda, taskDayKey_eq hb hdb]
  dsimp only
  rw [Bool.and_eq_true, decide_eq_true_eq, decide_eq_true_eq]
  by_cases h : a ≤ b
  · rw [if_pos ((calendarDayKey_le_iff hda hdb).mpr h), if_pos ((calendarDayKey_le_iff hda hdb).mpr h),
      calendarDayKey_le_iff hda hday, calendarDayKey_le_iff hday hdb, min_eq_left h, max_eq_right h]
  · have hle : ¬ calendarDayKey a ≤ calendarDayKey b := fun hle => h ((calendarDayKey_le_iff hda hdb).mp hle)
    rw [if_neg hle, if_neg hle, calendarDayKey_le_iff hdb hday, calendarDayKey_le_iff hday hda,
      min_eq_right (by omega), max_eq_left (by omega)]

/-! ### Moving the end -/

namespace CalendarTaskInput

variable (reader : DateReader) (task : CalendarTaskInput)

def startTime : JsDate := ((task.startDate.or task.dueDate).map reader.read).getD .invalid

def dueTime : JsDate := ((task.dueDate.or task.startDate).map reader.read).getD .invalid

end CalendarTaskInput

/-- The start is not after the end, and the last day on which the task is shown is the given one. -/
structure EndsOn (reader : DateReader) (zones : ZoneTable) (task : CalendarTaskInput)
    (calendarTimezone : Option String) (day : ℤ) : Prop where
  ordered : ∃ s d, task.startTime reader = .time s ∧ task.dueTime reader = .time d ∧ s ≤ d
  last : IsGreatest
    {day | CalendarDay day ∧ taskOccursOnCalendarDay zones task day calendarTimezone = true} day

/-- The day in the calendar of an end at `d` that was moved to the target day in the browser. -/
def movedEndDay (browser : FixedClock) (offset d targetDay : ℤ) : ℤ :=
  targetDay + (browser.timeOfDay d + (offset - browser.offset)) / msPerDay

/-- Times of day in the browser decide on a task that starts on the target day; in the calendar the
moved end can be on another day. -/
def LandsOn (browser : FixedClock) (offset startDay s d targetDay : ℤ) : Prop :=
  (browser.localDay s < targetDay ∨
      browser.localDay s = targetDay ∧ browser.timeOfDay s ≤ browser.timeOfDay d) ∧
    max startDay (movedEndDay browser offset d targetDay) = targetDay

variable {reader : DateReader} {browser : FixedClock} {task : CalendarTaskInput} {dates : TaskDates}
  {offset targetDay : ℤ}

theorem setDay_eq_some {t day u : ℤ} (h : browser.setDay t day = some u) :
    u = day * msPerDay + browser.timeOfDay t - browser.offset := timeClip_eq_some h

theorem toISOString_ok {t : Option ℤ} (h : toISOString t = .ok date) :
    ∃ u, t = some u ∧ date = .time (.time u) := by
  unfold toISOString at h
  split at h
  · rename_i u
    exact ⟨u, rfl, (Except.ok.inj h).symm⟩
  · cases h

theorem moveDateToDay_ok {value : TaskDate} {target : ℤ}
    (h : moveDateToDay reader browser value target = .ok (some date)) :
    ∃ t, reader.read value = .time t ∧
      date = .time (.time (target * msPerDay + browser.timeOfDay t - browser.offset)) := by
  unfold moveDateToDay at h
  split at h
  · cases h
  · rename_i t ht
    obtain ⟨moved, hmoved, hdate⟩ := Fallible.map_ok.mp h
    obtain ⟨u, hu, rfl⟩ := toISOString_ok hmoved
    rw [makeDay_civil] at hu
    refine ⟨t, ht, ?_⟩
    rw [← setDay_eq_some hu]
    exact (Option.some.inj hdate).symm

theorem calendarDayDifference_eq {target source : ℤ} (ht : CalendarDay target)
    (hs : CalendarDay source) : calendarDayDifference target source = some (target - source) := by
  have hserial : ∀ {n : ℤ}, CalendarDay n → dateUTC (startOfDay n) = some (n * msPerDay) := by
    intro n hn
    rw [calendarDay_iff] at hn
    have hfirst : firstPlainDay ≤ n := by
      have hplain : firstPlainDay = -683003 := by decide
      omega
    rw [dateUTC_startOfDay (fullYear_of_ge (year_ge hfirst))]
    unfold msPerDay timeClip
    exact if_pos (by omega)
  unfold calendarDayDifference
  rw [hserial ht, hserial hs]
  show some ((target * msPerDay - source * msPerDay) / msPerDay) = _
  unfold msPerDay
  congr 1
  omega

theorem resizeTaskCalendarEnd_ok
    (h : resizeTaskCalendarEnd reader browser task targetDay = .ok (some dates)) :
    ∃ s d, task.startTime reader = .time s ∧ task.dueTime reader = .time d ∧
      (calendarDayDifference targetDay (browser.localDay s)).any (· < 0) = false ∧
      dates =
        { startDate := some (task.startDate.getD (.time (.time s)))
          dueDate := some
            (.time (.time (targetDay * msPerDay + browser.timeOfDay d - browser.offset))) } := by
  unfold resizeTaskCalendarEnd at h
  split at h
  · cases h
  · rename_i start hstart
    split at h
    · cases h
    · rename_i s hs
      split at h
      · cases h
      · rename_i hlate
        obtain ⟨due, hdue, h⟩ := Fallible.bind_ok.mp h
        split at h
        · cases h
        · rename_i due
          obtain ⟨d, hd, rfl⟩ := moveDateToDay_ok hdue
          refine ⟨s, d, ?_, ?_, Bool.eq_false_iff.mpr hlate, (Option.some.inj (Except.ok.inj h)).symm⟩
          · rw [CalendarTaskInput.startTime, hstart, Option.map_some, hs, Option.getD_some]
          · have hor : task.dueDate.or task.startDate = some (task.dueDate.getD start) := by
              cases hdate : task.dueDate with
              | some due => rfl
              | none =>
                rw [hdate, Option.or_none] at hstart
                rw [hstart]
                rfl
            rw [CalendarTaskInput.dueTime, hor, Option.map_some, hd, Option.getD_some]

theorem movedEnd_day {t day : ℤ} (hoffset : ∀ t, (shownZone zones tz).offset t = offset) :
    localDay zones tz (day * msPerDay + browser.timeOfDay t - browser.offset) =
      movedEndDay browser offset t day := by
  rw [localDay, TimeZone.localTime, hoffset, movedEndDay]
  unfold msPerDay
  omega

theorem start_le_movedEnd {s d : ℤ} :
    s ≤ targetDay * msPerDay + browser.timeOfDay d - browser.offset ↔
      browser.localDay s < targetDay ∨
        browser.localDay s = targetDay ∧ browser.timeOfDay s ≤ browser.timeOfDay d := by
  unfold FixedClock.localDay FixedClock.timeOfDay msPerDay
  omega

theorem isGreatest_iff {a b day : ℤ} {P : ℤ → Prop} (ha : CalendarDay a) (hb : CalendarDay b)
    (hday : CalendarDay day) (hP : ∀ n, CalendarDay n → (P n ↔ min a b ≤ n ∧ n ≤ max a b)) :
    IsGreatest {n | CalendarDay n ∧ P n} day ↔ max a b = day := by
  have hmax : CalendarDay (max a b) := by
    rcases max_choice a b with h | h
    · rwa [h]
    · rwa [h]
  constructor
  · rintro ⟨⟨-, hmem⟩, hupper⟩
    have hle := hupper ⟨hmax, (hP _ hmax).mpr ⟨min_le_max, le_refl _⟩⟩
    exact le_antisymm hle ((hP day hday).mp hmem).2
  · rintro rfl
    refine ⟨⟨hmax, (hP _ hmax).mpr ⟨min_le_max, le_refl _⟩⟩, ?_⟩
    rintro n ⟨hn, hmem⟩
    exact ((hP n hn).mp hmem).2

theorem read_start {s : ℤ} (hs : task.startTime reader = .time s) :
    reader.read (task.startDate.getD (.time (.time s))) = .time s := by
  cases hdate : task.startDate with
  | none => rfl
  | some date =>
    rw [CalendarTaskInput.startTime, hdate, Option.some_or, Option.map_some, Option.getD_some] at hs
    exact hs

/-- **The end**: it lands on the target day exactly when the times of day allow it. -/
theorem resize_endsOn_iff {s d startDay : ℤ}
    (hoffset : ∀ t, (shownZone zones (task.dayTimezone calendarTimezone)).offset t = offset)
    (h : resizeTaskCalendarEnd reader browser task targetDay = .ok (some dates))
    (hs : task.startTime reader = .time s) (hd : task.dueTime reader = .time d)
    (hday : shownDay zones (task.dayTimezone calendarTimezone)
      (task.startDate.getD (.time (.time s))) = some startDay) (hplain : CalendarDay startDay)
    (htarget : CalendarDay targetDay) (hplain' : CalendarDay (movedEndDay browser offset d targetDay)) :
    EndsOn reader zones (task.withDates dates) calendarTimezone targetDay ↔
      LandsOn browser offset startDay s d targetDay := by
  obtain ⟨s', d', hs', hd', -, hdates⟩ := resizeTaskCalendarEnd_ok h
  cases hs.symm.trans hs'
  cases hd.symm.trans hd'
  have hstart : (task.withDates dates).startDate.or (task.withDates dates).dueDate =
      some (task.startDate.getD (.time (.time s))) := by
    rw [hdates]
    rfl
  have hdue : (task.withDates dates).dueDate.or (task.withDates dates).startDate =
      some (.time (.time (targetDay * msPerDay + browser.timeOfDay d - browser.offset))) := by
    rw [hdates]
    rfl
  have hend : shownDay zones (task.dayTimezone calendarTimezone) (.time (.time
      (targetDay * msPerDay + browser.timeOfDay d - browser.offset))) =
        some (movedEndDay browser offset d targetDay) :=
    congrArg some (movedEnd_day hoffset)
  have hlast := isGreatest_iff hplain hplain' htarget fun n hn =>
    occurs_iff hstart hdue hday hend hplain hplain' hn
  have hs'' : (task.withDates dates).startTime reader = .time s := by
    rw [CalendarTaskInput.startTime, hstart]
    exact read_start hs
  have hd'' : (task.withDates dates).dueTime reader =
      .time (targetDay * msPerDay + browser.timeOfDay d - browser.offset) := by
    rw [CalendarTaskInput.dueTime, hdue]
    rfl
  constructor
  · rintro ⟨⟨u, v, hu, hv, hle⟩, hgreatest⟩
    cases hs''.symm.trans hu
    cases hd''.symm.trans hv
    exact ⟨start_le_movedEnd.mp hle, hlast.mp hgreatest⟩
  · rintro ⟨htimes, hmax⟩
    exact ⟨⟨s, _, hs'', hd'', start_le_movedEnd.mpr htimes⟩, hlast.mpr hmax⟩

/-! ### Moving both dates -/

theorem shiftDate_ok {value : TaskDate} {delta : ℤ}
    (h : shiftDate reader browser value (some delta) = .ok (some date)) :
    ∃ t, reader.read value = .time t ∧ date = .time (.time (t + delta * msPerDay)) := by
  unfold shiftDate at h
  split at h
  · cases h
  · rename_i t ht
    obtain ⟨moved, hmoved, hdate⟩ := Fallible.map_ok.mp h
    obtain ⟨u, hu, rfl⟩ := toISOString_ok hmoved
    rw [Option.bind_some, makeDay_add, makeDay_civil] at hu
    have heq : u = t + delta * msPerDay := by
      rw [setDay_eq_some hu]
      unfold FixedClock.localDay FixedClock.timeOfDay msPerDay
      omega
    exact ⟨t, ht, heq ▸ (Option.some.inj hdate).symm⟩

theorem shiftOptional_ok {value shifted : Option TaskDate} {delta : ℤ}
    (h : shiftOptional reader browser value (some delta) = .ok shifted)
    (hsome : ¬(value.isSome && shifted.isNone) = true) :
    value = none ∧ shifted = none ∨
      ∃ date t, value = some date ∧ reader.read date = .time t ∧
        shifted = some (.time (.time (t + delta * msPerDay))) := by
  match value, shifted with
  | none, shifted =>
    cases h
    exact Or.inl ⟨rfl, rfl⟩
  | some date, none => exact absurd rfl hsome
  | some date, some moved =>
    obtain ⟨t, ht, rfl⟩ := shiftDate_ok h
    exact Or.inr ⟨date, t, rfl, ht, rfl⟩

theorem shiftTaskCalendarDates_ok {sourceDay : ℤ} (htarget : CalendarDay targetDay)
    (hsource : CalendarDay sourceDay)
    (h : shiftTaskCalendarDates reader browser task targetDay sourceDay = .ok (some dates)) :
    ∃ start due s d, task.startDate.or task.dueDate = some start ∧
      task.dueDate.or task.startDate = some due ∧ reader.read start = .time s ∧
      reader.read due = .time d ∧
      dates.startDate.or dates.dueDate =
        some (.time (.time (s + (targetDay - sourceDay) * msPerDay))) ∧
      dates.dueDate.or dates.startDate =
        some (.time (.time (d + (targetDay - sourceDay) * msPerDay))) := by
  unfold shiftTaskCalendarDates at h
  split at h
  · cases h
  · rename_i hdated
    dsimp only at h
    rw [calendarDayDifference_eq htarget hsource] at h
    obtain ⟨startDate, hstart, h⟩ := Fallible.bind_ok.mp h
    obtain ⟨dueDate, hdue, h⟩ := Fallible.bind_ok.mp h
    split at h
    · cases h
    · rename_i hnone
      rw [Bool.or_eq_true, not_or] at hnone
      obtain rfl := Option.some.inj (Except.ok.inj h)
      dsimp only
      rcases shiftOptional_ok hstart hnone.1 with ⟨hs, rfl⟩ | ⟨start, s, hs, hread, rfl⟩
      · rcases shiftOptional_ok hdue hnone.2 with ⟨hd, rfl⟩ | ⟨due, d, hd, hread', rfl⟩
        · rw [hs, hd] at hdated
          exact absurd rfl hdated
        · exact ⟨due, due, d, d, by rw [hs, hd]; rfl, by rw [hd]; rfl, hread', hread', rfl, rfl⟩
      · rcases shiftOptional_ok hdue hnone.2 with ⟨hd, rfl⟩ | ⟨due, d, hd, hread', rfl⟩
        · exact ⟨start, start, s, s, by rw [hs]; rfl, by rw [hs, hd]; rfl, hread, hread, rfl, rfl⟩
        · exact ⟨start, due, s, d, by rw [hs]; rfl, by rw [hd]; rfl, hread, hread', rfl, rfl⟩

/-- West of UTC a date without a time is shown a day earlier once it has one. -/
def slip (offset : ℤ) : TaskDate → ℤ
  | .day _ => if offset < 0 then 1 else 0
  | .time _ => 0

theorem slip_bounds (offset : ℤ) (date : TaskDate) : 0 ≤ slip offset date ∧ slip offset date ≤ 1 := by
  unfold slip
  split
  · split
    · omega
    · omega
  · omega

theorem slip_eq_zero_iff : slip offset date = 0 ↔ 0 ≤ offset ∨ ∃ t, date = .time t := by
  match date with
  | .day text =>
    have htext : ¬ ∃ t, TaskDate.day text = .time t := by rintro ⟨t, ht⟩; cases ht
    rw [or_iff_left htext, slip]
    by_cases h : offset < 0
    · rw [if_pos h]
      omega
    · rw [if_neg h]
      omega
  | .time t => exact ⟨fun _ => Or.inr ⟨t, rfl⟩, fun _ => rfl⟩

/-- The day of a date, and the one before where it slips, are in the calendar before and after. -/
def SlipsInside (offset delta : ℤ) (date : TaskDate) (n : ℤ) : Prop :=
  ∀ m, n - slip offset date ≤ m → m ≤ n → CalendarDay m ∧ CalendarDay (m + delta)

theorem shifted_day {t n delta : ℤ} (hoffset : ∀ t, (shownZone zones tz).offset t = offset)
    (hday : shownDay zones tz date = some n) (hread : reader.read date = .time t) :
    shownDay zones tz (.time (.time (t + delta * msPerDay))) = some (n + delta - slip offset date) := by
  have hleast := (shownZone zones tz).least t
  have hmost := (shownZone zones tz).most t
  rw [hoffset] at hleast hmost
  have hlocal : ∀ u, localDay zones tz u = (u + offset) / msPerDay := by
    intro u
    rw [localDay, TimeZone.localTime, hoffset]
  refine congrArg some ?_
  rw [hlocal]
  match date with
  | .day text =>
    obtain ⟨hplain, rfl⟩ := calendarDayFromKey_eq_some_iff.mp hday
    have hmidnight : t = n * msPerDay := JsDate.time.inj (hread.symm.trans (reader.iso n hplain))
    rw [hmidnight, slip]
    unfold hours at hleast hmost
    unfold msPerDay
    split
    · omega
    · omega
  | .time .invalid => cases hday
  | .time (.time u) =>
    cases hread
    have heq : localDay zones tz t = n := Option.some.inj hday
    rw [hlocal] at heq
    rw [slip, ← heq]
    unfold msPerDay
    omega

/-- **Both dates**: every day of the task moves along exactly when no date without a time slips. -/
theorem shift_occurs_iff {sourceDay : ℤ}
    (hoffset : ∀ t, (shownZone zones (task.dayTimezone calendarTimezone)).offset t = offset)
    (htarget : CalendarDay targetDay) (hsource : CalendarDay sourceDay)
    (hdays : ∀ date, task.startDate = some date ∨ task.dueDate = some date →
      ∃ n, shownDay zones (task.dayTimezone calendarTimezone) date = some n ∧
        SlipsInside offset (targetDay - sourceDay) date n)
    (h : shiftTaskCalendarDates reader browser task targetDay sourceDay = .ok (some dates)) :
    (∀ day, CalendarDay day → CalendarDay (day + (targetDay - sourceDay)) →
      (taskOccursOnCalendarDay zones (task.withDates dates) (day + (targetDay - sourceDay))
          calendarTimezone = true ↔
        taskOccursOnCalendarDay zones task day calendarTimezone = true)) ↔
      0 ≤ offset ∨ ∀ date, task.startDate = some date ∨ task.dueDate = some date →
        ∃ t, date = .time t := by
  obtain ⟨start, due, s, d, hstart, hdue, hs, hd, hstart', hdue'⟩ :=
    shiftTaskCalendarDates_ok htarget hsource h
  generalize targetDay - sourceDay = delta at hdays hstart' hdue' ⊢
  have hmem : (task.startDate = some start ∨ task.dueDate = some start) ∧
      (task.startDate = some due ∨ task.dueDate = some due) := by
    rw [Option.or_eq_some_iff] at hstart hdue
    exact ⟨hstart.imp id And.right, (hdue.imp id And.right).symm⟩
  have hall : ∀ date, task.startDate = some date ∨ task.dueDate = some date →
      date = start ∨ date = due := by
    rintro date (hdate | hdate)
    · rw [hdate] at hstart
      exact Or.inl (Option.some.inj hstart)
    · rw [hdate] at hdue
      exact Or.inr (Option.some.inj hdue)
  obtain ⟨a, ha, hina⟩ := hdays start hmem.1
  obtain ⟨b, hb, hinb⟩ := hdays due hmem.2
  have hslip := slip_bounds offset start
  have hslip' := slip_bounds offset due
  have hmoved := (hina (a - slip offset start) (by omega) (by omega)).2
  have hmoved' := (hinb (b - slip offset due) (by omega) (by omega)).2
  rw [show a - slip offset start + delta = a + delta - slip offset start by omega] at hmoved
  rw [show b - slip offset due + delta = b + delta - slip offset due by omega] at hmoved'
  have hold : ∀ day, CalendarDay day →
      (taskOccursOnCalendarDay zones task day calendarTimezone = true ↔
        min a b ≤ day ∧ day ≤ max a b) := fun day hday =>
    occurs_iff hstart hdue ha hb (hina a (by omega) le_rfl).1 (hinb b (by omega) le_rfl).1 hday
  have hnew : ∀ day, CalendarDay day →
      (taskOccursOnCalendarDay zones (task.withDates dates) day calendarTimezone = true ↔
        min (a + delta - slip offset start) (b + delta - slip offset due) ≤ day ∧
          day ≤ max (a + delta - slip offset start) (b + delta - slip offset due)) := fun day hday =>
    occurs_iff hstart' hdue' (shifted_day hoffset ha hs) (shifted_day hoffset hb hd) hmoved hmoved' hday
  have hzero : (slip offset start = 0 ∧ slip offset due = 0) ↔
      (0 ≤ offset ∨ ∀ date, task.startDate = some date ∨ task.dueDate = some date →
        ∃ t, date = .time t) := by
    rw [slip_eq_zero_iff, slip_eq_zero_iff, ← or_and_left]
    refine or_congr_right ⟨fun htimes date hdate => ?_, fun htimes => ?_⟩
    · rcases hall date hdate with rfl | rfl
      · exact htimes.1
      · exact htimes.2
    · exact ⟨htimes start hmem.1, htimes due hmem.2⟩
  rw [← hzero]
  constructor
  · intro hmoves
    -- neither the days of the two dates nor those on which they slip tell the tasks apart
    have hsame : ∀ m, CalendarDay m ∧ CalendarDay (m + delta) →
        (min (a + delta - slip offset start) (b + delta - slip offset due) ≤ m + delta ∧
          m + delta ≤ max (a + delta - slip offset start) (b + delta - slip offset due) ↔
            min a b ≤ m ∧ m ≤ max a b) := by
      rintro m ⟨hm, hm'⟩
      rw [← hnew _ hm', ← hold _ hm]
      exact hmoves m hm hm'
    have hfirst := hsame a (hina a (by omega) le_rfl)
    have hfirst' := hsame (a - slip offset start) (hina _ le_rfl (by omega))
    have hlast := hsame b (hinb b (by omega) le_rfl)
    have hlast' := hsame (b - slip offset due) (hinb _ le_rfl (by omega))
    omega
  · rintro ⟨hzero₁, hzero₂⟩ day hday hday'
    rw [hold day hday, hnew _ hday', hzero₁, hzero₂]
    omega

/-- **Dragging**: a moved end lands on its day exactly when the times of day in the browser and in the
calendar allow it; moved dates take their days along exactly when none without a time is shown west of
UTC.  The days whose keys are compared are in the calendar, which has one offset. -/
theorem drag_iff (reader : DateReader) (browser : FixedClock) (zones : ZoneTable)
    (task : CalendarTaskInput) (calendarTimezone : Option String) (offset : ℤ)
    (hoffset : ∀ t, (shownZone zones (task.dayTimezone calendarTimezone)).offset t = offset) :
    (∀ (targetDay startDay s d : ℤ) (dates : TaskDates), CalendarDay targetDay →
      CalendarDay startDay → CalendarDay (movedEndDay browser offset d targetDay) →
      task.startTime reader = .time s → task.dueTime reader = .time d →
      shownDay zones (task.dayTimezone calendarTimezone) (task.startDate.getD (.time (.time s))) =
        some startDay →
      resizeTaskCalendarEnd reader browser task targetDay = .ok (some dates) →
        (EndsOn reader zones (task.withDates dates) calendarTimezone targetDay ↔
          LandsOn browser offset startDay s d targetDay)) ∧
    ∀ (targetDay sourceDay : ℤ) (dates : TaskDates), CalendarDay targetDay → CalendarDay sourceDay →
      (∀ date, task.startDate = some date ∨ task.dueDate = some date →
        ∃ n, shownDay zones (task.dayTimezone calendarTimezone) date = some n ∧
          SlipsInside offset (targetDay - sourceDay) date n) →
      shiftTaskCalendarDates reader browser task targetDay sourceDay = .ok (some dates) →
        ((∀ day, CalendarDay day → CalendarDay (day + (targetDay - sourceDay)) →
          (taskOccursOnCalendarDay zones (task.withDates dates) (day + (targetDay - sourceDay))
              calendarTimezone = true ↔
            taskOccursOnCalendarDay zones task day calendarTimezone = true)) ↔
          0 ≤ offset ∨ ∀ date, task.startDate = some date ∨ task.dueDate = some date →
            ∃ t, date = .time t) :=
  ⟨fun _ _ _ _ _ htarget hplain hplain' hs hd hday h =>
      resize_endsOn_iff hoffset h hs hd hday hplain htarget hplain',
    fun _ _ _ htarget hsource hdays h => shift_occurs_iff hoffset htarget hsource hdays h⟩

/-! From the evening of 2026-01-01 to the morning of 2026-01-03, in UTC. -/

def sampleReader : DateReader where
  day text :=
    match calendarDayFromKey text with
    | some n => .time (n * msPerDay)
    | none => .invalid
  iso n h := by rw [calendarDayFromKey_key h]

def utcClock : FixedClock := { offset := 0, least := by decide, most := by decide }

def eveningTask : CalendarTaskInput :=
  timedTask (some (20454 * msPerDay + hours 20)) (some (20456 * msPerDay + hours 10)) none

theorem drag_evening :
    ∃ dates, resizeTaskCalendarEnd sampleReader utcClock eveningTask 20455 = .ok (some dates) ∧
      EndsOn sampleReader sampleZones (eveningTask.withDates dates) (some "UTC") 20455 := by
  have h := drag_iff sampleReader utcClock sampleZones eveningTask (some "UTC") 0 fun t => rfl
  refine ⟨_, rfl, ?_⟩
  exact (h.1 20455 20454 _ _ _ (by decide) (by decide) (by decide) rfl rfl rfl rfl).mpr ⟨by decide, by decide⟩

/-- Dropped on its first day, the task ends before it starts. -/
theorem resize_before_start : ¬ ∀ (task : CalendarTaskInput) (targetDay s d : ℤ) (dates : TaskDates),
    task.startTime sampleReader = .time s → task.dueTime sampleReader = .time d → s ≤ d →
      resizeTaskCalendarEnd sampleReader utcClock task targetDay = .ok (some dates) →
        EndsOn sampleReader sampleZones (task.withDates dates) (some "UTC") targetDay := by
  intro h
  obtain ⟨s, d, hs, hd, hle⟩ := (h eveningTask 20454 _ _ _ rfl rfl (by decide) rfl).ordered
  cases hs
  cases hd
  exact absurd hle (by decide)

end CalmBoard.Calendar
