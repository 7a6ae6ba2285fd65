import CalmBoard.Workload.Analysis

/-!
# CalmBoard.Workload.Week — the days of a week and the time off on them

* `IsoWeek`, `startOfIsoWeek_eq`: a week from its Monday on.
* `WorkloadTimeOff.Accepted`: an entry as the API accepts it; `appliesTo` and `on` say when it counts.
* `timeOffOn`, `workdaysOf`: what a user is off on a day, and the workdays of a week.
* `AcceptedDates.between_iff`: the texts of the client are compared like the days.
-/

namespace CalmBoard.Workload

open Calendar (timeClip dateUTC startOfDay makeDay weekday)
open IsoDate (msPerDay matchDate toISOString isoDay IsoYear)

/-! ### Weeks -/

/-- The first ten characters of a day's text. -/
def dayKey (n : ℤ) : List Char := (toISOString (n * msPerDay)).take 10

def weekDays (monday : ℤ) : List ℤ := (List.range 7).map fun i : ℕ => monday + i

theorem msPerDay_pos : 0 < msPerDay := by decide

theorem mul_ediv_msPerDay (n : ℤ) : n * msPerDay / msPerDay = n :=
  Int.mul_ediv_cancel n msPerDay_pos.ne'

theorem ofTime_time {t u : ℤ} (h : ofTime t = .time u) : u = t ∧ t.natAbs ≤ 8640000000000000 := by
  unfold ofTime timeClip at h
  by_cases hclip : t.natAbs ≤ 8640000000000000
  · rw [if_pos hclip] at h
    cases h
    exact ⟨rfl, hclip⟩
  · rw [if_neg hclip] at h
    cases h

theorem dateUTC_midnight (day : ℤ) : ∃ n, dateUTC (startOfDay day) = timeClip (n * msPerDay) := by
  refine ⟨makeDay (Calendar.fullYear (startOfDay day).year) (startOfDay day).month
    (startOfDay day).day, ?_⟩
  unfold dateUTC
  congr 1
  simp [startOfDay]

theorem startOfIsoWeek_eq {value t : ℤ} (h : startOfIsoWeek (.time value) = .time t) :
    t.natAbs ≤ 8640000000000000 ∧ ∃ n, dateUTC (startOfDay (value / msPerDay)) = some (n * msPerDay) ∧
      t = (n - (n + 3) % 7) * msPerDay := by
  unfold startOfIsoWeek at h
  dsimp only at h
  split at h
  · cases h
  · next date hdate =>
    obtain ⟨n, hn⟩ := dateUTC_midnight (value / msPerDay)
    obtain rfl := Calendar.timeClip_eq_some (hn.symm.trans hdate)
    unfold setUTCDate at h
    dsimp only at h
    rw [mul_ediv_msPerDay, Int.mul_emod_left, Int.add_zero, Int.sub_eq_add_neg,
      Calendar.makeDay_add, Calendar.makeDay_civil] at h
    obtain ⟨rfl, hclip⟩ := ofTime_time h
    refine ⟨hclip, n, hdate, ?_⟩
    congr 1
    unfold weekday
    split
    · omega
    · omega

theorem startOfIsoWeek_time {value : JsDate} {t : ℤ} (h : startOfIsoWeek value = .time t) :
    t.natAbs ≤ 8640000000000000 ∧ ∃ monday, t = monday * msPerDay ∧ weekday monday = 1 := by
  cases value with
  | invalid => cases h
  | time value =>
    obtain ⟨hclip, n, -, ht⟩ := startOfIsoWeek_eq h
    refine ⟨hclip, _, ht, ?_⟩
    unfold weekday
    omega

structure IsoWeek (value : JsDate) (monday : ℤ) : Prop where
  start : startOfIsoWeek value = .time (monday * msPerDay)
  weekday_eq : weekday monday = 1
  days : ∀ i : ℕ, i < 7 →
    addUtcDays (.time (monday * msPerDay)) i = .time ((monday + i) * msPerDay)

theorem isoDate_ok {value : JsDate} {text : List Char} (h : isoDate value = .ok text) :
    ∃ t, value = .time t ∧ text = (toISOString t).take 10 := by
  cases value with
  | invalid => cases h
  | time t =>
    cases h
    exact ⟨t, rfl, rfl⟩

theorem isoWeek_of_ok {value : JsDate} {weekStart weekEnd : List Char}
    (hstart : isoDate (startOfIsoWeek value) = .ok weekStart)
    (hend : isoDate (addUtcDays (startOfIsoWeek value) 6) = .ok weekEnd) :
    ∃ monday, IsoWeek value monday ∧ weekStart = dayKey monday ∧ weekEnd = dayKey (monday + 6) := by
  obtain ⟨t, ht, rfl⟩ := isoDate_ok hstart
  obtain ⟨u, hu, rfl⟩ := isoDate_ok hend
  rw [ht] at hu
  obtain ⟨hlow, monday, rfl, hmonday⟩ := startOfIsoWeek_time ht
  obtain ⟨rfl, hhigh⟩ := ofTime_time hu
  refine ⟨monday, ⟨ht, hmonday, fun i hi => ?_⟩, rfl, by rw [dayKey, Int.add_mul]⟩
  have hmiddle : (monday * msPerDay + i * msPerDay).natAbs ≤ 8640000000000000 := by
    unfold msPerDay at hlow hhigh ⊢
    omega
  unfold addUtcDays ofTime timeClip
  dsimp only
  rw [if_pos hmiddle, Int.add_mul]

theorem nodup_weekDays (monday : ℤ) : (weekDays monday).Nodup := by
  refine List.nodup_range.map fun i j hij => ?_
  have heq : monday + (i : ℤ) = monday + j := hij
  omega

/-! ### Entries -/

/-- The day of a date without a time. -/
def dayOf? (text : List Char) : Option ℤ :=
  match matchDate text with
  | some (date, []) => some (Civil.daysFromCivil date)
  | _ => none

namespace WorkloadTimeOff

/-- The API accepts the dates and the minutes of the entry. -/
def Accepted (entry : WorkloadTimeOff) : Prop :=
  ∃ body input, parseWorkloadTimeOffInput body = .ok input ∧ entry.startsOn = input.startsOn ∧
    entry.endsOn = input.endsOn ∧ entry.minutesPerDay = input.minutesPerDay

/-- An entry without a user is for the whole workspace. -/
def appliesTo (entry : WorkloadTimeOff) (user : User) : Bool :=
  entry.status = .approved ∧ (entry.userId = none ∨ entry.userId = some user.id)

def on (entry : WorkloadTimeOff) (day : ℤ) : Bool :=
  match dayOf? entry.startsOn, dayOf? entry.endsOn with
  | some first, some last => first ≤ day ∧ day ≤ last
  | _, _ => false

/-- What the entry takes from a day; without minutes it is the whole day. -/
def minutes (entry : WorkloadTimeOff) (dailyCapacity : ℚ) : ℚ :=
  entry.minutesPerDay.elim dailyCapacity fun m => (m : ℚ)

end WorkloadTimeOff

def timeOffOn (timeOff : List WorkloadTimeOff) (user : User) (dailyCapacity : ℚ) (day : ℤ) : ℚ :=
  ((timeOff.filter fun entry => entry.appliesTo user && entry.on day).map
    fun entry => entry.minutes dailyCapacity).sum

/-- The workdays of a week. -/
def workdaysOf (mask monday : ℤ) : List ℤ :=
  (weekDays monday).filter fun day => isWorkday mask (weekday day).toNat

variable {entry : WorkloadTimeOff} {first last : ℤ} {n : ℤ}

theorem dayOf?_isoDay (h : IsoYear n) : dayOf? (isoDay n) = some n := by
  unfold dayOf?
  rw [IsoDate.matchDate_isoDay h]
  exact congrArg some (Civil.daysFromCivil_civilFromDays n)

theorem dayKey_eq (h : IsoYear n) : dayKey n = isoDay n := by
  have hday := mul_ediv_msPerDay n
  unfold dayKey
  rw [IsoDate.take_toISOString (by rwa [hday]), hday]

theorem year_mono {m : ℤ} (h : m ≤ n) :
    (Civil.civilFromDays m).year ≤ (Civil.civilFromDays n).year := by
  rcases h.lt_or_eq with hlt | rfl
  · have horder := DateText.civil_lt hlt
    dsimp only at horder
    omega
  · exact le_rfl

theorem AcceptedDates.isoYear {startsOn endsOn : List Char} {minutesPerDay : Option ℤ}
    (h : AcceptedDates startsOn endsOn minutesPerDay first last) (hfirst : first ≤ n)
    (hlast : n ≤ last) : IsoYear n :=
  ⟨h.first_isoYear.1.trans (year_mono hfirst), (year_mono hlast).trans h.last_isoYear.2⟩

theorem AcceptedDates.between_iff {startsOn endsOn : List Char} {minutesPerDay : Option ℤ}
    (h : AcceptedDates startsOn endsOn minutesPerDay first last) :
    (¬(dayKey n < startsOn ∨ endsOn < dayKey n)) ↔ first ≤ n ∧ n ≤ last := by
  rw [h.startsOn, h.endsOn]
  by_cases hyear : IsoYear n
  · rw [dayKey_eq hyear, IsoDate.isoDay_lt_iff hyear h.first_isoYear,
      IsoDate.isoDay_lt_iff h.last_isoYear hyear]
    omega
  · have hless : dayKey n < isoDay first := by
      refine IsoDate.take_lt_isoDay ?_
      rwa [mul_ediv_msPerDay]
    exact ⟨fun hnot => absurd (Or.inl hless) hnot,
      fun hbetween => absurd (h.isoYear hbetween.1 hbetween.2) hyear⟩

theorem WorkloadTimeOff.Accepted.dates (h : entry.Accepted) :
    ∃ first last, AcceptedDates entry.startsOn entry.endsOn entry.minutesPerDay first last := by
  obtain ⟨body, input, hparse, hstart, hend, hminutes⟩ := h
  rw [hstart, hend, hminutes]
  exact parseWorkloadTimeOffInput_ok hparse

theorem AcceptedDates.on_iff
    (h : AcceptedDates entry.startsOn entry.endsOn entry.minutesPerDay first last) :
    entry.on n = true ↔ first ≤ n ∧ n ≤ last := by
  unfold WorkloadTimeOff.on
  rw [h.startsOn, h.endsOn, dayOf?_isoDay h.first_isoYear, dayOf?_isoDay h.last_isoYear]
  exact decide_eq_true_iff

theorem WorkloadTimeOff.Accepted.minutes_nonneg (h : entry.Accepted) {daily : ℚ} (hdaily : 0 ≤ daily) :
    0 ≤ entry.minutes daily := by
  obtain ⟨first, last, hdates⟩ := h.dates
  unfold WorkloadTimeOff.minutes
  cases hminutes : entry.minutesPerDay with
  | none => exact hdaily
  | some m =>
    have hm := (hdates.minutes m hminutes).1
    show (0 : ℚ) ≤ m
    exact_mod_cast (show (0 : ℤ) ≤ m by omega)

end CalmBoard.Workload
