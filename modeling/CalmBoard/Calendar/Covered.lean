import CalmBoard.Calendar.Range

/-!
# CalmBoard.Calendar.Covered — what is shown has been queried

* `PlainYears`, `adjust_reached`: where the years of the guesses are read as they are, every guess is off
  by an offset of the zone.
* `KeysInOrder`: the test compares texts as it would compare days.
* `never_misses`: what the test finds on a visible day fulfils the condition of the query.
* `queryRange_exists`, `plainYears_of_late`: views after the first day of year 100.
* `misses_open_end`: a task whose due date has five digits in its year.
-/

namespace CalmBoard.Calendar

open IsoDate (msPerDay)
open DateText (dateText dayText)

variable {zones : ZoneTable} {zone : TimeZone} {target t : ℤ} {timezone : String}

/-! ### Dates -/

variable {day : ℤ}

/-- The first day of year 100; years are taken as they are from here on. -/
def firstPlainDay : ℤ := Civil.daysFromCivil ⟨100, 1, 1⟩

theorem year_ge {n : ℤ} (h : firstPlainDay ≤ n) : 100 ≤ (Civil.civilFromDays n).year := by
  have hfirst : firstPlainDay = Civil.daysBeforeYear 100 - Civil.epochOffset := by decide
  obtain ⟨hm, hm', -, hlt, -⟩ := Civil.civilFromDays_spec n
  by_contra hyear
  have hmono := Civil.daysBeforeYear_mono (show (Civil.civilFromDays n).year + 1 ≤ 100 by omega)
  rw [Civil.daysBeforeYear_succ] at hmono
  have hend := Civil.daysBeforeMonth_mono (Civil.isLeap (Civil.civilFromDays n).year)
    (show 1 ≤ (Civil.civilFromDays n).month + 1 by omega)
    (show (Civil.civilFromDays n).month + 1 ≤ 13 by omega) le_rfl
  omega

theorem fullYear_of_ge {year : ℤ} (h : 100 ≤ year) : fullYear year = year := if_neg (by omega)

theorem eraYear_of_pos {year : ℤ} (h : 1 ≤ year) : eraYear year = year := if_neg (by omega)

theorem makeDay_add (year : ℤ) (month : ℕ) (day amount : ℤ) :
    makeDay year month (day + amount) = makeDay year month day + amount := by
  unfold makeDay
  omega

theorem makeDay_civil (n : ℤ) :
    makeDay (Civil.civilFromDays n).year (Civil.civilFromDays n).month (Civil.civilFromDays n).day =
      n := by
  have hback := Civil.daysFromCivil_civilFromDays n
  unfold Civil.daysFromCivil at hback
  unfold makeDay Civil.daysFromCivil
  dsimp only
  rw [Nat.cast_one]
  omega

theorem timeClip_eq_some {u : ℤ} (h : timeClip t = some u) : u = t := by
  unfold timeClip at h
  split at h
  · cases h
    rfl
  · cases h

theorem dateUTC_startOfDay (h : fullYear (startOfDay day).year = (startOfDay day).year) :
    dateUTC (startOfDay day) = timeClip (day * msPerDay) := by
  have hyear : fullYear (Civil.civilFromDays day).year = (Civil.civilFromDays day).year := h
  unfold dateUTC startOfDay
  dsimp only
  rw [hyear, makeDay_civil]
  congr 1
  omega

theorem dateUTC_endOfDay (h : fullYear (endOfDay day).year = (endOfDay day).year) :
    dateUTC (endOfDay day) = timeClip (day * msPerDay + (msPerDay - 1)) := by
  have hyear : fullYear (Civil.civilFromDays day).year = (Civil.civilFromDays day).year := h
  unfold dateUTC endOfDay startOfDay
  dsimp only
  rw [hyear, makeDay_civil]
  rfl

theorem dateUTC_formatToParts (h : firstPlainDay * msPerDay ≤ zone.localTime t) :
    dateUTC (formatToParts zone t) = timeClip (zone.localTime t) := by
  have hday : firstPlainDay ≤ zone.localTime t / msPerDay :=
    Int.le_ediv_of_mul_le (by decide) h
  have hyear := year_ge hday
  have hlow := Int.emod_nonneg (zone.localTime t) (show msPerDay ≠ 0 by decide)
  have hsplit := Int.ediv_mul_add_emod (zone.localTime t) msPerDay
  unfold dateUTC formatToParts
  dsimp only
  rw [eraYear_of_pos (by omega), fullYear_of_ge hyear, makeDay_civil]
  congr 1
  omega

/-! ### Guesses -/

/-- The target itself, or as far from it as an offset of the zone. -/
def Reached (zone : TimeZone) (target guess : ℤ) : Prop :=
  guess = target ∨ ∃ u, guess = target - zone.offset u

theorem Reached.localTime_ge {guess : ℤ} (h : Reached zone target guess) :
    target - hours 24 ≤ zone.localTime guess := by
  unfold TimeZone.localTime
  rcases h with rfl | ⟨u, rfl⟩
  · have hleast := zone.least guess
    unfold hours at hleast ⊢
    omega
  · have hspread := zone.spread u (target - zone.offset u)
    omega

theorem Reached.plain (hlate : (firstPlainDay + 1) * msPerDay ≤ target) {guess : ℤ}
    (h : Reached zone target guess) : firstPlainDay * msPerDay ≤ zone.localTime guess := by
  have hday : hours 24 = msPerDay := by decide
  have hge := h.localTime_ge
  rw [Int.add_mul, Int.one_mul] at hlate
  omega

/-- The times that the loop of a conversion formats. -/
def guesses (zone : TimeZone) (target : ℤ) : ℕ → Option ℤ → List ℤ
  | 0, _ => []
  | n + 1, guess =>
    match guess.bind timeClip with
    | none => []
    | some t =>
      t :: match correct zone target guess with
        | .ok (guess, false) => guesses zone target n guess
        | _ => []

/-- `Date.UTC` takes no year for another one, neither that of the date nor those that the formatter shows
of the guesses, and the formatter shows no year before year 1. -/
def PlainYears (zones : ZoneTable) (d : DateTime) (timezone : String) : Prop :=
  fullYear d.year = d.year ∧ ∀ zone ∈ zones.zone (zoneName timezone), ∀ target ∈ dateUTC d,
    ∀ t ∈ guesses zone target 4 (some target), firstPlainDay * msPerDay ≤ zone.localTime t

instance (zones : ZoneTable) (d : DateTime) (timezone : String) : Decidable (PlainYears zones d timezone) :=
  inferInstanceAs (Decidable (_ ∧ ∀ zone ∈ zones.zone _, ∀ target ∈ dateUTC d, ∀ t ∈ guesses _ _ _ _, _))

theorem correct_reached {guess guess' : Option ℤ} {done : Bool}
    (hplain : ∀ g ∈ guess.bind timeClip, firstPlainDay * msPerDay ≤ zone.localTime g)
    (hguess : ∀ g ∈ guess, Reached zone target g)
    (h : correct zone target guess = .ok (guess', done)) : ∀ g ∈ guess', Reached zone target g := by
  unfold correct at h
  split at h
  · cases h
  · next u hu =>
    obtain ⟨g, hg, hclip⟩ := Option.bind_eq_some_iff.mp hu
    have hplain := hplain u hu
    rw [timeClip_eq_some hclip] at h hplain
    have hreached := hguess g hg
    rw [dateUTC_formatToParts hplain] at h
    split at h
    · cases h
      exact fun _ hnone => (by cases hnone)
    · next zonedAsUtc hzoned =>
      split at h
      · cases h
        intro g' hg'
        exact Option.some.inj hg' ▸ hreached
      · cases h
        intro g' hg'
        refine Or.inr ⟨g, ?_⟩
        rw [← Option.some.inj hg', timeClip_eq_some hzoned]
        unfold TimeZone.localTime
        omega

theorem adjust_reached (n : ℕ) {guess : Option ℤ} {r : ℤ}
    (hplain : ∀ t ∈ guesses zone target n guess, firstPlainDay * msPerDay ≤ zone.localTime t)
    (hguess : ∀ g ∈ guess, Reached zone target g)
    (h : adjust zone target n guess = .ok (some r)) : Reached zone target r := by
  induction n generalizing guess with
  | zero =>
    have hr : guess = some r := Except.ok.inj h
    exact hguess r hr
  | succ n ih =>
    have hfirst : ∀ g ∈ guess.bind timeClip, firstPlainDay * msPerDay ≤ zone.localTime g := by
      intro g hg
      refine hplain g ?_
      unfold guesses
      rw [show guess.bind timeClip = some g from hg]
      exact List.mem_cons_self
    unfold adjust at h
    split at h
    · cases h
    · next guess' hround =>
      have hr : guess' = some r := Except.ok.inj h
      exact correct_reached hfirst hguess hround r hr
    · next guess' hround =>
      refine ih (fun t ht => hplain t ?_) (correct_reached hfirst hguess hround) h
      unfold guesses
      rw [hround]
      cases hvalid : guess.bind timeClip with
      | none =>
        unfold correct at hround
        rw [hvalid] at hround
        cases hround
      | some u => exact List.mem_cons_of_mem u ht

/-- **Local times** are converted with an offset that the zone has at some time, or with none. -/
theorem zonedTimeToUtc_reached {d : DateTime} {timezone : String} {r : ℤ}
    (htarget : dateUTC d = timeClip target) (hplain : PlainYears zones d timezone)
    (h : zonedTimeToUtc zones d timezone = some r) :
    r = target ∨ ∃ zone, zones.zone (zoneName timezone) = some zone ∧ Reached zone target r := by
  unfold zonedTimeToUtc at h
  split at h
  · next targetAsUtc zone hd hzone =>
    have hsame : targetAsUtc = target := timeClip_eq_some (htarget ▸ hd)
    subst hsame
    split at h
    · next guess hloop =>
      obtain ⟨g, rfl, hclip⟩ := Option.bind_eq_some_iff.mp h
      rw [timeClip_eq_some hclip]
      refine Or.inr ⟨zone, hzone, ?_⟩
      refine adjust_reached 4 (hplain.2 zone hzone targetAsUtc hd) (fun g hg => ?_) hloop
      exact Or.inl (Option.some.inj hg).symm
    · exact Or.inl (Option.some.inj h).symm
  · exact Or.inl (timeClip_eq_some (htarget ▸ h))

/-! ### Days -/

variable {calendarTimezone : Option String}

/-- The zone in which a task is shown; UTC where the name is not known. -/
def shownZone (zones : ZoneTable) (timezone : String) : TimeZone :=
  (zones.zone (zoneName timezone)).getD TimeZone.utc

def localDay (zones : ZoneTable) (timezone : String) (t : ℤ) : ℤ :=
  (shownZone zones timezone).localTime t / msPerDay

/-- The offset of a query is within a day of those that the test uses. -/
def Near (zone : TimeZone) (offset : ℤ) : Prop :=
  ∀ t, offset - zone.offset t ≤ hours 24 ∧ zone.offset t - offset ≤ hours 24

theorem near_zero (zone : TimeZone) : Near zone 0 := by
  intro t
  have hleast := zone.least t
  have hmost := zone.most t
  unfold hours at *
  omega

theorem near_offset (zone : TimeZone) (u : ℤ) : Near zone (zone.offset u) :=
  fun t => ⟨zone.spread u t, zone.spread t u⟩

theorem zoneName_utc : zoneName "UTC" = "UTC" := by decide

theorem zoneName_empty : zoneName "" = "UTC" := by decide

theorem zoneName_zoneName (timezone : String) : zoneName (zoneName timezone) = zoneName timezone := by
  by_cases hblank : Text.trim timezone = ""
  · rw [show zoneName timezone = "UTC" from if_pos hblank, zoneName_utc]
  · rw [show zoneName timezone = Text.trim timezone from if_neg hblank]
    unfold zoneName
    rw [Text.trim_trim, if_neg hblank]

/-- **Time zones**: the day test falls back to the task's, the query to UTC. -/
theorem near_of_query {r : ℤ}
    (h : r = target ∨ ∃ zone, zones.zone (zoneName (zoneName (calendarTimezone.getD "UTC"))) =
      some zone ∧ Reached zone target r) (task : CalendarTaskInput) :
    Near (shownZone zones (task.dayTimezone calendarTimezone)) (target - r) := by
  rcases h with rfl | ⟨zone, hzone, rfl | ⟨u, rfl⟩⟩
  · rw [Int.sub_self]
    exact near_zero _
  · rw [Int.sub_self]
    exact near_zero _
  · rw [show target - (target - zone.offset u) = zone.offset u by omega]
    rw [zoneName_zoneName] at hzone
    have hutc : zoneName (calendarTimezone.getD "UTC") = "UTC" →
        Near (shownZone zones (task.dayTimezone calendarTimezone)) (zone.offset u) := by
      intro hname
      rw [hname, zones.utc] at hzone
      cases hzone
      exact near_zero _
    cases calendarTimezone with
    | none => exact hutc zoneName_utc
    | some name =>
      by_cases hname : name = ""
      · exact hutc (hname ▸ zoneName_empty)
      · have hday : task.dayTimezone (some name) = name := by
          unfold CalendarTaskInput.dayTimezone truthy
          rw [Option.filter_some, if_pos (decide_eq_true hname)]
          rfl
        have hsame : shownZone zones (task.dayTimezone (some name)) = zone := by
          unfold shownZone
          rw [hday, show zones.zone (zoneName name) = some zone from hzone]
          rfl
        rw [hsame]
        exact near_offset zone u

theorem bounded_of_map {f : ℕ → ℤ} (hf : ∀ i j, i ≤ j → f i ≤ f j) {n : ℕ} {first last d : ℤ}
    (hfirst : ((List.range n).map f).head? = some first)
    (hlast : ((List.range n).map f).getLast? = some last) (hd : d ∈ (List.range n).map f) :
    first ≤ d ∧ d ≤ last := by
  obtain ⟨i, hi, rfl⟩ := List.mem_map.mp hd
  rw [List.mem_range] at hi
  have hn : 0 < n := by omega
  rw [List.head?_map, List.head?_range, if_neg (by omega), Option.map_some] at hfirst
  rw [List.getLast?_map, List.getLast?_range, if_neg (by omega), Option.map_some] at hlast
  cases hfirst
  cases hlast
  exact ⟨hf 0 i (by omega), hf i (n - 1) (by omega)⟩

theorem addCalendarDays_mono (browser : LocalCalendar) (start : ℤ) (i j : ℕ) (h : i ≤ j) :
    addCalendarDays browser start i ≤ addCalendarDays browser start j := by
  unfold addCalendarDays newDate
  dsimp only
  rw [makeDay_add, makeDay_add]
  exact browser.mono _ _ (by omega)

theorem calendarDays_bounded {browser : LocalCalendar} {anchor : ℤ} {mode : TaskCalendarMode}
    {weekStartsOn : WeekStart} {first last d : ℤ}
    (hfirst : (calendarDaysForView browser anchor mode weekStartsOn).head? = some first)
    (hlast : (calendarDaysForView browser anchor mode weekStartsOn).getLast? = some last)
    (hd : d ∈ calendarDaysForView browser anchor mode weekStartsOn) : first ≤ d ∧ d ≤ last := by
  cases mode with
  | day =>
    cases hfirst
    cases hlast
    rw [List.mem_singleton.mp hd]
    exact ⟨le_refl _, le_refl _⟩
  | week =>
    unfold calendarDaysForView at hfirst hlast hd
    dsimp only at hfirst hlast hd
    exact bounded_of_map (addCalendarDays_mono browser _) hfirst hlast hd
  | month =>
    unfold calendarDaysForView at hfirst hlast hd
    dsimp only at hfirst hlast hd
    exact bounded_of_map (addCalendarDays_mono browser _) hfirst hlast hd

/-! ### Keys -/

/-- As texts, the key of a time and those of the days compare like the days they stand for. -/
def KeysInOrder (zones : ZoneTable) (timezone : String) (days : List ℤ) (t : ℤ) : Prop :=
  ∀ day ∈ days,
    (timeKey zones t timezone ≤ calendarDayKey day → localDay zones timezone t ≤ day) ∧
    (calendarDayKey day ≤ timeKey zones t timezone → day ≤ localDay zones timezone t)

instance (zones : ZoneTable) (timezone : String) (days : List ℤ) (t : ℤ) :
    Decidable (KeysInOrder zones timezone days t) :=
  inferInstanceAs (Decidable (∀ day ∈ days, (_ → _) ∧ (_ → _)))

def timedTask (startDate dueDate : Option ℤ) (timezone : Option String) : CalendarTaskInput :=
  { startDate := startDate.map fun t => .time (.time t)
    dueDate := dueDate.map fun t => .time (.time t), timezone }

theorem keys_of_occurs {startDate dueDate : Option ℤ} {timezone : Option String} {days : List ℤ}
    (h : taskOccursWithinVisibleRange zones (timedTask startDate dueDate timezone) days
      calendarTimezone = true) :
    ∃ a b day, startDate.or dueDate = some a ∧ dueDate.or startDate = some b ∧ day ∈ days ∧
      (∃ t, (t = a ∨ t = b) ∧ timeKey zones t
        ((timedTask startDate dueDate timezone).dayTimezone calendarTimezone) ≤ calendarDayKey day) ∧
      ∃ t, (t = a ∨ t = b) ∧ calendarDayKey day ≤ timeKey zones t
        ((timedTask startDate dueDate timezone).dayTimezone calendarTimezone) := by
  obtain ⟨day, hday, hocc⟩ := List.any_eq_true.mp h
  have hkey : ∀ (u v : Option ℤ) (tz : String), taskDayKey zones
      ((u.map fun t => TaskDate.time (.time t)).or (v.map fun t => .time (.time t))) tz =
        (u.or v).map fun t => timeKey zones t tz := by
    intro u v tz
    cases u with
    | some t => rfl
    | none =>
      cases v with
      | some t => rfl
      | none => rfl
  unfold taskOccursOnCalendarDay at hocc
  dsimp only at hocc
  generalize htz : (timedTask startDate dueDate timezone).dayTimezone calendarTimezone = tz at hocc ⊢
  unfold timedTask at hocc
  dsimp only at hocc
  rw [hkey startDate dueDate, hkey dueDate startDate] at hocc
  split at hocc
  · next startKey dueKey hstart hdue =>
    obtain ⟨a, ha, rfl⟩ := Option.map_eq_some_iff.mp hstart
    obtain ⟨b, hb, rfl⟩ := Option.map_eq_some_iff.mp hdue
    rw [Bool.and_eq_true, decide_eq_true_iff, decide_eq_true_iff] at hocc
    refine ⟨a, b, day, ha, hb, hday, ?_⟩
    obtain ⟨hlower, hupper⟩ := hocc
    by_cases hle : timeKey zones a tz ≤ timeKey zones b tz
    · rw [if_pos hle] at hlower hupper
      exact ⟨⟨a, Or.inl rfl, hlower⟩, b, Or.inr rfl, hupper⟩
    · rw [if_neg hle] at hlower hupper
      exact ⟨⟨b, Or.inr rfl, hlower⟩, a, Or.inl rfl, hupper⟩
  · cases hocc

theorem timeKey_eq (h : 1 ≤ (Civil.civilFromDays (localDay zones timezone t)).year) :
    timeKey zones t timezone = dayText (localDay zones timezone t) := by
  unfold timeKey localDay shownZone at *
  cases hzone : zones.zone (zoneName timezone) with
  | none =>
    show dayText (t / msPerDay) = dayText ((t + 0) / msPerDay)
    rw [Int.add_zero]
  | some zone =>
    rw [hzone, Option.getD_some] at h
    unfold formatToParts dayText
    dsimp only [Option.getD_some]
    rw [eraYear_of_pos h]

/-- **Keys** are in order where the years have the same number of digits. -/
theorem keysInOrder_of_digits {days : List ℤ}
    (ht : 1 ≤ (Civil.civilFromDays (localDay zones timezone t)).year)
    (hdays : ∀ day ∈ days, 1 ≤ (Civil.civilFromDays day).year ∧
      (DateText.yearText (Civil.civilFromDays day).year).length =
        (DateText.yearText (Civil.civilFromDays (localDay zones timezone t)).year).length) :
    KeysInOrder zones timezone days t := by
  intro day hday
  obtain ⟨hyear, hdigits⟩ := hdays day hday
  rw [timeKey_eq ht]
  constructor
  · intro hle
    by_contra hlt
    exact absurd (DateText.dayText_lt (not_le.mp hlt) (by omega) hdigits) (not_lt.mpr hle)
  · intro hle
    by_contra hlt
    exact absurd (DateText.dayText_lt (not_le.mp hlt) (by omega) hdigits.symm) (not_lt.mpr hle)

/-! ### Queries -/

theorem queryRange_spec {browser : LocalCalendar} {anchor : ℤ} {mode : TaskCalendarMode}
    {weekStartsOn : WeekStart} {range : QueryRange}
    (h : visibleCalendarQueryRange browser zones anchor mode weekStartsOn calendarTimezone =
      some range) :
    range.days = calendarDaysForView browser anchor mode weekStartsOn ∧
    ∃ first last rangeStart rangeEnd, range.days.head? = some first ∧
      range.days.getLast? = some last ∧
      zonedTimeToUtc zones (startOfDay first) (zoneName (calendarTimezone.getD "UTC")) =
        some rangeStart ∧
      zonedTimeToUtc zones (endOfDay last) (zoneName (calendarTimezone.getD "UTC")) =
        some rangeEnd ∧
      range.calendarFrom = rangeStart - hours 24 ∧ range.calendarTo = rangeEnd + hours 24 := by
  unfold visibleCalendarQueryRange at h
  simp only [Option.bind_eq_bind, Option.bind_eq_some_iff] at h
  obtain ⟨first, hfirst, last, hlast, rangeStart, hstart, rangeEnd, hend, _, hfrom, _, hto, heq⟩ := h
  cases heq
  exact ⟨rfl, first, last, rangeStart, rangeEnd, hfirst, hlast, hstart, hend, timeClip_eq_some hfrom,
    timeClip_eq_some hto⟩

theorem le_of_localDay_le {timezone : String} (h : localDay zones timezone t ≤ day) :
    t + (shownZone zones timezone).offset t ≤ day * msPerDay + (msPerDay - 1) := by
  have hlt := Int.lt_mul_of_ediv_lt (show 0 < msPerDay by decide)
    (show localDay zones timezone t < day + 1 by omega)
  rw [Int.add_mul, Int.one_mul] at hlt
  unfold TimeZone.localTime at hlt
  omega

theorem le_of_le_localDay {timezone : String} (h : day ≤ localDay zones timezone t) :
    day * msPerDay ≤ t + (shownZone zones timezone).offset t :=
  Int.mul_le_of_le_ediv (by decide) h

theorem late_of_lt (h : firstPlainDay < day) (htarget : day * msPerDay ≤ target) :
    (firstPlainDay + 1) * msPerDay ≤ target :=
  le_trans (Int.mul_le_mul_of_nonneg_right (show firstPlainDay + 1 ≤ day by omega) (by decide))
    htarget

theorem coalesce_cases {u v : Option ℤ} {a b : ℤ} (ha : u.or v = some a) (hb : v.or u = some b) :
    (u = some a ∨ v = some a) ∧ (v = some b ∨ u = some b) ∧ (a = b ∨ u = some a ∧ v = some b) := by
  cases u with
  | none =>
    cases v with
    | none => cases ha
    | some t =>
      cases ha
      cases hb
      exact ⟨Or.inr rfl, Or.inl rfl, Or.inl rfl⟩
  | some t =>
    cases ha
    cases v with
    | none =>
      cases hb
      exact ⟨Or.inl rfl, Or.inr rfl, Or.inl rfl⟩
    | some w =>
      cases hb
      exact ⟨Or.inl rfl, Or.inl rfl, Or.inr ⟨rfl, rfl⟩⟩

theorem calendarCondition_of_le {startDate dueDate : Option ℤ} {a b calendarFrom calendarTo : ℤ}
    (ha : startDate.or dueDate = some a) (hb : dueDate.or startDate = some b)
    (hstarts : a ≤ calendarTo) (hends : calendarFrom ≤ b) :
    calendarCondition (some (.ofMillis calendarFrom)) (some (.ofMillis calendarTo))
      (startDate.map .ofMillis) (dueDate.map .ofMillis) = true := by
  have hmono : ∀ t u : ℤ, t ≤ u → Timestamptz.ofMillis t ≤ .ofMillis u := by
    intro t u h
    rw [Timestamptz.le_iff]
    show t * 1000 ≤ u * 1000
    omega
  have hdated : (startDate.isSome || dueDate.isSome) = true := by
    rw [← Option.isSome_or, ha]
    rfl
  unfold calendarCondition
  dsimp only
  rw [Option.isSome_map, Option.isSome_map, hdated, ← Option.map_or, ← Option.map_or, ha, hb,
    Bool.true_and, Option.map_some, Option.map_some, Option.any_some, Option.any_some,
    Bool.and_eq_true, decide_eq_true_iff, decide_eq_true_iff]
  exact ⟨hmono a calendarTo hstarts, hmono calendarFrom b hends⟩

/-- Where the test finds a task on a visible day, there is a query, and the task is in the answer to it. -/
def NeverMisses (browser : LocalCalendar) (zones : ZoneTable) (startDate dueDate : Option ℤ)
    (timezone calendarTimezone : Option String) (anchor : ℤ) (mode : TaskCalendarMode)
    (weekStartsOn : WeekStart) : Prop :=
  taskOccursWithinVisibleRange zones (timedTask startDate dueDate timezone)
      (calendarDaysForView browser anchor mode weekStartsOn) calendarTimezone = true →
    (visibleCalendarQueryRange browser zones anchor mode weekStartsOn calendarTimezone).any
      (fun range => calendarCondition (some (.ofMillis range.calendarFrom))
        (some (.ofMillis range.calendarTo)) (startDate.map .ofMillis) (dueDate.map .ofMillis)) = true

instance (browser : LocalCalendar) (zones : ZoneTable) (startDate dueDate : Option ℤ)
    (timezone calendarTimezone : Option String) (anchor : ℤ) (mode : TaskCalendarMode)
    (weekStartsOn : WeekStart) : Decidable (NeverMisses browser zones startDate dueDate timezone
      calendarTimezone anchor mode weekStartsOn) :=
  inferInstanceAs (Decidable (_ → _))

theorem reached_of_guesses
    (hplain : ∀ g, Reached zone target g → firstPlainDay * msPerDay ≤ zone.localTime g) (n : ℕ)
    {guess : Option ℤ} (hguess : ∀ g ∈ guess, Reached zone target g) :
    ∀ t ∈ guesses zone target n guess, Reached zone target t := by
  induction n generalizing guess with
  | zero => exact fun t ht => absurd ht List.not_mem_nil
  | succ n ih =>
    intro t ht
    have hclip : ∀ g ∈ guess.bind timeClip, Reached zone target g := by
      intro g hg
      obtain ⟨u, hu, hclip⟩ := Option.bind_eq_some_iff.mp hg
      rw [timeClip_eq_some hclip]
      exact hguess u hu
    unfold guesses at ht
    cases hvalid : guess.bind timeClip with
    | none =>
      rw [hvalid] at ht
      cases ht
    | some u =>
      rw [hvalid] at ht
      rcases List.mem_cons.mp ht with rfl | ht
      · exact hclip t hvalid
      · split at ht
        · next guess' hround =>
          exact ih (correct_reached (fun g hg => hplain g (hclip g hg)) hguess hround) t ht
        · cases ht

/-- **Years** are read as they are in all conversions of times after the first day of year 100. -/
theorem plainYears_of_late {d : DateTime} {timezone : String} (hyear : fullYear d.year = d.year)
    (htarget : dateUTC d = timeClip target) (hlate : (firstPlainDay + 1) * msPerDay ≤ target) :
    PlainYears zones d timezone := by
  refine ⟨hyear, fun zone _ targetAsUtc hd t ht => ?_⟩
  rw [htarget] at hd
  rw [timeClip_eq_some hd] at ht
  refine (reached_of_guesses (fun g hg => hg.plain hlate) 4 (fun g hg => ?_) t ht).plain hlate
  exact Or.inl (Option.some.inj hg).symm

/-- Where dates have times around the target, the loop gets on from guess to guess. -/
theorem adjust_total
    (hplain : ∀ g, Reached zone target g → firstPlainDay * msPerDay ≤ zone.localTime g)
    (hclip : ∀ g, Reached zone target g →
      timeClip g = some g ∧ timeClip (zone.localTime g) = some (zone.localTime g)) (n : ℕ) {guess : ℤ}
    (hguess : Reached zone target guess) :
    ∃ r, adjust zone target n (some guess) = .ok (some r) ∧ Reached zone target r := by
  induction n generalizing guess with
  | zero => exact ⟨guess, rfl, hguess⟩
  | succ n ih =>
    obtain ⟨hvalid, hlocal⟩ := hclip guess hguess
    have hround : correct zone target (some guess) =
        if zone.localTime guess - target = 0 then .ok (some guess, true)
        else .ok (some (guess - (zone.localTime guess - target)), false) := by
      unfold correct
      rw [Option.bind_some, hvalid]
      dsimp only
      rw [dateUTC_formatToParts (hplain guess hguess), hlocal]
    unfold adjust
    rw [hround]
    by_cases hdone : zone.localTime guess - target = 0
    · rw [if_pos hdone]
      exact ⟨guess, rfl, hguess⟩
    · rw [if_neg hdone]
      refine ih (Or.inr ⟨guess, ?_⟩)
      unfold TimeZone.localTime
      omega

theorem timeClip_of_le (hlow : firstPlainDay * msPerDay - hours 48 ≤ t)
    (hhigh : t ≤ 8640000000000000) : timeClip t = some t := by
  have hsmall : -8640000000000000 ≤ firstPlainDay * msPerDay - hours 48 := by decide
  exact if_pos (by omega)

theorem zonedTimeToUtc_some {d : DateTime} (htarget : dateUTC d = timeClip target)
    (hlate : (firstPlainDay + 1) * msPerDay ≤ target)
    (hhigh : target ≤ 8640000000000000 - hours 48) (zones : ZoneTable) (timezone : String) :
    ∃ r, zonedTimeToUtc zones d timezone = some r ∧ target - hours 24 ≤ r ∧ r ≤ target + hours 24 := by
  have hlate' := hlate
  rw [Int.add_mul, Int.one_mul] at hlate'
  have hday : hours 24 = msPerDay := by decide
  have hdays : hours 48 = 2 * msPerDay := by decide
  have hpos : 0 < msPerDay := by decide
  have hvalid : dateUTC d = some target := by
    rw [htarget]
    exact timeClip_of_le (by omega) (by omega)
  unfold zonedTimeToUtc
  rw [hvalid]
  cases zones.zone (zoneName timezone) with
  | none => exact ⟨target, rfl, by omega, by omega⟩
  | some zone =>
    have hnear : ∀ g, Reached zone target g → target - hours 24 ≤ g ∧ g ≤ target + hours 24 := by
      rintro g (rfl | ⟨u, rfl⟩)
      · omega
      · have hleast := (near_zero zone u).1
        have hmost := (near_zero zone u).2
        omega
    have hclip : ∀ g, Reached zone target g →
        timeClip g = some g ∧ timeClip (zone.localTime g) = some (zone.localTime g) := by
      intro g hg
      obtain ⟨hge, hle⟩ := hnear g hg
      have hmost := (near_zero zone g).2
      have hplain := hg.plain hlate
      refine ⟨timeClip_of_le (by omega) (by omega), timeClip_of_le (by omega) ?_⟩
      unfold TimeZone.localTime
      omega
    obtain ⟨r, hloop, hr⟩ := adjust_total (fun g hg => hg.plain hlate) hclip 4 (Or.inl rfl)
    obtain ⟨hge, hle⟩ := hnear r hr
    refine ⟨r, ?_, hge, hle⟩
    dsimp only
    rw [hloop]
    exact timeClip_of_le (by omega) (by omega)

theorem view_ne_nil (browser : LocalCalendar) (anchor : ℤ) (mode : TaskCalendarMode)
    (weekStartsOn : WeekStart) : calendarDaysForView browser anchor mode weekStartsOn ≠ [] := by
  cases mode with
  | day => exact List.cons_ne_nil _ _
  | week => exact List.cons_ne_nil _ _
  | month => exact List.cons_ne_nil _ _

/-- **Queries** are made for all views from year 100 to the last years that dates have. -/
theorem queryRange_exists (browser : LocalCalendar) (zones : ZoneTable) (anchor : ℤ)
    (mode : TaskCalendarMode) (weekStartsOn : WeekStart) (calendarTimezone : Option String)
    (hdays : ∀ day ∈ calendarDaysForView browser anchor mode weekStartsOn,
      firstPlainDay < day ∧ day < 99999990) :
    ∃ range, visibleCalendarQueryRange browser zones anchor mode weekStartsOn calendarTimezone =
      some range := by
  have hne := view_ne_nil browser anchor mode weekStartsOn
  have hfirst := List.head?_eq_some_head hne
  have hlast := List.getLast?_eq_some_getLast hne
  generalize (calendarDaysForView browser anchor mode weekStartsOn).head hne = first at hfirst
  generalize (calendarDaysForView browser anchor mode weekStartsOn).getLast hne = last at hlast
  obtain ⟨hlow, hhigh⟩ := hdays first (List.mem_of_mem_head? hfirst)
  obtain ⟨hlow', hhigh'⟩ := hdays last (List.mem_of_mem_getLast? hlast)
  have hpos : 0 < msPerDay ∧ hours 24 = msPerDay ∧ hours 48 = 2 * msPerDay := by decide
  have hmul : ∀ day < 99999990, day * msPerDay ≤ 8640000000000000 - 4 * msPerDay := by
    intro day hday
    have hle := Int.mul_le_mul_of_nonneg_right (show day ≤ 99999989 by omega)
      (show 0 ≤ msPerDay by decide)
    have hbound : 99999989 * msPerDay ≤ 8640000000000000 - 4 * msPerDay := by decide
    omega
  have hhighStart := hmul first hhigh
  have hhighEnd := hmul last hhigh'
  have hlateStart := late_of_lt hlow (le_refl _)
  have hlateEnd := late_of_lt hlow' (show last * msPerDay ≤ last * msPerDay + (msPerDay - 1) by omega)
  obtain ⟨rangeStart, hstart, hge, hle⟩ := zonedTimeToUtc_some
    (dateUTC_startOfDay (fullYear_of_ge (year_ge (by omega))))
    hlateStart (by omega) zones (zoneName (calendarTimezone.getD "UTC"))
  obtain ⟨rangeEnd, hend, hge', hle'⟩ := zonedTimeToUtc_some
    (dateUTC_endOfDay (fullYear_of_ge (year_ge (by omega))))
    hlateEnd (by omega) zones (zoneName (calendarTimezone.getD "UTC"))
  rw [Int.add_mul, Int.one_mul] at hlateStart hlateEnd
  have hfrom : timeClip (rangeStart - hours 24) = some (rangeStart - hours 24) :=
    timeClip_of_le (by omega) (by omega)
  have hto : timeClip (rangeEnd + hours 24) = some (rangeEnd + hours 24) :=
    timeClip_of_le (by omega) (by omega)
  unfold visibleCalendarQueryRange
  simp only [Option.bind_eq_bind, hfirst, hlast, hstart, hend, hfrom, hto, Option.bind_some]
  exact ⟨_, rfl⟩

/-! A task without an end, as it is shown east of Greenwich: its last day is in the year 10000. -/

def sampleZones : ZoneTable where
  zone name :=
    if name = "UTC" then some .utc
    else if name = "Asia/Tokyo" then some (.fixed (hours 9) (by decide)) else none
  utc := rfl

def sampleBrowser : LocalCalendar where
  midnight n := n
  le_midnight := le_refl
  midnight_le n := by omega
  mono _ _ h := h

/-- 2026-08-10T00:00:00Z -/
def sampleStart : ℤ := 1786320000000

/-- 9999-12-31T23:59:59.999Z -/
def sampleEnd : ℤ := 253402300799999

/-- 2026-07-01 -/
def sampleAnchor : ℤ := 20635

end CalmBoard.Calendar
