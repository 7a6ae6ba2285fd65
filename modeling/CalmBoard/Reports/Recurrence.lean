import CalmBoard.Lib.Successors
import CalmBoard.Reports.Schedules

/-!
# CalmBoard.Reports.Recurrence — every slot of a schedule

* `IsSlot`: the instants of a recurrence, in a time zone with a fixed offset.
* `exists_falls`: a cadence falls on one of the next 59 days.
* `nextReportRun_least`: the function returns the first slot after a time.
* `nextReportRun_exact`: applied again and again it goes through all slots.
-/

namespace CalmBoard.Reports

/-! ### Slots -/

/-- A zone whose local time is always the same number of microseconds ahead. -/
structure Zones.FixedOffset (zones : Zones) (timezone : String) (offset : ℤ) : Prop where
  known : zones.known timezone
  localTime : ∀ t, zones.localTime timezone t = t.micros + offset
  instant : ∀ l, zones.instant timezone l = ⟨l - offset⟩

/-- Local date and local time of an instant are those of the recurrence. -/
def IsSlot (offset : ℤ) (cadence : Cadence) (minuteOfDay : ℕ) (t : Timestamptz) : Prop :=
  cadence.falls ((t.micros + offset) / microsPerDay) ∧
    (t.micros + offset) % microsPerDay = minuteOfDay * 60000000

def slot (offset : ℤ) (minuteOfDay : ℕ) (date : ℤ) : Timestamptz :=
  ⟨date * microsPerDay + minuteOfDay * 60000000 - offset⟩

variable {zones : Zones} {timezone : String} {offset : ℤ} {cadence : Cadence} {minuteOfDay : ℕ}

theorem isSlot_iff (hminute : minuteOfDay ≤ 1439) {t : Timestamptz} :
    IsSlot offset cadence minuteOfDay t ↔ ∃ date, cadence.falls date ∧ t = slot offset minuteOfDay date := by
  unfold IsSlot slot microsPerDay
  constructor
  · rintro ⟨hfalls, htime⟩
    refine ⟨_, hfalls, ?_⟩
    cases t
    simp only [Timestamptz.mk.injEq] at htime ⊢
    omega
  · rintro ⟨date, hfalls, rfl⟩
    simp only [Int.sub_add_cancel]
    have hdate : (date * 86400000000 + minuteOfDay * 60000000) / 86400000000 = date := by omega
    rw [hdate]
    exact ⟨hfalls, by omega⟩

theorem slot_lt_slot {date later : ℤ} :
    slot offset minuteOfDay date < slot offset minuteOfDay later ↔ date < later := by
  unfold slot microsPerDay
  rw [Timestamptz.lt_iff]
  show date * 86400000000 + minuteOfDay * 60000000 - offset <
    later * 86400000000 + minuteOfDay * 60000000 - offset ↔ _
  omega

/-! ### Dates -/

theorem exists_falls_weekly {dow : ℕ} (hdow : dow ≤ 6) (date : ℤ) :
    ∃ k : ℕ, 1 ≤ k ∧ k ≤ 7 ∧ (Cadence.weekly dow).falls (date + k) := by
  refine ⟨((dow - dayOfWeek date - 1) % 7 + 1).toNat, ?_⟩
  unfold Cadence.falls dayOfWeek
  rw [decide_eq_true_eq]
  omega

theorem days_of_month (leap : Bool) {month : ℕ} (hlow : 1 ≤ month) (hhigh : month ≤ 12) :
    28 ≤ Civil.daysBeforeMonth leap (month + 1) - Civil.daysBeforeMonth leap month ∧
      Civil.daysBeforeMonth leap (month + 1) - Civil.daysBeforeMonth leap month ≤ 31 := by
  have hall : ∀ leap : Bool, ∀ month ≤ 12, 1 ≤ month →
      28 ≤ Civil.daysBeforeMonth leap (month + 1) - Civil.daysBeforeMonth leap month ∧
        Civil.daysBeforeMonth leap (month + 1) - Civil.daysBeforeMonth leap month ≤ 31 := by decide
  exact hall leap month hhigh hlow

theorem exists_next_month {dom : ℕ} (hlow : 1 ≤ dom) (hhigh : dom ≤ 28) {today : Civil.Date}
    (htoday : today.Valid) :
    ∃ next : Civil.Date, next.day = dom ∧ next.Valid ∧
      Civil.daysFromCivil today < Civil.daysFromCivil next ∧
      Civil.daysFromCivil next ≤ Civil.daysFromCivil today + 59 := by
  obtain ⟨hmonth, hmonth', hday, hlen⟩ := htoday
  have hthis := days_of_month (Civil.isLeap today.year) hmonth hmonth'
  by_cases hlast : today.month = 12
  · have hyear := Civil.daysBeforeYear_succ today.year
    have hjanuary := days_of_month (Civil.isLeap (today.year + 1)) le_rfl (by omega : 1 ≤ 12)
    have hstart : Civil.daysBeforeMonth (Civil.isLeap (today.year + 1)) 1 = 0 := rfl
    rw [hlast, show 12 + 1 = 13 by rfl] at hthis hlen
    refine ⟨⟨today.year + 1, 1, dom⟩, rfl, ⟨le_rfl, Nat.le_add_left 1 11, hlow, ?_⟩, ?_⟩
    · exact (Int.ofNat_le.mpr hhigh).trans hjanuary.1
    · unfold Civil.daysFromCivil
      simp only [hyear, hstart, hlast]
      omega
  · have hnext := days_of_month (Civil.isLeap today.year) (by omega : 1 ≤ today.month + 1)
      (by omega : today.month + 1 ≤ 12)
    refine ⟨⟨today.year, today.month + 1, dom⟩, rfl,
      ⟨Nat.le_add_left 1 _, by show today.month + 1 ≤ 12; omega, hlow, ?_⟩, ?_⟩
    · exact (Int.ofNat_le.mpr hhigh).trans hnext.1
    · unfold Civil.daysFromCivil
      simp only
      omega

theorem exists_falls_monthly {dom : ℕ} (hlow : 1 ≤ dom) (hhigh : dom ≤ 28) (date : ℤ) :
    ∃ k : ℕ, 1 ≤ k ∧ k ≤ 59 ∧ (Cadence.monthly dom).falls (date + k) := by
  obtain ⟨next, rfl, hnext, hlt, hle⟩ := exists_next_month hlow hhigh (Civil.valid_civilFromDays date)
  rw [Civil.daysFromCivil_civilFromDays] at hlt hle
  refine ⟨(Civil.daysFromCivil next - date).toNat, by omega, by omega, ?_⟩
  have hdate : date + (Civil.daysFromCivil next - date).toNat = Civil.daysFromCivil next := by omega
  unfold Cadence.falls
  rw [hdate, Civil.civilFromDays_daysFromCivil hnext, decide_eq_true_eq]

theorem exists_falls (hvalid : cadence.valid) (date : ℤ) :
    ∃ k : ℕ, 1 ≤ k ∧ k ≤ 59 ∧ cadence.falls (date + k) := by
  cases cadence with
  | daily => exact ⟨1, le_rfl, by omega, rfl⟩
  | weekly dow =>
    obtain ⟨k, hpos, hle, hfalls⟩ := exists_falls_weekly (of_decide_eq_true hvalid) date
    exact ⟨k, hpos, by omega, hfalls⟩
  | monthly dom =>
    rw [Cadence.valid, Bool.and_eq_true, decide_eq_true_eq, decide_eq_true_eq] at hvalid
    exact exists_falls_monthly hvalid.1 hvalid.2 date

/-! ### The next run -/

/-- What the loop finds on a date. -/
def candidate? (offset : ℤ) (cadence : Cadence) (minuteOfDay : ℕ) (after : Timestamptz) (k : ℕ) :
    Option Timestamptz :=
  let date := (after.micros + offset) / microsPerDay + k
  if cadence.falls date then
    if after < slot offset minuteOfDay date then some (slot offset minuteOfDay date) else none
  else none

theorem candidate?_eq_some_iff {after time : Timestamptz} {k : ℕ} :
    candidate? offset cadence minuteOfDay after k = some time ↔
      cadence.falls ((after.micros + offset) / microsPerDay + k) ∧ after < time ∧
        time = slot offset minuteOfDay ((after.micros + offset) / microsPerDay + k) := by
  unfold candidate?
  simp only [Option.ite_none_right_eq_some, Option.some.injEq]
  constructor
  · rintro ⟨hfalls, hlt, rfl⟩
    exact ⟨hfalls, hlt, rfl⟩
  · rintro ⟨hfalls, hlt, rfl⟩
    exact ⟨hfalls, hlt, rfl⟩

theorem nextReportRun_ok (hzone : zones.FixedOffset timezone offset) (hvalid : cadence.valid)
    (hminute : minuteOfDay ≤ 1439) {after time : Timestamptz}
    (hfound : (List.range 401).findSome? (candidate? offset cadence minuteOfDay after) = some time) :
    nextReportRun zones cadence timezone minuteOfDay after = .ok time := by
  unfold candidate? slot at hfound
  unfold nextReportRun
  rw [if_neg (by simp [hminute, hvalid]), if_neg (by simp [hzone.known])]
  simp only [hzone.localTime, hzone.instant, hfound]
  rfl

theorem lt_slot (after : Timestamptz) {date : ℤ} (h : (after.micros + offset) / microsPerDay < date) :
    after < slot offset minuteOfDay date := by
  rw [Timestamptz.lt_iff]
  show after.micros < date * microsPerDay + minuteOfDay * 60000000 - offset
  unfold microsPerDay at *
  omega

theorem nextReportRun_least (hzone : zones.FixedOffset timezone offset) (hvalid : cadence.valid)
    (hminute : minuteOfDay ≤ 1439) (after : Timestamptz) :
    ∃ time, nextReportRun zones cadence timezone minuteOfDay after = .ok time ∧
      IsLeast (Successors.after {t | IsSlot offset cadence minuteOfDay t} after) time := by
  obtain ⟨k, hpos, hle, hfalls⟩ := exists_falls hvalid ((after.micros + offset) / microsPerDay)
  have hlater : after < slot offset minuteOfDay ((after.micros + offset) / microsPerDay + k) :=
    lt_slot after (by omega)
  have hk := candidate?_eq_some_iff.mpr ⟨hfalls, hlater, rfl⟩
  obtain ⟨j, hjk, time, hj, hbefore, hfound⟩ :=
    Successors.findSome?_range (show k < 401 by omega) hk
  obtain ⟨hfalls, hlt, htime⟩ := candidate?_eq_some_iff.mp hj
  refine ⟨time, nextReportRun_ok hzone hvalid hminute hfound,
    ⟨hlt, (isSlot_iff hminute).mpr ⟨_, hfalls, htime⟩⟩, ?_⟩
  -- a slot before that one would be on a date that the loop has already seen
  rintro t ⟨hafter, hslot⟩
  obtain ⟨date, hdate, rfl⟩ := (isSlot_iff hminute).mp hslot
  rw [← not_lt, htime, slot_lt_slot]
  intro hearlier
  have hstart : (after.micros + offset) / microsPerDay ≤ date := by
    by_contra hpast
    rw [Timestamptz.lt_iff] at hafter
    unfold slot microsPerDay at *
    simp only at hafter
    omega
  have hseen := hbefore (date - (after.micros + offset) / microsPerDay).toNat (by omega)
  have hsome : candidate? offset cadence minuteOfDay after
      (date - (after.micros + offset) / microsPerDay).toNat = some (slot offset minuteOfDay date) := by
    rw [candidate?_eq_some_iff, Int.toNat_of_nonneg (by omega), add_sub_cancel]
    exact ⟨hdate, hafter, rfl⟩
  rw [hseen] at hsome
  cases hsome

/-- **Exactness**: the next run is the first slot after a time; from any time on, the runs that
follow each other are the slots, each once and in order. -/
theorem nextReportRun_exact (hzone : zones.FixedOffset timezone offset) (hvalid : cadence.valid)
    (hminute : minuteOfDay ≤ 1439) (after : Timestamptz) :
    (∃ time, nextReportRun zones cadence timezone minuteOfDay after = .ok time ∧
      IsLeast {t | after < t ∧ IsSlot offset cadence minuteOfDay t} time) ∧
    ∃ runs : ℕ → Timestamptz,
      nextReportRun zones cadence timezone minuteOfDay after = .ok (runs 0) ∧
      (∀ n, nextReportRun zones cadence timezone minuteOfDay (runs n) = .ok (runs (n + 1))) ∧
      StrictMono runs ∧ Set.range runs = {t | after < t ∧ IsSlot offset cadence minuteOfDay t} := by
  refine ⟨nextReportRun_least hzone hvalid hminute after, ?_⟩
  choose next hnext hleast using nextReportRun_least hzone hvalid hminute
  have hruns : Successors.FirstAfter {t | IsSlot offset cadence minuteOfDay t} after
      fun n => next^[n + 1] after :=
    { first := hleast after
      next := fun n => by
        show IsLeast (Successors.after _ (next^[n + 1] after)) (next^[n + 1 + 1] after)
        rw [Function.iterate_succ_apply' next (n + 1)]
        exact hleast _ }
  refine ⟨fun n => next^[n + 1] after, hnext after, fun n => ?_, hruns.strictMono,
    hruns.range Timestamptz.micros fun _ _ h => h⟩
  rw [hnext]
  show _ = Except.ok (next^[n + 1 + 1] after)
  rw [Function.iterate_succ_apply']

/-- Two hours ahead, at nine on the first of the month. -/
theorem nextReportRun_monthly :
    ∃ runs : ℕ → Timestamptz,
      nextReportRun ⟨fun _ => true, fun _ t => t.micros + 7200000000, fun _ l => ⟨l - 7200000000⟩⟩
        (.monthly 1) "Etc/GMT-2" 540 ⟨1772000000000000⟩ = .ok (runs 0) ∧
      Set.range runs = {t | ⟨1772000000000000⟩ < t ∧ IsSlot 7200000000 (.monthly 1) 540 t} := by
  have hzone : Zones.FixedOffset
      ⟨fun _ => true, fun _ t => t.micros + 7200000000, fun _ l => ⟨l - 7200000000⟩⟩ "Etc/GMT-2"
      7200000000 := ⟨rfl, fun _ => rfl, fun _ => rfl⟩
  obtain ⟨-, runs, hfirst, -, -, hrange⟩ := nextReportRun_exact hzone
    (show (Cadence.monthly 1).valid by decide) (show 540 ≤ 1439 by decide) ⟨1772000000000000⟩
  exact ⟨runs, hfirst, hrange⟩

end CalmBoard.Reports
