import CalmBoard.Lib.DateText
import CalmBoard.Lib.Keyed
import CalmBoard.Sprints.Counters
import CalmBoard.System

/-!
# CalmBoard.Sprints.DailySeries — the days of a timeline, in UTC and in a time zone

The daily states are kept under local dates.  The loop that fills the gaps walks over the midnights of
UTC and asks for the local date of each of them.

* `FixedOffset`: a time zone that is always the same time away from UTC.
* `stateOn_replayed`: what is kept under a date.
* `filled`: what the loop makes of it.
* `local_series_iff`: when the series runs from the local date of the start to that of the end.
-/

namespace CalmBoard.Sprints

open Fallible
open IsoDate (msPerDay)

/-! ### Local dates -/

/-- A time zone at one offset from UTC, where different days have different texts. -/
structure FixedOffset (rt : Runtime) (timezone : String) where
  offset : ℤ
  text : ℤ → String
  text_injective : Function.Injective text
  localDate : ∀ ms, rt.localDate timezone ms = some (text ((ms + offset) / msPerDay))

variable {rt : Runtime} {timezone : String} (zone : FixedOffset rt timezone)

/-- The local day of a time value. -/
def FixedOffset.day (ms : ℤ) : ℤ := (ms + zone.offset) / msPerDay

/-- The local day of the midnight of UTC before a time value. -/
def FixedOffset.dayOfMidnight (ms : ℤ) : ℤ := zone.day (ms / msPerDay * msPerDay)

theorem msPerDay_pos : 0 < msPerDay := by decide

theorem toDateString_eq (ms : ℤ) : toDateString rt ms timezone = .ok (zone.text (zone.day ms)) := by
  unfold toDateString
  rw [zone.localDate]
  rfl

theorem FixedOffset.day_mono {a b : ℤ} (h : a ≤ b) : zone.day a ≤ zone.day b :=
  Int.ediv_le_ediv msPerDay_pos (by omega)

theorem FixedOffset.day_add (n : ℤ) : zone.day (n * msPerDay) = n + zone.day 0 := by
  unfold FixedOffset.day
  rw [show n * msPerDay + zone.offset = 0 + zone.offset + msPerDay * n by ring,
    Int.add_mul_ediv_left _ _ (by decide)]
  ring

theorem FixedOffset.day_eq (ms : ℤ) : zone.day ms = zone.dayOfMidnight ms +
    if ms % msPerDay + zone.offset % msPerDay < msPerDay then 0 else 1 := by
  unfold FixedOffset.dayOfMidnight FixedOffset.day msPerDay
  split <;> omega

/-! ### What is kept under a date -/

def stateOn (points : List DailyPoint) (date : String) : Option SprintCounters :=
  (points.find? (·.date = date)).map DailyPoint.counters

theorem stateOn_capture (points : List DailyPoint) (p : DailyPoint) (date : String) :
    stateOn (captureDailyState points p) date =
      if p.date = date then some p.counters else stateOn points date := by
  have hfind : (captureDailyState points p).find? (·.date = date) =
      if p.date = date then some p else points.find? (·.date = date) := Keyed.find?_put points p date
  unfold stateOn
  rw [hfind]
  split <;> rfl

/-! ### The replay -/

/-- One event of the loop, where every text of a date is known. -/
def FixedOffset.replay (st : SprintCounters × List DailyPoint) (ev : SprintEventRow) :
    SprintCounters × List DailyPoint :=
  let c := applyEvent st.1 ev
  (c, captureDailyState st.2 { date := zone.text (zone.day ev.occurredAt.millis), counters := c })

theorem replayed_eq : ∀ {events : List SprintEventRow} {st st' : SprintCounters × List DailyPoint},
    events.foldlM (replayEvent rt timezone) st = .ok st' → st' = events.foldl zone.replay st
  | [], st, st', h => by
    rw [List.foldlM_nil, pure_ok] at h
    exact h.symm
  | ev :: events, st, st', h => by
    rw [List.foldlM_cons, bind_ok] at h
    obtain ⟨next, hnext, h⟩ := h
    unfold replayEvent at hnext
    rw [toDateString_eq zone] at hnext
    simp only [bind_ok] at hnext
    obtain ⟨-, -, date, hdate, hnext⟩ := hnext
    cases hdate
    rw [pure_ok] at hnext
    subst hnext
    rw [List.foldl_cons]
    exact replayed_eq h

/-- The counters after the last event on or before a local day. -/
def FixedOffset.countersOn (start : SprintCounters) (events : List SprintEventRow) (day : ℤ) :
    SprintCounters :=
  (events.filter fun ev => zone.day ev.occurredAt.millis ≤ day).foldl applyEvent start

/-- Events in the order of their local days. -/
def FixedOffset.Ordered (events : List SprintEventRow) : Prop :=
  events.Pairwise fun a b => zone.day a.occurredAt.millis ≤ zone.day b.occurredAt.millis

/-- **Daily states**: under a date with events are the counters after the last of them.  The induction
is on the events; the later ones decide, as they replace what the earlier ones left. -/
theorem stateOn_replayed {events : List SprintEventRow} (hordered : zone.Ordered events)
    (st : SprintCounters × List DailyPoint) (day : ℤ) :
    stateOn (events.foldl zone.replay st).2 (zone.text day) =
      if ∃ ev ∈ events, zone.day ev.occurredAt.millis = day then some (zone.countersOn st.1 events day)
      else stateOn st.2 (zone.text day) := by
  induction events generalizing st with
  | nil => simp
  | cons ev events ih =>
    obtain ⟨hfirst, hrest⟩ := List.pairwise_cons.mp hordered
    rw [List.foldl_cons, ih hrest]
    by_cases hlater : ∃ ev ∈ events, zone.day ev.occurredAt.millis = day
    · obtain ⟨later, hmem, hday⟩ := hlater
      have hle : zone.day ev.occurredAt.millis ≤ day := hday ▸ hfirst later hmem
      rw [if_pos ⟨later, hmem, hday⟩, if_pos ⟨later, List.mem_cons_of_mem ev hmem, hday⟩]
      unfold FixedOffset.countersOn
      rw [List.filter_cons_of_pos (by simpa using hle), List.foldl_cons]
      rfl
    · rw [if_neg hlater]
      unfold FixedOffset.replay
      rw [stateOn_capture]
      by_cases hday : zone.day ev.occurredAt.millis = day
      · have hnone : events.filter (fun ev => zone.day ev.occurredAt.millis ≤ day) = [] := by
          rw [List.filter_eq_nil_iff]
          intro later hmem hle
          rw [decide_eq_true_eq] at hle
          exact hlater ⟨later, hmem, le_antisymm hle (hday ▸ hfirst later hmem)⟩
        rw [if_pos (congrArg zone.text hday), if_pos ⟨ev, List.mem_cons_self, hday⟩]
        unfold FixedOffset.countersOn
        rw [List.filter_cons_of_pos (by simp [hday]), hnone]
        rfl
      · have hnone : ¬ ∃ e ∈ ev :: events, zone.day e.occurredAt.millis = day := by
          rintro ⟨e, he, hd⟩
          rcases List.mem_cons.mp he with rfl | he
          · exact hday hd
          · exact hlater ⟨e, he, hd⟩
        rw [if_neg fun h => hday (zone.text_injective h), if_neg hnone]

/-! ### The loop over the midnights -/

variable {first : ℤ}

def daysFrom (first last : ℤ) : List ℤ :=
  (List.range (last - first + 1).toNat).map fun (i : ℕ) => first + i

theorem mem_daysFrom {last day : ℤ} : day ∈ daysFrom first last ↔ first ≤ day ∧ day ≤ last := by
  unfold daysFrom
  rw [List.mem_map]
  constructor
  · rintro ⟨i, hi, rfl⟩
    rw [List.mem_range] at hi
    omega
  · rintro ⟨hfirst, hlast⟩
    refine ⟨(day - first).toNat, List.mem_range.mpr (by omega), by omega⟩

theorem daysFrom_eq_nil {last : ℤ} (h : last < first) : daysFrom first last = [] := by
  unfold daysFrom
  rw [show (last - first + 1).toNat = 0 by omega]
  rfl

theorem daysFrom_cons {last : ℤ} (h : first ≤ last) :
    daysFrom first last = first :: daysFrom (first + 1) last := by
  unfold daysFrom
  rw [show (last - first + 1).toNat = (last - (first + 1) + 1).toNat + 1 by omega,
    List.range_succ_eq_map, List.map_cons, List.map_map]
  refine List.cons_eq_cons.mpr ⟨by simp, List.map_congr_left fun i _ => ?_⟩
  simp only [Function.comp_apply]
  omega

theorem daysFrom_inj {last first' last' : ℤ} (h : daysFrom first last = daysFrom first' last') :
    first = first' ∧ last = last' ∨ last < first ∧ last' < first' := by
  rcases lt_or_ge last first with hempty | hle
  · rw [daysFrom_eq_nil hempty] at h
    rcases lt_or_ge last' first' with hempty' | hle'
    · exact Or.inr ⟨hempty, hempty'⟩
    · rw [daysFrom_cons hle'] at h
      cases h
  · have hfirst : first ∈ daysFrom first' last' := h ▸ mem_daysFrom.mpr ⟨le_rfl, hle⟩
    have hlast : last ∈ daysFrom first' last' := h ▸ mem_daysFrom.mpr ⟨hle, le_rfl⟩
    rw [mem_daysFrom] at hfirst hlast
    have hfirst' : first' ∈ daysFrom first last := h ▸ mem_daysFrom.mpr ⟨le_rfl, by omega⟩
    have hlast' : last' ∈ daysFrom first last := h ▸ mem_daysFrom.mpr ⟨by omega, le_rfl⟩
    rw [mem_daysFrom] at hfirst' hlast'
    omega

theorem mapM_ok_of_forall {α β : Type} {f : α → Except RepoError β} {g : α → β}
    (h : ∀ a, f a = .ok (g a)) : ∀ l : List α, l.mapM f = .ok (l.map g)
  | [] => rfl
  | a :: l => by
    rw [List.mapM_cons, h a, mapM_ok_of_forall h l]
    rfl

theorem datesBetween_eq (first last : ℤ) : datesBetween rt timezone first last =
    .ok ((daysFrom (zone.dayOfMidnight first) (zone.dayOfMidnight last)).map zone.text) := by
  unfold datesBetween daysFrom
  simp only [bind_pure_comp, List.map_eq_map]
  rw [mapM_ok_of_forall fun i : ℤ => toDateString_eq zone _, List.map_map, List.map_map]
  unfold FixedOffset.dayOfMidnight
  simp only [zone.day_add]
  rw [show last / msPerDay + zone.day 0 - (first / msPerDay + zone.day 0) + 1 =
    last / msPerDay - first / msPerDay + 1 by ring]
  refine congrArg Except.ok (List.map_congr_left fun i _ => ?_)
  simp only [Function.comp_apply]
  congr 1
  ring

/-- **Filled gaps**: a function of the days that follows what is kept, and else the day before, is what
the loop returns. -/
theorem filled {points : List DailyPoint} {value : ℤ → SprintCounters} {lastDay : ℤ} (n : ℕ) :
    ∀ {first : ℤ} {last : SprintCounters} {series : List DailyPoint},
      (lastDay - first + 1).toNat = n →
      (∀ day ≥ first, value day = (stateOn points (zone.text day)).getD
        (if day = first then last else value (day - 1))) →
      (∀ p ∈ series.getLast?, p.date ≠ zone.text first) →
      continuousDailyPoints points last ((daysFrom first lastDay).map zone.text) series =
        series ++ (daysFrom first lastDay).map fun day => ⟨zone.text day, value day⟩ := by
  induction n with
  | zero =>
    intro first last series hn _ _
    rw [daysFrom_eq_nil (by omega)]
    exact (List.append_nil series).symm
  | succ n ih =>
    intro first last series hn hvalue hlast
    have hnow := hvalue first le_rfl
    rw [if_pos rfl] at hnow
    rw [daysFrom_cons (by omega), List.map_cons, List.map_cons]
    unfold continuousDailyPoints
    have hnew : ¬ series.getLast?.map DailyPoint.date = some (zone.text first) := by
      intro h
      obtain ⟨p, hp, hdate⟩ := Option.map_eq_some_iff.mp h
      exact hlast p hp hdate
    simp only [if_neg hnew]
    change continuousDailyPoints points ((stateOn points (zone.text first)).getD last) _
      (series ++ [⟨zone.text first, (stateOn points (zone.text first)).getD last⟩]) = _
    rw [← hnow, ih (by omega), List.append_assoc]
    · rfl
    · intro day hday
      rw [hvalue day (by omega), if_neg (show day ≠ first by omega)]
      by_cases h : day = first + 1
      · rw [if_pos h, h, Int.add_sub_cancel]
      · rw [if_neg h]
    · intro p hp hdate
      rw [List.getLast?_append_cons, List.getLast?_singleton, Option.mem_some_iff] at hp
      rw [← hp] at hdate
      have := zone.text_injective hdate
      omega

/-- What is kept under the last of the first days that has something kept. -/
def FixedOffset.carried (points : List DailyPoint) (last : SprintCounters) (first : ℤ) :
    ℕ → SprintCounters
  | 0 => (stateOn points (zone.text first)).getD last
  | n + 1 => (stateOn points (zone.text (first + (n + 1)))).getD
    (FixedOffset.carried points last first n)

theorem carried_step (points : List DailyPoint) (last : SprintCounters) (first : ℤ) :
    ∀ day ≥ first, zone.carried points last first (day - first).toNat =
      (stateOn points (zone.text day)).getD
        (if day = first then last else zone.carried points last first (day - 1 - first).toNat) := by
  intro day hday
  by_cases h : day = first
  · subst h
    rw [if_pos rfl, Int.sub_self]
    rfl
  · rw [if_neg h, show (day - first).toNat = (day - 1 - first).toNat + 1 by omega]
    unfold FixedOffset.carried
    rw [show first + ((day - 1 - first).toNat + 1 : ℤ) = day by omega]
    cases (day - 1 - first).toNat <;> rfl

theorem dates_filled (points : List DailyPoint) (last : SprintCounters) (first lastDay : ℤ) :
    (continuousDailyPoints points last ((daysFrom first lastDay).map zone.text) []).map
      DailyPoint.date = (daysFrom first lastDay).map zone.text := by
  rw [filled zone _ rfl (carried_step zone points last first) (by simp), List.nil_append, List.map_map]
  rfl

/-! ### The series of a timeline -/

section Series

variable (start : SprintCounters) (events : List SprintEventRow)

/-- What the loop shows for a day: the days before the first one do not count for it. -/
def FixedOffset.shownOn (first day : ℤ) : SprintCounters :=
  if ∃ ev ∈ events, first ≤ zone.day ev.occurredAt.millis ∧ zone.day ev.occurredAt.millis ≤ day then
    zone.countersOn start events day
  else start

theorem countersOn_pred {day : ℤ} (h : ¬ ∃ ev ∈ events, zone.day ev.occurredAt.millis = day) :
    zone.countersOn start events day = zone.countersOn start events (day - 1) := by
  unfold FixedOffset.countersOn
  congr 1
  refine List.filter_congr fun ev hev => ?_
  have hne : zone.day ev.occurredAt.millis ≠ day := fun hday => h ⟨ev, hev, hday⟩
  rw [decide_eq_decide]
  omega

theorem shownOn_step (hordered : zone.Ordered events) (last : SprintCounters) :
    ∀ day ≥ first, zone.shownOn start events first day =
      (stateOn (events.foldl zone.replay (start, [⟨zone.text first, start⟩])).2
        (zone.text day)).getD (if day = first then last else zone.shownOn start events first (day - 1)) := by
  intro day hday
  rw [stateOn_replayed zone hordered]
  unfold FixedOffset.shownOn
  by_cases hnow : ∃ ev ∈ events, zone.day ev.occurredAt.millis = day
  · obtain ⟨ev, hev, hon⟩ := hnow
    rw [if_pos ⟨ev, hev, by omega⟩, if_pos ⟨ev, hev, hon⟩]
    rfl
  · rw [if_neg hnow]
    by_cases hfirst : day = first
    · subst hfirst
      have hnone : ¬ ∃ ev ∈ events, day ≤ zone.day ev.occurredAt.millis ∧
          zone.day ev.occurredAt.millis ≤ day :=
        fun ⟨ev, hev, h⟩ => hnow ⟨ev, hev, by omega⟩
      rw [if_neg hnone]
      simp [stateOn]
    · have hkept : stateOn [⟨zone.text first, start⟩] (zone.text day) = none := by
        have hne : zone.text first ≠ zone.text day := fun h => hfirst (zone.text_injective h).symm
        simp [stateOn, hne]
      rw [hkept, if_neg hfirst, countersOn_pred zone start events hnow, Option.getD_none]
      refine if_congr ⟨?_, ?_⟩ rfl rfl
      · rintro ⟨ev, hev, h⟩
        have hne : zone.day ev.occurredAt.millis ≠ day := fun hon => hnow ⟨ev, hev, hon⟩
        exact ⟨ev, hev, by omega⟩
      · rintro ⟨ev, hev, h⟩
        exact ⟨ev, hev, by omega⟩

theorem unchanged_of_shownOn
    (h : zone.shownOn start events first first = zone.countersOn start events first) :
    (∃ ev ∈ events, zone.day ev.occurredAt.millis = first) ∨
      zone.countersOn start events (first - 1) = start := by
  by_cases hon : ∃ ev ∈ events, zone.day ev.occurredAt.millis = first
  · exact Or.inl hon
  · have hnone : ¬ ∃ ev ∈ events, first ≤ zone.day ev.occurredAt.millis ∧
        zone.day ev.occurredAt.millis ≤ first :=
      fun ⟨ev, hev, h⟩ => hon ⟨ev, hev, by omega⟩
    unfold FixedOffset.shownOn at h
    rw [if_neg hnone, countersOn_pred zone start events hon] at h
    exact Or.inr h.symm

theorem shownOn_eq {day : ℤ} (hday : first ≤ day)
    (h : (∃ ev ∈ events, zone.day ev.occurredAt.millis = first) ∨
      zone.countersOn start events (first - 1) = start) :
    zone.shownOn start events first day = zone.countersOn start events day := by
  unfold FixedOffset.shownOn
  split
  · rfl
  · rename_i hnone
    rcases h with ⟨ev, hev, hon⟩ | h
    · exact absurd ⟨ev, hev, by omega⟩ hnone
    · have hsame : zone.countersOn start events day = zone.countersOn start events (first - 1) := by
        unfold FixedOffset.countersOn
        congr 1
        refine List.filter_congr fun ev hev => ?_
        have hout : ¬ (first ≤ zone.day ev.occurredAt.millis ∧ zone.day ev.occurredAt.millis ≤ day) :=
          fun hin => hnone ⟨ev, hev, hin⟩
        rw [decide_eq_decide]
        omega
      exact (hsame.trans h).symm

/-- The days from the first to the last, each with the counters after the last event on or before it. -/
structure FixedOffset.LocalSeries (first last : ℤ) (series : List DailyPoint) : Prop where
  dates : series.map DailyPoint.date = (daysFrom first last).map zone.text
  counters : ∀ p ∈ series, ∀ day, p.date = zone.text day →
    p.counters = zone.countersOn start events day
  last : ∀ p ∈ series.getLast?, p.counters = events.foldl applyEvent start

/-- The time of day in UTC and the offset do not add up to another day. -/
def FixedOffset.SameDay (ms : ℤ) : Prop := ms % msPerDay + zone.offset % msPerDay < msPerDay

instance (ms : ℤ) : Decidable (zone.SameDay ms) := inferInstanceAs (Decidable (_ < _))

theorem sameDay_iff {ms : ℤ} : zone.SameDay ms ↔ zone.dayOfMidnight ms = zone.day ms := by
  have hday := zone.day_eq ms
  unfold FixedOffset.SameDay
  split at hday <;> omega

theorem localSeries_shown {last : ℤ} (hordered : zone.Ordered events)
    (hend : ∀ ev ∈ events, zone.day ev.occurredAt.millis ≤ last)
    (h : (∃ ev ∈ events, zone.day ev.occurredAt.millis = first) ∨
      zone.countersOn start events (first - 1) = start) (lastState : SprintCounters) :
    zone.LocalSeries start events first last (continuousDailyPoints
      (events.foldl zone.replay (start, [⟨zone.text first, start⟩])).2 lastState
      ((daysFrom first last).map zone.text) []) := by
  rw [filled zone _ rfl (shownOn_step zone start events hordered lastState) (by simp), List.nil_append]
  refine ⟨?_, ?_, ?_⟩
  · rw [List.map_map]
    rfl
  · rintro p hp day hdate
    obtain ⟨shown, hshown, rfl⟩ := List.mem_map.mp hp
    have hsame : shown = day := zone.text_injective hdate
    subst hsame
    exact shownOn_eq zone start events (mem_daysFrom.mp hshown).1 h
  · intro p hp
    rcases lt_or_ge last first with hempty | hle
    · rw [daysFrom_eq_nil hempty] at hp
      cases hp
    · have hdays : (daysFrom first last).getLast? = some last := by
        unfold daysFrom
        rw [show (last - first + 1).toNat = (last - first).toNat + 1 by omega, List.range_succ,
          List.map_append, List.map_singleton, List.getLast?_append_cons, List.getLast?_singleton]
        congr 1
        omega
      rw [List.getLast?_map, hdays, Option.map_some, Option.mem_some_iff] at hp
      subst hp
      refine (shownOn_eq zone start events hle h).trans ?_
      unfold FixedOffset.countersOn
      rw [List.filter_eq_self.mpr fun ev hev => decide_eq_true (hend ev hev)]

end Series

section Query

variable (db : Db) (sprintId : Uuid)

/-- The end of a timeline: completion, cancellation or now. -/
def timelineEnd (sprint : SprintRow) : ℤ :=
  boundaryEndTime db sprint
    (if sprint.status = .completed then getSnapshot db sprintId .complete else none)

def timelineEvents (sprint : SprintRow) : List SprintEventRow :=
  (sprintEvents db sprintId).filter fun ev => ev.occurredAt.millis ≤ timelineEnd db sprintId sprint

instance : Std.Total eventOrder where
  total a b := by
    unfold eventOrder
    rcases lt_trichotomy a.occurredAt b.occurredAt with h | h | h
    · exact Or.inl (Or.inl h)
    · rcases Nat.le_total a.eventSequence b.eventSequence with hseq | hseq
      · exact Or.inl (Or.inr ⟨h, hseq⟩)
      · exact Or.inr (Or.inr ⟨h.symm, hseq⟩)
    · exact Or.inr (Or.inl h)

instance : IsTrans SprintEventRow eventOrder where
  trans a b c hab hbc := by
    rcases hab with hab | ⟨hab, hseq⟩
    · rcases hbc with hbc | ⟨hbc, -⟩
      · exact Or.inl (hab.trans hbc)
      · exact Or.inl (hbc ▸ hab)
    · rcases hbc with hbc | ⟨hbc, hseq'⟩
      · exact Or.inl (hab ▸ hbc)
      · exact Or.inr ⟨hab.trans hbc, hseq.trans hseq'⟩

theorem eventOrder_millis {a b : SprintEventRow} (h : eventOrder a b) :
    a.occurredAt.millis ≤ b.occurredAt.millis := by
  have hle : a.occurredAt ≤ b.occurredAt := h.elim le_of_lt fun h => h.1.le
  rw [Timestamptz.le_iff] at hle
  unfold Timestamptz.millis
  omega

theorem ordered_timelineEvents (sprint : SprintRow) :
    zone.Ordered (timelineEvents db sprintId sprint) :=
  ((List.pairwise_insertionSort eventOrder _).imp fun h =>
    zone.day_mono (eventOrder_millis h)).filter _

theorem timelineEvents_le (sprint : SprintRow) : ∀ ev ∈ timelineEvents db sprintId sprint,
    zone.day ev.occurredAt.millis ≤ zone.day (timelineEnd db sprintId sprint) := by
  intro ev hev
  have hle := (List.mem_filter.mp hev).2
  rw [decide_eq_true_eq] at hle
  exact zone.day_mono hle

variable {db sprintId}

theorem series_of_available {projectId : Uuid} {isFinalized : Bool} {series : List DailyPoint}
    {sprint : SprintRow} {start : SprintSnapshotRow}
    (hsprint : db.sprints.find? sprintId = some sprint)
    (hstart : getSnapshot db sprintId .start = some start)
    (h : getSprintTimeline rt db sprintId projectId timezone = .ok (.available isFinalized series)) :
    ∃ last, series = continuousDailyPoints
      ((timelineEvents db sprintId sprint).foldl zone.replay (start.counters,
        [⟨zone.text (zone.day start.capturedAt.millis), start.counters⟩])).2 last
      ((daysFrom (zone.dayOfMidnight start.capturedAt.millis)
        (zone.dayOfMidnight (timelineEnd db sprintId sprint))).map zone.text) [] := by
  unfold getSprintTimeline at h
  rw [hsprint, hstart] at h
  split at h
  · cases h
  rename_i sprint' hsprint'
  cases (Option.filter_eq_some_iff.mp hsprint').1
  split at h
  · cases h
  rename_i start' hstart'
  cases (Option.filter_eq_some_iff.mp hstart').1
  simp only [toDateString_eq zone, datesBetween_eq zone, throw_bind, bind_ok, guard_ok] at h
  obtain ⟨firstDate, hfirst, st, hreplay, -, dates, hdates, h⟩ := h
  cases hfirst
  cases hdates
  obtain rfl := replayed_eq zone hreplay
  cases pure_ok.mp h
  exact ⟨_, rfl⟩

/-- **Local dates**: the series of a timeline runs from the local date of the start snapshot to that of
the end, with the counters after the last event on or before each day, where at both of these times the
midnight of UTC is on the same local day and no earlier day changed the counters unseen. -/
theorem local_series_iff {projectId : Uuid} {isFinalized : Bool} {series : List DailyPoint}
    {sprint : SprintRow} {start : SprintSnapshotRow}
    (hsprint : db.sprints.find? sprintId = some sprint)
    (hstart : getSnapshot db sprintId .start = some start)
    (h : getSprintTimeline rt db sprintId projectId timezone = .ok (.available isFinalized series)) :
    let first := start.capturedAt.millis
    let last := timelineEnd db sprintId sprint
    let events := timelineEvents db sprintId sprint
    zone.LocalSeries start.counters events (zone.day first) (zone.day last) series ↔
      (last / msPerDay < first / msPerDay ∧ zone.day last < zone.day first) ∨
        zone.SameDay first ∧ zone.SameDay last ∧
          ((∃ ev ∈ events, zone.day ev.occurredAt.millis = zone.day first) ∨
            zone.countersOn start.counters events (zone.day first - 1) = start.counters) := by
  intro first last events
  obtain ⟨lastState, hseries⟩ := series_of_available zone hsprint hstart h
  have hordered : zone.Ordered events := ordered_timelineEvents zone db sprintId sprint
  have hend : ∀ ev ∈ events, zone.day ev.occurredAt.millis ≤ zone.day last :=
    timelineEvents_le zone db sprintId sprint
  change series = continuousDailyPoints (events.foldl zone.replay (start.counters,
    [⟨zone.text (zone.day first), start.counters⟩])).2 lastState
    ((daysFrom (zone.dayOfMidnight first) (zone.dayOfMidnight last)).map zone.text) [] at hseries
  have hmidnight : zone.dayOfMidnight last - zone.dayOfMidnight first =
      last / msPerDay - first / msPerDay := by
    unfold FixedOffset.dayOfMidnight
    rw [zone.day_add, zone.day_add]
    ring
  constructor
  · intro hlocal
    have hdates := hlocal.dates
    rw [hseries, dates_filled] at hdates
    rcases daysFrom_inj (List.map_injective_iff.mpr zone.text_injective hdates) with
      ⟨hfirst, hlast⟩ | ⟨hutc, hday⟩
    · rcases lt_or_ge (zone.day last) (zone.day first) with hday | hle
      · exact Or.inl ⟨by omega, hday⟩
      · refine Or.inr ⟨(sameDay_iff zone).mpr hfirst, (sameDay_iff zone).mpr hlast,
          unchanged_of_shownOn zone _ _ ?_⟩
        rw [hfirst, filled zone _ rfl (shownOn_step zone _ events hordered lastState) (by simp),
          List.nil_append] at hseries
        refine hlocal.counters ⟨zone.text (zone.day first), _⟩ ?_ (zone.day first) rfl
        rw [hseries]
        exact List.mem_map.mpr ⟨zone.day first, mem_daysFrom.mpr ⟨le_rfl, by omega⟩, rfl⟩
    · exact Or.inl ⟨by omega, hday⟩
  · rintro (⟨hutc, hday⟩ | ⟨hfirst, hlast, hearlier⟩)
    · rw [daysFrom_eq_nil (by omega)] at hseries
      rw [hseries]
      refine ⟨?_, by simp [continuousDailyPoints], by simp [continuousDailyPoints]⟩
      rw [daysFrom_eq_nil hday]
      rfl
    · rw [(sameDay_iff zone).mp hfirst, (sameDay_iff zone).mp hlast] at hseries
      rw [hseries]
      exact localSeries_shown zone start.counters events hordered hend hearlier lastState

end Query

/-! Asia/Riyadh is three hours ahead of UTC: from 21:00 on, the local day is the next one. -/

def riyadhRuntime : Runtime :=
  { utcRuntime with
    localDate := fun zone ms =>
      if zone = "Asia/Riyadh" then
        some (String.ofList (DateText.dayText ((ms + 3 * 60 * 60 * 1000) / msPerDay)))
      else none }

def riyadh : FixedOffset riyadhRuntime "Asia/Riyadh" where
  offset := 3 * 60 * 60 * 1000
  text day := String.ofList (DateText.dayText day)
  text_injective _ _ h := DateText.dayText_injective (String.ofList_injective h)
  localDate _ := rfl

/-- 10:00 on the first of August 2026. -/
def augustSetup : Setup := { smallSetup with now := ⟨(20666 * 24 + 10) * 3600000000⟩ }

/-- Sprint `100` is started at 10:00; a task is added to it at 22:00; the rest of the time passes. -/
def augustSprint (hours : ℕ) : Db :=
  after riyadhRuntime augustSetup [.createSprint { projectId := 7, name := "s" }, .startSprint 100 7,
    .elapse (12 * 3600000000) 0 0, .createTask { projectId := 7, title := "a" },
    .assignTaskToSprint 101 100, .elapse (hours * 3600000000) 0 0]

def augustStart : SprintSnapshotRow where
  projectId := 7
  sprintId := 100
  snapshotType := .start
  dataQuality := .exact
  counters := 0
  capturedAt := augustSetup.now

def augustRow : SprintRow where
  id := 100
  projectId := 7
  name := "s"
  status := .active
  startedAt := some augustSetup.now
  createdAt := augustSetup.now
  updatedAt := augustSetup.now

def oneTask : SprintCounters := { (0 : SprintCounters) with scopeTaskCount := 1, remainingTaskCount := 1 }

theorem local_series_next_day :
    riyadh.LocalSeries augustStart.counters (timelineEvents (augustSprint 12) 100 augustRow)
      (riyadh.day augustStart.capturedAt.millis)
      (riyadh.day (timelineEnd (augustSprint 12) 100 augustRow))
      [⟨"2026-08-01", 0⟩, ⟨"2026-08-02", oneTask⟩] := by
  have hsprint : (augustSprint 12).sprints.find? 100 = some augustRow := by decide
  have hstart : getSnapshot (augustSprint 12) 100 .start = some augustStart := by decide
  have hseries : getSprintTimeline riyadhRuntime (augustSprint 12) 100 7 "Asia/Riyadh" =
      .ok (.available false [⟨"2026-08-01", 0⟩, ⟨"2026-08-02", oneTask⟩]) := by decide
  exact (local_series_iff riyadh hsprint hstart hseries).mpr
    (Or.inr ⟨by decide, by decide, Or.inr (by decide)⟩)

/-- At 22:00 UTC the sprint has two local days; only the first is shown, without the task. -/
theorem last_day_missing :
    (augustSprint 0).sprints.find? 100 = some augustRow ∧
    getSnapshot (augustSprint 0) 100 .start = some augustStart ∧
    getSprintTimeline riyadhRuntime (augustSprint 0) 100 7 "Asia/Riyadh" =
      .ok (.available false [⟨"2026-08-01", 0⟩]) ∧
    toDateString riyadhRuntime (timelineEnd (augustSprint 0) 100 augustRow) "Asia/Riyadh" =
      .ok "2026-08-02" ∧
    (timelineEvents (augustSprint 0) 100 augustRow).foldl applyEvent augustStart.counters = oneTask ∧
    ¬ riyadh.LocalSeries augustStart.counters (timelineEvents (augustSprint 0) 100 augustRow)
      (riyadh.day augustStart.capturedAt.millis)
      (riyadh.day (timelineEnd (augustSprint 0) 100 augustRow)) [⟨"2026-08-01", 0⟩] := by
  refine ⟨by decide, by decide, by decide, by decide,
    by decide, fun h => ?_⟩
  have hdates := h.dates
  revert hdates
  decide

end CalmBoard.Sprints
