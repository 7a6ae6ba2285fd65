import CalmBoard.Tasks.Effects
import CalmBoard.Sprints.Frame

/-!
# CalmBoard.Tasks.Writer — the row an update writes against the state it resolved

`update` resolves a canonical state and writes the raw input with parts of that state laid over it.

* `WrittenFrom`: the columns of the written row.
* `update_refines_iff`: when the state columns of the row are the resolved state.
-/

namespace CalmBoard.Tasks

open Text Fallible

/-! ### The written columns -/

/-- The columns that `updateColumns` writes from `u` over `row`. -/
structure WrittenFrom (u : TaskUpdates) (row new : TaskRow) : Prop where
  id : new.id = row.id
  projectId : new.projectId = row.projectId
  sprintId : new.sprintId = row.sprintId
  deletedAt : new.deletedAt = row.deletedAt
  parentId : new.parentId = u.parentId.getD row.parentId
  status : new.status = u.status.getD row.status
  priority : new.priority = u.priority.getD row.priority
  isMilestone : new.isMilestone = u.isMilestone.getD row.isMilestone
  isRecurring : new.isRecurring = u.isRecurring.getD row.isRecurring
  progress : setColumn int4 row.progress u.progress = .ok new.progress
  startDate : setNullable timestamp row.startDate u.startDate = .ok new.startDate
  dueDate : setNullable timestamp row.dueDate u.dueDate = .ok new.dueDate
  timezone : setColumn (varcharColumn 100) row.timezone u.timezone = .ok new.timezone
  version : new.version = row.version + 1
  points : ∀ p, new.storyPoints = some p → 0 ≤ p

theorem updateColumns_ok {now : Timestamptz} {u : TaskUpdates} {customFields : Option JsObject}
    {row new : TaskRow} (h : updateColumns now u customFields row = .ok new) :
    WrittenFrom u row new := by
  simp only [updateColumns, bind_ok, pure_ok] at h
  obtain ⟨title, -, startDate, hstart, dueDate, hdue, timezone, hzone, progress, hprogress,
    storyPoints, -, version, hversion, _, hcheck, rfl⟩ := h
  exact
    { id := rfl
      projectId := rfl
      sprintId := rfl
      deletedAt := rfl
      parentId := rfl
      status := rfl
      priority := rfl
      isMilestone := rfl
      isRecurring := rfl
      progress := hprogress
      startDate := hstart
      dueDate := hdue
      timezone := hzone
      version := by exact_mod_cast (Number.fin.inj (int4_ok hversion)).symm
      points := checkTaskRow_ok hcheck }

theorem overlay_getD {α : Type} [DecidableEq α] {old new : α} {raw : Option α}
    (h : new = raw.getD old) (changed : Bool) (hc : changed = decide (new ≠ old)) :
    (if changed then some new else raw).getD old = new := by
  by_cases hne : new = old
  · rw [hc, if_neg (by simpa using hne), h]
  · rw [hc, if_pos (by simpa using hne), Option.getD_some]

theorem timestamp_ok {d : JsDate} {t : Timestamptz} (h : timestamp d = .ok t) : t.toDate = d := by
  cases d with
  | invalid => cases h
  | time ms =>
    cases h
    simp [Timestamptz.toDate]

theorem setNullable_timestamp_ok {old new : Option Timestamptz} {u : Option (Option JsDate)}
    (h : setNullable timestamp old u = .ok new) :
    new.map Timestamptz.toDate = u.getD (old.map Timestamptz.toDate) := by
  match u with
  | none =>
    cases h
    rfl
  | some none =>
    cases h
    rfl
  | some (some d) =>
    obtain ⟨t, ht, rfl⟩ := map_ok.mp h
    exact congrArg some (timestamp_ok ht)

section Update

variable {rt : Runtime} {before : HydratedTask} {input : UpdateTaskInput} {r : ResolvedUpdate}
  {row : TaskRow}

theorem written_of_resolved
    (hr : ResolvesTo rt before.current input.toTaskStateInput r.state)
    (hw : WrittenFrom (taskUpdates before input r) before.row row) :
    row.status = r.state.state.status ∧ row.priority = r.state.state.priority ∧
      row.isMilestone = r.state.state.isMilestone ∧
      row.startDate.map Timestamptz.toDate = r.state.state.startDate ∧
      row.dueDate.map Timestamptz.toDate = r.state.state.dueDate := by
  refine ⟨?_, ?_, ?_, ?_, ?_⟩
  · rw [hw.status]
    exact overlay_getD hr.status _ hr.statusChanged
  · rw [hw.priority]
    exact overlay_getD hr.priority _ hr.priorityChanged
  · rw [hw.isMilestone]
    exact overlay_getD hr.isMilestone _ hr.milestoneChanged
  · rw [setNullable_timestamp_ok hw.startDate]
    simp only [taskUpdates]
    cases hdates : r.state.datesChanged with
    | true => rfl
    | false => exact hr.startDate.symm
  · rw [setNullable_timestamp_ok hw.dueDate]
    simp only [taskUpdates]
    cases hdates : r.state.datesChanged with
    | true => rfl
    | false => exact hr.dueDate.symm

theorem written_timezone (hr : ResolvesTo rt before.current input.toTaskStateInput r.state)
    (hw : WrittenFrom (taskUpdates before input r) before.row row) :
    row.timezone = r.state.state.timezone ↔
      ∀ tz, input.timezone = some tz → trim tz ≠ "" ∧ varchar 100 tz = some (trim tz) := by
  rw [hr.timezone]
  have hcolumn := hw.timezone
  cases htz : input.timezone with
  | none =>
    simp only [taskUpdates, htz, setColumn, Except.ok.injEq] at hcolumn
    simp [resolvedTimezone, hcolumn, HydratedTask.current]
  | some tz =>
    have hstored : varchar 100 tz = some row.timezone := by
      simp only [taskUpdates, htz, setColumn, varcharColumn] at hcolumn
      split at hcolumn
      · next t ht =>
        cases hcolumn
        exact ht
      · cases hcolumn
    simp only [resolvedTimezone, Option.some.injEq, forall_eq', hstored]
    by_cases hblank : trim tz = ""
    · have hne : row.timezone ≠ "UTC" := by
        intro hutc
        have hmem := mem_of_varchar hstored (show 'U' ∈ row.timezone.toList by rw [hutc]; decide)
        exact absurd (isSpace_of_trim_eq hblank 'U' hmem) (by decide)
      simp [hblank, hne]
    · simp [hblank]

theorem written_progress (hr : ResolvesTo rt before.current input.toTaskStateInput r.state)
    (hw : WrittenFrom (taskUpdates before input r) before.row row) :
    r.state.state.progress = .fin row.progress ↔
      (input.status.getD before.row.status = .done → before.row.progress = 100 →
        ∀ p, input.progress = some p → p = .fin 100) := by
  have hcolumn := hw.progress
  have hdone := hr.done
  have hstatus : r.state.state.status = input.status.getD before.row.status := hr.status
  have hchanged : r.state.progressChanged =
      decide (r.state.state.progress ≠ .fin before.row.progress) := hr.progressChanged
  simp only [taskUpdates, hchanged] at hcolumn
  by_cases hsame : r.state.state.progress = .fin before.row.progress
  · rw [if_neg (by simpa using hsame)] at hcolumn
    cases hp : input.progress with
    | none =>
      simp only [hp, setColumn, Except.ok.injEq] at hcolumn
      simp [hsame, hcolumn]
    | some p =>
      simp only [hp, setColumn] at hcolumn
      have hpcol := int4_ok hcolumn
      simp only [Option.some.injEq, forall_eq']
      by_cases hd : input.status.getD before.row.status = .done
      · have h100 := hdone (hstatus.trans hd)
        have hbefore : before.row.progress = 100 := by
          rw [h100, Number.fin.injEq] at hsame
          exact_mod_cast hsame.symm
        rw [h100, ← hpcol]
        exact ⟨fun h _ _ => h.symm, fun h => (h hd hbefore).symm⟩
      · refine ⟨fun _ h => absurd h hd, fun _ => ?_⟩
        have hnot : input.status ≠ some .done := fun h => hd (by rw [h]; rfl)
        have hresolved : resolveProgress before.current input.toTaskStateInput = p := by
          have hcurrent : ¬input.status.getD before.current.status = .done := hd
          simp [resolveProgress, hnot, hcurrent, hp]
        rw [hr.progress, hresolved, hpcol]
  · rw [if_pos (by simpa using hsame)] at hcolumn
    refine ⟨fun _ hd h100 => absurd ?_ hsame, fun _ => int4_ok hcolumn⟩
    rw [hdone (hstatus.trans hd), h100]
    rfl

end Update

/-! ### The row after an update -/

section Stored

variable {rt : Runtime} {db db' : Db} {taskId : Uuid} {input : UpdateTaskInput}

theorem find?_recordTaskChange (db : Db) (before after : TaskRow) (k : Uuid) :
    (Sprints.recordTaskChange db before after).tasks.find? k = db.tasks.find? k := by
  obtain ⟨events, hevents⟩ := Sprints.recordTaskChange_eq db before after
  rw [hevents]

/-- What `update` stored: the old row, or the written one up to what triggers add. -/
theorem row_update (h : update rt db taskId input = .ok db') :
    ∃ plan, planUpdate rt db taskId input = .ok plan ∧
      (db' = db ∨ ∃ row stored, WrittenFrom plan.updates plan.before.row row ∧
        db'.tasks.find? taskId = some stored ∧ stored.settle = row.settle) := by
  obtain ⟨plan, hplan, ⟨-, hsame⟩ | ⟨-, hwrite⟩⟩ := update_ok h
  · exact ⟨plan, hplan, Or.inl hsame⟩
  · obtain ⟨row, written, -, hrow, hcore, rfl⟩ := writeUpdate_ok hwrite
    have hw := updateColumns_ok hrow
    obtain ⟨hbefore, -⟩ := planUpdate_ok hplan
    obtain ⟨-, hfind, -⟩ := getById_ok hbefore
    have hid : row.id = taskId := hw.id.trans (Table.key_of_find? hfind)
    have hput : (db.tasks.put row).find? taskId = some row := by
      rw [Table.find?_put (r := row) (s := plan.before.row) (hid ▸ hfind), if_pos hid]
    have hsettled := congrArg (fun d : Db => d.tasks.find? taskId) hcore
    simp only [core_find?, hput, Option.map_some, Option.map_eq_some_iff] at hsettled
    obtain ⟨stored, hstored, hsettle⟩ := hsettled
    exact ⟨plan, hplan, Or.inr ⟨row, stored, hw,
      (find?_recordTaskChange written _ _ _).trans hstored, hsettle⟩⟩

/-- A time zone in the spelling the resolvers return: `UTC`, or trimmed and valid. -/
def CanonicalZone (rt : Runtime) (zone : String) : Prop :=
  zone = "UTC" ∨ trim zone = zone ∧ assertValidTimezone rt zone "timezone" = .ok ()

/-- The state columns of a row are a resolved state; its time zone is canonical and passes the check
a later update makes of the stored time zone. -/
structure Refines (rt : Runtime) (row : TaskRow) (state : CanonicalTaskState) : Prop where
  status : row.status = state.status
  priority : row.priority = state.priority
  progress : state.progress = .fin row.progress
  startDate : row.startDate.map Timestamptz.toDate = state.startDate
  dueDate : row.dueDate.map Timestamptz.toDate = state.dueDate
  timezone : row.timezone = state.timezone
  isMilestone : row.isMilestone = state.isMilestone
  zone : CanonicalZone rt row.timezone
  later : assertCanonicalTimezone rt row.timezone = .ok ()

/-- The time zone of an input is spelled the way it is resolved, also after it is cut to the column;
without one the stored time zone is canonical. -/
def ZoneAsResolved (rt : Runtime) (before : TaskRow) : Option String → Prop
  | some tz => trim tz ≠ "" ∧ varchar 100 tz = some (trim tz)
  | none => CanonicalZone rt before.timezone

/-- An update does not take a completed task below the 100 it has. -/
def KeepsCompleted (before : TaskRow) (input : TaskStateInput) : Prop :=
  input.status.getD before.status = .done → before.progress = 100 →
    ∀ p, input.progress = some p → p = .fin 100

instance (before : TaskRow) (input : TaskStateInput) : Decidable (KeepsCompleted before input) :=
  inferInstanceAs (Decidable (_ → _ → ∀ p ∈ input.progress, p = .fin 100))

theorem zone_of_refines {before : TaskRow} {row : TaskRow} {zone : Option String}
    (hzone : assertCanonicalTimezone rt (resolvedTimezone before.timezone zone) = .ok ())
    (htz : row.timezone = resolvedTimezone before.timezone zone)
    (hspelled : ∀ tz, zone = some tz → trim tz ≠ "" ∧ varchar 100 tz = some (trim tz)) :
    CanonicalZone rt row.timezone ↔ ZoneAsResolved rt before zone := by
  cases zone with
  | none => rw [htz, resolvedTimezone, ZoneAsResolved]
  | some tz =>
    obtain ⟨hne, hcut⟩ := hspelled tz rfl
    rw [resolvedTimezone, if_neg hne] at htz hzone
    refine ⟨fun _ => ⟨hne, hcut⟩, fun _ => Or.inr ?_⟩
    rw [assertCanonicalTimezone, if_neg hne] at hzone
    rw [htz]
    exact ⟨trim_trim tz, hzone⟩

/-- **The written row is the resolved state** exactly when the input spells its time zone the way it
is resolved and does not take a completed task below 100. -/
theorem update_refines_iff {before : HydratedTask} {resolved : ResolvedTaskStateUpdate}
    {stored : TaskRow} (hbefore : getById db taskId = .ok before)
    (hresolved : resolveTaskStateUpdate rt (.time db.now.millis) before.current
      input.toTaskStateInput = .ok resolved)
    (hupdate : update rt db taskId input = .ok db')
    (hstored : db'.tasks.find? taskId = some stored)
    (hwritten : stored.version ≠ before.row.version) :
    Refines rt stored resolved.state ↔
      ZoneAsResolved rt before.row input.timezone ∧
        KeepsCompleted before.row input.toTaskStateInput := by
  obtain ⟨plan, hplan, hwrite⟩ := row_update hupdate
  obtain ⟨hplanBefore, -, hplanResolved, hupdates⟩ := planUpdate_ok hplan
  obtain rfl : plan.before = before := by
    rw [hbefore] at hplanBefore
    exact (Except.ok.inj hplanBefore).symm
  obtain rfl : plan.resolved.state = resolved := by
    simp only [resolveUpdate, bind_ok, pure_ok] at hplanResolved
    obtain ⟨state, hstate, assignment, -, hr⟩ := hplanResolved
    rw [hresolved] at hstate
    rw [← hr]
    exact (Except.ok.inj hstate).symm
  have hr := resolveTaskStateUpdate_ok hresolved
  rcases hwrite with rfl | ⟨row, stored', hw, hfind, hsettle⟩
  · obtain ⟨-, hfind, -⟩ := getById_ok hbefore
    rw [hfind] at hstored
    exact absurd (congrArg TaskRow.version (Option.some.inj hstored)).symm hwritten
  obtain rfl : stored' = stored := by
    rw [hfind] at hstored
    exact Option.some.inj hstored
  rw [hupdates] at hw
  -- what triggers write to the row is none of its state columns
  have hcol : ∀ {α : Type} (f : TaskRow → α), (∀ t : TaskRow, f t.settle = f t) →
      f stored' = f row := by
    intro α f hf
    rw [← hf, hsettle, hf]
  obtain ⟨hstatus, hpriority, hmilestone, hstart, hdue⟩ := written_of_resolved hr hw
  have htimezone := written_timezone hr hw
  have hprogress := written_progress hr hw
  have hz : stored'.timezone = row.timezone := hcol TaskRow.timezone fun _ => rfl
  have hp : stored'.progress = row.progress := hcol TaskRow.progress fun _ => rfl
  rw [← hz] at htimezone
  rw [← hp] at hprogress
  constructor
  · intro h
    have hspelled := htimezone.mp h.timezone
    exact ⟨(zone_of_refines (hr.timezone ▸ hr.zone) (h.timezone.trans hr.timezone) hspelled).mp
      h.zone, hprogress.mp h.progress⟩
  · rintro ⟨hzone, hkeeps⟩
    have hspelled : ∀ tz, input.timezone = some tz →
        trim tz ≠ "" ∧ varchar 100 tz = some (trim tz) := by
      intro tz htz
      rw [htz] at hzone
      exact hzone
    have htz := htimezone.mpr hspelled
    exact
      { status := (hcol TaskRow.status fun _ => rfl).trans hstatus
        priority := (hcol TaskRow.priority fun _ => rfl).trans hpriority
        progress := hprogress.mpr hkeeps
        startDate := (congrArg _ (hcol TaskRow.startDate fun _ => rfl)).trans hstart
        dueDate := (congrArg _ (hcol TaskRow.dueDate fun _ => rfl)).trans hdue
        timezone := htz
        isMilestone := (hcol TaskRow.isMilestone fun _ => rfl).trans hmilestone
        zone := (zone_of_refines (hr.timezone ▸ hr.zone) (htz.trans hr.timezone) hspelled).mpr hzone
        later := htz ▸ hr.zone }

end Stored

/-! ### Inputs on both sides -/

/-- An update together with the row it reads and the state it resolves. -/
def updateWithState (rt : Runtime) (db : Db) (taskId : Uuid) (input : UpdateTaskInput) :
    Except RepoError (HydratedTask × ResolvedTaskStateUpdate × Db) := do
  let before ← getById db taskId
  let resolved ← resolveTaskStateUpdate rt (.time db.now.millis) before.current
    input.toTaskStateInput
  let db' ← update rt db taskId input
  return (before, resolved, db')

def oneTask : Db := after utcRuntime smallSetup [.createTask { projectId := 7, title := "a" }]

/-- Completing the task stores the resolved state. -/
theorem update_refines_completing :
    ∃ db' stored resolved, update utcRuntime oneTask 100
        { status := some .done, timezone := some "UTC", expectedVersion := some (.fin 1) } = .ok db' ∧
      db'.tasks.find? 100 = some stored ∧ Refines utcRuntime stored resolved := by
  obtain ⟨⟨before, resolved, db'⟩, h, hp⟩ := exists_ok
    (x := updateWithState utcRuntime oneTask 100
      { status := some .done, timezone := some "UTC", expectedVersion := some (.fin 1) })
    (p := fun x => x.1.row.version = 1 && x.1.row.progress = 0 &&
      (x.2.2.tasks.find? 100).any fun t => t.version = 2) (by decide +kernel)
  simp only [updateWithState, bind_ok, pure_ok] at h
  obtain ⟨before, hbefore, resolved, hresolved, db', hupdate, ⟨⟩⟩ := h
  simp only [Bool.and_eq_true, decide_eq_true_eq, Option.any_eq_true] at hp
  obtain ⟨⟨hversion, hprogress⟩, stored, hstored, hnew⟩ := hp
  refine ⟨db', stored, resolved.state, hupdate, hstored,
    (update_refines_iff hbefore hresolved hupdate hstored ?_).mpr ⟨?_, ?_⟩⟩
  · rw [hversion, hnew]
    decide
  · exact ⟨by decide, by decide⟩
  · intro _ h100
    rw [hprogress] at h100
    cases h100

/-- A blank time zone is stored as it is, though it resolves to `UTC`; the next update of the row
fails on it. -/
theorem update_stores_blank_timezone :
    ∃ before resolved db' stored,
      updateWithState utcRuntime oneTask 100
        { timezone := some "   ", expectedVersion := some (.fin 1) } = .ok (before, resolved, db') ∧
      db'.tasks.find? 100 = some stored ∧ stored.version ≠ before.row.version ∧
      ¬Refines utcRuntime stored resolved.state ∧
      update utcRuntime db' 100 { title := some "b", expectedVersion := some (.fin 2) } =
        .error (.conflict "Task timezone must be a non-empty string") := by
  obtain ⟨⟨before, resolved, db'⟩, h, hp⟩ := exists_ok
    (x := updateWithState utcRuntime oneTask 100
      { timezone := some "   ", expectedVersion := some (.fin 1) })
    (p := fun x => x.1.row.version = 1 && x.2.1.state.timezone = "UTC" &&
      ((x.2.2.tasks.find? 100).any fun t => t.version = 2 && t.timezone = "   ") &&
      error? (update utcRuntime x.2.2 100 { title := some "b", expectedVersion := some (.fin 2) }) =
        some (.conflict "Task timezone must be a non-empty string")) (by decide +kernel)
  simp only [Bool.and_eq_true, decide_eq_true_eq, Option.any_eq_true] at hp
  obtain ⟨⟨⟨hversion, hutc⟩, stored, hstored, hnew, hblank⟩, hlater⟩ := hp
  refine ⟨before, resolved, db', stored, h, hstored, ?_, fun hr => ?_, error?_eq_some.mp hlater⟩
  · rw [hversion, hnew]
    decide
  · rw [hr.timezone, hutc] at hblank
    exact absurd hblank (by decide)

end CalmBoard.Tasks
