import CalmBoard.Schema
import CalmBoard.Lib.Fallible

/-!
# CalmBoard.Tasks.State — the state of a task, resolved from an input

`task-states.ts` turns the state fields of an input (status, priority, progress, dates, time zone,
milestone, recurrence) into a canonical state, or refuses them.

* `resolveTaskStateCreation`, `resolveTaskStateUpdate`: the two resolvers.
* `resolveTaskStateCreation_ok`, `ResolvesTo`: what they return.
-/

namespace CalmBoard.Tasks

open Text Fallible

/-! ### Inputs and states -/

/-- `TaskRecurrenceInput` -/
structure TaskRecurrenceInput where
  frequency : TaskRecurrenceFrequency
  interval : Option Number := none
  timezone : Option String := none
  weekdays : Option (List Number) := none
  monthDay : Option Number := none
  startsAt : Option JsDate := none
  endsAt : Option JsDate := none
  maxOccurrences : Option Number := none
  status : Option TaskRecurrenceStatus := none

/-- `TaskStateInput`: `none` is `undefined`, `some none` is `null`. -/
structure TaskStateInput where
  status : Option TaskStatus := none
  priority : Option TaskPriority := none
  progress : Option Number := none
  startDate : Option (Option JsDate) := none
  dueDate : Option (Option JsDate) := none
  timezone : Option String := none
  isMilestone : Option Bool := none
  isRecurring : Option (Option Bool) := none
  recurrence : Option (Option TaskRecurrenceInput) := none

/-- `TaskStateCurrent`: the state of a stored task as its reader returns it. -/
structure TaskStateCurrent where
  status : TaskStatus
  priority : TaskPriority
  progress : ℤ
  startDate : Option JsDate
  dueDate : Option JsDate
  timezone : String
  isMilestone : Bool
  isRecurring : Bool

structure NormalizedRecurrence where
  frequency : TaskRecurrenceFrequency
  interval : ℤ
  timezone : String
  weekdays : List ℤ
  monthDay : Option ℤ
  startsAt : JsDate
  endsAt : Option JsDate
  maxOccurrences : Option ℤ
  nextOccurrenceAt : JsDate
  status : TaskRecurrenceStatus

structure CanonicalTaskState where
  status : TaskStatus
  priority : TaskPriority
  progress : Number
  startDate : Option JsDate
  dueDate : Option JsDate
  timezone : String
  isMilestone : Bool
  isRecurring : Bool
  recurrence : Option (Option NormalizedRecurrence) := none

structure ResolvedTaskStateUpdate where
  state : CanonicalTaskState
  statusChanged : Bool
  priorityChanged : Bool
  progressChanged : Bool
  datesChanged : Bool
  milestoneChanged : Bool
  recurrenceChanged : Bool
  hasStateChange : Bool

/-! ### Checks -/

def assertValidTaskProgress (progress : Number) : Except RepoError Unit :=
  match progress.toInt? with
  | some n =>
    if n < 0 ∨ n > 100 then
      .error (.conflict "Task progress must be an integer between 0 and 100")
    else .ok ()
  | none => .error (.conflict "Task progress must be an integer between 0 and 100")

def assertValidTaskDates (startDate dueDate : Option JsDate) : Except RepoError Unit :=
  if startDate = some .invalid then .error (.conflict "Task startDate is invalid")
  else if dueDate = some .invalid then .error (.conflict "Task dueDate is invalid")
  else
    match startDate, dueDate with
    | some (.time s), some (.time d) =>
      if s > d then .error (.conflict "Task startDate cannot be after dueDate") else .ok ()
    | _, _ => .ok ()

def assertValidTimezone (rt : Runtime) (timezone : String) (field : String) :
    Except RepoError Unit :=
  let normalized := trim timezone
  if normalized = "" then .error (.conflict s!"Task {field} must be a non-empty string")
  else if utf16Length normalized > 100 then .error (.conflict s!"Task {field} is too long")
  else if !rt.validZone normalized then
    .error (.conflict s!"Task {field} must be a valid IANA timezone")
  else .ok ()

/-- The check of a time zone that is already stored; an empty one passes. -/
def assertCanonicalTimezone (rt : Runtime) (timezone : String) : Except RepoError Unit :=
  if timezone = "" then .ok () else assertValidTimezone rt timezone "timezone"

def assertValidMilestone (isMilestone : Bool) (startDate dueDate : Option JsDate) :
    Except RepoError Unit :=
  if isMilestone then
    match startDate, dueDate with
    | some (.time s), some (.time d) =>
      if s = d then .ok ()
      else .error (.conflict "A milestone requires identical startDate and dueDate")
    | _, _ => .error (.conflict "A milestone requires identical startDate and dueDate")
  else .ok ()

/-- `input.endsAt <= startsAt`: false when one of the dates is invalid. -/
def JsDate.le : JsDate → JsDate → Bool
  | .time a, .time b => a ≤ b
  | _, _ => false

/-- An optional positive integer within bounds. -/
def optionalInteger (n : Option Number) (low : ℤ) (high : Option ℤ) (message : String) :
    Except RepoError (Option ℤ) :=
  match n with
  | none => .ok none
  | some n =>
    match n.toInt? with
    | some k =>
      if k < low ∨ high.any (k > ·) then .error (.conflict message) else .ok (some k)
    | none => .error (.conflict message)

def normalizeTaskRecurrence (rt : Runtime) (input : TaskRecurrenceInput) (fallbackStart : JsDate) :
    Except RepoError NormalizedRecurrence := do
  let trimmed := (input.timezone.map trim).getD ""
  if trimmed ≠ "" then assertValidTimezone rt trimmed "recurrence timezone"
  let timezone := if trimmed ≠ "" then trimmed else "UTC"
  let days := input.weekdays.getD []
  if ¬ days.Nodup then
    throw (.conflict "Task recurrence weekdays cannot contain duplicate days")
  let weekdays ← days.mapM fun day =>
    match day.toInt? with
    | some d =>
      if d < 0 ∨ d > 6 then .error (.conflict "Task recurrence weekdays must be between 0 and 6")
      else .ok d
    | none => .error (.conflict "Task recurrence weekdays must be between 0 and 6")
  let startsAt := input.startsAt.getD fallbackStart
  let interval ← optionalInteger input.interval 1 none
    "Task recurrence interval must be a positive integer"
  let monthDay ← optionalInteger input.monthDay 1 (some 31)
    "Task recurrence month day must be between 1 and 31"
  let maxOccurrences ← optionalInteger input.maxOccurrences 1 none
    "Task recurrence maximum must be a positive integer"
  if input.endsAt.any fun e => JsDate.le e startsAt then
    throw (.conflict "Task recurrence end must be after its start")
  return {
    frequency := input.frequency
    interval := interval.getD 1
    timezone
    weekdays := weekdays.insertionSort (· ≤ ·)
    monthDay
    startsAt
    endsAt := input.endsAt
    maxOccurrences
    nextOccurrenceAt := startsAt
    status := input.status.getD .active }

/-- The recurrence `assertCanonicalTaskState` looks at: none, an object without a valid status, or a
normalized one. -/
inductive RecurrenceView where
  | absent
  | blankObject
  | present (r : NormalizedRecurrence)

def assertCanonicalRecurrence (rt : Runtime) (isRecurring : Bool) : RecurrenceView → Except RepoError Unit
  | .absent =>
    if isRecurring then .error (.conflict "Recurring task requires a recurrence configuration")
    else .ok ()
  | .blankObject =>
    if isRecurring then .error (.conflict "Task recurrence status is invalid") else .ok ()
  | .present r =>
    if isRecurring then assertValidTimezone rt r.timezone "recurrence timezone" else .ok ()

def assertCanonicalTaskState (rt : Runtime) (state : CanonicalTaskState)
    (recurrence : RecurrenceView) : Except RepoError Unit := do
  assertValidTaskProgress state.progress
  assertValidTaskDates state.startDate state.dueDate
  assertValidMilestone state.isMilestone state.startDate state.dueDate
  assertCanonicalTimezone rt state.timezone
  if state.status = .done ∧ state.progress ≠ .fin 100 then
    throw (.conflict "Completed task must have 100% progress")
  assertCanonicalRecurrence rt state.isRecurring recurrence

/-! ### The resolvers -/

/-- The weekly recurrence that `isRecurring: true` alone stands for. -/
def weeklyRecurrence : TaskRecurrenceInput := { frequency := .weekly }

/-- The time zone of an input: a blank one stands for `UTC`, none for the `current` one. -/
def resolveTimezone (rt : Runtime) (current : String) : Option String → Except RepoError String
  | none => .ok current
  | some tz =>
    if trim tz = "" then .ok "UTC"
    else (assertValidTimezone rt (trim tz) "timezone").map fun _ => trim tz

def assertRecurrenceFlag (input : TaskStateInput) : Except RepoError Unit :=
  if input.isRecurring = some (some false) ∧ input.recurrence.join.isSome then
    .error (.conflict "isRecurring cannot be false when recurrence is provided")
  else .ok ()

def createRecurrence (rt : Runtime) (fallbackStart : JsDate) (input : TaskStateInput) :
    Except RepoError (Option NormalizedRecurrence) :=
  match input.recurrence.join, input.isRecurring with
  | some r, _ => some <$> normalizeTaskRecurrence rt r fallbackStart
  | none, some (some true) => some <$> normalizeTaskRecurrence rt weeklyRecurrence fallbackStart
  | none, _ => .ok none

def RecurrenceView.ofCreated : Option NormalizedRecurrence → RecurrenceView
  | some r => .present r
  | none => .absent

/-- `recurrence ?? (isRecurring ? {} : null)` -/
def RecurrenceView.ofUpdated (isRecurring : Bool) :
    Option (Option NormalizedRecurrence) → RecurrenceView
  | some (some r) => .present r
  | _ => if isRecurring then .blankObject else .absent

/-- `now` is the `new Date()` a recurrence without a due date starts at. -/
def resolveTaskStateCreation (rt : Runtime) (now : JsDate) (input : TaskStateInput) :
    Except RepoError CanonicalTaskState := do
  let status := input.status.getD .todo
  let priority := input.priority.getD .medium
  let progress := if status = .done then .fin 100 else input.progress.getD (.fin 0)
  assertValidTaskProgress progress
  let startDate := input.startDate.join
  let dueDate := input.dueDate.join
  assertValidTaskDates startDate dueDate
  let timezone ← resolveTimezone rt "UTC" input.timezone
  let isMilestone := input.isMilestone.getD false
  assertValidMilestone isMilestone startDate dueDate
  assertRecurrenceFlag input
  let recurrence ← createRecurrence rt (dueDate.getD now) input
  let canonical : CanonicalTaskState :=
    { status, priority, progress, startDate, dueDate, timezone, isMilestone,
      isRecurring := recurrence.isSome, recurrence := some recurrence }
  assertCanonicalTaskState rt canonical (.ofCreated recurrence)
  return canonical

/-- The progress after an update; the source's branches on a status that becomes `done` all end in
the last one. -/
def resolveProgress (current : TaskStateCurrent) (input : TaskStateInput) : Number :=
  let progress :=
    if input.status = some .done ∧ current.status ≠ .done then .fin 100
    else if input.status = some .done ∧ input.progress = none then .fin 100
    else input.progress.getD (.fin current.progress)
  if input.status.getD current.status = .done then .fin 100 else progress

/-- The recurrence after an update: whether the task recurs, and a new rule (`some none` ends it). -/
def resolveRecurrence (rt : Runtime) (now : JsDate) (current : TaskStateCurrent)
    (input : TaskStateInput) (dueDate : Option JsDate) :
    Except RepoError (Bool × Option (Option NormalizedRecurrence)) :=
  let fallbackStart := (dueDate.or current.dueDate).getD now
  match input.recurrence, input.isRecurring with
  | some none, _ => .ok (false, some none)
  | some (some r), _ =>
    (normalizeTaskRecurrence rt r fallbackStart).map fun n => (true, some (some n))
  | none, some (some false) => .ok (false, some none)
  | none, some _ =>
    if current.isRecurring then .ok (true, none)
    else (normalizeTaskRecurrence rt weeklyRecurrence fallbackStart).map fun n => (true, some (some n))
  | none, none => .ok (current.isRecurring, none)

def resolveTaskStateUpdate (rt : Runtime) (now : JsDate) (current : TaskStateCurrent)
    (input : TaskStateInput) : Except RepoError ResolvedTaskStateUpdate := do
  let status := input.status.getD current.status
  let priority := input.priority.getD current.priority
  let startDate := input.startDate.getD current.startDate
  let dueDate := input.dueDate.getD current.dueDate
  let timezone ← resolveTimezone rt current.timezone input.timezone
  let isMilestone := input.isMilestone.getD current.isMilestone
  assertValidMilestone isMilestone startDate dueDate
  let progress := resolveProgress current input
  assertValidTaskProgress progress
  assertRecurrenceFlag input
  let (isRecurring, recurrence) ← resolveRecurrence rt now current input dueDate
  let canonical : CanonicalTaskState :=
    { status, priority, progress, startDate, dueDate, timezone, isMilestone, isRecurring,
      recurrence }
  assertCanonicalTaskState rt canonical (.ofUpdated isRecurring recurrence)
  let statusChanged := decide (status ≠ current.status)
  let priorityChanged := decide (priority ≠ current.priority)
  let progressChanged := decide (progress ≠ .fin current.progress)
  let datesChanged := decide (startDate ≠ current.startDate) || decide (dueDate ≠ current.dueDate)
  let timezoneChanged := decide (timezone ≠ current.timezone)
  let milestoneChanged := decide (isMilestone ≠ current.isMilestone)
  let recurrenceChanged := recurrence.isSome ||
    input.isRecurring.any fun r => decide (r ≠ some current.isRecurring)
  return {
    state := canonical
    statusChanged, priorityChanged, progressChanged, datesChanged, milestoneChanged,
    recurrenceChanged
    hasStateChange := statusChanged || priorityChanged || progressChanged || datesChanged ||
      timezoneChanged || milestoneChanged || recurrenceChanged }

/-! ### What they return -/

variable {rt : Runtime}

theorem assertCanonicalTaskState_ok {state : CanonicalTaskState} {recurrence : RecurrenceView}
    {u : Unit} (h : assertCanonicalTaskState rt state recurrence = .ok u) :
    assertCanonicalTimezone rt state.timezone = .ok () ∧
      (state.status = .done → state.progress = .fin 100) := by
  simp only [assertCanonicalTaskState, bind_ok, throw_bind, guard_ok] at h
  obtain ⟨-, -, -, -, -, -, ⟨⟩, hzone, hdone, -⟩ := h
  exact ⟨hzone, fun hs => not_not.mp fun hp => hdone ⟨hs, hp⟩⟩

theorem resolveTaskStateCreation_ok {now : JsDate} {input : TaskStateInput}
    {state : CanonicalTaskState} (h : resolveTaskStateCreation rt now input = .ok state) :
    state.status = .done → state.progress = .fin 100 := by
  simp only [resolveTaskStateCreation, bind_ok, pure_ok] at h
  obtain ⟨-, -, -, -, timezone, -, -, -, -, -, recurrence, -, u, hcanonical, rfl⟩ := h
  exact (assertCanonicalTaskState_ok hcanonical).2

/-- The time zone that `resolveTimezone` returns when it accepts its input. -/
def resolvedTimezone (current : String) : Option String → String
  | none => current
  | some tz => if trim tz = "" then "UTC" else trim tz

theorem resolveTimezone_ok {current z : String} {timezone : Option String}
    (h : resolveTimezone rt current timezone = .ok z) : z = resolvedTimezone current timezone := by
  cases timezone with
  | none =>
    cases h
    rfl
  | some tz =>
    unfold resolveTimezone at h
    unfold resolvedTimezone
    simp only at h ⊢
    split_ifs at h ⊢
    · cases h
      rfl
    · obtain ⟨-, -, rfl⟩ := map_ok.mp h
      rfl

/-- The state, the flags and the checks of an accepted update. -/
structure ResolvesTo (rt : Runtime) (current : TaskStateCurrent) (input : TaskStateInput)
    (r : ResolvedTaskStateUpdate) : Prop where
  status : r.state.status = input.status.getD current.status
  priority : r.state.priority = input.priority.getD current.priority
  progress : r.state.progress = resolveProgress current input
  startDate : r.state.startDate = input.startDate.getD current.startDate
  dueDate : r.state.dueDate = input.dueDate.getD current.dueDate
  timezone : r.state.timezone = resolvedTimezone current.timezone input.timezone
  isMilestone : r.state.isMilestone = input.isMilestone.getD current.isMilestone
  statusChanged : r.statusChanged = decide (r.state.status ≠ current.status)
  priorityChanged : r.priorityChanged = decide (r.state.priority ≠ current.priority)
  progressChanged : r.progressChanged = decide (r.state.progress ≠ .fin current.progress)
  datesChanged : r.datesChanged = (decide (r.state.startDate ≠ current.startDate) ||
    decide (r.state.dueDate ≠ current.dueDate))
  milestoneChanged : r.milestoneChanged = decide (r.state.isMilestone ≠ current.isMilestone)
  zone : assertCanonicalTimezone rt r.state.timezone = .ok ()
  done : r.state.status = .done → r.state.progress = .fin 100

theorem resolveTaskStateUpdate_ok {now : JsDate} {current : TaskStateCurrent}
    {input : TaskStateInput} {r : ResolvedTaskStateUpdate}
    (h : resolveTaskStateUpdate rt now current input = .ok r) : ResolvesTo rt current input r := by
  simp only [resolveTaskStateUpdate, bind_ok, pure_ok] at h
  obtain ⟨timezone, htimezone, -, -, -, -, -, -, recurrence, -, u, hcanonical, rfl⟩ := h
  obtain ⟨hzone, hdone⟩ := assertCanonicalTaskState_ok hcanonical
  exact
    { status := rfl
      priority := rfl
      progress := rfl
      startDate := rfl
      dueDate := rfl
      timezone := resolveTimezone_ok htimezone
      isMilestone := rfl
      statusChanged := rfl
      priorityChanged := rfl
      progressChanged := rfl
      datesChanged := rfl
      milestoneChanged := rfl
      zone := hzone
      done := hdone }

end CalmBoard.Tasks
