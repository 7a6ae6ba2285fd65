import CalmBoard.Workflows.Repository

/-!
# CalmBoard.Timesheets.Repository — logged time and weekly timesheets

The repository of the time logs with the triggers and checks of its two tables, next to the tables
of the workspace and of its workflows.

* `checkTimesheet`, `guardTimesheetTransition`, `validateTimesheetScope`: what PostgreSQL asks of a
  timesheet that is written.
* `insertTimesheet`, `updateTimesheet`: the statements.
* `create`, `submit`, `review`: the calls.
-/

namespace CalmBoard.Timesheets

open Text

inductive TimesheetStatus where
  | draft | submitted | approved | rejected
  deriving DecidableEq

/-- `timesheets`; a `date` is the number of days since 1970-01-01. -/
structure TimesheetRow where
  id : Uuid
  userId : Uuid
  periodStart : ℤ
  periodEnd : ℤ
  status : TimesheetStatus := .draft
  submittedAt : Option Timestamptz := none
  reviewedById : Option Uuid := none
  reviewedAt : Option Timestamptz := none
  rejectionReason : Option String := none
  lockedAt : Option Timestamptz := none
  version : ℤ := 1
  createdAt : Timestamptz
  updatedAt : Timestamptz

structure TimeLogRow where
  id : Uuid
  timesheetId : Uuid
  taskId : Uuid
  userId : Uuid
  description : Option String
  startedAt : Timestamptz
  endedAt : Timestamptz
  durationMinutes : ℤ
  billable : Bool
  createdAt : Timestamptz
  updatedAt : Timestamptz
  deletedAt : Option Timestamptz := none

/-- The tables of the workspace, of its workflows and of its time logs. -/
structure Store where
  work : Workflows.Store
  timesheets : Table TimesheetRow TimesheetRow.id
  timeLogs : Table TimeLogRow TimeLogRow.id

def timesheetsPlace : Place Store TimesheetRow.id where
  get s := s.timesheets
  set T s := { s with timesheets := T }
  get_set _ _ := rfl
  set_set _ _ _ := rfl
  set_get _ := rfl

/-! ### What PostgreSQL asks of a timesheet -/

/-- The check constraints of `timesheets`. -/
def checkTimesheet (r : TimesheetRow) : Except RepoError Unit := do
  if r.periodEnd < r.periodStart then throw (.database "timesheets_period_check")
  if ¬(0 ≤ r.periodEnd - r.periodStart ∧ r.periodEnd - r.periodStart ≤ 30) then
    throw (.database "timesheets_period_length_check")
  if r.version < 1 then throw (.database "timesheets_version_check")
  if r.status ≠ .draft ∧ r.submittedAt = none then
    throw (.database "timesheets_submission_state_check")
  if (r.status = .approved ∨ r.status = .rejected) ∧ (r.reviewedById = none ∨ r.reviewedAt = none) then
    throw (.database "timesheets_review_state_check")
  if r.status ≠ .approved ∧ r.lockedAt ≠ none then
    throw (.database "timesheets_lock_state_check")
  if r.status = .approved ∧ r.lockedAt = none then
    throw (.database "timesheets_approved_lock_check")

/-- The statuses a timesheet may go to. -/
def TimesheetStatus.next : TimesheetStatus → List TimesheetStatus
  | .draft => [.draft, .submitted]
  | .submitted => [.submitted, .approved, .rejected]
  | .rejected => [.rejected, .draft, .submitted]
  | .approved => []

/-- A log of the timesheet that is not deleted. -/
def Store.logged (s : Store) (timesheetId : Uuid) : Bool :=
  s.timeLogs.rows.any fun log => log.timesheetId = timesheetId && log.deletedAt.isNone

def guardTimesheetTransition (s : Store) (old new : TimesheetRow) : Except RepoError Unit := do
  if old.userId ≠ new.userId ∨ old.periodStart ≠ new.periodStart ∨ old.periodEnd ≠ new.periodEnd then
    throw (.database "Timesheet identity and period are immutable")
  if old.status = .approved then throw (.database "Approved timesheets are immutable")
  if new.status ∉ old.status.next then throw (.database "Invalid timesheet status transition")
  if new.status = .submitted ∧ old.status ≠ .submitted ∧ s.logged new.id = false then
    throw (.database "An empty timesheet cannot be submitted")
  if new.version < old.version then throw (.database "Timesheet version cannot decrease")

/-- `validate_timesheet_scope`; the workspace itself is there. -/
def validateTimesheetScope (s : Store) (r : TimesheetRow) : Except RepoError Unit := do
  if r.userId ∉ s.work.db.members then
    throw (.database "Timesheet owner must be an active workspace member")
  match r.reviewedById with
  | none => return ()
  | some reviewer => do
    if reviewer = r.userId then throw (.database "A reviewer cannot approve their own timesheet")
    if reviewer ∉ s.work.db.members then
      throw (.database "Timesheet reviewer must be an active workspace member")

/-- `INSERT … ON CONFLICT DO NOTHING`: the trigger sees the row before the conflict is looked for. -/
def insertTimesheet (r : TimesheetRow) (s : Store) : Except RepoError Store := do
  validateTimesheetScope s r
  checkTimesheet r
  if s.timesheets.rows.any fun t =>
      t.userId = r.userId && t.periodStart = r.periodStart && t.periodEnd = r.periodEnd then
    return s
  match s.timesheets.insert? r with
  | some T => return { s with timesheets := T }
  | none => return s

/-- An `UPDATE` that sets the reviewer, whose trigger therefore runs. -/
def updateTimesheet (selects : TimesheetRow → Bool) (f : TimesheetRow → TimesheetRow) (s : Store) :
    Except RepoError Store :=
  updateRows timesheetsPlace (fun s old new => do
    guardTimesheetTransition s old new
    validateTimesheetScope s new
    checkTimesheet new) selects f s

/-! ### The repository -/

/-- `toISOString` refuses what is out of the range of a `Date`. -/
def dateKey (day : ℤ) : Except RepoError ℤ :=
  if |day * IsoDate.msPerDay| ≤ 8640000000000000 then .ok day
  else throw (.error "Invalid time value")

/-- The ten characters of a key written to a `date` column. -/
def dateColumn (day : ℤ) : Except RepoError ℤ :=
  let year := (Civil.civilFromDays day).year
  if 1 ≤ year ∧ year ≤ 9999 then .ok day
  else throw (.database "date/time field value out of range")

/-- Monday and Sunday; `Date.UTC` reads a year below 100 as one of the twentieth century, and
1970-01-01 was a Thursday. -/
def weeklyPeriod (ms : ℤ) : Except RepoError (ℤ × ℤ) := do
  let date := IsoDate.utcDate ms
  let year := if 0 ≤ date.year ∧ date.year ≤ 99 then 1900 + date.year else date.year
  let start := Civil.daysFromCivil { date with year }
  let day := (start + 4) % 7
  let monday := start - if day = 0 then 6 else day - 1
  let periodStart ← dateKey monday
  let periodEnd ← dateKey (monday + 6)
  return (periodStart, periodEnd)

def requireActor (actorId : Option Uuid) : Except RepoError Uuid :=
  match actorId with
  | some actorId => .ok actorId
  | none => throw (.denied "An authenticated actor is required for time tracking")

def requireActiveMember (s : Store) (userId : Uuid) : Except RepoError Unit :=
  if userId ∈ s.work.db.members then .ok ()
  else throw (.denied "Time tracking requires an active workspace membership")

structure CreateTimeLogInput where
  taskId : Uuid
  durationMinutes : Number
  description : Option String := none
  billable : Option Bool := none
  startedAt : Option JsDate := none

/-- A safe integer between 1 and 1440. -/
def validDuration (n : Number) : Except RepoError ℤ :=
  match n.toInt? with
  | some k =>
    if 1 ≤ k ∧ k ≤ 1440 then .ok k
    else throw (.conflict "durationMinutes must be between 1 and 1440")
  | none => throw (.conflict "durationMinutes must be between 1 and 1440")

def Store.newId (s : Store) : Uuid := s.work.newId

/-- The store after `newId`. -/
def Store.drawn (s : Store) : Store := { s with work := s.work.drawn }

/-- `guard_time_log_period` on an insert. -/
def guardTimeLogPeriod (s : Store) (log : TimeLogRow) : Except RepoError Unit :=
  match s.timesheets.find? log.timesheetId with
  | none => throw (.database "Timesheet period does not exist")
  | some period => do
    if period.status = .submitted ∨ period.status = .approved ∨ period.lockedAt ≠ none then
      throw (.database "The timesheet period is locked for editing")
    if log.userId ≠ period.userId then
      throw (.database "Time log scope must match its timesheet")
    let day := log.startedAt.millis / IsoDate.msPerDay
    if ¬(period.periodStart ≤ day ∧ day ≤ period.periodEnd) then
      throw (.database "Time log date must be inside its timesheet period")
    if (s.work.db.tasks.find? log.taskId).any TaskRow.active = false then
      throw (.database "Time log task is outside the timesheet tenant")

/-- The check constraints of `time_logs`. -/
def checkTimeLog (log : TimeLogRow) : Except RepoError Unit := do
  if ¬(0 < log.durationMinutes ∧ log.durationMinutes ≤ 1440) then
    throw (.database "time_logs_duration_check")
  if log.endedAt < log.startedAt then throw (.database "time_logs_range_check")

def insertTimeLog (log : TimeLogRow) (s : Store) : Except RepoError Store := do
  guardTimeLogPeriod s log
  checkTimeLog log
  match s.timeLogs.insert? log with
  | some T => return ({ s with timeLogs := T } : Store).drawn
  | none => throw Workflows.uniqueViolation

/-- A task with more time logged. -/
def withHours (rt : Runtime) (minutes : ℤ) (now : Timestamptz) (t : TaskRow) : TaskRow :=
  { t with
    loggedHours := t.loggedHours.add rt (rt.double ((minutes : ℚ) / 60)), updatedAt := now }

theorem withHours_id (rt : Runtime) (minutes : ℤ) (now : Timestamptz) (t : TaskRow) :
    (withHours rt minutes now t).id = t.id := rfl

/-- The update that adds the logged time to the task. -/
def addLoggedHours (rt : Runtime) (taskId : Uuid) (minutes : ℤ) (s : Store) : Store :=
  { s with
    work.db.tasks := s.work.db.tasks.update (fun t => t.id = taskId && t.active)
      (withHours rt minutes s.work.db.newDate) (withHours_id rt minutes s.work.db.newDate) }

def reopen (t : Timestamptz) (r : TimesheetRow) : TimesheetRow :=
  { r with
    status := .draft, submittedAt := none, reviewedById := none, reviewedAt := none
    rejectionReason := none, version := r.version + 1, updatedAt := t }

def reopenRejected (period : TimesheetRow) (t : Timestamptz) (s : Store) : Except RepoError Store :=
  if period.status = .rejected then updateTimesheet (fun r => r.id = period.id) (reopen t) s
  else .ok s

def create (rt : Runtime) (s : Store) (actorId : Option Uuid) (input : CreateTimeLogInput) :
    Except RepoError Store := do
  let actorId ← requireActor actorId
  requireActiveMember s actorId
  let minutes ← validDuration input.durationMinutes
  let now := s.work.db.newDate
  match input.startedAt.getD (.time (now.millis - minutes * 60000)) with
  | .invalid => throw (.conflict "startedAt must be a valid date")
  | .time ms => do
    let (periodStart, periodEnd) ← weeklyPeriod ms
    let _ ← Workflows.requireTask s.work input.taskId
    let periodStart ← dateColumn periodStart
    let periodEnd ← dateColumn periodEnd
    let s ← insertTimesheet
      { id := s.newId, userId := actorId, periodStart, periodEnd
        createdAt := s.work.db.now, updatedAt := s.work.db.now } s
    match s.timesheets.rows.find? fun r =>
      r.userId = actorId && r.periodStart = periodStart && r.periodEnd = periodEnd with
    | none => throw (.notFound "timesheet")
    | some period => do
      if period.status = .submitted ∨ period.status = .approved ∨ period.lockedAt ≠ none then
        throw (.conflict "The timesheet period is locked for editing")
      let s ← reopenRejected period now s.drawn
      let s ← insertTimeLog
        { id := s.newId, timesheetId := period.id, taskId := input.taskId, userId := actorId
          description := Workflows.trimmedOrNull input.description
          startedAt := .ofMillis ms, endedAt := .ofMillis (ms + minutes * 60000)
          durationMinutes := minutes, billable := input.billable.getD true
          createdAt := s.work.db.now, updatedAt := s.work.db.now } s
      return addLoggedHours rt input.taskId minutes s

def modifiedByAnother : RepoError := .conflict "The timesheet was modified by another request"

def submitted (t : Timestamptz) (r : TimesheetRow) : TimesheetRow :=
  { r with
    status := .submitted, submittedAt := some t, reviewedById := none, reviewedAt := none
    rejectionReason := none, version := r.version + 1, updatedAt := t }

def submit (s : Store) (actorId : Option Uuid) (timesheetId : Uuid) (expectedVersion : ℤ) :
    Except RepoError Store := do
  let actorId ← requireActor actorId
  requireActiveMember s actorId
  match (s.timesheets.find? timesheetId).filter fun r => r.userId = actorId with
  | none => throw (.notFound "timesheet")
  | some period => do
    if period.version ≠ expectedVersion then throw modifiedByAnother
    if period.status = .approved ∨ period.lockedAt ≠ none then
      throw (.conflict "Approved timesheets are locked")
    if period.status = .submitted then return s
    if s.logged period.id = false then
      throw (.conflict "An empty timesheet cannot be submitted")
    updateTimesheet (fun r => r.id = period.id && r.version = expectedVersion)
      (submitted s.work.db.newDate) s

inductive Decision where
  | approved | rejected
  deriving DecidableEq

structure ReviewInput where
  decision : Decision
  expectedVersion : ℤ
  reason : Option String := none

/-- A timesheet with a decision. -/
def reviewed (actorId : Uuid) (decision : Decision) (reason : Option String) (t : Timestamptz)
    (r : TimesheetRow) : TimesheetRow :=
  { r with
    status := match decision with
      | .approved => .approved
      | .rejected => .rejected
    reviewedById := some actorId, reviewedAt := some t
    rejectionReason := if decision = .rejected then reason else none
    lockedAt := if decision = .approved then some t else none
    version := r.version + 1, updatedAt := t }

def review (s : Store) (actorId : Option Uuid) (timesheetId : Uuid) (input : ReviewInput) :
    Except RepoError Store := do
  let actorId ← requireActor actorId
  requireActiveMember s actorId
  match s.timesheets.find? timesheetId with
  | none => throw (.notFound "timesheet")
  | some period => do
    if period.userId = actorId then
      throw (.denied "Reviewers cannot approve their own timesheet")
    if period.version ≠ input.expectedVersion then throw modifiedByAnother
    if period.status ≠ .submitted then
      throw (.conflict "Only submitted timesheets can be reviewed")
    let reason := Workflows.trimmedOrNull input.reason
    if input.decision = .rejected ∧ reason = none then
      throw (.conflict "A rejection reason is required")
    updateTimesheet (fun r => r.id = period.id && r.version = input.expectedVersion)
      (reviewed actorId input.decision reason s.work.db.newDate) s

/-! ### Requests -/

inductive Request where
  /-- a request to the workspace or its workflows -/
  | work (request : Workflows.Request)
  | create (actorId : Option Uuid) (input : CreateTimeLogInput)
  | submit (actorId : Option Uuid) (timesheetId : Uuid) (expectedVersion : ℤ)
  | review (actorId : Option Uuid) (timesheetId : Uuid) (input : ReviewInput)

def step (rt : Runtime) (request : Request) (s : Store) : Except RepoError Store :=
  match request with
  | .work request => do
    let work ← Workflows.step rt request s.work
    return { s with work }
  | .create actorId input => create rt s actorId input
  | .submit actorId timesheetId expectedVersion => submit s actorId timesheetId expectedVersion
  | .review actorId timesheetId input => review s actorId timesheetId input

def initial (setup : Setup) : Store where
  work := Workflows.initial setup
  timesheets := .empty
  timeLogs := .empty

/-- A workspace after a sequence of requests. -/
def after (rt : Runtime) (setup : Setup) (requests : List Request) : Store :=
  Runs.run (step rt) (initial setup) requests

end CalmBoard.Timesheets
