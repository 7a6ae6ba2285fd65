import CalmBoard.Timesheets.Repository
import CalmBoard.Lib.Requests

/-!
# CalmBoard.Timesheets.Transactions — the calls, statement by statement

Under `READ COMMITTED` a statement sees what is committed.  Neither `create` nor the trigger of its
insert locks the timesheet they read; `submit` and `review` lock it by their update.

* `Write`, `Lock`: what statements write, and what they hold to the end of their transaction.
* `statement`: the statements of `create`, `submit` and `review`, with the triggers.
* `calls`: any number of calls, in any order of their statements.
-/

namespace CalmBoard.Timesheets

open Requests

inductive Write where
  | sheet (r : TimesheetRow)
  | log (l : TimeLogRow)
  | hours (taskId : Uuid) (minutes : ℤ) (now : Timestamptz)

/-- Rows, and the key of `timesheets_tenant_user_period_unique`. The foreign key of a log takes a lock
on its timesheet that an update does not wait for. -/
inductive Lock where
  | sheet (id : Uuid)
  | period (userId : Uuid) (periodStart periodEnd : ℤ)
  | log (id : Uuid)
  | task (id : Uuid)
  deriving DecidableEq

def Write.apply (rt : Runtime) (w : Write) (s : Store) : Store :=
  match w with
  | .sheet r => { s with timesheets := s.timesheets.upsert r }
  | .log l => { s with timeLogs := s.timeLogs.upsert l }
  | .hours taskId minutes now =>
    { s with
      work.db.tasks := s.work.db.tasks.update (fun t => t.id = taskId && t.active)
        (withHours rt minutes now) (withHours_id rt minutes now) }

/-- `new Date()`, `now()` and a fresh id. -/
structure Input where
  now : Timestamptz := ⟨0⟩
  started : Timestamptz := ⟨0⟩
  id : Uuid := 0

inductive Call where
  | create (actorId : Option Uuid) (input : CreateTimeLogInput)
  | submit (actorId : Option Uuid) (timesheetId : Uuid) (expectedVersion : ℤ)
  | review (actorId : Option Uuid) (timesheetId : Uuid) (input : ReviewInput)

/-- What `create` has worked out before its transaction. -/
structure Entry where
  actorId : Uuid
  taskId : Uuid
  minutes : ℤ
  ms : ℤ
  description : Option String
  billable : Bool
  periodStart : ℤ
  periodEnd : ℤ

inductive Point where
  | create (actorId : Option Uuid) (input : CreateTimeLogInput)
  | selectTask (c : Entry)
  | insertTimesheet (c : Entry)
  | selectPeriod (c : Entry)
  | reopen (c : Entry) (period : TimesheetRow)
  | insertLog (c : Entry) (period : TimesheetRow)
  | addHours (c : Entry) (period : TimesheetRow)
  | logged (period : TimesheetRow)
  | submit (actorId : Option Uuid) (timesheetId : Uuid) (expectedVersion : ℤ)
  | selectSubmitted (actorId timesheetId : Uuid) (expectedVersion : ℤ)
  | countLogs (period : TimesheetRow) (expectedVersion : ℤ)
  | updateSubmitted (period : TimesheetRow) (expectedVersion : ℤ)
  | submitted
  | review (actorId : Option Uuid) (timesheetId : Uuid) (input : ReviewInput)
  | selectReviewed (actorId timesheetId : Uuid) (input : ReviewInput)
  | updateReviewed (actorId : Uuid) (period : TimesheetRow) (input : ReviewInput)
  | reviewed

abbrev Result : Type := Outcome Point Lock Write (Except RepoError Unit)

def orFail : Except RepoError Result → Result
  | .ok o => o
  | .error e => .fail (.error e)

def prepare (i : Input) (s : Store) (actorId : Option Uuid) (input : CreateTimeLogInput) :
    Except RepoError Entry := do
  let actorId ← requireActor actorId
  requireActiveMember s actorId
  let minutes ← validDuration input.durationMinutes
  match input.startedAt.getD (.time (i.now.millis - minutes * 60000)) with
  | .invalid => throw (.conflict "startedAt must be a valid date")
  | .time ms => do
    let (periodStart, periodEnd) ← weeklyPeriod ms
    return { actorId, taskId := input.taskId, minutes, ms
             description := Workflows.trimmedOrNull input.description
             billable := input.billable.getD true, periodStart, periodEnd }

/-- `UPDATE timesheets SET … WHERE id = …`, with what else the row is selected by. -/
def updateSheet (s : Store) (id : Uuid) (selects : TimesheetRow → Bool)
    (f : TimesheetRow → TimesheetRow) : Except RepoError (Option TimesheetRow) :=
  match (s.timesheets.find? id).filter selects with
  | none => .ok none
  | some old => do
    guardTimesheetTransition s old (f old)
    validateTimesheetScope s (f old)
    checkTimesheet (f old)
    return some (f old)

def insertSheet (i : Input) (s : Store) (c : Entry) : Except RepoError Result := do
  let periodStart ← dateColumn c.periodStart
  let periodEnd ← dateColumn c.periodEnd
  let r : TimesheetRow :=
    { id := i.id, userId := c.actorId, periodStart, periodEnd
      createdAt := i.started, updatedAt := i.started }
  validateTimesheetScope s r
  checkTimesheet r
  if (s.timesheets.rows.any fun t =>
      t.userId = r.userId && t.periodStart = r.periodStart && t.periodEnd = r.periodEnd) ||
      (s.timesheets.find? r.id).isSome then
    -- a row that another transaction is updating is there, whatever becomes of the update
    return .next (.selectPeriod c) [] []
  return .next (.selectPeriod c) [.sheet r.id, .period r.userId r.periodStart r.periodEnd] [.sheet r]

def selectPeriod (s : Store) (c : Entry) : Except RepoError Result :=
  match s.timesheets.rows.find? fun r =>
    r.userId = c.actorId && r.periodStart = c.periodStart && r.periodEnd = c.periodEnd with
  | none => throw (.notFound "timesheet")
  | some period => do
    if period.status = .submitted ∨ period.status = .approved ∨ period.lockedAt ≠ none then
      throw (.conflict "The timesheet period is locked for editing")
    return .next (if period.status = .rejected then .reopen c period else .insertLog c period) [] []

def insertLog (i : Input) (s : Store) (c : Entry) (period : TimesheetRow) : Except RepoError Result := do
  let l : TimeLogRow :=
    { id := i.id, timesheetId := period.id, taskId := c.taskId, userId := c.actorId
      description := c.description
      startedAt := .ofMillis c.ms, endedAt := .ofMillis (c.ms + c.minutes * 60000)
      durationMinutes := c.minutes, billable := c.billable
      createdAt := i.started, updatedAt := i.started }
  guardTimeLogPeriod s l
  checkTimeLog l
  if (s.timeLogs.find? l.id).isSome then throw Workflows.uniqueViolation
  return .next (.addHours c period) [.log l.id] [.log l]

def selectSubmitted (s : Store) (actorId timesheetId : Uuid) (expectedVersion : ℤ) :
    Except RepoError Result :=
  match (s.timesheets.find? timesheetId).filter fun r => r.userId = actorId with
  | none => throw (.notFound "timesheet")
  | some period => do
    if period.version ≠ expectedVersion then throw modifiedByAnother
    if period.status = .approved ∨ period.lockedAt ≠ none then
      throw (.conflict "Approved timesheets are locked")
    return if period.status = .submitted then .finish (.ok ())
      else .next (.countLogs period expectedVersion) [] []

def selectReviewed (s : Store) (actorId timesheetId : Uuid) (input : ReviewInput) :
    Except RepoError Result :=
  match s.timesheets.find? timesheetId with
  | none => throw (.notFound "timesheet")
  | some period => do
    if period.userId = actorId then
      throw (.denied "Reviewers cannot approve their own timesheet")
    if period.version ≠ input.expectedVersion then throw modifiedByAnother
    if period.status ≠ .submitted then
      throw (.conflict "Only submitted timesheets can be reviewed")
    if input.decision = .rejected ∧ Workflows.trimmedOrNull input.reason = none then
      throw (.conflict "A rejection reason is required")
    return .next (.updateReviewed actorId period input) [] []

/-- An update by id and version, after which the transaction goes on at `next`. -/
def updateVersion (s : Store) (id : Uuid) (expectedVersion : ℤ) (f : TimesheetRow → TimesheetRow)
    (next : Point) : Except RepoError Result := do
  match ← updateSheet s id (fun r => r.version = expectedVersion) f with
  | none => throw modifiedByAnother
  | some r => return .next next [.sheet r.id] [.sheet r]

def statement (i : Input) (p : Point) (s : Store) : Result :=
  match p with
  | .create actorId input => orFail do
    let c ← prepare i s actorId input
    return .commit (.selectTask c)
  | .selectTask c => orFail do
    let _ ← Workflows.requireTask s.work c.taskId
    return .next (.insertTimesheet c) [] []
  | .insertTimesheet c => orFail (insertSheet i s c)
  | .selectPeriod c => orFail (selectPeriod s c)
  | .reopen c period => orFail do
    match ← updateSheet s period.id (fun _ => true) (reopen i.now) with
    | none => return .next (.insertLog c period) [] []
    | some r => return .next (.insertLog c period) [.sheet r.id] [.sheet r]
  | .insertLog c period => orFail (insertLog i s c period)
  | .addHours c period =>
    let locks := if (s.work.db.tasks.find? c.taskId).any TaskRow.active then [.task c.taskId] else []
    .next (.logged period) locks [.hours c.taskId c.minutes i.now]
  | .submit actorId timesheetId expectedVersion => orFail do
    let actorId ← requireActor actorId
    requireActiveMember s actorId
    return .commit (.selectSubmitted actorId timesheetId expectedVersion)
  | .selectSubmitted actorId timesheetId expectedVersion =>
    orFail (selectSubmitted s actorId timesheetId expectedVersion)
  | .countLogs period expectedVersion => orFail do
    if s.logged period.id = false then throw (.conflict "An empty timesheet cannot be submitted")
    return .next (.updateSubmitted period expectedVersion) [] []
  | .updateSubmitted period expectedVersion =>
    orFail (updateVersion s period.id expectedVersion (submitted i.now) .submitted)
  | .review actorId timesheetId input => orFail do
    let actorId ← requireActor actorId
    requireActiveMember s actorId
    return .commit (.selectReviewed actorId timesheetId input)
  | .selectReviewed actorId timesheetId input => orFail (selectReviewed s actorId timesheetId input)
  | .updateReviewed actorId period input =>
    orFail (updateVersion s period.id input.expectedVersion
      (reviewed actorId input.decision (Workflows.trimmedOrNull input.reason) i.now) .reviewed)
  | .logged _ | .submitted | .reviewed => .finish (.ok ())

def script (rt : Runtime) : Script Call Store Input Point Lock Write (Except RepoError Unit) where
  first
    | .create actorId input => .create actorId input
    | .submit actorId timesheetId expectedVersion => .submit actorId timesheetId expectedVersion
    | .review actorId timesheetId input => .review actorId timesheetId input
  apply := Write.apply rt
  statement := statement
  conflict k k' := k = k'
  conflict_symm k k' := by simp [eq_comm]

abbrev World : Type := Sessions.World Store (Local Point Lock Write (Except RepoError Unit))

abbrev Event : Type := Sessions.Event Call (Action Input)

/-- The timesheets as the migration makes them for the logs there are. -/
def migrated (s : Store) : Store :=
  { s with
    timesheets := s.timesheets.update (fun _ => true)
      (fun r => { r with
        status := .draft, submittedAt := none, reviewedById := none, reviewedAt := none
        rejectionReason := none, lockedAt := none, version := 1 })
      fun _ => rfl }

/-- The tables after statements of any number of calls, in any order. -/
def calls (rt : Runtime) (start : Store) (events : List Event) : World :=
  Sessions.run (script rt).program (Sessions.World.closed (migrated start)) events

end CalmBoard.Timesheets
