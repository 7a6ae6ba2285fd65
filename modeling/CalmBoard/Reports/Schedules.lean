import CalmBoard.Schema
import CalmBoard.Lib.Fallible
import CalmBoard.Lib.Runs

/-!
# CalmBoard.Reports.Schedules — export jobs for due report schedules

* `nextReportRun`, `validateReportSchedule`, `validateExportJob`: the functions of the database.
* `due`, `enqueueScheduledReports`: one run of the worker, which is one transaction.
* `step`: runs among the changes that others make.
-/

namespace CalmBoard.Reports

/-- The time zones of the database. -/
structure Zones where
  /-- it is listed in `pg_timezone_names` -/
  known : String → Bool
  /-- `timestamptz AT TIME ZONE`, in microseconds -/
  localTime : String → Timestamptz → ℤ
  /-- `timestamp AT TIME ZONE` -/
  instant : String → ℤ → Timestamptz

/-- `cadence` with the day it names (`report_schedules_cadence_fields_check`). -/
inductive Cadence where
  | daily
  | weekly (dayOfWeek : ℕ)
  | monthly (dayOfMonth : ℕ)

inductive ReportFormat where
  | pdf | xlsx
  deriving DecidableEq

structure ReportSchedule where
  id : Uuid
  organizationId : Uuid
  workspaceId : Uuid
  createdBy : Uuid
  format : ReportFormat
  cadence : Cadence
  timezone : String
  minuteOfDay : ℕ
  isEnabled : Bool
  nextRunAt : Timestamptz
  lastRunAt : Option Timestamptz := none
  deletedAt : Option Timestamptz := none

structure WorkspaceRow where
  id : Uuid
  organizationId : Uuid
  deletedAt : Option Timestamptz := none

/-- A membership without a workspace is one of the whole organization. -/
structure MembershipRow where
  userId : Uuid
  organizationId : Uuid
  workspaceId : Option Uuid
  active : Bool

/-- `export_jobs`, as it is inserted; a job that a member asks for has no schedule. -/
structure ExportJob where
  organizationId : Uuid
  workspaceId : Option Uuid
  requestedBy : Uuid
  reportScheduleId : Option Uuid
  scheduledFor : Option Timestamptz
  format : Option ReportFormat
  idempotencyKey : String

/-- The occurrence of a schedule that a job is for. -/
def ExportJob.occurrence? (j : ExportJob) : Option (Uuid × Timestamptz) :=
  j.reportScheduleId.bind fun id => j.scheduledFor.map fun t => (id, t)

/-- `export_jobs_idempotency_unique`, `export_jobs_schedule_occurrence_unique` -/
structure ExportJobs where
  rows : List ExportJob
  keys : (rows.map ExportJob.idempotencyKey).Nodup
  occurrences : (rows.filterMap ExportJob.occurrence?).Nodup

/-- `log` is no table, it says which occurrences have been enqueued. -/
structure Store where
  schedules : Table ReportSchedule ReportSchedule.id
  workspaces : Table WorkspaceRow WorkspaceRow.id
  memberships : List MembershipRow
  jobs : ExportJobs
  log : List (Uuid × Timestamptz) := []

/-! ### Recurrence -/

def microsPerDay : ℤ := 86400000000

/-- `extract(dow from date)`, of a date as days from 1970-01-01 -/
def dayOfWeek (date : ℤ) : ℤ := (date + 4) % 7

def Cadence.falls (date : ℤ) : Cadence → Bool
  | .daily => true
  | .weekly dow => dayOfWeek date = dow
  | .monthly dom => (Civil.civilFromDays date).day = dom

/-- `requested_day_of_week NOT BETWEEN 0 AND 6`, `requested_day_of_month NOT BETWEEN 1 AND 28` -/
def Cadence.valid : Cadence → Bool
  | .daily => true
  | .weekly dow => dow ≤ 6
  | .monthly dom => 1 ≤ dom && dom ≤ 28

def nextReportRun (zones : Zones) (cadence : Cadence) (timezone : String) (minuteOfDay : ℕ)
    (afterTime : Timestamptz) : Except RepoError Timestamptz :=
  if 1439 < minuteOfDay ∨ ¬ cadence.valid then throw (.database "Invalid report recurrence")
  else if ¬ zones.known timezone then throw (.database "Invalid report timezone")
  else
    let localDate := zones.localTime timezone afterTime / microsPerDay
    let candidate? (offsetDays : ℕ) : Option Timestamptz :=
      let date := localDate + offsetDays
      if cadence.falls date then
        let time := zones.instant timezone (date * microsPerDay + minuteOfDay * 60000000)
        if afterTime < time then some time else none
      else none
    match (List.range 401).findSome? candidate? with
    | some time => return time
    | none => throw (.database "Could not calculate the next report occurrence")

/-! ### Triggers -/

def Store.activeMember (s : Store) (organizationId workspaceId userId : Uuid) : Bool :=
  s.memberships.any fun m => m.organizationId = organizationId && m.userId = userId && m.active &&
    (m.workspaceId = some workspaceId || m.workspaceId = none)

/-- `validate_report_schedule`, for an update that leaves the columns alone that it may not change -/
def validateReportSchedule (zones : Zones) (s : Store) (new : ReportSchedule) :
    Except RepoError Unit := do
  if ¬ (s.workspaces.find? new.workspaceId).any
      (fun w => w.organizationId = new.organizationId && w.deletedAt.isNone) then
    throw (.database "Report schedule workspace is outside the organization")
  if ¬ s.activeMember new.organizationId new.workspaceId new.createdBy then
    throw (.database "Report schedule creator must be an active workspace member")
  if ¬ zones.known new.timezone then
    throw (.database "Report schedule timezone is invalid")

/-- `validate_export_job`, for an insert of a job of workspace scope with a schedule -/
def validateExportJob (s : Store) (organizationId workspaceId requestedBy reportScheduleId : Uuid)
    (format : ReportFormat) : Except RepoError Unit := do
  if ¬ (s.workspaces.find? workspaceId).any (fun w => w.organizationId = organizationId) then
    throw (.database "Export workspace does not belong to its organization")
  if ¬ s.activeMember organizationId workspaceId requestedBy then
    throw (.database "Export requester is not an active Workspace member")
  if ¬ (s.schedules.find? reportScheduleId).any (fun linked =>
      linked.organizationId = organizationId && linked.workspaceId = workspaceId &&
        linked.createdBy = requestedBy && linked.format = format) then
    throw (.database "Scheduled export does not match its report schedule")

/-- `insert … on conflict (idempotency_key) do nothing`, and whether a row has been inserted -/
def ExportJobs.insert (jobs : ExportJobs) (job : ExportJob) : Except RepoError (ExportJobs × Bool) :=
  if hkey : job.idempotencyKey ∈ jobs.rows.map ExportJob.idempotencyKey then .ok (jobs, false)
  else if hoccurrence : ∃ o ∈ job.occurrence?, o ∈ jobs.rows.filterMap ExportJob.occurrence? then
    .error (.database "export_jobs_schedule_occurrence_unique")
  else
    .ok
      ({ rows := jobs.rows ++ [job]
         keys := by
           rw [List.map_append, List.map_singleton, ← List.concat_eq_append]
           exact jobs.keys.concat hkey
         occurrences := by
           rw [List.filterMap_append]
           refine jobs.occurrences.append ?_ fun o ho ho' => hoccurrence ⟨o, ?_, ho⟩
           · cases h : job.occurrence? with
             | none => simp [h]
             | some o => simp [h]
           · simpa using ho' }, true)

/-! ### One run -/

structure ScheduledReportOptions where
  batchSize : ℕ := 25

/-- `order by next_run_at, id` -/
def dueOrder (a b : ReportSchedule) : Bool :=
  decide (toLex (a.nextRunAt, a.id) ≤ toLex (b.nextRunAt, b.id))

/-- The due schedules that a run locks, less those it finds locked. -/
def due (options : ScheduledReportOptions) (now : Timestamptz) (skipped : List Uuid) (s : Store) :
    List ReportSchedule :=
  ((s.schedules.rows.filter fun r => r.isEnabled && r.deletedAt.isNone && r.nextRunAt ≤ now &&
    !skipped.contains r.id).mergeSort dueOrder).take options.batchSize

/-- `new Date(next_run_at)`, which has no digits after the millisecond -/
def ReportSchedule.occurrence (r : ReportSchedule) : Timestamptz := .ofMillis r.nextRunAt.millis

def ReportSchedule.idempotencyKey (r : ReportSchedule) : String :=
  s!"scheduled-report/{r.id}/{String.ofList (IsoDate.toISOString r.nextRunAt.millis)}"

def ReportSchedule.job (r : ReportSchedule) : ExportJob :=
  { organizationId := r.organizationId, workspaceId := some r.workspaceId, requestedBy := r.createdBy
    reportScheduleId := some r.id, scheduledFor := some r.occurrence, format := some r.format
    idempotencyKey := r.idempotencyKey }

def ReportSchedule.advanced (r : ReportSchedule) (nextRunAt : Timestamptz) : ReportSchedule :=
  { r with lastRunAt := some r.occurrence, nextRunAt }

/-- The tables after the insert and the update. -/
def Store.enqueued (s : Store) (r : ReportSchedule) (nextRunAt : Timestamptz) (jobs : ExportJobs)
    (inserted : Bool) : Store :=
  { s with
    jobs, schedules := s.schedules.put (r.advanced nextRunAt)
    log := if inserted then s.log ++ [(r.id, r.occurrence)] else s.log }

/-- The job of a schedule, and the schedule after it; its row is locked. -/
def enqueueSchedule (zones : Zones) (now : Timestamptz) (s : Store) (r : ReportSchedule) :
    Except RepoError Store := do
  validateExportJob s r.organizationId r.workspaceId r.createdBy r.id r.format
  let (jobs, inserted) ← s.jobs.insert r.job
  let nextRunAt ← nextReportRun zones r.cadence r.timezone r.minuteOfDay now
  validateReportSchedule zones s (r.advanced nextRunAt)
  return s.enqueued r nextRunAt jobs inserted

def enqueueScheduledReports (zones : Zones) (options : ScheduledReportOptions) (now : Timestamptz)
    (skipped : List Uuid) (s : Store) : Except RepoError Store :=
  (due options now skipped s).foldlM (enqueueSchedule zones now) s

/-- A run of the worker, a job that a member asks for, or other changes. -/
inductive Event where
  | run (options : ScheduledReportOptions) (now : Timestamptz) (skipped : List Uuid)
  | request (organizationId requestedBy : Uuid) (workspaceId : Option Uuid) (idempotencyKey : String)
      (format : Option ReportFormat)
  | change (schedules : Table ReportSchedule ReportSchedule.id)
      (workspaces : Table WorkspaceRow WorkspaceRow.id) (memberships : List MembershipRow)

def step (zones : Zones) : Event → Store → Except RepoError Store
  | .run options now skipped, s => enqueueScheduledReports zones options now skipped s
  | .request organizationId requestedBy workspaceId idempotencyKey format, s => do
    let (jobs, _) ← s.jobs.insert
      { organizationId, workspaceId, requestedBy, idempotencyKey, format
        reportScheduleId := none, scheduledFor := none }
    return { s with jobs }
  | .change schedules workspaces memberships, s =>
    return { s with schedules, workspaces, memberships }

end CalmBoard.Reports
