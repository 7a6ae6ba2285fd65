import Mathlib.Logic.Function.Basic
import CalmBoard.Schema
import CalmBoard.Lib.Lease
import CalmBoard.Lib.Sessions

/-!
# CalmBoard.Exports.Worker — export jobs and the files they are stored in

* `exportKey`: the key of the file of a job, the same for all its attempts.
* `claimBatch`, `completeRow`, `releaseRow`, `retryRow`: the statements of the worker on a job.
* `expiredRows`, `markCleaned`, `recordFailure`: the statements of the clean-up.
* `move`: runs of `processWorkspaceExports` and `cleanupExpiredExports`, step by step, beside the
  requests and the retries of dead jobs.
-/

namespace CalmBoard.Exports

open Queue Sessions

inductive ExportScope where
  | workspace | organization
  deriving DecidableEq

inductive ExportFormat where
  | json | pdf | xlsx
  deriving DecidableEq

abbrev Bytes := List UInt8

/-- `organizations/<organizationId>/workspaces/<workspaceId>/exports/<id>.<extension>`, without the
workspace for the export of an organization. -/
structure ObjectKey where
  organizationId : Uuid
  workspaceId : Option Uuid
  id : Uuid
  extension : String
  deriving DecidableEq

/-- What a job records of its file. -/
structure Artefact where
  objectKey : ObjectKey
  fileName : String
  contentType : String
  fileSize : ℕ
  checksum : String

structure ExportResult where
  artefact : Artefact
  completedAt : ℤ
  expiresAt : ℤ

/-- `export_jobs`; times are in milliseconds.  The columns of the result are all null or all set. -/
structure ExportJob where
  id : Uuid
  organizationId : Uuid
  workspaceId : Option Uuid
  exportScope : ExportScope
  format : ExportFormat
  reportScheduleId : Option Uuid
  lease : Lease Uuid Unit
  createdAt : ℤ
  updatedAt : ℤ
  result : Option ExportResult := none
  lastError : Option String := none

/-- The jobs, the bucket, the tokens that have been handed out, and the time. -/
structure Store where
  jobs : Table ExportJob ExportJob.id
  objects : ObjectKey → Option Bytes
  tokens : List Uuid
  clock : ℤ

def Store.empty : Store :=
  { jobs := Table.empty, objects := fun _ => none, tokens := [], clock := 0 }

structure WorkspaceExportOptions where
  batchSize : ℕ := 5
  claimTimeoutMinutes : ℕ := 30
  retentionDays : ℕ := 7
  cleanupBatchSize : ℕ := 25

/-! ### Files -/

def ExportFormat.extension : ExportFormat → String
  | .json => "zip"
  | .pdf => "pdf"
  | .xlsx => "xlsx"

def ExportFormat.contentType : ExportFormat → String
  | .json => "application/zip"
  | .pdf => "application/pdf"
  | .xlsx => "application/vnd.openxmlformats-officedocument.spreadsheetml.sheet"

/-- `deterministicExportObjectKey`; the worker builds the same key. -/
def exportKey (exportScope : ExportScope) (organizationId : Uuid) (workspaceId : Option Uuid)
    (format : ExportFormat) (id : Uuid) : ObjectKey :=
  match exportScope with
  | .organization => { organizationId, workspaceId := none, id, extension := "zip" }
  | .workspace => { organizationId, workspaceId, id, extension := format.extension }

@[simp] theorem exportKey_id (exportScope : ExportScope) (organizationId : Uuid)
    (workspaceId : Option Uuid) (format : ExportFormat) (id : Uuid) :
    (exportKey exportScope organizationId workspaceId format id).id = id := by
  cases exportScope <;> rfl

/-- What a claim returns for a job. -/
structure Candidate where
  id : Uuid
  organizationId : Uuid
  workspaceId : Option Uuid
  exportScope : ExportScope
  format : ExportFormat
  reportScheduleId : Option Uuid
  attempt : ℕ
  claimToken : Uuid

def Candidate.objectKey (c : Candidate) : ObjectKey :=
  exportKey c.exportScope c.organizationId c.workspaceId c.format c.id

/-- `assertWorkspaceExportTarget` and its counterpart for organizations -/
def Candidate.assertTarget (c : Candidate) : Except String Unit :=
  match c.exportScope with
  | .organization =>
    if c.workspaceId ≠ none ∨ c.format ≠ .json ∨ c.reportScheduleId ≠ none then
      .error "Organization export job has an invalid persisted target"
    else .ok ()
  | .workspace =>
    if c.workspaceId = none then .error "Workspace export job has an invalid persisted target"
    else .ok ()

/-- The name of a file, which has the slug of what is exported. -/
def Candidate.fileName (c : Candidate) (slug : String) : String :=
  match c.exportScope, c.format with
  | .organization, _ => s!"calmboard-organization-portability-{slug}-{c.id}.zip"
  | .workspace, .json => s!"calmboard-portability-{slug}-{c.id}.zip"
  | .workspace, _ => s!"calmboard-report-{slug}-{c.id}.{c.format.extension}"

/-- What `markCompleted` is given for a file. -/
def Candidate.artefact (sha256 : Bytes → String) (c : Candidate) (slug : String) (body : Bytes) :
    Artefact :=
  { objectKey := c.objectKey, fileName := c.fileName slug, contentType := c.format.contentType
    fileSize := body.length, checksum := sha256 body }

/-! ### The worker -/

/-- `order by job.available_at, job.created_at, job.id` -/
def dueOrder (a b : ExportJob) : Bool :=
  decide (toLex (a.lease.availableAt, toLex (a.createdAt, a.id)) ≤
    toLex (b.lease.availableAt, toLex (b.createdAt, b.id)))

/-- The jobs that a claim takes, less those it finds locked. -/
def claimBatch (options : WorkspaceExportOptions) (now : ℤ) (skipped : List Uuid) (s : Store) :
    List ExportJob :=
  batch ExportJob.lease dueOrder s.jobs.rows (options.claimTimeoutMinutes * 60000) now
    options.batchSize fun job => skipped.contains job.id

def ExportJob.claimed (now : ℤ) (token : Uuid) (job : ExportJob) : ExportJob :=
  { job with lease := claim now token job.lease, lastError := none, updatedAt := now }

@[simp] theorem ExportJob.claimed_id (now : ℤ) (token : Uuid) (job : ExportJob) :
    (job.claimed now token).id = job.id := rfl

/-- `gen_random_uuid()` gives no token twice. -/
def freshTokens (jobs : List ExportJob) (token : Uuid → Uuid) (s : Store) : Bool :=
  jobs.all fun job => !s.tokens.contains (token job.id)

def commitClaim (jobs : List ExportJob) (now : ℤ) (token : Uuid → Uuid) (s : Store) : Store :=
  { s with
    jobs := s.jobs.update (fun job => (jobs.map ExportJob.id).contains job.id)
      (fun job => job.claimed now (token job.id)) fun job => job.claimed_id now (token job.id)
    tokens := s.tokens ++ jobs.map fun job => token job.id }

def candidateOf (token : Uuid → Uuid) (job : ExportJob) : Candidate :=
  { id := job.id, organizationId := job.organizationId, workspaceId := job.workspaceId
    exportScope := job.exportScope, format := job.format, reportScheduleId := job.reportScheduleId
    attempt := job.lease.attempts + 1, claimToken := token job.id }

/-- `where id = $1 and status = 'processing' and claim_token = $2` -/
def Candidate.owns (c : Candidate) (job : ExportJob) : Bool :=
  job.id = c.id && owned c.claimToken job.lease

def ExportJob.completed (artefact : Artefact) (options : WorkspaceExportOptions) (now : ℤ)
    (job : ExportJob) : ExportJob :=
  { job with
    lease := finish () job.lease
    result := some { artefact, completedAt := now, expiresAt := now + options.retentionDays * 86400000 }
    lastError := none, updatedAt := now }

@[simp] theorem ExportJob.completed_id (artefact : Artefact) (options : WorkspaceExportOptions)
    (now : ℤ) (job : ExportJob) : (job.completed artefact options now).id = job.id := rfl

/-- `markCompleted`, where it updates a row -/
def completeRow (c : Candidate) (artefact : Artefact) (options : WorkspaceExportOptions) (now : ℤ)
    (s : Store) : Store :=
  { s with
    jobs := s.jobs.update c.owns (ExportJob.completed artefact options now)
      (ExportJob.completed_id artefact options now) }

def backoffSeconds (attempt : ℕ) : ℤ := min 3600 (30 * 2 ^ (attempt - 1))

/-- `message.slice(0, 2000)` -/
def sliced (message : String) : String := String.ofList (message.toList.take 2000)

def ExportJob.released (c : Candidate) (message : String) (now : ℤ) (job : ExportJob) : ExportJob :=
  { job with
    lease := release now (backoffSeconds c.attempt * 1000) job.lease
    lastError := some (sliced message), updatedAt := now }

@[simp] theorem ExportJob.released_id (c : Candidate) (message : String) (now : ℤ)
    (job : ExportJob) : (job.released c message now).id = job.id := rfl

/-- `releaseFailed` -/
def releaseRow (c : Candidate) (message : String) (now : ℤ) (s : Store) : Store :=
  { s with
    jobs := s.jobs.update c.owns (ExportJob.released c message now)
      (ExportJob.released_id c message now) }

/-! ### The clean-up -/

/-- What the clean-up reads of a job. -/
structure CleanupCandidate where
  id : Uuid
  status : Status Uuid Unit
  objectKey : ObjectKey

def cleanedMark : String := "[artifact-cleaned]"

/-- `coalesce(last_error, '') like '[artifact-cleaned]%'` -/
def ExportJob.cleaned (job : ExportJob) : Bool :=
  cleanedMark.toList.isPrefixOf (job.lastError.getD "").toList

/-- The status is `completed`, and `expires_at <= now()`. -/
def ExportJob.expired (now : ℤ) (job : ExportJob) : Bool :=
  job.lease.status = .closed () && job.result.any fun result => result.expiresAt ≤ now

def ExportJob.dead (job : ExportJob) : Bool := job.lease.status = .dead

/-- `candidate.object_key ?? deterministicExportObjectKey(candidate)` -/
def ExportJob.cleanupCandidate (job : ExportJob) : CleanupCandidate :=
  { id := job.id, status := job.lease.status
    objectKey := match job.result with
      | some result => result.artefact.objectKey
      | none => exportKey job.exportScope job.organizationId job.workspaceId job.format job.id }

/-- `order by case when status = 'completed' then expires_at else updated_at end, id` -/
def cleanupOrder (a b : ExportJob) : Bool :=
  decide (toLex (sinceWhen a, a.id) ≤ toLex (sinceWhen b, b.id))
where
  sinceWhen (job : ExportJob) : ℤ :=
    match job.result with
    | some result => result.expiresAt
    | none => job.updatedAt

def expiredRows (options : WorkspaceExportOptions) (now : ℤ) (s : Store) : List ExportJob :=
  ((s.jobs.rows.filter fun job => (job.expired now || job.dead) && !job.cleaned).mergeSort
    cleanupOrder).take options.cleanupBatchSize

def CleanupCandidate.label (c : CleanupCandidate) : String :=
  match c.status with
  | .closed () => "completed"
  | _ => "dead"

def ExportJob.marked (c : CleanupCandidate) (now : ℤ) (job : ExportJob) : ExportJob :=
  { job with
    lastError := some (cleanedMark ++ " " ++
      job.lastError.getD (c.label ++ " export artifact removed"))
    updatedAt := now }

@[simp] theorem ExportJob.marked_id (c : CleanupCandidate) (now : ℤ) (job : ExportJob) :
    (job.marked c now).id = job.id := rfl

def markCleaned (c : CleanupCandidate) (now : ℤ) (s : Store) : Store :=
  { s with
    jobs := s.jobs.update
      (fun job => job.id = c.id && job.lease.status = c.status && !job.cleaned)
      (ExportJob.marked c now) (ExportJob.marked_id c now) }

def ExportJob.uncleaned (message : String) (now : ℤ) (job : ExportJob) : ExportJob :=
  { job with
    lastError := some (sliced ("Artifact cleanup failed: " ++ message)), updatedAt := now }

@[simp] theorem ExportJob.uncleaned_id (message : String) (now : ℤ) (job : ExportJob) :
    (job.uncleaned message now).id = job.id := rfl

def recordFailure (c : CleanupCandidate) (message : String) (now : ℤ) (s : Store) : Store :=
  { s with
    jobs := s.jobs.update (fun job => job.id = c.id && job.lease.status.terminal)
      (ExportJob.uncleaned message now) (ExportJob.uncleaned_id message now) }

/-! ### Requests -/

/-- What a request is made of. -/
structure ExportRequest where
  id : Uuid
  organizationId : Uuid
  workspaceId : Option Uuid
  exportScope : ExportScope
  format : ExportFormat
  reportScheduleId : Option Uuid := none

/-- `export_jobs_scope_target_check`, `export_jobs_organization_format_check` and
`export_jobs_schedule_fields_check` -/
def ExportRequest.allowed (request : ExportRequest) : Bool :=
  (match request.exportScope with
    | .workspace => request.workspaceId.isSome
    | .organization => request.workspaceId.isNone && request.format = .json) &&
  (request.reportScheduleId.isNone || request.exportScope = .workspace && request.format ≠ .json)

def newJob (request : ExportRequest) (now : ℤ) : ExportJob :=
  { id := request.id, organizationId := request.organizationId
    workspaceId := request.workspaceId, exportScope := request.exportScope
    format := request.format, reportScheduleId := request.reportScheduleId
    lease := { status := .pending, attempts := 0, maxAttempts := 5, availableAt := now }
    createdAt := now, updatedAt := now }

def insertJob (request : ExportRequest) (now : ℤ) (s : Store) : Option Store :=
  if request.allowed then (s.jobs.insert? (newJob request now)).map fun jobs => { s with jobs }
  else none

def ExportJob.retried (now : ℤ) (job : ExportJob) : ExportJob :=
  { job with lease := retry now job.lease, lastError := none, updatedAt := now }

@[simp] theorem ExportJob.retried_id (now : ℤ) (job : ExportJob) :
    (job.retried now).id = job.id := rfl

/-- `retry_dead_letter('workspace_export', id)` -/
def retryRow (id : Uuid) (now : ℤ) (s : Store) : Store :=
  { s with
    jobs := s.jobs.update (fun job => job.id = id && job.dead) (ExportJob.retried now)
      (ExportJob.retried_id now) }

/-! ### Runs -/

inductive Call where
  | process (options : WorkspaceExportOptions)
  | cleanup (options : WorkspaceExportOptions)
  | request (request : ExportRequest)
  | retryDeadLetter (id : Uuid)

/-- The job that a worker is at, and those it has claimed besides. -/
structure Run where
  options : WorkspaceExportOptions
  c : Candidate
  rest : List Candidate

inductive Local where
  | called (call : Call)
  | working (options : WorkspaceExportOptions) (rest : List Candidate)
  /-- the file is in the bucket -/
  | stored (run : Run) (artefact : Artefact)
  | failed (run : Run) (message : String)
  | cleaning (rest : List CleanupCandidate)
  /-- the file has been deleted -/
  | deleted (c : CleanupCandidate) (rest : List CleanupCandidate)
  /-- and is not there any more -/
  | verified (c : CleanupCandidate) (rest : List CleanupCandidate)
  | uncleaned (c : CleanupCandidate) (message : String) (rest : List CleanupCandidate)
  | stopped

/-- The next step, with what the environment decides; `error` is that of an operation of the bucket
that has had its effect all the same. -/
inductive Op where
  | claim (skipped : List Uuid) (token : Uuid → Uuid)
  | put (slug : String) (body : Bytes) (error : Option String)
  | complete
  | release
  | select
  | delete (error : Option String)
  | verify
  | mark
  | record
  | perform
  | fail (message : String)
  | crash

/-- A step and the time it is made at. -/
structure Action where
  now : ℤ
  op : Op

def putObject (key : ObjectKey) (body : Option Bytes) (s : Store) : Store :=
  { s with objects := Function.update s.objects key body }

/-- The archive of the next job is built and stored. -/
def storeArchive (sha256 : Bytes → String) (run : Run) (slug : String) (body : Bytes)
    (error : Option String) (s : Store) : Store × Local :=
  match run.c.assertTarget with
  | .error message => (s, .failed run message)
  | .ok () =>
    (putObject run.c.objectKey (some body) s,
      match error with
      | none => .stored run (run.c.artefact sha256 slug body)
      | some message => .failed run message)

def markCompleted (run : Run) (artefact : Artefact) (now : ℤ) (s : Store) : Store × Local :=
  if s.jobs.rows.any run.c.owns then
    (completeRow run.c artefact run.options now s, .working run.options run.rest)
  else (s, .failed run "Workspace export claim was lost before completion")

def proceed (sha256 : Bytes → String) (now : ℤ) (op : Op) (s : Store) (l : Local) :
    Option (Store × Local) :=
  match op, l with
  | .crash, _ => some (s, .stopped)
  | .claim skipped token, .called (.process options) =>
    let jobs := claimBatch options now skipped s
    if freshTokens jobs token s then
      some (commitClaim jobs now token s, .working options (jobs.map (candidateOf token)))
    else none
  | .put slug body error, .working options (c :: rest) =>
    some (storeArchive sha256 { options, c, rest } slug body error s)
  | .complete, .stored run artefact => some (markCompleted run artefact now s)
  | .release, .failed run message =>
    some (releaseRow run.c message now s, .working run.options run.rest)
  | .fail message, .working options (c :: rest) => some (s, .failed { options, c, rest } message)
  | .fail message, .stored run _ => some (s, .failed run message)
  | .select, .called (.cleanup options) =>
    some (s, .cleaning ((expiredRows options now s).map ExportJob.cleanupCandidate))
  | .delete error, .cleaning (c :: rest) =>
    some (putObject c.objectKey none s, match error with
      | none => .deleted c rest
      | some message => .uncleaned c message rest)
  | .verify, .deleted c rest =>
    some (s, if (s.objects c.objectKey).isSome then
      .uncleaned c "Export artifact remains after deletion" rest else .verified c rest)
  | .mark, .verified c rest => some (markCleaned c now s, .cleaning rest)
  | .fail message, .cleaning (c :: rest) | .fail message, .deleted c rest
  | .fail message, .verified c rest => some (s, .uncleaned c message rest)
  | .record, .uncleaned c message rest => some (recordFailure c message now s, .cleaning rest)
  | .perform, .called (.request request) =>
    (insertJob request now s).map fun s' => (s', .stopped)
  | .perform, .called (.retryDeadLetter id) => some (retryRow id now s, .stopped)
  | _, _ => none

/-- Time does not go back. -/
def move (sha256 : Bytes → String) (a : Action) (s : Store) (l : Local) : Option (Store × Local) :=
  if a.now < s.clock then none else proceed sha256 a.now a.op { s with clock := a.now } l

def program (sha256 : Bytes → String) : Program Call Store Local Unit Action where
  start := .called
  locks _ := []
  conflict _ _ := false
  move := move sha256
  conflict_symm _ _ := rfl
  start_locks _ := rfl

end CalmBoard.Exports
