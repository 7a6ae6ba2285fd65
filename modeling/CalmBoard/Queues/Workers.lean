import CalmBoard.Schema
import CalmBoard.Lib.Lease
import CalmBoard.Lib.Sessions

/-!
# CalmBoard.Queues.Workers — the queues of the worker

Automation events, form responses, e-mails and export jobs are claimed, finished and given back by
the same statements, on six tables.

* `Source`, `QueueTable`: the tables, and what they differ in.
* `claimBatch`, `finishRow`, `releaseRow`, `retryDeadLetter`: the statements.
* `Tables`: the rows, and the formats of the report schedules, with which the trigger of the export jobs
  compares them.
* `move`: the workers; every statement is a transaction of its own, or the last one of a
  transaction that has kept the row locked.
-/

namespace CalmBoard.Queues

open Queue Sessions

inductive Source where
  | automationEvent | formTaskCreation | notificationEmail | authEmail | invitationEmail
  | workspaceExport
  deriving DecidableEq

/-- The statuses that successful work ends in. -/
inductive Outcome where
  | sent | skipped | completed
  deriving DecidableEq

/-- What a table has of its own: the default of `max_attempts`, the first wait in seconds after a
failure, the statuses its work ends in, whether an encrypted payload is needed for a claim and
cleared at the end, and whether `retry_dead_letter` knows it. -/
structure QueueTable where
  maxAttempts : ℕ := 8
  backoffBase : ℤ := 5
  outcomes : List Outcome := [.sent, .skipped]
  payloadCleared : Bool := false
  retried : Bool := true

def automationEvents : QueueTable := {}

def formResponses : QueueTable := { maxAttempts := 5, outcomes := [.completed] }

def notificationEmailOutbox : QueueTable := {}

def authEmailOutbox : QueueTable := {}

def invitationEmailOutbox : QueueTable := { payloadCleared := true, retried := false }

def exportJobs : QueueTable := { maxAttempts := 5, backoffBase := 30, outcomes := [.completed] }

def Source.table : Source → QueueTable
  | .automationEvent => automationEvents
  | .formTaskCreation => formResponses
  | .notificationEmail => notificationEmailOutbox
  | .authEmail => authEmailOutbox
  | .invitationEmail => invitationEmailOutbox
  | .workspaceExport => exportJobs

/-- A row of one of the tables; times are in milliseconds. -/
structure Work where
  source : Source
  id : Uuid
  lease : Lease Uuid Outcome
  createdAt : ℤ
  /-- `encrypted_payload is not null` -/
  payload : Bool := true
  /-- the report schedule of an export job, and the format that it asks for -/
  scheduled : Option (Uuid × String) := none

def Work.key (r : Work) : Source × Uuid := (r.source, r.id)

abbrev Store := Table Work Work.key

structure Options where
  batchSize : ℕ
  claimTimeoutMinutes : ℕ

def Options.timeout (options : Options) : ℤ := options.claimTimeoutMinutes * 60000

/-- What a claim returns for a row. -/
structure Candidate where
  id : Uuid
  attempt : ℕ
  claimToken : Uuid

/-! ### Statements -/

/-- The condition of the claim on a row of its table. -/
def Work.claimable (options : Options) (now : ℤ) (r : Work) : Bool :=
  Queue.claimable options.timeout now r.lease && (!r.source.table.payloadCleared || r.payload)

/-- `order by available_at, created_at, id`; the form responses have `submitted_at`. -/
def dueOrder (a b : Work) : Bool :=
  decide (toLex (a.lease.availableAt, toLex (a.createdAt, a.id)) ≤
    toLex (b.lease.availableAt, toLex (b.createdAt, b.id)))

/-- The rows that a claim takes, less those it finds locked. -/
def claimBatch (source : Source) (options : Options) (now : ℤ) (skipped : List Uuid) (s : Store) :
    List Work :=
  batch Work.lease dueOrder
    (s.rows.filter fun r => r.source = source && r.claimable options now) options.timeout now
    options.batchSize fun r => skipped.contains r.id

def Work.claimed (now : ℤ) (token : Uuid) (r : Work) : Work :=
  { r with lease := claim now token r.lease }

@[simp] theorem Work.claimed_key (now : ℤ) (token : Uuid) (r : Work) :
    (r.claimed now token).key = r.key := rfl

def commitClaim (rows : List Work) (now : ℤ) (token : Uuid → Uuid) (s : Store) : Store :=
  s.update (fun r => (rows.map Work.key).contains r.key) (fun r => r.claimed now (token r.id))
    fun r => r.claimed_key now (token r.id)

def candidates (rows : List Work) (token : Uuid → Uuid) : List Candidate :=
  rows.map fun r => { id := r.id, attempt := r.lease.attempts + 1, claimToken := token r.id }

/-- `where id = $1 and status = 'processing' and claim_token = $2` -/
def Candidate.owns (source : Source) (c : Candidate) (r : Work) : Bool :=
  r.key = (source, c.id) && owned c.claimToken r.lease

def Work.finished (outcome : Outcome) (r : Work) : Work :=
  { r with
    lease := finish outcome r.lease
    payload := r.payload && !r.source.table.payloadCleared }

@[simp] theorem Work.finished_key (outcome : Outcome) (r : Work) :
    (r.finished outcome).key = r.key := rfl

/-- `completeEvent`, `markSent`, `markSkipped`, `markCompleted`, and the end of
`createTaskForResponse` -/
def finishRow (source : Source) (c : Candidate) (outcome : Outcome) (s : Store) : Store :=
  s.update (c.owns source) (Work.finished outcome) (Work.finished_key outcome)

def backoffSeconds (source : Source) (attempt : ℕ) : ℤ :=
  min 3600 (source.table.backoffBase * 2 ^ (attempt - 1))

def Work.released (now : ℤ) (source : Source) (c : Candidate) (r : Work) : Work :=
  { r with lease := release now (backoffSeconds source c.attempt * 1000) r.lease }

@[simp] theorem Work.released_key (now : ℤ) (source : Source) (c : Candidate) (r : Work) :
    (r.released now source c).key = r.key := rfl

/-- `releaseEvent`, `releaseFailed` -/
def releaseRow (source : Source) (c : Candidate) (now : ℤ) (s : Store) : Store :=
  s.update (c.owns source) (Work.released now source c) (Work.released_key now source c)

def Work.retried (now : ℤ) (r : Work) : Work := { r with lease := retry now r.lease }

@[simp] theorem Work.retried_key (now : ℤ) (r : Work) : (r.retried now).key = r.key := rfl

/-- `retry_dead_letter`; `none` is its exception. -/
def retryDeadLetter (source : Source) (id : Uuid) (now : ℤ) (s : Store) : Option Store :=
  if source.table.retried then
    some (s.update (fun r => r.key = (source, id)) (Work.retried now) (Work.retried_key now))
  else none

/-- A row as the requests insert it. -/
def newWork (source : Source) (id : Uuid) (now : ℤ) : Work :=
  { source, id, createdAt := now
    lease := { status := .pending, attempts := 0, maxAttempts := source.table.maxAttempts
               availableAt := now } }

/-! ### Report schedules -/

/-- The rows of all queues, and `report_schedules.format`. -/
structure Tables extends Table Work Work.key where
  scheduleFormat : Uuid → Option String

def Tables.empty : Tables := ⟨Table.empty, fun _ => none⟩

def Tables.withRows (s : Tables) (table : Store) : Tables := ⟨table, s.scheduleFormat⟩

/-- `validate_export_job`: whether an update of the row passes.  It compares the format of a scheduled
export with that of its schedule; what else it compares, the statements here keep. -/
def Tables.accepts (s : Tables) (r : Work) : Bool :=
  r.scheduled.all fun x => s.scheduleFormat x.1 = some x.2

/-- An update that a candidate makes of its row raises. -/
def Tables.refuses (s : Tables) (source : Source) (c : Candidate) : Bool :=
  s.rows.any fun r => c.owns source r && !s.accepts r

/-- `enqueueScheduledReports`, for one schedule -/
def enqueueScheduled (schedule id : Uuid) (now : ℤ) (s : Tables) : Option Tables := do
  let format ← s.scheduleFormat schedule
  let table ← s.insert? { newWork .workspaceExport id now with scheduled := some (schedule, format) }
  return s.withRows table

/-- `create` and `update` of a report schedule -/
def reformat (schedule : Uuid) (format : String) (s : Tables) : Tables :=
  { s with scheduleFormat := Function.update s.scheduleFormat schedule (some format) }

/-! ### Workers -/

inductive Call where
  | work (source : Source) (options : Options)
  | enqueue (source : Source) (id : Uuid)
  | enqueueScheduled (schedule id : Uuid)
  | retryDeadLetter (source : Source) (id : Uuid)
  | reformat (schedule : Uuid) (format : String)

/-- Where a call is; `rest` are the candidates that a worker has claimed and not yet settled. -/
inductive Local where
  | called (call : Call)
  | working (source : Source) (rest : List Candidate)
  | stopped

inductive Action where
  | claim (now : ℤ) (skipped : List Uuid) (token : Uuid → Uuid)
  /-- the work is done -/
  | finish (outcome : Outcome)
  /-- it has failed -/
  | release (now : ℤ)
  /-- a call that is no worker -/
  | perform (now : ℤ)
  /-- a schedule is written -/
  | reformat
  | crash

/-- The claim of a batch, and its candidates; a trigger that raises takes the whole statement back. -/
def claimNext (source : Source) (rows : List Work) (now : ℤ) (token : Uuid → Uuid) (s : Tables) :
    Tables × Local :=
  if rows.all s.accepts then
    (s.withRows (commitClaim rows now token s.toTable), .working source (candidates rows token))
  else (s, .stopped)

/-- Work that cannot be finished is given back; where that raises too, the worker drops the rest. -/
def move (a : Action) (s : Tables) (l : Local) : Option (Tables × Local) :=
  match a, l with
  | .crash, _ => some (s, .stopped)
  | .claim now skipped token, .called (.work source options) =>
    some (claimNext source (claimBatch source options now skipped s.toTable) now token s)
  | .finish outcome, .working source (c :: rest) =>
    if outcome ∈ source.table.outcomes then
      if s.refuses source c then some (s, .working source (c :: rest))
      else some (s.withRows (finishRow source c outcome s.toTable), .working source rest)
    else none
  | .release now, .working source (c :: rest) =>
    if s.refuses source c then some (s, .stopped)
    else some (s.withRows (releaseRow source c now s.toTable), .working source rest)
  | .perform now, .called (.enqueue source id) =>
    (s.insert? (newWork source id now)).map fun table => (s.withRows table, .stopped)
  | .perform now, .called (.enqueueScheduled schedule id) =>
    (enqueueScheduled schedule id now s).map fun s' => (s', .stopped)
  | .perform now, .called (.retryDeadLetter source id) =>
    if (s.find? (source, id)).all fun r => r.lease.status ≠ .dead || s.accepts r then
      (retryDeadLetter source id now s.toTable).map fun table => (s.withRows table, .stopped)
    else none
  | .reformat, .called (.reformat schedule format) => some (reformat schedule format s, .stopped)
  | _, _ => none

def program : Program Call Tables Local Unit Action where
  start := .called
  locks _ := []
  conflict _ _ := false
  move := move
  conflict_symm _ _ := rfl
  start_locks _ := rfl

end CalmBoard.Queues
