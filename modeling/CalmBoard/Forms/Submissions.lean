import CalmBoard.Lib.Lease
import CalmBoard.Lib.Sessions
import CalmBoard.Tasks.Repository

/-!
# CalmBoard.Forms.Submissions — tasks for form responses

* `claimBatch`: the responses that a run of `processFormSubmissionTasks` claims.
* `assertPayload`, `insertTask`: the task of a response.
* `move`: the runs of the worker, statement by statement.
-/

namespace CalmBoard.Forms

open Queue Sessions

/-- The statuses of a response that no claim starts from, besides `dead`. -/
inductive Closed where
  | notRequested | completed

/-- `task_creation_payload` -/
structure Payload where
  projectId : JsValue
  title : JsValue
  description : JsValue
  status : JsValue
  priority : JsValue

/-- `form_responses`; times are in milliseconds. -/
structure FormResponse where
  id : Uuid
  organizationId : Uuid
  workspaceId : Uuid
  payload : Option Payload
  creation : Lease Uuid Closed
  submittedAt : ℤ
  createdTaskId : Option Uuid := none

structure ProjectRow where
  id : Uuid
  organizationId : Uuid
  workspaceId : Uuid
  deleted : Bool := false

/-- `task_serial_sequences` -/
structure SequenceRow where
  organizationId : Uuid
  nextValue : ℕ

/-- The columns of `tasks` that the worker sets. -/
structure FormTask where
  id : Uuid
  organizationId : Uuid
  workspaceId : Uuid
  projectId : Uuid
  serial : String
  title : String
  description : String
  status : TaskStatus
  priority : TaskPriority
  order : ℤ
  tags : List String := ["form"]

/-- A task with the response its transaction worked on. -/
structure Created where
  responseId : Uuid
  task : FormTask

/-- The columns of `automation_events` that the worker sets. -/
structure EventRow where
  taskId : Uuid
  depth : ℕ := 0
  deduplicationKey : String

structure Store where
  responses : Table FormResponse FormResponse.id
  projects : List ProjectRow
  sequences : Table SequenceRow SequenceRow.organizationId
  created : List Created
  events : List EventRow

structure FormSubmissionOptions where
  batchSize : ℕ := 25
  claimTimeoutMinutes : ℤ := 15

/-- `FormTaskCreationCandidate` -/
structure Candidate where
  id : Uuid
  organizationId : Uuid
  workspaceId : Uuid
  payload : Option Payload
  attempt : ℕ
  claimToken : Uuid

/-! ### Claims -/

/-- `order by available_at, submitted_at, id` -/
def dueOrder (a b : FormResponse) : Bool :=
  decide (toLex (a.creation.availableAt, toLex (a.submittedAt, a.id)) ≤
    toLex (b.creation.availableAt, toLex (b.submittedAt, b.id)))

def FormSubmissionOptions.timeout (options : FormSubmissionOptions) : ℤ :=
  options.claimTimeoutMinutes * 60000

/-- The ids of the responses a run claims, less those it finds locked. -/
def claimBatch (options : FormSubmissionOptions) (now : ℤ) (skipped : List Uuid) (s : Store) :
    List Uuid :=
  (batch FormResponse.creation dueOrder s.responses.rows options.timeout now options.batchSize
    fun r => skipped.contains r.id).map FormResponse.id

def FormResponse.claimed (now : ℤ) (token : Uuid) (r : FormResponse) : FormResponse :=
  { r with creation := claim now token r.creation }

@[simp] theorem FormResponse.claimed_id (now : ℤ) (token : Uuid) (r : FormResponse) :
    (r.claimed now token).id = r.id := rfl

/-- The claimed rows; every row gets a token of its own. -/
def commitClaim (ids : List Uuid) (now : ℤ) (token : Uuid → Uuid) (s : Store) : Store :=
  { s with
    responses := s.responses.update (fun r => ids.contains r.id)
      (fun r => r.claimed now (token r.id)) fun r => r.claimed_id now (token r.id) }

/-- What the claim returns for a row. -/
def candidateOf (token : Uuid → Uuid) (r : FormResponse) : Candidate :=
  { id := r.id, organizationId := r.organizationId, workspaceId := r.workspaceId
    payload := r.payload, attempt := r.creation.attempts + 1, claimToken := token r.id }

def candidates (ids : List Uuid) (token : Uuid → Uuid) (s : Store) : List Candidate :=
  ids.filterMap fun id => (s.responses.find? id).map (candidateOf token)

/-! ### The task of a response -/

/-- The values of a payload that passes `assertPayload`. -/
structure TaskValues where
  title : String
  description : String
  status : TaskStatus
  priority : TaskPriority

/-- `typeof value === "string"` -/
def text? : JsValue → Option String
  | .string s => some s
  | _ => none

def assertPayload (payload : Option Payload) : Except String TaskValues :=
  match payload with
  | none => .error "Form task creation payload is missing"
  | some p => do
    if (text? p.projectId).all fun s => s = "" then throw "Form project is missing"
    let title ← match text? p.title with
      | some title =>
        if title = "" ∨ 500 < Text.utf16Length title then throw "Form task title is invalid"
        else pure title
      | none => throw "Form task title is invalid"
    let description ← match text? p.description with
      | some description =>
        if 100000 < Text.utf16Length description then throw "Form task description is invalid"
        else pure description
      | none => throw "Form task description is invalid"
    let status ← match (text? p.status).bind TaskStatus.ofLabel? with
      | some .done | some .canceled | none => throw "Form task status is invalid"
      | some status => pure status
    let priority ← match (text? p.priority).bind TaskPriority.ofLabel? with
      | some priority => pure priority
      | none => throw "Form task priority is invalid"
    return { title, description, status, priority }

/-- The row that `createTaskForResponse` locks. -/
def claimedRow (c : Candidate) (s : Store) : Option FormResponse :=
  (s.responses.find? c.id).filter fun r =>
    r.organizationId = c.organizationId && r.workspaceId = c.workspaceId &&
      owned c.claimToken r.creation

/-- The project a payload names, as `uuid` reads it; `none` is one that is not available. -/
def targetProject (uuid : String → Option Uuid) (c : Candidate) (s : Store) : Option Uuid := do
  let payload ← c.payload
  let id ← (text? payload.projectId).bind uuid
  let project ← s.projects.find? fun p => p.id = id && p.organizationId = c.organizationId &&
    p.workspaceId = c.workspaceId && !p.deleted
  return project.id

/-- The row of `task_serial_sequences` after one more number, and that number. -/
def nextSerial (organizationId : Uuid) (s : Store) : SequenceRow × ℕ :=
  match s.sequences.find? organizationId with
  | some row => ({ row with nextValue := row.nextValue + 1 }, row.nextValue)
  | none => ({ organizationId, nextValue := 1042 }, 1041)

def taskFor (c : Candidate) (values : TaskValues) (projectId id : Uuid) (serialNumber : ℕ) :
    FormTask :=
  { id, organizationId := c.organizationId, workspaceId := c.workspaceId, projectId
    serial := Tasks.formatTaskSerial serialNumber
    title := values.title, description := values.description, status := values.status
    priority := values.priority, order := serialNumber - 1041 }

def createdEvent (c : Candidate) (task : FormTask) : EventRow :=
  { taskId := task.id, deduplicationKey := s!"form-response/{c.id}/task-created" }

/-- `on conflict (deduplication_key) do nothing` -/
def insertEvent (e : EventRow) (events : List EventRow) : List EventRow :=
  if events.any fun x => x.deduplicationKey = e.deduplicationKey then events else events ++ [e]

def FormResponse.complete (taskId : Uuid) (r : FormResponse) : FormResponse :=
  { r with createdTaskId := some taskId, creation := finish .completed r.creation }

@[simp] theorem FormResponse.complete_id (taskId : Uuid) (r : FormResponse) :
    (r.complete taskId).id = r.id := rfl

/-- Everything that the transaction of a task has written. -/
def commitTask (c : Candidate) (sequence : SequenceRow) (task : FormTask) (s : Store) : Store :=
  { s with
    sequences := s.sequences.upsert sequence
    created := s.created ++ [{ responseId := c.id, task }]
    events := insertEvent (createdEvent c task) s.events
    responses := s.responses.update (fun r => r.id = c.id && owned c.claimToken r.creation)
      (FormResponse.complete task.id) (FormResponse.complete_id task.id) }

def backoffSeconds (attempt : ℕ) : ℤ := min 3600 (5 * 2 ^ (attempt - 1))

def FormResponse.released (now : ℤ) (c : Candidate) (r : FormResponse) : FormResponse :=
  { r with creation := release now (backoffSeconds c.attempt * 1000) r.creation }

@[simp] theorem FormResponse.released_id (now : ℤ) (c : Candidate) (r : FormResponse) :
    (r.released now c).id = r.id := rfl

def commitRelease (c : Candidate) (now : ℤ) (s : Store) : Store :=
  { s with
    responses := s.responses.update (fun r => r.id = c.id && owned c.claimToken r.creation)
      (FormResponse.released now c) (FormResponse.released_id now c) }

/-! ### Runs of the worker -/

/-- Where a run is; `rest` are the candidates it still has to work on. -/
inductive Local where
  | start (options : FormSubmissionOptions)
  /-- the statement that claims has locked its rows -/
  | claiming (ids : List Uuid) (now : ℤ) (token : Uuid → Uuid)
  | working (rest : List Candidate)
  /-- the row of the candidate is locked and still claimed -/
  | locked (c : Candidate) (values : TaskValues) (rest : List Candidate)
  /-- its project is available -/
  | available (c : Candidate) (values : TaskValues) (projectId : Uuid) (rest : List Candidate)
  /-- the sequence of its organization is locked too -/
  | numbered (c : Candidate) (values : TaskValues) (projectId : Uuid) (sequence : SequenceRow)
    (serialNumber : ℕ) (rest : List Candidate)
  /-- every statement of the transaction has run -/
  | written (c : Candidate) (sequence : SequenceRow) (task : FormTask) (rest : List Candidate)
  /-- an error has been caught -/
  | failed (c : Candidate) (rest : List Candidate)
  /-- the row that is given back is locked -/
  | releasing (c : Candidate) (now : ℤ) (rest : List Candidate)
  | stopped

inductive Lock where
  | response (id : Uuid)
  | sequence (organizationId : Uuid)
  deriving DecidableEq

def Local.locks : Local → List Lock
  | .claiming ids _ _ => ids.map .response
  | .locked c _ _ | .available c _ _ _ | .releasing c _ _ => [.response c.id]
  | .numbered c .. | .written c .. => [.response c.id, .sequence c.organizationId]
  | _ => []

/-- The next statement, with what it takes from outside; an error of a statement; a crash. -/
inductive Action where
  | claim (now : ℤ) (skipped : List Uuid) (token : Uuid → Uuid)
  | next (now : ℤ) (id : Uuid)
  | fail
  | crash

/-- `assertPayload`, `begin`, and the statement that locks the response. -/
def lockResponse (c : Candidate) (rest : List Candidate) (s : Store) : Local :=
  match assertPayload c.payload with
  | .error _ => .failed c rest
  | .ok values =>
    match claimedRow c s with
    | none => .working rest
    | some r => if r.createdTaskId.isSome then .failed c rest else .locked c values rest

/-- The next statement of a run that has claimed its candidates. -/
def proceed (uuid : String → Option Uuid) (now : ℤ) (id : Uuid) (s : Store) :
    Local → Option (Store × Local)
  | .claiming ids now token =>
    some (commitClaim ids now token s, .working (candidates ids token s))
  | .working [] => some (s, .stopped)
  | .working (c :: rest) => some (s, lockResponse c rest s)
  | .locked c values rest =>
    match targetProject uuid c s with
    | none => some (s, .failed c rest)
    | some projectId => some (s, .available c values projectId rest)
  | .available c values projectId rest =>
    let (sequence, serialNumber) := nextSerial c.organizationId s
    some (s, .numbered c values projectId sequence serialNumber rest)
  | .numbered c values projectId sequence serialNumber rest =>
    some (s, .written c sequence (taskFor c values projectId id serialNumber) rest)
  | .written c sequence task rest => some (commitTask c sequence task s, .working rest)
  | .failed c rest =>
    match (s.responses.find? c.id).filter fun r => owned c.claimToken r.creation with
    | none => some (s, .working rest)
    | some _ => some (s, .releasing c now rest)
  | .releasing c now rest => some (commitRelease c now s, .working rest)
  | .start _ | .stopped => none

/-- An error of the statement: the run ends, or it gives its candidate back. -/
def fail : Local → Local
  | .locked c _ rest | .available c _ _ rest | .numbered c _ _ _ _ rest | .written c _ _ rest
  | .working (c :: rest) => .failed c rest
  | _ => .stopped

def move (uuid : String → Option Uuid) (a : Action) (s : Store) (l : Local) :
    Option (Store × Local) :=
  match a, l with
  | _, .stopped => none
  | .crash, _ => some (s, .stopped)
  | .fail, l => some (s, fail l)
  | .claim now skipped token, .start options =>
    some (s, .claiming (claimBatch options now skipped s) now token)
  | .next now id, l => proceed uuid now id s l
  | _, _ => none

def program (uuid : String → Option Uuid) :
    Program FormSubmissionOptions Store Local Lock Action where
  start := .start
  locks := Local.locks
  conflict k k' := k = k'
  move := move uuid
  conflict_symm k k' := by simp [eq_comm]
  start_locks _ := rfl

end CalmBoard.Forms
