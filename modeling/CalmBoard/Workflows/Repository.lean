import CalmBoard.System
import CalmBoard.Lib.Update

/-!
# CalmBoard.Workflows.Repository — checklists and approvals of tasks

The repository of the task workflows and the triggers of its four tables, next to the tables of the
workspace.

* `validateRequest`, `validateTaskApprovalReviewer`, …: the triggers before a row is written.
* `syncTaskApprovalStatus`, `closeTaskWorkflowChildren`: the triggers after it, which run statements
  of their own; `run` is a statement with everything it triggers.
* `closeDeletedTaskWorkflows`: what the deletion of a task closes.
* `Request`, `step`: the calls that write.
-/

namespace CalmBoard.Workflows

open Text

inductive ApprovalMode where
  | all | any | sequential
  deriving DecidableEq

inductive ReviewerStatus where
  | pending | approved | rejected | skipped
  deriving DecidableEq

inductive ApprovalStatus where
  | pending | approved | rejected | canceled
  deriving DecidableEq

/-- `task_approval_requests` -/
structure ApprovalRequestRow where
  id : Uuid
  projectId : Uuid
  taskId : Uuid
  requestedBy : Uuid
  mode : ApprovalMode := .all
  status : ApprovalStatus := .pending
  message : Option String := none
  dueAt : Option Timestamptz := none
  resolvedAt : Option Timestamptz := none
  createdAt : Timestamptz
  updatedAt : Timestamptz
  deletedAt : Option Timestamptz := none

/-- `task_approval_reviewers` -/
structure ReviewerRow where
  id : Uuid
  projectId : Uuid
  taskId : Uuid
  approvalRequestId : Uuid
  reviewerId : Uuid
  sequence : ℕ
  status : ReviewerStatus := .pending
  comment : Option String := none
  decidedAt : Option Timestamptz := none
  createdAt : Timestamptz
  updatedAt : Timestamptz
  deletedAt : Option Timestamptz := none

/-- `task_checklists` -/
structure ChecklistRow where
  id : Uuid
  projectId : Uuid
  taskId : Uuid
  title : String
  order : Number
  createdBy : Option Uuid
  createdAt : Timestamptz
  updatedAt : Timestamptz
  deletedAt : Option Timestamptz := none

/-- `task_checklist_items` -/
structure ChecklistItemRow where
  id : Uuid
  projectId : Uuid
  taskId : Uuid
  checklistId : Uuid
  title : String
  order : Number
  isCompleted : Bool
  completedBy : Option Uuid
  completedAt : Option Timestamptz
  createdBy : Option Uuid
  createdAt : Timestamptz
  updatedAt : Timestamptz
  deletedAt : Option Timestamptz := none

/-- The tables of the workspace and of its workflows. -/
structure Store where
  db : Db
  requests : Table ApprovalRequestRow ApprovalRequestRow.id
  reviewers : Table ReviewerRow ReviewerRow.id
  checklists : Table ChecklistRow ChecklistRow.id
  items : Table ChecklistItemRow ChecklistItemRow.id

def requestsPlace : Place Store ApprovalRequestRow.id where
  get s := s.requests
  set T s := { s with requests := T }
  get_set _ _ := rfl
  set_set _ _ _ := rfl
  set_get _ := rfl

def reviewersPlace : Place Store ReviewerRow.id where
  get s := s.reviewers
  set T s := { s with reviewers := T }
  get_set _ _ := rfl
  set_set _ _ _ := rfl
  set_get _ := rfl

def checklistsPlace : Place Store ChecklistRow.id where
  get s := s.checklists
  set T s := { s with checklists := T }
  get_set _ _ := rfl
  set_set _ _ _ := rfl
  set_get _ := rfl

def itemsPlace : Place Store ChecklistItemRow.id where
  get s := s.items
  set T s := { s with items := T }
  get_set _ _ := rfl
  set_set _ _ _ := rfl
  set_get _ := rfl

/-! ### Triggers before a row is written -/

/-- `tenant_user_is_active_member` -/
def Store.activeMember (s : Store) (userId : Uuid) : Bool := userId ∈ s.db.members

/-- `validate_task_workflow_scope` up to the part on requesters; `live` says that the row is one an
active task must have. -/
def validateTaskWorkflowScope (s : Store) (taskId projectId : Uuid) (live : Bool) :
    Except RepoError Unit :=
  match s.db.tasks.find? taskId with
  | none =>
    throw (.database "Task workflow does not belong to the task tenant and project scope")
  | some task =>
    if task.projectId ≠ projectId then
      throw (.database "Task workflow does not belong to the task tenant and project scope")
    else if task.deletedAt.isSome ∧ live then
      throw (.database "Active task workflows cannot reference deleted tasks")
    else .ok ()

/-- `task_checklists_validate_scope` -/
def validateChecklist (s : Store) (new : ChecklistRow) : Except RepoError Unit :=
  validateTaskWorkflowScope s new.taskId new.projectId new.deletedAt.isNone

/-- `task_approval_requests_resolution_check` -/
def resolutionCheck (new : ApprovalRequestRow) : Except RepoError Unit :=
  if new.status = .pending ↔ new.resolvedAt = none then .ok ()
  else throw (.database "task_approval_requests_resolution_check")

/-- `task_approval_requests_validate_scope` and the constraint. -/
def validateRequest (s : Store) (new : ApprovalRequestRow) : Except RepoError Unit := do
  validateTaskWorkflowScope s new.taskId new.projectId
    (new.deletedAt.isNone && new.status = .pending)
  if !s.activeMember new.requestedBy then
    throw (.database "Task approval requester is not an active tenant member")
  resolutionCheck new

/-- `task_checklist_items_completion_check` -/
def completionCheck (new : ChecklistItemRow) : Except RepoError Unit :=
  if new.isCompleted then
    if new.completedAt.isSome then .ok ()
    else throw (.database "task_checklist_items_completion_check")
  else if new.completedAt = none ∧ new.completedBy = none then .ok ()
  else throw (.database "task_checklist_items_completion_check")

/-- `validate_task_checklist_item` and the constraint. -/
def validateTaskChecklistItem (s : Store) (new : ChecklistItemRow) : Except RepoError Unit :=
  match s.checklists.find? new.checklistId with
  | none => throw (.database "Checklist item does not belong to its checklist scope")
  | some parent => do
    if parent.projectId ≠ new.projectId ∨ parent.taskId ≠ new.taskId then
      throw (.database "Checklist item does not belong to its checklist scope")
    if new.deletedAt.isNone ∧ parent.deletedAt.isSome then
      throw (.database "Active checklist items cannot reference deleted checklists")
    if new.completedBy.any fun userId => !s.activeMember userId then
      throw (.database "Checklist completer is not an active tenant member")
    completionCheck new

def ReviewerStatus.decided (status : ReviewerStatus) : Bool := status = .approved ∨ status = .rejected

/-- `task_approval_reviewers_decision_check` -/
def decisionCheck (new : ReviewerRow) : Except RepoError Unit :=
  if new.status = .pending ↔ new.decidedAt = none then .ok ()
  else throw (.database "task_approval_reviewers_decision_check")

/-- A reviewer whose decision is open. -/
def ReviewerRow.open (v : ReviewerRow) : Bool := v.status = .pending && v.deletedAt.isNone

/-- The part of `validate_task_approval_reviewer` on a status that changes. -/
def validateStatusChange (s : Store) (approval : ApprovalRequestRow) (old new : ReviewerRow) :
    Except RepoError Unit :=
  if old.status ≠ new.status then
    if old.status ≠ .pending then throw (.database "Task approval decisions are immutable")
    else if new.status.decided ∧ approval.status ≠ .pending then
      throw (.database "Task approval request is already resolved")
    else if new.status.decided ∧ approval.mode = .sequential ∧
        (s.reviewers.rows.any fun earlier =>
          earlier.approvalRequestId = new.approvalRequestId && earlier.sequence < new.sequence &&
            earlier.open) then
      throw (.database "Task approval reviewers must decide in sequence")
    else .ok ()
  else .ok ()

/-- `validate_task_approval_reviewer` and the constraint; `old` is the row an update changes. -/
def validateTaskApprovalReviewer (s : Store) (old : Option ReviewerRow) (new : ReviewerRow) :
    Except RepoError Unit :=
  match s.requests.find? new.approvalRequestId with
  | none => throw (.database "Task approval reviewer does not belong to its request scope")
  | some approval => do
    if approval.projectId ≠ new.projectId ∨ approval.taskId ≠ new.taskId then
      throw (.database "Task approval reviewer does not belong to its request scope")
    if new.deletedAt.isNone ∧ approval.deletedAt.isSome then
      throw (.database "Active approval reviewers cannot reference deleted requests")
    if !s.activeMember new.reviewerId then
      throw (.database "Task approval reviewer is not an active tenant member")
    match old with
    | none => decisionCheck new
    | some old => do
      validateStatusChange s approval old new
      decisionCheck new

/-! ### Statements and the triggers after them -/

/-- The columns an `UPDATE` of requests sets. -/
structure RequestChange where
  status : Option ApprovalStatus := none
  resolvedAt : Option (Option Timestamptz) := none
  deletedAt : Option (Option Timestamptz) := none
  updatedAt : Timestamptz

def ApprovalRequestRow.set (q : ApprovalRequestRow) (change : RequestChange) : ApprovalRequestRow :=
  { q with
    status := change.status.getD q.status
    resolvedAt := change.resolvedAt.getD q.resolvedAt
    deletedAt := change.deletedAt.getD q.deletedAt
    updatedAt := change.updatedAt }

/-- The columns an `UPDATE` of reviewers sets. -/
structure ReviewerChange where
  status : Option ReviewerStatus := none
  comment : Option (Option String) := none
  decidedAt : Option (Option Timestamptz) := none
  deletedAt : Option (Option Timestamptz) := none
  updatedAt : Timestamptz

def ReviewerRow.set (v : ReviewerRow) (change : ReviewerChange) : ReviewerRow :=
  { v with
    status := change.status.getD v.status
    comment := change.comment.getD v.comment
    decidedAt := change.decidedAt.getD v.decidedAt
    deletedAt := change.deletedAt.getD v.deletedAt
    updatedAt := change.updatedAt }

/-- An `UPDATE` of one of the two approval tables. -/
inductive Statement where
  | requests (selects : ApprovalRequestRow → Bool) (change : RequestChange)
  | reviewers (selects : ReviewerRow → Bool) (change : ReviewerChange)

/-- The rows a statement on reviewers selects: the open ones of a request. -/
def openOf (approvalRequestId : Uuid) (v : ReviewerRow) : Bool :=
  v.approvalRequestId = approvalRequestId && v.open

def finalStatus (s : Store) (approval : ApprovalRequestRow) (new : ReviewerRow) :
    Option ApprovalStatus :=
  if new.status = .rejected then some .rejected
  else if approval.mode = .any then some .approved
  else if s.reviewers.rows.any (openOf new.approvalRequestId) then none
  else some .approved

/-- `sync_task_approval_status`; `exec` runs its statements. -/
def syncTaskApprovalStatus (exec : Statement → Store → Except RepoError Store) (s : Store)
    (old new : ReviewerRow) : Except RepoError Store :=
  if old.status = .pending ∧ new.status.decided then
    match s.requests.find? new.approvalRequestId with
    | none => .ok s
    | some approval =>
      if approval.status = .pending then
        match finalStatus s approval new with
        | none => .ok s
        | some status => do
          let s ← exec (.requests (fun q => q.id = new.approvalRequestId)
            { status := some status, resolvedAt := some (some s.db.now), updatedAt := s.db.now }) s
          exec (.reviewers (fun v => openOf new.approvalRequestId v && v.id ≠ new.id)
            { status := some .skipped, decidedAt := some (some s.db.now), updatedAt := s.db.now }) s
      else .ok s
  else .ok s

/-- `close_task_workflow_children` for a request. -/
def closeTaskWorkflowChildren (exec : Statement → Store → Except RepoError Store) (s : Store)
    (old new : ApprovalRequestRow) : Except RepoError Store :=
  if old.status = .pending ∧ new.status = .canceled then
    exec (.reviewers (openOf new.id)
      { status := some .skipped, decidedAt := some new.resolvedAt, updatedAt := new.updatedAt }) s
  else .ok s

/-- A statement with the statements its triggers run, nested as deep as the stack allows.  The
triggers after a row belong to updates that set its status; the partial unique indexes are left out,
since no update brings a row under one of them. -/
def run : ℕ → Statement → Store → Except RepoError Store
  | 0, _, _ => throw (.database "stack depth limit exceeded")
  | depth + 1, .requests selects change, s => do
    let changed := s.requests.rows.filter selects
    let s ← updateRows requestsPlace (fun s _ new => validateRequest s new) selects
      (fun q => q.set change) s
    if change.status.isSome then
      changed.foldlM (fun s q =>
        closeTaskWorkflowChildren (fun statement s => run depth statement s) s q (q.set change)) s
    else .ok s
  | depth + 1, .reviewers selects change, s => do
    let changed := s.reviewers.rows.filter selects
    let s ← updateRows reviewersPlace
      (fun s old new => validateTaskApprovalReviewer s (some old) new) selects
      (fun v => v.set change) s
    if change.status.isSome then
      changed.foldlM (fun s v =>
        syncTaskApprovalStatus (fun statement s => run depth statement s) s v (v.set change)) s
    else .ok s

def maxStackDepth : ℕ := 100

def execute (statement : Statement) (s : Store) : Except RepoError Store :=
  run maxStackDepth statement s

/-- The deletion of the checklists that `selects`, with their items. -/
def deleteChecklists (selects : ChecklistRow → Bool) (deletedAt : Timestamptz) (s : Store) :
    Except RepoError Store := do
  let changed := s.checklists.rows.filter fun c => selects c && c.deletedAt.isNone
  let s ← updateRows checklistsPlace (fun s _ new => validateChecklist s new)
    (fun c => selects c && c.deletedAt.isNone)
    (fun c => { c with deletedAt := some deletedAt, updatedAt := deletedAt }) s
  changed.foldlM (fun s c =>
    updateRows itemsPlace (fun s _ new => validateTaskChecklistItem s new)
      (fun i => i.checklistId = c.id && i.deletedAt.isNone)
      (fun i => { i with deletedAt := some deletedAt, updatedAt := deletedAt }) s) s

/-! ### The deletion of a task -/

/-- `close_deleted_task_workflows` for a task that has just been deleted. -/
def closeDeletedTaskWorkflows (taskId : Uuid) (deletedAt : Timestamptz) (s : Store) :
    Except RepoError Store := do
  let s ← deleteChecklists (fun c => c.taskId = taskId) deletedAt s
  let s ← execute (.requests (fun q => q.taskId = taskId && q.status = .pending &&
      q.deletedAt.isNone)
    { status := some .canceled, resolvedAt := some (some deletedAt), updatedAt := deletedAt }) s
  let s ← execute (.reviewers (fun v => v.taskId = taskId && v.deletedAt.isNone)
    { deletedAt := some (some deletedAt), updatedAt := deletedAt }) s
  execute (.requests (fun q => q.taskId = taskId && q.deletedAt.isNone)
    { deletedAt := some (some deletedAt), updatedAt := deletedAt }) s

/-- The active tasks directly below a task. -/
def Store.subtasks (s : Store) (taskId : Uuid) : List TaskRow :=
  s.db.tasks.rows.filter fun t => t.active && t.parentId = some taskId && t.id ≠ taskId

/-- `softDelete` with the trigger on the rows it deletes: the task, then its children. -/
def softDelete (s : Store) (taskId : Uuid) : Except RepoError Store := do
  let db ← Tasks.softDelete s.db taskId
  let subtasks := s.subtasks taskId
  let s ← closeDeletedTaskWorkflows taskId s.db.newDate { s with db }
  subtasks.foldlM (fun s t => closeDeletedTaskWorkflows t.id s.db.newDate s) s

/-! ### The repository -/

def requireTask (s : Store) (taskId : Uuid) : Except RepoError TaskRow :=
  match s.db.tasks.find? taskId with
  | some task => if task.active then .ok task else throw (.notFound "task")
  | none => throw (.notFound "task")

/-- `gen_random_uuid()` -/
def Store.newId (s : Store) : Uuid := s.db.uuids s.db.uuidCount

/-- The store after `newId`. -/
def Store.drawn (s : Store) : Store := { s with db.uuidCount := s.db.uuidCount + 1 }

def uniqueViolation : RepoError := .database "duplicate key value violates unique constraint"

/-- Add a row to a table. -/
def insertRow {ρ : Type} {key : ρ → Uuid} (place : Place Store key) (row : ρ) (s : Store) :
    Except RepoError Store :=
  match (place.get s).insert? row with
  | some T => .ok (place.set T s)
  | none => throw uniqueViolation

structure TaskChecklistItemInput where
  title : String
  order : Option Number := none
  isCompleted : Option Bool := none

structure TaskChecklistInput where
  title : String
  order : Option Number := none
  items : List TaskChecklistItemInput := []

def validateTitle (maximum : ℕ) (message title : String) : Except RepoError Unit :=
  if trim title = "" ∨ utf16Length (trim title) > maximum then throw (.conflict message)
  else .ok ()

def validateChecklists (inputs : List TaskChecklistInput) : Except RepoError Unit := do
  if inputs.length > 20 then throw (.conflict "A task cannot contain more than 20 checklists")
  inputs.forM fun checklist => do
    validateTitle 255 "Task checklist title is invalid" checklist.title
    checklist.items.forM fun item =>
      validateTitle 500 "Task checklist item title is invalid" item.title
  if (inputs.map fun checklist => checklist.items.length).sum > 200 then
    throw (.conflict "A task cannot contain more than 200 checklist items")

/-- A value of `values(…)`, checked and added. -/
def insertChecklist (row : ChecklistRow) (s : Store) : Except RepoError Store := do
  validateChecklist s row
  insertRow checklistsPlace row s.drawn

def insertItem (row : ChecklistItemRow) (s : Store) : Except RepoError Store := do
  validateTaskChecklistItem s row
  insertRow itemsPlace row s.drawn

/-- The new checklists of a task, one after the other. -/
def insertChecklists (task : TaskRow) (actorId : Option Uuid) (now : Timestamptz)
    (inputs : List TaskChecklistInput) (s : Store) : Except RepoError Store :=
  inputs.zipIdx.foldlM (fun s (input, checklistIndex) => do
    let checklistId := s.newId
    let s ← insertChecklist
      { id := checklistId, projectId := task.projectId, taskId := task.id
        title := trim input.title, order := input.order.getD (.fin checklistIndex)
        createdBy := actorId, createdAt := s.db.now, updatedAt := s.db.now } s
    input.items.zipIdx.foldlM (fun s (item, itemIndex) =>
      let isCompleted := item.isCompleted.getD false
      insertItem
        { id := s.newId, projectId := task.projectId, taskId := task.id, checklistId
          title := trim item.title, order := item.order.getD (.fin itemIndex), isCompleted
          completedBy := if isCompleted then actorId else none
          completedAt := if isCompleted then some now else none
          createdBy := actorId, createdAt := s.db.now, updatedAt := s.db.now } s) s) s

def replaceChecklists (s : Store) (actorId : Option Uuid) (taskId : Uuid)
    (inputs : List TaskChecklistInput) : Except RepoError Store := do
  let task ← requireTask s taskId
  validateChecklists inputs
  let now := s.db.newDate
  let s ← deleteChecklists (fun c => c.taskId = taskId) now s
  insertChecklists task actorId now inputs s

def setChecklistItemCompletion (s : Store) (actorId : Option Uuid) (itemId : Uuid)
    (isCompleted : Bool) : Except RepoError Store :=
  match s.items.find? itemId with
  | none => throw (.notFound "checklist item")
  | some item =>
    if item.deletedAt.isNone then
      updateRows itemsPlace (fun s _ new => validateTaskChecklistItem s new)
        (fun i => i.id = itemId)
        (fun i => { i with
          isCompleted
          completedBy := if isCompleted then actorId else none
          completedAt := if isCompleted then some s.db.newDate else none
          updatedAt := s.db.newDate }) s
    else throw (.notFound "checklist item")

structure CreateTaskApprovalInput where
  taskId : Uuid
  reviewerIds : List Uuid
  mode : Option ApprovalMode := none
  message : Option String := none
  dueAt : Option Timestamptz := none

/-- `text?.trim() || null` -/
def trimmedOrNull (text : Option String) : Option String :=
  (text.map trim).filter fun t => t ≠ ""

def requireActiveMembers (s : Store) (userIds : List Uuid) : Except RepoError (List Uuid) :=
  let uniqueIds := userIds.reverse.dedup.reverse
  if uniqueIds.all s.activeMember then .ok uniqueIds else throw (.notFound "approval reviewer")

/-- `task_approval_requests_task_pending_unique` -/
def insertRequest (row : ApprovalRequestRow) (s : Store) : Except RepoError Store := do
  validateRequest s row
  if s.requests.rows.any fun q =>
      q.taskId = row.taskId && q.status = .pending && q.deletedAt.isNone then
    throw uniqueViolation
  insertRow requestsPlace row s.drawn

/-- `task_approval_reviewers_request_user_active_unique` and `…_request_sequence_active_unique` -/
def insertReviewer (row : ReviewerRow) (s : Store) : Except RepoError Store := do
  validateTaskApprovalReviewer s none row
  if s.reviewers.rows.any fun v =>
      v.approvalRequestId = row.approvalRequestId && v.deletedAt.isNone &&
        (v.reviewerId = row.reviewerId || v.sequence = row.sequence) then
    throw uniqueViolation
  insertRow reviewersPlace row s.drawn

/-- The rows of a new request. -/
def insertApproval (task : TaskRow) (actorId : Uuid) (input : CreateTaskApprovalInput)
    (reviewerIds : List Uuid) (s : Store) : Except RepoError Store := do
  let requestId := s.newId
  let s ← insertRequest
    { id := requestId, projectId := task.projectId, taskId := input.taskId, requestedBy := actorId
      mode := input.mode.getD .all, message := trimmedOrNull input.message, dueAt := input.dueAt
      createdAt := s.db.now, updatedAt := s.db.now } s
  reviewerIds.zipIdx.foldlM (fun s (reviewerId, sequence) =>
    insertReviewer
      { id := s.newId, projectId := task.projectId, taskId := input.taskId
        approvalRequestId := requestId, reviewerId, sequence
        createdAt := s.db.now, updatedAt := s.db.now } s) s

def requestApproval (s : Store) (actorId : Option Uuid) (input : CreateTaskApprovalInput) :
    Except RepoError Store :=
  match actorId with
  | none => throw (.denied "An actor is required to request task approval")
  | some actorId => do
    if input.reviewerIds = [] ∨ input.reviewerIds.length > 20 then
      throw (.conflict "Task approval requires between 1 and 20 reviewers")
    let task ← requireTask s input.taskId
    let _ ← requireActiveMembers s [actorId]
    let reviewerIds ← requireActiveMembers s input.reviewerIds
    (insertApproval task actorId input reviewerIds s).mapError fun e =>
      if e = uniqueViolation then .conflict "Task already has a pending approval request" else e

inductive TaskApprovalDecision where
  | approved | rejected
  deriving DecidableEq

def TaskApprovalDecision.status : TaskApprovalDecision → ReviewerStatus
  | .approved => .approved
  | .rejected => .rejected

/-- The conditions of the query for the review of a user in a pending request. -/
def Store.selectsReview (s : Store) (approvalRequestId actorId : Uuid) (v : ReviewerRow) : Bool :=
  openOf approvalRequestId v && v.reviewerId = actorId &&
    (s.requests.find? approvalRequestId).any fun q => q.status = .pending && q.deletedAt.isNone

def Store.pendingReview? (s : Store) (approvalRequestId actorId : Uuid) : Option ReviewerRow :=
  s.reviewers.rows.find? (s.selectsReview approvalRequestId actorId)

/-- `message?.startsWith("Task approval")` -/
def approvalError : RepoError → RepoError
  | .database message =>
    if "Task approval".toList.isPrefixOf message.toList then .conflict message
    else .database message
  | e => e

def decideApproval (s : Store) (actorId : Option Uuid) (approvalRequestId : Uuid)
    (decision : TaskApprovalDecision) (comment : Option String) : Except RepoError Store :=
  match actorId with
  | none => throw (.denied "An actor is required to decide task approval")
  | some actorId =>
    match s.pendingReview? approvalRequestId actorId with
    | none => throw (.notFound "pending approval review")
    | some reviewer =>
      (execute (.reviewers (fun v => v.id = reviewer.id)
        { status := some decision.status, comment := some (trimmedOrNull comment)
          decidedAt := some (some s.db.newDate), updatedAt := s.db.newDate }) s).mapError approvalError

def cancelApproval (s : Store) (actorId : Option Uuid) (approvalRequestId : Uuid) :
    Except RepoError Store :=
  match actorId with
  | none => throw (.denied "An actor is required to cancel task approval")
  | some actorId =>
    let selects : ApprovalRequestRow → Bool := fun q =>
      q.id = approvalRequestId && q.requestedBy = actorId && q.status = .pending &&
        q.deletedAt.isNone
    if s.requests.rows.any selects then
      execute (.requests selects
        { status := some .canceled, resolvedAt := some (some s.db.newDate)
          updatedAt := s.db.newDate }) s
    else throw (.notFound "pending approval request")

/-! ### Requests -/

inductive Request where
  /-- a call of the task or sprint repository -/
  | workspace (request : CalmBoard.Request)
  /-- memberships change -/
  | setMembers (members : List Uuid)
  | replaceChecklists (actorId : Option Uuid) (taskId : Uuid) (inputs : List TaskChecklistInput)
  | setChecklistItemCompletion (actorId : Option Uuid) (itemId : Uuid) (isCompleted : Bool)
  | requestApproval (actorId : Option Uuid) (input : CreateTaskApprovalInput)
  | decideApproval (actorId : Option Uuid) (approvalRequestId : Uuid)
      (decision : TaskApprovalDecision) (comment : Option String)
  | cancelApproval (actorId : Option Uuid) (approvalRequestId : Uuid)

def step (rt : Runtime) (request : Request) (s : Store) : Except RepoError Store :=
  match request with
  | .workspace (.softDeleteTask taskId) => softDelete s taskId
  | .workspace request => do
    let db ← CalmBoard.step rt request s.db
    return { s with db }
  | .setMembers members => .ok { s with db.members := members }
  | .replaceChecklists actorId taskId inputs => replaceChecklists s actorId taskId inputs
  | .setChecklistItemCompletion actorId itemId isCompleted =>
    setChecklistItemCompletion s actorId itemId isCompleted
  | .requestApproval actorId input => requestApproval s actorId input
  | .decideApproval actorId approvalRequestId decision comment =>
    decideApproval s actorId approvalRequestId decision comment
  | .cancelApproval actorId approvalRequestId => cancelApproval s actorId approvalRequestId

def initial (setup : Setup) : Store where
  db := CalmBoard.initial setup
  requests := .empty
  reviewers := .empty
  checklists := .empty
  items := .empty

/-- A workspace after a sequence of requests. -/
def after (rt : Runtime) (setup : Setup) (requests : List Request) : Store :=
  Runs.run (step rt) (initial setup) requests

end CalmBoard.Workflows
