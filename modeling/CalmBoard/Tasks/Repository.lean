import CalmBoard.Tasks.Rows
import CalmBoard.Sprints.Repository

/-!
# CalmBoard.Tasks.Repository — creating, updating, moving and deleting tasks

The writing half of the task repository.  Each operation is a function of the database that fails or
returns the database after its transaction.

* `create`: a new task with its people, reminders, recurrence and dependencies.
* `update`: `taskUpdates` is the raw input with some resolved state fields laid over it, and
  `updateColumns` the row that comes out.
* `move`: a drag on the project board, by anchors or by index.
* `softDelete`: a task and its direct children.
-/

namespace CalmBoard.Tasks

open Text

/-! ### Inputs -/

structure TaskMetadata where
  dependencies : Option (List Deps.DependencyItem) := none
  reminders : Option (List TaskReminder) := none

structure CreateTaskInput extends TaskStateInput, TaskAssignmentInput where
  projectId : Uuid
  title : String
  sectionId : Option Uuid := none
  parentId : Option Uuid := none
  description : Option String := none
  followerIds : List Uuid := []
  reporterId : Option Uuid := none
  order : Option Number := none
  tags : Option (List String) := none
  customFields : Option JsObject := none
  estimatedHours : Option Number := none
  loggedHours : Option Number := none
  storyPoints : Option Number := none
  delayReason : Option String := none
  reminders : List TaskReminder := []
  dependencies : Option (List Deps.DependencyItem) := none
  metadata : Option TaskMetadata := none

/-- `none` is `undefined`, `some none` is `null`. -/
structure UpdateTaskInput extends TaskStateInput, TaskAssignmentInput where
  title : Option String := none
  description : Option (Option String) := none
  sectionId : Option (Option Uuid) := none
  parentId : Option (Option Uuid) := none
  reporterId : Option (Option Uuid) := none
  estimatedHours : Option (Option Number) := none
  loggedHours : Option Number := none
  order : Option Number := none
  tags : Option (Option (List String)) := none
  customFields : Option (Option JsObject) := none
  storyPoints : Option (Option Number) := none
  delayReason : Option (Option String) := none
  expectedVersion : Option Number := none
  followerIds : Option (List Uuid) := none
  dependencies : Option (List Deps.DependencyItem) := none
  metadata : Option TaskMetadata := none

/-- An anchor is `none` where it is `undefined`, `some none` where it is `null`. -/
structure MoveTaskInput where
  status : TaskStatus
  targetIndex : Number
  beforeTaskId : Option (Option Uuid) := none
  afterTaskId : Option (Option Uuid) := none
  expectedVersion : Number

/-! ### Create -/

section Create

variable (rt : Runtime) (db : Db)

/-- The new parent is an active task of the project, and its ancestors. -/
def requireParent (projectId parentId : Uuid) : Except RepoError (List Uuid) := do
  let parent ← getById db parentId
  if parent.row.projectId ≠ projectId then throw (.notFound "parent task")
  parentChain db (some parentId)

def nestingError : RepoError := .conflict s!"Task nesting cannot exceed {maxSubtaskDepth} levels"

def CreateTaskInput.rawDependencies (input : CreateTaskInput) : Option (List Deps.DependencyItem) :=
  input.dependencies.or (input.metadata.bind TaskMetadata.dependencies)

def checkCreateParent (projectId : Uuid) : Option Uuid → Except RepoError Unit
  | none => .ok ()
  | some parentId => do
    let ancestors ← requireParent db projectId parentId
    if ancestors.length > maxSubtaskDepth then throw nestingError

def checkSection (projectId : Uuid) : Option Uuid → Except RepoError Unit
  | none => .ok ()
  | some sectionId => requireSection db projectId sectionId

/-- The dependencies an input asks for; an absent list stands for none. -/
def createdDependencies : Option (List Deps.DependencyItem) →
    Except RepoError (List Deps.DependencyLink)
  | none => .ok []
  | some items => Deps.validateTaskDependenciesInput db.tasks none items

def validateCreateInput (input : CreateTaskInput) : Except RepoError Unit := do
  if !db.projects.any fun p => p.id = input.projectId then throw (.notFound "project")
  checkCreateParent db input.projectId input.parentId
  checkSection db input.projectId input.sectionId
  let _ ← resolveCustomFields db rt input.projectId input.customFields true []
  let _ ← resolveTaskStateCreation rt (.time db.now.millis) input.toTaskStateInput
  let assignment ← resolveTaskAssignmentCreation input.toTaskAssignmentInput
  requireActiveMembers db (assignment.assigneeIds ++ input.followerIds ++ input.reporterId.toList)
  let _ ← createdDependencies db input.rawDependencies
  return ()

def firstTaskSerialNumber : ℕ := 1041

def formatTaskSerial (n : ℕ) : String := s!"TASK-{n}"

/-- The values of the inserted row. -/
def createRow (input : CreateTaskInput) (customFields : JsObject) (state : CanonicalTaskState)
    (lead : Option Uuid) : Except RepoError TaskRow := do
  let title ← varcharColumn 500 input.title
  let serial ← varcharColumn 20 (formatTaskSerial db.serialNext)
  let startDate ← state.startDate.mapM timestamp
  let dueDate ← state.dueDate.mapM timestamp
  let timezone ← varcharColumn 100 state.timezone
  let progress ← int4 state.progress
  let storyPoints ← input.storyPoints.mapM int4
  let row : TaskRow :=
    { id := db.uuids db.uuidCount
      projectId := input.projectId
      sectionId := input.sectionId
      parentId := input.parentId
      title
      description := some (input.description.getD "")
      status := state.status
      priority := state.priority
      assigneeId := lead
      reporterId := input.reporterId
      serial
      order := input.order.getD (.fin (db.serialNext - firstTaskSerialNumber))
      tags := some (input.tags.getD [])
      customFields := some customFields.toJsonb
      estimatedHours := some (input.estimatedHours.getD (.fin 4))
      loggedHours := input.loggedHours.getD (.fin 0)
      startDate, dueDate, timezone, progress, storyPoints
      delayReason := input.delayReason
      isMilestone := state.isMilestone
      isRecurring := some state.isRecurring
      createdAt := db.now
      updatedAt := db.now }
  checkTaskRow row
  return row

/-- Insert the row; `tasks_organization_serial_unique` and the primary key may refuse it. -/
def insertTask (row : TaskRow) : Except RepoError Db :=
  if db.tasks.rows.any fun t => t.serial = row.serial then
    .error (.database "tasks_organization_serial_unique")
  else
    match db.tasks.insert? row with
    | none => .error (.database "tasks_pkey")
    | some tasks =>
      .ok (syncParticipants
        { db with tasks, uuidCount := db.uuidCount + 1, serialNext := db.serialNext + 1 } none row)

/-- `INSERT INTO task_assignees … ON CONFLICT DO NOTHING` -/
def addAssignee (taskId : Uuid) (lead : Option Uuid) (db : Db) (userId : Uuid) : Db :=
  if db.assignees.any fun a => a.taskId = taskId && a.userId = userId && a.unassignedAt.isNone then
    db
  else
    { db with assignees := db.assignees ++ [
        { taskId, userId, isPrimary := lead = some userId, assignedAt := db.now }] }

/-- The rule of a new task. -/
def writeCreatedRecurrence (taskId : Uuid) : Option NormalizedRecurrence → Except RepoError Db
  | none => .ok db
  | some r => do insertRecurrence rt db (← recurrenceRow taskId r)

def writeCreatedDependencies (taskId : Uuid) (links : List Deps.DependencyLink) :
    Except RepoError Db :=
  if links.isEmpty then .ok db else Deps.replaceTaskDependencies db taskId links

def create (input : CreateTaskInput) : Except RepoError Db := do
  validateCreateInput rt db input
  let customFields ← resolveCustomFields db rt input.projectId input.customFields true []
  let reminders ← normalizeReminders input.reminders
  let state ← resolveTaskStateCreation rt (.time db.now.millis) input.toTaskStateInput
  let assignment ← resolveTaskAssignmentCreation input.toTaskAssignmentInput
  let dependencies ← createdDependencies db input.rawDependencies
  let row ← createRow db input customFields state assignment.assigneeId
  let db ← insertTask db row
  let db := assignment.assigneeIds.foldl (addAssignee row.id assignment.assigneeId) db
  let watchers := input.reporterId.toList ++ assignment.assigneeIds ++ input.followerIds
  let db ← ensureWatchers db row.id watchers.reverse.dedup.reverse
  let db := insertReminders db row.id reminders
  let db ← writeCreatedRecurrence rt db row.id state.recurrence.join
  writeCreatedDependencies db row.id dependencies

end Create

/-! ### Update -/

section Update

variable (rt : Runtime) (db : Db)

/-- `Number.isInteger(expectedVersion) && expectedVersion >= 1` -/
def requireVersion : Option Number → Except RepoError ℤ
  | some n =>
    match n.toInt? with
    | some v =>
      if v < 1 then .error (.conflict "Task expected version is required") else .ok v
    | none => .error (.conflict "Task expected version is required")
  | none => .error (.conflict "Task expected version is required")

/-- The resolved state and people of an accepted input. -/
structure ResolvedUpdate where
  state : ResolvedTaskStateUpdate
  assignment : ResolvedTaskAssignmentUpdate

def resolveUpdate (before : HydratedTask) (input : UpdateTaskInput) :
    Except RepoError ResolvedUpdate := do
  let state ← resolveTaskStateUpdate rt (.time db.now.millis) before.current input.toTaskStateInput
  let assignment ← resolveTaskAssignmentUpdate before.row.assigneeId before.assigneeIds
    input.toTaskAssignmentInput
  return { state, assignment }

def checkNewParent (taskId projectId : Uuid) : Option Uuid → Except RepoError Unit
  | none => .ok ()
  | some parentId => do
    if parentId = taskId then throw (.conflict "A task cannot be its own parent")
    let ancestors ← requireParent db projectId parentId
    if taskId ∈ ancestors then throw (.conflict "Task parent would create a cycle")
    if ancestors.length > maxSubtaskDepth then throw nestingError

/-- The custom fields of an input that has any, on top of the stored ones. -/
def resolveUpdateFields (before : HydratedTask) (input : UpdateTaskInput) :
    Except RepoError (Option JsObject) :=
  input.customFields.mapM fun o =>
    resolveCustomFields db rt before.row.projectId o false (before.row.customFields.getD [])

def validateUpdateInput (before : HydratedTask) (input : UpdateTaskInput) :
    Except RepoError Unit := do
  checkNewParent db before.row.id before.row.projectId input.parentId.join
  checkSection db before.row.projectId input.sectionId.join
  let _ ← resolveUpdateFields rt db before input
  let r ← resolveUpdate rt db before input
  requireActiveMembers db
    (r.assignment.assigneeIds ++ input.followerIds.getD [] ++ input.reporterId.join.toList)

/-- The columns `update` sets: the input without its other keys, with resolved values laid over
it where the resolver reports a change.  The time zone stays as the input spells it. -/
structure TaskUpdates where
  title : Option String
  description : Option (Option String)
  sectionId : Option (Option Uuid)
  parentId : Option (Option Uuid)
  status : Option TaskStatus
  priority : Option TaskPriority
  assigneeId : Option (Option Uuid)
  reporterId : Option (Option Uuid)
  dueDate : Option (Option JsDate)
  startDate : Option (Option JsDate)
  timezone : Option String
  estimatedHours : Option (Option Number)
  loggedHours : Option Number
  progress : Option Number
  order : Option Number
  tags : Option (Option (List String))
  isRecurring : Option (Option Bool)
  isMilestone : Option Bool
  storyPoints : Option (Option Number)
  delayReason : Option (Option String)

def taskUpdates (before : HydratedTask) (input : UpdateTaskInput) (r : ResolvedUpdate) :
    TaskUpdates where
  title := input.title
  description := input.description
  sectionId := input.sectionId
  parentId := input.parentId
  status := if r.state.statusChanged then some r.state.state.status else input.status
  priority := if r.state.priorityChanged then some r.state.state.priority else input.priority
  assigneeId :=
    if r.assignment.hasAssigneeMutation ∧ before.row.assigneeId ≠ r.assignment.assigneeId then
      some r.assignment.assigneeId
    else input.assigneeId
  reporterId := input.reporterId
  dueDate := if r.state.datesChanged then some r.state.state.dueDate else input.dueDate
  startDate := if r.state.datesChanged then some r.state.state.startDate else input.startDate
  timezone := input.timezone
  estimatedHours := input.estimatedHours
  loggedHours := input.loggedHours
  progress := if r.state.progressChanged then some r.state.state.progress else input.progress
  order := input.order
  tags := input.tags
  isRecurring :=
    if r.state.recurrenceChanged then some (some r.state.state.isRecurring) else input.isRecurring
  isMilestone :=
    if r.state.milestoneChanged then some r.state.state.isMilestone else input.isMilestone
  storyPoints := input.storyPoints
  delayReason := input.delayReason

/-- A new value for a column, or the old one. -/
def setColumn {α β : Type} (write : α → Except RepoError β) (old : β) : Option α → Except RepoError β
  | none => .ok old
  | some v => write v

/-- A new value for a nullable column, or the old one. -/
def setNullable {α β : Type} (write : α → Except RepoError β) (old : Option β) :
    Option (Option α) → Except RepoError (Option β)
  | none => .ok old
  | some none => .ok none
  | some (some v) => some <$> write v

/-- The row after `UPDATE tasks SET …`. -/
def updateColumns (now : Timestamptz) (u : TaskUpdates) (customFields : Option JsObject) (row : TaskRow) :
    Except RepoError TaskRow := do
  let title ← setColumn (varcharColumn 500) row.title u.title
  let startDate ← setNullable timestamp row.startDate u.startDate
  let dueDate ← setNullable timestamp row.dueDate u.dueDate
  let timezone ← setColumn (varcharColumn 100) row.timezone u.timezone
  let progress ← setColumn int4 row.progress u.progress
  let storyPoints ← setNullable int4 row.storyPoints u.storyPoints
  let version ← int4 (.fin (row.version + 1))
  let new : TaskRow :=
    { row with
      title
      description := u.description.getD row.description
      sectionId := u.sectionId.getD row.sectionId
      parentId := u.parentId.getD row.parentId
      status := u.status.getD row.status
      priority := u.priority.getD row.priority
      assigneeId := u.assigneeId.getD row.assigneeId
      reporterId := u.reporterId.getD row.reporterId
      dueDate, startDate, timezone
      estimatedHours := u.estimatedHours.getD row.estimatedHours
      loggedHours := u.loggedHours.getD row.loggedHours
      progress
      order := u.order.getD row.order
      tags := u.tags.getD row.tags
      customFields := (customFields.map fun o => some o.toJsonb).getD row.customFields
      isRecurring := u.isRecurring.getD row.isRecurring
      isMilestone := u.isMilestone.getD row.isMilestone
      storyPoints
      delayReason := u.delayReason.getD row.delayReason
      version
      updatedAt := now }
  checkTaskRow new
  return new

/-- `metadata` as it is copied into the custom fields. -/
def normalizedMetadata (serials : Option (List String))
    (reminders : Option (List NormalizedReminder)) : JsObject :=
  (match serials with
    | some s => [("dependencies", .array ((s.insertionSort (· ≤ ·)).map .string))]
    | none => []) ++
  (match reminders with
    | some rs => [("reminders", .array (rs.map fun r => .object (
        [("id", .string r.id), ("time", .string (String.ofList (IsoDate.toISOString r.remindAt))),
          ("label", .string r.label)] ++ (r.sent.map fun b => ("sent", .boolean b)).toList)))]
    | none => [])

/-- `canonicalizeCustomFieldsForCompare`, before it is stringified. -/
def canonicalizeCustomFieldsForCompare (o : JsObject) : JsObject :=
  match JsObject.get? o "dependencies" with
  | some (.array xs) =>
    JsObject.set o "dependencies"
      (.array (xs.insertionSort fun a b => a.text rt ≤ b.text rt))
  | _ => o

/-- `a !== b` for numbers that may be `null`. -/
def numberChanged : Option Number → Option Number → Bool
  | none, none => false
  | some a, some b => !a.jsEq b
  | _, _ => true

def hasOtherScalarChanges (before : HydratedTask) (u : TaskUpdates) (customFields : Option JsObject) :
    Bool :=
  u.title.any (· ≠ before.row.title) ||
  u.description.any (· ≠ before.row.description) ||
  u.parentId.any (· ≠ before.row.parentId) ||
  u.sectionId.any (· ≠ before.row.sectionId) ||
  u.reporterId.any (· ≠ before.row.reporterId) ||
  u.order.any (fun n => numberChanged n before.row.order) ||
  u.tags.any (· ≠ some (before.row.tags.getD [])) ||
  u.estimatedHours.any (numberChanged · before.row.estimatedHours) ||
  u.loggedHours.any (fun n => numberChanged n before.row.loggedHours) ||
  u.timezone.any (· ≠ before.row.timezone) ||
  u.storyPoints.any (numberChanged · (before.row.storyPoints.map fun k => .fin k)) ||
  u.delayReason.any (· ≠ before.delayReason) ||
  customFields.any fun o => !jsonEqFields (canonicalizeCustomFieldsForCompare rt o)
    (canonicalizeCustomFieldsForCompare rt (before.row.customFields.getD []))

/-- What an accepted update writes. -/
structure UpdatePlan where
  before : HydratedTask
  expectedVersion : ℤ
  resolved : ResolvedUpdate
  updates : TaskUpdates
  customFields : Option JsObject
  dependencies : Option (List Deps.DependencyLink)
  reminders : Option (List NormalizedReminder)
  hasAnyChange : Bool

def planUpdate (taskId : Uuid) (input : UpdateTaskInput) : Except RepoError UpdatePlan := do
  let before ← getById db taskId
  let expectedVersion ← requireVersion input.expectedVersion
  validateUpdateInput rt db before input
  let resolved ← resolveUpdate rt db before input
  let updates := taskUpdates before input resolved
  let dependencies ←
    (input.dependencies.or (input.metadata.bind TaskMetadata.dependencies)).mapM
      (Deps.validateTaskDependenciesInput db.tasks (some before.row.id))
  let serials := dependencies.map fun links => links.map Deps.DependencyLink.blockingTaskSerial
  let reminders ← (input.metadata.bind TaskMetadata.reminders).mapM normalizeReminders
  let resolvedFields ← resolveUpdateFields rt db before input
  let customFields :=
    if input.metadata.isSome || dependencies.isSome then
      some (JsObject.spread (resolvedFields.getD (before.row.customFields.getD []))
        (normalizedMetadata serials reminders))
    else resolvedFields
  return {
    before, expectedVersion, resolved, updates, customFields, dependencies, reminders
    hasAnyChange := resolved.assignment.changed || resolved.state.hasStateChange ||
      hasOtherScalarChanges rt before updates customFields ||
      input.followerIds.any (fun ids =>
        ids.insertionSort (· ≤ ·) ≠ before.followerIds.insertionSort (· ≤ ·)) ||
      serials.any (fun s => s.insertionSort (· ≤ ·) ≠ before.dependencies.insertionSort (· ≤ ·)) ||
      reminders.isSome }

end Update

/-! ### Writing an update -/

section Write

variable (rt : Runtime)

def staleError : RepoError := .conflict "Task was modified by another request; reload it and retry"

/-- Demote the lead before the row is written, so that the trigger does not close a row that stays. -/
def demoteLead (db : Db) (taskId : Uuid) (a : ResolvedTaskAssignmentUpdate)
    (lead : Option Uuid) : Db :=
  if a.changed ∧ lead.isSome ∧ lead ≠ a.assigneeId then
    updateAssignees db taskId fun r => { r with isPrimary := false }
  else db

def writeTaskRow (db : Db) (plan : UpdatePlan) (after : TaskRow) : Except RepoError Db :=
  let before := plan.before.row
  let db := { db with tasks := db.tasks.put after }
  let db :=
    if plan.updates.assigneeId.isSome || plan.updates.reporterId.isSome then
      syncParticipants db (some before.assigneeId) after
    else db
  syncRecurrenceRule rt db before after

/-- Close the removed assignees, add the new ones, then mark the lead. -/
def writeAssignees (db : Db) (taskId : Uuid) (a : ResolvedTaskAssignmentUpdate) : Db :=
  if a.changed then
    let db := updateAssignees db taskId fun r =>
      if r.userId ∈ a.removedAssigneeIds then
        { r with unassignedAt := some db.newDate, isPrimary := false }
      else r
    let db := a.addedAssigneeIds.foldl
      (fun db userId => upsertAssignee db taskId userId (a.assigneeId = some userId)) db
    updateAssignees db taskId fun r => { r with isPrimary := a.assigneeId = some r.userId }
  else db

def writeFollowers (db : Db) (before : HydratedTask) (a : ResolvedTaskAssignmentUpdate)
    (followerIds : Option (List Uuid)) : Except RepoError Db :=
  let beforeIds :=
    if before.assigneeIds ≠ [] then before.assigneeIds else before.row.assigneeId.toList
  match followerIds with
  | some ids =>
    replaceWatchersDelta db before.row.id (ids ++ a.addedAssigneeIds).reverse.dedup.reverse
  | none => do
    let db ← ensureWatchers db before.row.id a.addedAssigneeIds
    match a.assigneeId with
    | some lead =>
      if before.row.assigneeId ≠ some lead ∧ lead ∈ beforeIds ∧ lead ∉ before.followerIds then
        return unwatch db before.row.id [lead]
      else return db
    | none => return db

def writeReminders (db : Db) (taskId : Uuid) : Option (List NormalizedReminder) → Db
  | none => db
  | some reminders => insertReminders (closeReminders db taskId db.newDate) taskId reminders

/-- `some none` ends the recurrence of the task, `some (some r)` replaces it. -/
def writeRecurrence (db : Db) (taskId : Uuid) :
    Option (Option NormalizedRecurrence) → Except RepoError Db
  | none => .ok db
  | some none => .ok (closeRecurrence db taskId db.newDate)
  | some (some r) => do
    insertRecurrence rt (closeRecurrence db taskId db.newDate) (← recurrenceRow taskId r)

def writeDependencies (db : Db) (taskId : Uuid) :
    Option (List Deps.DependencyLink) → Except RepoError Db
  | none => .ok db
  | some links => Deps.replaceTaskDependencies db taskId links

def writeUpdate (db : Db) (input : UpdateTaskInput) (plan : UpdatePlan) : Except RepoError Db := do
  let before := plan.before
  let taskId := before.row.id
  let a := plan.resolved.assignment
  let state := plan.resolved.state
  if before.row.version ≠ plan.expectedVersion then throw staleError
  let db := demoteLead db taskId a before.row.assigneeId
  let after ← updateColumns db.newDate plan.updates plan.customFields before.row
  let db ← writeTaskRow rt db plan after
  let db := writeAssignees db taskId a
  let db ← writeFollowers db before a input.followerIds
  let db ← writeDependencies db taskId plan.dependencies
  let db := writeReminders db taskId plan.reminders
  let db ← writeRecurrence rt db taskId
    (if state.recurrenceChanged then state.state.recurrence else none)
  return Sprints.recordTaskChange db before.row after

/-- Messages of the triggers that `update` passes on as conflicts. -/
def updateError : RepoError → RepoError
  | .database m =>
    if m = "Task dependency would create a cycle" ∨ m.startsWith "Task recurrence" then .conflict m
    else .database m
  | e => e

def update (db : Db) (taskId : Uuid) (input : UpdateTaskInput) : Except RepoError Db := do
  let plan ← planUpdate rt db taskId input
  if plan.hasAnyChange then (writeUpdate rt db input plan).mapError updateError else return db

end Write

/-! ### Move -/

section Move

variable (db : Db)

/-- The active root tasks in one column of the project board. -/
def column (projectId : Uuid) (status : TaskStatus) : List TaskRow :=
  db.tasks.rows.filter fun t =>
    t.active && t.projectId = projectId && t.status = status && t.parentId.isNone

/-- `ORDER BY "order", id`. -/
def anchorOrder (a b : TaskRow) : Prop := a.order < b.order ∨ a.order = b.order ∧ a.id ≤ b.id

instance : DecidableRel anchorOrder := fun a b => by
  unfold anchorOrder
  infer_instance

/-- `ORDER BY "order", created_at, id`. -/
def boardOrder (a b : TaskRow) : Prop :=
  a.order < b.order ∨
    a.order = b.order ∧ (a.createdAt < b.createdAt ∨ a.createdAt = b.createdAt ∧ a.id ≤ b.id)

instance : DecidableRel boardOrder := fun a b => by
  unfold boardOrder
  infer_instance

/-- A column that `task` enters has room for `total` tasks. -/
def checkWipLimit (task : TaskRow) (status : TaskStatus) (total : ℕ) : Except RepoError Unit :=
  if task.status = status then .ok ()
  else
    match db.wipLimits.find? fun w => w.projectId = task.projectId && w.status = status with
    | some w =>
      if (total : ℤ) > w.limit then
        .error (.conflict s!"WIP limit of {w.limit} for '{status.label}' would be exceeded")
      else .ok ()
    | none => .ok ()

/-- The tasks between which `task` is dropped; a single anchor is completed by its neighbour. -/
def moveAnchors (task : TaskRow) (input : MoveTaskInput) :
    Except RepoError (Option TaskRow × Option TaskRow) := do
  let beforeId := input.beforeTaskId.join
  let afterId := input.afterTaskId.join
  if beforeId = some task.id ∨ afterId = some task.id ∨ beforeId.isSome ∧ beforeId = afterId then
    throw (.conflict "Task move anchors are invalid")
  let column := column db task.projectId input.status
  let requested := beforeId.toList ++ afterId.toList
  let found := column.filter (·.id ∈ requested)
  if found.length ≠ requested.length then
    throw (.conflict "Task move anchor was not found in the target column")
  let others := (column.filter (·.id ≠ task.id)).insertionSort anchorOrder
  let beforeAnchor := beforeId.bind fun id => found.find? (·.id = id)
  let afterAnchor := afterId.bind fun id => found.find? (·.id = id)
  return match beforeAnchor, afterAnchor with
    | some b, none => (some b, others.find? fun t => ¬ anchorOrder t b)
    | none, some a => (others.reverse.find? fun t => ¬ anchorOrder a t, some a)
    | b, a => (b, a)

/-- The order of the dropped task. -/
def targetOrder (rt : Runtime) : Option TaskRow → Option TaskRow → Number
  | some b, some a => (b.order.add rt a.order).half rt
  | some b, none => b.order.add rt (.fin 1)
  | none, some a => a.order.add rt (.fin (-1))
  | none, none => .fin 0

/-- `a <= b` of JavaScript. -/
def jsLe (a b : Number) : Bool := a.jsLt b || a.jsEq b

def movedColumns (now : Timestamptz) (row : TaskRow) (status : TaskStatus) (order : Number) (complete : Bool) :
    Except RepoError TaskRow := do
  let version ← int4 (.fin (row.version + 1))
  let new : TaskRow :=
    { row with
      status, order, version
      progress := if complete then 100 else row.progress
      updatedAt := now }
  checkTaskRow new
  return new

/-- The order between the anchors, if there is a number between theirs. -/
def anchoredOrder (rt : Runtime) (task : TaskRow) (input : MoveTaskInput) :
    Except RepoError Number := do
  let (beforeAnchor, afterAnchor) ← moveAnchors db task input
  if let (some b, some a) := (beforeAnchor, afterAnchor) then
    if a.order.jsLt b.order then throw (.conflict "Task move anchors are out of order")
  let order := targetOrder rt beforeAnchor afterAnchor
  if !order.isFinite || beforeAnchor.any (fun b => jsLe order b.order) ||
      afterAnchor.any fun a => jsLe a.order order then
    throw (.conflict "Task column order requires maintenance before this move can be applied")
  return order

def moveByAnchors (rt : Runtime) (task : TaskRow) (input : MoveTaskInput) : Except RepoError Db := do
  let order ← anchoredOrder db rt task input
  checkWipLimit db task input.status ((column db task.projectId input.status).length + 1)
  let moved ← movedColumns db.newDate task input.status order (input.status = .done)
  return Sprints.recordTaskChange { db with tasks := db.tasks.put moved } task moved

/-- Write one row of a column: `movedId` is the task that moves. -/
def placeTask (movedId : Uuid) (db : Db) (place : TaskStatus × ℕ × Uuid) : Except RepoError Db :=
  match findActive db place.2.2 with
  | none => .ok db
  | some row => do
    let new ← movedColumns db.newDate row place.1 (.fin place.2.1)
      (place.2.2 = movedId && place.1 = .done)
    return { db with tasks := db.tasks.put new }

/-- The places of a column after the move. -/
def columnPlaces (status : TaskStatus) (ids : List Uuid) : List (TaskStatus × ℕ × Uuid) :=
  ids.zipIdx.map fun (id, order) => (status, order, id)

/-- The ids of a column without `task`, in its order. -/
def otherIds (task : TaskRow) (status : TaskStatus) : List Uuid :=
  (((column db task.projectId status).filter (·.id ≠ task.id)).insertionSort boardOrder).map
    TaskRow.id

/-- The target column with `task` in it. -/
def withMoved (task : TaskRow) (input : MoveTaskInput) (targetIndex : ℕ) : List Uuid :=
  let target := otherIds db task input.status
  target.insertIdx (min targetIndex target.length) task.id

/-- The places of both columns, or of the one column inside which `task` moves. -/
def finalPlaces (task : TaskRow) (input : MoveTaskInput) (targetIndex : ℕ) :
    List (TaskStatus × ℕ × Uuid) :=
  let target := columnPlaces input.status (withMoved db task input targetIndex)
  if task.status = input.status then target
  else columnPlaces task.status (otherIds db task task.status) ++ target

def moveByIndex (task : TaskRow) (input : MoveTaskInput) (targetIndex : ℕ) :
    Except RepoError Db := do
  checkWipLimit db task input.status (withMoved db task input targetIndex).length
  let placed ← (finalPlaces db task input targetIndex).foldlM (placeTask task.id) db
  match placed.tasks.find? task.id with
  | none => .error (.conflict "Task move could not be persisted")
  | some moved => return Sprints.recordTaskChange placed task moved

/-- `Number.isInteger(targetIndex) && targetIndex >= 0` -/
def requireTargetIndex (targetIndex : Number) : Except RepoError ℕ :=
  match targetIndex.toInt? with
  | some n =>
    if n < 0 then .error (.conflict "Task target index must be a non-negative integer")
    else .ok n.toNat
  | none => .error (.conflict "Task target index must be a non-negative integer")

def move (rt : Runtime) (taskId : Uuid) (input : MoveTaskInput) : Except RepoError Db := do
  let targetIndex ← requireTargetIndex input.targetIndex
  let expectedVersion ← requireVersion (some input.expectedVersion)
  let before ← getById db taskId
  if before.row.parentId.isSome then
    throw (.conflict "Subtasks cannot be moved on the project board")
  if !db.projects.any fun p => p.id = before.row.projectId && p.deletedAt.isNone then
    throw (.notFound "project")
  if before.row.version ≠ expectedVersion then throw staleError
  if input.beforeTaskId.isSome || input.afterTaskId.isSome then
    moveByAnchors db rt before.row input
  else moveByIndex db before.row input targetIndex

end Move

/-! ### Soft deletion -/

section Delete

variable (db : Db)

/-- `close_deleted_task_links` -/
def closeDependencies (db : Db) (taskId : Uuid) (deletedAt : Timestamptz) : Db :=
  { db with
    dependencies := db.dependencies.update
      (fun d => (d.blockingTaskId = taskId || d.dependentTaskId = taskId) && d.active)
      (fun d => { d with deletedAt := some deletedAt }) fun _ => rfl }

/-- What the triggers on `deleted_at` close around one deleted task. -/
def closeDeletedTask (deletedAt : Timestamptz) (db : Db) (row : TaskRow) : Db :=
  let db := closeDependencies db row.id deletedAt
  let db := closeRecurrence (closeReminders db row.id deletedAt) row.id deletedAt
  syncParticipants db none { row with deletedAt := some deletedAt, sprintId := none }

/-- Mark the active rows that `p` selects as deleted, then run the triggers row by row. -/
def deleteTasks (db : Db) (p : TaskRow → Bool) : Db :=
  let now := db.newDate
  let deleted := db.tasks.rows.filter fun t => t.active && p t
  deleted.foldl (closeDeletedTask now)
    { db with
      tasks := db.tasks.update (fun t => t.active && p t)
        (fun t => { t with deletedAt := some now, updatedAt := now, sprintId := none })
        fun _ => rfl }

/-- Close the open assignments of a task to a sprint. -/
def closeAssignment (db : Db) (taskId sprintId : Uuid) : Db :=
  { db with assignments := db.assignments.map fun a =>
      if a.taskId = taskId && a.sprintId = sprintId && a.opened then
        { a with removedAt := some db.newDate }
      else a }

def softDelete (taskId : Uuid) : Except RepoError Db := do
  let before ← getById db taskId
  let deleted := deleteTasks (deleteTasks db fun t => t.id = taskId)
    fun t => t.parentId = some taskId
  match before.row.sprintId with
  | none => return deleted
  | some sprintId =>
    let closed := closeAssignment deleted taskId sprintId
    if Sprints.isActiveSprint closed sprintId then
      return Sprints.appendSprintAnalyticsEvent closed before.row.projectId sprintId taskId
        db.newDate
        { eventType := .taskRemoved, storyPointsAtEvent := before.row.storyPoints
          isCompletedAtEvent := before.row.status = .done }
    else return closed

end Delete

end CalmBoard.Tasks
