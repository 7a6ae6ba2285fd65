import CalmBoard.Schema

/-!
# CalmBoard.Sprints.Repository — the life of a sprint and its tasks

The writing operations of the sprint repository.  A task points to its sprint (`tasks.sprint_id`) and
has an open row of `task_sprint_assignments` for it.  Whatever changes the scope of an active sprint
appends an event to `sprint_analytics_events`.

* `deriveSprintTaskAnalyticsEvents`: the events of a change to one task.
* `recordTaskChange`: these events, appended when the task is in an active sprint.
* `createSprint`, `startSprint`, `completeSprint`, `cancelSprint`: the states of a sprint.
* `assignTaskToSprint`, `removeTaskFromSprint`, `moveTaskBetweenSprints`: its tasks.
* `verifySprintMembershipConsistency`: pointers against assignments, before a snapshot is taken.
-/

namespace CalmBoard.Sprints

section Analytics

structure AnalyticsEventPayload where
  eventType : SprintEventType
  storyPointsAtEvent : Option ℤ
  isCompletedAtEvent : Bool
  oldStoryPoints : Option ℤ := none
  newStoryPoints : Option ℤ := none

/-- What the events of a task depend on. -/
structure TaskAnalyticsState where
  storyPoints : Option ℤ
  status : TaskStatus

def analyticsState (t : TaskRow) : TaskAnalyticsState := ⟨t.storyPoints, t.status⟩

def isTaskCompletedStatus (status : TaskStatus) : Bool := status = .done

/-- The events of a change of a task's story points and status. -/
def deriveSprintTaskAnalyticsEvents (before after : TaskAnalyticsState) :
    List AnalyticsEventPayload :=
  let wasCompleted := isTaskCompletedStatus before.status
  let isCompleted := isTaskCompletedStatus after.status
  -- the points change under the old completion status, the status under the new points
  (if before.storyPoints ≠ after.storyPoints then
    [{ eventType := .storyPointsChanged, storyPointsAtEvent := after.storyPoints
       isCompletedAtEvent := wasCompleted, oldStoryPoints := before.storyPoints
       newStoryPoints := after.storyPoints }]
  else []) ++
  (if !wasCompleted && isCompleted then
    [{ eventType := .taskCompleted, storyPointsAtEvent := after.storyPoints
       isCompletedAtEvent := true }]
  else if wasCompleted && !isCompleted then
    [{ eventType := .taskReopened, storyPointsAtEvent := after.storyPoints
       isCompletedAtEvent := false }]
  else [])

def AnalyticsEventPayload.row (e : AnalyticsEventPayload) (eventSequence : ℕ)
    (projectId sprintId taskId : Uuid) (occurredAt : Timestamptz) : SprintEventRow :=
  { projectId, sprintId, taskId, eventSequence, eventType := e.eventType,
    storyPointsAtEvent := e.storyPointsAtEvent, isCompletedAtEvent := e.isCompletedAtEvent,
    oldStoryPoints := e.oldStoryPoints, newStoryPoints := e.newStoryPoints, occurredAt }

/-- Append one event; `event_sequence` numbers the inserts. -/
def appendSprintAnalyticsEvent (db : Db) (projectId sprintId taskId : Uuid)
    (occurredAt : Timestamptz) (e : AnalyticsEventPayload) : Db :=
  { db with events := db.events ++ [e.row db.events.length projectId sprintId taskId occurredAt] }

def appendSprintAnalyticsEvents (db : Db) (projectId sprintId taskId : Uuid)
    (occurredAt : Timestamptz) (events : List AnalyticsEventPayload) : Db :=
  events.foldl (fun db e => appendSprintAnalyticsEvent db projectId sprintId taskId occurredAt e) db

def isActiveSprint (db : Db) (sprintId : Uuid) : Bool :=
  (db.sprints.find? sprintId).any fun s => s.status = .active

/-- What `tasks.update` and `tasks.move` append for a task that went from `before` to `after`. -/
def recordTaskChange (db : Db) (before after : TaskRow) : Db :=
  match after.sprintId with
  | none => db
  | some sprintId =>
    if isActiveSprint db sprintId then
      appendSprintAnalyticsEvents db after.projectId sprintId after.id db.newDate
        (deriveSprintTaskAnalyticsEvents (analyticsState before) (analyticsState after))
    else db

end Analytics

section Operations

variable (db : Db)

/-! ### Reading a sprint -/

/-- The active tasks that point to a sprint. -/
def sprintTasks (sprintId : Uuid) : List TaskRow :=
  db.tasks.rows.filter fun t => t.sprintId = some sprintId && t.active

def points (storyPoints : Option ℤ) : ℤ := storyPoints.getD 0

def countTasks (tasks : List TaskAnalyticsState) : SprintCounters :=
  let completed := tasks.filter fun t => isTaskCompletedStatus t.status
  let scopePoints := (tasks.map fun t => points t.storyPoints).sum
  let completedPoints := (completed.map fun t => points t.storyPoints).sum
  { scopeTaskCount := tasks.length
    scopeStoryPoints := scopePoints
    completedTaskCount := completed.length
    completedStoryPoints := completedPoints
    remainingTaskCount := tasks.length - completed.length
    remainingStoryPoints := scopePoints - completedPoints }

def sprintStats (sprintId : Uuid) : SprintCounters :=
  countTasks ((sprintTasks db sprintId).map analyticsState)

def openAssignments (taskId sprintId : Uuid) : List TaskSprintAssignmentRow :=
  db.assignments.filter fun a => a.taskId = taskId && a.sprintId = sprintId && a.opened

/-- An open assignment to the sprint whose task is deleted or points elsewhere. -/
def rogueAssignment (sprintId : Uuid) (a : TaskSprintAssignmentRow) : Bool :=
  a.sprintId = sprintId && a.opened &&
    (db.tasks.find? a.taskId).any fun t => t.sprintId ≠ some sprintId || !t.active

def hexDigit (n : ℕ) : Char := "0123456789abcdef".toList.getD n '0'

/-- The canonical text of an id. -/
def uuidText (u : Uuid) : String :=
  let hex (start count : ℕ) : List Char :=
    (List.range count).map fun i => hexDigit (u / 16 ^ (31 - start - i) % 16)
  String.ofList (hex 0 8 ++ '-' :: hex 8 4 ++ '-' :: hex 12 4 ++ '-' :: hex 16 4 ++ '-' :: hex 20 12)

def verifySprintMembershipConsistency (sprintId : Uuid) : Except RepoError Unit :=
  match (sprintTasks db sprintId).find? fun t => (openAssignments db t.id sprintId).length ≠ 1 with
  | some t =>
    .error (.error s!"Sprint membership inconsistency detected for task {uuidText t.id}: has {(openAssignments db t.id sprintId).length} open assignments but claims sprint_id = {uuidText sprintId}")
  | none =>
    match db.assignments.find? (rogueAssignment db sprintId) with
    | some a =>
      .error (.error s!"Sprint membership inconsistency detected: open assignment for task {uuidText a.taskId} but task sprint_id does not match or task is deleted")
    | none => .ok ()

/-- The sprint of a project, unless it is deleted. -/
def findSprint (id : Uuid) : Option SprintRow :=
  (db.sprints.find? id).filter fun s => s.deletedAt.isNone

def sprintNotFound : RepoError := .conflict "Sprint not found"

def requireSprint (id projectId : Uuid) : Except RepoError SprintRow :=
  match (findSprint db id).filter fun s => s.projectId = projectId with
  | some s => .ok s
  | none => .error sprintNotFound

/-! ### Writing -/

/-- Close the assignments that `p` selects. -/
def closeAssignments (p : TaskSprintAssignmentRow → Bool) : Db :=
  { db with
    assignments := db.assignments.map fun a =>
      if p a && a.opened then { a with removedAt := some db.newDate } else a }

/-- Insert an assignment to the new sprint of a task, if it has one;
`task_sprint_assignments_active_unique` allows one open row for a task. -/
def openAssignment (taskId projectId : Uuid) : Option Uuid → Except RepoError Db
  | none => .ok db
  | some sprintId =>
    if db.assignments.any fun a => a.taskId = taskId && a.opened then
      .error (.database "task_sprint_assignments_active_unique")
    else
      .ok { db with assignments := db.assignments ++ [
        { taskId, sprintId, projectId, assignedAt := db.now }] }

/-- `UPDATE tasks SET sprint_id = …`. -/
def pointTasks (p : TaskRow → Bool) (sprintId : Option Uuid) : Db :=
  { db with
    tasks := db.tasks.update p (fun t => { t with sprintId, updatedAt := db.newDate }) fun _ => rfl }

/-- `sprint_snapshots`: integer columns and `sprint_snapshots_type_unique`. -/
def insertSprintSnapshot (projectId sprintId : Uuid) (snapshotType : SprintSnapshotType)
    (counters : SprintCounters) : Except RepoError Db :=
  let columns := [counters.scopeTaskCount, counters.scopeStoryPoints, counters.completedTaskCount,
    counters.completedStoryPoints, counters.remainingTaskCount, counters.remainingStoryPoints]
  if columns.any (· > 2147483647) then .error (.database "integer out of range")
  else if columns.any (· < 0) then .error (.database "sprint_snapshots_check")
  else if db.snapshots.any fun s => s.sprintId = sprintId && s.snapshotType = snapshotType then
    .error (.database "sprint_snapshots_type_unique")
  else
    .ok { db with snapshots := db.snapshots ++ [
      { projectId, sprintId, snapshotType, dataQuality := .exact, counters
        capturedAt := db.newDate }] }

/-- `sprints_active_unique`: a project has one active sprint that is not deleted. -/
def activeSprintTaken (projectId id : Uuid) : Bool :=
  db.sprints.rows.any fun s =>
    s.projectId = projectId && s.status = .active && s.deletedAt.isNone && s.id ≠ id

/-! ### Sprints -/

/-- `CreateSprintInput`: every column but the ids and the two timestamps of the row. -/
structure CreateSprintInput where
  projectId : Uuid
  name : String
  goal : Option String := none
  status : SprintStatus := .planned
  startsAt : Option Timestamptz := none
  endsAt : Option Timestamptz := none
  startedAt : Option Timestamptz := none
  completedAt : Option Timestamptz := none
  cancelledAt : Option Timestamptz := none
  deletedAt : Option Timestamptz := none

def createSprint (input : CreateSprintInput) : Except RepoError Db := do
  if !db.projects.any fun p => p.id = input.projectId then
    throw (.database "sprints_project_id_projects_id_fk")
  let name ← varcharColumn 255 input.name
  let id := db.uuids db.uuidCount
  if input.status = .active ∧ input.deletedAt = none ∧ activeSprintTaken db input.projectId id then
    throw (.database "sprints_active_unique")
  let row : SprintRow :=
    { id, projectId := input.projectId, name, goal := input.goal, status := input.status
      startsAt := input.startsAt, endsAt := input.endsAt, startedAt := input.startedAt
      completedAt := input.completedAt, cancelledAt := input.cancelledAt
      createdAt := db.now, updatedAt := db.now, deletedAt := input.deletedAt }
  match db.sprints.insert? row with
  | none => .error (.database "sprints_pkey")
  | some sprints => .ok { db with sprints, uuidCount := db.uuidCount + 1 }

def startSprint (id projectId : Uuid) : Except RepoError Db := do
  let sprint ← requireSprint db id projectId
  if sprint.status ≠ .planned then throw (.conflict "Only planned sprints can be started")
  verifySprintMembershipConsistency db id
  let stats := sprintStats db id
  if activeSprintTaken db projectId id then
    throw (.conflict "There is already an active sprint in this project")
  let now := db.newDate
  let started :=
    { db with
      sprints := db.sprints.put
        { sprint with status := .active, startedAt := some now, updatedAt := now } }
  match insertSprintSnapshot started projectId id .start stats with
  | .error (.database "sprint_snapshots_type_unique") =>
    .error (.conflict "There is already an active sprint in this project")
  | result => result

inductive IncompleteDestination where
  | backlog
  | sprint (sprintId : Uuid)

/-- The sprint that takes over the unfinished tasks. -/
def requireDestination (id projectId : Uuid) :
    IncompleteDestination → Except RepoError (Option Uuid)
  | .backlog => .ok none
  | .sprint target =>
    if target = id then .error (.conflict "Cannot move tasks to the same sprint")
    else
      match (findSprint db target).filter fun s => s.projectId = projectId with
      | none => .error (.conflict "Destination sprint not found")
      | some s =>
        if s.status ≠ .planned then .error (.conflict "Target sprint must be planned")
        else .ok (some target)

/-- Hand one unfinished task over to the target, or to the backlog. -/
def releaseTask (id projectId : Uuid) (target : Option Uuid) (db : Db) (taskId : Uuid) :
    Except RepoError Db := do
  let closed := closeAssignments db fun a => a.taskId = taskId && a.sprintId = id
  let opened ← openAssignment closed taskId projectId target
  return pointTasks opened (fun t => t.id = taskId) target

def unfinishedTasks (id : Uuid) : List Uuid :=
  ((sprintTasks db id).filter fun t => t.status ≠ .done).map TaskRow.id

def completeSprint (id projectId : Uuid) (incompleteDestination : IncompleteDestination) :
    Except RepoError Db := do
  let sprint ← requireSprint db id projectId
  if sprint.status ≠ .active then throw (.conflict "Only active sprints can be completed")
  let target ← requireDestination db id projectId incompleteDestination
  verifySprintMembershipConsistency db id
  let snapped ← insertSprintSnapshot db projectId id .complete (sprintStats db id)
  let released ← (unfinishedTasks snapped id).foldlM (releaseTask id projectId target) snapped
  let now := db.newDate
  return { released with
    sprints := released.sprints.put
      { sprint with status := .completed, completedAt := some now, updatedAt := now } }

def cancelSprint (id projectId : Uuid) : Except RepoError Db := do
  let sprint ← requireSprint db id projectId
  if sprint.status = .completed ∨ sprint.status = .cancelled then
    throw (.conflict "Cannot cancel this sprint")
  let closed := closeAssignments db fun a => a.sprintId = id
  let released := pointTasks closed (fun t => t.sprintId = some id) none
  let now := db.newDate
  return { released with
    sprints := released.sprints.put
      { sprint with status := .cancelled, cancelledAt := some now, updatedAt := now } }

/-! ### Tasks of a sprint -/

/-- A task joins or leaves the scope of an active sprint. -/
def appendScopeEvent (task : TaskRow) (eventType : SprintEventType) : Option Uuid → Db
  | none => db
  | some sprintId =>
    match db.sprints.find? sprintId with
    | some sprint =>
      if sprint.status = .active then
        appendSprintAnalyticsEvent db sprint.projectId sprint.id task.id db.newDate
          { eventType, storyPointsAtEvent := task.storyPoints
            isCompletedAtEvent := isTaskCompletedStatus task.status }
      else db
    | none => db

/-- The checks on the sprint a task is moved to. -/
def requireTarget (task : TaskRow) (missing : RepoError) : Option Uuid → Except RepoError Unit
  | none => .ok ()
  | some sprintId =>
    match findSprint db sprintId with
    | none => .error missing
    | some sprint =>
      if sprint.projectId ≠ task.projectId then
        .error (.conflict "Sprint and task must belong to the same project")
      else if sprint.status = .completed ∨ sprint.status = .cancelled then
        .error (.conflict "Cannot assign task to a completed or cancelled sprint")
      else .ok ()

def taskNotFound : RepoError := .conflict "Task not found"

def assignTaskToSprint (taskId sprintId : Uuid) : Except RepoError Db :=
  match (db.tasks.find? taskId).filter TaskRow.active with
  | none => .error taskNotFound
  | some task =>
    if task.sprintId = some sprintId then .ok db
    else do
      requireTarget db task sprintNotFound (some sprintId)
      let closed := closeAssignments db fun a => a.taskId = taskId
      let opened ← openAssignment closed taskId task.projectId (some sprintId)
      let pointed := pointTasks opened (fun t => t.id = taskId) (some sprintId)
      -- only the new sprint hears of the change
      return appendScopeEvent pointed task .taskAdded (some sprintId)

def removeTaskFromSprint (taskId : Uuid) : Except RepoError Db :=
  match db.tasks.find? taskId with
  | none => .error taskNotFound
  | some task =>
    match task.sprintId with
    | none => .ok db
    | some sprintId =>
      let closed := closeAssignments db fun a => a.taskId = taskId && a.sprintId = sprintId
      let pointed := pointTasks closed (fun t => t.id = taskId) none
      .ok (appendScopeEvent pointed task .taskRemoved (some sprintId))

/-- `expectedFromSprintId` is `none` where it is `undefined`. -/
def moveTaskBetweenSprints (taskId : Uuid) (targetSprintId : Option Uuid)
    (expectedFromSprintId : Option (Option Uuid)) : Except RepoError Db :=
  match (db.tasks.find? taskId).filter TaskRow.active with
  | none => .error taskNotFound
  | some task =>
    if expectedFromSprintId.any (· ≠ task.sprintId) then
      .error (.conflict
        "Optimistic concurrency failure: Task is no longer in the expected sprint")
    else if task.sprintId = targetSprintId then .ok db
    else do
      requireTarget db task (.conflict "Target sprint not found") targetSprintId
      let closed := closeAssignments db fun a => a.taskId = taskId
      let opened ← openAssignment closed taskId task.projectId targetSprintId
      let pointed := pointTasks opened (fun t => t.id = taskId) targetSprintId
      return appendScopeEvent (appendScopeEvent pointed task .taskRemoved task.sprintId) task
        .taskAdded targetSprintId

end Operations

end CalmBoard.Sprints
