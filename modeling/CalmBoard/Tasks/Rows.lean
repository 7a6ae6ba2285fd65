import CalmBoard.CustomFields.Contract
import CalmBoard.Deps.Repository
import CalmBoard.Tasks.State
import CalmBoard.Tasks.Assignments

/-!
# CalmBoard.Tasks.Rows — reading and writing the rows of a task

What the task repository reads together with a task, the check constraints of `tasks`, and the
tables around it with their triggers.

* `getById`: a task with its people, dependencies and recurrence.
* `parentChain`: the ancestors of a task, walked one `getById` at a time.
* `checkTaskRow`: the check constraints of `tasks`.
* `syncParticipants`, `closeRecurrence`, `insertRecurrence`: the triggers between `tasks` and the
  tables of its participants and recurrence rules.
-/

namespace CalmBoard.Tasks

open Text

/-! ### Reading -/

/-- A task as `getById` returns it. -/
structure HydratedTask where
  row : TaskRow
  isRecurring : Bool
  delayReason : Option String
  dependencies : List String
  assigneeIds : List Uuid
  followerIds : List Uuid

section Read

variable (db : Db)

/-- `ORDER BY is_primary DESC, assigned_at, user_id`. -/
def assigneeOrder (a b : TaskAssigneeRow) : Prop :=
  if a.isPrimary = b.isPrimary then
    a.assignedAt < b.assignedAt ∨ a.assignedAt = b.assignedAt ∧ a.userId ≤ b.userId
  else a.isPrimary = true

instance : DecidableRel assigneeOrder := fun a b => by
  unfold assigneeOrder
  infer_instance

def followerOrder (a b : TaskFollowerRow) : Prop :=
  a.followedAt < b.followedAt ∨ a.followedAt = b.followedAt ∧ a.userId ≤ b.userId

instance : DecidableRel followerOrder := fun a b => by
  unfold followerOrder
  infer_instance

def dependencyOrder (a b : TaskDependencyRow) : Prop :=
  a.createdAt < b.createdAt ∨ a.createdAt = b.createdAt ∧ a.id ≤ b.id

instance : DecidableRel dependencyOrder := fun a b => by
  unfold dependencyOrder
  infer_instance

def activeAssigneeIds (taskId : Uuid) : List Uuid :=
  ((db.assignees.filter fun a => a.taskId = taskId && a.unassignedAt.isNone).insertionSort
    assigneeOrder).map TaskAssigneeRow.userId

def activeFollowerIds (taskId : Uuid) : List Uuid :=
  ((db.followers.filter fun f => f.taskId = taskId && f.unfollowedAt.isNone).insertionSort
    followerOrder).map TaskFollowerRow.userId

/-- The serials of the active tasks a task depends on. -/
def dependencySerials (taskId : Uuid) : List String :=
  ((db.dependencies.rows.filter fun d => d.active && d.dependentTaskId = taskId).insertionSort
    dependencyOrder).filterMap fun d =>
      ((db.tasks.find? d.blockingTaskId).filter TaskRow.active).map TaskRow.serial

def hasRecurrenceRule (taskId : Uuid) : Bool :=
  db.recurrenceRules.any fun r => r.taskId = taskId && r.deletedAt.isNone

def hydrate (row : TaskRow) : HydratedTask where
  row := row
  isRecurring := hasRecurrenceRule db row.id
  delayReason := row.delayReason.or
    (match (row.customFields.bind fun o => JsObject.get? o "delayReason") with
      | some (.string s) => some s
      | _ => none)
  dependencies := dependencySerials db row.id
  assigneeIds := activeAssigneeIds db row.id
  followerIds := activeFollowerIds db row.id

def findActive (taskId : Uuid) : Option TaskRow := (db.tasks.find? taskId).filter TaskRow.active

def getById (taskId : Uuid) : Except RepoError HydratedTask :=
  match findActive db taskId with
  | none => .error (.notFound "task")
  | some row => .ok (hydrate db row)

/-- The state fields of a stored task, read as JavaScript values. -/
def HydratedTask.current (t : HydratedTask) : TaskStateCurrent where
  status := t.row.status
  priority := t.row.priority
  progress := t.row.progress
  startDate := t.row.startDate.map Timestamptz.toDate
  dueDate := t.row.dueDate.map Timestamptz.toDate
  timezone := t.row.timezone
  isMilestone := t.row.isMilestone
  isRecurring := t.isRecurring

/-- The loop of `parentChain`.  The ancestors found so far are distinct active tasks, so `fuel` above
the number of tasks is never used up. -/
def parentChainFrom : ℕ → List Uuid → Option Uuid → Except RepoError (List Uuid)
  | _, ancestors, none => .ok ancestors
  | 0, _, some _ => .error (.conflict "Task parent hierarchy contains a cycle")
  | fuel + 1, ancestors, some current =>
    if current ∈ ancestors then .error (.conflict "Task parent hierarchy contains a cycle")
    else do
      let parent ← getById db current
      parentChainFrom fuel (ancestors ++ [current]) parent.row.parentId

def parentChain (parentId : Option Uuid) : Except RepoError (List Uuid) :=
  parentChainFrom db (db.tasks.rows.length + 1) [] parentId

def maxSubtaskDepth : ℕ := 5

def requireActiveMembers (userIds : List Uuid) : Except RepoError Unit :=
  if userIds.all (· ∈ db.members) then .ok () else .error (.notFound "task participant")

def resolveCustomFields (rt : Runtime) (projectId : Uuid) (input : Option JsObject)
    (isCreate : Bool) (existing : JsObject) : Except RepoError JsObject :=
  CustomFields.validateAndNormalizeTaskCustomFields rt projectId input
    (db.customFields.filter fun df => df.deletedAt.isNone) isCreate existing

def requireSection (projectId sectionId : Uuid) : Except RepoError Unit :=
  if db.sections.any fun s => s.id = sectionId && s.projectId = projectId && s.deletedAt.isNone then
    .ok ()
  else .error (.notFound "project section")

end Read

/-! ### Constraints -/

/-- The check constraints of `tasks`. -/
def checkTaskRow (row : TaskRow) : Except RepoError Unit := do
  if row.progress < 0 ∨ row.progress > 100 then throw (.database "tasks_progress_check")
  if row.estimatedHours.any (· < .fin 0) then throw (.database "tasks_estimated_hours_check")
  if row.loggedHours < .fin 0 then throw (.database "tasks_logged_hours_check")
  if row.storyPoints.any (· < 0) then throw (.database "tasks_story_points_check")
  if row.isMilestone ∧ (row.startDate = none ∨ row.dueDate ≠ none ∧ row.dueDate ≠ row.startDate) then
    throw (.database "tasks_milestone_dates_check")
  if let (some s, some d) := (row.startDate, row.dueDate) then
    if d < s then throw (.database "tasks_date_range_check")
  if row.version < 1 then throw (.database "tasks_version_check")

/-! ### Participants -/

/-- `INSERT INTO task_followers … ON CONFLICT DO NOTHING` -/
def addFollower (db : Db) (taskId userId : Uuid) (followedAt : Timestamptz) : Db :=
  if db.followers.any fun f => f.taskId = taskId && f.userId = userId && f.unfollowedAt.isNone then
    db
  else { db with followers := db.followers ++ [{ taskId, userId, followedAt }] }

def addFollowers (db : Db) (taskId : Uuid) (userIds : List Uuid) (followedAt : Timestamptz) : Db :=
  userIds.foldl (fun db userId => addFollower db taskId userId followedAt) db

/-- Rewrite the active assignee rows of a task. -/
def updateAssignees (db : Db) (taskId : Uuid) (f : TaskAssigneeRow → TaskAssigneeRow) : Db :=
  { db with assignees := db.assignees.map fun a =>
      if a.taskId = taskId && a.unassignedAt.isNone then f a else a }

/-- Insert an assignee; an active row of the same user is made primary or not instead. -/
def upsertAssignee (db : Db) (taskId userId : Uuid) (isPrimary : Bool) : Db :=
  if db.assignees.any fun a => a.taskId = taskId && a.userId = userId && a.unassignedAt.isNone then
    updateAssignees db taskId fun a => if a.userId = userId then { a with isPrimary } else a
  else
    { db with assignees := db.assignees ++ [{ taskId, userId, isPrimary, assignedAt := db.now }] }

/-- `sync_task_primary_assignee_and_followers`; `old` is the lead before an update. -/
def syncParticipants (db : Db) (old : Option (Option Uuid)) (new : TaskRow) : Db :=
  match new.deletedAt with
  | some deletedAt =>
    let db := updateAssignees db new.id fun a =>
      { a with isPrimary := false, unassignedAt := some deletedAt }
    { db with followers := db.followers.map fun f =>
        if f.taskId = new.id && f.unfollowedAt.isNone then { f with unfollowedAt := some deletedAt }
        else f }
  | none =>
    let db := if old.any (· ≠ new.assigneeId) then
        updateAssignees db new.id fun a =>
          if a.isPrimary then { a with isPrimary := false, unassignedAt := some db.now } else a
      else db
    let db := match new.assigneeId with
      | some lead => addFollower (upsertAssignee db new.id lead true) new.id lead db.now
      | none => db
    match new.reporterId with
    | some reporter => addFollower db new.id reporter db.now
    | none => db

/-- The members check of the followers repository. -/
def requireActiveWatchers (db : Db) (userIds : List Uuid) : Except RepoError Unit :=
  if userIds.all (· ∈ db.members) then .ok ()
  else .error (.denied "All watchers must be active tenant members")

def ensureWatchers (db : Db) (taskId : Uuid) (userIds : List Uuid) : Except RepoError Db := do
  if userIds.isEmpty then return db
  requireActiveWatchers db userIds
  return addFollowers db taskId userIds db.newDate

def unwatch (db : Db) (taskId : Uuid) (userIds : List Uuid) : Db :=
  { db with followers := db.followers.map fun f =>
      if f.taskId = taskId && f.userId ∈ userIds && f.unfollowedAt.isNone then
        { f with unfollowedAt := some db.newDate }
      else f }

def replaceWatchersDelta (db : Db) (taskId : Uuid) (desired : List Uuid) : Except RepoError Db := do
  requireActiveWatchers db desired
  let removed := (activeFollowerIds db taskId).filter (· ∉ desired)
  return addFollowers (unwatch db taskId removed) taskId desired db.newDate

/-! ### Reminders -/

structure TaskReminder where
  id : String
  time : JsDate
  label : String
  sent : Option Bool := none

structure NormalizedReminder where
  id : String
  label : String
  remindAt : ℤ
  sent : Option Bool

def normalizeReminder (r : TaskReminder) : Except RepoError NormalizedReminder :=
  let id := trim r.id
  let label := trim r.label
  match r.time with
  | .time remindAt =>
    if id = "" ∨ utf16Length id > 128 ∨ label = "" ∨ utf16Length label > 255 then
      .error (.conflict "Task reminder data is invalid")
    else .ok { id, label, remindAt, sent := r.sent }
  | .invalid => .error (.conflict "Task reminder data is invalid")

/-- The reminders in their order; the first bad or repeated one decides the error. -/
def normalizeReminders (reminders : List TaskReminder) :
    Except RepoError (List NormalizedReminder) :=
  reminders.foldlM (fun acc r => do
    let n ← normalizeReminder r
    if n.id ∈ acc.map NormalizedReminder.id then
      throw (.conflict "Task reminder ids must be unique")
    return acc ++ [n]) []

def insertReminders (db : Db) (taskId : Uuid) (reminders : List NormalizedReminder) : Db :=
  { db with reminders := db.reminders ++ reminders.map fun r =>
      { taskId, externalId := r.id, remindAt := Timestamptz.ofMillis r.remindAt, label := r.label,
        status := if r.sent = some true then .sent else .scheduled,
        sentAt := if r.sent = some true then some (Timestamptz.ofMillis r.remindAt) else none } }

def closeReminders (db : Db) (taskId : Uuid) (deletedAt : Timestamptz) : Db :=
  { db with reminders := db.reminders.map fun r =>
      if r.taskId = taskId && r.deletedAt.isNone then { r with deletedAt := some deletedAt } else r }

/-! ### Recurrence rules -/

/-- `is_recurring` of one task, with the `updated_at` of the trigger that sets it. -/
def setRecurring (db : Db) (taskId : Uuid) (b : Bool) : Db :=
  { db with
    tasks := db.tasks.update (fun t => t.id = taskId)
      (fun t => { t with isRecurring := some b, updatedAt := db.now }) fun _ => rfl }

/-- Close the active rules of a task.  Each closed row makes `sync_task_recurrence_flag` clear the
flag of the task; what `sync_task_recurrence_rule` then does finds no active rule left. -/
def closeRecurrence (db : Db) (taskId : Uuid) (deletedAt : Timestamptz) : Db :=
  if hasRecurrenceRule db taskId then
    setRecurring
      { db with recurrenceRules := db.recurrenceRules.map fun r =>
          if r.taskId = taskId && r.deletedAt.isNone then { r with deletedAt := some deletedAt }
          else r }
      taskId false
  else db

/-- `validate_task_schedule_scope`, the check constraints and the unique index of an inserted rule,
then `sync_task_recurrence_flag`. -/
def insertRecurrence (rt : Runtime) (db : Db) (rule : TaskRecurrenceRow) : Except RepoError Db := do
  if !rt.pgZone rule.timezone then throw (.database "Task recurrence timezone is invalid")
  if rule.nextOccurrenceAt < rule.startsAt ∨ rule.endsAt.any (· < rule.nextOccurrenceAt) then
    throw (.database "Task recurrence next occurrence is outside its schedule")
  if ¬ rule.weekdays.Nodup then throw (.database "Task recurrence weekdays must be unique")
  if hasRecurrenceRule db rule.taskId then
    throw (.database "task_recurrence_rules_task_active_unique")
  return setRecurring { db with recurrenceRules := db.recurrenceRules ++ [rule] } rule.taskId true

def recurrenceRow (taskId : Uuid) (r : NormalizedRecurrence) :
    Except RepoError TaskRecurrenceRow := do
  let interval ← int4 (.fin r.interval)
  let startsAt ← timestamp r.startsAt
  let endsAt ← r.endsAt.mapM timestamp
  let maxOccurrences ← r.maxOccurrences.mapM fun k : ℤ => int4 (.fin k)
  return { taskId, frequency := r.frequency, interval, timezone := r.timezone,
           weekdays := r.weekdays, monthDay := r.monthDay, startsAt, endsAt, maxOccurrences,
           nextOccurrenceAt := startsAt, status := r.status }

/-- `sync_task_recurrence_rule`, after an update that changed `is_recurring`: a flag that was set
without a rule gets a weekly one, a cleared flag closes the rule. -/
def syncRecurrenceRule (rt : Runtime) (db : Db) (old new : TaskRow) : Except RepoError Db :=
  if old.isRecurring = new.isRecurring then .ok db
  else if new.isRecurring = some true then
    if hasRecurrenceRule db new.id then .ok db
    else
      let startsAt := ((new.dueDate.or new.startDate).getD new.createdAt)
      insertRecurrence rt db { taskId := new.id, startsAt, nextOccurrenceAt := startsAt }
  else if old.isRecurring = some true then .ok (closeRecurrence db new.id db.now)
  else .ok db

end CalmBoard.Tasks
