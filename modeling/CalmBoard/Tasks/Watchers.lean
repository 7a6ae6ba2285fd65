import CalmBoard.Lib.Savepoints
import CalmBoard.Tasks.Repository

/-!
# CalmBoard.Tasks.Watchers — what the task service does after it has written a task

* `createNotification`, `enqueueEmail`, `getDeliveryProfile`: the notifications repository.
* `dispatchWatcherNotifications`: one delivery for each watcher, an error of one is caught.
* `deriveWatcherRelevantTaskChanges`: what the watchers and the new assignees are told.
* `service`: `update` and `move` of the task service, statement by statement.
-/

namespace CalmBoard.Watchers

open Savepoints Tasks

/-! ### The store -/

/-- `users` -/
structure Recipient where
  id : Uuid
  email : String

structure NotificationPreferences where
  userId : Uuid
  emailEnabled : Option Bool := some true
  inAppEnabled : Option Bool := some true

structure CreateNotificationInput where
  userId : Uuid
  type : String
  title : String
  body : Option String := none
  entityType : Option String := none
  entityId : Option Uuid := none
  deduplicationKey : Option String := none
  actionPath : Option String := none
  deriving DecidableEq

structure NotificationRow extends CreateNotificationInput where
  id : Uuid
  isRead : Bool := false
  deriving DecidableEq

/-- `notification_email_outbox` -/
structure NotificationEmailRow where
  id : Uuid
  userId : Uuid
  notificationId : Option Uuid
  subject : String
  body : Option String
  idempotencyKey : String
  deriving DecidableEq

structure ActivityRow where
  actorId : Uuid
  action : String
  entityType : String := "task"
  entityId : Uuid
  oldValues : JsObject
  newValues : JsObject

/-- The tables of a workspace; `ids` are the random ids of new rows, `drawn` says how many have been
used. -/
structure Workspace where
  organizationId : Uuid
  db : Db
  users : Table Recipient Recipient.id := Table.empty
  preferences : List NotificationPreferences := []
  notifications : Table NotificationRow NotificationRow.id := Table.empty
  outbox : Table NotificationEmailRow NotificationEmailRow.id := Table.empty
  activities : List ActivityRow := []
  ids : ℕ → Uuid
  drawn : ℕ := 0

/-- The statements that deliver a notification to one user. -/
inductive Delivery where
  | profileRecipient | user | preferences
  | createRecipient | insertNotification | findNotification
  | emailRecipient | insertEmail | findEmail
  deriving DecidableEq

inductive Statement where
  | setConfig | repository
  | workspace | actor | insertActivity
  | assignee (userId : Uuid) (delivery : Delivery)
  | watchedTask | followers | memberships
  | watcher (userId : Uuid) (delivery : Delivery)
  deriving DecidableEq

def Statement.notifiesWatchers : Statement → Bool
  | .watchedTask | .followers | .memberships | .watcher .. => true
  | .setConfig | .repository | .workspace | .actor | .insertActivity | .assignee .. => false

abbrev Call (α : Type) : Type := Program Statement Workspace RepoError α

/-! ### Notifications -/

section Notifications

variable (label : Delivery → Statement)

def requireRecipient (delivery : Delivery) (userId : Uuid) : Call Unit := do
  let membership ← select (label delivery) fun s => s.db.members.contains userId
  if membership then return () else raise (.notFound "notification recipient")

def newNotification (input : CreateNotificationInput) (s : Workspace) : NotificationRow :=
  { input with id := s.ids s.drawn }

/-- The user has a notification with that key. -/
def sameNotification (input : CreateNotificationInput) (n : NotificationRow) : Bool :=
  n.userId = input.userId && input.deduplicationKey.isSome &&
    n.deduplicationKey = input.deduplicationKey

/-- `insert … on conflict do nothing returning *` -/
def insertNotification (input : CreateNotificationInput) (s : Workspace) :
    Option NotificationRow × Workspace :=
  if s.notifications.rows.any (sameNotification input) then (none, { s with drawn := s.drawn + 1 })
  else
    match s.notifications.insert? (newNotification input s) with
    | none => (none, { s with drawn := s.drawn + 1 })
    | some notifications =>
      (some (newNotification input s), { s with notifications, drawn := s.drawn + 1 })

/-- The row that stood in the way. -/
def existingNotification (input : CreateNotificationInput) : Call NotificationRow :=
  if input.deduplicationKey.isNone then raise (.error "Notification insert did not return a row")
  else do
    let existing ← select (label .findNotification) fun s =>
      s.notifications.rows.find? (sameNotification input)
    match existing with
    | none => raise (.error "Notification deduplication lookup failed")
    | some n => return n

def createNotification (input : CreateNotificationInput) : Call NotificationRow := do
  requireRecipient label .createRecipient input.userId
  let created ← statement (label .insertNotification) fun s => some (insertNotification input s)
  match created with
  | some n => return n
  | none => existingNotification label input

/-- What `validate_notification_email_outbox_scope` asks of a new row. -/
def emailScopeValid (userId : Uuid) (notificationId : Option Uuid) (s : Workspace) : Bool :=
  s.db.members.contains userId &&
    notificationId.all fun id => (s.notifications.find? id).any fun n => n.userId = userId

def emailIdempotencyKey (input : CreateNotificationInput) (s : Workspace) : String :=
  match input.deduplicationKey with
  | some key => s!"notification-email/{s.organizationId}/{input.userId}/{key}"
  | none => s!"notification-email/{s.ids s.drawn}"

def insertEmail (input : CreateNotificationInput) (notificationId : Option Uuid) (s : Workspace) :
    Option NotificationEmailRow × Workspace :=
  let row : NotificationEmailRow :=
    { id := s.ids s.drawn, userId := input.userId, notificationId, subject := input.title
      body := input.body, idempotencyKey := emailIdempotencyKey input s }
  if s.outbox.rows.any fun e => e.idempotencyKey = row.idempotencyKey then
    (none, { s with drawn := s.drawn + 1 })
  else
    match s.outbox.insert? row with
    | none => (none, { s with drawn := s.drawn + 1 })
    | some outbox => (some row, { s with outbox, drawn := s.drawn + 1 })

/-- The e-mail that stood in the way. -/
def existingEmail (key : String) : Call NotificationEmailRow := do
  let existing ← select (label .findEmail) fun s =>
    s.outbox.rows.find? fun e => e.idempotencyKey = key
  match existing with
  | none => raise (.error "Notification email deduplication lookup failed")
  | some e => return e

/-- The statement of `enqueueEmail`, which the trigger may refuse. -/
def enqueue (input : CreateNotificationInput) (notificationId : Option Uuid) (s : Workspace) :
    Option ((Option NotificationEmailRow × String) × Workspace) :=
  if emailScopeValid input.userId notificationId s then
    let inserted := insertEmail input notificationId s
    some ((inserted.1, emailIdempotencyKey input s), inserted.2)
  else none

def enqueueEmail (input : CreateNotificationInput) (notificationId : Option Uuid) :
    Call NotificationEmailRow := do
  requireRecipient label .emailRecipient input.userId
  let created ← statement (label .insertEmail) (enqueue input notificationId)
  match created.1 with
  | some e => return e
  | none => existingEmail label created.2

def requireUser (user : Option Recipient) : Call Recipient :=
  match user with
  | none => raise (.notFound "user")
  | some user => return user

def getDeliveryProfile (userId : Uuid) : Call (Recipient × Option NotificationPreferences) := do
  requireRecipient label .profileRecipient userId
  let user ← select (label .user) fun s => s.users.find? userId
  let user ← requireUser user
  let preferences ← select (label .preferences) fun s =>
    s.preferences.find? fun p => p.userId = userId
  return (user, preferences)

end Notifications

/-! ### Watchers -/

structure DispatchWatcherNotificationInput where
  taskId : Uuid
  actorId : Option Uuid
  excludedUserIds : List Uuid := []
  type : String
  title : String
  body : String
  deduplicationKeyTemplate : Uuid → String
  actionPath : String

def DispatchWatcherNotificationInput.notification (input : DispatchWatcherNotificationInput)
    (userId : Uuid) : CreateNotificationInput :=
  { userId, type := input.type, title := input.title, body := some input.body
    entityType := some "task", entityId := some input.taskId
    deduplicationKey := some (input.deduplicationKeyTemplate userId)
    actionPath := some input.actionPath }

/-- The notification in the application; its id goes into the e-mail. -/
def deliverInApp (input : DispatchWatcherNotificationInput) (userId : Uuid)
    (preferences : Option NotificationPreferences) : Call (Option Uuid) :=
  if preferences.bind NotificationPreferences.inAppEnabled ≠ some false then do
    let created ← createNotification (.watcher userId) (input.notification userId)
    return some created.id
  else return none

/-- One watcher; whether something was delivered. -/
def deliver (input : DispatchWatcherNotificationInput) (userId : Uuid) : Call Bool := do
  let profile ← getDeliveryProfile (.watcher userId) userId
  let notificationId ← deliverInApp input userId profile.2
  if profile.1.email ≠ "" ∧
      profile.2.bind NotificationPreferences.emailEnabled ≠ some false then do
    let _ ← enqueueEmail (.watcher userId) (input.notification userId) notificationId
    return true
  else return notificationId.isSome

/-- The body of the loop over the watchers. -/
def notifyWatcher (input : DispatchWatcherNotificationInput) (notified : List Uuid)
    (userId : Uuid) : Call (List Uuid) :=
  attempt (do
    let delivered ← deliver input userId
    return if delivered ∧ userId ∉ notified then notified ++ [userId] else notified)
    fun _ => return notified

/-- `activeWatcherIds` -/
def activeWatcherIds (taskId : Uuid) : Call (List Uuid) := do
  let task ← select .watchedTask fun s => (findActive s.db taskId).isSome
  if task then select .followers fun s => activeFollowerIds s.db taskId
  else raise (.notFound "task")

/-- The candidates with an active membership. -/
def eligibleWatcherIds (candidates : List Uuid) : Call (List Uuid) :=
  if candidates = [] then return []
  else do
    let active ← select .memberships fun s => s.db.members.filter fun m => candidates.contains m
    return candidates.filter fun userId => active.contains userId

def dispatchWatcherNotifications (input : DispatchWatcherNotificationInput) : Call (List Uuid) := do
  let activeWatchers ← activeWatcherIds input.taskId
  let excluded := input.actorId.toList ++ input.excludedUserIds
  let eligible ← eligibleWatcherIds (activeWatchers.filter fun userId => !excluded.contains userId)
  eligible.foldlM (notifyWatcher input) []

/-! ### Changes -/

structure WatcherRelevantChanges where
  statusChanged : Bool
  priorityChanged : Bool
  scheduleChanged : Bool
  primaryChanged : Bool
  executionAssigneesChanged : Bool
  assigneesChanged : Bool
  addedAssigneeIds : List Uuid
  specificAssignmentRecipientIds : List Uuid
  hasChanges : Bool
  event : String
  body : String

def instantValue (value : Option Timestamptz) : Option ℤ := value.map Timestamptz.millis

def assigneesOf (t : HydratedTask) : List Uuid :=
  if t.assigneeIds = [] then t.row.assigneeId.toList else t.assigneeIds

def deriveWatcherRelevantTaskChanges (before task : HydratedTask) : WatcherRelevantChanges :=
  let beforeAssignees := assigneesOf before
  let afterAssignees := assigneesOf task
  let addedAssigneeIds := afterAssignees.filter fun id => !beforeAssignees.contains id
  let primaryChanged := before.row.assigneeId != task.row.assigneeId
  let executionAssigneesChanged := beforeAssignees.length != afterAssignees.length ||
    beforeAssignees.any (fun id => !afterAssignees.contains id) ||
    afterAssignees.any fun id => !beforeAssignees.contains id
  let assigneesChanged := primaryChanged || executionAssigneesChanged
  let specificAssignmentRecipientIds :=
    (addedAssigneeIds ++ if primaryChanged then task.row.assigneeId.toList else []).eraseDups
  let statusChanged := task.row.status != before.row.status
  let priorityChanged := task.row.priority != before.row.priority
  let scheduleChanged := instantValue task.row.startDate != instantValue before.row.startDate ||
    instantValue task.row.dueDate != instantValue before.row.dueDate
  let told : String × String :=
    if statusChanged then
      ("status_changed", s!"تم تغيير حالة المهمة إلى {task.row.status.label}")
    else if priorityChanged then
      ("priority_changed", s!"تم تغيير أولوية المهمة إلى {task.row.priority.label}")
    else if scheduleChanged then
      ("schedule_changed", s!"تم تحديث الموعد للمهمة {task.row.serial}")
    else if assigneesChanged then
      ("assignees_changed", s!"تم تحديث المكلفين بالمهمة {task.row.serial}")
    else ("task_updated", s!"تم تحديث المهمة {task.row.serial}")
  { statusChanged, priorityChanged, scheduleChanged, primaryChanged, executionAssigneesChanged
    assigneesChanged, addedAssigneeIds, specificAssignmentRecipientIds
    hasChanges := statusChanged || priorityChanged || scheduleChanged || assigneesChanged
    event := told.1, body := told.2 }

/-! ### The service -/

/-- `logActivity`; its errors are swallowed. -/
def logActivity (row : ActivityRow) : Call Unit :=
  attempt (do
    -- the tables are those of one workspace
    select .workspace fun _ => ()
    let membership ← select .actor fun s => s.db.members.contains row.actorId
    if membership then
      statement .insertActivity fun s => some ((), { s with activities := s.activities ++ [row] })
    else raise (.notFound "activity actor"))
    fun _ => return ()

def logActivityOf (actorId : Option Uuid) (row : Uuid → ActivityRow) : Call Unit :=
  match actorId with
  | some actorId => logActivity (row actorId)
  | none => return ()

def assignmentNotification (task : HydratedTask) (userId : Uuid) : CreateNotificationInput :=
  { userId, type := "task_assigned", title := s!"تم تعيين {task.row.serial} لك"
    body := some task.row.title, entityType := some "task", entityId := some task.row.id
    deduplicationKey := some s!"task/{task.row.id}/assigned/{userId}/v{task.row.version}" }

def createAssignmentNotifications (task : HydratedTask) (userIds : List Uuid)
    (notifyActorId : Option Uuid) : Call Unit :=
  userIds.foldlM (fun _ userId =>
    if notifyActorId = some userId then return ()
    else do
      let _ ← createNotification (.assignee userId) (assignmentNotification task userId)
      return ()) ()

def jsId (id : Uuid) : JsValue := .string (toString id)

def jsIdOrNull : Option Uuid → JsValue
  | some id => jsId id
  | none => .null

/-- The values of a task that an update logs. -/
def loggedValues (t : HydratedTask) (followersChanged : Bool) : JsObject :=
  [("status", .string t.row.status.label), ("priority", .string t.row.priority.label),
    ("assigneeId", jsIdOrNull t.row.assigneeId), ("assigneeIds", .array (t.assigneeIds.map jsId))] ++
    if followersChanged then [("followerIds", .array (t.followerIds.map jsId))] else []

def followersChanged (input : UpdateTaskInput) (before task : HydratedTask) : Bool :=
  input.followerIds.isSome &&
    before.followerIds.insertionSort (· ≤ ·) != task.followerIds.insertionSort (· ≤ ·)

inductive ServiceCall where
  | update (taskId : Uuid) (input : UpdateTaskInput)
  | move (taskId : Uuid) (input : MoveTaskInput)

def ServiceCall.taskId : ServiceCall → Uuid
  | .update taskId _ | .move taskId _ => taskId

variable (rt : Runtime)

/-- What the repository makes of the tables. -/
def ServiceCall.write (db : Db) : ServiceCall → Except RepoError Db
  | .update taskId input => Tasks.update rt db taskId input
  | .move taskId input => Tasks.move db rt taskId input

/-- `{ before, task }` -/
def ServiceCall.result (call : ServiceCall) (db : Db) :
    Except RepoError (HydratedTask × HydratedTask × Db) := do
  let before ← getById db call.taskId
  let written ← call.write rt db
  let task ← getById written call.taskId
  return (before, task, written)

/-- The repository's call on the tables; what PostgreSQL refuses is no result. -/
def ServiceCall.effect (call : ServiceCall) (s : Workspace) :
    Option (Except RepoError (HydratedTask × HydratedTask) × Workspace) :=
  match call.result rt s.db with
  | .ok (before, task, db) => some (.ok (before, task), { s with db })
  | .error (.database _) => none
  | .error e => some (.error e, s)

def orRaise : Except RepoError (HydratedTask × HydratedTask) → Call (HydratedTask × HydratedTask)
  | .ok tasks => return tasks
  | .error e => raise e

/-- The repository's call, in a transaction of its own: a savepoint of the request's. -/
def ServiceCall.run (call : ServiceCall) : Call (HydratedTask × HydratedTask) :=
  transaction (statement .repository (call.effect rt)) >>= orRaise

/-- What the watchers are told of an update. -/
def updateNotice (actorId : Option Uuid) (task : HydratedTask) (changes : WatcherRelevantChanges) :
    DispatchWatcherNotificationInput :=
  { taskId := task.row.id, actorId, excludedUserIds := changes.specificAssignmentRecipientIds
    type := "task_watch_update", title := s!"تحديث في المهمة {task.row.serial}"
    body := changes.body
    deduplicationKeyTemplate := fun watcherId =>
      s!"task-watch/{task.row.id}/{changes.event}/v{task.row.version}/{watcherId}"
    actionPath := s!"/?taskId={task.row.id}" }

/-- What they are told of a move. -/
def moveNotice (actorId : Option Uuid) (task : HydratedTask) : DispatchWatcherNotificationInput :=
  { taskId := task.row.id, actorId, type := "task_watch_update"
    title := s!"تحديث في المهمة {task.row.serial}"
    body := s!"تم تغيير حالة المهمة إلى {task.row.status.label}"
    deduplicationKeyTemplate := fun watcherId =>
      s!"task-watch/{task.row.id}/status_changed/v{task.row.version}/{watcherId}"
    actionPath := s!"/?taskId={task.row.id}" }

/-- The dispatch, if there is something to tell; its errors are swallowed. -/
def notifyWatchers (changed : Bool) (input : DispatchWatcherNotificationInput) : Call Unit :=
  if changed then
    attempt (do
      let _ ← dispatchWatcherNotifications input
      return ()) fun _ => return ()
  else return ()

def afterUpdate (actorId : Option Uuid) (input : UpdateTaskInput) (before task : HydratedTask) :
    Call HydratedTask :=
  if task.row.version = before.row.version then return task
  else do
    let changes := deriveWatcherRelevantTaskChanges before task
    let logged := followersChanged input before task
    logActivityOf actorId fun actorId =>
      { actorId, action := "task.updated", entityId := task.row.id
        oldValues := loggedValues before logged, newValues := loggedValues task logged }
    createAssignmentNotifications task changes.specificAssignmentRecipientIds actorId
    notifyWatchers changes.hasChanges (updateNotice actorId task changes)
    return task

def afterMove (actorId : Option Uuid) (before task : HydratedTask) : Call HydratedTask := do
  logActivityOf actorId fun actorId =>
    { actorId, action := "task.moved", entityId := task.row.id
      oldValues := [("status", .string before.row.status.label), ("order", .number before.row.order)]
      newValues := [("status", .string task.row.status.label), ("order", .number task.row.order)] }
  notifyWatchers (task.row.status != before.row.status) (moveNotice actorId task)
  return task

/-- What the service does once the task is written. -/
def ServiceCall.after (actorId : Option Uuid) (before task : HydratedTask) :
    ServiceCall → Call HydratedTask
  | .update _ input => afterUpdate actorId input before task
  | .move .. => afterMove actorId before task

/-- `update` and `move` of the task service -/
def service (actorId : Option Uuid) (call : ServiceCall) : Call HydratedTask := do
  let tasks ← call.run rt
  call.after actorId tasks.1 tasks.2

/-- The service under the settings of the tenant. -/
def body (actorId : Option Uuid) (call : ServiceCall) : Call HydratedTask := do
  select .setConfig fun _ => ()
  service rt actorId call

/-- The request: one transaction. -/
def request (actorId : Option Uuid) (call : ServiceCall) : Call HydratedTask :=
  transaction (body rt actorId call)

end CalmBoard.Watchers
