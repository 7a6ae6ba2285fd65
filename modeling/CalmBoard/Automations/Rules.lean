import CalmBoard.Lib.Lease
import CalmBoard.Schema

/-!
# CalmBoard.Automations.Rules — what a rule does to a task

* `matchesConditions`, `readActions`: the two JSON columns of a rule.
* `taskEvents`, `commentEvent`: the events that a change of a task inserts, and their depth.
* `perform`: the effects of a rule, as its transaction computes them.
-/

namespace CalmBoard.Automations

open Queue

inductive Trigger where
  | taskCreated | taskStatusChanged | taskAssigneeChanged | taskPriorityChanged | commentAdded
  | scheduleDaily
  deriving DecidableEq

def Trigger.label : Trigger → String
  | .taskCreated => "task_created"
  | .taskStatusChanged => "task_status_changed"
  | .taskAssigneeChanged => "task_assignee_changed"
  | .taskPriorityChanged => "task_priority_changed"
  | .commentAdded => "comment_added"
  | .scheduleDaily => "schedule_daily"

/-- The statuses that an event's work ends in, besides `dead`. -/
inductive Closed where
  | sent | skipped

/-- The columns of `tasks` that rules read and write. -/
structure TaskState where
  status : TaskStatus
  priority : TaskPriority
  projectId : Uuid
  assigneeId : Option Uuid := none
  assigneeIds : List Uuid := []
  reporterId : Option Uuid := none
  tags : List String := []

structure TaskRow where
  id : Uuid
  organizationId : Uuid
  workspaceId : Uuid
  serial : String
  state : TaskState
  version : ℕ := 1
  deleted : Bool := false

/-- `automation_events`; times are in milliseconds. -/
structure EventRow where
  id : Uuid
  organizationId : Uuid
  workspaceId : Uuid
  taskId : Uuid
  trigger : Trigger
  taskVersion : ℕ
  actorId : Option Uuid
  current : TaskState
  depth : ℕ
  parentEventId : Option Uuid
  deduplicationKey : String
  lease : Lease Uuid Closed
  createdAt : ℤ

/-- `automations` -/
structure RuleRow where
  id : Uuid
  organizationId : Uuid
  workspaceId : Uuid
  name : String
  trigger : Trigger
  enabled : Bool := true
  deleted : Bool := false
  conditions : JsObject := []
  actions : JsObject := []
  runs : ℕ := 0
  createdAt : ℤ := 0

structure CommentRow where
  id : Uuid
  taskId : Uuid
  userId : Uuid
  content : String
  deduplicationKey : Option String

structure NotificationRow where
  organizationId : Uuid
  userId : Uuid
  title : String
  body : String
  taskId : Uuid
  deduplicationKey : String

/-- How values appear as texts: an id in JSON, a text read as an id, `String(value)`. -/
structure Texts where
  ofUuid : Uuid → String
  toUuid : String → Option Uuid
  display : JsValue → String

/-! ### Conditions and actions -/

/-- `Boolean(value)` -/
def truthy : JsValue → Bool
  | .undefined | .null => false
  | .boolean b => b
  | .number n => n ≠ .nan && n ≠ .fin 0
  | .string s => s ≠ ""
  | .date _ | .array _ | .object _ => true

def JsObject.field (o : JsObject) (key : String) : JsValue := (JsObject.get? o key).getD .undefined

/-- `!value || value === actual` -/
def conditionMet (value : JsValue) (actual : Option String) : Bool :=
  !truthy value ||
    match value with
    | .string s => actual = some s
    | _ => false

def matchesConditions (texts : Texts) (conditions : JsObject) (task : TaskState) : Bool :=
  conditionMet (JsObject.field conditions "status") (some task.status.label) &&
  conditionMet (JsObject.field conditions "priority") (some task.priority.label) &&
  conditionMet (JsObject.field conditions "projectId") (some (texts.ofUuid task.projectId)) &&
  conditionMet (JsObject.field conditions "assigneeId") (task.assigneeId.map texts.ofUuid) &&
  (!truthy (JsObject.field conditions "hasTag") ||
    task.tags.contains (texts.display (JsObject.field conditions "hasTag")))

def stringAction (actions : JsObject) (key : String) (maxLength : ℕ) :
    Except String (Option String) :=
  match JsObject.field actions key with
  | .undefined => .ok none
  | .string s =>
    if Text.trim s = "" ∨ maxLength < Text.utf16Length s then
      .error s!"Automation action {key} is invalid"
    else .ok (some (Text.trim s))
  | _ => .error s!"Automation action {key} is invalid"

inductive NotifyTarget where
  | assignee | reporter | all

def NotifyTarget.ofLabel? : String → Option NotifyTarget
  | "assignee" => some .assignee
  | "reporter" => some .reporter
  | "all" => some .all
  | _ => none

structure Actions where
  setStatus : Option TaskStatus
  setPriority : Option TaskPriority
  assignTo : Option String
  addTag : Option String
  addComment : Option String
  notify : Option NotifyTarget
  notifyTitle : Option String

/-- A text that has to be one of the values of an enumeration. -/
def enumerated {α : Type} (ofLabel? : String → Option α) (message : String) :
    Option String → Except String (Option α)
  | none => .ok none
  | some s =>
    match ofLabel? s with
    | some a => .ok (some a)
    | none => .error message

def readActions (actions : JsObject) : Except String Actions := do
  let setStatus ← stringAction actions "setStatus" 30
  let setPriority ← stringAction actions "setPriority" 30
  let assignTo ← stringAction actions "assignTo" 64
  let addTag ← stringAction actions "addTag" 100
  let addComment ← stringAction actions "addComment" 10000
  let notify ← stringAction actions "notify" 20
  let notifyTitle ← stringAction actions "notifyTitle" 500
  let setStatus ← enumerated TaskStatus.ofLabel? "Automation status action is invalid" setStatus
  let setPriority ←
    enumerated TaskPriority.ofLabel? "Automation priority action is invalid" setPriority
  let notify ←
    enumerated NotifyTarget.ofLabel? "Automation notification target is invalid" notify
  return { setStatus, setPriority, assignTo, addTag, addComment, notify, notifyTitle }

/-! ### Events -/

/-- The automation of a tenant context: the event whose rule is running. -/
structure Automation where
  depth : ℕ
  parentEventId : Uuid

/-- The part of `DatabaseTenantContext` that the repositories put into events. -/
structure Context where
  organizationId : Uuid
  workspaceId : Uuid
  actorId : Option Uuid
  automation : Option Automation

def maxSubtaskDepth : ℕ := 5

/-- `context.automation ? context.automation.depth + 1 : 0` -/
def Context.depth (context : Context) : ℕ :=
  match context.automation with
  | some a => a.depth + 1
  | none => 0

def newEvent (context : Context) (task : TaskRow) (trigger : Trigger) (deduplicationKey : String)
    (id : Uuid) (now : ℤ) : EventRow :=
  { id, organizationId := context.organizationId, workspaceId := context.workspaceId
    taskId := task.id, trigger, taskVersion := task.version, actorId := context.actorId
    current := task.state, depth := context.depth
    parentEventId := context.automation.map Automation.parentEventId, deduplicationKey
    lease := { status := .pending, attempts := 0, maxAttempts := 8, availableAt := now }
    createdAt := now }

def automationEventValues (context : Context) (task : TaskRow) (trigger : Trigger) (id : Uuid)
    (now : ℤ) : EventRow :=
  newEvent context task trigger s!"task/{task.id}/version/{task.version}/{trigger.label}" id now

def changeTriggers (before after : TaskState) : List Trigger :=
  (if before.status ≠ after.status then [.taskStatusChanged] else []) ++
  (if before.priority ≠ after.priority then [.taskPriorityChanged] else []) ++
  (if before.assigneeId ≠ after.assigneeId ∨ before.assigneeIds ≠ after.assigneeIds then
    [.taskAssigneeChanged] else [])

/-- The events of `update`; each takes an id of its own. -/
def taskEvents (context : Context) (task : TaskRow) (triggers : List Trigger) (ids : Trigger → Uuid)
    (now : ℤ) : List EventRow :=
  if context.depth ≤ maxSubtaskDepth then
    triggers.map fun trigger => automationEventValues context task trigger (ids trigger) now
  else []

def commentEvent (context : Context) (task : TaskRow) (comment : CommentRow)
    (ids : Trigger → Uuid) (now : ℤ) : List EventRow :=
  if context.depth ≤ 5 then
    [newEvent context task .commentAdded s!"comment/{comment.id}/comment_added"
      (ids .commentAdded) now]
  else []

/-! ### Effects -/

/-- `AutomationEventCandidate` -/
structure Candidate where
  id : Uuid
  organizationId : Uuid
  workspaceId : Uuid
  taskId : Uuid
  trigger : Trigger
  actorId : Option Uuid
  current : TaskState
  depth : ℕ
  attempt : ℕ
  maxAttempts : ℕ
  claimToken : Uuid

/-- The arguments of `tasks.update`. -/
structure TaskUpdate where
  expectedVersion : ℕ
  status : Option TaskStatus
  priority : Option TaskPriority
  assigneeId : Option Uuid
  tags : Option (List String)

/-- What the transaction learns from the repositories and the clock: who is an active member,
what `tasks.update` returns (`none` where it throws, `some none` where nothing changes), whether
`comments.create` throws, and the ids of new rows. -/
structure Io where
  activeMember : Uuid → Bool := fun _ => true
  updateTask : TaskUpdate → Option (Option TaskState) := fun _ => some none
  mayComment : Bool := true
  commentId : Uuid := 0
  eventId : Trigger → Uuid := fun _ => 0
  now : ℤ := 0

/-- What a rule has done. -/
structure Effects where
  task : Option TaskState := none
  comment : Option CommentRow := none
  notifications : List NotificationRow := []
  events : List EventRow := []
  /-- `No-op: task state already matches action` -/
  noop : Bool := false

/-- `hasAnyGenuineEffect` -/
def Effects.genuine (e : Effects) : Bool :=
  e.task.isSome || e.comment.isSome || !e.notifications.isEmpty

def Candidate.context (c : Candidate) : Context :=
  { organizationId := c.organizationId, workspaceId := c.workspaceId, actorId := c.actorId
    automation := some { depth := c.depth, parentEventId := c.id } }

/-- `[...new Set([...tags, tag])]` -/
def withTag (tags : List String) (tag : Option String) : List String :=
  match tag with
  | some tag => if tags.contains tag then tags else tags ++ [tag]
  | none => tags

def hasTaskMutation (a : Actions) : Bool :=
  a.setStatus.isSome || a.setPriority.isSome || a.assignTo.isSome || a.addTag.isSome

/-- The assignee as an id; it has to be an active member. -/
def checkAssignee (texts : Texts) (io : Io) (a : Actions) : Except String (Option Uuid) :=
  match a.assignTo with
  | none => .ok none
  | some s =>
    match (texts.toUuid s).filter io.activeMember with
    | none => .error "Automation assignee is not an active tenant member"
    | some user => .ok (some user)

/-- The result of `tasks.update`, if there is something to update. -/
def mutateTask (io : Io) (a : Actions) (assignTo : Option Uuid) (task : TaskRow) :
    Except String (Option TaskState) :=
  if hasTaskMutation a then
    let nextTags := withTag task.state.tags a.addTag
    match io.updateTask
      { expectedVersion := task.version, status := a.setStatus, priority := a.setPriority
        assigneeId := assignTo
        tags := if nextTags ≠ task.state.tags then some nextTags else none } with
    | none => .error "Task update failed"
    | some result => .ok result
  else .ok none

/-- A new comment, unless there is one with the key of this event and rule. -/
def addComment (io : Io) (c : Candidate) (ruleId : Uuid) (a : Actions)
    (comments : List CommentRow) : Except String (Option CommentRow) :=
  match a.addComment with
  | none => .ok none
  | some content =>
    match c.actorId with
    | none => .error "Automation comment action requires an authenticated actor"
    | some actor =>
      if !io.activeMember actor then
        .error "Automation comment actor is not an active tenant member"
      else if !io.mayComment then .error "Comment could not be created"
      else
        let key := s!"automation-comment/{c.id}/{ruleId}/comment"
        if comments.any fun x => x.deduplicationKey = some key then .ok none
        else .ok (some { id := io.commentId, taskId := c.taskId, userId := actor, content
                         deduplicationKey := some key })

/-- The users that a rule notifies. -/
def recipients (target : NotifyTarget) (assigneeId reporterId : Option Uuid) : List Uuid :=
  (match target with
    | .assignee => [assigneeId]
    | .reporter => [reporterId]
    | .all => [assigneeId, reporterId]).reduceOption.dedup

/-- The notifications that do not exist yet. -/
def addNotifications (io : Io) (c : Candidate) (rule : RuleRow) (task : TaskRow) (a : Actions)
    (assigneeId : Option Uuid) (notifications : List NotificationRow) : List NotificationRow :=
  match a.notify with
  | none => []
  | some target =>
    (((recipients target assigneeId task.state.reporterId).filter io.activeMember).map fun user =>
      { organizationId := c.organizationId, userId := user
        title := a.notifyTitle.getD s!"أتمتة: {rule.name}"
        body := s!"نُفذت قاعدة الأتمتة للمهمة {task.serial}", taskId := c.taskId
        deduplicationKey := s!"automation-run/{c.id}/{rule.id}/{user}" : NotificationRow }).filter
      fun n => !notifications.any fun x => x.organizationId = n.organizationId &&
        x.userId = n.userId && x.deduplicationKey = n.deduplicationKey

/-- The task after `tasks.update`. -/
def updated (task : TaskRow) : Option TaskState → TaskRow
  | some state => { task with state, version := task.version + 1 }
  | none => task

/-- The events that the repositories insert for these effects. -/
def newEvents (io : Io) (c : Candidate) (task : TaskRow) (changed : Option TaskState)
    (comment : Option CommentRow) : List EventRow :=
  taskEvents c.context (updated task changed)
    (changeTriggers task.state (updated task changed).state) io.eventId io.now ++
  match comment with
  | some comment => commentEvent c.context (updated task changed) comment io.eventId io.now
  | none => []

def effectsOf (io : Io) (c : Candidate) (rule : RuleRow) (task : TaskRow) (a : Actions)
    (changed : Option TaskState) (comment : Option CommentRow)
    (notifications : List NotificationRow) : Effects :=
  let effects : Effects :=
    { task := changed, comment
      notifications :=
        addNotifications io c rule task a (updated task changed).state.assigneeId notifications
      events := newEvents io c task changed comment }
  { effects with
    noop := !effects.genuine && hasTaskMutation a && a.addComment.isNone && a.notify.isNone }

/-- Steps 4 to 8 of `executeRule`. -/
def perform (texts : Texts) (io : Io) (c : Candidate) (rule : RuleRow) (task : TaskRow)
    (comments : List CommentRow) (notifications : List NotificationRow) :
    Except String Effects := do
  let a ← readActions rule.actions
  let assignTo ← checkAssignee texts io a
  let changed ← mutateTask io a assignTo task
  let comment ← addComment io c rule.id a comments
  return effectsOf io c rule task a changed comment notifications

end CalmBoard.Automations
