import CalmBoard.Values
import CalmBoard.Lib.Table

/-!
# CalmBoard.Schema — the tables behind the task and sprint repositories

One workspace of one organization: the tenant columns are the same in every row a repository can
see and are left out.  Column defaults are the schema's.

* `TaskRow`, `SprintRow`, … : one structure per table.
* `Db`: all tables, the serial sequence and the clock that `now()` and `new Date()` read.
-/

namespace CalmBoard

/-! ### Enumerations, in the order of their declaration -/

inductive TaskStatus where
  | backlog | todo | inProgress | review | done | canceled
  deriving DecidableEq

inductive TaskPriority where
  | low | medium | high | urgent
  deriving DecidableEq

inductive SprintStatus where
  | planned | active | completed | cancelled
  deriving DecidableEq

inductive SprintEventType where
  | taskAdded | taskRemoved | storyPointsChanged | taskCompleted | taskReopened

inductive SprintSnapshotType where
  | start | complete
  deriving DecidableEq

inductive SprintDataQuality where
  | exact | reconstructed | partly
  deriving DecidableEq

inductive TaskDependencyType where
  | finishToStart | startToStart | finishToFinish | startToFinish
  deriving DecidableEq

inductive TaskRecurrenceFrequency where
  | daily | weekly | monthly | yearly

inductive TaskRecurrenceStatus where
  | active | paused | completed

inductive TaskReminderStatus where
  | scheduled | sent | failed

namespace TaskStatus

/-- The enum label stored in the database. -/
def label : TaskStatus → String
  | .backlog => "backlog"
  | .todo => "todo"
  | .inProgress => "in_progress"
  | .review => "review"
  | .done => "done"
  | .canceled => "canceled"

/-- PostgreSQL compares enum values by their position in the declaration. -/
def rank : TaskStatus → ℕ
  | .backlog => 0
  | .todo => 1
  | .inProgress => 2
  | .review => 3
  | .done => 4
  | .canceled => 5

theorem rank_injective : Function.Injective rank := by
  intro a b h
  cases a <;> cases b <;> first | rfl | cases h

instance : LinearOrder TaskStatus := LinearOrder.lift' rank rank_injective

def all : List TaskStatus := [.backlog, .todo, .inProgress, .review, .done, .canceled]

/-- The cast of a text parameter to the enum. -/
def ofLabel? (s : String) : Option TaskStatus := all.find? fun v => v.label = s

end TaskStatus

namespace TaskPriority

/-- The enum label stored in the database. -/
def label : TaskPriority → String
  | .low => "low"
  | .medium => "medium"
  | .high => "high"
  | .urgent => "urgent"

def rank : TaskPriority → ℕ
  | .low => 0
  | .medium => 1
  | .high => 2
  | .urgent => 3

theorem rank_injective : Function.Injective rank := by
  intro a b h
  cases a <;> cases b <;> first | rfl | cases h

instance : LinearOrder TaskPriority := LinearOrder.lift' rank rank_injective

def all : List TaskPriority := [.low, .medium, .high, .urgent]

/-- The cast of a text parameter to the enum. -/
def ofLabel? (s : String) : Option TaskPriority := all.find? fun v => v.label = s

end TaskPriority

/-! ### Rows -/

structure TaskRow where
  id : Uuid
  projectId : Uuid
  sectionId : Option Uuid := none
  parentId : Option Uuid := none
  serial : String
  title : String
  description : Option String := none
  status : TaskStatus := .todo
  priority : TaskPriority := .medium
  assigneeId : Option Uuid := none
  reporterId : Option Uuid := none
  dueDate : Option Timestamptz := none
  startDate : Option Timestamptz := none
  timezone : String := "UTC"
  estimatedHours : Option Number := none
  loggedHours : Number := .fin 0
  progress : ℤ := 0
  order : Number := .fin 0
  tags : Option (List String) := some []
  customFields : Option JsObject := some []
  isMilestone : Bool := false
  isRecurring : Option Bool := some false
  sprintId : Option Uuid := none
  storyPoints : Option ℤ := none
  delayReason : Option String := none
  version : ℤ := 1
  createdAt : Timestamptz
  updatedAt : Timestamptz
  deletedAt : Option Timestamptz := none

def TaskRow.active (t : TaskRow) : Bool := t.deletedAt.isNone

structure TaskAssigneeRow where
  taskId : Uuid
  userId : Uuid
  isPrimary : Bool := false
  assignedAt : Timestamptz
  unassignedAt : Option Timestamptz := none

structure TaskFollowerRow where
  taskId : Uuid
  userId : Uuid
  followedAt : Timestamptz
  unfollowedAt : Option Timestamptz := none

structure TaskDependencyRow where
  id : Uuid
  blockingTaskId : Uuid
  dependentTaskId : Uuid
  type : TaskDependencyType := .finishToStart
  lagMinutes : ℤ := 0
  createdAt : Timestamptz
  deletedAt : Option Timestamptz := none

def TaskDependencyRow.active (d : TaskDependencyRow) : Bool := d.deletedAt.isNone

structure TaskReminderRow where
  taskId : Uuid
  externalId : String
  remindAt : Timestamptz
  label : String
  status : TaskReminderStatus := .scheduled
  sentAt : Option Timestamptz := none
  deletedAt : Option Timestamptz := none

/-- `task_recurrence_rules` -/
structure TaskRecurrenceRow where
  taskId : Uuid
  frequency : TaskRecurrenceFrequency := .weekly
  interval : ℤ := 1
  timezone : String := "UTC"
  weekdays : List ℤ := []
  monthDay : Option ℤ := none
  startsAt : Timestamptz
  endsAt : Option Timestamptz := none
  maxOccurrences : Option ℤ := none
  nextOccurrenceAt : Timestamptz
  status : TaskRecurrenceStatus := .active
  deletedAt : Option Timestamptz := none

structure ProjectRow where
  id : Uuid
  deletedAt : Option Timestamptz := none

structure ProjectSectionRow where
  id : Uuid
  projectId : Uuid
  deletedAt : Option Timestamptz := none

structure ProjectWipLimitRow where
  projectId : Uuid
  status : TaskStatus
  limit : ℤ

inductive CustomFieldType where
  | shortText | number | date | singleSelect | checkbox | url
  deriving DecidableEq

structure CustomFieldOption where
  label : String
  value : String
  deriving DecidableEq

structure CustomFieldRow where
  projectId : Option Uuid := none
  key : String
  type : CustomFieldType
  options : List CustomFieldOption := []
  required : Bool := false
  sensitive : Bool := false
  deletedAt : Option Timestamptz := none

structure SprintRow where
  id : Uuid
  projectId : Uuid
  name : String
  goal : Option String := none
  status : SprintStatus := .planned
  startsAt : Option Timestamptz := none
  endsAt : Option Timestamptz := none
  startedAt : Option Timestamptz := none
  completedAt : Option Timestamptz := none
  cancelledAt : Option Timestamptz := none
  createdAt : Timestamptz
  updatedAt : Timestamptz
  deletedAt : Option Timestamptz := none
  deriving DecidableEq

structure TaskSprintAssignmentRow where
  taskId : Uuid
  sprintId : Uuid
  projectId : Uuid
  assignedAt : Timestamptz
  removedAt : Option Timestamptz := none

/-- An assignment that has not been closed. -/
def TaskSprintAssignmentRow.opened (a : TaskSprintAssignmentRow) : Bool := a.removedAt.isNone

/-- The six counters of a snapshot or of a point of the timeline. -/
structure SprintCounters where
  scopeTaskCount : ℤ
  scopeStoryPoints : ℤ
  completedTaskCount : ℤ
  completedStoryPoints : ℤ
  remainingTaskCount : ℤ
  remainingStoryPoints : ℤ
  deriving DecidableEq

structure SprintSnapshotRow where
  projectId : Uuid
  sprintId : Uuid
  snapshotType : SprintSnapshotType
  dataQuality : SprintDataQuality
  counters : SprintCounters
  capturedAt : Timestamptz
  deriving DecidableEq

/-- `sprint_analytics_events`; the identity column `event_sequence` grows with every insert. -/
structure SprintEventRow where
  projectId : Uuid
  sprintId : Uuid
  taskId : Uuid
  eventSequence : ℕ
  eventType : SprintEventType
  storyPointsAtEvent : Option ℤ
  isCompletedAtEvent : Bool
  oldStoryPoints : Option ℤ := none
  newStoryPoints : Option ℤ := none
  occurredAt : Timestamptz

/-! ### The database -/

/-- The tables of one workspace.  `members` are the users with an active membership there; `uuids`
are the values `gen_random_uuid()` returns, call by call. -/
structure Db where
  now : Timestamptz
  uuids : ℕ → Uuid
  uuidCount : ℕ
  members : List Uuid
  projects : List ProjectRow
  sections : List ProjectSectionRow
  wipLimits : List ProjectWipLimitRow
  customFields : List CustomFieldRow
  serialNext : ℕ
  tasks : Table TaskRow TaskRow.id
  assignees : List TaskAssigneeRow
  followers : List TaskFollowerRow
  dependencies : Table TaskDependencyRow TaskDependencyRow.id
  reminders : List TaskReminderRow
  recurrenceRules : List TaskRecurrenceRow
  sprints : Table SprintRow SprintRow.id
  assignments : List TaskSprintAssignmentRow
  snapshots : List SprintSnapshotRow
  events : List SprintEventRow

/-- `new Date()` -/
def Db.newDate (db : Db) : Timestamptz := .ofMillis db.now.millis

end CalmBoard
