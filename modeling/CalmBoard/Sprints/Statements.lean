import CalmBoard.Sprints.Repository
import CalmBoard.Lib.Transactions

/-!
# CalmBoard.Sprints.Statements — sprint transactions side by side

`assignTaskToSprint`, `moveTaskBetweenSprints`, `completeSprint` and `cancelSprint`, statement by
statement.  The status of the sprint that tasks go to is read without a lock; a sprint that is closed
is locked `FOR UPDATE`.

* `Lock`: row locks, by the mode in which they are taken.
* `Write`: what a statement writes.
* `Point`, `statement`: the transactions.
-/

namespace CalmBoard.Sprints.Statements

open Transactions

/-! ### Locks -/

inductive Mode where
  | keyShare | share | noKeyUpdate | update

/-- The row locks that exclude each other. -/
def Mode.conflicts : Mode → Mode → Bool
  | .keyShare, .update | .update, .keyShare => true
  | .keyShare, _ | _, .keyShare => false
  | .share, .share => false
  | _, _ => true

/-- Locks on rows of `tasks` and `sprints`; `assignment` is the entry of a task in
`task_sprint_assignments_active_unique`, together with its open row. -/
inductive Lock where
  | task (id : Uuid) (mode : Mode)
  | sprint (id : Uuid) (mode : Mode)
  | assignment (taskId : Uuid)

def Lock.conflicts : Lock → Lock → Bool
  | .task a m, .task b n => a = b && m.conflicts n
  | .sprint a m, .sprint b n => a = b && m.conflicts n
  | .assignment a, .assignment b => a = b
  | _, _ => false

theorem Mode.conflicts_symm (m n : Mode) : m.conflicts n = n.conflicts m := by
  cases m <;> cases n <;> rfl

theorem Lock.conflicts_symm (k k' : Lock) : k.conflicts k' = k'.conflicts k := by
  cases k <;> cases k' <;> simp [Lock.conflicts, eq_comm, Mode.conflicts_symm]

/-! ### Writes -/

/-- The tables, and for each `complete` snapshot the tasks that were in its sprint. -/
structure Store where
  db : Db
  captured : List (Uuid × List Uuid)

inductive Write where
  /-- closes the open rows of these tasks and sprints -/
  | close (rows : List (Uuid × Uuid))
  | assign (taskId projectId sprintId : Uuid)
  | point (taskIds : List Uuid) (sprintId : Option Uuid)
  | event (eventType : SprintEventType) (task : TaskRow) (sprint : SprintRow)
  | snapshot (sprint : SprintRow) (counters : SprintCounters) (taskIds : List Uuid)
  | sprint (row : SprintRow)

def scopeEvent (eventType : SprintEventType) (task : TaskRow) : AnalyticsEventPayload :=
  { eventType, storyPointsAtEvent := task.storyPoints
    isCompletedAtEvent := isTaskCompletedStatus task.status }

def Write.apply (w : Write) (s : Store) : Store :=
  match w with
  | .close rows =>
    { s with db := closeAssignments s.db fun a => rows.contains (a.taskId, a.sprintId) }
  | .assign taskId projectId sprintId =>
    { s with db := (openAssignment s.db taskId projectId (some sprintId)).toOption.getD s.db }
  | .point taskIds sprintId =>
    { s with db := pointTasks s.db (fun t => taskIds.contains t.id) sprintId }
  | .event eventType task row =>
    { s with
      db := appendSprintAnalyticsEvent s.db row.projectId row.id task.id s.db.newDate
        (scopeEvent eventType task) }
  | .snapshot row counters taskIds =>
    { db := (insertSprintSnapshot s.db row.projectId row.id .complete counters).toOption.getD s.db
      captured := s.captured ++ [(row.id, taskIds)] }
  | .sprint row => { s with db := { s.db with sprints := s.db.sprints.put row } }

/-! ### Transactions -/

inductive Call where
  | assignTaskToSprint (taskId sprintId : Uuid)
  | moveTaskBetweenSprints (taskId : Uuid) (targetSprintId : Option Uuid)
      (expectedFromSprintId : Option (Option Uuid))
  | completeSprint (id projectId : Uuid) (incompleteDestination : IncompleteDestination)
  | cancelSprint (id projectId : Uuid)

/-- A task, where it goes, and that sprint as it was read; `moved` for `moveTaskBetweenSprints`. -/
structure Placement where
  task : TaskRow
  target : Option Uuid
  sprint : Option SprintRow
  moved : Bool

/-- A sprint that is completed, and the sprint that takes over. -/
structure Completion where
  sprint : SprintRow
  target : Option Uuid

/-- Where a transaction is: what it has read so far. -/
inductive Point where
  | called (call : Call)
  -- the task is locked
  | assigning (task : TaskRow) (sprintId : Uuid)
  | moving (task : TaskRow) (target : Option Uuid) (expected : Option (Option Uuid))
  | checked (p : Placement)
  | closed (p : Placement)
  | opened (p : Placement)
  | pointed (p : Placement)
  | sourced (p : Placement) (source : Option SprintRow)
  | announcing (task : TaskRow) (events : List (SprintEventType × SprintRow))
  -- the sprint is locked
  | completing (sprint : SprintRow) (dest : IncompleteDestination)
  | destined (c : Completion)
  | verified (c : Completion)
  | counted (c : Completion) (counters : SprintCounters) (taskIds : List Uuid)
  | captured (c : Completion)
  | releasing (c : Completion) (todo : List Uuid)
  | unassigned (c : Completion) (taskId : Uuid) (todo : List Uuid)
  | reassigned (c : Completion) (taskId : Uuid) (todo : List Uuid)
  | cancelling (sprint : SprintRow)
  | swept (sprint : SprintRow)
  | emptied (sprint : SprintRow)
  | finished

abbrev Result := Outcome Point Lock Write RepoError

/-- A statement that may fail. -/
def orFail {α : Type} (r : Except RepoError α) (next : α → Result) : Result :=
  match r with
  | .error e => .fail e
  | .ok a => next a

/-- The first statement: the task or the sprint, `FOR UPDATE`. -/
def select (db : Db) : Call → Result
  | .assignTaskToSprint taskId sprintId =>
    match (db.tasks.find? taskId).filter TaskRow.active with
    | none => .fail taskNotFound
    | some task => .next (.assigning task sprintId) [.task task.id .update] []
  | .moveTaskBetweenSprints taskId target expected =>
    match (db.tasks.find? taskId).filter TaskRow.active with
    | none => .fail taskNotFound
    | some task => .next (.moving task target expected) [.task task.id .update] []
  | .completeSprint id projectId dest =>
    orFail (requireSprint db id projectId) fun sprint =>
      .next (.completing sprint dest) [.sprint sprint.id .update] []
  | .cancelSprint id projectId =>
    orFail (requireSprint db id projectId) fun sprint =>
      .next (.cancelling sprint) [.sprint sprint.id .update] []

/-- Read the sprint a task goes to; there is no lock on it yet. -/
def checkTarget (db : Db) (task : TaskRow) (target : Option Uuid) (moved : Bool)
    (missing : RepoError) : Result :=
  orFail (requireTarget db task missing target) fun _ =>
    .next (.checked { task, target, sprint := target.bind (findSprint db), moved }) [] []

/-- Task and sprint of the open assignments that `p` selects. -/
def selectRows (db : Db) (p : TaskSprintAssignmentRow → Bool) : List (Uuid × Uuid) :=
  (db.assignments.filter fun a => p a && a.opened).map fun a => (a.taskId, a.sprintId)

/-- `UPDATE task_sprint_assignments SET removed_at = …` -/
def closeRows (db : Db) (p : TaskSprintAssignmentRow → Bool) (point : Point) : Result :=
  let rows := selectRows db p
  .next point (rows.map fun row => .assignment row.1) [.close rows]

/-- `INSERT INTO task_sprint_assignments`, where there is a target; its foreign keys lock the task and
the sprint. -/
def insertRow (db : Db) (taskId projectId : Uuid) (target : Option Uuid) (point : Point) : Result :=
  match target with
  | none => .next point [] []
  | some sprintId =>
    orFail (openAssignment db taskId projectId target) fun _ =>
      .next point [.assignment taskId, .task taskId .keyShare, .sprint sprintId .keyShare]
        [.assign taskId projectId sprintId]

/-- `UPDATE tasks SET sprint_id = …` -/
def pointRows (taskIds : List Uuid) (target : Option Uuid) (point : Point) : Result :=
  .next point (taskIds.map fun id => .task id .noKeyUpdate) [.point taskIds target]

def eventFor (eventType : SprintEventType) (sprint : Option SprintRow) :
    List (SprintEventType × SprintRow) :=
  (sprint.filter fun s => s.status = .active).toList.map fun s => (eventType, s)

/-- The tasks that point to a sprint. -/
def pointingTo (db : Db) (sprintId : Uuid) : List Uuid :=
  (db.tasks.rows.filter fun t => t.sprintId = some sprintId).map TaskRow.id

/-- A sprint is completed or cancelled. -/
def closeSprint (row : SprintRow) : Result := .next .finished [] [.sprint row]

def statement (point : Point) (s : Store) : Result :=
  let db := s.db
  match point with
  | .called call => select db call
  | .assigning task sprintId =>
    if task.sprintId = some sprintId then .commit
    else checkTarget db task (some sprintId) false sprintNotFound
  | .moving task target expected =>
    if expected.any (· ≠ task.sprintId) then
      .fail (.conflict "Optimistic concurrency failure: Task is no longer in the expected sprint")
    else if task.sprintId = target then .commit
    else checkTarget db task target true (.conflict "Target sprint not found")
  | .checked p => closeRows db (fun a => a.taskId = p.task.id) (.closed p)
  | .closed p => insertRow db p.task.id p.task.projectId p.target (.opened p)
  | .opened p => pointRows [p.task.id] p.target (.pointed p)
  | .pointed p =>
    -- `moveTaskBetweenSprints` reads the sprints again, `assignTaskToSprint` does not
    if p.moved then .next (.sourced p (p.task.sprintId.bind db.sprints.find?)) [] []
    else .next (.announcing p.task (eventFor .taskAdded p.sprint)) [] []
  | .sourced p source =>
    .next (.announcing p.task (eventFor .taskRemoved source ++
      eventFor .taskAdded (p.target.bind db.sprints.find?))) [] []
  | .announcing _ [] => .commit
  | .announcing task ((eventType, sprint) :: events) =>
    .next (.announcing task events) [.task task.id .keyShare, .sprint sprint.id .keyShare]
      [.event eventType task sprint]
  | .completing sprint dest =>
    if sprint.status ≠ .active then .fail (.conflict "Only active sprints can be completed")
    else
      orFail (requireDestination db sprint.id sprint.projectId dest) fun target =>
        .next (.destined { sprint, target }) [] []
  | .destined c =>
    -- the second query of the check adds nothing: it looks at what the first one has locked
    orFail (verifySprintMembershipConsistency db c.sprint.id) fun _ =>
      .next (.verified c) ((sprintTasks db c.sprint.id).map fun t => .task t.id .share) []
  | .verified c =>
    .next (.counted c (sprintStats db c.sprint.id) (pointingTo db c.sprint.id)) [] []
  | .counted c counters taskIds =>
    orFail (insertSprintSnapshot db c.sprint.projectId c.sprint.id .complete counters) fun _ =>
      .next (.captured c) [] [.snapshot c.sprint counters taskIds]
  | .captured c => .next (.releasing c (unfinishedTasks db c.sprint.id)) [] []
  | .releasing c [] =>
    closeSprint { c.sprint with
      status := .completed, completedAt := some db.newDate, updatedAt := db.newDate }
  | .releasing c (taskId :: todo) =>
    closeRows db (fun a => a.taskId = taskId && a.sprintId = c.sprint.id)
      (.unassigned c taskId todo)
  | .unassigned c taskId todo =>
    insertRow db taskId c.sprint.projectId c.target (.reassigned c taskId todo)
  | .reassigned c taskId todo => pointRows [taskId] c.target (.releasing c todo)
  | .cancelling sprint =>
    if sprint.status = .completed ∨ sprint.status = .cancelled then
      .fail (.conflict "Cannot cancel this sprint")
    else closeRows db (fun a => a.sprintId = sprint.id) (.swept sprint)
  | .swept sprint => pointRows (pointingTo db sprint.id) none (.emptied sprint)
  | .emptied sprint =>
    closeSprint { sprint with
      status := .cancelled, cancelledAt := some db.newDate, updatedAt := db.newDate }
  | .finished => .commit

def script : Script Call Store Point Lock Write RepoError where
  first := .called
  apply := Write.apply
  statement := statement
  conflict := Lock.conflicts
  conflict_symm := Lock.conflicts_symm

end CalmBoard.Sprints.Statements
