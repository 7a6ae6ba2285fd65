import CalmBoard.Tasks.Repository
import CalmBoard.Sprints.Timeline
import CalmBoard.Lib.Runs

/-!
# CalmBoard.System — a workspace under a sequence of requests

One workspace, its task and sprint repositories called one after the other.  A call that fails is
rolled back; between calls time passes, and serial numbers and ids are used up elsewhere (serials
belong to the organization, a failed call does not give its numbers back).

* `Request`, `step`: the calls that write.
* `initial`: a workspace before its first task.
-/

namespace CalmBoard

inductive Request where
  | elapse (micros serials uuids : ℕ)
  | createTask (input : Tasks.CreateTaskInput)
  | updateTask (taskId : Uuid) (input : Tasks.UpdateTaskInput)
  | moveTask (taskId : Uuid) (input : Tasks.MoveTaskInput)
  | softDeleteTask (taskId : Uuid)
  | createSprint (input : Sprints.CreateSprintInput)
  | startSprint (id projectId : Uuid)
  | completeSprint (id projectId : Uuid) (incompleteDestination : Sprints.IncompleteDestination)
  | cancelSprint (id projectId : Uuid)
  | assignTaskToSprint (taskId sprintId : Uuid)
  | removeTaskFromSprint (taskId : Uuid)
  | moveTaskBetweenSprints (taskId : Uuid) (targetSprintId : Option Uuid)
      (expectedFromSprintId : Option (Option Uuid))

def elapse (micros serials uuids : ℕ) (db : Db) : Db :=
  { db with
    now := ⟨db.now.micros + micros⟩
    serialNext := db.serialNext + serials
    uuidCount := db.uuidCount + uuids }

def step (rt : Runtime) (request : Request) (db : Db) : Except RepoError Db :=
  match request with
  | .elapse micros serials uuids => .ok (elapse micros serials uuids db)
  | .createTask input => Tasks.create rt db input
  | .updateTask taskId input => Tasks.update rt db taskId input
  | .moveTask taskId input => Tasks.move db rt taskId input
  | .softDeleteTask taskId => Tasks.softDelete db taskId
  | .createSprint input => Sprints.createSprint db input
  | .startSprint id projectId => Sprints.startSprint db id projectId
  | .completeSprint id projectId dest => Sprints.completeSprint db id projectId dest
  | .cancelSprint id projectId => Sprints.cancelSprint db id projectId
  | .assignTaskToSprint taskId sprintId => Sprints.assignTaskToSprint db taskId sprintId
  | .removeTaskFromSprint taskId => Sprints.removeTaskFromSprint db taskId
  | .moveTaskBetweenSprints taskId target expected =>
    Sprints.moveTaskBetweenSprints db taskId target expected

/-- What exists in a workspace before its first task. -/
structure Setup where
  now : Timestamptz
  uuids : ℕ → Uuid
  members : List Uuid
  projects : List ProjectRow
  sections : List ProjectSectionRow
  wipLimits : List ProjectWipLimitRow
  customFields : List CustomFieldRow

/-- A workspace without tasks and sprints. -/
def initial (setup : Setup) : Db where
  now := setup.now
  uuids := setup.uuids
  uuidCount := 0
  members := setup.members
  projects := setup.projects
  sections := setup.sections
  wipLimits := setup.wipLimits
  customFields := setup.customFields
  serialNext := Tasks.firstTaskSerialNumber
  tasks := .empty
  assignees := []
  followers := []
  dependencies := .empty
  reminders := []
  recurrenceRules := []
  sprints := .empty
  assignments := []
  snapshots := []
  events := []

/-- The workspace after a sequence of requests. -/
def after (rt : Runtime) (setup : Setup) (requests : List Request) : Db :=
  Runs.run (step rt) (initial setup) requests

/-! ### A small workspace -/

/-- A runtime that knows the zone `UTC` and no URL. -/
def utcRuntime : Runtime where
  validZone z := z = "UTC"
  pgZone z := z = "UTC"
  httpUrl _ := false
  double q := .fin q
  numberText
    | .fin q => toString q.num
    | _ => "NaN"
  dateText _ := "Thu Jan 01 1970 00:00:00 GMT+0000 (Coordinated Universal Time)"
  localDate zone ms :=
    if zone = "UTC" then
      some (String.ofList (IsoDate.yearText (IsoDate.utcDate ms).year ++ '-' ::
        IsoDate.pad2 (IsoDate.utcDate ms).month ++ '-' :: IsoDate.pad2 (IsoDate.utcDate ms).day))
    else none

/-- One project without sections, limits and custom fields, one member. -/
def smallSetup : Setup where
  now := ⟨0⟩
  uuids n := n + 100
  members := [1]
  projects := [{ id := 7 }]
  sections := []
  wipLimits := []
  customFields := []

end CalmBoard
