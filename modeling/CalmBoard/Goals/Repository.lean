import CalmBoard.Schema
import CalmBoard.Lib.Runs

/-!
# CalmBoard.Goals.Repository — objectives, key results and the tasks linked to them

One workspace; the tenant columns are the same in every row and are left out.  Doubles are finite
here, and `double` is their rounding.

* `refreshGoalProgress`, `refreshParentGoal`: the refresh and the trigger that calls it again for the
  parent; `depth` is how many calls the stack has room for.
* `refreshGoalFromLink`, `refreshGoalsFromTask`: the triggers of the links and of the tasks.
* `create`, `update`, `checkIn`, `linkTask`, `unlinkTask`: the calls.
* `updateTasks`, `deleteTasks`: statements on tasks.
-/

namespace CalmBoard.Goals

inductive GoalType where
  | objective | keyResult
  deriving DecidableEq

inductive GoalProgressMode where
  | manual | measurement | tasks | children
  deriving DecidableEq

inductive GoalMeasurementUnit where
  | percentage | number | currency | boolean

inductive GoalStatus where
  | onTrack | atRisk | offTrack | achieved

structure GoalRow where
  id : Uuid
  title : String
  description : Option String := none
  type : GoalType
  parentId : Option Uuid := none
  progress : ℤ := 0
  status : GoalStatus := .offTrack
  progressMode : GoalProgressMode := .manual
  measurementUnit : GoalMeasurementUnit := .percentage
  startValue : ℚ := 0
  currentValue : ℚ := 0
  targetValue : ℚ := 100
  weight : ℚ := 1
  ownerId : Option Uuid := none
  periodStart : Option Timestamptz := none
  periodEnd : Option Timestamptz := none
  createdAt : Timestamptz
  updatedAt : Timestamptz
  deletedAt : Option Timestamptz := none

def GoalRow.active (g : GoalRow) : Bool := g.deletedAt.isNone

/-- `goal_task_links` -/
structure LinkRow where
  id : Uuid
  goalId : Uuid
  taskId : Uuid
  weight : ℚ := 1
  createdById : Uuid
  createdAt : Timestamptz

/-- `goal_checkins` -/
structure CheckinRow where
  id : Uuid
  goalId : Uuid
  progress : ℤ
  currentValue : Option ℚ
  status : GoalStatus
  note : String
  createdById : Option Uuid
  createdAt : Timestamptz

/-- The columns of `tasks` that goals read. -/
structure TaskRow where
  id : Uuid
  progress : ℤ := 0
  status : TaskStatus := .backlog
  deletedAt : Option Timestamptz := none

def TaskRow.active (t : TaskRow) : Bool := t.deletedAt.isNone

structure Store where
  members : List Uuid
  goals : Table GoalRow GoalRow.id
  links : Table LinkRow LinkRow.id
  checkins : Table CheckinRow CheckinRow.id
  tasks : Table TaskRow TaskRow.id

/-- What a request takes from outside: the time, the actor, ids that are drawn, and the room on the
stack of the database. -/
structure Context where
  now : Timestamptz
  actorId : Option Uuid := none
  ids : ℕ → Uuid
  depth : ℕ

section Doubles

variable (double : ℚ → ℚ)

/-! ### Progress -/

/-- `ROUND` of a double, and `::integer`. -/
def round (q : ℚ) : ℤ :=
  let floor := q.floor
  if q - floor < 1 / 2 then floor
  else if 1 / 2 < q - floor then floor + 1
  else if floor % 2 = 0 then floor else floor + 1

/-- `ROUND` of a `numeric`. -/
def roundNumeric (q : ℚ) : ℤ := if q < 0 then -(-q + 1 / 2).floor else (q + 1 / 2).floor

/-- `Math.round` -/
def mathRound (q : ℚ) : ℤ := (q + 1 / 2).floor

def clamp (n : ℤ) : ℤ := max 0 (min 100 n)

def sum (qs : List ℚ) : ℚ := qs.foldl (fun total q => double (total + q)) 0

/-- `COALESCE(ROUND(SUM(progress * weight) / NULLIF(SUM(weight), 0))::integer, 0)` -/
def weightedMean (rows : List (ℤ × ℚ)) : ℤ :=
  let weights := sum double (rows.map Prod.snd)
  if weights = 0 then 0
  else round (double (sum double (rows.map fun r => double (r.1 * r.2)) / weights))

/-- The linked tasks of a goal that are not deleted, with the weights of their links. -/
def Store.linkedTasks (s : Store) (goalId : Uuid) : List (ℤ × ℚ) :=
  (s.links.rows.filter fun l => l.goalId = goalId).filterMap fun l =>
    ((s.tasks.find? l.taskId).filter TaskRow.active).map fun t => (t.progress, l.weight)

/-- The children of a goal that are not deleted, with their weights. -/
def Store.children (s : Store) (goalId : Uuid) : List (ℤ × ℚ) :=
  (s.goals.rows.filter fun c => c.parentId = some goalId && c.active).map fun c =>
    (c.progress, c.weight)

def integer (n : ℤ) : Except RepoError ℤ :=
  if -2147483648 ≤ n ∧ n ≤ 2147483647 then .ok n else throw (.database "integer out of range")

/-- Of a period that is too short for its share to be an `integer` there is no status. -/
def goalHealthStatus (now : Timestamptz) (progress : ℤ) (periodStart periodEnd : Option Timestamptz) :
    Except RepoError GoalStatus :=
  if 100 ≤ progress then .ok .achieved
  else
    let byProgress := if 60 ≤ progress then .onTrack else if 30 ≤ progress then .atRisk else .offTrack
    match periodStart, periodEnd with
    | some start, some finish =>
      if start < finish then do
        let expected := clamp (← integer (roundNumeric
          (100 * (now.micros - start.micros : ℤ) / (finish.micros - start.micros : ℤ))))
        return if -10 ≤ progress - expected then .onTrack
          else if -25 ≤ progress - expected then .atRisk else .offTrack
      else .ok byProgress
    | _, _ => .ok byProgress

/-- The progress that `refresh_goal_progress` works out. -/
def calculatedProgress (s : Store) (g : GoalRow) : Except RepoError ℤ :=
  match g.progressMode with
  | .tasks => integer (weightedMean double (s.linkedTasks g.id))
  | .children => integer (weightedMean double (s.children g.id))
  | .measurement =>
    let span := double (g.targetValue - g.startValue)
    -- `GREATEST` and `LEAST` leave a null out
    if span = 0 then .ok 100
    else
      return clamp (← integer
        (round (double (double (100 * double (g.currentValue - g.startValue)) / span))))
  | .manual => .ok g.progress

/-! ### Statements on goals, and their triggers -/

/-- The check constraints of `goals`. -/
def checkGoal (g : GoalRow) : Except RepoError Unit := do
  if ¬(0 ≤ g.progress ∧ g.progress ≤ 100) then throw (.database "goals_progress_check")
  if ¬(0 < g.weight ∧ g.weight ≤ 100) then throw (.database "goals_weight_check")
  if g.parentId = some g.id then throw (.database "goals_parent_not_self_check")
  if (g.periodStart.any fun start => g.periodEnd.any fun finish => finish < start) = true then
    throw (.database "goals_period_check")
  if g.progressMode = .measurement ∧ g.targetValue = g.startValue then
    throw (.database "goals_measurement_range_check")

def stackDepthExceeded : RepoError := .database "stack depth limit exceeded"

/-- `refresh_goal_progress`; its update fires `goals_refresh_parent`, for the old parent and for the
new one, which are the same. -/
def refreshGoalProgress (now : Timestamptz) : ℕ → Uuid → Store → Except RepoError Store
  | 0, _, _ => throw stackDepthExceeded
  | depth + 1, id, s =>
    match (s.goals.find? id).filter GoalRow.active with
    | none => .ok s
    | some goal => do
      let progress ← calculatedProgress double s goal
      let status ← goalHealthStatus now progress goal.periodStart goal.periodEnd
      let row := { goal with progress, status, updatedAt := now }
      checkGoal row
      let s := { s with goals := s.goals.put row }
      match goal.parentId with
      | none => return s
      | some parentId => do
        let s ← refreshGoalProgress now depth parentId s
        refreshGoalProgress now depth parentId s

/-- A refresh for a parent, when there is one. -/
def refreshParent (c : Context) (parentId : Option Uuid) (s : Store) : Except RepoError Store :=
  match parentId with
  | none => .ok s
  | some parentId => refreshGoalProgress double c.now c.depth parentId s

def refreshParentGoal (c : Context) (old new : Option GoalRow) (s : Store) :
    Except RepoError Store := do
  let s ← refreshParent double c (old.bind GoalRow.parentId) s
  refreshParent double c (new.bind GoalRow.parentId) s

def validateGoalScope (s : Store) (old : Option GoalRow) (new : GoalRow) : Except RepoError Unit := do
  if new.type = .objective ∧ new.parentId ≠ none then
    throw (.database "an objective cannot have a parent")
  if new.type = .keyResult ∧ new.parentId = none ∧
      ¬(old.any fun o => o.parentId = new.parentId && o.type = new.type) then
    throw (.database "a key result requires an objective")
  match new.parentId with
  | none => return ()
  | some parentId =>
    if ((s.goals.find? parentId).any fun p => p.type = .objective && p.active) = false then
      throw (.database "a key result parent must be an active objective in the same workspace")

def insertGoal (c : Context) (g : GoalRow) (s : Store) : Except RepoError Store := do
  validateGoalScope s none g
  checkGoal g
  match s.goals.insert? g with
  | none => throw (.database "goals_pkey")
  | some goals => refreshParentGoal double c none (some g) { s with goals }

/-- The columns an `UPDATE` names that triggers of `goals` wait for. -/
structure Named where
  /-- `parent_id` -/
  scope : Bool := false
  /-- `progress`, `weight`, `parent_id` -/
  rollUp : Bool := false

/-- `UPDATE goals SET … WHERE id = … AND deleted_at IS NULL RETURNING *` -/
def updateGoal (c : Context) (id : Uuid) (f : GoalRow → GoalRow) (named : Named) (s : Store) :
    Except RepoError (Option GoalRow × Store) :=
  match (s.goals.find? id).filter GoalRow.active with
  | none => .ok (none, s)
  | some old => do
    let new := f old
    if named.scope then validateGoalScope s (some old) new
    checkGoal new
    let s := { s with goals := s.goals.put new }
    let s ← if named.rollUp then refreshParentGoal double c (some old) (some new) s else .ok s
    return (some new, s)

def refreshGoalFromLink (c : Context) (l : LinkRow) (s : Store) : Except RepoError Store :=
  refreshGoalProgress double c.now c.depth l.goalId s

/-- `refresh_goals_from_task`, for one row -/
def refreshGoalsFromTask (c : Context) (taskId : Uuid) (s : Store) : Except RepoError Store :=
  ((s.links.rows.filter fun l => l.taskId = taskId).map LinkRow.goalId).foldlM
    (fun s goalId => refreshGoalProgress double c.now c.depth goalId s) s

/-! ### The repository -/

def measurementProgress (startValue currentValue targetValue : ℚ) : Except RepoError ℤ :=
  if targetValue = startValue then throw (.conflict "Goal target must differ from its start value")
  else
    let share := double (double (currentValue - startValue) / double (targetValue - startValue))
    .ok (clamp (mathRound (double (share * 100))))

/-- Dates in the browser's sense, by the millisecond. -/
def statusForProgress (now : Timestamptz) (progress : ℤ) (periodStart periodEnd : Option Timestamptz) :
    GoalStatus :=
  if 100 ≤ progress then .achieved
  else
    match periodStart, periodEnd with
    | some start, some finish =>
      if start.millis < finish.millis then
        let share := double ((now.millis - start.millis : ℤ) / (finish.millis - start.millis : ℤ))
        let expected := clamp (mathRound (double (share * 100)))
        if -10 ≤ progress - expected then .onTrack
        else if -25 ≤ progress - expected then .atRisk else .offTrack
      else if 60 ≤ progress then .onTrack else if 30 ≤ progress then .atRisk else .offTrack
    | _, _ => if 60 ≤ progress then .onTrack else if 30 ≤ progress then .atRisk else .offTrack

def requireActor (c : Context) : Except RepoError Uuid :=
  match c.actorId with
  | some actorId => .ok actorId
  | none => throw (.denied "An authenticated actor is required to manage OKRs")

def requireActiveMember (s : Store) (userId : Option Uuid) : Except RepoError Unit :=
  match userId with
  | none => .ok ()
  | some userId => if userId ∈ s.members then .ok () else throw (.notFound "goal owner")

def requireGoal (s : Store) (goalId : Uuid) : Except RepoError GoalRow :=
  match (s.goals.find? goalId).filter GoalRow.active with
  | some goal => .ok goal
  | none => throw (.notFound "goal")

def requireObjective (s : Store) (parentId : Uuid) : Except RepoError GoalRow := do
  let parent ← requireGoal s parentId
  if parent.type ≠ .objective then throw (.conflict "A key result parent must be an objective")
  return parent

def requireTask (s : Store) (taskId : Uuid) : Except RepoError TaskRow :=
  match (s.tasks.find? taskId).filter TaskRow.active with
  | some task => .ok task
  | none => throw (.notFound "task")

def refreshProgress (c : Context) (goalId : Uuid) (s : Store) : Except RepoError (GoalRow × Store) := do
  let s ← refreshGoalProgress double c.now c.depth goalId s
  let goal ← requireGoal s goalId
  return (goal, s)

structure CreateGoalInput where
  id : Option Uuid := none
  title : String
  description : Option String := none
  type : GoalType
  parentId : Option Uuid := none
  progressMode : Option GoalProgressMode := none
  measurementUnit : Option GoalMeasurementUnit := none
  startValue : Option ℚ := none
  currentValue : Option ℚ := none
  targetValue : Option ℚ := none
  weight : Option ℚ := none
  ownerId : Option Uuid := none
  periodStart : Option Timestamptz := none
  periodEnd : Option Timestamptz := none
  deletedAt : Option Timestamptz := none

def create (c : Context) (input : CreateGoalInput) (s : Store) : Except RepoError Store := do
  let _ ← requireActor c
  requireActiveMember s input.ownerId
  if input.type = .objective ∧ input.parentId ≠ none then
    throw (.conflict "An objective cannot have a parent")
  if input.type = .keyResult then
    match input.parentId with
    | none => throw (.conflict "A key result requires an objective")
    | some parentId => let _ ← requireObjective s parentId
  let progressMode := match input.type with
    | .objective => .children
    | .keyResult => input.progressMode.getD .measurement
  let startValue := input.startValue.getD 0
  let currentValue := input.currentValue.getD startValue
  let targetValue := input.targetValue.getD 100
  let progress ←
    if progressMode = .measurement then measurementProgress double startValue currentValue targetValue
    else .ok 0
  let s ← insertGoal double c
    { id := input.id.getD (c.ids 0), title := input.title, description := input.description
      type := input.type, parentId := input.parentId, progress
      status := statusForProgress double c.now progress input.periodStart input.periodEnd
      progressMode, measurementUnit := input.measurementUnit.getD .percentage
      startValue, currentValue, targetValue, weight := input.weight.getD 1
      ownerId := input.ownerId, periodStart := input.periodStart, periodEnd := input.periodEnd
      createdAt := c.now, updatedAt := c.now, deletedAt := input.deletedAt } s
  match input.parentId with
  | none => return s
  | some parentId => do
    let (_, s) ← refreshProgress double c parentId s
    return s

/-- Columns left out stay; the columns that can be null are optional twice. -/
structure UpdateGoalInput where
  title : Option String := none
  description : Option (Option String) := none
  ownerId : Option (Option Uuid) := none
  parentId : Option (Option Uuid) := none
  progressMode : Option GoalProgressMode := none
  measurementUnit : Option GoalMeasurementUnit := none
  startValue : Option ℚ := none
  currentValue : Option ℚ := none
  targetValue : Option ℚ := none
  weight : Option ℚ := none
  periodStart : Option (Option Timestamptz) := none
  periodEnd : Option (Option Timestamptz) := none

def UpdateGoalInput.set (input : UpdateGoalInput) (now : Timestamptz) (g : GoalRow) : GoalRow :=
  { g with
    title := input.title.getD g.title
    description := input.description.getD g.description
    ownerId := input.ownerId.getD g.ownerId
    parentId := input.parentId.getD g.parentId
    progressMode := input.progressMode.getD g.progressMode
    measurementUnit := input.measurementUnit.getD g.measurementUnit
    startValue := input.startValue.getD g.startValue
    currentValue := input.currentValue.getD g.currentValue
    targetValue := input.targetValue.getD g.targetValue
    weight := input.weight.getD g.weight
    periodStart := input.periodStart.getD g.periodStart
    periodEnd := input.periodEnd.getD g.periodEnd
    updatedAt := now }

def UpdateGoalInput.named (input : UpdateGoalInput) : Named where
  scope := input.parentId.isSome
  rollUp := input.parentId.isSome || input.weight.isSome

/-- The second statement of `update`. -/
def refreshUpdated (c : Context) (updated : GoalRow) (s : Store) :
    Except RepoError (GoalRow × Store) :=
  match updated.progressMode with
  | .tasks | .children => refreshProgress double c updated.id s
  | .measurement => do
    let progress ←
      measurementProgress double updated.startValue updated.currentValue updated.targetValue
    let status := statusForProgress double c.now progress updated.periodStart updated.periodEnd
    match ← updateGoal double c updated.id (fun g => { g with progress, status, updatedAt := c.now })
      { rollUp := true } s with
    | (some refreshed, s) => return (refreshed, s)
    | (none, _) => throw (.error "Cannot read properties of undefined")
  | .manual => .ok (updated, s)

def refreshParentOf (c : Context) (parentId : Option Uuid) (s : Store) : Except RepoError Store :=
  match parentId with
  | none => .ok s
  | some parentId => do
    let (_, s) ← refreshProgress double c parentId s
    return s

def update (c : Context) (goalId : Uuid) (input : UpdateGoalInput) (s : Store) :
    Except RepoError Store := do
  let _ ← requireActor c
  let before ← requireGoal s goalId
  requireActiveMember s (input.ownerId.getD none)
  match input.parentId with
  | none => pure ()
  | some parentId => do
    if before.type ≠ .keyResult then throw (.conflict "An objective cannot have a parent")
    match parentId with
    | none => throw (.conflict "A key result requires an objective")
    | some parentId => let _ ← requireObjective s parentId
  match ← updateGoal double c goalId (input.set c.now) input.named s with
  | (none, _) => throw (.notFound "goal")
  | (some updated, s) => do
    let (refreshed, s) ← refreshUpdated double c updated s
    let s ← if before.parentId ≠ refreshed.parentId then refreshParentOf double c before.parentId s
      else .ok s
    refreshParentOf double c refreshed.parentId s

structure GoalCheckinInput where
  note : String
  progress : Option ℚ := none
  currentValue : Option ℚ := none

/-- What a check-in makes of the goal: its progress and its current value. -/
def checkedIn (goal : GoalRow) (input : GoalCheckinInput) : Except RepoError (ℤ × Option ℚ) :=
  match goal.progressMode with
  | .manual =>
    match input.progress with
    | none => throw (.conflict "Manual goals require check-in progress")
    | some progress => .ok (clamp (mathRound progress), none)
  | .measurement =>
    match input.currentValue with
    | none => throw (.conflict "Measurement goals require a current value")
    | some currentValue => do
      let progress ← measurementProgress double goal.startValue currentValue goal.targetValue
      return (progress, some currentValue)
  | .tasks | .children => .ok (goal.progress, none)

/-- `goal_checkins` takes a note of at most 2000 characters. -/
def insertCheckin (row : CheckinRow) (s : Store) : Except RepoError Store := do
  if ((s.goals.find? row.goalId).filter GoalRow.active).isNone then
    throw (.database "goal child row must match an active goal tenant")
  if 2000 < row.note.length then throw (.database "value too long for type character varying(2000)")
  if ¬(0 ≤ row.progress ∧ row.progress ≤ 100) then throw (.database "goal_checkins_progress_check")
  match s.checkins.insert? row with
  | none => throw (.database "goal_checkins_pkey")
  | some checkins => return { s with checkins }

def checkIn (c : Context) (goalId : Uuid) (input : GoalCheckinInput) (s : Store) :
    Except RepoError Store := do
  let actorId ← requireActor c
  let goal ← requireGoal s goalId
  let (progress, currentValue) ← checkedIn double goal input
  let status := statusForProgress double c.now progress goal.periodStart goal.periodEnd
  let own : Bool := goal.progressMode = .manual || goal.progressMode = .measurement
  let f : GoalRow → GoalRow := fun g =>
    if own then
      { g with progress, status, currentValue := currentValue.getD g.currentValue, updatedAt := c.now }
    else { g with updatedAt := c.now }
  match ← updateGoal double c goalId f { rollUp := own } s with
  | (none, _) => throw (.notFound "goal")
  | (some record, s) => do
    let s ← insertCheckin
      { id := c.ids 0, goalId, progress := record.progress
        currentValue := if goal.progressMode = .measurement then some record.currentValue else none
        status := record.status, note := input.note, createdById := some actorId
        createdAt := c.now } s
    refreshParentOf double c record.parentId s

def validateGoalTaskScope (s : Store) (l : LinkRow) : Except RepoError Unit := do
  if ((s.goals.find? l.goalId).any fun g => g.type = .keyResult && g.active) = false then
    throw (.database "goal task link must match an active key result tenant")
  if (s.tasks.find? l.taskId).any TaskRow.active = false then
    throw (.database "linked task must match the active goal tenant")

/-- `INSERT … ON CONFLICT (goal_id, task_id) DO UPDATE` -/
def upsertLink (c : Context) (l : LinkRow) (s : Store) : Except RepoError Store := do
  validateGoalTaskScope s l
  if ¬(0 < l.weight ∧ l.weight ≤ 100) then throw (.database "goal_task_links_weight_check")
  match s.links.rows.find? fun o => o.goalId = l.goalId && o.taskId = l.taskId with
  | some old =>
    let row := { old with weight := l.weight, createdById := l.createdById }
    refreshGoalFromLink double c row { s with links := s.links.put row }
  | none =>
    match s.links.insert? l with
    | none => throw (.database "goal_task_links_pkey")
    | some links => refreshGoalFromLink double c l { s with links }

def linkTask (c : Context) (goalId taskId : Uuid) (weight : ℚ) (s : Store) :
    Except RepoError Store := do
  let actorId ← requireActor c
  let goal ← requireGoal s goalId
  let _ ← requireTask s taskId
  if goal.type ≠ .keyResult then throw (.conflict "Tasks can be linked only to key results")
  if weight ≤ 0 ∨ 100 < weight then
    throw (.conflict "Task contribution weight must be between 0 and 100")
  let (_, s) ← updateGoal double c goalId
    (fun g => { g with progressMode := .tasks, updatedAt := c.now }) {} s
  let s ← upsertLink double c
    { id := c.ids 0, goalId, taskId, weight, createdById := actorId, createdAt := c.now } s
  let (refreshed, s) ← refreshProgress double c goalId s
  refreshParentOf double c refreshed.parentId s

/-- `DELETE FROM goal_task_links WHERE …`, then the trigger for every row -/
def deleteLinks (c : Context) (p : LinkRow → Bool) (s : Store) : Except RepoError Store :=
  (s.links.rows.filter fun l => p l).foldlM (fun s l => refreshGoalFromLink double c l s)
    { s with links := s.links.remove p }

def unlinkTask (c : Context) (goalId taskId : Uuid) (s : Store) : Except RepoError Store := do
  let _ ← requireActor c
  let goal ← requireGoal s goalId
  let s ← deleteLinks double c (fun l => l.goalId = goalId && l.taskId = taskId) s
  let (_, s) ← refreshProgress double c goalId s
  refreshParentOf double c goal.parentId s

/-! ### Tasks -/

/-- A change of rows that leaves their ids alone. -/
structure TaskUpdate where
  selects : TaskRow → Bool
  set : TaskRow → TaskRow
  id_set : ∀ t, (set t).id = t.id

/-- An `UPDATE` of tasks that sets `progress`, `status` or `deleted_at`, then the trigger for every
row. -/
def updateTasks (c : Context) (u : TaskUpdate) (s : Store) : Except RepoError Store := do
  let old := s.tasks.rows.filter fun t => u.selects t
  if (old.all fun t => 0 ≤ (u.set t).progress && (u.set t).progress ≤ 100) = false then
    throw (.database "tasks_progress_check")
  (old.map TaskRow.id).foldlM (fun s id => refreshGoalsFromTask double c id s)
    { s with tasks := s.tasks.update u.selects u.set u.id_set }

/-- A `DELETE` of tasks: for every row, its links go with it, then the trigger runs. -/
def deleteTasks (c : Context) (selects : TaskRow → Bool) (s : Store) : Except RepoError Store :=
  ((s.tasks.rows.filter fun t => selects t).map TaskRow.id).foldlM
    (fun s id => do
      let s ← deleteLinks double c (fun l => l.taskId = id) s
      refreshGoalsFromTask double c id s)
    { s with tasks := s.tasks.remove selects }

def insertTask (t : TaskRow) (s : Store) : Except RepoError Store :=
  if ¬(0 ≤ t.progress ∧ t.progress ≤ 100) then throw (.database "tasks_progress_check")
  else
    match s.tasks.insert? t with
    | none => throw (.database "tasks_pkey")
    | some tasks => .ok { s with tasks }

/-! ### Requests -/

inductive Request where
  | create (input : CreateGoalInput)
  | update (goalId : Uuid) (input : UpdateGoalInput)
  | checkIn (goalId : Uuid) (input : GoalCheckinInput)
  | linkTask (goalId taskId : Uuid) (weight : ℚ)
  | unlinkTask (goalId taskId : Uuid)
  | insertTask (task : TaskRow)
  | updateTasks (u : TaskUpdate)
  | deleteTasks (selects : TaskRow → Bool)

def step (request : Context × Request) (s : Store) : Except RepoError Store :=
  let c := request.1
  match request.2 with
  | .create input => create double c input s
  | .update goalId input => update double c goalId input s
  | .checkIn goalId input => checkIn double c goalId input s
  | .linkTask goalId taskId weight => linkTask double c goalId taskId weight s
  | .unlinkTask goalId taskId => unlinkTask double c goalId taskId s
  | .insertTask task => insertTask task s
  | .updateTasks u => updateTasks double c u s
  | .deleteTasks selects => deleteTasks double c selects s

/-- A workspace with members and nothing else. -/
def initial (members : List Uuid) : Store where
  members := members
  goals := .empty
  links := .empty
  checkins := .empty
  tasks := .empty

def after (members : List Uuid) (requests : List (Context × Request)) : Store :=
  Runs.run (step double) (initial members) requests

end Doubles

end CalmBoard.Goals
