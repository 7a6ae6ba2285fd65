import CalmBoard.Schema
import CalmBoard.Lib.Digraph

/-!
# CalmBoard.Deps.Repository — task dependencies

An active row of `task_dependencies` is an edge from the blocking to the dependent task.  The
repository refuses an edge that would close a cycle twice: by a depth-first search over all active
edges (`detectDependencyCycle`) and by the trigger of the table (`validateTaskDependency`).

* `detectDependencyCycle`: the three-state depth-first search.
* `validateTaskDependencyInsert`: trigger, check constraint and unique index of an inserted row.
* `planReplace`: the differences `replaceTaskDependencies` writes.
-/

namespace CalmBoard.Deps

open Text

/-! ### Depth-first search -/

structure DependencyEdge where
  blockingTaskId : Uuid
  dependentTaskId : Uuid

inductive Mark where
  | visiting | visited

/-- Marks, latest first, and the recursion stack, bottom first. -/
structure DfsState where
  marks : List (Uuid × Mark)
  stack : List Uuid

section Dfs

variable (edges : List DependencyEdge)

/-- `adjacency.get(current) ?? []` -/
def neighbors (current : Uuid) : List Uuid :=
  (edges.filter fun e => e.blockingTaskId = current).map DependencyEdge.dependentTaskId

/-- The loop over the neighbours of a node; `visit` is the recursive call. -/
def dfsNeighbors (visit : Uuid → DfsState → Option (List Uuid) × DfsState) :
    List Uuid → DfsState → Option (List Uuid) × DfsState
  | [], st => (none, st)
  | neighbor :: rest, st =>
    match st.marks.lookup neighbor with
    | some .visiting =>
      (some (st.stack.drop (st.stack.idxOf neighbor) ++ [neighbor]), st)
    | some .visited => dfsNeighbors visit rest st
    | none =>
      match visit neighbor st with
      | (some cycle, st) => (some cycle, st)
      | (none, st) => dfsNeighbors visit rest st

/-- `dfs(current)`.  Every call marks a node that had no mark, so `fuel` above the number of nodes
is never used up. -/
def dfs : ℕ → Uuid → DfsState → Option (List Uuid) × DfsState
  | 0, _, st => (none, st)
  | fuel + 1, current, st =>
    let entered : DfsState :=
      { marks := (current, .visiting) :: st.marks, stack := st.stack ++ [current] }
    match dfsNeighbors (dfs fuel) (neighbors edges current) entered with
    | (some cycle, st) => (some cycle, st)
    | (none, st) =>
      (none, { marks := (current, .visited) :: st.marks, stack := st.stack.dropLast })

/-- The endpoints of the edges in the order they are first seen. -/
def nodes : List Uuid :=
  (edges.flatMap fun e => [e.blockingTaskId, e.dependentTaskId]).reverse.dedup.reverse

def dfsRoots (fuel : ℕ) : List Uuid → DfsState → Option (List Uuid)
  | [], _ => none
  | node :: rest, st =>
    match st.marks.lookup node with
    | some _ => dfsRoots fuel rest st
    | none =>
      match dfs edges fuel node st with
      | (some cycle, _) => some cycle
      | (none, st) => dfsRoots fuel rest st

/-- The path of a cycle, `none` where the source answers `hasCycle: false`. -/
def detectDependencyCycle : Option (List Uuid) :=
  match edges.find? fun e => e.blockingTaskId = e.dependentTaskId with
  | some e => some [e.blockingTaskId, e.dependentTaskId]
  | none => dfsRoots edges ((nodes edges).length + 1) (nodes edges) ⟨[], []⟩

end Dfs

def cycleError : RepoError := .conflict "Task dependency would create a cycle"

def assertNoDependencyCycle (edges : List DependencyEdge) : Except RepoError Unit :=
  match detectDependencyCycle edges with
  | some _ => .error cycleError
  | none => .ok ()

def assertNotSelfDependency (blockingTaskId dependentTaskId : Uuid) : Except RepoError Unit :=
  if blockingTaskId = dependentTaskId then .error (.conflict "A task cannot depend on itself")
  else .ok ()

def minLagMinutes : ℤ := -2147483648

def maxLagMinutes : ℤ := 2147483647

def assertValidLagMinutes : Option Number → Except RepoError ℤ
  | none => .ok 0
  | some n =>
    match n.toInt? with
    | none => .error (.conflict "Task dependency lagMinutes must be a valid finite integer")
    | some lag =>
      if lag < minLagMinutes ∨ lag > maxLagMinutes then
        .error (.conflict
          "Task dependency lagMinutes must be between -2147483648 and 2147483647")
      else .ok lag

/-! ### The trigger -/

/-- The active edges among `rows`, as pairs from the blocking to the dependent task. -/
def activeEdges (rows : List TaskDependencyRow) : List (Uuid × Uuid) :=
  (rows.filter TaskDependencyRow.active).map fun d => (d.blockingTaskId, d.dependentTaskId)

/-- `validate_task_dependency`, before a row is inserted or updated; `rows` is what its queries see. -/
def validateTaskDependency (tasks : Table TaskRow TaskRow.id) (rows : List TaskDependencyRow)
    (new : TaskDependencyRow) : Except RepoError Unit :=
  match tasks.find? new.blockingTaskId, tasks.find? new.dependentTaskId with
  | some blocking, some dependent =>
    if new.active && (!blocking.active || !dependent.active) then
      .error (.database "Active task dependencies cannot reference deleted tasks")
    else if new.active && new.blockingTaskId ∈
        Digraph.downstream (activeEdges (rows.filter fun d => d.id ≠ new.id)) new.dependentTaskId then
      .error (.database "Task dependency would create a cycle")
    else .ok ()
  | _, _ => .error (.database "Task dependency endpoints do not belong to the same tenant scope")

/-- An insert: the trigger, then `task_dependencies_not_self_check`, the primary key and
`task_dependencies_active_unique`. -/
def validateTaskDependencyInsert (tasks : Table TaskRow TaskRow.id) (rows : List TaskDependencyRow)
    (new : TaskDependencyRow) : Except RepoError Unit := do
  validateTaskDependency tasks rows new
  if new.blockingTaskId = new.dependentTaskId then
    throw (.database "task_dependencies_not_self_check")
  if rows.any fun d => d.id = new.id then
    throw (.database "task_dependencies_pkey")
  if rows.any fun d => d.active && d.blockingTaskId = new.blockingTaskId &&
      d.dependentTaskId = new.dependentTaskId && d.type = new.type then
    throw (.database "task_dependencies_active_unique")

/-! ### Inputs -/

/-- A task named by a text: blank, of the shape of a UUID (spelled as the database spells it, or
not), or anything else, a serial. -/
inductive TaskIdentifier where
  | blank
  | uuid (u : Uuid) (canonical : Bool)
  | serial (s : String)
  deriving DecidableEq

/-- `TaskDependencyInputItem` -/
inductive DependencyItem where
  | text (t : TaskIdentifier)
  | descriptor (blockingTaskId blockingTaskSerial : Option TaskIdentifier)
      (type : Option TaskDependencyType) (lagMinutes : Option Number)

structure DependencyLink where
  blockingTaskId : Uuid
  blockingTaskSerial : String
  type : TaskDependencyType
  lagMinutes : ℤ
  deriving DecidableEq

/-- An item with its identifier, type and lag; `none` for a blank text, which is skipped. -/
def readItem : DependencyItem → Except RepoError (Option (TaskIdentifier × TaskDependencyType × ℤ))
  | .text .blank => .ok none
  | .text t => .ok (some (t, .finishToStart, 0))
  | .descriptor id serial type lag =>
    match (id.filter (· ≠ .blank)).or (serial.filter (· ≠ .blank)) with
    | none => .error (.conflict
        "Task dependency requires a valid blockingTaskId or blockingTaskSerial")
    | some t => do
      let lag ← assertValidLagMinutes lag
      return some (t, type.getD .finishToStart, lag)

/-- The active task an identifier of a dependency list names. -/
def findByIdentifier (tasks : Table TaskRow TaskRow.id) : TaskIdentifier → Option TaskRow
  | .blank | .uuid _ false => none
  | .uuid u true => (tasks.find? u).filter TaskRow.active
  | .serial s => tasks.rows.find? fun t => t.active && t.serial = s

def validateTaskDependenciesInput (tasks : Table TaskRow TaskRow.id)
    (dependentTaskId : Option Uuid) (input : List DependencyItem) :
    Except RepoError (List DependencyLink) := do
  let items := (← input.mapM readItem).filterMap id
  let resolved ← items.mapM fun item =>
    match findByIdentifier tasks item.1 with
    | none => .error (.notFound "task dependency")
    | some task => .ok (task, item.2)
  let links ← resolved.mapM fun (task, type, lag) =>
    if dependentTaskId = some task.id then
      .error (.conflict "A task cannot depend on itself")
    else .ok { blockingTaskId := task.id, blockingTaskSerial := task.serial, type, lagMinutes := lag }
  return links.reverse.dedup.reverse

/-! ### Replacing the dependencies of a task -/

/-- `canonicalDependencyKey`, for a fixed dependent task. -/
abbrev DependencyKey := Uuid × TaskDependencyType × ℤ

def TaskDependencyRow.key (d : TaskDependencyRow) : DependencyKey :=
  (d.blockingTaskId, d.type, d.lagMinutes)

def DependencyLink.key (l : DependencyLink) : DependencyKey :=
  (l.blockingTaskId, l.type, l.lagMinutes)

structure ReplacePlan where
  toRemove : List Uuid
  toInsert : List DependencyKey

/-- The keys a list of items asks for, after the checks on every item. -/
def desiredKeys (dependentTaskId : Uuid) (items : List DependencyLink) :
    Except RepoError (List DependencyKey) := do
  for item in items do
    assertNotSelfDependency item.blockingTaskId dependentTaskId
    discard (assertValidLagMinutes (some (.fin item.lagMinutes)))
  return (items.map DependencyLink.key).reverse.dedup.reverse

def isNoOp (current : List TaskDependencyRow) (desired : List DependencyKey) : Bool :=
  current.all (fun d => TaskDependencyRow.key d ∈ desired) &&
    desired.all fun k => k ∈ current.map TaskDependencyRow.key

/-- The graph `replaceTaskDependencies` searches for a cycle: `rows` without the edges it replaces,
with those it asks for. -/
def proposedEdges (dependentTaskId : Uuid) (rows current : List TaskDependencyRow)
    (desired : List DependencyKey) : List DependencyEdge :=
  ((rows.filter fun d => d.active && d.id ∉ current.map TaskDependencyRow.id).map fun d =>
    ⟨d.blockingTaskId, d.dependentTaskId⟩) ++ desired.map fun k => ⟨k.1, dependentTaskId⟩

/-- The rows to remove and the keys to insert. -/
def planReplace (current : List TaskDependencyRow) (desired : List DependencyKey) : ReplacePlan where
  toRemove := (current.filter fun d => TaskDependencyRow.key d ∉ desired).map TaskDependencyRow.id
  toInsert := desired.filter fun k => k ∉ current.map TaskDependencyRow.key

/-- Insert one row for a key. -/
def insertDependency (dependentTaskId : Uuid) (db : Db) (k : DependencyKey) : Except RepoError Db :=
  let row : TaskDependencyRow :=
    { id := db.uuids db.uuidCount, blockingTaskId := k.1, dependentTaskId, type := k.2.1,
      lagMinutes := k.2.2, createdAt := db.now }
  match validateTaskDependencyInsert db.tasks db.dependencies.rows row with
  | .error (.database "Task dependency would create a cycle") => .error cycleError
  | .error e => .error e
  | .ok () =>
    match db.dependencies.insert? row with
    | none => .error (.database "task_dependencies_pkey")
    | some dependencies => .ok { db with dependencies, uuidCount := db.uuidCount + 1 }

/-- `replaceTaskDependencies`, inside the transaction of its caller. -/
def replaceTaskDependencies (db : Db) (dependentTaskId : Uuid) (items : List DependencyLink) :
    Except RepoError Db := do
  let current := db.dependencies.rows.filter fun d => d.active && d.dependentTaskId = dependentTaskId
  let desired ← desiredKeys dependentTaskId items
  if isNoOp current desired then return db
  assertNoDependencyCycle (proposedEdges dependentTaskId db.dependencies.rows current desired)
  let plan := planReplace current desired
  let removed :=
    db.dependencies.update (fun d => d.id ∈ plan.toRemove)
      (fun d => { d with deletedAt := some db.newDate }) fun _ => rfl
  plan.toInsert.foldlM (insertDependency dependentTaskId) { db with dependencies := removed }

end CalmBoard.Deps
