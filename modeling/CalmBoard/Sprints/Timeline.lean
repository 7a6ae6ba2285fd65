import CalmBoard.Sprints.Repository

/-!
# CalmBoard.Sprints.Timeline — the history of a sprint, replayed from its events

`getSprintTimeline` starts from the snapshot taken when the sprint was started, folds the recorded
events over its counters and compares the outcome with the snapshot taken when it was completed.
-/

namespace CalmBoard.Sprints

/-! ### The fold -/

def applyEvent (c : SprintCounters) (ev : SprintEventRow) : SprintCounters :=
  let pts := points ev.storyPointsAtEvent
  let delta := points ev.newStoryPoints - points ev.oldStoryPoints
  match ev.eventType, ev.isCompletedAtEvent with
  | .taskAdded, true =>
    { c with
      scopeTaskCount := c.scopeTaskCount + 1
      completedTaskCount := c.completedTaskCount + 1
      scopeStoryPoints := c.scopeStoryPoints + pts
      completedStoryPoints := c.completedStoryPoints + pts }
  | .taskAdded, false =>
    { c with
      scopeTaskCount := c.scopeTaskCount + 1
      remainingTaskCount := c.remainingTaskCount + 1
      scopeStoryPoints := c.scopeStoryPoints + pts
      remainingStoryPoints := c.remainingStoryPoints + pts }
  | .taskRemoved, true =>
    { c with
      scopeTaskCount := c.scopeTaskCount - 1
      completedTaskCount := c.completedTaskCount - 1
      scopeStoryPoints := c.scopeStoryPoints - pts
      completedStoryPoints := c.completedStoryPoints - pts }
  | .taskRemoved, false =>
    { c with
      scopeTaskCount := c.scopeTaskCount - 1
      remainingTaskCount := c.remainingTaskCount - 1
      scopeStoryPoints := c.scopeStoryPoints - pts
      remainingStoryPoints := c.remainingStoryPoints - pts }
  | .storyPointsChanged, true =>
    { c with
      scopeStoryPoints := c.scopeStoryPoints + delta
      completedStoryPoints := c.completedStoryPoints + delta }
  | .storyPointsChanged, false =>
    { c with
      scopeStoryPoints := c.scopeStoryPoints + delta
      remainingStoryPoints := c.remainingStoryPoints + delta }
  | .taskCompleted, _ =>
    { c with
      remainingTaskCount := c.remainingTaskCount - 1
      completedTaskCount := c.completedTaskCount + 1
      remainingStoryPoints := c.remainingStoryPoints - pts
      completedStoryPoints := c.completedStoryPoints + pts }
  | .taskReopened, _ =>
    { c with
      completedTaskCount := c.completedTaskCount - 1
      remainingTaskCount := c.remainingTaskCount + 1
      completedStoryPoints := c.completedStoryPoints - pts
      remainingStoryPoints := c.remainingStoryPoints + pts }

def invariantCheck (c : SprintCounters) : Except RepoError Unit :=
  if c.scopeTaskCount ≠ c.completedTaskCount + c.remainingTaskCount then
    .error (.integrity "scopeTaskCount != completedTaskCount + remainingTaskCount")
  else if c.scopeStoryPoints ≠ c.completedStoryPoints + c.remainingStoryPoints then
    .error (.integrity "scopeStoryPoints != completedStoryPoints + remainingStoryPoints")
  else if c.scopeTaskCount < 0 ∨ c.completedTaskCount < 0 ∨ c.remainingTaskCount < 0 ∨
      c.scopeStoryPoints < 0 ∨ c.completedStoryPoints < 0 ∨ c.remainingStoryPoints < 0 then
    .error (.integrity "State metrics cannot be negative")
  else .ok ()

/-! ### The daily series -/

structure DailyPoint where
  date : String
  counters : SprintCounters
  deriving DecidableEq

/-- `dailyPoints.set(dateStr, …)`: a `Map` keeps the position of a key it has. -/
def captureDailyState (points : List DailyPoint) (p : DailyPoint) : List DailyPoint :=
  if points.any (·.date = p.date) then points.map fun q => if q.date = p.date then p else q
  else points ++ [p]

/-- The last captured counters on or before each day of the series. -/
def continuousDailyPoints (points : List DailyPoint) (last : SprintCounters) :
    List String → List DailyPoint → List DailyPoint
  | [], series => series
  | date :: dates, series =>
    let last := ((points.find? (·.date = date)).map DailyPoint.counters).getD last
    let series :=
      if (series.getLast?.map DailyPoint.date) = some date then series
      else series ++ [{ date, counters := last }]
    continuousDailyPoints points last dates series

/-! ### The query -/

section Query

variable (rt : Runtime) (db : Db)

def getSnapshot (sprintId : Uuid) (type : SprintSnapshotType) : Option SprintSnapshotRow :=
  db.snapshots.find? fun s => s.sprintId = sprintId && s.snapshotType = type

/-- `ORDER BY occurred_at, event_sequence`. -/
def eventOrder (a b : SprintEventRow) : Prop :=
  a.occurredAt < b.occurredAt ∨ a.occurredAt = b.occurredAt ∧ a.eventSequence ≤ b.eventSequence

instance : DecidableRel eventOrder := fun a b => by
  unfold eventOrder
  infer_instance

def sprintEvents (sprintId : Uuid) : List SprintEventRow :=
  (db.events.filter fun e => e.sprintId = sprintId).insertionSort eventOrder

def toDateString (date : ℤ) (timezone : String) : Except RepoError String :=
  match rt.localDate timezone date with
  | some s => .ok s
  | none => .error (.error "Invalid time zone specified")

/-- One event of the loop: counters, check, daily state. -/
def replayEvent (timezone : String) (st : SprintCounters × List DailyPoint) (ev : SprintEventRow) :
    Except RepoError (SprintCounters × List DailyPoint) := do
  let c := applyEvent st.1 ev
  invariantCheck c
  let date ← toDateString rt ev.occurredAt.millis timezone
  return (c, captureDailyState st.2 { date, counters := c })

inductive SprintTimeline where
  | unavailable
  | available (isFinalized : Bool) (series : List DailyPoint)
  deriving DecidableEq

/-- The last time value whose events are part of the timeline. -/
def boundaryEndTime (sprint : SprintRow) (completeSnap : Option SprintSnapshotRow) : ℤ :=
  match sprint.status, completeSnap, sprint.cancelledAt with
  | .completed, some snap, _ => snap.capturedAt.millis
  | .cancelled, _, some cancelledAt => cancelledAt.millis
  | _, _, _ => db.now.millis

/-- The dates from the day of the first time value to the day of the second. -/
def datesBetween (timezone : String) (first last : ℤ) : Except RepoError (List String) :=
  let firstDay := first / IsoDate.msPerDay
  let lastDay := last / IsoDate.msPerDay
  (List.range (lastDay - firstDay + 1).toNat).mapM fun i =>
    toDateString rt ((firstDay + i) * IsoDate.msPerDay) timezone

def getSprintTimeline (sprintId projectId : Uuid) (timezone : String) :
    Except RepoError SprintTimeline :=
  match (db.sprints.find? sprintId).filter fun s => s.projectId = projectId with
  | none => .error (.notFound "sprint")
  | some sprint =>
    match (getSnapshot db sprintId .start).filter fun s => s.dataQuality = .exact with
    | none => .ok .unavailable
    | some startSnap => do
      let completeSnap :=
        if sprint.status = .completed then getSnapshot db sprintId .complete else none
      let boundary := boundaryEndTime db sprint completeSnap
      let firstDate ← toDateString rt startSnap.capturedAt.millis timezone
      let events := (sprintEvents db sprintId).filter fun ev => ev.occurredAt.millis ≤ boundary
      let (counters, points) ← events.foldlM (replayEvent rt timezone)
        (startSnap.counters, [{ date := firstDate, counters := startSnap.counters }])
      if completeSnap.any fun snap => snap.counters ≠ counters then
        throw (.integrity "Reconstructed timeline does not match Complete Snapshot exactly")
      let first := (points.map DailyPoint.date).insertionSort (· ≤ ·)
      let last := ((points.find? fun p => some p.date = first.head?).map
        DailyPoint.counters).getD counters
      let dates ← datesBetween rt timezone startSnap.capturedAt.millis boundary
      return .available (sprint.status = .completed) (continuousDailyPoints points last dates [])

end Query

end CalmBoard.Sprints
