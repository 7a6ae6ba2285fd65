import CalmBoard.System

/-!
# CalmBoard.Board — the workspace as its sprints and its task tree see it

A `Board` forgets everything of a database but the tasks as cards, the sprints with their
assignments, snapshots and events, and the clock.  Participants, dependencies, reminders and
recurrence rules leave no trace on it.

* `Db.core`: the part of a database its board depends on.
* `Db.bare`, `Db.unlinked`: a database without its people and reminders, and without dependencies.
* `Db.board`: the board of a database.
* `change`, `transfer`, `delete`, …: what the repositories do to a board.
-/

namespace CalmBoard

/-! ### Cards and boards -/

/-- The columns of a task that the tree and the sprints depend on. -/
structure Card where
  id : Uuid
  projectId : Uuid
  parentId : Option Uuid
  status : TaskStatus
  progress : ℤ
  storyPoints : Option ℤ
  sprintId : Option Uuid
  deletedAt : Option Timestamptz

def Card.active (c : Card) : Bool := c.deletedAt.isNone

def Card.analytics (c : Card) : Sprints.TaskAnalyticsState := ⟨c.storyPoints, c.status⟩

def TaskRow.card (t : TaskRow) : Card :=
  ⟨t.id, t.projectId, t.parentId, t.status, t.progress, t.storyPoints, t.sprintId, t.deletedAt⟩

structure Board where
  now : Timestamptz
  cards : Table Card Card.id
  sprints : Table SprintRow SprintRow.id
  assignments : List TaskSprintAssignmentRow
  snapshots : List SprintSnapshotRow
  events : List SprintEventRow

def Db.cards (db : Db) : Table Card Card.id := db.tasks.map TaskRow.card fun _ => rfl

def Db.board (db : Db) : Board where
  now := db.now
  cards := db.cards
  sprints := db.sprints
  assignments := db.assignments
  snapshots := db.snapshots
  events := db.events

@[simp] theorem board_now (db : Db) : db.board.now = db.now := rfl

@[simp] theorem board_sprints (db : Db) : db.board.sprints = db.sprints := rfl

@[simp] theorem board_assignments (db : Db) : db.board.assignments = db.assignments := rfl

@[simp] theorem board_snapshots (db : Db) : db.board.snapshots = db.snapshots := rfl

@[simp] theorem board_events (db : Db) : db.board.events = db.events := rfl

@[simp] theorem board_find? (db : Db) (k : Uuid) :
    db.board.cards.find? k = (db.tasks.find? k).map TaskRow.card :=
  Table.find?_map db.tasks TaskRow.card (fun _ => rfl) k

/-- A row without what triggers on other tables write to it. -/
def TaskRow.settle (t : TaskRow) : TaskRow := { t with isRecurring := none, updatedAt := t.createdAt }

/-- A database without the tables that never show on a board. -/
def Db.core (db : Db) : Db :=
  { db with
    uuidCount := 0
    tasks := db.tasks.map TaskRow.settle fun _ => rfl
    assignees := []
    followers := []
    dependencies := .empty
    reminders := []
    recurrenceRules := [] }

/-- A database without its people and reminders. -/
def Db.bare (db : Db) : Db := { db with assignees := [], followers := [], reminders := [] }

/-- A database without its dependencies. -/
def Db.unlinked (db : Db) : Db := { db with dependencies := .empty, uuidCount := 0 }

theorem core_of_bare {db db' : Db} (h : db'.bare = db.bare) : db'.core = db.core :=
  show db'.bare.core = db.bare.core from congrArg Db.core h

theorem core_of_unlinked {db db' : Db} (h : db'.unlinked = db.unlinked) : db'.core = db.core :=
  show db'.unlinked.core = db.unlinked.core from congrArg Db.core h

theorem board_core (db : Db) : db.core.board = db.board := by
  have h : db.core.cards = db.cards := by
    apply Table.ext_rows
    show (db.tasks.rows.map TaskRow.settle).map TaskRow.card = db.tasks.rows.map TaskRow.card
    rw [List.map_map]
    rfl
  unfold Db.board
  rw [h]
  rfl

theorem board_of_core {db db' : Db} (h : db'.core = db.core) : db'.board = db.board := by
  rw [← board_core, h, board_core]

theorem core_find? (db : Db) (k : Uuid) :
    db.core.tasks.find? k = (db.tasks.find? k).map TaskRow.settle :=
  Table.find?_map db.tasks TaskRow.settle (fun _ => rfl) k

theorem rows_cards (db : Db) : db.cards.rows = db.tasks.rows.map TaskRow.card := rfl

@[simp] theorem card_active (t : TaskRow) : t.card.active = t.active := rfl

/-! ### What happens to a board -/

namespace Board

def newDate (b : Board) : Timestamptz := .ofMillis b.now.millis

def active? (b : Board) (k : Uuid) : Option Card := (b.cards.find? k).filter Card.active

def isActiveSprint (b : Board) (sprintId : Uuid) : Bool :=
  (b.sprints.find? sprintId).any fun s => s.status = .active

def putCard (b : Board) (c : Card) : Board := { b with cards := b.cards.put c }

def append (projectId sprintId taskId : Uuid) (b : Board) (e : Sprints.AnalyticsEventPayload) :
    Board :=
  { b with events := b.events ++ [e.row b.events.length projectId sprintId taskId b.newDate] }

/-- A card is rewritten; an active sprint that has it hears of the change. -/
def change (b : Board) (before after : Card) : Board :=
  match after.sprintId with
  | none => b.putCard after
  | some sprintId =>
    if b.isActiveSprint sprintId then
      (Sprints.deriveSprintTaskAnalyticsEvents before.analytics after.analytics).foldl
        (append after.projectId sprintId after.id) (b.putCard after)
    else b.putCard after

/-- The cards that `p` selects point to another sprint. -/
def point (b : Board) (p : Card → Bool) (sprintId : Option Uuid) : Board :=
  { b with cards := b.cards.update p (fun c => { c with sprintId }) fun _ => rfl }

/-- The open assignments that `p` selects are closed. -/
def close (b : Board) (p : TaskSprintAssignmentRow → Bool) : Board :=
  { b with
    assignments := b.assignments.map fun a =>
      if p a && a.opened then { a with removedAt := some b.newDate } else a }

def assign (b : Board) (taskId projectId : Uuid) : Option Uuid → Board
  | none => b
  | some sprintId =>
    { b with assignments := b.assignments ++ [{ taskId, sprintId, projectId, assignedAt := b.now }] }

/-- A task leaves its sprint for another one, or for none; `p` selects the assignments to close. -/
def transfer (b : Board) (p : TaskSprintAssignmentRow → Bool) (taskId projectId : Uuid)
    (target : Option Uuid) : Board :=
  ((b.close p).assign taskId projectId target).point (fun c => c.id = taskId) target

/-- A card joins or leaves the scope of an active sprint. -/
def scope (b : Board) (card : Card) (eventType : SprintEventType) : Option Uuid → Board
  | none => b
  | some sprintId =>
    match b.sprints.find? sprintId with
    | some sprint =>
      if sprint.status = .active then
        append sprint.projectId sprint.id card.id b
          { eventType, storyPointsAtEvent := card.storyPoints
            isCompletedAtEvent := Sprints.isTaskCompletedStatus card.status }
      else b
    | none => b

/-- Active cards that `p` selects are deleted. -/
def delete (b : Board) (p : Card → Bool) : Board :=
  { b with
    cards := b.cards.update (fun c => c.active && p c)
      (fun c => { c with deletedAt := some b.newDate, sprintId := none }) fun _ => rfl }

/-- A task and its direct children are deleted; the sprint of the task hears of it. -/
def softDelete (b : Board) (card : Card) : Board :=
  let deleted := (b.delete fun c => c.id = card.id).delete fun c => c.parentId = some card.id
  match card.sprintId with
  | none => deleted
  | some sprintId =>
    let closed := deleted.close fun a => a.taskId = card.id && a.sprintId = sprintId
    if closed.isActiveSprint sprintId then
      append card.projectId sprintId card.id closed
        { eventType := .taskRemoved, storyPointsAtEvent := card.storyPoints
          isCompletedAtEvent := card.status = .done }
    else closed

def putSprint (b : Board) (s : SprintRow) : Board := { b with sprints := b.sprints.put s }

def members (b : Board) (sprintId : Uuid) : List Card :=
  b.cards.rows.filter fun c => c.sprintId = some sprintId && c.active

/-- The counters of a sprint as they are now. -/
def stats (b : Board) (sprintId : Uuid) : SprintCounters :=
  Sprints.countTasks ((b.members sprintId).map Card.analytics)

def snapshot (b : Board) (projectId sprintId : Uuid) (type : SprintSnapshotType) : Board :=
  { b with
    snapshots := b.snapshots ++ [
      { projectId, sprintId, snapshotType := type, dataQuality := .exact,
        counters := b.stats sprintId, capturedAt := b.newDate }] }

/-- A planned sprint becomes active. -/
def start (b : Board) (sprint : SprintRow) : Board :=
  (b.snapshot sprint.projectId sprint.id .start).putSprint
    { sprint with status := .active, startedAt := some b.newDate, updatedAt := b.newDate }

/-- An unfinished task leaves a sprint that is completed. -/
def release (id projectId : Uuid) (target : Option Uuid) (b : Board) (taskId : Uuid) : Board :=
  b.transfer (fun a => a.taskId = taskId && a.sprintId = id) taskId projectId target

/-- An active sprint is completed; `target` takes over what is unfinished. -/
def complete (b : Board) (sprint : SprintRow) (target : Option Uuid) : Board :=
  let unfinished := ((b.members sprint.id).filter fun c => c.status ≠ .done).map Card.id
  (unfinished.foldl (release sprint.id sprint.projectId target)
    (b.snapshot sprint.projectId sprint.id .complete)).putSprint
      { sprint with status := .completed, completedAt := some b.newDate, updatedAt := b.newDate }

def cancel (b : Board) (sprint : SprintRow) : Board :=
  ((b.close fun a => a.sprintId = sprint.id).point (fun c => c.sprintId = some sprint.id)
    none).putSprint
      { sprint with status := .cancelled, cancelledAt := some b.newDate, updatedAt := b.newDate }

/-- Pointers and open assignments of a sprint agree, the way `verifySprintMembershipConsistency`
looks at them. -/
structure Consistent (b : Board) (sprintId : Uuid) : Prop where
  assigned : ∀ c ∈ b.members sprintId, (b.assignments.filter fun a =>
    a.taskId = c.id && a.sprintId = sprintId && a.opened).length = 1
  pointed : ∀ a ∈ b.assignments, a.sprintId = sprintId → a.opened = true →
    ∀ c, b.cards.find? a.taskId = some c → c.sprintId = some sprintId ∧ c.active = true

/-! ### Reading a board after a card is written -/

section PutCard

variable {b : Board} {c old : Card}

theorem putCard_self (h : b.cards.find? c.id = some c) : b.putCard c = b := by
  unfold putCard
  rw [Table.put_self h]

theorem putCard_putCard {c' : Card} (h : c.id = c'.id) :
    (b.putCard c).putCard c' = b.putCard c' := by
  unfold putCard
  rw [Table.put_put _ h]

theorem find?_putCard (h : b.cards.find? c.id = some old) (k : Uuid) :
    (b.putCard c).cards.find? k = if c.id = k then some c else b.cards.find? k :=
  Table.find?_put h k

end PutCard

/-! ### Ancestors -/

/-- The active ancestors of a task, from its parent `p` up to a root. -/
inductive Ancestry (b : Board) : Option Uuid → List Uuid → Prop
  | root : Ancestry b none []
  | step {p : Uuid} {card : Card} {ancestors : List Uuid} (hp : b.active? p = some card)
      (rest : Ancestry b card.parentId ancestors) : Ancestry b (some p) (p :: ancestors)

end Board

theorem board_active? (db : Db) (k : Uuid) :
    db.board.active? k = ((db.tasks.find? k).filter TaskRow.active).map TaskRow.card := by
  unfold Board.active?
  rw [board_find?]
  cases db.tasks.find? k with
  | none => rfl
  | some row =>
    simp only [Option.map_some, Option.filter_some, card_active]
    by_cases hrow : row.active = true
    · simp [hrow]
    · simp [hrow]

end CalmBoard
