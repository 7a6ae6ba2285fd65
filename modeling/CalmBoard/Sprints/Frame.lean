import CalmBoard.Board

/-!
# CalmBoard.Sprints.Frame — what the sprint operations leave alone

The sprint repository writes its own tables and the sprint pointers of tasks.

* `Db.plain`: a database without both.
* `plain_step`: every sprint operation keeps it.
-/

namespace CalmBoard

/-- A row without its pointer, and without the time at which it was set. -/
def TaskRow.unpointed (t : TaskRow) : TaskRow := { t with sprintId := none, updatedAt := t.createdAt }

/-- A database without its sprints. -/
def Db.plain (db : Db) : Db :=
  { db with
    uuidCount := 0
    tasks := db.tasks.map TaskRow.unpointed fun _ => rfl
    sprints := .empty
    assignments := []
    snapshots := []
    events := [] }

def Request.ofSprint : Request → Bool
  | .createSprint _ | .startSprint _ _ | .completeSprint _ _ _ | .cancelSprint _ _
  | .assignTaskToSprint _ _ | .removeTaskFromSprint _ | .moveTaskBetweenSprints _ _ _ => true
  | _ => false

theorem plain_find? {db db' : Db} (h : db'.plain = db.plain) (k : Uuid) :
    (db'.tasks.find? k).map TaskRow.unpointed = (db.tasks.find? k).map TaskRow.unpointed := by
  have hplain : ∀ db : Db, db.plain.tasks.find? k = (db.tasks.find? k).map TaskRow.unpointed :=
    fun db => Table.find?_map db.tasks TaskRow.unpointed (fun _ => rfl) k
  rw [← hplain, ← hplain, h]

namespace Sprints

open Fallible

variable {db db' : Db}

theorem plain_pointTasks (p : TaskRow → Bool) (sprintId : Option Uuid) :
    (pointTasks db p sprintId).plain = db.plain := by
  have h : (pointTasks db p sprintId).plain.tasks = db.plain.tasks := by
    apply Table.ext_rows
    show (pointTasks db p sprintId).tasks.rows.map TaskRow.unpointed =
      db.tasks.rows.map TaskRow.unpointed
    simp only [pointTasks, Table.rows_update, List.map_map]
    refine List.map_congr_left fun t _ => ?_
    simp only [Function.comp_apply]
    split <;> rfl
  unfold Db.plain at h ⊢
  simp only at h
  simp only [h]
  rfl

theorem plain_openAssignment {taskId projectId : Uuid} {target : Option Uuid}
    (h : openAssignment db taskId projectId target = .ok db') : db'.plain = db.plain := by
  cases target with
  | none =>
    cases h
    rfl
  | some sprintId =>
    simp only [openAssignment] at h
    split_ifs at h
    cases h
    rfl

theorem plain_appendScopeEvent (task : TaskRow) (type : SprintEventType) (sprintId : Option Uuid) :
    (appendScopeEvent db task type sprintId).plain = db.plain := by
  unfold appendScopeEvent
  split
  · rfl
  · split
    · split <;> rfl
    · rfl

theorem plain_insertSprintSnapshot {projectId sprintId : Uuid} {type : SprintSnapshotType}
    {counters : SprintCounters}
    (h : insertSprintSnapshot db projectId sprintId type counters = .ok db') :
    db'.plain = db.plain := by
  simp only [insertSprintSnapshot] at h
  split_ifs at h
  cases h
  rfl

theorem plain_transfer {p : TaskSprintAssignmentRow → Bool} {q : TaskRow → Bool}
    {taskId projectId : Uuid} {target : Option Uuid}
    (h : openAssignment (closeAssignments db p) taskId projectId target = .ok db') :
    (pointTasks db' q target).plain = db.plain := by
  rw [plain_pointTasks, plain_openAssignment h]
  rfl

theorem plain_completeSprint {id projectId : Uuid} {dest : IncompleteDestination}
    (h : completeSprint db id projectId dest = .ok db') : db'.plain = db.plain := by
  simp only [completeSprint, bind_ok, throw_bind, guard_ok, pure_ok] at h
  obtain ⟨sprint, -, -, target, -, -, -, snapped, hsnapped, released, hreleased, rfl⟩ := h
  refine foldlM_ok (I := fun s => s.plain = db.plain) hreleased
    (plain_insertSprintSnapshot hsnapped) fun s taskId t _ hs ht => ?_
  simp only [releaseTask, bind_ok, pure_ok] at ht
  obtain ⟨opened, hopened, rfl⟩ := ht
  exact (plain_transfer hopened).trans hs

/-- **Frame**: a sprint operation writes nothing but its tables and the pointers of tasks. -/
theorem plain_step {rt : Runtime} : ∀ {r : Request}, r.ofSprint = true → step rt r db = .ok db' →
    db'.plain = db.plain
  | .createSprint input, _, h => by
    simp only [step, createSprint, throw_bind, guard_ok, bind_ok] at h
    obtain ⟨-, name, -, -, h⟩ := h
    split at h
    · cases h
    · cases h
      rfl
  | .startSprint id projectId, _, h => by
    simp only [step, startSprint, throw_bind, guard_ok, bind_ok] at h
    obtain ⟨sprint, -, -, -, -, -, h⟩ := h
    split at h
    · cases h
    · exact (plain_insertSprintSnapshot h).trans rfl
  | .completeSprint id projectId dest, _, h => plain_completeSprint h
  | .cancelSprint id projectId, _, h => by
    simp only [step, cancelSprint, throw_bind, guard_ok, bind_ok, pure_ok] at h
    obtain ⟨sprint, -, -, rfl⟩ := h
    show (pointTasks (closeAssignments db fun a => a.sprintId = id)
      (fun t => t.sprintId = some id) none).plain = db.plain
    rw [plain_pointTasks]
    rfl
  | .assignTaskToSprint taskId sprintId, _, h => by
    simp only [step, assignTaskToSprint] at h
    split at h
    · cases h
    · split at h
      · cases h
        rfl
      · simp only [bind_ok, pure_ok] at h
        obtain ⟨-, -, opened, hopened, rfl⟩ := h
        exact (plain_appendScopeEvent _ _ _).trans (plain_transfer hopened)
  | .removeTaskFromSprint taskId, _, h => by
    simp only [step, removeTaskFromSprint] at h
    split at h
    · cases h
    · split at h
      · cases h
        rfl
      · cases h
        exact (plain_appendScopeEvent _ _ _).trans ((plain_pointTasks _ none).trans rfl)
  | .moveTaskBetweenSprints taskId target expected, _, h => by
    simp only [step, moveTaskBetweenSprints] at h
    split at h
    · cases h
    · split at h
      · cases h
      · split at h
        · cases h
          rfl
        · simp only [bind_ok, pure_ok] at h
          obtain ⟨-, -, opened, hopened, rfl⟩ := h
          exact (plain_appendScopeEvent _ _ _).trans
            ((plain_appendScopeEvent _ _ _).trans (plain_transfer hopened))
  | .elapse _ _ _, h, _ | .createTask _, h, _ | .updateTask _ _, h, _ | .moveTask _ _, h, _
  | .softDeleteTask _, h, _ => by cases h

theorem recordTaskChange_eq (db : Db) (before after : TaskRow) :
    ∃ events, recordTaskChange db before after = { db with events } := by
  have happend : ∀ (projectId sprintId taskId : Uuid) (now : Timestamptz)
      (evs : List AnalyticsEventPayload) (db : Db), ∃ events,
        appendSprintAnalyticsEvents db projectId sprintId taskId now evs = { db with events } := by
    intro projectId sprintId taskId now evs
    unfold appendSprintAnalyticsEvents
    induction evs with
    | nil => exact fun db => ⟨db.events, rfl⟩
    | cons e evs ih =>
      intro db
      obtain ⟨events, hevents⟩ := ih (appendSprintAnalyticsEvent db projectId sprintId taskId now e)
      exact ⟨events, hevents⟩
  unfold recordTaskChange
  split
  · exact ⟨db.events, rfl⟩
  · split
    · exact happend _ _ _ _ _ _
    · exact ⟨db.events, rfl⟩

end Sprints

end CalmBoard
