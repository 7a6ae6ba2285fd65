import CalmBoard.Tasks.Effects
import CalmBoard.Sprints.Frame

/-!
# CalmBoard.Tasks.Stored — what the constraints guarantee of stored tasks

Every write of a task passes the check constraints of its table, and no operation touches the limits
of a project.

* `Stored`: the limits are the given ones, and all tasks meet the constraints.
* `stored_after`: this holds after every run.
-/

namespace CalmBoard.Tasks

open Fallible

/-- The limits of a workspace are `limits`, and its tasks meet the check constraints. -/
structure Stored (limits : List ProjectWipLimitRow) (db : Db) : Prop where
  limits : db.wipLimits = limits
  checked : ∀ t ∈ db.tasks.rows, checkTaskRow t = .ok ()

variable {rt : Runtime} {db db' : Db} {limits : List ProjectWipLimitRow}

theorem checkTaskRow_settle (t : TaskRow) : checkTaskRow t.settle = checkTaskRow t := rfl

theorem Stored.of_core (h : Stored limits db) (hcore : db'.core = db.core) : Stored limits db' where
  limits := (congrArg Db.wipLimits hcore).trans h.limits
  checked t ht := by
    have hrows : db'.tasks.rows.map TaskRow.settle = db.tasks.rows.map TaskRow.settle :=
      congrArg (fun d : Db => d.tasks.rows) hcore
    have hmem : t.settle ∈ db.tasks.rows.map TaskRow.settle := by
      rw [← hrows]
      exact List.mem_map_of_mem ht
    obtain ⟨u, hu, he⟩ := List.mem_map.mp hmem
    rw [← checkTaskRow_settle, ← he, checkTaskRow_settle]
    exact h.checked u hu

theorem Stored.put (h : Stored limits db) {row : TaskRow} (hrow : checkTaskRow row = .ok ()) :
    Stored limits { db with tasks := db.tasks.put row } where
  limits := h.limits
  checked t ht := (Table.mem_put ht).elim (fun he => he ▸ hrow) (h.checked t)

theorem Stored.rewrite (h : Stored limits db) (p : TaskRow → Bool) (f : TaskRow → TaskRow) (hf)
    (hchecked : ∀ t, checkTaskRow (f t) = checkTaskRow t) :
    Stored limits { db with tasks := db.tasks.update p f hf } where
  limits := h.limits
  checked t ht := by
    have hrows : t ∈ (db.tasks.update p f hf).rows := ht
    obtain ⟨u, hu, rfl⟩ := Table.mem_update.mp hrows
    split
    · exact (hchecked u).trans (h.checked u hu)
    · exact h.checked u hu

theorem Stored.same (h : Stored limits db) (hlimits : db'.wipLimits = db.wipLimits)
    (htasks : db'.tasks = db.tasks) : Stored limits db' where
  limits := hlimits.trans h.limits
  checked t ht := h.checked t (htasks ▸ ht)

theorem Stored.recordTaskChange (h : Stored limits db) (before after : TaskRow) :
    Stored limits (Sprints.recordTaskChange db before after) := by
  obtain ⟨events, hevents⟩ := Sprints.recordTaskChange_eq db before after
  rw [hevents]
  exact h.same rfl rfl

theorem Stored.of_plain (h : Stored limits db) (hplain : db'.plain = db.plain) :
    Stored limits db' where
  limits := (congrArg Db.wipLimits hplain).trans h.limits
  checked t ht := by
    have hrows : db'.tasks.rows.map TaskRow.unpointed = db.tasks.rows.map TaskRow.unpointed :=
      congrArg (fun d : Db => d.tasks.rows) hplain
    have hmem : t.unpointed ∈ db.tasks.rows.map TaskRow.unpointed := by
      rw [← hrows]
      exact List.mem_map_of_mem ht
    obtain ⟨u, hu, he⟩ := List.mem_map.mp hmem
    have hcheck : checkTaskRow t.unpointed = .ok () := he ▸ h.checked u hu
    exact hcheck

/-! ### The operations -/

theorem Stored.create (h : Stored limits db) {input : CreateTaskInput}
    (hcreate : create rt db input = .ok db') : Stored limits db' := by
  obtain ⟨customFields, state, lead, row, tasks, -, -, hrow, htasks, hcore⟩ := create_ok hcreate
  suffices hinserted : Stored limits { db with tasks, serialNext := db.serialNext + 1 } from
    hinserted.of_core hcore
  refine ⟨h.limits, fun t ht => ?_⟩
  have hrows : t ∈ db.tasks.rows ++ [row] := (Table.insert?_eq_some htasks).2 ▸ ht
  rcases List.mem_append.mp hrows with hmem | hmem
  · exact h.checked t hmem
  · obtain rfl := List.mem_singleton.mp hmem
    simp only [createRow, bind_ok, pure_ok] at hrow
    obtain ⟨_, -, _, -, _, -, _, -, _, -, _, -, _, -, ⟨⟩, hcheck, rfl⟩ := hrow
    exact hcheck

theorem Stored.updateTask (h : Stored limits db) {taskId : Uuid} {input : UpdateTaskInput}
    (hupdate : update rt db taskId input = .ok db') : Stored limits db' := by
  obtain ⟨plan, -, ⟨-, rfl⟩ | ⟨-, hwrite⟩⟩ := update_ok hupdate
  · exact h
  · obtain ⟨after, written, -, hafter, hcore, rfl⟩ := writeUpdate_ok hwrite
    have hcheck : checkTaskRow after = .ok () := by
      simp only [updateColumns, bind_ok, pure_ok] at hafter
      obtain ⟨_, -, _, -, _, -, _, -, _, -, _, -, _, -, ⟨⟩, hcheck, rfl⟩ := hafter
      exact hcheck
    exact ((h.put hcheck).of_core hcore).recordTaskChange _ _

theorem movedColumns_checked {now : Timestamptz} {row new : TaskRow} {status : TaskStatus}
    {order : Number} {complete : Bool} (h : movedColumns now row status order complete = .ok new) :
    checkTaskRow new = .ok () := by
  simp only [movedColumns, bind_ok, pure_ok] at h
  obtain ⟨_, -, ⟨⟩, hcheck, rfl⟩ := h
  exact hcheck

theorem Stored.placeTask (h : Stored limits db) {movedId : Uuid} {place : TaskStatus × ℕ × Uuid}
    (hplace : placeTask movedId db place = .ok db') : Stored limits db' := by
  unfold Tasks.placeTask at hplace
  split at hplace
  · cases hplace
    exact h
  · simp only [bind_ok, pure_ok] at hplace
    obtain ⟨new, hnew, rfl⟩ := hplace
    exact h.put (movedColumns_checked hnew)

theorem Stored.move (h : Stored limits db) {taskId : Uuid} {input : MoveTaskInput}
    (hmove : move db rt taskId input = .ok db') : Stored limits db' := by
  simp only [Tasks.move, bind_ok, throw_bind, guard_ok] at hmove
  obtain ⟨targetIndex, -, _, -, before, -, -, -, -, hmove⟩ := hmove
  split at hmove
  · simp only [moveByAnchors, bind_ok, pure_ok] at hmove
    obtain ⟨order, -, -, -, moved, hmoved, rfl⟩ := hmove
    exact (h.put (movedColumns_checked hmoved)).recordTaskChange _ _
  · simp only [moveByIndex, bind_ok] at hmove
    obtain ⟨-, -, placed, hplaced, hmove⟩ := hmove
    have hstored := foldlM_ok (I := Stored limits) hplaced h fun _ _ _ _ hs ht => hs.placeTask ht
    split at hmove
    · cases hmove
    · rw [← pure_ok.mp hmove]
      exact hstored.recordTaskChange _ _

theorem Stored.deleteTasks (h : Stored limits db) (p : TaskRow → Bool) :
    Stored limits (deleteTasks db p) := by
  unfold Tasks.deleteTasks
  refine Stored.of_core ?_ (foldl_same _ Db.core (fun db t => core_closeDeletedTask db _ t) _)
  exact h.rewrite _ _ _ fun _ => rfl

theorem Stored.softDelete (h : Stored limits db) {taskId : Uuid}
    (hdelete : softDelete db taskId = .ok db') : Stored limits db' := by
  simp only [Tasks.softDelete, bind_ok] at hdelete
  obtain ⟨before, -, hdelete⟩ := hdelete
  have hdeleted := (h.deleteTasks fun t => t.id = taskId).deleteTasks
    fun t => t.parentId = some taskId
  split at hdelete
  · exact pure_ok.mp hdelete ▸ hdeleted
  · split at hdelete
    · exact pure_ok.mp hdelete ▸ hdeleted.same rfl rfl
    · exact pure_ok.mp hdelete ▸ hdeleted.same rfl rfl

/-- **Step**: every request keeps the limits and the constraints. -/
theorem Stored.step (h : Stored limits db) {r : Request} (hr : step rt r db = .ok db') :
    Stored limits db' := by
  cases r with
  | elapse micros serials uuids =>
    cases hr
    exact h.same rfl rfl
  | createTask input => exact h.create hr
  | updateTask taskId input => exact h.updateTask hr
  | moveTask taskId input => exact h.move hr
  | softDeleteTask taskId => exact h.softDelete hr
  | _ => exact h.of_plain (Sprints.plain_step rfl hr)

/-- **Every run** keeps the limits of its setup and the constraints. -/
theorem stored_after (setup : Setup) (requests : List Request) :
    Stored setup.wipLimits (after rt setup requests) :=
  Runs.run_invariant (fun _ _ _ hs hr => Stored.step hs hr) requests _
    { limits := rfl
      checked := fun _ ht => by cases ht }

end CalmBoard.Tasks
