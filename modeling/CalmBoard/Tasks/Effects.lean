import CalmBoard.Board

/-!
# CalmBoard.Tasks.Effects — what the task repository does to the board

Participants, reminders, recurrence rules and dependencies do not show on a board, so each task
operation comes down to one change of it.

* `writeUpdate_steps`, `create_steps`: the writes of an update and a creation, one group after the
  other.
* `board_create`, `board_update`, `board_move`, `board_softDelete`: the board after a call that
  succeeded.
-/

namespace CalmBoard.Tasks

open Fallible

/-! ### People and reminders -/

section Frame

variable (db : Db)

theorem foldl_same {α β : Type} {f : Db → α → Db} (g : Db → β) (hf : ∀ db a, g (f db a) = g db)
    (l : List α) : g (l.foldl f db) = g db := by
  induction l generalizing db with
  | nil => rfl
  | cons a l ih => rw [List.foldl_cons, ih, hf]

@[simp] theorem bare_addFollower (t u : Uuid) (at' : Timestamptz) :
    (addFollower db t u at').bare = db.bare := by
  unfold addFollower
  split <;> rfl

@[simp] theorem bare_addFollowers (t : Uuid) (us : List Uuid) (at' : Timestamptz) :
    (addFollowers db t us at').bare = db.bare :=
  foldl_same db Db.bare (fun db u => bare_addFollower db t u at') us

@[simp] theorem bare_updateAssignees (t : Uuid) (f : TaskAssigneeRow → TaskAssigneeRow) :
    (updateAssignees db t f).bare = db.bare := rfl

@[simp] theorem bare_upsertAssignee (t u : Uuid) (b : Bool) :
    (upsertAssignee db t u b).bare = db.bare := by
  unfold upsertAssignee
  split <;> rfl

@[simp] theorem bare_syncParticipants (old : Option (Option Uuid)) (new : TaskRow) :
    (syncParticipants db old new).bare = db.bare := by
  unfold syncParticipants
  cases new.deletedAt with
  | some d => rfl
  | none =>
    cases new.reporterId <;> cases new.assigneeId <;> simp only [bare_addFollower,
      bare_upsertAssignee] <;> split <;> simp

@[simp] theorem bare_unwatch (t : Uuid) (us : List Uuid) : (unwatch db t us).bare = db.bare := rfl

@[simp] theorem bare_insertReminders (t : Uuid) (rs : List NormalizedReminder) :
    (insertReminders db t rs).bare = db.bare := rfl

@[simp] theorem bare_closeReminders (t : Uuid) (d : Timestamptz) :
    (closeReminders db t d).bare = db.bare := rfl

@[simp] theorem bare_writeReminders (t : Uuid) (rs : Option (List NormalizedReminder)) :
    (writeReminders db t rs).bare = db.bare := by
  cases rs <;> simp [writeReminders]

@[simp] theorem bare_demoteLead (t : Uuid) (a : ResolvedTaskAssignmentUpdate)
    (lead : Option Uuid) : (demoteLead db t a lead).bare = db.bare := by
  unfold demoteLead
  split <;> simp

@[simp] theorem bare_writeAssignees (t : Uuid) (a : ResolvedTaskAssignmentUpdate) :
    (writeAssignees db t a).bare = db.bare := by
  unfold writeAssignees
  split
  · rw [bare_updateAssignees, foldl_same _ Db.bare fun db u => bare_upsertAssignee db t u _,
      bare_updateAssignees]
  · rfl

@[simp] theorem bare_addAssignee (t : Uuid) (lead : Option Uuid) (u : Uuid) :
    (addAssignee t lead db u).bare = db.bare := by
  unfold addAssignee
  split <;> rfl

end Frame

variable {t : Uuid}

section FrameOk

variable {db db' : Db}

theorem bare_ensureWatchers {us : List Uuid} (h : ensureWatchers db t us = .ok db') :
    db'.bare = db.bare := by
  unfold ensureWatchers at h
  split at h
  · rw [pure_ok] at h
    rw [h]
  · simp only [bind_ok, pure_ok] at h
    obtain ⟨-, -, rfl⟩ := h
    simp

theorem bare_writeFollowers {before : HydratedTask} {a : ResolvedTaskAssignmentUpdate}
    {ids : Option (List Uuid)} (h : writeFollowers db before a ids = .ok db') :
    db'.bare = db.bare := by
  cases ids with
  | some ids =>
    simp only [writeFollowers, replaceWatchersDelta, bind_ok, pure_ok] at h
    obtain ⟨-, -, rfl⟩ := h
    simp
  | none =>
    simp only [writeFollowers, bind_ok] at h
    obtain ⟨mid, hmid, h⟩ := h
    rw [← bare_ensureWatchers hmid]
    cases hlead : a.assigneeId with
    | none =>
      rw [hlead] at h
      cases h
      rfl
    | some lead =>
      simp only [hlead] at h
      split_ifs at h <;> (cases h; rfl)

/-! ### Dependencies -/

theorem unlinked_insertDependency {k : Deps.DependencyKey}
    (h : Deps.insertDependency t db k = .ok db') : db'.unlinked = db.unlinked := by
  simp only [Deps.insertDependency] at h
  split at h
  · cases h
  · cases h
  · split at h
    · cases h
    · cases h
      rfl

theorem unlinked_replaceTaskDependencies {links : List Deps.DependencyLink}
    (h : Deps.replaceTaskDependencies db t links = .ok db') : db'.unlinked = db.unlinked := by
  simp only [Deps.replaceTaskDependencies, bind_ok] at h
  obtain ⟨desired, -, h⟩ := h
  split at h
  · rw [pure_ok.mp h]
  · rw [bind_ok] at h
    obtain ⟨-, -, h⟩ := h
    exact foldlM_ok (I := fun s => s.unlinked = db.unlinked) h rfl fun s k s' _ hs hstep =>
      (unlinked_insertDependency hstep).trans hs

theorem unlinked_writeDependencies {links : Option (List Deps.DependencyLink)}
    (h : writeDependencies db t links = .ok db') : db'.unlinked = db.unlinked := by
  cases links with
  | none =>
    cases h
    rfl
  | some links => exact unlinked_replaceTaskDependencies h

theorem unlinked_writeCreatedDependencies {links : List Deps.DependencyLink}
    (h : writeCreatedDependencies db t links = .ok db') : db'.unlinked = db.unlinked := by
  unfold writeCreatedDependencies at h
  split at h
  · cases h
    rfl
  · exact unlinked_replaceTaskDependencies h

end FrameOk

/-! ### Recurrence rules -/

section Recurrence

variable (db : Db)

theorem core_updateTasks (p : TaskRow → Bool) (f : TaskRow → TaskRow) (hf)
    (hcore : ∀ t, (f t).settle = t.settle) :
    ({ db with tasks := db.tasks.update p f hf } : Db).core = db.core := by
  have h : (db.tasks.update p f hf).map TaskRow.settle (fun _ => rfl) = db.core.tasks := by
    apply Table.ext_rows
    show ((db.tasks.update p f hf).rows).map TaskRow.settle = db.tasks.rows.map TaskRow.settle
    rw [Table.rows_update, List.map_map]
    refine List.map_congr_left fun t _ => ?_
    simp only [Function.comp_apply]
    split
    · exact hcore t
    · rfl
  unfold Db.core at h ⊢
  simp only [h]

@[simp] theorem core_setRecurring (t : Uuid) (b : Bool) : (setRecurring db t b).core = db.core :=
  core_updateTasks db _ _ _ fun _ => rfl

@[simp] theorem core_closeRecurrence (t : Uuid) (d : Timestamptz) :
    (closeRecurrence db t d).core = db.core := by
  unfold closeRecurrence
  split
  · rw [core_setRecurring]
    rfl
  · rfl

@[simp] theorem core_closeDeletedTask (d : Timestamptz) (t : TaskRow) :
    (closeDeletedTask d db t).core = db.core := by
  unfold closeDeletedTask
  rw [core_of_bare (bare_syncParticipants _ _ _), core_closeRecurrence]
  rfl

variable {db} {db' : Db}

theorem core_insertRecurrence {rt : Runtime} {rule : TaskRecurrenceRow}
    (h : insertRecurrence rt db rule = .ok db') : db'.core = db.core := by
  simp only [insertRecurrence, throw_bind, guard_ok, pure_ok] at h
  obtain ⟨-, -, -, -, rfl⟩ := h
  rw [core_setRecurring]
  rfl

theorem core_syncRecurrenceRule {rt : Runtime} {old new : TaskRow}
    (h : syncRecurrenceRule rt db old new = .ok db') : db'.core = db.core := by
  unfold syncRecurrenceRule at h
  split at h
  · cases h
    rfl
  · split at h
    · split at h
      · cases h
        rfl
      · exact core_insertRecurrence h
    · split at h
      · cases h
        simp
      · cases h
        rfl

theorem core_writeRecurrence {rt : Runtime} {r : Option (Option NormalizedRecurrence)}
    (h : writeRecurrence rt db t r = .ok db') : db'.core = db.core := by
  match r with
  | none =>
    cases h
    rfl
  | some none =>
    cases h
    simp
  | some (some r) =>
    simp only [writeRecurrence, bind_ok] at h
    obtain ⟨row, -, h⟩ := h
    rw [core_insertRecurrence h, core_closeRecurrence]

theorem core_writeCreatedRecurrence {rt : Runtime} {r : Option NormalizedRecurrence}
    (h : writeCreatedRecurrence rt db t r = .ok db') : db'.core = db.core := by
  cases r with
  | none =>
    cases h
    rfl
  | some r =>
    simp only [writeCreatedRecurrence, bind_ok] at h
    obtain ⟨row, -, h⟩ := h
    exact core_insertRecurrence h

end Recurrence

/-! ### Events -/

theorem board_appendSprintAnalyticsEvents (projectId sprintId taskId : Uuid)
    (evs : List Sprints.AnalyticsEventPayload) (db : Db) :
    (Sprints.appendSprintAnalyticsEvents db projectId sprintId taskId db.newDate evs).board =
      evs.foldl (Board.append projectId sprintId taskId) db.board := by
  unfold Sprints.appendSprintAnalyticsEvents
  induction evs generalizing db with
  | nil => rfl
  | cons e evs ih => exact ih (Sprints.appendSprintAnalyticsEvent db projectId sprintId taskId
      db.newDate e)

theorem board_recordTaskChange {b : Board} {db : Db} {before after : TaskRow}
    (h : db.board = b.putCard after.card) :
    (Sprints.recordTaskChange db before after).board = b.change before.card after.card := by
  have hsprints : db.sprints = b.sprints := congrArg Board.sprints h
  cases hs : after.sprintId with
  | none =>
    have hcard : after.card.sprintId = none := hs
    simp only [Sprints.recordTaskChange, Board.change, hs, hcard]
    exact h
  | some s =>
    have hcard : after.card.sprintId = some s := hs
    have hactive : Sprints.isActiveSprint db s = b.isActiveSprint s := by
      simp only [Sprints.isActiveSprint, Board.isActiveSprint, hsprints]
    simp only [Sprints.recordTaskChange, Board.change, hs, hcard, hactive]
    split
    · rw [board_appendSprintAnalyticsEvents, h]
      rfl
    · exact h

/-! ### The operations -/

variable {input : UpdateTaskInput} {place : TaskStatus × ℕ × Uuid} {plan : UpdatePlan}
  {row task : TaskRow} {targetIndex : ℕ}

section Operations

variable {rt : Runtime} {db db' : Db} {taskId : Uuid}

theorem board_put (row : TaskRow) :
    ({ db with tasks := db.tasks.put row } : Db).board = db.board.putCard row.card := by
  have h : ({ db with tasks := db.tasks.put row } : Db).cards = db.cards.put row.card :=
    Table.map_put db.tasks TaskRow.card (fun _ => rfl) row
  unfold Db.board Board.putCard
  rw [h]

theorem getById_ok {before : HydratedTask} (h : getById db taskId = .ok before) :
    before = hydrate db before.row ∧ db.tasks.find? taskId = some before.row ∧
      before.row.active = true := by
  unfold getById at h
  cases hf : findActive db taskId with
  | none =>
    rw [hf] at h
    cases h
  | some row =>
    rw [hf] at h
    cases h
    obtain ⟨hfind, hactive⟩ := Option.filter_eq_some_iff.mp hf
    exact ⟨rfl, hfind, hactive⟩

theorem writeUpdate_steps (h : writeUpdate rt db input plan = .ok db') :
    ∃ after written synced peopled linked reminded recurred,
      plan.before.row.version = plan.expectedVersion ∧
      updateColumns db.newDate plan.updates plan.customFields plan.before.row = .ok after ∧
      written.bare = ({ db with tasks := db.tasks.put after } : Db).bare ∧
      syncRecurrenceRule rt written plan.before.row after = .ok synced ∧
      peopled.bare = synced.bare ∧
      writeDependencies peopled plan.before.row.id plan.dependencies = .ok linked ∧
      reminded.bare = linked.bare ∧
      writeRecurrence rt reminded plan.before.row.id
        (if plan.resolved.state.recurrenceChanged then plan.resolved.state.state.recurrence
          else none) = .ok recurred ∧
      Sprints.recordTaskChange recurred plan.before.row after = db' := by
  simp only [writeUpdate, throw_bind, guard_ok] at h
  obtain ⟨hversion, h⟩ := h
  rw [bind_ok] at h
  obtain ⟨after, hafter, h⟩ := h
  rw [bind_ok] at h
  obtain ⟨synced, hsynced, h⟩ := h
  rw [bind_ok] at h
  obtain ⟨followed, hfollowed, h⟩ := h
  rw [bind_ok] at h
  obtain ⟨linked, hlinked, h⟩ := h
  rw [bind_ok] at h
  obtain ⟨recurred, hrecurred, h⟩ := h
  have hdemoted := bare_demoteLead db plan.before.row.id plan.resolved.assignment
    plan.before.row.assigneeId
  generalize demoteLead db plan.before.row.id plan.resolved.assignment
    plan.before.row.assigneeId = demoted at hdemoted hafter hsynced
  have hdate : demoted.newDate = db.newDate :=
    show demoted.bare.newDate = db.bare.newDate from congrArg Db.newDate hdemoted
  have hput : ({ demoted with tasks := demoted.tasks.put after } : Db).bare =
      ({ db with tasks := db.tasks.put after } : Db).bare :=
    show ({ demoted.bare with tasks := demoted.bare.tasks.put after } : Db) =
      { db.bare with tasks := db.bare.tasks.put after } by rw [hdemoted]
  rw [hdate] at hafter
  refine ⟨after, _, synced, followed, linked, _, recurred, not_not.mp hversion, hafter, ?_,
    hsynced, ?_, hlinked, bare_writeReminders _ _ _, hrecurred, pure_ok.mp h⟩
  · split_ifs
    · exact (bare_syncParticipants _ _ _).trans hput
    · exact hput
  · exact (bare_writeFollowers hfollowed).trans (bare_writeAssignees _ _ _)

theorem writeUpdate_ok (h : writeUpdate rt db input plan = .ok db') :
    ∃ after written, plan.before.row.version = plan.expectedVersion ∧
      updateColumns db.newDate plan.updates plan.customFields plan.before.row = .ok after ∧
      written.core = ({ db with tasks := db.tasks.put after } : Db).core ∧
      Sprints.recordTaskChange written plan.before.row after = db' := by
  obtain ⟨after, written, synced, peopled, linked, reminded, recurred, hversion, hafter, hwritten,
    hsynced, hpeopled, hlinked, hreminded, hrecurred, hrecord⟩ := writeUpdate_steps h
  refine ⟨after, recurred, hversion, hafter, ?_, hrecord⟩
  rw [core_writeRecurrence hrecurred, core_of_bare hreminded,
    core_of_unlinked (unlinked_writeDependencies hlinked), core_of_bare hpeopled,
    core_syncRecurrenceRule hsynced, core_of_bare hwritten]

theorem update_ok (h : update rt db taskId input = .ok db') :
    ∃ plan, planUpdate rt db taskId input = .ok plan ∧
      (plan.hasAnyChange = false ∧ db' = db ∨
        plan.hasAnyChange = true ∧ writeUpdate rt db input plan = .ok db') := by
  simp only [update, bind_ok] at h
  obtain ⟨plan, hplan, h⟩ := h
  refine ⟨plan, hplan, ?_⟩
  cases hchange : plan.hasAnyChange with
  | false =>
    rw [if_neg (by simp [hchange])] at h
    exact Or.inl ⟨rfl, (pure_ok.mp h).symm⟩
  | true =>
    rw [if_pos hchange, mapError_ok] at h
    exact Or.inr ⟨rfl, h⟩

/-- **Update**: nothing, or a change of one card. -/
theorem board_update (h : update rt db taskId input = .ok db') :
    db' = db ∨ ∃ plan after, planUpdate rt db taskId input = .ok plan ∧
      plan.hasAnyChange = true ∧ plan.before.row.version = plan.expectedVersion ∧
      updateColumns db.newDate plan.updates plan.customFields plan.before.row = .ok after ∧
      db'.board = db.board.change plan.before.row.card after.card := by
  obtain ⟨plan, hplan, ⟨-, hsame⟩ | ⟨hchange, hwrite⟩⟩ := update_ok h
  · exact Or.inl hsame
  · obtain ⟨after, written, hversion, hafter, hcore, rfl⟩ := writeUpdate_ok hwrite
    exact Or.inr ⟨plan, after, hplan, hchange, hversion, hafter,
      board_recordTaskChange ((board_of_core hcore).trans (board_put after))⟩

/-- A card in another column of the board. -/
def movedCard (c : Card) (status : TaskStatus) : Card :=
  { c with status, progress := if status = .done then 100 else c.progress }

theorem card_movedColumns {now : Timestamptz} {new : TaskRow} {status : TaskStatus} {order : Number}
    {complete : Bool} (h : movedColumns now row status order complete = .ok new) :
    new.card = { row.card with status, progress := if complete then 100 else row.progress } := by
  simp only [movedColumns, bind_ok, pure_ok] at h
  obtain ⟨version, -, -, -, rfl⟩ := h
  rfl

theorem board_moveByAnchors {input : MoveTaskInput} (h : moveByAnchors db rt task input = .ok db') :
    db'.board = db.board.change task.card (movedCard task.card input.status) := by
  simp only [moveByAnchors, bind_ok, pure_ok] at h
  obtain ⟨order, -, -, -, moved, hmoved, rfl⟩ := h
  have hcard : moved.card = movedCard task.card input.status := by
    rw [card_movedColumns hmoved]
    simp [movedCard, TaskRow.card]
  rw [← hcard]
  exact board_recordTaskChange (board_put moved)

/-- A place of the final columns: the task's own, in the new status, or one of a row that keeps its
status. -/
theorem mem_finalPlaces {input : MoveTaskInput}
    (h : place ∈ finalPlaces db task input targetIndex) :
    place.2.2 = task.id ∧ place.1 = input.status ∨
      place.2.2 ≠ task.id ∧ ∃ row ∈ db.tasks.rows, row.id = place.2.2 ∧ row.status = place.1 := by
  have hothers : ∀ status id, id ∈ otherIds db task status →
      id ≠ task.id ∧ ∃ row ∈ db.tasks.rows, row.id = id ∧ row.status = status := by
    intro status id hid
    simp only [otherIds, List.mem_map, List.mem_insertionSort, List.mem_filter, column,
      Bool.and_eq_true, decide_eq_true_eq] at hid
    obtain ⟨row, ⟨⟨hrow, ⟨⟨-, -⟩, hstatus⟩, -⟩, hne⟩, rfl⟩ := hid
    exact ⟨by simpa using hne, row, hrow, rfl, hstatus⟩
  have hplaces : ∀ status ids, place ∈ columnPlaces status ids →
      place.1 = status ∧ place.2.2 ∈ ids := by
    intro status ids hmem
    simp only [columnPlaces, List.mem_map] at hmem
    obtain ⟨⟨id, i⟩, hid, rfl⟩ := hmem
    exact ⟨rfl, List.fst_mem_of_mem_zipIdx hid⟩
  have htarget : place ∈ columnPlaces input.status (withMoved db task input targetIndex) →
      place.2.2 = task.id ∧ place.1 = input.status ∨
        place.2.2 ≠ task.id ∧ ∃ row ∈ db.tasks.rows, row.id = place.2.2 ∧ row.status = place.1 := by
    intro hmem
    obtain ⟨hstatus, hid⟩ := hplaces _ _ hmem
    rcases List.eq_or_mem_of_mem_insertIdx hid with hid | hid
    · exact Or.inl ⟨hid, hstatus⟩
    · obtain ⟨hne, row, hrow, hrid, hrs⟩ := hothers _ _ hid
      exact Or.inr ⟨hne, row, hrow, hrid, hrs.trans hstatus.symm⟩
  simp only [finalPlaces] at h
  split_ifs at h
  · exact htarget h
  · rcases List.mem_append.mp h with h | h
    · obtain ⟨hstatus, hid⟩ := hplaces _ _ h
      obtain ⟨hne, row, hrow, hrid, hrs⟩ := hothers _ _ hid
      exact Or.inr ⟨hne, row, hrow, hrid, hrs.trans hstatus.symm⟩
    · exact htarget h

theorem exists_finalPlaces (db : Db) (task : TaskRow) (input : MoveTaskInput) (targetIndex : ℕ) :
    ∃ place ∈ finalPlaces db task input targetIndex, place.2.2 = task.id := by
  have hids : task.id ∈ withMoved db task input targetIndex :=
    (List.mem_insertIdx (min_le_right _ _)).mpr (Or.inl rfl)
  rw [← List.zipIdx_map_fst 0 (withMoved db task input targetIndex)] at hids
  obtain ⟨p, hp, hid⟩ := List.mem_map.mp hids
  have hplace : (input.status, p.2, p.1) ∈
      columnPlaces input.status (withMoved db task input targetIndex) :=
    List.mem_map_of_mem hp
  refine ⟨(input.status, p.2, p.1), ?_, hid⟩
  unfold finalPlaces
  split
  · exact hplace
  · exact List.mem_append_right _ hplace

theorem findActive_ok (h : findActive db taskId = some row) :
    db.tasks.find? taskId = some row ∧ row.active = true :=
  Option.filter_eq_some_iff.mp h

theorem board_findActive (k : Uuid) : db.board.active? k = (findActive db k).map TaskRow.card :=
  board_active? db k

theorem board_placeTask_other {movedId : Uuid} (hne : place.2.2 ≠ movedId)
    (hstatus : ∀ card, db.board.cards.find? place.2.2 = some card → card.status = place.1)
    (h : placeTask movedId db place = .ok db') : db'.board = db.board := by
  unfold placeTask at h
  cases hf : findActive db place.2.2 with
  | none =>
    rw [hf] at h
    cases h
    rfl
  | some row =>
    simp only [hf, bind_ok, pure_ok] at h
    obtain ⟨new, hnew, rfl⟩ := h
    have hfind := (findActive_ok hf).1
    have hrow : db.board.cards.find? place.2.2 = some row.card := by simp [hfind]
    have hcard : new.card = row.card := by
      rw [card_movedColumns hnew, ← hstatus row.card hrow]
      simp [hne, TaskRow.card]
    have hkey : row.card.id = place.2.2 := Table.key_of_find? hrow
    rw [board_put, hcard]
    exact Board.putCard_self (hkey ▸ hrow)

theorem board_placeTask_moved (hf : findActive db place.2.2 = some row)
    (h : placeTask place.2.2 db place = .ok db') :
    db'.board = db.board.putCard (movedCard row.card place.1) := by
  simp only [placeTask, hf, bind_ok, pure_ok] at h
  obtain ⟨new, hnew, rfl⟩ := h
  have hcard : new.card = movedCard row.card place.1 := by
    rw [card_movedColumns hnew]
    simp [movedCard, TaskRow.card]
  rw [board_put, hcard]

theorem movedCard_movedCard (c : Card) (status : TaskStatus) :
    movedCard (movedCard c status) status = movedCard c status := by
  unfold movedCard
  split <;> rfl

theorem board_places {input : MoveTaskInput} (htask : findActive db task.id = some task)
    (h : (finalPlaces db task input targetIndex).foldlM (placeTask task.id) db = .ok db') :
    db'.board = db.board.putCard (movedCard task.card input.status) := by
  set c := movedCard task.card input.status with hc
  have hcid : c.id = task.id := rfl
  obtain ⟨htaskFind, htaskActive⟩ := findActive_ok htask
  have hfind : db.board.cards.find? c.id = some task.card := by
    rw [hcid, board_find?, htaskFind]
    rfl
  -- between two places the board is the old one or already the new one
  have hstep : ∀ (s t : Db) place, place ∈ finalPlaces db task input targetIndex →
      s.board = db.board ∨ s.board = db.board.putCard c → placeTask task.id s place = .ok t →
      if place.2.2 = task.id then t.board = db.board.putCard c else t.board = s.board := by
    intro s t place hmem hs ht
    obtain ⟨hid, hstatus⟩ | ⟨hne, row, hrow, hrid, hrs⟩ := mem_finalPlaces hmem
    · rw [if_pos hid]
      rw [← hid] at ht hcid
      have hactive : ∃ card, s.board.active? place.2.2 = some card ∧
          movedCard card input.status = c ∧ s.board.putCard c = db.board.putCard c := by
        rw [hid]
        rcases hs with hs | hs
        · exact ⟨task.card, by rw [hs, board_findActive, htask, Option.map_some], rfl, by rw [hs]⟩
        · refine ⟨c, ?_, movedCard_movedCard _ _, by rw [hs, Board.putCard_putCard rfl]⟩
          rw [hs, Board.active?, Board.find?_putCard hfind, if_pos (hcid.trans hid)]
          exact Option.filter_eq_some_iff.mpr ⟨rfl, htaskActive⟩
      obtain ⟨card, hcard, hmoved, hput⟩ := hactive
      rw [board_findActive, Option.map_eq_some_iff] at hcard
      obtain ⟨row, hrow, rfl⟩ := hcard
      rw [board_placeTask_moved hrow ht, hstatus, hmoved, hput]
    · rw [if_neg hne]
      refine board_placeTask_other hne (fun card hcard => ?_) ht
      have hdb : db.board.cards.find? place.2.2 = some card := by
        rcases hs with hs | hs
        · rwa [hs] at hcard
        · rw [hs, Board.find?_putCard hfind] at hcard
          rwa [if_neg fun he => hne (he.symm.trans hcid)] at hcard
      rw [board_find?, ← hrid, Table.find?_of_mem hrow] at hdb
      cases hdb
      exact hrs
  obtain ⟨place, hplace, hid⟩ := exists_finalPlaces db task input targetIndex
  refine foldlM_reaches (I := fun s => s.board = db.board ∨ s.board = db.board.putCard c)
    (G := fun s => s.board = db.board.putCard c) hplace h (Or.inl rfl) ?_ ?_ ?_
  · intro s p t hp hs ht
    have := hstep s t p hp hs ht
    split_ifs at this
    · exact Or.inr this
    · rwa [this]
  · intro s t hs ht
    have := hstep s t place hplace hs ht
    rwa [if_pos hid] at this
  · intro s p t hp hs ht
    have := hstep s t p hp (Or.inr hs) ht
    split_ifs at this
    · exact this
    · rwa [this]

theorem board_moveByIndex {input : MoveTaskInput} (htask : findActive db task.id = some task)
    (h : moveByIndex db task input targetIndex = .ok db') :
    db'.board = db.board.change task.card (movedCard task.card input.status) := by
  simp only [moveByIndex, bind_ok] at h
  obtain ⟨-, -, placed, hplaced, h⟩ := h
  have hboard := board_places htask hplaced
  cases hmoved : placed.tasks.find? task.id with
  | none =>
    rw [hmoved] at h
    cases h
  | some moved =>
    simp only [hmoved, pure_ok] at h
    have hcard : moved.card = movedCard task.card input.status := by
      have hfind : placed.board.cards.find? task.id = some moved.card := by
        rw [board_find?, hmoved]
        rfl
      have hold : db.board.cards.find? (movedCard task.card input.status).id = some task.card := by
        show db.board.cards.find? task.id = _
        rw [board_find?, (findActive_ok htask).1]
        rfl
      rw [hboard, Board.find?_putCard hold] at hfind
      exact (Option.some.inj ((if_pos rfl).symm.trans hfind)).symm
    rw [← h, ← hcard]
    exact board_recordTaskChange (hcard ▸ hboard)

/-- **Move**: one root card goes to another column. -/
theorem board_move {input : MoveTaskInput} (h : move db rt taskId input = .ok db') :
    ∃ card, db.board.active? taskId = some card ∧
      db'.board = db.board.change card (movedCard card input.status) := by
  have hwrite : ∃ before : HydratedTask, getById db taskId = .ok before ∧
      (moveByAnchors db rt before.row input = .ok db' ∨
        ∃ targetIndex, moveByIndex db before.row input targetIndex = .ok db') := by
    simp only [move, bind_ok, throw_bind] at h
    obtain ⟨targetIndex, -, expectedVersion, -, before, hbefore, h⟩ := h
    rw [guard_ok, guard_ok, guard_ok] at h
    obtain ⟨-, -, -, h⟩ := h
    refine ⟨before, hbefore, ?_⟩
    split at h
    · exact Or.inl h
    · exact Or.inr ⟨targetIndex, h⟩
  obtain ⟨before, hbefore, hwrite⟩ := hwrite
  obtain ⟨-, hfind, hactive⟩ := getById_ok hbefore
  have hfa : findActive db taskId = some before.row :=
    Option.filter_eq_some_iff.mpr ⟨hfind, hactive⟩
  refine ⟨before.row.card, by rw [board_findActive, hfa, Option.map_some], ?_⟩
  rcases hwrite with h | ⟨targetIndex, h⟩
  · exact board_moveByAnchors h
  · exact board_moveByIndex (by rw [Table.key_of_find? hfind]; exact hfa) h

theorem board_deleteTasks {p : TaskRow → Bool} {q : Card → Bool} (hpq : ∀ t, p t = q t.card) :
    (deleteTasks db p).board = db.board.delete q := by
  unfold deleteTasks
  rw [board_of_core (foldl_same _ Db.core (fun db t => core_closeDeletedTask db _ t) _)]
  unfold Db.board Board.delete
  congr 1
  apply Table.ext_rows
  rw [Table.rows_update, rows_cards, Table.rows_update, rows_cards, List.map_map, List.map_map]
  refine List.map_congr_left fun t _ => ?_
  simp only [Function.comp_apply]
  by_cases hsel : (t.active && p t) = true
  · rw [if_pos hsel, if_pos (c := (t.card.active && q t.card) = true) (hpq t ▸ hsel)]
    rfl
  · rw [if_neg hsel, if_neg (c := (t.card.active && q t.card) = true) (hpq t ▸ hsel)]

/-- **Soft deletion**. -/
theorem board_softDelete (h : softDelete db taskId = .ok db') :
    ∃ card, db.board.active? taskId = some card ∧ db'.board = db.board.softDelete card := by
  simp only [softDelete, bind_ok] at h
  obtain ⟨before, hbefore, h⟩ := h
  obtain ⟨-, hfind, hactive⟩ := getById_ok hbefore
  have hfa : findActive db taskId = some before.row :=
    Option.filter_eq_some_iff.mpr ⟨hfind, hactive⟩
  obtain rfl : before.row.id = taskId := Table.key_of_find? hfind
  refine ⟨before.row.card, by rw [board_findActive, hfa, Option.map_some], ?_⟩
  set deleted := deleteTasks (deleteTasks db fun t => t.id = before.row.id)
    fun t => t.parentId = some before.row.id with hdef
  have hself : (deleteTasks db fun t => t.id = before.row.id).board =
      db.board.delete fun c => c.id = before.row.card.id := board_deleteTasks fun _ => rfl
  have hdeleted : deleted.board = (db.board.delete fun c => c.id = before.row.card.id).delete
      fun c => c.parentId = some before.row.card.id := by
    rw [← hself]
    exact board_deleteTasks fun _ => rfl
  cases hs : before.row.sprintId with
  | none =>
    have hcard : before.row.card.sprintId = none := hs
    simp only [hs, pure_ok] at h
    simp only [Board.softDelete, hcard]
    rw [← h, hdeleted]
  | some s =>
    have hcard : before.row.card.sprintId = some s := hs
    simp only [hs] at h
    simp only [Board.softDelete, hcard]
    rw [← hdeleted]
    have hdate : deleted.newDate = db.newDate := congrArg Board.newDate hdeleted
    split at h
    · next hactive =>
      rw [← pure_ok.mp h, ← hdate]
      exact (if_pos (c := (deleted.board.close _).isActiveSprint s = true) hactive).symm
    · next hactive =>
      rw [← pure_ok.mp h]
      exact (if_neg (c := (deleted.board.close _).isActiveSprint s = true) hactive).symm

theorem checkTaskRow_ok (h : checkTaskRow row = .ok ()) :
    ∀ p, row.storyPoints = some p → 0 ≤ p := by
  simp only [checkTaskRow, throw_bind, guard_ok] at h
  obtain ⟨-, -, -, hpoints, -⟩ := h
  intro p hp
  rw [hp] at hpoints
  simpa using hpoints

theorem createRow_ok {input : CreateTaskInput} {customFields : JsObject}
    {state : CanonicalTaskState} {lead : Option Uuid}
    (h : createRow db input customFields state lead = .ok row) :
    int4 state.progress = .ok row.progress ∧ row.status = state.status ∧
      row.projectId = input.projectId ∧ row.parentId = input.parentId ∧ row.sprintId = none ∧
      row.deletedAt = none ∧ ∀ p, row.storyPoints = some p → 0 ≤ p := by
  simp only [createRow, bind_ok, pure_ok] at h
  obtain ⟨_, -, _, -, _, -, _, -, _, -, _, hprogress, _, -, _, hcheck, rfl⟩ := h
  exact ⟨hprogress, rfl, rfl, rfl, rfl, rfl, checkTaskRow_ok hcheck⟩

theorem create_steps {input : CreateTaskInput} (h : create rt db input = .ok db') :
    ∃ customFields state lead links row tasks inserted recurred,
      validateCreateInput rt db input = .ok () ∧
      resolveTaskStateCreation rt (.time db.now.millis) input.toTaskStateInput = .ok state ∧
      createRow db input customFields state lead = .ok row ∧ db.tasks.insert? row = some tasks ∧
      inserted.bare = ({ db with
        tasks, uuidCount := db.uuidCount + 1, serialNext := db.serialNext + 1 } : Db).bare ∧
      writeCreatedRecurrence rt inserted row.id state.recurrence.join = .ok recurred ∧
      writeCreatedDependencies recurred row.id links = .ok db' := by
  simp only [create, bind_ok] at h
  obtain ⟨⟨⟩, hvalid, customFields, -, reminders, -, state, hstate, assignment, -, links, -, row,
    hrow, inserted, hinserted, watched, hwatched, recurred, hrecurred, h⟩ := h
  have hbare : (insertReminders watched row.id reminders).bare = inserted.bare :=
    (bare_ensureWatchers hwatched).trans
      (foldl_same _ Db.bare (fun db u => bare_addAssignee db _ _ u) _)
  unfold insertTask at hinserted
  split at hinserted
  · cases hinserted
  · cases htasks : db.tasks.insert? row with
    | none =>
      rw [htasks] at hinserted
      cases hinserted
    | some tasks =>
      simp only [htasks] at hinserted
      cases hinserted
      exact ⟨customFields, state, assignment.assigneeId, links, row, tasks, _, recurred, hvalid,
        hstate, hrow, htasks, hbare.trans (bare_syncParticipants _ _ _), hrecurred, h⟩

theorem create_ok {input : CreateTaskInput} (h : create rt db input = .ok db') :
    ∃ customFields state lead row tasks, validateCreateInput rt db input = .ok () ∧
      resolveTaskStateCreation rt (.time db.now.millis) input.toTaskStateInput = .ok state ∧
      createRow db input customFields state lead = .ok row ∧ db.tasks.insert? row = some tasks ∧
      db'.core = ({ db with tasks, serialNext := db.serialNext + 1 } : Db).core := by
  obtain ⟨customFields, state, lead, links, row, tasks, inserted, recurred, hvalid, hstate, hrow,
    htasks, hinserted, hrecurred, hlinked⟩ := create_steps h
  refine ⟨customFields, state, lead, row, tasks, hvalid, hstate, hrow, htasks, ?_⟩
  rw [core_of_unlinked (unlinked_writeCreatedDependencies hlinked),
    core_writeCreatedRecurrence hrecurred, core_of_bare hinserted]
  rfl

/-- **Create**: one new card. -/
theorem board_create {input : CreateTaskInput} (h : create rt db input = .ok db') :
    ∃ card cards, db.board.cards.insert? card = some cards ∧
      db'.board = { db.board with cards := cards } ∧
      validateCreateInput rt db input = .ok () ∧
      card.projectId = input.projectId ∧ card.parentId = input.parentId ∧ card.sprintId = none ∧
      card.deletedAt = none ∧ (card.status = .done → card.progress = 100) ∧
      ∀ p, card.storyPoints = some p → 0 ≤ p := by
  obtain ⟨_, state, _, row, tasks, hvalid, hstate, hrow, htasks, hcore⟩ := create_ok h
  obtain ⟨hprogress, hstatus, hproject, hparent, hsprint, hdeleted, hpoints⟩ := createRow_ok hrow
  refine ⟨row.card, tasks.map TaskRow.card fun _ => rfl, ?_, ?_, hvalid, hproject, hparent,
    hsprint, hdeleted, fun hdone => ?_, hpoints⟩
  · exact Table.insert?_map htasks TaskRow.card fun _ => rfl
  · rw [board_of_core hcore]
    rfl
  · have hfin := resolveTaskStateCreation_ok hstate (hstatus ▸ hdone)
    have := int4_ok hprogress
    rw [hfin, Number.fin.injEq] at this
    exact_mod_cast this.symm

theorem planUpdate_change (h : planUpdate rt db taskId input = .ok plan) :
    plan.resolved.state.hasStateChange = true → plan.hasAnyChange = true := by
  simp only [planUpdate, bind_ok, pure_ok] at h
  obtain ⟨before, -, _, -, ⟨⟩, -, resolved, -, _, -, _, -, _, -, rfl⟩ := h
  intro hchange
  have hstate : resolved.state.hasStateChange = true := hchange
  simp only [hstate, Bool.or_true, Bool.true_or]

theorem planUpdate_ok (h : planUpdate rt db taskId input = .ok plan) :
    getById db taskId = .ok plan.before ∧
      validateUpdateInput rt db plan.before input = .ok () ∧
      resolveUpdate rt db plan.before input = .ok plan.resolved ∧
      plan.updates = taskUpdates plan.before input plan.resolved := by
  simp only [planUpdate, bind_ok, pure_ok] at h
  obtain ⟨before, hbefore, _, -, ⟨⟩, hvalid, resolved, hresolved, _, -, _, -, _, -, rfl⟩ := h
  exact ⟨hbefore, hvalid, hresolved, rfl⟩

end Operations

end CalmBoard.Tasks
