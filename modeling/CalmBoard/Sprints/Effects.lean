import CalmBoard.Board

/-!
# CalmBoard.Sprints.Effects — what the sprint repository does to the board

Every operation of the sprint repository is a change of the board alone.

* `verifySprintMembershipConsistency_ok`: the check before a snapshot, as a statement about the board.
* `board_startSprint`, `board_completeSprint`, …: the board after a call that succeeded.
-/

namespace CalmBoard.Sprints

open Fallible

variable {db db' : Db}

/-! ### Reading -/

variable {projectId : Uuid}

theorem members_board (sprintId : Uuid) :
    db.board.members sprintId = (sprintTasks db sprintId).map TaskRow.card := by
  unfold Board.members sprintTasks
  show List.filter _ (db.tasks.rows.map TaskRow.card) = _
  rw [List.filter_map]
  rfl

theorem stats_board (sprintId : Uuid) : db.board.stats sprintId = sprintStats db sprintId := by
  unfold Board.stats sprintStats
  rw [members_board, List.map_map]
  rfl

theorem verifySprintMembershipConsistency_ok {sprintId : Uuid} :
    verifySprintMembershipConsistency db sprintId = .ok () ↔ db.board.Consistent sprintId := by
  unfold verifySprintMembershipConsistency
  cases htask : (sprintTasks db sprintId).find? fun t =>
      (openAssignments db t.id sprintId).length ≠ 1 with
  | some t =>
    have hbad : (openAssignments db t.id sprintId).length ≠ 1 := by
      simpa only [decide_eq_true_eq] using List.find?_some htask
    refine ⟨fun h => by simp at h, fun h => absurd (h.assigned t.card ?_) hbad⟩
    rw [members_board]
    exact List.mem_map_of_mem (List.mem_of_find?_eq_some htask)
  | none =>
    have hassigned : ∀ c ∈ db.board.members sprintId, (db.board.assignments.filter fun a =>
        a.taskId = c.id && a.sprintId = sprintId && a.opened).length = 1 := by
      intro c hc
      rw [members_board] at hc
      obtain ⟨t, ht, rfl⟩ := List.mem_map.mp hc
      by_contra hne
      exact List.find?_eq_none.mp htask t ht (decide_eq_true hne)
    cases hrogue : db.assignments.find? (rogueAssignment db sprintId) with
    | some a =>
      refine ⟨fun h => by simp at h, fun h => ?_⟩
      have hmem := List.mem_of_find?_eq_some hrogue
      have hr := List.find?_some hrogue
      simp only [rogueAssignment, Bool.and_eq_true, decide_eq_true_eq, Option.any_eq_true,
        Bool.or_eq_true, Bool.not_eq_true'] at hr
      obtain ⟨⟨hsprint, hopen⟩, t, ht, hbad⟩ := hr
      have hcard : db.board.cards.find? a.taskId = some t.card := by rw [board_find?, ht]; rfl
      obtain ⟨hpoint, hactive⟩ := h.pointed a hmem hsprint hopen t.card hcard
      rcases hbad with hbad | hbad
      · exact absurd hpoint hbad
      · rw [card_active, hbad] at hactive
        cases hactive
    | none =>
      refine ⟨fun _ => ⟨hassigned, fun a ha hs ho c hc => ?_⟩, fun _ => rfl⟩
      have hgood := List.find?_eq_none.mp hrogue a ha
      rw [board_find?, Option.map_eq_some_iff] at hc
      obtain ⟨t, ht, rfl⟩ := hc
      simp only [rogueAssignment, hs, ho, ht, Option.any_some, Bool.or_eq_true, decide_eq_true_eq,
        decide_true, Bool.true_and, Bool.not_eq_true', not_or, not_not,
        Bool.not_eq_false] at hgood
      exact hgood

theorem requireSprint_ok {id : Uuid} {s : SprintRow} (h : requireSprint db id projectId = .ok s) :
    db.board.sprints.find? id = some s ∧ s.deletedAt = none ∧ s.projectId = projectId := by
  unfold requireSprint at h
  cases hs : (findSprint db id).filter fun s => s.projectId = projectId with
  | none =>
    rw [hs] at h
    cases h
  | some s' =>
    rw [hs] at h
    cases h
    obtain ⟨hfound, hproject⟩ := Option.filter_eq_some_iff.mp hs
    obtain ⟨hfind, hdeleted⟩ := Option.filter_eq_some_iff.mp hfound
    exact ⟨hfind, by simpa using hdeleted, by simpa using hproject⟩

/-! ### Writing -/

variable {target : Option Uuid} {taskId : Uuid}

theorem board_pointTasks {p : TaskRow → Bool} {q : Card → Bool} (hpq : ∀ t, p t = q t.card)
    (sprintId : Option Uuid) : (pointTasks db p sprintId).board = db.board.point q sprintId := by
  unfold pointTasks Db.board Board.point
  congr 1
  apply Table.ext_rows
  rw [Table.rows_update, rows_cards, Table.rows_update, rows_cards, List.map_map, List.map_map]
  refine List.map_congr_left fun t _ => ?_
  simp only [Function.comp_apply]
  by_cases hsel : p t = true
  · rw [if_pos hsel, if_pos (c := q t.card = true) (hpq t ▸ hsel)]
    rfl
  · rw [if_neg hsel, if_neg (c := q t.card = true) (hpq t ▸ hsel)]

theorem board_pointTask (taskId : Uuid) (sprintId : Option Uuid) :
    (pointTasks db (fun t => t.id = taskId) sprintId).board =
      db.board.point (fun c => c.id = taskId) sprintId :=
  board_pointTasks (p := fun t => t.id = taskId) (q := fun c => c.id = taskId) (fun _ => rfl)
    sprintId

theorem board_putSprint (s : SprintRow) :
    ({ db with sprints := db.sprints.put s } : Db).board = db.board.putSprint s := rfl

theorem board_openAssignment (h : openAssignment db taskId projectId target = .ok db') :
    db'.board = db.board.assign taskId projectId target := by
  cases target with
  | none =>
    cases h
    rfl
  | some s =>
    simp only [openAssignment] at h
    split_ifs at h
    cases h
    rfl

theorem board_appendScopeEvent (task : TaskRow) (type : SprintEventType) (sprintId : Option Uuid) :
    (appendScopeEvent db task type sprintId).board =
      db.board.scope task.card type sprintId := by
  cases sprintId with
  | none => rfl
  | some s =>
    simp only [appendScopeEvent, Board.scope, board_sprints]
    cases db.sprints.find? s with
    | none => rfl
    | some sprint =>
      simp only
      split <;> rfl

theorem insertSprintSnapshot_ok {sprintId : Uuid} {type : SprintSnapshotType}
    {counters : SprintCounters}
    (h : insertSprintSnapshot db projectId sprintId type counters = .ok db') :
    (∀ s ∈ db.board.snapshots, s.sprintId = sprintId → s.snapshotType ≠ type) ∧
      db' = { db with snapshots := db.snapshots ++ [
        { projectId, sprintId, snapshotType := type, dataQuality := .exact, counters
          capturedAt := db.newDate }] } := by
  simp only [insertSprintSnapshot] at h
  split_ifs at h with _ _ htaken
  cases h
  refine ⟨fun s hs hid htype => htaken ?_, rfl⟩
  rw [List.any_eq_true]
  exact ⟨s, hs, by simp [hid, htype]⟩

/-! ### The operations -/

theorem board_createSprint {input : CreateSprintInput} (h : createSprint db input = .ok db') :
    ∃ row sprints, db.board.sprints.insert? row = some sprints ∧
      db'.board = { db.board with sprints } := by
  simp only [createSprint, throw_bind, guard_ok, bind_ok] at h
  obtain ⟨-, name, -, -, h⟩ := h
  split at h
  · cases h
  · next sprints hsprints =>
    cases h
    exact ⟨_, sprints, hsprints, rfl⟩

/-- **Start**. -/
theorem board_startSprint {id : Uuid} (h : startSprint db id projectId = .ok db') :
    ∃ sprint, db.board.sprints.find? id = some sprint ∧ sprint.status = .planned ∧
      db.board.Consistent id ∧ (∀ s ∈ db.board.snapshots, s.sprintId = id → s.snapshotType ≠ .start) ∧
      db'.board = db.board.start sprint := by
  simp only [startSprint, bind_ok, throw_bind, guard_ok] at h
  obtain ⟨sprint, hsprint, hplanned, ⟨⟩, hverify, -, h⟩ := h
  obtain ⟨hfind, -, rfl⟩ := requireSprint_ok hsprint
  obtain rfl : sprint.id = id := Table.key_of_find? hfind
  refine ⟨sprint, hfind, not_not.mp hplanned, verifySprintMembershipConsistency_ok.mp hverify, ?_⟩
  split at h
  · cases h
  · next hsnap =>
    obtain ⟨hfree, rfl⟩ := insertSprintSnapshot_ok h
    refine ⟨hfree, ?_⟩
    unfold Board.start Board.snapshot
    rw [stats_board]
    rfl

theorem board_releaseTask {id : Uuid} (h : releaseTask id projectId target db taskId = .ok db') :
    db'.board = db.board.release id projectId target taskId := by
  simp only [releaseTask, bind_ok, pure_ok] at h
  obtain ⟨opened, hopened, rfl⟩ := h
  rw [board_pointTask, board_openAssignment hopened]
  rfl

theorem board_releaseTasks {id : Uuid} :
    ∀ {taskIds : List Uuid} {db : Db}, taskIds.foldlM (releaseTask id projectId target) db = .ok db' →
      db'.board = taskIds.foldl (Board.release id projectId target) db.board
  | [], _, h => by
    rw [List.foldlM_nil, pure_ok] at h
    rw [h, List.foldl_nil]
  | taskId :: taskIds, db, h => by
    rw [List.foldlM_cons, bind_ok] at h
    obtain ⟨mid, hmid, h⟩ := h
    rw [List.foldl_cons, ← board_releaseTask hmid]
    exact board_releaseTasks h

theorem requireDestination_ok {id : Uuid} {dest : IncompleteDestination}
    (h : requireDestination db id projectId dest = .ok target) :
    ∀ s, target = some s → s ≠ id ∧ ∃ sprint, db.board.sprints.find? s = some sprint ∧
      sprint.status = .planned := by
  rintro s rfl
  cases dest with
  | backlog => cases h
  | sprint t =>
    simp only [requireDestination] at h
    split_ifs at h with hne
    split at h
    · cases h
    · next sprint hsprint =>
      split_ifs at h with hplanned
      cases h
      obtain ⟨hfound, -⟩ := Option.filter_eq_some_iff.mp hsprint
      exact ⟨hne, sprint, (Option.filter_eq_some_iff.mp hfound).1, not_not.mp hplanned⟩

/-- **Completion**. -/
theorem board_completeSprint {id : Uuid} {dest : IncompleteDestination}
    (h : completeSprint db id projectId dest = .ok db') :
    ∃ sprint target, db.board.sprints.find? id = some sprint ∧ sprint.status = .active ∧
      (∀ s, target = some s → s ≠ id ∧ ∃ t, db.board.sprints.find? s = some t ∧
        t.status = .planned) ∧
      db.board.Consistent id ∧
      (∀ s ∈ db.board.snapshots, s.sprintId = id → s.snapshotType ≠ .complete) ∧
      db'.board = db.board.complete sprint target := by
  simp only [completeSprint, bind_ok, throw_bind, guard_ok, pure_ok] at h
  obtain ⟨sprint, hsprint, hactive, target, htarget, ⟨⟩, hverify, snapped, hsnapped, released,
    hreleased, rfl⟩ := h
  obtain ⟨hfind, -, rfl⟩ := requireSprint_ok hsprint
  obtain rfl : sprint.id = id := Table.key_of_find? hfind
  obtain ⟨hfree, hsnap⟩ := insertSprintSnapshot_ok hsnapped
  refine ⟨sprint, target, hfind, not_not.mp hactive, requireDestination_ok htarget,
    verifySprintMembershipConsistency_ok.mp hverify, hfree, ?_⟩
  have hboard : snapped.board = db.board.snapshot sprint.projectId sprint.id .complete := by
    rw [hsnap]
    unfold Board.snapshot
    rw [stats_board]
    rfl
  have hunfinished : unfinishedTasks snapped sprint.id =
      ((db.board.members sprint.id).filter fun c => c.status ≠ .done).map Card.id := by
    rw [members_board, List.filter_map, List.map_map, hsnap]
    rfl
  have hrel := board_releaseTasks hreleased
  rw [hboard, hunfinished] at hrel
  rw [board_putSprint, hrel]
  rfl

/-- **Cancellation**. -/
theorem board_cancelSprint {id : Uuid} (h : cancelSprint db id projectId = .ok db') :
    ∃ sprint, db.board.sprints.find? id = some sprint ∧
      (sprint.status = .planned ∨ sprint.status = .active) ∧
      db'.board = db.board.cancel sprint := by
  simp only [cancelSprint, bind_ok, throw_bind, guard_ok, pure_ok] at h
  obtain ⟨sprint, hsprint, hstatus, rfl⟩ := h
  obtain ⟨hfind, -, rfl⟩ := requireSprint_ok hsprint
  obtain rfl : sprint.id = id := Table.key_of_find? hfind
  refine ⟨sprint, hfind, ?_, ?_⟩
  · cases hs : sprint.status <;> simp_all
  · rw [board_putSprint, board_pointTasks (p := fun t => t.sprintId = some sprint.id)
      (q := fun c => c.sprintId = some sprint.id) fun _ => rfl]
    rfl

theorem requireTarget_ok {task : TaskRow} {missing : RepoError}
    (h : requireTarget db task missing target = .ok ()) :
    ∀ s, target = some s → ∃ sprint, db.board.sprints.find? s = some sprint ∧
      (sprint.status = .planned ∨ sprint.status = .active) := by
  rintro s rfl
  simp only [requireTarget] at h
  split at h
  · cases h
  · next sprint hsprint =>
    split_ifs at h with hproject hstatus
    refine ⟨sprint, (Option.filter_eq_some_iff.mp hsprint).1, ?_⟩
    cases hs : sprint.status <;> simp_all

/-- **Assignment**: the new sprint hears of it. -/
theorem board_assignTaskToSprint {sprintId : Uuid}
    (h : assignTaskToSprint db taskId sprintId = .ok db') :
    db' = db ∨ ∃ card sprint, db.board.active? taskId = some card ∧
      card.sprintId ≠ some sprintId ∧ db.board.sprints.find? sprintId = some sprint ∧
      (sprint.status = .planned ∨ sprint.status = .active) ∧
      db'.board = (db.board.transfer (fun a => a.taskId = taskId) taskId card.projectId
        (some sprintId)).scope card .taskAdded (some sprintId) := by
  unfold assignTaskToSprint at h
  cases htask : (db.tasks.find? taskId).filter TaskRow.active with
  | none =>
    rw [htask] at h
    cases h
  | some task =>
    simp only [htask] at h
    split_ifs at h with hsame
    · cases h
      exact Or.inl rfl
    · simp only [bind_ok, pure_ok] at h
      obtain ⟨⟨⟩, htarget, opened, hopened, rfl⟩ := h
      obtain ⟨sprint, hsprint, hstatus⟩ := requireTarget_ok htarget sprintId rfl
      refine Or.inr ⟨task.card, sprint, ?_, hsame, hsprint, hstatus, ?_⟩
      · rw [board_active?, htask, Option.map_some]
      · rw [board_appendScopeEvent, board_pointTask, board_openAssignment hopened]
        rfl

/-- **Removal**. -/
theorem board_removeTaskFromSprint (h : removeTaskFromSprint db taskId = .ok db') :
    db' = db ∨ ∃ card sprintId, db.board.cards.find? taskId = some card ∧
      card.sprintId = some sprintId ∧
      db'.board = (db.board.transfer (fun a => a.taskId = taskId && a.sprintId = sprintId) taskId
        card.projectId none).scope card .taskRemoved (some sprintId) := by
  unfold removeTaskFromSprint at h
  cases htask : db.tasks.find? taskId with
  | none =>
    rw [htask] at h
    cases h
  | some task =>
    cases hs : task.sprintId with
    | none =>
      simp only [htask, hs] at h
      cases h
      exact Or.inl rfl
    | some s =>
      simp only [htask, hs] at h
      cases h
      refine Or.inr ⟨task.card, s, by rw [board_find?, htask]; rfl, hs, ?_⟩
      rw [board_appendScopeEvent, board_pointTask]
      rfl

/-- **Move**: both sprints hear of it. -/
theorem board_moveTaskBetweenSprints {expected : Option (Option Uuid)}
    (h : moveTaskBetweenSprints db taskId target expected = .ok db') :
    db' = db ∨ ∃ card, db.board.active? taskId = some card ∧ card.sprintId ≠ target ∧
      (∀ s, target = some s → ∃ sprint, db.board.sprints.find? s = some sprint ∧
        (sprint.status = .planned ∨ sprint.status = .active)) ∧
      db'.board = ((db.board.transfer (fun a => a.taskId = taskId) taskId card.projectId
        target).scope card .taskRemoved card.sprintId).scope card .taskAdded target := by
  unfold moveTaskBetweenSprints at h
  cases htask : (db.tasks.find? taskId).filter TaskRow.active with
  | none =>
    rw [htask] at h
    cases h
  | some task =>
    simp only [htask] at h
    split_ifs at h with hexpected hsame
    · cases h
      exact Or.inl rfl
    · simp only [bind_ok, pure_ok] at h
      obtain ⟨⟨⟩, htarget, opened, hopened, rfl⟩ := h
      refine Or.inr ⟨task.card, ?_, hsame, requireTarget_ok htarget, ?_⟩
      · rw [board_active?, htask, Option.map_some]
      · rw [board_appendScopeEvent, board_appendScopeEvent, board_pointTask,
          board_openAssignment hopened]
        rfl

end CalmBoard.Sprints
