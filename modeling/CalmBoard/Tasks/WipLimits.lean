import CalmBoard.Tree
import CalmBoard.Tasks.Stored

/-!
# CalmBoard.Tasks.WipLimits — the limits of the columns

A project may limit how many active top-level tasks a status column holds.  `move` counts the column
before it puts a task there; `create` and `update` put tasks into columns as well and do not count.

* `WithinLimits`, `FindsRoom`: no column holds more than its limit; a creation or an update that
  brings a top-level task into a column finds room in it.
* `MayMove`: what both forms of `move` check.
* `wip_limits_hold`: columns stay within their limits, and the two forms of `move` accept the same
  changes of status.
-/

namespace CalmBoard.Tasks

open Fallible

variable {rt : Runtime} {db db' : Db}

/-! ### Columns and limits -/

variable {status : TaskStatus}

/-- The limit of a column. -/
def wipLimit (db : Db) (projectId : Uuid) (status : TaskStatus) : Option ℤ :=
  (db.wipLimits.find? fun w => w.projectId = projectId && w.status = status).map
    ProjectWipLimitRow.limit

/-- A limited column that holds a task holds no more than its limit. -/
def WithinLimits (db : Db) : Prop :=
  ∀ projectId status limit, wipLimit db projectId status = some limit →
    column db projectId status ≠ [] → ((column db projectId status).length : ℤ) ≤ limit

/-- One more task fits into a column. -/
def HasRoom (db : Db) (projectId : Uuid) (status : TaskStatus) : Prop :=
  ∀ limit ∈ wipLimit db projectId status, ((column db projectId status).length : ℤ) + 1 ≤ limit

/-- A new top-level task, or one that an update brings into a column, finds room there. -/
def FindsRoom (db : Db) : Request → Prop
  | .createTask input =>
    input.parentId = none → HasRoom db input.projectId (input.status.getD .todo)
  | .updateTask taskId input => ∀ before ∈ findActive db taskId,
      input.parentId.getD before.parentId = none →
        (before.parentId = none → input.status.getD before.status ≠ before.status) →
          HasRoom db before.projectId (input.status.getD before.status)
  | _ => True

instance (db : Db) (projectId : Uuid) (status : TaskStatus) :
    Decidable (HasRoom db projectId status) :=
  inferInstanceAs (Decidable (∀ limit ∈ wipLimit db projectId status, _ ≤ limit))

instance (db : Db) : DecidablePred (FindsRoom db)
  | .createTask _ | .updateTask .. => by dsimp only [FindsRoom]; infer_instance
  | .elapse .. | .moveTask .. | .softDeleteTask _ | .createSprint _
  | .startSprint .. | .completeSprint .. | .cancelSprint .. | .assignTaskToSprint ..
  | .removeTaskFromSprint _ | .moveTaskBetweenSprints .. => .isTrue trivial

structure InColumn (projectId : Uuid) (status : TaskStatus) (c : Card) : Prop where
  active : c.active = true
  projectId : c.projectId = projectId
  status : c.status = status
  root : c.parentId = none

def columnIds (db : Db) (projectId : Uuid) (status : TaskStatus) : List Uuid :=
  (column db projectId status).map TaskRow.id

theorem mem_columnIds {projectId k : Uuid} :
    k ∈ columnIds db projectId status ↔
      ∃ c, db.board.tree k = some c ∧ InColumn projectId status c := by
  unfold columnIds column Board.tree
  rw [board_find?]
  constructor
  · intro h
    obtain ⟨t, ht, rfl⟩ := List.mem_map.mp h
    obtain ⟨hmem, hsel⟩ := List.mem_filter.mp ht
    simp only [Bool.and_eq_true, decide_eq_true_eq, Option.isNone_iff_eq_none] at hsel
    obtain ⟨⟨⟨hactive, hproject⟩, hstatus⟩, hroot⟩ := hsel
    exact ⟨t.card.node, by rw [Table.find?_of_mem hmem]; rfl, hactive, hproject, hstatus, hroot⟩
  · rintro ⟨c, hc, hin⟩
    obtain ⟨card, hcard, rfl⟩ := Option.map_eq_some_iff.mp hc
    obtain ⟨t, ht, rfl⟩ := Option.map_eq_some_iff.mp hcard
    have hactive : t.active = true := hin.active
    have hproject : t.projectId = projectId := hin.projectId
    have hstatus : t.status = status := hin.status
    have hroot : t.parentId = none := hin.root
    refine List.mem_map.mpr ⟨t, List.mem_filter.mpr ⟨Table.mem_of_find? ht, ?_⟩,
      Table.key_of_find? ht⟩
    simp [hactive, hproject, hstatus, hroot]

theorem nodup_columnIds (projectId : Uuid) (status : TaskStatus) :
    (columnIds db projectId status).Nodup :=
  db.tasks.nodup.sublist (List.filter_sublist.map TaskRow.id)

theorem length_columnIds (projectId : Uuid) (status : TaskStatus) :
    (columnIds db projectId status).length = (column db projectId status).length :=
  List.length_map _

theorem column_le_of_subset {projectId : Uuid} {ids : List Uuid}
    (h : columnIds db' projectId status ⊆ ids) :
    (column db' projectId status).length ≤ ids.length := by
  rw [← length_columnIds]
  exact ((nodup_columnIds projectId status).subperm h).length_le

theorem WithinLimits.of_subset (h : WithinLimits db) (hlimits : db'.wipLimits = db.wipLimits)
    (hsub : ∀ projectId status, columnIds db' projectId status ⊆ columnIds db projectId status) :
    WithinLimits db' := by
  intro projectId status limit hlimit hne
  have hle := column_le_of_subset (hsub projectId status)
  rw [length_columnIds] at hle
  have hold : column db projectId status ≠ [] := by
    intro hnil
    rw [hnil] at hle
    exact hne (List.length_eq_zero_iff.mp (Nat.le_zero.mp hle))
  unfold wipLimit at hlimit
  rw [hlimits] at hlimit
  exact le_trans (Int.ofNat_le.mpr hle) (h projectId status limit hlimit hold)

theorem WithinLimits.write (h : WithinLimits db) (hlimits : db'.wipLimits = db.wipLimits)
    {k : Uuid} {c : Card} (htree : db'.board.tree = Function.update db.board.tree k (some c))
    (hroom : InColumn c.projectId c.status c → k ∉ columnIds db c.projectId c.status →
      HasRoom db c.projectId c.status) : WithinLimits db' := by
  intro projectId status limit hlimit hne
  have hmem : ∀ j ∈ columnIds db' projectId status,
      j = k ∧ InColumn projectId status c ∨ j ∈ columnIds db projectId status := by
    intro j hj
    obtain ⟨d, hd, hin⟩ := mem_columnIds.mp hj
    rw [htree] at hd
    by_cases hjk : j = k
    · subst hjk
      rw [Function.update_self] at hd
      cases hd
      exact Or.inl ⟨rfl, hin⟩
    · rw [Function.update_of_ne hjk] at hd
      exact Or.inr (mem_columnIds.mpr ⟨d, hd, hin⟩)
  unfold wipLimit at hlimit
  rw [hlimits] at hlimit
  by_cases henters : InColumn projectId status c ∧ k ∉ columnIds db projectId status
  · obtain ⟨hin, hnew⟩ := henters
    obtain rfl := hin.projectId
    obtain rfl := hin.status
    have hle := column_le_of_subset (show columnIds db' c.projectId c.status ⊆
        k :: columnIds db c.projectId c.status from fun j hj =>
      (hmem j hj).elim (fun h => h.1 ▸ List.mem_cons_self) (List.mem_cons_of_mem k))
    rw [List.length_cons, length_columnIds] at hle
    exact le_trans (by exact_mod_cast hle) (hroom hin hnew limit hlimit)
  · have hsub : columnIds db' projectId status ⊆ columnIds db projectId status := by
      intro j hj
      obtain ⟨rfl, hin⟩ | hj := hmem j hj
      · exact not_not.mp fun hnew => henters ⟨hin, hnew⟩
      · exact hj
    have hle := column_le_of_subset hsub
    rw [length_columnIds] at hle
    have hold : column db projectId status ≠ [] := by
      intro hnil
      rw [hnil] at hle
      exact hne (List.length_eq_zero_iff.mp (Nat.le_zero.mp hle))
    exact le_trans (Int.ofNat_le.mpr hle) (h projectId status limit hlimit hold)

/-! ### What a move checks -/

variable {taskId : Uuid}

/-- The checks of a move that do not depend on where in the column the task is dropped. -/
structure MayMove (db : Db) (taskId : Uuid) (status : TaskStatus) (before : TaskRow) : Prop where
  found : findActive db taskId = some before
  root : before.parentId = none
  project : (db.projects.any fun p => p.id = before.projectId && p.deletedAt.isNone) = true
  room : checkWipLimit db before status ((column db before.projectId status).length + 1) = .ok ()

theorem otherIds_length {task : TaskRow} (h : task ∈ db.tasks.rows) (hne : task.status ≠ status) :
    (otherIds db task status).length = (column db task.projectId status).length := by
  have hall : (column db task.projectId status).filter (·.id ≠ task.id) =
      column db task.projectId status := by
    rw [List.filter_eq_self]
    intro t ht
    obtain ⟨hmem, hsel⟩ := List.mem_filter.mp ht
    simp only [Bool.and_eq_true, decide_eq_true_eq] at hsel
    refine decide_eq_true fun hid => hne ?_
    rw [← Table.eq_of_mem hmem h hid]
    exact hsel.1.2
  unfold otherIds
  rw [hall, List.length_map, List.length_insertionSort]

/-- Both forms of `move` count the same. -/
theorem checkWipLimit_withMoved {task : TaskRow} {input : MoveTaskInput} (targetIndex : ℕ)
    (h : task ∈ db.tasks.rows) :
    checkWipLimit db task input.status (withMoved db task input targetIndex).length =
      checkWipLimit db task input.status
        ((column db task.projectId input.status).length + 1) := by
  by_cases hs : task.status = input.status
  · unfold checkWipLimit
    rw [if_pos hs, if_pos hs]
  · have hlength : (withMoved db task input targetIndex).length =
        (column db task.projectId input.status).length + 1 := by
      simp only [withMoved]
      rw [List.length_insertIdx_of_le_length (min_le_right _ _), otherIds_length h hs]
    rw [hlength]

theorem mayMove_of_ok {input : MoveTaskInput} (h : move db rt taskId input = .ok db') :
    ∃ targetIndex before, requireTargetIndex input.targetIndex = .ok targetIndex ∧
      requireVersion (some input.expectedVersion) = .ok before.version ∧
      MayMove db taskId input.status before := by
  simp only [move, bind_ok, throw_bind, guard_ok] at h
  obtain ⟨targetIndex, hindex, version, hversion, before, hbefore, hroot, hproject, hstale, h⟩ := h
  obtain ⟨-, hfind, hactive⟩ := getById_ok hbefore
  obtain rfl : before.row.version = version := not_not.mp hstale
  refine ⟨targetIndex, before.row, hindex, hversion, ?_⟩
  refine
    { found := Option.filter_eq_some_iff.mpr ⟨hfind, hactive⟩
      root := by simpa using hroot
      project := by simpa using hproject
      room := ?_ }
  split at h
  · simp only [moveByAnchors, bind_ok] at h
    obtain ⟨-, -, ⟨⟩, hroom, -⟩ := h
    exact hroom
  · simp only [moveByIndex, bind_ok] at h
    obtain ⟨⟨⟩, hroom, -⟩ := h
    rwa [checkWipLimit_withMoved _ (Table.mem_of_find? hfind)] at hroom

/-- The rows a move may rewrite have a version left. -/
def Renewable (db : Db) : Prop := ∀ t ∈ db.tasks.rows, t.active = true → t.version < 2147483647

instance (db : Db) : Decidable (Renewable db) :=
  inferInstanceAs (Decidable (∀ t ∈ db.tasks.rows, t.active = true → t.version < 2147483647))

theorem checkTaskRow_placed {row : TaskRow} (h : checkTaskRow row = .ok ()) (status : TaskStatus)
    (order : Number) (complete : Bool) (now : Timestamptz) :
    checkTaskRow
      { row with
        status, order
        version := row.version + 1
        progress := if complete then 100 else row.progress
        updatedAt := now } = .ok () := by
  simp only [checkTaskRow, throw_bind, guard_ok] at h ⊢
  obtain ⟨hprogress, hestimated, hlogged, hpoints, hmilestone, h⟩ := h
  refine ⟨?_, hestimated, hlogged, hpoints, hmilestone, ?_⟩
  · cases complete with
    | true => simp
    | false => exact hprogress
  · have hversion : ∀ v : ℤ, ((if v < 1 then throw (.database "tasks_version_check") else pure () :
        Except RepoError Unit) = .ok ()) ↔ 1 ≤ v := by
      intro v
      split <;> simp_all
    cases hs : row.startDate with
    | none =>
      simp only [hs, hversion] at h ⊢
      omega
    | some start =>
      cases hd : row.dueDate with
      | none =>
        simp only [hs, hd, hversion] at h ⊢
        omega
      | some due =>
        simp only [hs, hd, guard_ok, hversion] at h ⊢
        exact ⟨h.1, by omega⟩

theorem one_le_version {row : TaskRow} (h : checkTaskRow row = .ok ()) : 1 ≤ row.version := by
  simp only [checkTaskRow, throw_bind, guard_ok] at h
  obtain ⟨-, -, -, -, -, h⟩ := h
  by_contra hv
  have hlt : row.version < 1 := by omega
  split at h
  · rw [guard_ok, if_pos hlt, throw_ok] at h
    exact h.2
  · rw [if_pos hlt, throw_ok] at h
    exact h

theorem movedColumns_total {row : TaskRow} (h : checkTaskRow row = .ok ())
    (hversion : row.version < 2147483647) (now : Timestamptz) (status : TaskStatus)
    (order : Number) (complete : Bool) :
    ∃ new, movedColumns now row status order complete = .ok new := by
  have hone := one_le_version h
  have hint : int4 (.fin (row.version + 1)) = .ok (row.version + 1) := by
    exact_mod_cast int4_fin (k := row.version + 1) (by omega)
  refine ⟨{ row with
    status, order
    version := row.version + 1
    progress := if complete then 100 else row.progress
    updatedAt := now }, ?_⟩
  simp only [movedColumns, bind_ok, pure_ok]
  exact ⟨row.version + 1, hint, (), checkTaskRow_placed h status order complete now, rfl⟩

theorem placeTasks_total {movedId : Uuid} : ∀ (places : List (TaskStatus × ℕ × Uuid)) (s : Db),
    (places.map fun p => p.2.2).Nodup →
      (∀ p ∈ places, ∀ row, findActive s p.2.2 = some row →
        checkTaskRow row = .ok () ∧ row.version < 2147483647) →
        ∃ s', places.foldlM (placeTask movedId) s = .ok s'
  | [], s, _, _ => ⟨s, rfl⟩
  | p :: places, s, hnd, hrows => by
    obtain ⟨hp, hnd⟩ := List.nodup_cons.mp hnd
    have hstep : ∃ t, placeTask movedId s p = .ok t ∧
        ∀ k, k ≠ p.2.2 → findActive t k = findActive s k := by
      unfold placeTask
      cases hf : findActive s p.2.2 with
      | none => exact ⟨s, rfl, fun _ _ => rfl⟩
      | some row =>
        obtain ⟨hcheck, hversion⟩ := hrows p List.mem_cons_self row hf
        obtain ⟨new, hnew⟩ := movedColumns_total hcheck hversion s.newDate p.1 (.fin p.2.1)
          (p.2.2 = movedId && p.1 = .done)
        have hid : new.id = p.2.2 := by
          have hkey : row.id = p.2.2 := Table.key_of_find? (findActive_ok hf).1
          exact (congrArg Card.id (card_movedColumns hnew)).trans hkey
        refine ⟨{ s with tasks := s.tasks.put new }, ?_, fun k hk => ?_⟩
        · simp only [bind_ok, pure_ok]
          exact ⟨new, hnew, rfl⟩
        · unfold findActive
          rw [Table.find?_put (hid ▸ (findActive_ok hf).1), if_neg fun he => hk (he.symm.trans hid)]
    obtain ⟨t, ht, hothers⟩ := hstep
    obtain ⟨s', hs'⟩ := placeTasks_total places t hnd fun q hq row hrow => by
      have hne : q.2.2 ≠ p.2.2 := fun he => hp (List.mem_map.mpr ⟨q, hq, he⟩)
      rw [hothers _ hne] at hrow
      exact hrows q (List.mem_cons_of_mem p hq) row hrow
    exact ⟨s', by rw [List.foldlM_cons, ht]; exact hs'⟩

theorem mem_otherIds {task : TaskRow} {k : Uuid} :
    k ∈ otherIds db task status ↔ k ∈ columnIds db task.projectId status ∧ k ≠ task.id := by
  unfold otherIds columnIds
  simp only [List.mem_map, List.mem_insertionSort, List.mem_filter, decide_eq_true_eq]
  constructor
  · rintro ⟨t, ⟨ht, hne⟩, rfl⟩
    exact ⟨⟨t, ht, rfl⟩, hne⟩
  · rintro ⟨⟨t, ht, rfl⟩, hne⟩
    exact ⟨t, ⟨ht, hne⟩, rfl⟩

theorem nodup_otherIds (task : TaskRow) (status : TaskStatus) : (otherIds db task status).Nodup := by
  unfold otherIds
  rw [((List.perm_insertionSort _ _).map TaskRow.id).nodup_iff]
  exact db.tasks.nodup.sublist ((List.filter_sublist.trans List.filter_sublist).map TaskRow.id)

theorem nodup_finalPlaces (task : TaskRow) (input : MoveTaskInput) (targetIndex : ℕ) :
    ((finalPlaces db task input targetIndex).map fun p => p.2.2).Nodup := by
  have hids : ∀ status ids, (columnPlaces status ids).map (fun p => p.2.2) = ids := by
    intro status ids
    unfold columnPlaces
    rw [List.map_map]
    exact List.zipIdx_map_fst 0 ids
  have hperm : (withMoved db task input targetIndex).Perm
      (task.id :: otherIds db task input.status) :=
    List.perm_insertIdx _ _ (min_le_right _ _)
  have htarget : (withMoved db task input targetIndex).Nodup := by
    rw [hperm.nodup_iff, List.nodup_cons]
    exact ⟨fun h => (mem_otherIds.mp h).2 rfl, nodup_otherIds task input.status⟩
  simp only [finalPlaces]
  split
  · rwa [hids]
  · next hne =>
    rw [List.map_append, hids, hids, List.nodup_append]
    refine ⟨nodup_otherIds task task.status, htarget, ?_⟩
    rintro k hk j hj rfl
    obtain ⟨hcolumn, hother⟩ := mem_otherIds.mp hk
    rcases List.mem_cons.mp (hperm.mem_iff.mp hj) with he | hj
    · exact hother he
    · obtain ⟨c, hc, hin⟩ := mem_columnIds.mp hcolumn
      obtain ⟨d, hd, hin'⟩ := mem_columnIds.mp (mem_otherIds.mp hj).1
      rw [hc] at hd
      cases hd
      exact hne (hin.status.symm.trans hin'.status)

/-! ### The two forms of `move` -/

section Forms

variable {task : TaskRow} {input : MoveTaskInput}

theorem moveByIndex_total (targetIndex : ℕ) (hfind : findActive db task.id = some task)
    (hrows : ∀ t ∈ db.tasks.rows, checkTaskRow t = .ok ()) (hrenew : Renewable db)
    (hroom : checkWipLimit db task input.status
      ((column db task.projectId input.status).length + 1) = .ok ()) :
    ∃ db', moveByIndex db task input targetIndex = .ok db' := by
  obtain ⟨hmem, hactive⟩ := findActive_ok hfind
  rw [← checkWipLimit_withMoved targetIndex (Table.mem_of_find? hmem)] at hroom
  obtain ⟨placed, hplaced⟩ : ∃ placed,
      (finalPlaces db task input targetIndex).foldlM (placeTask task.id) db = .ok placed := by
    refine placeTasks_total _ db (nodup_finalPlaces task input targetIndex) fun p _ row hrow => ?_
    obtain ⟨hfound, hlive⟩ := findActive_ok hrow
    exact ⟨hrows row (Table.mem_of_find? hfound), hrenew row (Table.mem_of_find? hfound) hlive⟩
  -- the loop keeps the row that moves, so it is found again
  have hboard := congrArg (fun b : Board => b.cards.find? task.id) (board_places hfind hplaced)
  have hold : db.board.cards.find? (movedCard task.card input.status).id = some task.card := by
    show db.board.cards.find? task.id = _
    rw [board_find?, hmem, Option.map_some]
  simp only [board_find?, Board.find?_putCard hold] at hboard
  rw [if_pos (show (movedCard task.card input.status).id = task.id from rfl),
    Option.map_eq_some_iff] at hboard
  obtain ⟨moved, hmoved, -⟩ := hboard
  refine ⟨Sprints.recordTaskChange placed task moved, ?_⟩
  simp only [moveByIndex, bind_ok]
  exact ⟨(), hroom, placed, hplaced, by rw [hmoved]; rfl⟩

theorem anchoredOrder_none (hbefore : input.beforeTaskId.join = none)
    (hafter : input.afterTaskId.join = none) : anchoredOrder db rt task input = .ok (.fin 0) := by
  simp [anchoredOrder, moveAnchors, hbefore, hafter, targetOrder, Number.isFinite]

theorem moveByAnchors_total (hfind : findActive db task.id = some task)
    (hrows : ∀ t ∈ db.tasks.rows, checkTaskRow t = .ok ()) (hrenew : Renewable db)
    (hbefore : input.beforeTaskId.join = none) (hafter : input.afterTaskId.join = none)
    (hroom : checkWipLimit db task input.status
      ((column db task.projectId input.status).length + 1) = .ok ()) :
    ∃ db', moveByAnchors db rt task input = .ok db' := by
  obtain ⟨hfound, hactive⟩ := findActive_ok hfind
  have hmem := Table.mem_of_find? hfound
  obtain ⟨moved, hmoved⟩ := movedColumns_total (hrows task hmem) (hrenew task hmem hactive)
    db.newDate input.status (.fin 0) (input.status = .done)
  refine ⟨Sprints.recordTaskChange { db with tasks := db.tasks.put moved } task moved, ?_⟩
  simp only [moveByAnchors, bind_ok, pure_ok]
  exact ⟨.fin 0, anchoredOrder_none hbefore hafter, (), hroom, moved, hmoved, rfl⟩

theorem move_eq {targetIndex : ℕ} (hindex : requireTargetIndex input.targetIndex = .ok targetIndex)
    (hversion : requireVersion (some input.expectedVersion) = .ok task.version)
    (hmay : MayMove db taskId input.status task) :
    move db rt taskId input =
      if input.beforeTaskId.isSome || input.afterTaskId.isSome then moveByAnchors db rt task input
      else moveByIndex db task input targetIndex := by
  have hbefore : getById db taskId = .ok (hydrate db task) := by
    unfold getById
    rw [hmay.found]
  have hproject := hmay.project
  unfold move
  rw [hindex, hversion, hbefore]
  show (if task.parentId.isSome = true then _ else _) = _
  rw [if_neg (by rw [hmay.root]; simp)]
  show (if (!db.projects.any fun p => p.id = task.projectId && p.deletedAt.isNone) = true then _
    else _) = _
  rw [if_neg (by rw [hproject]; simp)]
  show (if task.version ≠ task.version then _ else _) = _
  rw [if_neg (by simp)]
  rfl

theorem move_of_move {i j : MoveTaskInput} (h : move db rt taskId i = .ok db')
    (hstatus : i.status = j.status) (hindex : i.targetIndex = j.targetIndex)
    (hversion : i.expectedVersion = j.expectedVersion) :
    ∃ targetIndex task, MayMove db taskId j.status task ∧
      move db rt taskId j =
        if j.beforeTaskId.isSome || j.afterTaskId.isSome then moveByAnchors db rt task j
        else moveByIndex db task j targetIndex := by
  obtain ⟨targetIndex, task, hn, hv, hmay⟩ := mayMove_of_ok h
  rw [hstatus] at hmay
  exact ⟨targetIndex, task, hmay, move_eq (hindex ▸ hn) (hversion ▸ hv) hmay⟩

/-- **Both forms of `move`** accept the same changes of status. -/
theorem move_index_iff_anchors (hrows : ∀ t ∈ db.tasks.rows, checkTaskRow t = .ok ())
    (hrenew : Renewable db) (taskId : Uuid) (status : TaskStatus)
    (targetIndex expectedVersion : Number) :
    (∃ db', move db rt taskId { status, targetIndex, expectedVersion } = .ok db') ↔
      ∃ before after db', (before.isSome ∨ after.isSome) ∧ move db rt taskId
        { status, targetIndex, expectedVersion
          beforeTaskId := before, afterTaskId := after } = .ok db' := by
  constructor
  · rintro ⟨db', h⟩
    obtain ⟨n, task, hmay, heq⟩ :=
      move_of_move h (j := ⟨status, targetIndex, some none, none, expectedVersion⟩) rfl rfl rfl
    have hid : task.id = taskId := Table.key_of_find? (findActive_ok hmay.found).1
    obtain ⟨moved, hmoved⟩ := moveByAnchors_total (hid ▸ hmay.found) hrows hrenew rfl rfl hmay.room
    exact ⟨some none, none, moved, Or.inl rfl, heq.trans hmoved⟩
  · rintro ⟨before, after, db', -, h⟩
    obtain ⟨n, task, hmay, heq⟩ :=
      move_of_move h (j := ⟨status, targetIndex, none, none, expectedVersion⟩) rfl rfl rfl
    have hid : task.id = taskId := Table.key_of_find? (findActive_ok hmay.found).1
    obtain ⟨moved, hmoved⟩ := moveByIndex_total n (hid ▸ hmay.found) hrows hrenew hmay.room
    exact ⟨moved, heq.trans hmoved⟩

end Forms

/-! ### Runs -/

section Steps

variable {limits : List ProjectWipLimitRow}

theorem wipLimits_step (hstored : Stored limits db) {r : Request} (hr : step rt r db = .ok db') :
    db'.wipLimits = db.wipLimits :=
  (hstored.step hr).limits.trans hstored.limits.symm

theorem WithinLimits.create (h : WithinLimits db) (hstored : Stored limits db)
    {input : CreateTaskInput} (hroom : FindsRoom db (.createTask input))
    (hcreate : create rt db input = .ok db') : WithinLimits db' := by
  have hlimits := wipLimits_step hstored (r := .createTask input) hcreate
  obtain ⟨_, state, _, row, tasks, -, hstate, hrow, htasks, hcore⟩ := create_ok hcreate
  obtain ⟨-, hstatus, hproject, hparent, -⟩ := createRow_ok hrow
  have htree : db'.board.tree = Function.update db.board.tree row.id (some row.card.node) := by
    rw [board_of_core hcore]
    exact Board.tree_insert (b := db.board)
      (Table.insert?_map htasks TaskRow.card fun _ => rfl)
  refine h.write hlimits htree fun hin _ => ?_
  have hresolved : state.status = input.status.getD .todo := by
    simp only [resolveTaskStateCreation, bind_ok, pure_ok] at hstate
    obtain ⟨_, -, _, -, _, -, _, -, _, -, _, -, _, -, rfl⟩ := hstate
    rfl
  have hroot : row.parentId = none := hin.root
  have hcolumn := hroom (hparent.symm.trans hroot)
  rwa [← hproject, ← hresolved, ← hstatus] at hcolumn

theorem WithinLimits.update (h : WithinLimits db) (hstored : Stored limits db)
    {input : UpdateTaskInput} (hroom : FindsRoom db (.updateTask taskId input))
    (hupdate : update rt db taskId input = .ok db') : WithinLimits db' := by
  have hlimits := wipLimits_step hstored (r := .updateTask taskId input) hupdate
  obtain rfl | ⟨plan, after, hplan, -, -, hafter, hboard⟩ := board_update hupdate
  · exact h
  obtain ⟨hbefore, -, hresolved, hupdates⟩ := planUpdate_ok hplan
  obtain ⟨-, hfind, hactive⟩ := getById_ok hbefore
  have hw := updateColumns_ok hafter
  rw [hupdates] at hw
  simp only [resolveUpdate, bind_ok, pure_ok] at hresolved
  obtain ⟨state, hstate, assignment, -, hr⟩ := hresolved
  have hresolves := resolveTaskStateUpdate_ok hstate
  have hs : plan.resolved.state = state := hr ▸ rfl
  rw [← hs] at hresolves
  have hstatus : after.status = input.status.getD plan.before.row.status :=
    (written_of_resolved hresolves hw).1.trans hresolves.status
  have hid : after.id = taskId := hw.id.trans (Table.key_of_find? hfind)
  have hcard : db.board.cards.find? after.card.id = some plan.before.row.card := by
    show db.board.cards.find? after.id = _
    rw [hid, board_find?, hfind, Option.map_some]
  have htree : db'.board.tree = Function.update db.board.tree taskId (some after.card.node) := by
    rw [hboard, Board.tree_change hcard]
    exact congrArg (Function.update db.board.tree · (some after.card.node)) hid
  refine h.write hlimits htree fun hin hnew => ?_
  have hfound : findActive db taskId = some plan.before.row :=
    Option.filter_eq_some_iff.mpr ⟨hfind, hactive⟩
  have hroot : after.parentId = none := hin.root
  show HasRoom db after.projectId after.status
  rw [hw.projectId, hstatus]
  refine hroom _ hfound (hw.parentId.symm.trans hroot) fun hparent hsame => hnew ?_
  -- a root that keeps its status is in the column already
  refine mem_columnIds.mpr ⟨plan.before.row.card.node, ?_, ?_⟩
  · unfold Board.tree
    rw [board_find?, hfind]
    rfl
  · exact ⟨hactive, hw.projectId.symm, (hstatus.trans hsame).symm, hparent⟩

theorem WithinLimits.move (h : WithinLimits db) (hstored : Stored limits db) {input : MoveTaskInput}
    (hmove : move db rt taskId input = .ok db') : WithinLimits db' := by
  have hlimits := wipLimits_step hstored (r := .moveTask taskId input) hmove
  obtain ⟨_, task, -, -, hmay⟩ := mayMove_of_ok hmove
  obtain ⟨card, hcard, hboard⟩ := board_move hmove
  obtain ⟨hfind, hid, hactive⟩ := Board.active?_eq_some hcard
  rw [board_findActive, hmay.found] at hcard
  cases hcard
  have htree : db'.board.tree =
      Function.update db.board.tree taskId (some (movedCard task.card input.status).node) := by
    have hkey : db.board.cards.find? (movedCard task.card input.status).id = some task.card :=
      hid.symm ▸ hfind
    rw [hboard, Board.tree_change hkey]
    exact congrArg (Function.update db.board.tree · _) hid
  refine h.write hlimits htree fun _ hnew limit hlimit => ?_
  have hne : task.status ≠ input.status := by
    intro hsame
    refine hnew (mem_columnIds.mpr ⟨task.card.node, ?_, hactive, rfl, hsame, hmay.root⟩)
    unfold Board.tree
    rw [hfind]
    rfl
  have hroom := hmay.room
  obtain ⟨w, hw, rfl⟩ := Option.map_eq_some_iff.mp hlimit
  have hw' : (db.wipLimits.find? fun w =>
      w.projectId = task.projectId && w.status = input.status) = some w := hw
  unfold checkWipLimit at hroom
  rw [if_neg hne, hw'] at hroom
  simp only at hroom
  split at hroom
  · cases hroom
  · next hle => exact_mod_cast not_lt.mp hle

theorem WithinLimits.tree_step (h : WithinLimits db) (hlimits : db'.wipLimits = db.wipLimits)
    (hsub : ∀ k c, db'.board.tree k = some c → c.active = true → db.board.tree k = some c) :
    WithinLimits db' :=
  h.of_subset hlimits fun projectId status k hk => by
    obtain ⟨c, hc, hin⟩ := mem_columnIds.mp hk
    exact mem_columnIds.mpr ⟨c, hsub k c hc hin.active, hin⟩

/-- **Step**: a request that finds room leaves the columns within their limits. -/
theorem WithinLimits.step (h : WithinLimits db) (hstored : Stored limits db) {r : Request}
    (hroom : FindsRoom db r) (hr : step rt r db = .ok db') : WithinLimits db' := by
  have hlimits := wipLimits_step hstored hr
  have htree := Board.tree_step (step_board hr)
  cases r with
  | createTask input => exact h.create hstored hroom hr
  | updateTask taskId input => exact h.update hstored hroom hr
  | moveTask taskId input => exact h.move hstored hr
  | softDeleteTask taskId =>
    refine h.tree_step hlimits fun k c hc hactive => ?_
    generalize db'.board.tree = t at htree hc
    cases htree with
    | same => exact hc
    | delete _ =>
      obtain ⟨old, hold, rfl⟩ := Option.map_eq_some_iff.mp hc
      split at hactive
      · cases hactive
      · next hsel => rw [if_neg hsel, hold]
  | _ =>
    refine h.tree_step hlimits fun k c hc _ => ?_
    generalize db'.board.tree = t at htree hc
    cases htree with
    | same => exact hc

end Steps

/-- **WIP limits**: in a run whose creations and updates find room in the column they put a
top-level task into, no column exceeds its limit; and a change of status that `move` accepts by index
it accepts by anchors, and the other way round, while the rows it rewrites have versions left. -/
theorem wip_limits_hold {setup : Setup} {requests : List Request}
    (hg : Runs.Guarded (step rt) FindsRoom (initial setup) requests) :
    let db := after rt setup requests
    (db.wipLimits = setup.wipLimits ∧ WithinLimits db) ∧
      (Renewable db → ∀ taskId status targetIndex expectedVersion,
        (∃ db', move db rt taskId { status, targetIndex, expectedVersion } = .ok db') ↔
          ∃ before after db', (before.isSome ∨ after.isSome) ∧ move db rt taskId
            { status, targetIndex, expectedVersion
              beforeTaskId := before, afterTaskId := after } = .ok db') := by
  have hstored : Stored setup.wipLimits (after rt setup requests) := stored_after setup requests
  have hwithin : Stored setup.wipLimits (after rt setup requests) ∧
      WithinLimits (after rt setup requests) := by
    refine Runs.run_induction (I := fun db => Stored setup.wipLimits db ∧ WithinLimits db)
      ?_ requests _ ⟨⟨rfl, fun _ ht => by cases ht⟩, fun _ _ _ _ hne => absurd rfl hne⟩ hg
    rintro db r db' ⟨hs, hw⟩ hroom hr
    exact ⟨hs.step hr, hw.step hs hroom hr⟩
  exact ⟨⟨hstored.limits, hwithin.2⟩, fun hrenew => move_index_iff_anchors hstored.checked hrenew⟩

/-- One project whose column `todo` takes one task. -/
def limitedSetup : Setup :=
  { smallSetup with wipLimits := [{ projectId := 7, status := .todo, limit := 1 }] }

/-- The column empties before its next task. -/
theorem wip_limits_hold_taking_turns :
    let db := after utcRuntime limitedSetup
      [.createTask { projectId := 7, title := "a" },
        .moveTask 100 { status := .inProgress, targetIndex := .fin 0, expectedVersion := .fin 1 },
        .createTask { projectId := 7, title := "b" }]
    ((column db 7 .todo).length = 1 ∧ (column db 7 .inProgress).length = 1) ∧ WithinLimits db ∧
      ((∃ db', move db utcRuntime 100
        { status := .review, targetIndex := .fin 0, expectedVersion := .fin 2 } = .ok db') ↔
          ∃ before after db', (before.isSome ∨ after.isSome) ∧ move db utcRuntime 100
            { status := .review, targetIndex := .fin 0, expectedVersion := .fin 2
              beforeTaskId := before, afterTaskId := after } = .ok db') := by
  have hg : Runs.Guarded (step utcRuntime) FindsRoom (initial limitedSetup)
      [.createTask { projectId := 7, title := "a" },
        .moveTask 100 { status := .inProgress, targetIndex := .fin 0, expectedVersion := .fin 1 },
        .createTask { projectId := 7, title := "b" }] := by decide +kernel
  obtain ⟨⟨-, hwithin⟩, hforms⟩ := wip_limits_hold hg
  exact ⟨by decide +kernel, hwithin, hforms (by decide +kernel) 100 .review (.fin 0) (.fin 2)⟩

/-- A second task is created in the full column, or updated into it, where a move is refused. -/
theorem full_column_takes_another :
    let created := after utcRuntime limitedSetup
      [.createTask { projectId := 7, title := "a" }, .createTask { projectId := 7, title := "b" }]
    let started := after utcRuntime limitedSetup
      [.createTask { projectId := 7, title := "a" },
        .createTask { projectId := 7, title := "b", status := some .inProgress }]
    let updated := after utcRuntime limitedSetup
      [.createTask { projectId := 7, title := "a" },
        .createTask { projectId := 7, title := "b", status := some .inProgress },
        .updateTask 101 { status := some .todo, expectedVersion := some (.fin 1) }]
    ¬WithinLimits created ∧ ¬WithinLimits updated ∧
      error? (move started utcRuntime 101
        { status := .todo, targetIndex := .fin 0, expectedVersion := .fin 1 }) =
          some (.conflict "WIP limit of 1 for 'todo' would be exceeded") := by
  refine ⟨fun h => ?_, fun h => ?_, by decide +kernel⟩
  · have := h 7 .todo 1 (by decide +kernel) (by decide +kernel)
    revert this
    decide +kernel
  · have := h 7 .todo 1 (by decide +kernel) (by decide +kernel)
    revert this
    decide +kernel

end CalmBoard.Tasks
