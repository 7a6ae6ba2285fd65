import CalmBoard.Tasks.BoardMoves
import CalmBoard.Tasks.BoardOrder

/-!
# CalmBoard.Tasks.BoardAgreed — the board and the server put a task in the same place

* `ClientList`: a list of the project's active top-level tasks, every column in the writer's order.
* `finalColumn`: what a move makes of a column.
* `boardIds_reorder`, `sorted_moveByIndex`, `sorted_moveByAnchors`: the board and both forms of `move`
  make this of it.
* `reorder_agrees`: the list of the board is one of the database after the move.
-/

namespace CalmBoard.Tasks

open Fallible

/-! ### Lists of the board -/

/-- A column of the board's list. -/
def boardIds (tasks : List BoardTask) (status : TaskStatus) : List Uuid :=
  (tasks.filter fun task => task.status = status).map BoardTask.id

/-- The active top-level tasks of a project, every column in the writer's order. -/
structure ClientList (db : Db) (projectId : Uuid) (tasks : List BoardTask) : Prop where
  columns : ∀ status, boardIds tasks status = sortedIds boardOrder db projectId status
  orders : ∀ t ∈ tasks, ∀ row ∈ db.tasks.rows, row.id = t.id → row.order = .fin t.order

def TaskRow.boardTask (row : TaskRow) : BoardTask where
  id := row.id
  status := row.status
  order := match row.order with
    | .fin q => q
    | _ => 0
  progress := row.progress

/-- The active top-level tasks of a project in the writer's order. -/
def boardTasks (db : Db) (projectId : Uuid) : List BoardTask :=
  ((db.tasks.rows.filter fun t => t.active && t.projectId = projectId && t.parentId.isNone).insertionSort
    boardOrder).map TaskRow.boardTask

def finalColumn (db : Db) (task : TaskRow) (input : MoveTaskInput) (n : ℕ) (status : TaskStatus) :
    List Uuid :=
  if status = input.status then withMoved db task input n else otherIds db task status

/-- The ids before and after an index of a list. -/
def neighbours (ids : List Uuid) (i : ℕ) : Option Uuid × Option Uuid :=
  (if i = 0 then none else ids[i - 1]?, ids[i]?)

/-- The anchors of a request. -/
def givenAnchors (input : MoveTaskInput) : Option Uuid × Option Uuid :=
  (input.beforeTaskId.join, input.afterTaskId.join)

/-- The anchors of a move, with the one that the writer looks up. -/
def usedAnchors (db : Db) (task : TaskRow) (input : MoveTaskInput) :
    Option (Option Uuid × Option Uuid) :=
  match moveAnchors db task input with
  | .ok (b, a) => some (b.map TaskRow.id, a.map TaskRow.id)
  | .error _ => none

/-- The anchors are the neighbours of the task at the index. -/
def AnchoredAt (db : Db) (task : TaskRow) (input : MoveTaskInput) (n : ℕ) : Prop :=
  let others := otherIds db task input.status
  givenAnchors input = neighbours others (min n others.length) ∨
    usedAnchors db task input = some (neighbours others (min n others.length))

variable {rt : Runtime} {db db' : Db} {task : TaskRow} {input : MoveTaskInput} {n : ℕ}
  {projectId : Uuid} {status : TaskStatus} {tasks : List BoardTask}

theorem clientList_boardTasks
    (hfinite : ∀ row ∈ db.tasks.rows, row.order.isFinite = true) (projectId : Uuid) :
    ClientList db projectId (boardTasks db projectId) := by
  constructor
  · intro status
    unfold boardIds boardTasks sortedIds
    rw [List.filter_map, List.map_map]
    refine congrArg _ (eq_sorted (((List.perm_insertionSort _ _).filter _).trans ?_)
      (fun row => mem_column_tasks) ((List.pairwise_insertionSort _ _).filter _))
    rw [List.filter_filter]
    refine List.Perm.of_eq (List.filter_congr fun row _ => ?_)
    show (decide (row.status = status) && _) = _
    rw [Bool.and_comm, Bool.and_right_comm]
  · intro t ht row hrow hid
    obtain ⟨row', hrow', rfl⟩ := List.mem_map.mp ht
    have hmem := List.mem_of_mem_filter ((List.mem_insertionSort _).mp hrow')
    obtain rfl := Table.eq_of_mem hrow hmem hid
    have hnumber := hfinite row hrow
    unfold TaskRow.boardTask
    cases horder : row.order with
    | fin q => simp
    | nan | negInf | posInf =>
      rw [horder] at hnumber
      cases hnumber

section Client

variable (h : ClientList db projectId tasks)

include h

theorem ClientList.row {t : BoardTask} (ht : t ∈ tasks) :
    ∃ row ∈ column db projectId t.status, row.id = t.id := by
  have hid : t.id ∈ boardIds tasks t.status :=
    List.mem_map_of_mem (List.mem_filter.mpr ⟨ht, decide_eq_true rfl⟩)
  rw [h.columns, mem_sortedIds] at hid
  exact List.mem_map.mp hid

theorem ClientList.nodup : (tasks.map BoardTask.id).Nodup := by
  refine Positions.nodup_of_parts BoardTask.status (fun t ht t' ht' hid => ?_) fun status => ?_
  · obtain ⟨row, hrow, hrowId⟩ := h.row ht
    obtain ⟨row', hrow', hrowId'⟩ := h.row ht'
    obtain ⟨hmem, -, -, hstatus, -⟩ := mem_column_iff.mp hrow
    obtain ⟨hmem', -, -, hstatus', -⟩ := mem_column_iff.mp hrow'
    obtain rfl := Table.eq_of_mem hmem hmem' (hrowId.trans (hid.trans hrowId'.symm))
    exact hstatus.symm.trans hstatus'
  · show (boardIds tasks status).Nodup
    rw [h.columns]
    exact nodup_sortedIds

theorem ClientList.sorted (status : TaskStatus) :
    (tasks.filter fun t => t.status = status).Pairwise fun t t' => t.order ≤ t'.order := by
  have hrows : (sortedIds boardOrder db projectId status).Pairwise fun j k =>
      ∀ x ∈ db.tasks.rows, x.id = j → ∀ y ∈ db.tasks.rows, y.id = k → x.order ≤ y.order := by
    unfold sortedIds
    rw [List.pairwise_map]
    refine (List.pairwise_insertionSort boardOrder _).imp_of_mem fun {a b} ha hb hab => ?_
    rw [List.mem_insertionSort] at ha hb
    intro x hx hxid y hy hyid
    obtain rfl := Table.eq_of_mem hx (mem_column_tasks ha) hxid
    obtain rfl := Table.eq_of_mem hy (mem_column_tasks hb) hyid
    exact ColumnOrder.order_le hab
  rw [← h.columns, boardIds, List.pairwise_map] at hrows
  refine hrows.imp_of_mem fun {t t'} ht ht' hle => ?_
  have hin := List.mem_of_mem_filter ht
  have hin' := List.mem_of_mem_filter ht'
  obtain ⟨row, hrow, hid⟩ := h.row hin
  obtain ⟨row', hrow', hid'⟩ := h.row hin'
  have hmem := mem_column_tasks hrow
  have hmem' := mem_column_tasks hrow'
  have hrowLe := hle row hmem hid row' hmem' hid'
  rw [h.orders t hin row hmem hid, h.orders t' hin' row' hmem' hid'] at hrowLe
  exact fin_le_fin.mp hrowLe

end Client

/-! ### Tasks in their places -/

section Placed

variable {places : List (TaskStatus × ℕ × Uuid)} {Affected : TaskStatus → Prop}
  {orders : List (Uuid × Placement)} {taskId : Uuid} {targetStatus : TaskStatus} {ids : List Uuid}

theorem placeBoardTask_id (t : BoardTask) : (placeBoardTask orders taskId targetStatus t).id = t.id := by
  unfold placeBoardTask
  split
  · rfl
  · rfl

theorem placeBoardTask_some (taskId : Uuid) (targetStatus : TaskStatus) {t : BoardTask}
    {placement : Placement} (h : Capped.get? orders t.id = some placement) :
    (placeBoardTask orders taskId targetStatus t).status = placement.status ∧
      (placeBoardTask orders taskId targetStatus t).order = placement.order := by
  unfold placeBoardTask
  rw [h]
  exact ⟨rfl, rfl⟩

variable (hcovers : Covers db projectId Affected places) (h : ClientList db projectId tasks)
  (horders : ∀ k placement, Capped.get? orders k = some placement ↔
    (placement.status, placement.order, k) ∈ places)

include hcovers h horders

theorem Covers.place_cases {t : BoardTask} (ht : t ∈ tasks) :
    (∃ p ∈ places, p.2.2 = t.id ∧ (placeBoardTask orders taskId targetStatus t).status = p.1 ∧
      (placeBoardTask orders taskId targetStatus t).order = p.2.1) ∨
    ((∀ p ∈ places, p.2.2 ≠ t.id) ∧ placeBoardTask orders taskId targetStatus t = t ∧
      ¬ Affected t.status) := by
  cases hget : Capped.get? orders t.id with
  | some placement =>
    obtain ⟨hstatus, horder⟩ := placeBoardTask_some taskId targetStatus hget
    exact Or.inl ⟨_, (horders _ _).mp hget, rfl, hstatus, horder⟩
  | none =>
    have hnone : ∀ p ∈ places, p.2.2 ≠ t.id := by
      intro p hp hid
      have hsome := (horders p.2.2 { status := p.1, order := p.2.1 }).mpr hp
      rw [hid, hget] at hsome
      cases hsome
    refine Or.inr ⟨hnone, ?_, fun hstatus => ?_⟩
    · unfold placeBoardTask
      rw [hget]
    · obtain ⟨row, hrow, hid⟩ := h.row ht
      obtain ⟨p, hp, hpid⟩ := hcovers.full t.status hstatus t.id (hid ▸ List.mem_map_of_mem hrow)
      exact hnone p hp hpid

/-- **Affected columns**: a column whose places are the positions of a list becomes that list. -/
theorem Covers.boardIds_affected (hstatus : Affected status) (hnodup : ids.Nodup)
    (hids : ∀ p, p ∈ places ∧ p.1 = status ↔ p ∈ columnPlaces status ids) :
    boardIds ((tasks.map (placeBoardTask orders taskId targetStatus)).insertionSort boardLe) status =
      ids := by
  set place := placeBoardTask orders taskId targetStatus with hplace
  have hposition : ∀ t ∈ tasks, (place t).status = status →
      ∃ i : ℕ, (place t).order = i ∧ ids[i]? = some t.id := by
    intro t ht hin
    rcases hcovers.place_cases h horders ht with ⟨p, hp, hid, hpstatus, hporder⟩ | ⟨-, hsame, hnot⟩
    · refine ⟨p.2.1, hporder, ?_⟩
      rw [← hid]
      exact (mem_columnPlaces.mp ((hids p).mp ⟨hp, hpstatus.symm.trans hin⟩)).2
    · rw [hplace, hsame] at hin
      exact absurd (hin ▸ hstatus) hnot
  have hmem : ∀ a, a ∈ ((tasks.map place).insertionSort boardLe).filter (fun t => t.status = status) ↔
      ∃ t ∈ tasks, place t = a ∧ (place t).status = status := by
    intro a
    rw [List.mem_filter, List.mem_insertionSort, List.mem_map, decide_eq_true_eq]
    constructor
    · rintro ⟨⟨t, ht, rfl⟩, hin⟩
      exact ⟨t, ht, rfl, hin⟩
    · rintro ⟨t, ht, rfl, hin⟩
      exact ⟨⟨t, ht, rfl⟩, hin⟩
  refine Positions.map_eq_of_positions hnodup ?_ (fun k => ⟨fun hk => ?_, fun hk => ?_⟩) ?_
  · refine List.Nodup.sublist (List.filter_sublist.map _) ?_
    rw [((List.perm_insertionSort boardLe _).map BoardTask.id).nodup_iff, List.map_map]
    exact (List.map_congr_left fun t _ => placeBoardTask_id t) ▸ h.nodup
  · obtain ⟨a, ha, rfl⟩ := List.mem_map.mp hk
    obtain ⟨t, ht, rfl, hin⟩ := (hmem a).mp ha
    obtain ⟨i, -, hi⟩ := hposition t ht hin
    rw [hplace, placeBoardTask_id]
    exact List.mem_of_getElem? hi
  · obtain ⟨i, hi⟩ := List.getElem?_of_mem hk
    obtain ⟨hp, -⟩ := (hids (status, i, k)).mpr (mem_columnPlaces.mpr ⟨rfl, hi⟩)
    obtain ⟨old, hrow, hid, hactive, hproject, hparent, -⟩ := hcovers.old _ hp
    have hlisted : k ∈ boardIds tasks old.status := by
      rw [h.columns, mem_sortedIds, show k = old.id from hid.symm]
      exact List.mem_map_of_mem (mem_column_iff.mpr ⟨hrow, hactive, hproject, rfl, hparent⟩)
    obtain ⟨t, ht, rfl⟩ := List.mem_map.mp hlisted
    have hplaced := (placeBoardTask_some taskId targetStatus
      ((horders t.id { status, order := i }).mpr hp)).1
    rw [← placeBoardTask_id t]
    exact List.mem_map_of_mem ((hmem _).mpr ⟨t, List.mem_of_mem_filter ht, rfl, hplaced⟩)
  · refine ((List.pairwise_insertionSort boardLe _).filter _).imp_of_mem fun {a b} ha hb hab => ?_
    obtain ⟨t, ht, rfl, hin⟩ := (hmem a).mp ha
    obtain ⟨t', ht', rfl, hin'⟩ := (hmem b).mp hb
    obtain ⟨i, horder, hi⟩ := hposition t ht hin
    obtain ⟨j, horder', hj⟩ := hposition t' ht' hin'
    have hle : (place t).order ≤ (place t').order := by
      rw [boardLe_iff, hin, hin'] at hab
      exact hab.elim (fun hlt => absurd hlt (lt_irrefl _)) fun hle => hle.2
    rw [hplace, placeBoardTask_id, placeBoardTask_id, Positions.idxOf_of_getElem? hnodup hi,
      Positions.idxOf_of_getElem? hnodup hj]
    rw [horder, horder'] at hle
    exact_mod_cast hle

/-- **Other columns**: nothing changes. -/
theorem Covers.boardIds_other (hstatus : ¬ Affected status) :
    boardIds ((tasks.map (placeBoardTask orders taskId targetStatus)).insertionSort boardLe) status =
      boardIds tasks status := by
  have hsame : (tasks.map (placeBoardTask orders taskId targetStatus)).filter
      (fun t => t.status = status) = tasks.filter fun t => t.status = status := by
    have hcases : ∀ t ∈ tasks, ((placeBoardTask orders taskId targetStatus t).status = status ↔
        t.status = status) ∧ (t.status = status → placeBoardTask orders taskId targetStatus t = t) := by
      intro t ht
      rcases hcovers.place_cases h horders ht with ⟨p, hp, hid, hpstatus, -⟩ | ⟨-, heq, -⟩
      · -- it comes from an affected column and goes to one
        have hne : t.status ≠ status := by
          intro hin
          obtain ⟨old, hold, hid', -, -, -, haffected⟩ := hcovers.old p hp
          obtain ⟨row, hrow, hrowId⟩ := h.row ht
          obtain ⟨hmem, -, -, hrowStatus, -⟩ := mem_column_iff.mp hrow
          obtain rfl := Table.eq_of_mem hold hmem (hid'.trans (hid.trans hrowId.symm))
          exact hstatus (hrowStatus.trans hin ▸ haffected)
        have hne' : (placeBoardTask orders taskId targetStatus t).status ≠ status :=
          fun he => hstatus ((hpstatus.symm.trans he) ▸ hcovers.place p hp)
        exact ⟨iff_of_false hne' hne, fun he => absurd he hne⟩
      · exact ⟨by rw [heq], fun _ => heq⟩
    have hfilter : tasks.filter ((fun t => decide (t.status = status)) ∘
        placeBoardTask orders taskId targetStatus) = tasks.filter fun t => t.status = status :=
      List.filter_congr fun t ht => decide_eq_decide.mpr (hcases t ht).1
    rw [List.filter_map, hfilter]
    refine (List.map_congr_left fun t ht => ?_).trans (List.map_id _)
    obtain ⟨hin, hin'⟩ := List.mem_filter.mp ht
    exact (hcases t hin).2 (of_decide_eq_true hin')
  unfold boardIds
  rw [Positions.filter_insertionSort, hsame]
  rw [hsame]
  refine (h.sorted status).imp_of_mem fun {a b} ha hb hab => ?_
  rw [boardLe_iff, of_decide_eq_true (List.mem_filter.mp ha).2, of_decide_eq_true (List.mem_filter.mp hb).2]
  exact Or.inr ⟨rfl, hab⟩

end Placed

/-! ### The board's move -/

section Move

theorem insertionIndex_eq {targetIndex : Number} (h : requireTargetIndex targetIndex = .ok n)
    (length : ℕ) : insertionIndex targetIndex length = min n length := by
  unfold requireTargetIndex at h
  split at h
  · next k hk =>
    split at h
    · cases h
    · next hneg =>
      cases h
      rw [Number.eq_of_toInt? hk]
      obtain ⟨m, rfl⟩ := Int.eq_ofNat_of_zero_le (not_lt.mp hneg)
      have hcast : max 0 (min ((m : ℤ) : ℚ) (length : ℚ)) = ((min m length : ℕ) : ℤ) := by
        rw [max_eq_right (le_min (by positivity) (by positivity))]
        push_cast
        rfl
      show (max 0 (min ((m : ℤ) : ℚ) (length : ℚ))).floor.toNat = _
      rw [hcast, Rat.floor_intCast, Int.toNat_natCast, Int.toNat_natCast]
  · cases h

theorem otherIds_eq (db : Db) (task : TaskRow) (status : TaskStatus) : otherIds db task status =
    (sortedIds boardOrder db task.projectId status).filter fun k => k ≠ task.id :=
  (sortedIds_filter task).symm

theorem otherIds_of_ne (htask : task ∈ db.tasks.rows) (hne : status ≠ task.status) :
    otherIds db task status = sortedIds boardOrder db task.projectId status := by
  rw [otherIds_eq, List.filter_eq_self]
  refine fun k hk => decide_eq_true fun hid => hne ?_
  obtain ⟨row, hrow, rfl⟩ := List.mem_map.mp (mem_sortedIds.mp hk)
  obtain ⟨hmem, -, -, hstatus, -⟩ := mem_column_iff.mp hrow
  rw [← hstatus, Table.eq_of_mem hmem htask hid]

variable (h : ClientList db task.projectId tasks)

include h

theorem ClientList.withoutMoving (status : TaskStatus) :
    (withoutMoving tasks task.id status).map BoardTask.id = otherIds db task status := by
  rw [otherIds_eq, ← h.columns, boardIds, List.filter_map, List.filter_filter]
  unfold Tasks.withoutMoving
  refine congrArg _ (List.filter_congr fun t _ => ?_)
  rw [Bool.and_comm]
  rfl

theorem ClientList.moving (htask : task ∈ db.tasks.rows) (hactive : task.active = true)
    (hroot : task.parentId = none) : ∃ moving ∈ tasks,
      tasks.find? (fun t => t.id = task.id) = some moving ∧ moving.status = task.status := by
  have hcolumn : task ∈ column db task.projectId task.status :=
    mem_column_iff.mpr ⟨htask, Option.isNone_iff_eq_none.mp hactive, rfl, rfl, hroot⟩
  have hlisted : task.id ∈ boardIds tasks task.status := by
    rw [h.columns, mem_sortedIds]
    exact List.mem_map_of_mem hcolumn
  obtain ⟨t, ht, hid⟩ := List.mem_map.mp hlisted
  have hsome : (tasks.find? fun t => t.id = task.id).isSome = true :=
    List.find?_isSome.mpr ⟨t, List.mem_of_mem_filter ht, decide_eq_true hid⟩
  obtain ⟨moving, hmoving⟩ := Option.isSome_iff_exists.mp hsome
  have hin := List.mem_of_find?_eq_some hmoving
  obtain ⟨row, hrow, hrowId⟩ := h.row hin
  obtain ⟨hmem, -, -, hstatus, -⟩ := mem_column_iff.mp hrow
  have hmovingId : moving.id = task.id := by simpa using List.find?_some hmoving
  obtain rfl := Table.eq_of_mem hmem htask (hrowId.trans hmovingId)
  exact ⟨moving, hin, hmoving, hstatus.symm⟩

theorem ClientList.targetWithMoving {moving : BoardTask} (hmoving : moving.id = task.id)
    (hindex : requireTargetIndex input.targetIndex = .ok n) :
    (targetWithMoving tasks task.id moving input.status input.targetIndex).map BoardTask.id =
      withMoved db task input n := by
  have htarget : (if moving.status = input.status then Tasks.withoutMoving tasks task.id moving.status
      else Tasks.withoutMoving tasks task.id input.status) =
        Tasks.withoutMoving tasks task.id input.status := by
    split
    · next hsame => rw [hsame]
    · rfl
  have hlength : (Tasks.withoutMoving tasks task.id input.status).length =
      (otherIds db task input.status).length := by
    rw [← h.withoutMoving, List.length_map]
  unfold Tasks.targetWithMoving withMoved
  simp only []
  rw [htarget, List.map_insertIdx, h.withoutMoving, insertionIndex_eq hindex, hlength, hmoving]

theorem ClientList.get?_boardPlacements {moving : BoardTask} (hmoving : moving.id = task.id)
    (hstatus : moving.status = task.status)
    (hindex : requireTargetIndex input.targetIndex = .ok n) (k : Uuid) (placement : Placement) :
    Capped.get? (boardPlacements tasks task.id moving input.status input.targetIndex) k =
      some placement ↔ (placement.status, placement.order, k) ∈ finalPlaces db task input n :=
  Tasks.get?_boardPlacements (h.withoutMoving moving.status) (h.targetWithMoving hmoving hindex)
    (by rw [hstatus]; rfl) (nodup_finalPlaces task input n)

/-- **The board**: every column is as the move leaves it. -/
theorem ClientList.boardIds_reorder (htask : task ∈ db.tasks.rows) (hactive : task.active = true)
    (hroot : task.parentId = none) (hindex : requireTargetIndex input.targetIndex = .ok n)
    (status : TaskStatus) :
    boardIds (reorderBoardTasks tasks task.id input.status input.targetIndex) status =
      finalColumn db task input n status := by
  obtain ⟨moving, hin, hfind, hstatus⟩ := h.moving htask hactive hroot
  have hmoving : moving.id = task.id := by simpa using List.find?_some hfind
  have horders := h.get?_boardPlacements hmoving hstatus hindex
  have hcovers : Covers db task.projectId (Renumbered task input) (finalPlaces db task input n) :=
    covers_finalPlaces htask hactive hroot
  unfold reorderBoardTasks finalColumn
  simp only [hfind]
  split
  · next hsame =>
    subst hsame
    exact hcovers.boardIds_affected h horders (Or.inr rfl) nodup_withMoved fun p => places_target
  · next hne =>
    by_cases hsource : status = task.status
    · subst hsource
      exact hcovers.boardIds_affected h horders (Or.inl rfl) (nodup_otherIds task task.status)
        fun p => places_source hne
    · rw [hcovers.boardIds_other h horders fun hstatus => hstatus.elim hsource hne, h.columns,
        otherIds_of_ne htask hsource]

end Move

/-! ### The server's move -/

section Server

/-- **Move by index**: every column of the project is as the move leaves it. -/
theorem sorted_moveByIndex (htask : task ∈ db.tasks.rows) (hactive : task.active = true)
    (hroot : task.parentId = none) (h : moveByIndex db task input n = .ok db') (status : TaskStatus) :
    sortedIds boardOrder db' task.projectId status = finalColumn db task input n status := by
  obtain ⟨htarget, hsource, hother⟩ := moveByIndex_columns (r := boardOrder) htask hactive hroot h
  unfold finalColumn
  split
  · next hsame =>
    rw [hsame]
    exact htarget
  · next hne =>
    by_cases hstatus : status = task.status
    · subst hstatus
      exact hsource hne
    · rw [hother _ status fun _ hrenumbered => hrenumbered.elim hstatus hne, otherIds_of_ne htask hstatus]

/-- **Orders of a move by index**: a task of the board has the order that the writer stores. -/
theorem orders_moveByIndex (hlist : ClientList db task.projectId tasks) (htask : task ∈ db.tasks.rows)
    (hactive : task.active = true) (hroot : task.parentId = none)
    (hindex : requireTargetIndex input.targetIndex = .ok n)
    (h : moveByIndex db task input n = .ok db') :
    ∀ t ∈ reorderBoardTasks tasks task.id input.status input.targetIndex,
      ∀ row ∈ db'.tasks.rows, row.id = t.id → row.order = .fin t.order := by
  obtain ⟨moving, hin, hfind, hstatus⟩ := hlist.moving htask hactive hroot
  have hmoving : moving.id = task.id := by simpa using List.find?_some hfind
  have horders := hlist.get?_boardPlacements hmoving hstatus hindex
  have hcovers : Covers db task.projectId (Renumbered task input) (finalPlaces db task input n) :=
    covers_finalPlaces htask hactive hroot
  obtain ⟨placed, hfold, htasks⟩ := moveByIndex_rows h
  unfold reorderBoardTasks
  simp only [hfind, List.mem_insertionSort, List.mem_map]
  rintro _ ⟨t, ht, rfl⟩ row hrow hid
  rw [htasks] at hrow
  rw [placeBoardTask_id] at hid
  rcases hcovers.place_cases hlist horders ht with ⟨p, hp, hpid, -, hporder⟩ | ⟨hnone, hsame, -⟩
  · obtain ⟨new, hnew, -, hneworder⟩ := hcovers.find hfold hp
    rw [hpid, ← hid, Table.find?_of_mem hrow] at hnew
    cases hnew
    rw [hneworder, hporder]
  · rw [hsame]
    refine hlist.orders t ht row ((hcovers.same hfold fun p hp he => ?_).mp hrow) hid
    exact hnone p hp (he.trans hid)

theorem neighbour_rows {b a : Option TaskRow} (h : moveAnchors db task input = .ok (b, a))
    (hat : AnchoredAt db task input n) :
    let others := otherIds db task input.status
    (∀ k, (neighbours others (min n others.length)).1 = some k → b.map TaskRow.id = some k) ∧
      ∀ k, (neighbours others (min n others.length)).2 = some k → a.map TaskRow.id = some k := by
  intro others
  rcases hat with hgiven | hused
  · rw [← hgiven]
    exact moveAnchors_given h
  · unfold usedAnchors at hused
    rw [h] at hused
    obtain hpair := Option.some.inj hused
    rw [← hpair]
    exact ⟨fun k hk => hk, fun k hk => hk⟩

theorem sorted_target (hactive : task.active = true) (hroot : task.parentId = none)
    {moved : TaskRow} {order : Number} (hplaced : Placed task moved input.status order)
    (hmoved : moved ∈ db'.tasks.rows)
    (hsame : ∀ row, row.id ≠ task.id → (row ∈ db'.tasks.rows ↔ row ∈ db.tasks.rows))
    {i : ℕ} (hi : i ≤ (otherIds db task input.status).length)
    (hbefore : i ≠ 0 → ∀ x ∈ column db task.projectId input.status,
      (otherIds db task input.status)[i - 1]? = some x.id → x.order < order)
    (hafter : ∀ y ∈ column db task.projectId input.status,
      (otherIds db task input.status)[i]? = some y.id → order < y.order) :
    sortedIds boardOrder db' task.projectId input.status =
      (otherIds db task input.status).insertIdx i task.id := by
  set others := ((column db task.projectId input.status).filter (·.id ≠ task.id)).insertionSort
    boardOrder with hothers
  have hids : otherIds db task input.status = others.map TaskRow.id := rfl
  have hlength : i ≤ others.length := by
    rwa [hids, List.length_map] at hi
  have hmem : ∀ x, x ∈ others ↔ x ∈ column db task.projectId input.status ∧ x.id ≠ task.id := by
    intro x
    rw [hothers, List.mem_insertionSort, List.mem_filter, decide_eq_true_eq]
  have hcolumn : moved ∈ column db' task.projectId input.status :=
    mem_column_iff.mpr ⟨hmoved, hplaced.deletedAt.trans (Option.isNone_iff_eq_none.mp hactive),
      hplaced.projectId, hplaced.status, hplaced.parentId.trans hroot⟩
  have hnot : moved ∉ others := fun hin => ((hmem moved).mp hin).2 hplaced.id
  have hperm : (others.insertIdx i moved).Perm (column db' task.projectId input.status) := by
    have hinsert : (others.insertIdx i moved).Perm (moved :: others) := List.perm_insertIdx _ _ hlength
    refine hinsert.trans ((List.perm_ext_iff_of_nodup ?_ nodup_column).mpr fun x => ?_)
    · refine List.nodup_cons.mpr ⟨hnot, ?_⟩
      rw [hothers, (List.perm_insertionSort _ _).nodup_iff]
      exact nodup_column.filter _
    · rw [List.mem_cons, hmem]
      by_cases hid : x.id = task.id
      · constructor
        · rintro (rfl | hx)
          · exact hcolumn
          · exact absurd hid hx.2
        · intro hx
          exact Or.inl (Table.eq_of_mem (mem_column_tasks hx) hmoved (hid.trans hplaced.id.symm))
      · rw [mem_column_iff, mem_column_iff, hsame x hid]
        exact ⟨fun hx => hx.elim (fun he => absurd (he ▸ hplaced.id) hid) fun hx => hx.1,
          fun hx => Or.inr ⟨hx, hid⟩⟩
  have hsorted : (others.insertIdx i moved).Pairwise boardOrder := by
    refine Positions.pairwise_insertIdx hlength (List.pairwise_insertionSort _ _) ?_ ?_
    · intro hne x hx
      refine ColumnOrder.of_lt (hplaced.order ▸ hbefore hne x ?_ ?_)
      · exact ((hmem x).mp (List.mem_of_getElem? hx)).1
      · rw [hids, List.getElem?_map, hx, Option.map_some]
    · intro y hy
      refine ColumnOrder.of_lt (hplaced.order ▸ hafter y ?_ ?_)
      · exact ((hmem y).mp (List.mem_of_getElem? hy)).1
      · rw [hids, List.getElem?_map, hy, Option.map_some]
  unfold sortedIds
  rw [← eq_sorted hperm (fun x => mem_column_tasks) hsorted, List.map_insertIdx, hplaced.id, hids]

/-- **Move between anchors**: every column of the project is as the move leaves it, where the anchors
are the neighbours at the index. -/
theorem sorted_moveByAnchors (htask : task ∈ db.tasks.rows) (hactive : task.active = true)
    (hroot : task.parentId = none) (hat : AnchoredAt db task input n)
    (h : moveByAnchors db rt task input = .ok db') (status : TaskStatus) :
    sortedIds boardOrder db' task.projectId status = finalColumn db task input n status := by
  obtain ⟨b, a, order, moved, hanchors, hbefore, hafter, hplaced, hmoved, hsame⟩ :=
    moveByAnchors_rows htask h
  obtain ⟨hbeforeMem, hafterMem⟩ := moveAnchors_mem hanchors
  obtain ⟨hbeforeId, hafterId⟩ := neighbour_rows hanchors hat
  unfold finalColumn
  split
  · next hstatus =>
    subst hstatus
    refine sorted_target hactive hroot hplaced hmoved hsame (min_le_right _ _) ?_ ?_
    · intro hne x hx hid
      obtain ⟨x', hx', hxid⟩ := Option.map_eq_some_iff.mp (hbeforeId x.id ((if_neg hne).trans hid))
      obtain rfl := Table.eq_of_mem (mem_column_tasks (hbeforeMem x' hx')) (mem_column_tasks hx) hxid
      exact hbefore x' hx'
    · intro y hy hid
      obtain ⟨y', hy', hyid⟩ := Option.map_eq_some_iff.mp (hafterId y.id hid)
      obtain rfl := Table.eq_of_mem (mem_column_tasks (hafterMem y' hy')) (mem_column_tasks hy) hyid
      exact hafter y' hy'
  · next hne =>
    have hleft : otherIds db' moved status = otherIds db task status := by
      rw [otherIds_eq, hplaced.id, hplaced.projectId, sortedIds_filter]
      unfold otherIds
      rw [sort_of_perm (others_perm hsame) fun row hrow =>
        mem_column_tasks (List.mem_of_mem_filter hrow)]
    rw [← hleft, otherIds_of_ne hmoved (hplaced.status ▸ hne), hplaced.projectId]

end Server

/-- **Optimistic order**: after an accepted move by index the board has every task in the column and
with the order that are stored; after a move between the neighbours at the index it has the columns
of the writer. -/
theorem reorder_agrees {taskId : Uuid} (h : move db rt taskId input = .ok db') :
    ∃ task n, findActive db taskId = some task ∧ requireTargetIndex input.targetIndex = .ok n ∧
      ∀ tasks, ClientList db task.projectId tasks →
        (input.anchored = false → ClientList db' task.projectId
          (reorderBoardTasks tasks taskId input.status input.targetIndex)) ∧
        (input.anchored = true → AnchoredAt db task input n → ∀ status,
          boardIds (reorderBoardTasks tasks taskId input.status input.targetIndex) status =
            sortedIds boardOrder db' task.projectId status) := by
  simp only [move, bind_ok, throw_bind, guard_ok] at h
  obtain ⟨n, hindex, version, -, before, hbefore, hroot, -, -, h⟩ := h
  obtain ⟨-, hfind, hactive⟩ := getById_ok hbefore
  have htask : before.row ∈ db.tasks.rows := Table.mem_of_find? hfind
  have hparent : before.row.parentId = none := by simpa using hroot
  obtain rfl : before.row.id = taskId := Table.key_of_find? hfind
  refine ⟨before.row, n, Option.filter_eq_some_iff.mpr ⟨hfind, hactive⟩, hindex, fun tasks hlist => ?_⟩
  have hboard := hlist.boardIds_reorder htask hactive hparent hindex
  split at h
  · next hanchored =>
    refine ⟨fun hnot => ?_, fun _ hat status => ?_⟩
    · rw [show input.anchored = true from hanchored] at hnot
      cases hnot
    · rw [hboard, sorted_moveByAnchors htask hactive hparent hat h]
  · next hanchored =>
    refine ⟨fun _ => ⟨fun status => ?_, ?_⟩, fun hyes => absurd hyes hanchored⟩
    · rw [hboard, sorted_moveByIndex htask hactive hparent h]
    · exact orders_moveByIndex hlist htask hactive hparent hindex h

/-- The last task goes above the first one. -/
def aboveFirst : MoveTaskInput :=
  { toTop with
    beforeTaskId := some none
    afterTaskId := some (some 100) }

/-- The last of three tasks goes to the top, by its index and between its neighbours. -/
theorem reorder_agrees_three :
    (∃ db', move (threeTasks [0, 1, 2]) utcRuntime 102 toTop = .ok db' ∧
      ClientList db' 7
        (reorderBoardTasks (boardTasks (threeTasks [0, 1, 2]) 7) 102 .todo (.fin 0))) ∧
    ∃ db', move (threeTasks [0, 1, 2]) utcRuntime 102 aboveFirst = .ok db' ∧ ∀ status,
      boardIds (reorderBoardTasks (boardTasks (threeTasks [0, 1, 2]) 7) 102 .todo (.fin 0)) status =
        sortedIds boardOrder db' 7 status := by
  have hlist : ClientList (threeTasks [0, 1, 2]) 7 (boardTasks (threeTasks [0, 1, 2]) 7) :=
    clientList_boardTasks (by decide) 7
  have htasks : (findActive (threeTasks [0, 1, 2]) 102).all (fun task =>
      decide (task.projectId = 7 ∧ givenAnchors aboveFirst =
        neighbours (otherIds (threeTasks [0, 1, 2]) task .todo)
          (min 0 (otherIds (threeTasks [0, 1, 2]) task .todo).length))) = true := by
    decide
  constructor
  · obtain ⟨db', h, -⟩ := exists_ok (p := fun _ => true)
      (x := move (threeTasks [0, 1, 2]) utcRuntime 102 toTop) (by decide +kernel)
    obtain ⟨task, n, htask, -, hagrees⟩ := reorder_agrees h
    rw [htask] at htasks
    obtain ⟨hproject, -⟩ := of_decide_eq_true htasks
    rw [hproject] at hagrees
    exact ⟨db', h, (hagrees _ hlist).1 rfl⟩
  · obtain ⟨db', h, -⟩ := exists_ok (p := fun _ => true)
      (x := move (threeTasks [0, 1, 2]) utcRuntime 102 aboveFirst) (by decide +kernel)
    obtain ⟨task, n, htask, hindex, hagrees⟩ := reorder_agrees h
    rw [htask] at htasks
    obtain ⟨hproject, hneighbours⟩ := of_decide_eq_true htasks
    rw [hproject] at hagrees
    obtain rfl : n = 0 := by
      have hzero : requireTargetIndex aboveFirst.targetIndex = .ok 0 := by decide
      rw [hzero] at hindex
      exact (Except.ok.inj hindex).symm
    exact ⟨db', h, (hagrees _ hlist).2 rfl (Or.inl hneighbours)⟩

end CalmBoard.Tasks
