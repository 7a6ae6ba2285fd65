import CalmBoard.Lib.Capped
import CalmBoard.Tasks.Columns

/-!
# CalmBoard.Tasks.BoardOrder — the order that the board shows before the server answers

The board moves a task in its own list at once: it numbers the columns of the move anew and sorts the
list by status and order.

* `reorderBoardTasks`: the new list.
* `get?_boardPlacements`: the placements are the places of the columns of the move.
* `boardLe_iff`: what the list is sorted by.
-/

namespace CalmBoard.Tasks

/-! ### The board's list -/

/-- What the board orders of a task. -/
structure BoardTask where
  id : Uuid
  status : TaskStatus
  order : ℚ
  progress : ℤ

structure Placement where
  status : TaskStatus
  order : ℕ

def statusOrder : List TaskStatus := [.backlog, .todo, .inProgress, .review, .done]

/-- `statusRank`: a status that is not in `STATUS_ORDER` comes last. -/
def statusRank (status : TaskStatus) : ℕ := statusOrder.idxOf status

/-- `Math.max(0, Math.min(targetIndex, length))`, as `splice` reads it. -/
def insertionIndex (targetIndex : Number) (length : ℕ) : ℕ :=
  match targetIndex with
  | .fin q => (max 0 (min q length)).floor.toNat
  | .posInf => length
  | .negInf => 0
  | .nan => 0

/-- The column's part of `orders`. -/
def setOrders (orders : List (Uuid × Placement)) (status : TaskStatus) (column : List BoardTask) :
    List (Uuid × Placement) :=
  column.zipIdx.foldl
    (fun orders p => Keyed.put Prod.fst orders (p.1.id, { status, order := p.2 })) orders

def placeBoardTask (orders : List (Uuid × Placement)) (taskId : Uuid) (targetStatus : TaskStatus)
    (task : BoardTask) : BoardTask :=
  match Capped.get? orders task.id with
  | some placement =>
    { task with
      status := placement.status
      order := placement.order
      progress := if task.id = taskId && targetStatus = .done then 100 else task.progress }
  | none => task

/-- `statusRank(left.status) - statusRank(right.status) || left.order - right.order` -/
def compareTasks (left right : BoardTask) : ℚ :=
  let byStatus : ℚ := statusRank left.status - statusRank right.status
  if byStatus ≠ 0 then byStatus else left.order - right.order

def boardLe (left right : BoardTask) : Prop := compareTasks left right ≤ 0

instance : DecidableRel boardLe := fun left right =>
  inferInstanceAs (Decidable (compareTasks left right ≤ 0))

/-- The `source` and the `target` of a move: the tasks of a column without the one that moves. -/
def withoutMoving (tasks : List BoardTask) (taskId : Uuid) (status : TaskStatus) : List BoardTask :=
  tasks.filter fun task => task.status = status && task.id ≠ taskId

def targetWithMoving (tasks : List BoardTask) (taskId : Uuid) (moving : BoardTask)
    (targetStatus : TaskStatus) (targetIndex : Number) : List BoardTask :=
  let source := withoutMoving tasks taskId moving.status
  let target := if moving.status = targetStatus then source else withoutMoving tasks taskId targetStatus
  target.insertIdx (insertionIndex targetIndex target.length)
    { moving with
      status := targetStatus
      progress := if targetStatus = .done then 100 else moving.progress }

/-- `orders` -/
def boardPlacements (tasks : List BoardTask) (taskId : Uuid) (moving : BoardTask)
    (targetStatus : TaskStatus) (targetIndex : Number) : List (Uuid × Placement) :=
  let orders := if moving.status ≠ targetStatus then
      setOrders [] moving.status (withoutMoving tasks taskId moving.status)
    else []
  setOrders orders targetStatus (targetWithMoving tasks taskId moving targetStatus targetIndex)

def reorderBoardTasks (tasks : List BoardTask) (taskId : Uuid) (targetStatus : TaskStatus)
    (targetIndex : Number) : List BoardTask :=
  match tasks.find? fun task => task.id = taskId with
  | none => tasks
  | some moving =>
    let orders := boardPlacements tasks taskId moving targetStatus targetIndex
    (tasks.map (placeBoardTask orders taskId targetStatus)).insertionSort boardLe

/-! ### Places -/

/-- The entry of `orders` that a place stands for. -/
def placeEntry (place : TaskStatus × ℕ × Uuid) : Uuid × Placement :=
  (place.2.2, { status := place.1, order := place.2.1 })

theorem setOrders_eq (orders : List (Uuid × Placement)) (status : TaskStatus) (column : List BoardTask) :
    setOrders orders status column =
      ((columnPlaces status (column.map BoardTask.id)).map placeEntry).foldl (Keyed.put Prod.fst)
        orders := by
  unfold setOrders columnPlaces
  rw [List.zipIdx_map, List.map_map, List.map_map, List.foldl_map]
  rfl

/-- `orders`, where its columns have the places given. -/
theorem get?_boardPlacements {tasks : List BoardTask} {taskId : Uuid} {moving : BoardTask}
    {targetStatus : TaskStatus} {targetIndex : Number} {source target : List Uuid}
    (hsource : (withoutMoving tasks taskId moving.status).map BoardTask.id = source)
    (htarget : (targetWithMoving tasks taskId moving targetStatus targetIndex).map BoardTask.id = target)
    {places : List (TaskStatus × ℕ × Uuid)}
    (hplaces : places = if moving.status = targetStatus then columnPlaces targetStatus target
      else columnPlaces moving.status source ++ columnPlaces targetStatus target)
    (hnodup : (places.map fun p => p.2.2).Nodup) {k : Uuid} {placement : Placement} :
    Capped.get? (boardPlacements tasks taskId moving targetStatus targetIndex) k = some placement ↔
      (placement.status, placement.order, k) ∈ places := by
  have hputs : boardPlacements tasks taskId moving targetStatus targetIndex =
      (places.map placeEntry).foldl (Keyed.put Prod.fst) [] := by
    simp only [boardPlacements]
    rw [setOrders_eq, htarget, hplaces]
    by_cases hsame : moving.status = targetStatus
    · rw [if_pos hsame, if_neg (not_not.mpr hsame)]
    · rw [if_neg hsame, if_pos hsame, setOrders_eq, hsource, List.map_append, List.foldl_append]
  rw [hputs, Capped.get?_puts (by rwa [List.map_map]), List.mem_map]
  constructor
  · rintro ⟨p, hp, hentry⟩
    obtain ⟨rfl, rfl⟩ := Prod.mk.inj hentry
    exact hp
  · intro hp
    exact ⟨_, hp, rfl⟩

/-! ### The order of the list -/

theorem boardLe_iff {left right : BoardTask} : boardLe left right ↔
    statusRank left.status < statusRank right.status ∨
      statusRank left.status = statusRank right.status ∧ left.order ≤ right.order := by
  unfold boardLe compareTasks
  simp only []
  split
  · next h =>
    have hne : statusRank left.status ≠ statusRank right.status := fun he => h (by rw [he, sub_self])
    rw [sub_nonpos, Nat.cast_le, Nat.le_iff_lt_or_eq]
    exact or_congr_right ⟨fun he => absurd he hne, fun he => he.1⟩
  · next h =>
    have heq : statusRank left.status = statusRank right.status :=
      Nat.cast_injective (sub_eq_zero.mp (not_not.mp h))
    rw [sub_nonpos, heq]
    simp

instance : Std.Total boardLe := ⟨fun a b => by
  rw [boardLe_iff, boardLe_iff]
  rcases lt_trichotomy (statusRank a.status) (statusRank b.status) with h | h | h
  · exact Or.inl (Or.inl h)
  · exact (le_total a.order b.order).imp (fun hle => Or.inr ⟨h, hle⟩) fun hle => Or.inr ⟨h.symm, hle⟩
  · exact Or.inr (Or.inl h)⟩

instance : IsTrans BoardTask boardLe := ⟨fun a b c => by
  rw [boardLe_iff, boardLe_iff, boardLe_iff]
  rintro (hab | ⟨hab, hle⟩) (hbc | ⟨hbc, hle'⟩)
  · exact Or.inl (hab.trans hbc)
  · exact Or.inl (hbc ▸ hab)
  · exact Or.inl (hab ▸ hbc)
  · exact Or.inr ⟨hab.trans hbc, hle.trans hle'⟩⟩

end CalmBoard.Tasks
