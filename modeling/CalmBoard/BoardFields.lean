import CalmBoard.Simulation

/-!
# CalmBoard.BoardFields — which part of the board a change touches

Field by field, what the changes of `CalmBoard.Board` leave alone, and how cards and sprints read
after them.
-/

namespace CalmBoard.Board

variable {b : Board}

theorem active?_eq_some {taskId : Uuid} {card : Card} (h : b.active? taskId = some card) :
    b.cards.find? taskId = some card ∧ card.id = taskId ∧ card.active = true := by
  obtain ⟨hfind, hactive⟩ := Option.filter_eq_some_iff.mp h
  exact ⟨hfind, Table.key_of_find? hfind, hactive⟩

/-! ### Events touch nothing else -/

section Events

variable (projectId sprintId taskId : Uuid) (evs : List Sprints.AnalyticsEventPayload)

theorem foldl_append {α : Type} (f : Board → α)
    (hf : ∀ b e, f (append projectId sprintId taskId b e) = f b) :
    ∀ (evs : List Sprints.AnalyticsEventPayload) (b : Board),
      f (evs.foldl (append projectId sprintId taskId) b) = f b
  | [], _ => rfl
  | e :: evs, b => (foldl_append f hf evs _).trans (hf b e)

end Events

section Change

variable (before after card : Card) (type : SprintEventType) (s : Option Uuid)

theorem change_field {α : Type} (f : Board → α)
    (hf : ∀ p s t b e, f (append p s t b e) = f b) :
    f (b.change before after) = f (b.putCard after) := by
  unfold change
  split
  · rfl
  · split
    · exact foldl_append _ _ _ f (hf _ _ _) _ _
    · rfl

@[simp] theorem change_cards : (b.change before after).cards = b.cards.put after :=
  change_field before after Board.cards fun _ _ _ _ _ => rfl

@[simp] theorem change_assignments : (b.change before after).assignments = b.assignments :=
  change_field before after Board.assignments fun _ _ _ _ _ => rfl

theorem scope_field {α : Type} (f : Board → α) (hf : ∀ p s t b e, f (append p s t b e) = f b) :
    f (b.scope card type s) = f b := by
  unfold scope
  split
  · rfl
  · split
    · split
      · exact hf _ _ _ _ _
      · rfl
    · rfl

@[simp] theorem scope_cards : (b.scope card type s).cards = b.cards :=
  scope_field card type s Board.cards fun _ _ _ _ _ => rfl

@[simp] theorem scope_assignments : (b.scope card type s).assignments = b.assignments :=
  scope_field card type s Board.assignments fun _ _ _ _ _ => rfl

end Change

/-! ### Pointers and assignments -/

section Transfer

variable (p : TaskSprintAssignmentRow → Bool) (taskId projectId : Uuid) (target : Option Uuid)

@[simp] theorem assign_cards : (b.assign taskId projectId target).cards = b.cards := by
  cases target <;> rfl

@[simp] theorem transfer_assignments : (b.transfer p taskId projectId target).assignments =
    ((b.close p).assign taskId projectId target).assignments := rfl

theorem transfer_cards : (b.transfer p taskId projectId target).cards =
    (b.point (fun c => c.id = taskId) target).cards := by
  unfold transfer point
  simp only [assign_cards]
  rfl

@[simp] theorem find?_point (q : Card → Bool) (k : Uuid) : (b.point q target).cards.find? k =
    (b.cards.find? k).map fun c => if q c then { c with sprintId := target } else c := by
  unfold point
  rw [Table.find?_update]

@[simp] theorem find?_transfer (k : Uuid) : (b.transfer p taskId projectId target).cards.find? k =
    (b.cards.find? k).map fun c => if c.id = taskId then { c with sprintId := target } else c := by
  rw [transfer_cards, find?_point]
  simp

end Transfer

/-! ### Releasing the unfinished cards of a sprint -/

section Release

variable (id projectId : Uuid) (target : Option Uuid)

theorem find?_foldl_release (k : Uuid) : ∀ (taskIds : List Uuid) (b : Board),
    (taskIds.foldl (release id projectId target) b).cards.find? k =
      (b.cards.find? k).map fun c => if c.id ∈ taskIds then { c with sprintId := target } else c
  | [], b => by
    simp
  | t :: taskIds, b => by
    rw [List.foldl_cons, find?_foldl_release k taskIds, release, find?_transfer, Option.map_map]
    congr 1
    funext c
    simp only [Function.comp_apply, List.mem_cons]
    by_cases ht : c.id = t
    · rw [if_pos ht, if_pos (Or.inl ht)]
      split <;> rfl
    · rw [if_neg ht]
      simp [ht]

/-- The ids of the unfinished cards. -/
def unfinished (b : Board) (id : Uuid) : List Uuid :=
  ((b.members id).filter fun c => c.status ≠ .done).map Card.id

variable (sprint : SprintRow)

@[simp] theorem find?_complete (k : Uuid) : (b.complete sprint target).cards.find? k =
    (b.cards.find? k).map fun c =>
      if c.id ∈ b.unfinished sprint.id then { c with sprintId := target } else c :=
  find?_foldl_release _ _ _ k _ _

end Release

/-! ### Deletion -/

section Delete

variable (card : Card)

theorem softDelete_field {α : Type} (f : Board → α) (hf : ∀ p s t b e, f (append p s t b e) = f b)
    (hclose : ∀ (b : Board) p, f (b.close p) = f b) :
    f (b.softDelete card) =
      f ((b.delete fun c => c.id = card.id).delete fun c => c.parentId = some card.id) := by
  unfold softDelete
  simp only
  split
  · rfl
  · split
    · rw [hf, hclose]
    · rw [hclose]

theorem softDelete_assignments : (b.softDelete card).assignments =
    match card.sprintId with
    | none => b.assignments
    | some s => (b.close fun a => a.taskId = card.id && a.sprintId = s).assignments := by
  unfold softDelete
  cases card.sprintId with
  | none => rfl
  | some s =>
    simp only
    split <;> rfl

def deletedAt (b : Board) (c : Card) : Card :=
  { c with deletedAt := some b.newDate, sprintId := none }

@[simp] theorem find?_softDelete (k : Uuid) : (b.softDelete card).cards.find? k =
    (b.cards.find? k).map fun c =>
      if c.active && (c.id = card.id || c.parentId = some card.id) then b.deletedAt c else c := by
  rw [softDelete_field card (fun b => b.cards.find? k) (fun _ _ _ _ _ => rfl) fun _ _ => rfl]
  unfold delete
  simp only [Table.find?_update, Option.map_map]
  congr 1
  funext c
  simp only [Function.comp_apply]
  cases hactive : c.active with
  | false => simp [hactive]
  | true =>
    by_cases hid : c.id = card.id
    · simp only [hid, deletedAt, decide_true, Bool.and_self, if_true, Bool.true_or]
      rfl
    · simp [hactive, hid, deletedAt]
      rfl

end Delete

end CalmBoard.Board
