import CalmBoard.BoardFields
import Mathlib.Logic.Function.Basic

/-!
# CalmBoard.Tree — the cards without their sprints

Sprint operations move the pointers of cards and nothing else of them.  `Board.tree` forgets the
pointers, and `TreeStep` is what a request can do to the rest.

* `tree_step`: a step of the board machine is a step of the tree.
-/

namespace CalmBoard

/-- A card without its sprint. -/
def Card.node (c : Card) : Card := { c with sprintId := none }

namespace Board

/-- The cards by their ids, without their sprints. -/
def tree (b : Board) (k : Uuid) : Option Card := (b.cards.find? k).map Card.node

variable {b b' : Board} {r : Request}

/-- What a request can do to the tree of a board. -/
inductive TreeStep (b : Board) : Request → (Uuid → Option Card) → Prop
  | same (r : Request) : TreeStep b r b.tree
  | create {input : Tasks.CreateTaskInput} {card : Card} (hnew : b.tree card.id = none)
      (hdeleted : card.deletedAt = none) (hdone : card.status = .done → card.progress = 100)
      (hpoints : ∀ p, card.storyPoints = some p → 0 ≤ p)
      (hnests : b.Nests card.id card.parentId) :
    TreeStep b (.createTask input) (Function.update b.tree card.id (some card.node))
  | update {taskId : Uuid} {input : Tasks.UpdateTaskInput} {before after : Card}
      (hactive : b.active? taskId = some before) (hafter : UpdatedBy before input after)
      (hnests : b.Nests taskId input.parentId.join) :
    TreeStep b (.updateTask taskId input) (Function.update b.tree taskId (some after.node))
  | move {taskId : Uuid} {input : Tasks.MoveTaskInput} {card : Card}
      (hactive : b.active? taskId = some card) :
    TreeStep b (.moveTask taskId input)
      (Function.update b.tree taskId (some (Tasks.movedCard card input.status).node))
  | delete {taskId : Uuid} {card : Card} (hactive : b.active? taskId = some card) :
    TreeStep b (.softDeleteTask taskId) fun k => (b.tree k).map fun c =>
      if c.active && (c.id = taskId || c.parentId = some taskId) then
        { c with deletedAt := some b.newDate }
      else c

theorem tree_eq_of_find? {f : Card → Card} (hf : ∀ c, (f c).node = c.node)
    (h : ∀ k, b'.cards.find? k = (b.cards.find? k).map f) : b'.tree = b.tree := by
  funext k
  unfold tree
  rw [h, Option.map_map]
  exact congrArg (Option.map · _) (funext hf)

theorem node_pointed (c : Card) (p : Prop) [Decidable p] (sprintId : Option Uuid) :
    (if p then { c with sprintId } else c).node = c.node := by
  split <;> rfl

theorem tree_scope (card : Card) (type : SprintEventType) (s : Option Uuid) :
    (b.scope card type s).tree = b.tree := by
  unfold tree
  rw [scope_cards]

theorem tree_transfer (p : TaskSprintAssignmentRow → Bool) (taskId projectId : Uuid)
    (target : Option Uuid) : (b.transfer p taskId projectId target).tree = b.tree :=
  tree_eq_of_find? (fun c => node_pointed c _ target) (find?_transfer p taskId projectId target)

theorem tree_complete (sprint : SprintRow) (target : Option Uuid) :
    (b.complete sprint target).tree = b.tree :=
  tree_eq_of_find? (fun c => node_pointed c _ target) (find?_complete target sprint)

theorem tree_cancel (sprint : SprintRow) : (b.cancel sprint).tree = b.tree :=
  tree_eq_of_find? (fun c => node_pointed c _ none) (find?_point none _)

theorem tree_change {before after : Card} (h : b.cards.find? after.id = some before) :
    (b.change before after).tree = Function.update b.tree after.id (some after.node) := by
  funext k
  unfold tree
  rw [change_cards, Table.find?_put h]
  by_cases hk : after.id = k
  · subst hk
    rw [if_pos rfl, Function.update_self]
    rfl
  · rw [if_neg hk, Function.update_of_ne fun he => hk he.symm]

theorem tree_softDelete {card : Card} : (b.softDelete card).tree = fun k =>
    (b.tree k).map fun c =>
      if c.active && (c.id = card.id || c.parentId = some card.id) then
        { c with deletedAt := some b.newDate }
      else c := by
  funext k
  unfold tree
  rw [find?_softDelete, Option.map_map, Option.map_map]
  congr 1
  funext c
  exact apply_ite Card.node _ _ _

theorem tree_insert {card : Card} {cards : Table Card Card.id}
    (h : b.cards.insert? card = some cards) :
    ({ b with cards } : Board).tree = Function.update b.tree card.id (some card.node) := by
  funext k
  show (cards.find? k).map Card.node = _
  rw [Table.find?_insert? h]
  by_cases hk : card.id = k
  · subst hk
    rw [if_pos rfl, Function.update_self]
    rfl
  · rw [if_neg hk, Function.update_of_ne fun he => hk he.symm]
    rfl

/-- **Step**: what a request does to the tree of a board. -/
theorem tree_step (h : b.Step r b') : TreeStep b r b'.tree := by
  cases h with
  | idle => exact .same r
  | elapse => exact .same _
  | createSprint => exact .same _
  | startSprint => exact .same _
  | @createTask input card cards hinsert _ _ hdeleted hdone hpoints hnests =>
    have hnew : b.tree card.id = none := by
      unfold tree
      rw [(Table.insert?_eq_some hinsert).1, Option.map_none]
    rw [tree_insert hinsert]
    exact .create hnew hdeleted hdone hpoints hnests
  | @updateTask taskId input before after hactive hafter hnests =>
    obtain ⟨hfind, hid, -⟩ := active?_eq_some hactive
    have hat : after.id = taskId := hafter.id.trans hid
    rw [tree_change (hat ▸ hfind), hat]
    exact .update hactive hafter hnests
  | @moveTask taskId input card hactive =>
    obtain ⟨hfind, hid, -⟩ := active?_eq_some hactive
    have hat : (Tasks.movedCard card input.status).id = taskId := hid
    rw [tree_change (hat ▸ hfind), hat]
    exact .move hactive
  | @softDeleteTask taskId card hactive =>
    rw [tree_softDelete, (active?_eq_some hactive).2.1]
    exact .delete hactive
  | @completeSprint id projectId dest sprint target _ _ _ _ _ =>
    rw [tree_complete]
    exact .same _
  | @cancelSprint id projectId sprint _ _ =>
    rw [tree_cancel]
    exact .same _
  | @assignTask taskId sprintId card sprint _ _ _ _ =>
    rw [tree_scope, tree_transfer]
    exact .same _
  | @removeTask taskId sprintId card _ _ =>
    rw [tree_scope, tree_transfer]
    exact .same _
  | @moveTaskBetween taskId target expected card _ _ _ =>
    rw [tree_scope, tree_scope, tree_transfer]
    exact .same _

end Board

end CalmBoard
