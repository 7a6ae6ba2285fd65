import CalmBoard.Tasks.Writer
import CalmBoard.Sprints.Effects

/-!
# CalmBoard.Simulation — the repositories simulate the board machine

`Board.Step` says for every request what it can do to a board, with the guards the repositories check
first.  `step_board` connects it to the code; the invariants of the workspace are then proved over
`Board.Step`.
-/

namespace CalmBoard

open Fallible

namespace Board

structure UpdatedBy (before : Card) (input : Tasks.UpdateTaskInput) (after : Card) : Prop where
  id : after.id = before.id
  sprintId : after.sprintId = before.sprintId
  deletedAt : after.deletedAt = before.deletedAt
  parentId : after.parentId = input.parentId.getD before.parentId
  status : after.status = input.status.getD before.status
  done : after.status = .done →
    (before.progress = 100 → ∀ p, input.progress = some p → p = .fin 100) → after.progress = 100
  points : ∀ p, after.storyPoints = some p → 0 ≤ p

/-- A task may hang below `parentId`: its ancestors are active, at most as many as the depth allows,
and `taskId` is none of them. -/
def Nests (b : Board) (taskId : Uuid) (parentId : Option Uuid) : Prop :=
  ∀ p, parentId = some p → ∃ ancestors, b.Ancestry (some p) ancestors ∧ taskId ∉ ancestors ∧
    ancestors.length ≤ Tasks.maxSubtaskDepth

/-- What a request can do to a board. -/
inductive Step (b : Board) : Request → Board → Prop
  | idle (r : Request) : Step b r b
  | elapse (micros serials uuids : ℕ) :
    Step b (.elapse micros serials uuids) { b with now := ⟨b.now.micros + micros⟩ }
  | createTask {input : Tasks.CreateTaskInput} {card : Card} {cards : Table Card Card.id}
      (hinsert : b.cards.insert? card = some cards) (hparent : card.parentId = input.parentId)
      (hsprint : card.sprintId = none) (hdeleted : card.deletedAt = none)
      (hdone : card.status = .done → card.progress = 100)
      (hpoints : ∀ p, card.storyPoints = some p → 0 ≤ p)
      (hnests : b.Nests card.id card.parentId) :
    Step b (.createTask input) { b with cards }
  | updateTask {taskId : Uuid} {input : Tasks.UpdateTaskInput} {before after : Card}
      (hactive : b.active? taskId = some before) (hafter : UpdatedBy before input after)
      (hnests : b.Nests taskId input.parentId.join) :
    Step b (.updateTask taskId input) (b.change before after)
  | moveTask {taskId : Uuid} {input : Tasks.MoveTaskInput} {card : Card}
      (hactive : b.active? taskId = some card) :
    Step b (.moveTask taskId input) (b.change card (Tasks.movedCard card input.status))
  | softDeleteTask {taskId : Uuid} {card : Card} (hactive : b.active? taskId = some card) :
    Step b (.softDeleteTask taskId) (b.softDelete card)
  | createSprint {input : Sprints.CreateSprintInput} {row : SprintRow}
      {sprints : Table SprintRow SprintRow.id} (hinsert : b.sprints.insert? row = some sprints) :
    Step b (.createSprint input) { b with sprints }
  | startSprint {id projectId : Uuid} {sprint : SprintRow}
      (hsprint : b.sprints.find? id = some sprint) (hplanned : sprint.status = .planned)
      (hconsistent : b.Consistent id)
      (hfirst : ∀ s ∈ b.snapshots, s.sprintId = id → s.snapshotType ≠ .start) :
    Step b (.startSprint id projectId) (b.start sprint)
  | completeSprint {id projectId : Uuid} {dest : Sprints.IncompleteDestination} {sprint : SprintRow}
      {target : Option Uuid} (hsprint : b.sprints.find? id = some sprint)
      (hactive : sprint.status = .active)
      (htarget : ∀ s, target = some s → s ≠ id ∧ ∃ t, b.sprints.find? s = some t ∧
        t.status = .planned)
      (hconsistent : b.Consistent id)
      (hfirst : ∀ s ∈ b.snapshots, s.sprintId = id → s.snapshotType ≠ .complete) :
    Step b (.completeSprint id projectId dest) (b.complete sprint target)
  | cancelSprint {id projectId : Uuid} {sprint : SprintRow}
      (hsprint : b.sprints.find? id = some sprint)
      (hstatus : sprint.status = .planned ∨ sprint.status = .active) :
    Step b (.cancelSprint id projectId) (b.cancel sprint)
  | assignTask {taskId sprintId : Uuid} {card : Card} {sprint : SprintRow}
      (hactive : b.active? taskId = some card) (hnew : card.sprintId ≠ some sprintId)
      (hsprint : b.sprints.find? sprintId = some sprint)
      (hstatus : sprint.status = .planned ∨ sprint.status = .active) :
    Step b (.assignTaskToSprint taskId sprintId)
      ((b.transfer (fun a => a.taskId = taskId) taskId card.projectId (some sprintId)).scope card
        .taskAdded (some sprintId))
  | removeTask {taskId sprintId : Uuid} {card : Card} (hcard : b.cards.find? taskId = some card)
      (hsprint : card.sprintId = some sprintId) :
    Step b (.removeTaskFromSprint taskId)
      ((b.transfer (fun a => a.taskId = taskId && a.sprintId = sprintId) taskId card.projectId
        none).scope card .taskRemoved (some sprintId))
  | moveTaskBetween {taskId : Uuid} {target : Option Uuid} {expected : Option (Option Uuid)}
      {card : Card} (hactive : b.active? taskId = some card) (hnew : card.sprintId ≠ target)
      (htarget : ∀ s, target = some s → ∃ sprint, b.sprints.find? s = some sprint ∧
        (sprint.status = .planned ∨ sprint.status = .active)) :
    Step b (.moveTaskBetweenSprints taskId target expected)
      (((b.transfer (fun a => a.taskId = taskId) taskId card.projectId target).scope card
        .taskRemoved card.sprintId).scope card .taskAdded target)

end Board

/-! ### Parents -/

variable {parentId : Option Uuid}

section Parents

variable {db : Db}

theorem parentChainFrom_ok : ∀ {fuel : ℕ} {seen ancestors : List Uuid} {parentId : Option Uuid},
    Tasks.parentChainFrom db fuel seen parentId = .ok ancestors →
      ∃ rest, ancestors = seen ++ rest ∧ db.board.Ancestry parentId rest
  | fuel, seen, ancestors, none, h => by
    cases fuel <;> cases h <;> exact ⟨[], (List.append_nil _).symm, .root⟩
  | 0, seen, ancestors, some p, h => by cases h
  | fuel + 1, seen, ancestors, some p, h => by
    simp only [Tasks.parentChainFrom] at h
    split_ifs at h
    simp only [bind_ok] at h
    obtain ⟨parent, hparent, h⟩ := h
    obtain ⟨rest, rfl, hrest⟩ := parentChainFrom_ok h
    obtain ⟨-, hfind, hactive⟩ := Tasks.getById_ok hparent
    refine ⟨p :: rest, by simp, Board.Ancestry.step (?_ : _ = some parent.row.card) hrest⟩
    rw [board_active?, hfind, Option.filter_some, if_pos hactive, Option.map_some]

theorem parentChain_ok {ancestors : List Uuid} (h : Tasks.parentChain db parentId = .ok ancestors) :
    db.board.Ancestry parentId ancestors := by
  obtain ⟨rest, rfl, hrest⟩ := parentChainFrom_ok h
  exact hrest

theorem checkNewParent_ok {taskId projectId : Uuid}
    (h : Tasks.checkNewParent db taskId projectId parentId = .ok ()) :
    db.board.Nests taskId parentId := by
  rintro p rfl
  simp only [Tasks.checkNewParent, Tasks.requireParent, throw_bind, bind_ok, guard_ok] at h
  obtain ⟨-, ancestors, ⟨parent, -, -, hchain⟩, hcycle, hdepth, -⟩ := h
  exact ⟨ancestors, parentChain_ok hchain, hcycle, not_lt.mp hdepth⟩

theorem ancestry_active {b : Board} {ancestors : List Uuid} (h : b.Ancestry parentId ancestors) :
    ∀ a ∈ ancestors, (b.cards.find? a).isSome := by
  induction h with
  | root => simp
  | step hp _ ih =>
    intro a ha
    rcases List.mem_cons.mp ha with rfl | ha
    · rw [(Option.filter_eq_some_iff.mp hp).1]
      rfl
    · exact ih a ha

theorem checkCreateParent_ok {taskId projectId : Uuid} (hnew : db.board.cards.find? taskId = none)
    (h : Tasks.checkCreateParent db projectId parentId = .ok ()) :
    db.board.Nests taskId parentId := by
  rintro p rfl
  simp only [Tasks.checkCreateParent, Tasks.requireParent, throw_bind, bind_ok, guard_ok] at h
  obtain ⟨ancestors, ⟨parent, -, -, hchain⟩, hdepth, -⟩ := h
  have hanc := parentChain_ok hchain
  refine ⟨ancestors, hanc, fun hmem => ?_, not_lt.mp hdepth⟩
  have := ancestry_active hanc taskId hmem
  rw [hnew] at this
  cases this

end Parents

/-! ### The simulation -/

section Simulation

variable {rt : Runtime} {db db' : Db}

theorem step_updateTask {taskId : Uuid} {input : Tasks.UpdateTaskInput}
    (h : Tasks.update rt db taskId input = .ok db') :
    db.board.Step (.updateTask taskId input) db'.board := by
  obtain rfl | ⟨plan, after, hplan, -, -, hafter, hboard⟩ := Tasks.board_update h
  · exact .idle _
  obtain ⟨hbefore, hvalid, hresolved, hupdates⟩ := Tasks.planUpdate_ok hplan
  obtain ⟨-, hfind, hactive⟩ := Tasks.getById_ok hbefore
  obtain rfl : plan.before.row.id = taskId := Table.key_of_find? hfind
  have hw := Tasks.updateColumns_ok hafter
  rw [hupdates] at hw
  simp only [Tasks.resolveUpdate, bind_ok, pure_ok] at hresolved
  obtain ⟨state, hstate, assignment, -, hr⟩ := hresolved
  have hresolves := Tasks.resolveTaskStateUpdate_ok hstate
  have hs : plan.resolved.state = state := hr ▸ rfl
  rw [← hs] at hresolves
  have hstatus := (Tasks.written_of_resolved hresolves hw).1
  rw [hboard]
  refine .updateTask ?_ ?_ ?_
  · rw [board_active?, hfind, Option.filter_some, if_pos hactive, Option.map_some]
  · refine
      { id := hw.id
        sprintId := hw.sprintId
        deletedAt := hw.deletedAt
        parentId := hw.parentId
        points := hw.points
        status := hstatus.trans hresolves.status
        done := fun hdone hkeeps => ?_ }
    have hp := (Tasks.written_progress hresolves hw).mpr fun _ => hkeeps
    rw [hresolves.done (hstatus.symm.trans hdone), Number.fin.injEq] at hp
    exact_mod_cast hp.symm
  · simp only [Tasks.validateUpdateInput, bind_ok] at hvalid
    obtain ⟨⟨⟩, hparent, -⟩ := hvalid
    exact checkNewParent_ok hparent

/-- **Simulation**: a request that succeeds is a step of the board machine. -/
theorem step_board : ∀ {request : Request}, step rt request db = .ok db' →
    db.board.Step request db'.board
  | .elapse micros serials uuids, h => by
    cases h
    exact .elapse micros serials uuids
  | .createTask input, h => by
    obtain ⟨card, cards, hinsert, hboard, hvalid, -, hparent, hsprint, hdeleted, hdone, hpoints⟩ :=
      Tasks.board_create h
    rw [hboard]
    refine .createTask hinsert hparent hsprint hdeleted hdone hpoints ?_
    simp only [Tasks.validateCreateInput, throw_bind, guard_ok, bind_ok] at hvalid
    obtain ⟨-, ⟨⟩, hnests, -⟩ := hvalid
    rw [hparent]
    exact checkCreateParent_ok (Table.insert?_eq_some hinsert).1 hnests
  | .updateTask taskId input, h => step_updateTask h
  | .moveTask taskId input, h => by
    obtain ⟨card, hactive, hboard⟩ := Tasks.board_move h
    exact hboard ▸ .moveTask hactive
  | .softDeleteTask taskId, h => by
    obtain ⟨card, hactive, hboard⟩ := Tasks.board_softDelete h
    exact hboard ▸ .softDeleteTask hactive
  | .createSprint input, h => by
    obtain ⟨row, sprints, hinsert, hboard⟩ := Sprints.board_createSprint h
    exact hboard ▸ .createSprint hinsert
  | .startSprint id projectId, h => by
    obtain ⟨sprint, hsprint, hplanned, hconsistent, hfirst, hboard⟩ := Sprints.board_startSprint h
    exact hboard ▸ .startSprint hsprint hplanned hconsistent hfirst
  | .completeSprint id projectId dest, h => by
    obtain ⟨sprint, target, hsprint, hactive, htarget, hconsistent, hfirst, hboard⟩ :=
      Sprints.board_completeSprint h
    exact hboard ▸ .completeSprint hsprint hactive htarget hconsistent hfirst
  | .cancelSprint id projectId, h => by
    obtain ⟨sprint, hsprint, hstatus, hboard⟩ := Sprints.board_cancelSprint h
    exact hboard ▸ .cancelSprint hsprint hstatus
  | .assignTaskToSprint taskId sprintId, h => by
    obtain rfl | ⟨card, sprint, hactive, hnew, hsprint, hstatus, hboard⟩ :=
      Sprints.board_assignTaskToSprint h
    · exact .idle _
    · exact hboard ▸ .assignTask hactive hnew hsprint hstatus
  | .removeTaskFromSprint taskId, h => by
    obtain rfl | ⟨card, sprintId, hcard, hsprint, hboard⟩ := Sprints.board_removeTaskFromSprint h
    · exact .idle _
    · exact hboard ▸ .removeTask hcard hsprint
  | .moveTaskBetweenSprints taskId target expected, h => by
    obtain rfl | ⟨card, hactive, hnew, htarget, hboard⟩ := Sprints.board_moveTaskBetweenSprints h
    · exact .idle _
    · exact hboard ▸ .moveTaskBetween hactive hnew htarget

/-- **Invariant rule** for workspaces: an invariant of the board machine holds after every run whose
requests meet the guard. -/
theorem board_invariant {I : Board → Prop} {guard : Db → Request → Prop} {setup : Setup}
    (hinit : I (initial setup).board)
    (hstep : ∀ (db : Db) r db', I db.board → guard db r → step rt r db = .ok db' →
      db.board.Step r db'.board → I db'.board)
    {requests : List Request} (hg : Runs.Guarded (step rt) guard (initial setup) requests) :
    I (after rt setup requests).board :=
  Runs.run_induction (I := fun db => I db.board)
    (fun db r db' hs hguard h => hstep db r db' hs hguard h (step_board h)) requests _ hinit hg

end Simulation

end CalmBoard
