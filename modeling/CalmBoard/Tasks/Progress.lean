import CalmBoard.Tree

/-!
# CalmBoard.Tasks.Progress — completed tasks and their progress

A task that is done stands at 100.  Creating and moving a task keep to this, and so does the state an
update resolves; an update writes another value where the input gives one and the resolved progress
is the stored one.

* `completed_are_full`: the rule holds after every run without such an update.
-/

namespace CalmBoard.Tasks

variable {rt : Runtime} {db : Db}

/-- No update that is accepted and has something to write gives a completed task a progress below
the 100 it has. -/
def KeepsAllCompleted (rt : Runtime) (db : Db) : Request → Prop
  | .updateTask taskId input => ∀ plan, planUpdate rt db taskId input = .ok plan →
      plan.hasAnyChange = true → plan.before.row.version = plan.expectedVersion →
        KeepsCompleted plan.before.row input.toTaskStateInput
  | _ => True

instance (rt : Runtime) (db : Db) : DecidablePred (KeepsAllCompleted rt db)
  | .updateTask .. => by dsimp only [KeepsAllCompleted]; infer_instance
  | .elapse .. | .createTask _ | .moveTask .. | .softDeleteTask _ | .createSprint _
  | .startSprint .. | .completeSprint .. | .cancelSprint .. | .assignTaskToSprint ..
  | .removeTaskFromSprint _ | .moveTaskBetweenSprints .. => .isTrue trivial

/-- Completed tasks are at 100. -/
def CompletedAreFull (t : Uuid → Option Card) : Prop :=
  ∀ k c, t k = some c → c.status = .done → c.progress = 100

theorem completed_update {t : Uuid → Option Card} {k : Uuid} {c : Card} (h : CompletedAreFull t)
    (hc : c.status = .done → c.progress = 100) :
    CompletedAreFull (Function.update t k (some c)) := by
  intro j d hj
  by_cases hjk : j = k
  · subst hjk
    rw [Function.update_self] at hj
    cases hj
    exact hc
  · rw [Function.update_of_ne hjk] at hj
    exact h j d hj

theorem completed_step {b : Board} {r : Request} {t : Uuid → Option Card} (h : b.TreeStep r t)
    (hfull : CompletedAreFull b.tree)
    (hkeeps : ∀ taskId input before, r = .updateTask taskId input →
      b.active? taskId = some before → input.status.getD before.status = .done →
        before.progress = 100 → ∀ p, input.progress = some p → p = .fin 100) :
    CompletedAreFull t := by
  cases h with
  | same => exact hfull
  | create _ _ hdone _ _ => exact completed_update hfull hdone
  | @update taskId input before after hactive hafter _ =>
    refine completed_update hfull fun hdone => hafter.done hdone ?_
    exact hkeeps taskId input before rfl hactive (hafter.status.symm.trans hdone)
  | @move taskId input card _ =>
    refine completed_update hfull fun hdone => ?_
    have hstatus : input.status = .done := hdone
    show (if input.status = .done then 100 else card.progress) = 100
    rw [if_pos hstatus]
  | delete _ =>
    intro k c hc
    obtain ⟨old, hold, rfl⟩ := Option.map_eq_some_iff.mp hc
    intro hdone
    split at hdone
    · next hsel =>
      rw [if_pos hsel]
      exact hfull k old hold hdone
    · next hsel =>
      rw [if_neg hsel]
      exact hfull k old hold hdone

/-- **Completed tasks**: after every run whose updates keep what is completed, a task that is done
stands at 100. -/
theorem completed_are_full {setup : Setup} {requests : List Request}
    (hg : Runs.Guarded (step rt) (KeepsAllCompleted rt) (initial setup) requests) :
    ∀ t ∈ (after rt setup requests).tasks.rows, t.status = .done → t.progress = 100 := by
  have hinv : CompletedAreFull (after rt setup requests).board.tree := by
    refine board_invariant (I := fun b => CompletedAreFull b.tree) (fun k c hc => by cases hc) ?_ hg
    intro db r db' hfull hguard hok hstep
    cases r with
    | updateTask taskId input =>
      obtain rfl | ⟨plan, after, hplan, hchange, hversion, -, -⟩ := board_update hok
      · exact hfull
      refine completed_step (Board.tree_step hstep) hfull ?_
      rintro taskId' input' before ⟨⟩ hactive
      obtain ⟨-, hfind, hrow⟩ := getById_ok (planUpdate_ok hplan).1
      rw [board_active?, hfind, Option.filter_some, if_pos hrow] at hactive
      cases hactive
      exact hguard plan hplan hchange hversion
    | _ =>
      exact completed_step (Board.tree_step hstep) hfull (fun _ _ _ he => by cases he)
  intro t ht hdone
  refine hinv t.id t.card.node ?_ hdone
  unfold Board.tree
  rw [board_find?, Table.find?_of_mem ht]
  rfl

/-- A task is completed, then renamed. -/
theorem completed_are_full_renamed :
    let db := after utcRuntime smallSetup
      [.createTask { projectId := 7, title := "a" },
        .updateTask 100 { status := some .done, expectedVersion := some (.fin 1) },
        .updateTask 100 { title := some "b", expectedVersion := some (.fin 2) }]
    (∃ t ∈ db.tasks.rows, t.status = .done) ∧
      ∀ t ∈ db.tasks.rows, t.status = .done → t.progress = 100 :=
  ⟨by decide +kernel, completed_are_full (by decide +kernel)⟩

/-- Renaming a completed task and giving it another progress leaves it done at that progress. -/
theorem completed_task_at_half :
    ¬ ∀ t ∈ (after utcRuntime smallSetup
        [.createTask { projectId := 7, title := "a" },
          .updateTask 100 { status := some .done, expectedVersion := some (.fin 1) },
          .updateTask 100
            { title := some "b", progress := some (.fin 50), expectedVersion := some (.fin 2) }]
        ).tasks.rows,
      t.status = .done → t.progress = 100 := by
  decide +kernel

end CalmBoard.Tasks
