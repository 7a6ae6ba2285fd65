import CalmBoard.Tree
import CalmBoard.Lib.Forest

/-!
# CalmBoard.Tasks.Hierarchy — subtasks and their ancestors

Creating and re-parenting a task walk from the new parent to the root; deleting a task takes its
direct children along.  Neither looks at what hangs below.

* `hierarchy_bounded`: without a re-parenting that moves too deep a subtree, the parent relation of
  active tasks is acyclic and no task has more than `maxSubtaskDepth` ancestors.
* `ancestors_active`: without a deletion that leaves grandchildren behind, active tasks have active
  ancestors only.
-/

namespace CalmBoard

open Fallible Relation

/-! ### Parents on the tree -/

variable {ancestors : List Uuid}

namespace Board

variable {t : Uuid → Option Card} {b : Board} {k p : Uuid} {c : Card}

/-- The parent pointer of an active card. -/
def parent (t : Uuid → Option Card) (k : Uuid) : Option Uuid :=
  ((t k).filter Card.active).bind Card.parentId

theorem parent_eq_some : parent t k = some p ↔
    ∃ c, t k = some c ∧ c.active = true ∧ c.parentId = some p := by
  unfold parent
  simp only [Option.bind_eq_some_iff, Option.filter_eq_some_iff, and_assoc]

theorem parent_update (t : Uuid → Option Card) (k : Uuid) {c : Card} (hc : c.active = true) :
    parent (Function.update t k (some c)) = Function.update (parent t) k c.parentId := by
  funext j
  by_cases hj : j = k
  · subst hj
    rw [parent, Function.update_self, Function.update_self, Option.filter_some, if_pos hc]
    rfl
  · simp [parent, hj]

theorem tree_id (h : b.tree k = some c) : c.id = k := by
  obtain ⟨d, hd, rfl⟩ := Option.map_eq_some_iff.mp h
  show d.id = k
  exact Table.key_of_find? hd

theorem tree_of_active (h : b.active? k = some c) : b.tree k = some c.node := by
  unfold tree
  rw [(active?_eq_some h).1, Option.map_some]

theorem parent_of_active (h : b.active? k = some c) : parent b.tree k = c.parentId := by
  have hnode : c.node.active = true := (active?_eq_some h).2.2
  rw [parent, tree_of_active h, Option.filter_some, if_pos hnode]
  rfl

theorem tree_of_row {db : Db} {row : TaskRow} (h : row ∈ db.tasks.rows) :
    db.board.tree row.id = some row.card.node := by
  unfold tree
  rw [board_find?, Table.find?_of_mem h]
  rfl

theorem row_of_tree {db : Db} (h : db.board.tree k = some c) :
    ∃ row ∈ db.tasks.rows, row.id = k ∧ row.card.node = c := by
  obtain ⟨d, hd, rfl⟩ := Option.map_eq_some_iff.mp h
  rw [board_find?] at hd
  obtain ⟨row, hrow, rfl⟩ := Option.map_eq_some_iff.mp hd
  exact ⟨row, Table.mem_of_find? hrow, Table.key_of_find? hrow, rfl⟩

theorem ancestry_chain {q : Option Uuid} (h : b.Ancestry q ancestors) :
    (∀ j, parent b.tree j = q → Forest.Chain (parent b.tree) j ancestors) := by
  induction h with
  | root => exact fun j hj => .root hj
  | @step p card ancestors hp _ ih =>
    intro j hj
    exact .step hj (ih p (parent_of_active hp))

theorem chain_of_ancestry (h : b.Ancestry (some p) ancestors) (hk : k ∉ ancestors) :
    Forest.Chain (Function.update (parent b.tree) k (some p)) k ancestors := by
  obtain _ | ⟨hp, rest⟩ := h
  rename_i card ancestors
  have hpk : p ≠ k := fun he => hk (he ▸ List.mem_cons_self)
  have hchain : Forest.Chain (parent b.tree) p ancestors :=
    ancestry_chain rest p (parent_of_active hp)
  exact .step (Function.update_self ..)
    (hchain.avoid _ hpk fun hmem => hk (List.mem_cons_of_mem _ hmem))

theorem ancestry_unique {q : Option Uuid} {l l' : List Uuid} (h : b.Ancestry q l)
    (h' : b.Ancestry q l') : l = l' := by
  induction h generalizing l' with
  | root => cases h'; rfl
  | step hp _ ih =>
    obtain _ | ⟨hp', rest'⟩ := h'
    obtain rfl := Option.some.inj (hp.symm.trans hp')
    rw [ih rest']

/-! ### Depth -/

/-- Parent pointers lead to cards that exist, and no chain of them is longer than the depth. -/
structure Nested (t : Uuid → Option Card) : Prop where
  exists_parent : ∀ k p, parent t k = some p → (t p).isSome
  bounded : Forest.Bounded (parent t) Tasks.maxSubtaskDepth

theorem isSome_update (t : Uuid → Option Card) (k : Uuid) (c : Card) {j : Uuid}
    (h : (t j).isSome) : (Function.update t k (some c) j).isSome := by
  by_cases hjk : j = k
  · rw [hjk, Function.update_self]
    rfl
  · rwa [Function.update_of_ne hjk]

theorem nested_mono {t' : Uuid → Option Card} (h : Nested t)
    (hparent : ∀ k p, parent t' k = some p → parent t k = some p)
    (hsome : ∀ k, (t k).isSome → (t' k).isSome) : Nested t' where
  exists_parent k p hp := hsome p (h.exists_parent k p (hparent k p hp))
  bounded := h.bounded.mono hparent

theorem nested_update {m : ℕ} (h : Nested b.tree) (hc : c.active = true)
    (hparent : c.parentId = some p) (hanc : b.Ancestry (some p) ancestors) (hk : k ∉ ancestors)
    (hbelow : Forest.Within (parent b.tree) m k)
    (hfits : ancestors.length + m ≤ Tasks.maxSubtaskDepth) :
    Nested (Function.update b.tree k (some c)) := by
  refine ⟨fun j q hq => isSome_update b.tree k c ?_, ?_⟩
  · rw [parent_update _ _ hc] at hq
    by_cases hjk : j = k
    · rw [hjk, Function.update_self, hparent] at hq
      cases hq
      obtain _ | ⟨hp, -⟩ := hanc
      rw [tree_of_active hp]
      rfl
    · rw [Function.update_of_ne hjk] at hq
      exact h.exists_parent j q hq
  · rw [parent_update _ _ hc, hparent]
    exact h.bounded.update (chain_of_ancestry hanc hk) hbelow hfits

theorem nested_keep {t : Uuid → Option Card} (h : Nested t) (hc : c.active = true)
    (hparent : ∀ p, c.parentId = some p → parent t k = some p) :
    Nested (Function.update t k (some c)) := by
  refine nested_mono h (fun j p hp => ?_) fun j => isSome_update t k c
  rw [parent_update _ _ hc] at hp
  by_cases hjk : j = k
  · rw [hjk, Function.update_self] at hp
    exact hjk ▸ hparent p hp
  · rwa [Function.update_of_ne hjk] at hp

theorem within_fresh (h : Nested t) (hk : t k = none) : Forest.Within (parent t) 0 k := by
  intro j hj
  have := h.exists_parent j k hj
  rw [hk] at this
  cases this

theorem nested_step {r : Request} (h : b.TreeStep r t) (hnested : Nested b.tree)
    (hbelow : ∀ taskId input p ancestors, r = .updateTask taskId input →
      input.parentId = some (some p) → b.Ancestry (some p) ancestors →
        Forest.Within (parent b.tree) (Tasks.maxSubtaskDepth - ancestors.length) taskId) :
    Nested t := by
  cases h with
  | same => exact hnested
  | @create input card hnew hdeleted _ _ hnests =>
    have hactive : card.node.active = true := by
      show card.deletedAt.isNone = true
      rw [hdeleted]
      rfl
    cases hp : card.parentId with
    | none =>
      exact nested_keep hnested hactive fun p he => absurd (hp.symm.trans he) (by simp)
    | some p =>
      obtain ⟨ancestors, hanc, hmem, hlen⟩ := hnests p hp
      exact nested_update hnested hactive hp hanc hmem (within_fresh hnested hnew) hlen
  | @update taskId input before after hactive hafter hnests =>
    have hat : after.node.active = true := by
      show after.deletedAt.isNone = true
      rw [hafter.deletedAt]
      exact (active?_eq_some hactive).2.2
    have hparent : after.node.parentId = input.parentId.getD before.parentId := hafter.parentId
    cases hin : input.parentId with
    | none =>
      rw [hin] at hparent
      exact nested_keep hnested hat fun p he =>
        (parent_of_active hactive).trans (hparent.symm.trans he)
    | some q =>
      rw [hin, Option.getD_some] at hparent
      cases q with
      | none => exact nested_keep hnested hat fun p he => absurd (hparent.symm.trans he) (by simp)
      | some p =>
        obtain ⟨ancestors, hanc, hmem, hlen⟩ := hnests p (by rw [hin]; rfl)
        refine nested_update hnested hat hparent hanc hmem
          (hbelow taskId input p ancestors rfl hin hanc) ?_
        omega
  | @move taskId input card hactive =>
    exact nested_keep hnested (active?_eq_some hactive).2.2 fun p he =>
      (parent_of_active hactive).trans he
  | delete _ =>
    refine nested_mono hnested (fun k p hp => ?_) fun k hk => ?_
    · obtain ⟨d, hd, hactive, hparent⟩ := parent_eq_some.mp hp
      obtain ⟨c, hc, rfl⟩ := Option.map_eq_some_iff.mp hd
      split at hactive
      · cases hactive
      · next hsel =>
        rw [if_neg hsel] at hparent
        exact parent_eq_some.mpr ⟨c, hc, hactive, hparent⟩
    · rw [Option.isSome_map]
      exact hk

end Board

namespace Tasks

variable {rt : Runtime} {db db' : Db}

/-- `p` is the parent of the active task `k`. -/
def IsParent (db : Db) (k p : Uuid) : Prop := ∃ t, findActive db k = some t ∧ t.parentId = some p

theorem isParent_eq (db : Db) : IsParent db = Forest.Parent (Board.parent db.board.tree) := by
  funext k p
  rw [Forest.Parent, eq_iff_iff, Board.parent_eq_some]
  constructor
  · rintro ⟨t, ht, hp⟩
    obtain ⟨hfind, hactive⟩ := Option.filter_eq_some_iff.mp ht
    refine ⟨t.card.node, ?_, hactive, hp⟩
    rw [← Table.key_of_find? hfind]
    exact Board.tree_of_row (Table.mem_of_find? hfind)
  · rintro ⟨c, hc, hactive, hp⟩
    obtain ⟨row, hrow, rfl, rfl⟩ := Board.row_of_tree hc
    refine ⟨row, ?_, hp⟩
    rw [findActive, Table.find?_of_mem hrow, Option.filter_some,
      if_pos (show row.active = true from hactive)]

/-- At most `m` levels of active subtasks hang below a task. -/
def noDeeper (db : Db) : ℕ → Uuid → Bool
  | 0, taskId => db.tasks.rows.all fun c => !(c.active && c.parentId = some taskId)
  | m + 1, taskId => db.tasks.rows.all fun c =>
      !(c.active && c.parentId = some taskId) || noDeeper db m c.id

theorem within_of_noDeeper : ∀ {m : ℕ} {taskId : Uuid}, noDeeper db m taskId = true →
    Forest.Within (Board.parent db.board.tree) m taskId
  | 0, taskId, h => by
    intro k hk
    obtain ⟨c, hc, hactive, hp⟩ := Board.parent_eq_some.mp hk
    obtain ⟨row, hrow, rfl, rfl⟩ := Board.row_of_tree hc
    have hrow' := List.all_eq_true.mp h row hrow
    rw [show row.active = true from hactive, show row.parentId = some taskId from hp] at hrow'
    simp at hrow'
  | m + 1, taskId, h => by
    intro k hk
    obtain ⟨c, hc, hactive, hp⟩ := Board.parent_eq_some.mp hk
    obtain ⟨row, hrow, rfl, rfl⟩ := Board.row_of_tree hc
    have hrow' := List.all_eq_true.mp h row hrow
    rw [show row.active = true from hactive, show row.parentId = some taskId from hp] at hrow'
    exact within_of_noDeeper (by simpa using hrow')

/-- The subtree of a task that gets a new parent fits below it: the levels above, as `parentChain`
counts them, and the levels below stay within the depth. -/
def FitsBelow (db : Db) : Request → Prop
  | .updateTask taskId input => ∀ parentId ∈ input.parentId.join, ∀ ancestors,
      parentChain db (some parentId) = .ok ancestors →
        noDeeper db (maxSubtaskDepth - ancestors.length) taskId = true
  | _ => True

instance (db : Db) : DecidablePred (FitsBelow db) := fun r => by
  unfold FitsBelow
  split <;> infer_instance

theorem parentChain_of_update {taskId p : Uuid} {input : UpdateTaskInput}
    (h : update rt db taskId input = .ok db') (hp : input.parentId.join = some p) :
    ∃ ancestors, parentChain db (some p) = .ok ancestors := by
  obtain ⟨plan, hplan, -⟩ := update_ok h
  have hvalid := (planUpdate_ok hplan).2.1
  simp only [validateUpdateInput, checkNewParent, requireParent, hp, throw_bind, bind_ok,
    guard_ok] at hvalid
  obtain ⟨-, ⟨-, ancestors, ⟨-, -, -, hchain⟩, -⟩, -⟩ := hvalid
  exact ⟨ancestors, hchain⟩

/-- **Depth**: after every run whose re-parented subtrees fit, the parent relation of the active
tasks is acyclic, and no task has more ancestors than `maxSubtaskDepth`. -/
theorem hierarchy_bounded {setup : Setup} {requests : List Request}
    (hg : Runs.Guarded (step rt) FitsBelow (initial setup) requests) :
    Digraph.Acyclic (IsParent (after rt setup requests)) ∧
      ∀ taskId, {p | TransGen (IsParent (after rt setup requests)) taskId p}.encard ≤
        maxSubtaskDepth := by
  have hnested : Board.Nested (after rt setup requests).board.tree := by
    refine board_invariant (I := fun b => Board.Nested b.tree) ?_ ?_ hg
    · exact { exists_parent := nofun, bounded := fun k => ⟨[], .root rfl, Nat.zero_le _⟩ }
    intro db r db' hnested hguard hok hstep
    refine Board.nested_step (Board.tree_step hstep) hnested ?_
    rintro taskId input p ancestors rfl hp hanc
    have hjoin : input.parentId.join = some p := by rw [hp]; rfl
    obtain ⟨ancestors', hchain⟩ := parentChain_of_update hok hjoin
    obtain rfl := Board.ancestry_unique hanc (parentChain_ok hchain)
    exact within_of_noDeeper (hguard p hjoin ancestors hchain)
  rw [isParent_eq]
  exact ⟨hnested.bounded.acyclic, hnested.bounded.encard_ancestors⟩

theorem encard_of_parentChain {t : TaskRow} (ht : findActive db t.id = some t)
    (h : parentChain db t.parentId = .ok ancestors) :
    {p | TransGen (IsParent db) t.id p}.encard = ancestors.length := by
  rw [isParent_eq]
  refine (Board.ancestry_chain (parentChain_ok h) t.id ?_).encard
  have hactive : db.board.active? t.id = some t.card := by
    rw [board_active?, ← findActive, ht, Option.map_some]
  exact Board.parent_of_active hactive

/-- A new task of the small project. -/
def subtask (title : String) (parentId : Option Uuid) : Request :=
  .createTask { projectId := 7, title, parentId }

/-- A subtask moves with its own subtask below another task. -/
theorem hierarchy_bounded_moved :
    let db := after utcRuntime smallSetup [subtask "a" none, subtask "b" none, subtask "c" (some 101),
      .updateTask 101 { parentId := some (some 100), expectedVersion := some (.fin 1) }]
    Digraph.Acyclic (IsParent db) ∧
      ∀ taskId, {p | TransGen (IsParent db) taskId p}.encard ≤ maxSubtaskDepth :=
  hierarchy_bounded (by decide)

/-- Three levels and a subtree of four: each task that is checked has few ancestors, but the
deepest one ends with six. -/
theorem hierarchy_exceeds_depth :
    ¬ ∀ taskId, {p | TransGen (IsParent (after utcRuntime smallSetup
        [subtask "a" none, subtask "b" (some 100), subtask "c" (some 101),
          subtask "d" none, subtask "e" (some 103), subtask "f" (some 104), subtask "g" (some 105),
          .updateTask 103 { parentId := some (some 102), expectedVersion := some (.fin 1) }]))
      taskId p}.encard ≤ maxSubtaskDepth := by
  intro h
  generalize hdb : after utcRuntime smallSetup _ = db at h
  obtain ⟨t, ht, hchain⟩ : ∃ t, findActive db 106 = some t ∧
      parentChain db t.parentId = .ok [105, 104, 103, 102, 101, 100] := by
    have hrun : (findActive db 106).any (fun t => (parentChain db t.parentId).toOption =
        some [105, 104, 103, 102, 101, 100]) = true := by
      subst hdb
      decide +kernel
    simp only [Option.any_eq_true, decide_eq_true_eq] at hrun
    obtain ⟨t, ht, hok⟩ := hrun
    refine ⟨t, ht, ?_⟩
    cases hp : parentChain db t.parentId with
    | ok l => simpa [hp, Except.toOption] using hok
    | error e => simp [hp, Except.toOption] at hok
  have hid : t.id = 106 := Table.key_of_find? (Option.filter_eq_some_iff.mp ht).1
  have hsix := encard_of_parentChain (hid ▸ ht) hchain
  rw [hid] at hsix
  have hle := h 106
  rw [hsix] at hle
  exact absurd hle (by decide)

end Tasks

/-! ### Deleted ancestors -/

namespace Board

variable {t : Uuid → Option Card} {b : Board} {k p : Uuid} {c : Card}

def ParentsActive (t : Uuid → Option Card) : Prop :=
  ∀ k c, t k = some c → c.active = true → ∀ p, c.parentId = some p →
    ∃ d, t p = some d ∧ d.active = true

theorem parentsActive_update (h : ParentsActive t) (hc : c.active = true)
    (hparent : ∀ p, c.parentId = some p → ∃ d, t p = some d ∧ d.active = true) :
    ParentsActive (Function.update t k (some c)) := by
  have hkeeps : ∀ p, (∃ d, t p = some d ∧ d.active = true) →
      ∃ d, Function.update t k (some c) p = some d ∧ d.active = true := by
    rintro p ⟨d, hd, hactive⟩
    by_cases hpk : p = k
    · exact ⟨c, by rw [hpk, Function.update_self], hc⟩
    · exact ⟨d, by rw [Function.update_of_ne hpk, hd], hactive⟩
  intro j d hj hactive p hp
  by_cases hjk : j = k
  · rw [hjk, Function.update_self] at hj
    cases hj
    exact hkeeps p (hparent p hp)
  · rw [Function.update_of_ne hjk] at hj
    exact hkeeps p (h j d hj hactive p hp)

theorem nests_active {q : Option Uuid} (h : b.Nests k q) :
    ∀ p, q = some p → ∃ d, b.tree p = some d ∧ d.active = true := by
  intro p hp
  obtain ⟨ancestors, hanc, -, -⟩ := h p hp
  obtain _ | ⟨hactive, -⟩ := hanc
  exact ⟨_, tree_of_active hactive, (active?_eq_some hactive).2.2⟩

theorem parentsActive_step {r : Request} (h : b.TreeStep r t) (hparents : ParentsActive b.tree)
    (hleaves : ∀ taskId, r = .softDeleteTask taskId → ∀ j k c d, b.tree j = some c →
      c.active = true → c.parentId = some taskId → b.tree k = some d → d.active = true →
        d.parentId ≠ some j) :
    ParentsActive t := by
  cases h with
  | same => exact hparents
  | @create input card _ hdeleted _ _ hnests =>
    refine parentsActive_update hparents ?_ (nests_active hnests)
    show card.deletedAt.isNone = true
    rw [hdeleted]
    rfl
  | @update taskId input before after hactive hafter hnests =>
    obtain ⟨-, -, hbefore⟩ := active?_eq_some hactive
    refine parentsActive_update hparents ?_ fun p hp => ?_
    · show after.deletedAt.isNone = true
      rw [hafter.deletedAt]
      exact hbefore
    have hparent : input.parentId.getD before.parentId = some p := hafter.parentId.symm.trans hp
    cases hin : input.parentId with
    | none =>
      rw [hin] at hparent
      exact hparents taskId before.node (tree_of_active hactive) hbefore p hparent
    | some q =>
      rw [hin] at hparent hnests
      exact nests_active hnests p hparent
  | @move taskId input card hactive =>
    obtain ⟨-, -, hcard⟩ := active?_eq_some hactive
    exact parentsActive_update hparents hcard
      (hparents taskId card.node (tree_of_active hactive) hcard)
  | @delete taskId card hactive =>
    intro k d hd hdactive p hp
    obtain ⟨c, hc, rfl⟩ := Option.map_eq_some_iff.mp hd
    split at hdactive
    · cases hdactive
    next hsel =>
    rw [if_neg hsel] at hp
    -- what is left is neither the task nor its child
    obtain ⟨hid, hparent⟩ : c.id ≠ taskId ∧ c.parentId ≠ some taskId := by
      simpa [hdactive] using hsel
    obtain ⟨above, habove, haactive⟩ := hparents k c hc hdactive p hp
    have haid : above.id ≠ taskId := by
      rintro rfl
      exact hparent (by rw [hp, tree_id habove])
    have haparent : above.parentId ≠ some taskId := fun he =>
      hleaves taskId rfl p k above c habove haactive he hc hdactive hp
    refine ⟨above, ?_, haactive⟩
    show (b.tree p).map _ = _
    rw [habove, Option.map_some, if_neg (by simp [haid, haparent])]

end Board

namespace Tasks

variable {rt : Runtime} {db : Db}

/-- `p` is the parent of the task `k`, deleted or not. -/
def PointsTo (db : Db) (k p : Uuid) : Prop := ∃ t, db.tasks.find? k = some t ∧ t.parentId = some p

/-- A task that is deleted has no active subtasks with active subtasks of their own. -/
def LeavesNoGrandchildren (db : Db) : Request → Prop
  | .softDeleteTask taskId => ∀ c ∈ db.tasks.rows, c.active = true → c.parentId = some taskId →
      ∀ g ∈ db.tasks.rows, g.active = true → g.parentId ≠ some c.id
  | _ => True

instance (db : Db) : DecidablePred (LeavesNoGrandchildren db)
  | .softDeleteTask _ => by dsimp only [LeavesNoGrandchildren]; infer_instance
  | .elapse .. | .createTask _ | .updateTask .. | .moveTask .. | .createSprint _
  | .startSprint .. | .completeSprint .. | .cancelSprint .. | .assignTaskToSprint ..
  | .removeTaskFromSprint _ | .moveTaskBetweenSprints .. => .isTrue trivial

/-- **Deletion**: after every run whose deletions leave no grandchildren, every ancestor of an active
task is an active task. -/
theorem ancestors_active {setup : Setup} {requests : List Request}
    (hg : Runs.Guarded (step rt) LeavesNoGrandchildren (initial setup) requests) :
    ∀ taskId ancestor, (findActive (after rt setup requests) taskId).isSome →
      TransGen (PointsTo (after rt setup requests)) taskId ancestor →
        (findActive (after rt setup requests) ancestor).isSome := by
  have hparents : Board.ParentsActive (after rt setup requests).board.tree := by
    refine board_invariant (I := fun b => Board.ParentsActive b.tree) nofun ?_ hg
    intro db r db' hparents hguard _ hstep
    refine Board.parentsActive_step (Board.tree_step hstep) hparents ?_
    rintro taskId rfl j k c d hc hcactive hcparent hd hdactive hdparent
    obtain ⟨row, hrow, rfl, rfl⟩ := Board.row_of_tree hc
    obtain ⟨child, hchild, rfl, rfl⟩ := Board.row_of_tree hd
    exact hguard row hrow hcactive hcparent child hchild hdactive hdparent
  generalize after rt setup requests = db at *
  intro taskId ancestor hactive hanc
  have hstep : ∀ k p, (findActive db k).isSome → PointsTo db k p → (findActive db p).isSome := by
    rintro k p hk ⟨t, ht, hp⟩
    obtain ⟨t', ht'⟩ := Option.isSome_iff_exists.mp hk
    obtain ⟨hfind, htactive⟩ := Option.filter_eq_some_iff.mp ht'
    obtain rfl := Option.some.inj (ht.symm.trans hfind)
    obtain ⟨d, hd, hdactive⟩ := hparents t.id t.card.node
      (Board.tree_of_row (Table.mem_of_find? ht)) htactive p hp
    obtain ⟨row, hrow, rfl, rfl⟩ := Board.row_of_tree hd
    rw [findActive, Table.find?_of_mem hrow, Option.filter_some,
      if_pos (show row.active = true from hdactive)]
    rfl
  induction hanc with
  | single hp => exact hstep _ _ hactive hp
  | tail _ hp ih => exact hstep _ _ ih hp

/-- A task is deleted together with its subtask; another task stays. -/
theorem ancestors_active_child :
    let db := after utcRuntime smallSetup
      [subtask "a" none, subtask "b" (some 100), subtask "c" none, .softDeleteTask 100]
    findActive db 101 = none ∧
      ∀ taskId ancestor, (findActive db taskId).isSome → TransGen (PointsTo db) taskId ancestor →
        (findActive db ancestor).isSome :=
  ⟨Option.isNone_iff_eq_none.mp (by decide), ancestors_active (by decide)⟩

/-- Three levels of tasks whose root is deleted. -/
def rootDeleted : Db := after utcRuntime smallSetup
  [subtask "a" none, subtask "b" (some 100), subtask "c" (some 101), .softDeleteTask 100]

/-- The third level stays active below the deleted second one. -/
theorem deleted_ancestor_of_grandchild :
    ¬ ∀ taskId ancestor, (findActive rootDeleted taskId).isSome →
      TransGen (PointsTo rootDeleted) taskId ancestor →
        (findActive rootDeleted ancestor).isSome := by
  intro h
  have hactive : (findActive rootDeleted 102).isSome := by decide
  have hdeleted : findActive rootDeleted 101 = none := by
    rw [← Option.isNone_iff_eq_none]
    decide
  have hparent : (rootDeleted.tasks.find? 102).any (fun t => t.parentId = some 101) = true := by
    decide
  simp only [Option.any_eq_true, decide_eq_true_eq] at hparent
  have hancestor := h 102 101 hactive (TransGen.single hparent)
  rw [hdeleted] at hancestor
  cases hancestor

end Tasks

end CalmBoard
