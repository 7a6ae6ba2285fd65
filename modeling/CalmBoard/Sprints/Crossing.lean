import CalmBoard.System
import CalmBoard.Sprints.Statements

/-!
# CalmBoard.Sprints.Crossing — transactions that cross the closing of a sprint

* `Settled`: no active task is in a cancelled sprint, and the tasks that are left in a completed sprint
  were in it when its snapshot was taken.
* `Facts`: what a transaction knows by the locks it holds.
* `closed_sprints_settled`: `Settled` holds in every run in which tasks are assigned only to sprints
  that are still open.
* `crossing_transactions`: runs in which a sprint is closed between the check and the assignment.
-/

namespace CalmBoard.Sprints.Statements

open Transactions Sessions

variable {s : Store} {w : Write} {ws ws' : List Write} {ks ks' : List Lock} {x : Uuid}

/-- The sprint is completed or cancelled. -/
def Store.ended (s : Store) (sprintId : Uuid) : Bool :=
  s.db.sprints.rows.any fun sp =>
    sp.id = sprintId && (sp.status = .completed || sp.status = .cancelled)

/-- No active task points to, or has an open assignment in, a cancelled sprint; tasks that point to a
completed sprint were in it when its snapshot was taken. -/
structure Settled (s : Store) : Prop where
  pointed : ∀ t ∈ s.db.tasks.rows, ∀ sp ∈ s.db.sprints.rows, t.active = true →
    t.sprintId = some sp.id → sp.status ≠ .cancelled
  assigned : ∀ a ∈ s.db.assignments, ∀ t ∈ s.db.tasks.rows, ∀ sp ∈ s.db.sprints.rows,
    a.opened = true → a.taskId = t.id → t.active = true → a.sprintId = sp.id →
      sp.status ≠ .cancelled
  captured : ∀ t ∈ s.db.tasks.rows, ∀ sp ∈ s.db.sprints.rows, t.sprintId = some sp.id →
    sp.status = .completed → ∃ p ∈ s.captured, p.1 = sp.id ∧ t.id ∈ p.2

instance (s : Store) : Decidable (Settled s) :=
  decidable_of_iff (_ ∧ _ ∧ _) ⟨fun h => ⟨h.1, h.2.1, h.2.2⟩, fun h => ⟨h.1, h.2, h.3⟩⟩

/-- The sprint to which a statement inserts an assignment. -/
def Point.target : Point → Option Uuid
  | .closed p => p.target
  | .unassigned c _ _ => c.target
  | _ => none

/-- An assignment is inserted only while its sprint has not been completed or cancelled. -/
def StillOpen (s : Store) (p : Point) : Prop := (p.target.all fun x => !s.ended x) = true

instance (s : Store) (p : Point) : Decidable (StillOpen s p) :=
  inferInstanceAs (Decidable (_ = true))

/-! ### Writes -/

theorem opened_cases (db : Db) (taskId projectId sprintId : Uuid) :
    (openAssignment db taskId projectId (some sprintId)).toOption.getD db = db ∨
    (openAssignment db taskId projectId (some sprintId)).toOption.getD db =
      { db with assignments := db.assignments ++ [
        { taskId, sprintId, projectId, assignedAt := db.now }] } := by
  unfold openAssignment
  simp only
  split
  · exact Or.inl rfl
  · exact Or.inr rfl

theorem opened_field {α : Type} (f : Db → α) (hf : ∀ db assignments,
    f { db with assignments } = f db) (db : Db) (taskId projectId sprintId : Uuid) :
    f ((openAssignment db taskId projectId (some sprintId)).toOption.getD db) = f db := by
  rcases opened_cases db taskId projectId sprintId with he | he
  · rw [he]
  · rw [he, hf]

theorem snapshot_field {α : Type} (f : Db → α) (hf : ∀ db snapshots,
    f { db with snapshots } = f db) (db : Db) (projectId sprintId : Uuid)
    (counters : SprintCounters) :
    f ((insertSprintSnapshot db projectId sprintId .complete counters).toOption.getD db) = f db := by
  unfold insertSprintSnapshot
  simp only
  split
  · rfl
  · split
    · rfl
    · split
      · rfl
      · exact hf _ _

theorem mem_tasks_apply {t' : TaskRow} (h : t' ∈ (w.apply s).db.tasks.rows) :
    ∃ t ∈ s.db.tasks.rows, t.id = t'.id ∧ t.active = t'.active ∧
      ((t'.sprintId = t.sprintId ∧ ∀ ids y, w = .point ids y → t.id ∉ ids) ∨
        ∃ ids, w = .point ids t'.sprintId) := by
  have hsame : (w.apply s).db.tasks = s.db.tasks → (∀ ids y, w ≠ .point ids y) →
      ∃ t ∈ s.db.tasks.rows, t.id = t'.id ∧ t.active = t'.active ∧
        ((t'.sprintId = t.sprintId ∧ ∀ ids y, w = .point ids y → t.id ∉ ids) ∨
          ∃ ids, w = .point ids t'.sprintId) := by
    intro htasks hne
    rw [htasks] at h
    exact ⟨t', h, rfl, rfl, Or.inl ⟨rfl, fun ids y he => absurd he (hne ids y)⟩⟩
  cases w with
  | point ids y =>
    obtain ⟨t, ht, rfl⟩ := List.mem_map.mp h
    by_cases hsel : ids.contains t.id = true
    · rw [if_pos hsel]
      exact ⟨t, ht, rfl, rfl, Or.inr ⟨ids, rfl⟩⟩
    · rw [if_neg hsel]
      refine ⟨t, ht, rfl, rfl, Or.inl ⟨rfl, fun ids' y' he => ?_⟩⟩
      cases he
      simpa using hsel
  | close | event | sprint => exact hsame rfl fun _ _ he => by cases he
  | assign => exact hsame (opened_field Db.tasks (fun _ _ => rfl) ..) fun _ _ he => by cases he
  | snapshot => exact hsame (snapshot_field Db.tasks (fun _ _ => rfl) ..) fun _ _ he => by cases he

theorem mem_assignments_apply {a' : TaskSprintAssignmentRow}
    (h : a' ∈ (w.apply s).db.assignments) (ho : a'.opened = true) :
    (a' ∈ s.db.assignments ∧ ∀ rows, w = .close rows → (a'.taskId, a'.sprintId) ∉ rows) ∨
      ∃ p, w = .assign a'.taskId p a'.sprintId := by
  have hsame : (w.apply s).db.assignments = s.db.assignments → (∀ rows, w ≠ .close rows) →
      (a' ∈ s.db.assignments ∧ ∀ rows, w = .close rows → (a'.taskId, a'.sprintId) ∉ rows) ∨
        ∃ p, w = .assign a'.taskId p a'.sprintId := by
    intro hassignments hne
    rw [hassignments] at h
    exact Or.inl ⟨h, fun rows he => absurd he (hne rows)⟩
  cases w with
  | close rows =>
    obtain ⟨a, ha, rfl⟩ := List.mem_map.mp h
    split at ho
    · cases ho
    · next hsel =>
      rw [if_neg hsel]
      refine Or.inl ⟨ha, fun rows' he hmem => hsel ?_⟩
      cases he
      simp [hmem, ho]
  | point | event | sprint => exact hsame rfl fun _ he => by cases he
  | assign taskId projectId sprintId =>
    rcases opened_cases s.db taskId projectId sprintId with he | he
    · exact hsame (congrArg Db.assignments he) fun _ he => by cases he
    · change a' ∈ ((openAssignment s.db taskId projectId (some sprintId)).toOption.getD
        s.db).assignments at h
      rw [he] at h
      rcases List.mem_append.mp h with h | h
      · exact Or.inl ⟨h, fun _ he => by cases he⟩
      · rw [List.mem_singleton] at h
        subst h
        exact Or.inr ⟨projectId, rfl⟩
  | snapshot =>
    exact hsame (snapshot_field Db.assignments (fun _ _ => rfl) ..) fun _ he => by cases he

theorem mem_sprints_apply {sp : SprintRow} (h : sp ∈ (w.apply s).db.sprints.rows) :
    sp ∈ s.db.sprints.rows ∨ w = .sprint sp := by
  cases w with
  | sprint row =>
    rcases Table.mem_put h with rfl | h
    · exact Or.inr rfl
    · exact Or.inl h
  | point | close | event => exact Or.inl h
  | assign =>
    left
    rwa [← opened_field Db.sprints (fun _ _ => rfl)]
  | snapshot =>
    left
    rwa [← snapshot_field Db.sprints (fun _ _ => rfl)]

theorem mem_captured_apply {p : Uuid × List Uuid} (h : p ∈ s.captured) :
    p ∈ (w.apply s).captured := by
  cases w with
  | snapshot => exact List.mem_append_left _ h
  | point | close | event | sprint | assign => exact h

/-! ### All writes of a transaction -/

theorem mem_tasks_view {t' : TaskRow} (h : t' ∈ (script.view s ws).db.tasks.rows) :
    ∃ t ∈ s.db.tasks.rows, t.id = t'.id ∧ t.active = t'.active ∧
      ((t'.sprintId = t.sprintId ∧ ∀ ids y, .point ids y ∈ ws → t.id ∉ ids) ∨
        ∃ ids, .point ids t'.sprintId ∈ ws) := by
  induction ws generalizing s with
  | nil => exact ⟨t', h, rfl, rfl, Or.inl ⟨rfl, fun _ _ hw => by cases hw⟩⟩
  | cons w ws ih =>
    obtain ⟨t₁, ht₁, hid₁, hactive₁, hpointer₁⟩ := ih h
    obtain ⟨t, ht, hid, hactive, hpointer⟩ := mem_tasks_apply ht₁
    refine ⟨t, ht, hid.trans hid₁, hactive.trans hactive₁, ?_⟩
    rcases hpointer₁ with ⟨hsame₁, hnone₁⟩ | ⟨ids, hw⟩
    · rcases hpointer with ⟨hsame, hnone⟩ | ⟨ids, hw⟩
      · refine Or.inl ⟨hsame₁.trans hsame, fun ids y hmem => ?_⟩
        rcases List.mem_cons.mp hmem with he | hmem
        · exact hnone ids y he.symm
        · exact hid ▸ hnone₁ ids y hmem
      · exact Or.inr ⟨ids, by rw [hsame₁, hw]; exact List.mem_cons_self⟩
    · exact Or.inr ⟨ids, List.mem_cons_of_mem _ hw⟩

theorem mem_assignments_view {a' : TaskSprintAssignmentRow}
    (h : a' ∈ (script.view s ws).db.assignments) (ho : a'.opened = true) :
    (a' ∈ s.db.assignments ∧ ∀ rows, .close rows ∈ ws → (a'.taskId, a'.sprintId) ∉ rows) ∨
      ∃ p, .assign a'.taskId p a'.sprintId ∈ ws := by
  induction ws generalizing s with
  | nil => exact Or.inl ⟨h, fun _ hw => by cases hw⟩
  | cons w ws ih =>
    rcases ih h with ⟨h₁, hnone₁⟩ | ⟨p, hw⟩
    · rcases mem_assignments_apply h₁ ho with ⟨hmem, hnone⟩ | ⟨p, hw⟩
      · refine Or.inl ⟨hmem, fun rows hrows => ?_⟩
        rcases List.mem_cons.mp hrows with he | hrows
        · exact hnone rows he.symm
        · exact hnone₁ rows hrows
      · exact Or.inr ⟨p, by rw [hw]; exact List.mem_cons_self⟩
    · exact Or.inr ⟨p, List.mem_cons_of_mem _ hw⟩

theorem mem_sprints_view {sp : SprintRow} (h : sp ∈ (script.view s ws).db.sprints.rows) :
    sp ∈ s.db.sprints.rows ∨ .sprint sp ∈ ws := by
  induction ws generalizing s with
  | nil => exact Or.inl h
  | cons w ws ih =>
    rcases ih h with h₁ | hw
    · rcases mem_sprints_apply h₁ with h₀ | hw
      · exact Or.inl h₀
      · exact Or.inr (by rw [hw]; exact List.mem_cons_self)
    · exact Or.inr (List.mem_cons_of_mem _ hw)

theorem mem_captured_view {p : Uuid × List Uuid}
    (h : p ∈ s.captured ∨ ∃ row counters, .snapshot row counters p.2 ∈ ws ∧ row.id = p.1) :
    p ∈ (script.view s ws).captured := by
  induction ws generalizing s with
  | nil =>
    rcases h with h | ⟨_, _, hw, -⟩
    · exact h
    · cases hw
  | cons w ws ih =>
    rw [view_cons]
    refine ih ?_
    rcases h with h | ⟨row, counters, hw, hid⟩
    · exact Or.inl (mem_captured_apply h)
    · rcases List.mem_cons.mp hw with rfl | hw
      · left
        refine List.mem_append_right _ (List.mem_singleton.mpr ?_)
        rw [hid]
      · exact Or.inr ⟨row, counters, hw, hid⟩

/-! ### What a transaction knows -/

/-- The sprint of an assignment or pointer that is written. -/
def Write.target : Write → Option Uuid
  | .assign _ _ sprintId => some sprintId
  | .point _ sprintId => sprintId
  | _ => none

/-- The sprint is open, and a key-share lock keeps it so. -/
structure Kept (s : Store) (ks : List Lock) (x : Uuid) : Prop where
  opened : s.ended x = false
  locked : .sprint x .keyShare ∈ ks

/-- The sprint is locked for its closing, and nothing is written to it. -/
structure Held (ks : List Lock) (ws : List Write) (x : Uuid) : Prop where
  locked : .sprint x .update ∈ ks
  avoided : ∀ w ∈ ws, w.target ≠ some x

/-- The tasks that point to the sprint, deleted ones included, are in the list. -/
def Covers (s : Store) (x : Uuid) (taskIds : List Uuid) : Prop :=
  ∀ t ∈ s.db.tasks.rows, t.sprintId = some x → t.id ∈ taskIds

/-- The open assignments of the sprint are among these rows. -/
def Sweeps (s : Store) (x : Uuid) (rows : List (Uuid × Uuid)) : Prop :=
  ∀ a ∈ s.db.assignments, a.opened = true → a.sprintId = x → (a.taskId, a.sprintId) ∈ rows

/-- A snapshot has counted every task of the sprint. -/
def Counted (s : Store) (ws : List Write) (x : Uuid) : Prop :=
  ∃ row counters taskIds, .snapshot row counters taskIds ∈ ws ∧ row.id = x ∧ Covers s x taskIds

/-- Every assignment of the sprint is closed. -/
def Unassigned (s : Store) (ws : List Write) (x : Uuid) : Prop :=
  ∃ rows, .close rows ∈ ws ∧ Sweeps s x rows

/-- Every task of the sprint is pointed elsewhere. -/
def Emptied (s : Store) (ws : List Write) (x : Uuid) : Prop :=
  ∃ taskIds target, .point taskIds target ∈ ws ∧ Covers s x taskIds

/-- What a sprint needs to be closed. -/
structure Closable (s : Store) (ks : List Lock) (ws : List Write) (row : SprintRow) : Prop where
  held : Held ks ws row.id
  completed : row.status = .completed → Counted s ws row.id
  cancelled : row.status = .cancelled → Unassigned s ws row.id ∧ Emptied s ws row.id

/-- What a transaction knows at a point. -/
def Knows (s : Store) (ks : List Lock) (ws : List Write) : Point → Prop
  | .called _ => ws = []
  | .opened p => ∀ x, p.target = some x → Kept s ks x
  | .completing sprint _ | .cancelling sprint => ws = [] ∧ Held ks ws sprint.id
  | .destined c | .verified c => ws = [] ∧ Held ks ws c.sprint.id ∧ c.target ≠ some c.sprint.id
  | .counted c _ taskIds =>
    ws = [] ∧ Held ks ws c.sprint.id ∧ c.target ≠ some c.sprint.id ∧ Covers s c.sprint.id taskIds
  | .captured c | .releasing c _ | .unassigned c _ _ =>
    Held ks ws c.sprint.id ∧ c.target ≠ some c.sprint.id ∧ Counted s ws c.sprint.id
  | .reassigned c _ _ =>
    Held ks ws c.sprint.id ∧ c.target ≠ some c.sprint.id ∧ Counted s ws c.sprint.id ∧
      ∀ x, c.target = some x → Kept s ks x
  | .swept sprint => Held ks ws sprint.id ∧ ∃ rows, ws = [.close rows] ∧ Sweeps s sprint.id rows
  | .emptied sprint => Held ks ws sprint.id ∧ Unassigned s ws sprint.id ∧ Emptied s ws sprint.id
  | _ => True

/-- What a transaction knows, with the locks it holds and the writes it will commit. -/
structure Facts (s : Store) (p : Point) (ks : List Lock) (ws : List Write) : Prop where
  arrives : ∀ w ∈ ws, ∀ x, w.target = some x → Kept s ks x
  closes : ∀ row, .sprint row ∈ ws → Closable s ks ws row
  unfinished : p ≠ .finished → ∀ row, .sprint row ∉ ws
  knows : Knows s ks ws p

/-! ### The commit -/

theorem ended_eq_false_iff : s.ended x = false ↔ ∀ sp ∈ s.db.sprints.rows, sp.id = x →
    sp.status ≠ .completed ∧ sp.status ≠ .cancelled := by
  unfold Store.ended
  simp only [List.any_eq_false, Bool.and_eq_true, Bool.or_eq_true, decide_eq_true_eq, not_and, not_or]

theorem Facts.settled {p : Point} (h : Facts s p ks ws) (hs : Settled s) :
    Settled (script.view s ws) := by
  have harrives : ∀ w ∈ ws, ∀ sp ∈ (script.view s ws).db.sprints.rows, w.target = some sp.id →
      sp.status ≠ .completed ∧ sp.status ≠ .cancelled := by
    intro w hw sp hsp htarget
    rcases mem_sprints_view hsp with hsp | hsp
    · exact ended_eq_false_iff.mp (h.arrives w hw sp.id htarget).opened sp hsp rfl
    · exact absurd htarget ((h.closes sp hsp).held.avoided w hw)
  constructor
  · intro t' ht' sp hsp hactive hpoint hstatus
    obtain ⟨t, ht, hid, hact, hsame | ⟨ids, hw⟩⟩ := mem_tasks_view ht'
    · rcases mem_sprints_view hsp with hsp | hsp
      · exact hs.pointed t ht sp hsp (hact.trans hactive) (hsame.1 ▸ hpoint) hstatus
      · obtain ⟨ids, target, hw, hcovers⟩ := ((h.closes sp hsp).cancelled hstatus).2
        exact hsame.2 ids target hw (hcovers t ht (hsame.1 ▸ hpoint))
    · exact (harrives _ hw sp hsp hpoint).2 hstatus
  · intro a' ha' t' ht' sp hsp ho htask hactive hsprint hstatus
    obtain ⟨t, ht, hid, hact, -⟩ := mem_tasks_view ht'
    rcases mem_assignments_view ha' ho with ⟨ha, hnone⟩ | ⟨projectId, hw⟩
    · rcases mem_sprints_view hsp with hsp | hsp
      · exact hs.assigned a' ha t ht sp hsp ho (htask.trans hid.symm) (hact.trans hactive) hsprint
          hstatus
      · obtain ⟨rows, hw, hsweeps⟩ := ((h.closes sp hsp).cancelled hstatus).1
        exact hnone rows hw (hsweeps a' ha ho hsprint)
    · exact (harrives _ hw sp hsp (congrArg some hsprint)).2 hstatus
  · intro t' ht' sp hsp hpoint hstatus
    obtain ⟨t, ht, hid, -, hsame | ⟨ids, hw⟩⟩ := mem_tasks_view ht'
    · rcases mem_sprints_view hsp with hsp | hsp
      · obtain ⟨p, hp, hsprint, hmem⟩ := hs.captured t ht sp hsp (hsame.1 ▸ hpoint) hstatus
        exact ⟨p, mem_captured_view (Or.inl hp), hsprint, hid ▸ hmem⟩
      · obtain ⟨row, counters, ids, hw, hrow, hcovers⟩ := (h.closes sp hsp).completed hstatus
        refine ⟨(sp.id, ids), mem_captured_view (Or.inr ⟨row, counters, hw, hrow⟩), rfl, ?_⟩
        exact hid ▸ hcovers t ht (hsame.1 ▸ hpoint)
    · exact absurd hstatus (harrives _ hw sp hsp hpoint).1

/-! ### Commits of others -/

section Others

variable {p q : Point} (hl : Facts s p ks ws) (hapart : script.Apart ks ks')

include hapart in
theorem not_both_locked {m n : Mode} (hk : .sprint x m ∈ ks) (hk' : .sprint x n ∈ ks')
    (hconflict : m.conflicts n = true) : False := by
  have hfree : Lock.conflicts (.sprint x m) (.sprint x n) = false := hapart _ hk _ hk'
  simp [Lock.conflicts, hconflict] at hfree

include hl hapart

theorem Kept.other (h : Kept s ks' x) : Kept (script.view s ws) ks' x := by
  refine ⟨ended_eq_false_iff.mpr fun sp hsp hid => ?_, h.locked⟩
  rcases mem_sprints_view hsp with hsp | hsp
  · exact ended_eq_false_iff.mp h.opened sp hsp hid
  · exact (not_both_locked hapart (hid ▸ (hl.closes sp hsp).held.locked) h.locked rfl).elim

theorem Covers.other {taskIds : List Uuid} (hx : .sprint x .update ∈ ks') (h : Covers s x taskIds) :
    Covers (script.view s ws) x taskIds := by
  intro t' ht' hpoint
  obtain ⟨t, ht, hid, -, hsame | ⟨ids, hw⟩⟩ := mem_tasks_view ht'
  · exact hid ▸ h t ht (hsame.1 ▸ hpoint)
  · exact (not_both_locked hapart (hl.arrives _ hw x hpoint).locked hx rfl).elim

theorem Sweeps.other {rows : List (Uuid × Uuid)} (hx : .sprint x .update ∈ ks')
    (h : Sweeps s x rows) : Sweeps (script.view s ws) x rows := by
  intro a ha ho hsprint
  rcases mem_assignments_view ha ho with ⟨ha, -⟩ | ⟨projectId, hw⟩
  · exact h a ha ho hsprint
  · exact (not_both_locked hapart (hl.arrives _ hw x (congrArg some hsprint)).locked hx rfl).elim

theorem Counted.other (hx : .sprint x .update ∈ ks') (h : Counted s ws' x) :
    Counted (script.view s ws) ws' x := by
  obtain ⟨row, counters, taskIds, hw, hrow, hcovers⟩ := h
  exact ⟨row, counters, taskIds, hw, hrow, hcovers.other hl hapart hx⟩

theorem Unassigned.other (hx : .sprint x .update ∈ ks') (h : Unassigned s ws' x) :
    Unassigned (script.view s ws) ws' x := by
  obtain ⟨rows, hw, hsweeps⟩ := h
  exact ⟨rows, hw, hsweeps.other hl hapart hx⟩

theorem Emptied.other (hx : .sprint x .update ∈ ks') (h : Emptied s ws' x) :
    Emptied (script.view s ws) ws' x := by
  obtain ⟨taskIds, target, hw, hcovers⟩ := h
  exact ⟨taskIds, target, hw, hcovers.other hl hapart hx⟩

theorem Closable.other {row : SprintRow} (h : Closable s ks' ws' row) :
    Closable (script.view s ws) ks' ws' row where
  held := h.held
  completed hstatus := (h.completed hstatus).other hl hapart h.held.locked
  cancelled hstatus :=
    ⟨(h.cancelled hstatus).1.other hl hapart h.held.locked,
      (h.cancelled hstatus).2.other hl hapart h.held.locked⟩

theorem Knows.other (h : Knows s ks' ws' q) : Knows (script.view s ws) ks' ws' q := by
  cases q with
  | opened p => exact fun x hx => (h x hx).other hl hapart
  | called | completing | cancelling | destined | verified => exact h
  | counted c counters taskIds =>
    obtain ⟨hws, hheld, htarget, hcovers⟩ := h
    exact ⟨hws, hheld, htarget, hcovers.other hl hapart hheld.locked⟩
  | captured | releasing | unassigned =>
    obtain ⟨hheld, htarget, hcounted⟩ := h
    exact ⟨hheld, htarget, hcounted.other hl hapart hheld.locked⟩
  | reassigned c taskId todo =>
    obtain ⟨hheld, htarget, hcounted, hkept⟩ := h
    exact ⟨hheld, htarget, hcounted.other hl hapart hheld.locked,
      fun x hx => (hkept x hx).other hl hapart⟩
  | swept sprint =>
    obtain ⟨hheld, rows, hws, hsweeps⟩ := h
    exact ⟨hheld, rows, hws, hsweeps.other hl hapart hheld.locked⟩
  | emptied sprint =>
    obtain ⟨hheld, hunassigned, hemptied⟩ := h
    exact ⟨hheld, hunassigned.other hl hapart hheld.locked,
      hemptied.other hl hapart hheld.locked⟩
  | assigning | moving | checked | closed | pointed | sourced | announcing | finished =>
    trivial

theorem Facts.other (h : Facts s q ks' ws') : Facts (script.view s ws) q ks' ws' where
  arrives w hw x hx := (h.arrives w hw x hx).other hl hapart
  closes row hrow := (h.closes row hrow).other hl hapart
  unfinished := h.unfinished
  knows := h.knows.other hl hapart

end Others

/-! ### Statements -/

section Statements

variable {p p' : Point}

theorem orFail_eq_next {α : Type} {r : Except RepoError α} {f : α → Result}
    (h : orFail r f = .next p' ks' ws') : ∃ a, r = .ok a ∧ f a = .next p' ks' ws' := by
  cases r with
  | error e => cases h
  | ok a => exact ⟨a, rfl, h⟩

theorem Kept.more (h : Kept s ks x) (ks' : List Lock) : Kept s (ks ++ ks') x :=
  ⟨h.opened, List.mem_append_left _ h.locked⟩

theorem Held.more (h : Held ks ws x) (ks' : List Lock) (hw : ∀ w ∈ ws', w.target ≠ some x) :
    Held (ks ++ ks') (ws ++ ws') x := by
  refine ⟨List.mem_append_left _ h.locked, fun w hmem => ?_⟩
  rcases List.mem_append.mp hmem with hmem | hmem
  · exact h.avoided w hmem
  · exact hw w hmem

theorem Counted.more (h : Counted s ws x) (ws' : List Write) : Counted s (ws ++ ws') x := by
  obtain ⟨row, counters, taskIds, hw, hrow, hcovers⟩ := h
  exact ⟨row, counters, taskIds, List.mem_append_left _ hw, hrow, hcovers⟩

theorem Unassigned.more (h : Unassigned s ws x) (ws' : List Write) : Unassigned s (ws ++ ws') x := by
  obtain ⟨rows, hw, hsweeps⟩ := h
  exact ⟨rows, List.mem_append_left _ hw, hsweeps⟩

theorem Emptied.more (h : Emptied s ws x) (ws' : List Write) : Emptied s (ws ++ ws') x := by
  obtain ⟨taskIds, target, hw, hcovers⟩ := h
  exact ⟨taskIds, target, List.mem_append_left _ hw, hcovers⟩

theorem covers_pointingTo (s : Store) (x : Uuid) : Covers s x (pointingTo s.db x) := by
  intro t ht hpoint
  exact List.mem_map_of_mem (List.mem_filter.mpr ⟨ht, decide_eq_true hpoint⟩)

theorem sweeps_selectRows (s : Store) (x : Uuid) :
    Sweeps s x (selectRows s.db fun a => a.sprintId = x) := by
  intro a ha ho hsprint
  refine List.mem_map.mpr ⟨a, List.mem_filter.mpr ⟨ha, ?_⟩, rfl⟩
  simp [hsprint, ho]

theorem Facts.step (h : Facts s p ks ws) (hp : p ≠ .finished)
    (harrives : ∀ w ∈ ws', ∀ x, w.target = some x → Kept s (ks ++ ks') x)
    (hopen : ∀ row, .sprint row ∉ ws') (hknows : Knows s (ks ++ ks') (ws ++ ws') p') :
    Facts s p' (ks ++ ks') (ws ++ ws') := by
  have hunfinished : ∀ row, .sprint row ∉ ws ++ ws' := by
    intro row hrow
    rcases List.mem_append.mp hrow with hrow | hrow
    · exact h.unfinished hp row hrow
    · exact hopen row hrow
  refine ⟨fun w hw y hy => ?_, fun row hrow => absurd hrow (hunfinished row), fun _ => hunfinished,
    hknows⟩
  rcases List.mem_append.mp hw with hw | hw
  · exact (h.arrives w hw y hy).more ks'
  · exact harrives w hw y hy

theorem Facts.read (h : Facts s p ks ws) (hp : p ≠ .finished)
    (hknows : Knows s (ks ++ ks') ws p') : Facts s p' (ks ++ ks') (ws ++ []) :=
  h.step hp (fun _ hw => by cases hw) (fun _ hrow => by cases hrow)
    ((List.append_nil ws).symm ▸ hknows)

theorem Facts.write (h : Facts s p ks ws) (hp : p ≠ .finished) (htarget : w.target = none)
    (hopen : ∀ row, w ≠ .sprint row) (hknows : Knows s (ks ++ ks') (ws ++ [w]) p') :
    Facts s p' (ks ++ ks') (ws ++ [w]) := by
  refine h.step hp (fun v hv x hx => ?_) (fun row hrow => ?_) hknows
  · rw [List.mem_singleton.mp hv, htarget] at hx
    cases hx
  · exact hopen row (List.mem_singleton.mp hrow).symm

theorem Facts.close {row : SprintRow} (h : Facts s p ks ws) (hp : p ≠ .finished)
    (hrow : Closable s ks ws row) (hnext : closeSprint row = .next p' ks' ws') :
    Facts s p' (ks ++ ks') (ws ++ ws') := by
  cases hnext
  have hheld : Held (ks ++ []) (ws ++ [.sprint row]) row.id := by
    refine hrow.held.more [] fun w hw => ?_
    rw [List.mem_singleton.mp hw]
    exact fun he => by cases he
  refine ⟨fun w hw x hx => ?_, fun row' hmem => ?_, fun hne => absurd rfl hne, trivial⟩
  · rcases List.mem_append.mp hw with hw | hw
    · exact (h.arrives w hw x hx).more []
    · rw [List.mem_singleton.mp hw] at hx
      cases hx
  · rcases List.mem_append.mp hmem with hmem | hmem
    · exact absurd hmem (h.unfinished hp row')
    · cases List.mem_singleton.mp hmem
      exact ⟨hheld, fun hs => (hrow.completed hs).more _,
        fun hs => ⟨(hrow.cancelled hs).1.more _, (hrow.cancelled hs).2.more _⟩⟩

theorem Facts.insert {db : Db} {q : Point} {taskId projectId : Uuid} {target : Option Uuid}
    (h : Facts s p ks ws) (hp : p ≠ .finished) (hopen : ∀ x, target = some x → s.ended x = false)
    (hknows : ∀ ks' ws', (∀ w ∈ ws', ∀ x, w.target = some x → target = some x) →
      (∀ x, target = some x → Kept s (ks ++ ks') x) → Knows s (ks ++ ks') (ws ++ ws') q)
    (hnext : insertRow db taskId projectId target q = .next p' ks' ws') :
    Facts s p' (ks ++ ks') (ws ++ ws') := by
  unfold insertRow at hnext
  split at hnext
  · cases hnext
    exact h.step hp (fun _ hw => by cases hw) (fun _ hrow => by cases hrow)
      (hknows [] [] (fun _ hw => by cases hw) fun _ hx => by cases hx)
  · next sprintId =>
    obtain ⟨_, -, hnext⟩ := orFail_eq_next hnext
    cases hnext
    have hkept : ∀ x, some sprintId = some x → Kept s (ks ++ [.assignment taskId,
        .task taskId .keyShare, .sprint sprintId .keyShare]) x := by
      intro x hx
      refine ⟨hopen x hx, List.mem_append_right _ ?_⟩
      rw [Option.some.inj hx]
      simp
    have htargets : ∀ w ∈ [Write.assign taskId projectId sprintId], ∀ x, w.target = some x →
        some sprintId = some x := by
      intro w hw x hx
      rw [List.mem_singleton.mp hw] at hx
      exact hx
    refine h.step hp (fun w hw x hx => hkept x (htargets w hw x hx)) (fun row hrow => ?_)
      (hknows _ _ htargets hkept)
    cases List.mem_singleton.mp hrow

theorem Facts.point {q : Point} {taskIds : List Uuid} {target : Option Uuid} (h : Facts s p ks ws)
    (hp : p ≠ .finished) (hkept : ∀ x, target = some x → Kept s ks x)
    (hknows : ∀ ks', Knows s (ks ++ ks') (ws ++ [.point taskIds target]) q)
    (hnext : pointRows taskIds target q = .next p' ks' ws') : Facts s p' (ks ++ ks') (ws ++ ws') := by
  cases hnext
  refine h.step hp (fun w hw x hx => ?_) (fun row hrow => ?_) (hknows _)
  · rw [List.mem_singleton.mp hw] at hx
    exact (hkept x hx).more _
  · cases List.mem_singleton.mp hrow

theorem Facts.select {call : Call} {db : Db} (h : Facts s (.called call) ks ws)
    (hnext : select db call = .next p' ks' ws') : Facts s p' (ks ++ ks') (ws ++ ws') := by
  have hws : ws = [] := h.knows
  subst hws
  cases call with
  | assignTaskToSprint taskId sprintId =>
    unfold Statements.select at hnext
    dsimp only at hnext
    split at hnext
    · cases hnext
    · cases hnext
      exact h.read (fun he => by cases he) trivial
  | moveTaskBetweenSprints taskId target expected =>
    unfold Statements.select at hnext
    dsimp only at hnext
    split at hnext
    · cases hnext
    · cases hnext
      exact h.read (fun he => by cases he) trivial
  | completeSprint id projectId dest =>
    obtain ⟨sprint, -, hnext⟩ := orFail_eq_next hnext
    cases hnext
    exact h.read (fun he => by cases he)
      ⟨rfl, List.mem_append_right _ List.mem_cons_self, fun _ hw => by cases hw⟩
  | cancelSprint id projectId =>
    obtain ⟨sprint, -, hnext⟩ := orFail_eq_next hnext
    cases hnext
    exact h.read (fun he => by cases he)
      ⟨rfl, List.mem_append_right _ List.mem_cons_self, fun _ hw => by cases hw⟩

theorem Facts.checkTarget {db : Db} {task : TaskRow} {target : Option Uuid} {moved : Bool}
    {missing : RepoError} (h : Facts s p ks ws) (hp : p ≠ .finished)
    (hnext : checkTarget db task target moved missing = .next p' ks' ws') :
    Facts s p' (ks ++ ks') (ws ++ ws') := by
  obtain ⟨_, -, hnext⟩ := orFail_eq_next hnext
  cases hnext
  exact h.read hp trivial

theorem requireDestination_ne {db : Db} {id projectId : Uuid} {dest : IncompleteDestination}
    {target : Option Uuid} (h : requireDestination db id projectId dest = .ok target) :
    target ≠ some id := by
  unfold requireDestination at h
  cases dest with
  | backlog =>
    cases h
    exact fun he => by cases he
  | sprint x =>
    dsimp only at h
    split at h
    · cases h
    · next hne =>
      split at h
      · cases h
      · split at h
        · cases h
        · cases h
          exact fun he => hne (Option.some.inj he)

/-- **One statement** keeps what its transaction knows. -/
theorem Facts.next (h : Facts s p ks ws) (hg : StillOpen s p)
    (hnext : statement p (script.view s ws) = .next p' ks' ws') :
    Facts s p' (ks ++ ks') (ws ++ ws') := by
  have hopen : ∀ x, p.target = some x → s.ended x = false := by
    intro x hx
    unfold StillOpen at hg
    rw [hx, Option.all_some, Bool.not_eq_true'] at hg
    exact hg
  have hknows := h.knows
  cases p with
  | called call => exact h.select hnext
  | assigning task sprintId =>
    simp only [statement] at hnext
    split at hnext
    · cases hnext
    · exact h.checkTarget (fun he => by cases he) hnext
  | moving task target expected =>
    simp only [statement] at hnext
    split at hnext
    · cases hnext
    · split at hnext
      · cases hnext
      · exact h.checkTarget (fun he => by cases he) hnext
  | checked p =>
    cases hnext
    exact h.write (fun he => by cases he) rfl (fun _ he => by cases he) trivial
  | closed p =>
    exact h.insert (q := .opened p) (fun he => by cases he) hopen (fun _ _ _ hkept => hkept) hnext
  | opened p =>
    exact h.point (q := .pointed p) (fun he => by cases he) hknows (fun _ => trivial) hnext
  | pointed p =>
    simp only [statement] at hnext
    split at hnext
    · cases hnext
      exact h.read (fun he => by cases he) trivial
    · cases hnext
      exact h.read (fun he => by cases he) trivial
  | sourced p source =>
    cases hnext
    exact h.read (fun he => by cases he) trivial
  | announcing task events =>
    cases events with
    | nil => cases hnext
    | cons event events =>
      cases hnext
      exact h.write (fun he => by cases he) rfl (fun _ he => by cases he) trivial
  | completing sprint dest =>
    obtain ⟨rfl, hheld⟩ := hknows
    simp only [statement] at hnext
    split at hnext
    · cases hnext
    · obtain ⟨target, hdest, hnext⟩ := orFail_eq_next hnext
      cases hnext
      exact h.read (fun he => by cases he)
        ⟨rfl, hheld.more _ fun _ hw => (by cases hw), requireDestination_ne hdest⟩
  | destined c =>
    obtain ⟨rfl, hheld, htarget⟩ := hknows
    obtain ⟨_, -, hnext⟩ := orFail_eq_next hnext
    cases hnext
    exact h.read (fun he => by cases he) ⟨rfl, hheld.more _ fun _ hw => (by cases hw), htarget⟩
  | verified c =>
    obtain ⟨rfl, hheld, htarget⟩ := hknows
    cases hnext
    exact h.read (fun he => by cases he)
      ⟨rfl, hheld.more _ fun _ hw => (by cases hw), htarget, covers_pointingTo s _⟩
  | counted c counters taskIds =>
    obtain ⟨rfl, hheld, htarget, hcovers⟩ := hknows
    obtain ⟨_, -, hnext⟩ := orFail_eq_next hnext
    cases hnext
    refine h.write (fun he => by cases he) rfl (fun _ he => by cases he)
      ⟨hheld.more _ fun w hw => ?_, htarget, _, _, _, List.mem_singleton_self _, rfl, hcovers⟩
    rw [List.mem_singleton.mp hw]
    exact fun he => by cases he
  | captured c =>
    obtain ⟨hheld, htarget, hcounted⟩ := hknows
    cases hnext
    exact h.read (fun he => by cases he)
      ⟨⟨List.mem_append_left _ hheld.locked, hheld.avoided⟩, htarget, hcounted⟩
  | releasing c todo =>
    obtain ⟨hheld, htarget, hcounted⟩ := hknows
    cases todo with
    | nil =>
      simp only [statement] at hnext
      refine h.close (fun he => by cases he) ?_ hnext
      exact ⟨hheld, fun _ => hcounted, fun hs => by cases hs⟩
    | cons taskId todo =>
      cases hnext
      refine h.write (fun he => by cases he) rfl (fun _ he => by cases he)
        ⟨hheld.more _ fun w hw => ?_, htarget, hcounted.more _⟩
      rw [List.mem_singleton.mp hw]
      exact fun he => by cases he
  | unassigned c taskId todo =>
    obtain ⟨hheld, htarget, hcounted⟩ := hknows
    refine h.insert (fun he => by cases he) hopen (fun ks' ws' htargets hkept => ?_) hnext
    exact ⟨hheld.more _ fun w hw he => htarget (htargets w hw _ he), htarget, hcounted.more _, hkept⟩
  | reassigned c taskId todo =>
    obtain ⟨hheld, htarget, hcounted, hkept⟩ := hknows
    refine h.point (fun he => by cases he) hkept (fun ks' => ?_) hnext
    refine ⟨hheld.more _ fun w hw => ?_, htarget, hcounted.more _⟩
    rw [List.mem_singleton.mp hw]
    exact htarget
  | cancelling sprint =>
    obtain ⟨rfl, hheld⟩ := hknows
    simp only [statement] at hnext
    split at hnext
    · cases hnext
    · cases hnext
      refine h.write (fun he => by cases he) rfl (fun _ he => by cases he)
        ⟨hheld.more _ fun w hw => ?_, _, rfl, sweeps_selectRows s sprint.id⟩
      rw [List.mem_singleton.mp hw]
      exact fun he => by cases he
  | swept sprint =>
    obtain ⟨hheld, rows, rfl, hsweeps⟩ := hknows
    refine h.point (fun he => by cases he) (fun _ hx => by cases hx) (fun ks' => ?_) hnext
    refine ⟨hheld.more _ fun w hw => ?_, ⟨rows, List.mem_cons_self, hsweeps⟩, _, none,
      List.mem_append_right _ (List.mem_singleton_self _), covers_pointingTo s sprint.id⟩
    rw [List.mem_singleton.mp hw]
    exact fun he => by cases he
  | emptied sprint =>
    obtain ⟨hheld, hunassigned, hemptied⟩ := hknows
    simp only [statement] at hnext
    refine h.close (fun he => by cases he) ?_ hnext
    exact ⟨hheld, fun hs => (by cases hs), fun _ => ⟨hunassigned, hemptied⟩⟩
  | finished => cases hnext

end Statements

theorem laws : Laws script StillOpen Settled Facts where
  first _ _ := ⟨fun _ hw => (by cases hw), fun _ hw => (by cases hw), fun _ _ hw => (by cases hw),
    rfl⟩
  next _ _ _ _ _ _ _ h hg hnext := h.next hg hnext
  commit _ _ _ _ hs h := h.settled hs
  other _ _ _ _ _ _ _ hl hm hapart := Facts.other hl hapart hm

/-- **Transactions that close sprints** and such that assign tasks, in any order of their statements:
sprints stay settled when an assignment is inserted only while its sprint is open. -/
theorem closed_sprints_settled (s : Store) (hs : Settled s) (events : List (Event Call Action))
    (hg : Runs.Guarded (Sessions.step script.program) (World.Meets (atStatement StillOpen))
      (World.closed s) events) :
    Settled (run script.program (World.closed s) events).store := by
  have hclosed : (World.closed s : World Store (Local Point Lock Write RepoError)).Holds
      script.program Settled (Local.Knows Facts) :=
    ⟨hs, fun _ _ hl => (by cases hl), fun _ _ _ _ _ hl => by cases hl⟩
  exact (run_rules (rules_of_laws laws) events hclosed hg).store

/-! A task is assigned to a sprint that is cancelled, or completed, once its status has been read. -/

/-- Sprint `100` and task `101`. -/
def plannedStore : Store :=
  ⟨after utcRuntime smallSetup [.createSprint { projectId := 7, name := "s" },
    .createTask { projectId := 7, title := "a" }], []⟩

def activeStore : Store :=
  ⟨after utcRuntime smallSetup [.createSprint { projectId := 7, name := "s" },
    .createTask { projectId := 7, title := "a" }, .startSprint 100 7], []⟩

/-- Some statements of one transaction. -/
def steps (i n : ℕ) : List (Event Call Action) := List.replicate n (.act i .statement)

/-- The assignment stops after it has read the status, until the sprint is closed. -/
def crossing (call : Call) : List (Event Call Action) :=
  [.enter (.assignTaskToSprint 101 100), .enter call] ++ steps 0 2 ++ steps 1 10 ++ steps 0 8

def assignedBefore (call : Call) : List (Event Call Action) :=
  [.enter (.assignTaskToSprint 101 100), .enter call] ++ steps 0 9 ++ steps 1 10

theorem crossing_transactions :
    Settled plannedStore ∧
    ¬ Settled (run script.program (World.closed plannedStore)
      (crossing (.cancelSprint 100 7))).store ∧
    Settled activeStore ∧
    ¬ Settled (run script.program (World.closed activeStore)
      (crossing (.completeSprint 100 7 .backlog))).store := by
  decide

theorem closed_sprints_settled_sample :
    ((run script.program (World.closed plannedStore)
      (assignedBefore (.cancelSprint 100 7))).store.db.sprints.rows.map SprintRow.status) =
        [.cancelled] ∧
    Settled (run script.program (World.closed plannedStore)
      (assignedBefore (.cancelSprint 100 7))).store :=
  ⟨by decide,
    closed_sprints_settled plannedStore (by decide) (assignedBefore (.cancelSprint 100 7))
      (by decide)⟩

end CalmBoard.Sprints.Statements
