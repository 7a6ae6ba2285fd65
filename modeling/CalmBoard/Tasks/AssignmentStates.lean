import CalmBoard.Tasks.Assignments
import CalmBoard.Lib.Fallible

/-!
# CalmBoard.Tasks.AssignmentStates — the states that the resolvers of an assignment lead to

The ids of an input are texts that may be blank; those of a stored task are not.

* `resolveTaskAssignmentCreation`, `resolveTaskAssignmentUpdate`: the resolvers, for all inputs.
* `resolveCreation_uuid`, `resolveUpdate_uuid`: for uuids they are those of `Tasks.Assignments`.
* `Stored`: what a task has stored.
* `Exact`: the new state is canonical, and the differences are those from the old one.
* `resolves_exactly`: all answers are of this kind.
-/

namespace CalmBoard.Assignments

open Fallible

/-! ### The resolvers -/

structure TaskAssignmentState (ι : Type) where
  assigneeId : Option ι
  assigneeIds : List ι

/-- `none` is `undefined`, `some none` is `null`. -/
structure TaskAssignmentMutationInput (ι : Type) where
  assigneeId : Option (Option ι) := none
  assigneeIds : Option (Option (List ι)) := none

structure ResolvedTaskAssignmentUpdate (ι : Type) where
  assigneeId : Option ι
  assigneeIds : List ι
  changed : Bool
  addedAssigneeIds : List ι
  removedAssigneeIds : List ι
  primaryChanged : Bool
  hasAssigneeMutation : Bool

variable {ι : Type} (blank : ι → Bool)

section Resolvers

variable [DecidableEq ι]

def assertUnique (ids : List ι) : Except RepoError Unit :=
  if ¬ ids.Nodup then .error Tasks.uniqueAssigneesError else .ok ()

def assertCanonicalTaskAssignment (assigneeId : Option ι) (assigneeIds : List ι) :
    Except RepoError Unit := do
  assertUnique assigneeIds
  match assigneeId, assigneeIds with
  | none, [] => .ok ()
  | none, _ :: _ => .error Tasks.noLeadError
  | some _, [] => .error (.conflict "Task with a Lead must have a non-empty assigneeIds list")
  | some lead, first :: rest =>
    if first ≠ lead then .error (.conflict "Task Lead must be the first element in assigneeIds")
    else if lead ∉ first :: rest then
      .error (.conflict "Task Lead must be included in assigneeIds")
    else .ok ()

/-- The ids that are there, `Boolean(id)`. -/
def present (ids : List ι) : List ι := ids.filter fun id => !blank id

def others (ids : List ι) (lead : ι) : List ι := ids.filter fun id => !blank id && id ≠ lead

def creationTarget (input : TaskAssignmentMutationInput ι) :
    Except RepoError (TaskAssignmentState ι) :=
  match input.assigneeId, input.assigneeIds with
  | some (some lead), ids => .ok ⟨some lead, lead :: others blank (ids.join.getD []) lead⟩
  | some none, some (some (_ :: _)) => .error Tasks.noLeadError
  | some none, _ => .ok ⟨none, []⟩
  | none, some (some ids) => .ok ⟨(present blank ids).head?, present blank ids⟩
  | none, _ => .ok ⟨none, []⟩

def resolveTaskAssignmentCreation (input : TaskAssignmentMutationInput ι) :
    Except RepoError (TaskAssignmentState ι) := do
  assertUnique (input.assigneeIds.join.getD [])
  let target ← creationTarget blank input
  assertCanonicalTaskAssignment target.assigneeId target.assigneeIds
  return target

/-- The assignees before an update; a task may have a lead and no list. -/
def beforeAssigneeIds (current : TaskAssignmentState ι) : List ι :=
  if current.assigneeIds ≠ [] then present blank current.assigneeIds
  else present blank current.assigneeId.toList

def updateTarget (beforeId : Option ι) (beforeIds : List ι) (input : TaskAssignmentMutationInput ι) :
    Except RepoError (TaskAssignmentState ι) :=
  match input.assigneeId, input.assigneeIds with
  | some none, some (some (_ :: _)) => .error Tasks.noLeadError
  | some (some lead), some ids => .ok ⟨some lead, lead :: others blank (ids.getD []) lead⟩
  | some none, some _ => .ok ⟨none, []⟩
  | some (some lead), none =>
    .ok ⟨some lead, lead :: beforeIds.filter fun id => some id ≠ beforeId ∧ id ≠ lead⟩
  | some none, none =>
    let remaining := beforeIds.filter fun id => some id ≠ beforeId
    .ok ⟨remaining.head?, remaining⟩
  | none, some ids =>
    let validIds := present blank (ids.getD [])
    match beforeId with
    | some lead =>
      if !blank lead && lead ∈ validIds then
        .ok ⟨some lead, lead :: validIds.filter fun id => id ≠ lead⟩
      else .ok ⟨validIds.head?, validIds⟩
    | none => .ok ⟨validIds.head?, validIds⟩
  | none, none => .ok ⟨beforeId, beforeIds⟩

def resolveTaskAssignmentUpdate (current : TaskAssignmentState ι)
    (input : TaskAssignmentMutationInput ι) : Except RepoError (ResolvedTaskAssignmentUpdate ι) := do
  let hasAssigneeMutation := input.assigneeId.isSome || input.assigneeIds.isSome
  assertUnique (input.assigneeIds.join.getD [])
  let beforeIds := beforeAssigneeIds blank current
  let beforeId := current.assigneeId.or beforeIds.head?
  let target ← updateTarget blank beforeId beforeIds input
  assertCanonicalTaskAssignment target.assigneeId target.assigneeIds
  let addedAssigneeIds := target.assigneeIds.filter fun id => id ∉ beforeIds
  let removedAssigneeIds := beforeIds.filter fun id => id ∉ target.assigneeIds
  let primaryChanged := decide (beforeId ≠ target.assigneeId)
  return {
    assigneeId := target.assigneeId
    assigneeIds := target.assigneeIds
    changed := hasAssigneeMutation &&
      (primaryChanged || !addedAssigneeIds.isEmpty || !removedAssigneeIds.isEmpty)
    addedAssigneeIds, removedAssigneeIds, primaryChanged, hasAssigneeMutation }

end Resolvers

/-! ### The ids of the tables

None of them is blank: the resolvers are then those of `Tasks.Assignments`. -/

def mutationInput (input : Tasks.TaskAssignmentInput) : TaskAssignmentMutationInput Uuid :=
  ⟨input.assigneeId, input.assigneeIds.map some⟩

theorem assertCanonical_uuid (assigneeId : Option Uuid) (assigneeIds : List Uuid) :
    assertCanonicalTaskAssignment assigneeId assigneeIds =
      Tasks.assertCanonicalTaskAssignment assigneeId assigneeIds := by
  unfold assertCanonicalTaskAssignment Tasks.assertCanonicalTaskAssignment assertUnique
  split
  · rfl
  · cases assigneeId with
    | none => cases assigneeIds <;> rfl
    | some lead =>
      cases assigneeIds with
      | nil => rfl
      | cons first rest =>
        by_cases h : first = lead
        · simp [h]
          rfl
        · simp [h]
          rfl

theorem present_uuid (ids : List Uuid) : present (fun _ => false) ids = ids :=
  List.filter_eq_self.mpr fun _ _ => rfl

theorem others_uuid (ids : List Uuid) (lead : Uuid) :
    others (fun _ => false) ids lead = ids.filter (· ≠ lead) := by
  simp [others]

theorem resolveCreation_uuid (input : Tasks.TaskAssignmentInput) :
    resolveTaskAssignmentCreation (fun _ => false) (mutationInput input) =
      (Tasks.resolveTaskAssignmentCreation input).map fun s => ⟨s.assigneeId, s.assigneeIds⟩ := by
  obtain ⟨assigneeId, assigneeIds⟩ := input
  unfold resolveTaskAssignmentCreation Tasks.resolveTaskAssignmentCreation creationTarget mutationInput
  simp only [assertCanonical_uuid, others_uuid, present_uuid]
  rcases assigneeIds with _ | ids
  · rcases assigneeId with _ | _ | lead
    · rfl
    · rfl
    · simp [assertUnique, bind, Except.bind, pure, Except.pure]
      generalize Tasks.assertCanonicalTaskAssignment (some lead) _ = check
      cases check <;> rfl
  · by_cases hnodup : ids.Nodup
    · rcases assigneeId with _ | _ | lead
      · rcases ids with _ | ⟨first, rest⟩
        · rfl
        · simp [assertUnique, hnodup, bind, Except.bind, pure, Except.pure]
          generalize Tasks.assertCanonicalTaskAssignment (some first) _ = check
          cases check <;> rfl
      · rcases ids with _ | ⟨first, rest⟩
        · rfl
        · simp [assertUnique, hnodup, bind, Except.bind]
          rfl
      · simp [assertUnique, hnodup, bind, Except.bind, pure, Except.pure]
        generalize Tasks.assertCanonicalTaskAssignment (some lead) _ = check
        cases check <;> rfl
    · simp [assertUnique, hnodup, bind, Except.bind]
      rfl

theorem updateTarget_uuid (beforeId : Option Uuid) (beforeIds : List Uuid)
    (input : Tasks.TaskAssignmentInput) :
    updateTarget (fun _ => false) beforeId beforeIds (mutationInput input) =
      (Tasks.targetAssignment beforeId beforeIds input).map fun s => ⟨s.assigneeId, s.assigneeIds⟩ := by
  obtain ⟨assigneeId, assigneeIds⟩ := input
  unfold updateTarget Tasks.targetAssignment mutationInput
  simp only [others_uuid, present_uuid]
  rcases assigneeIds with _ | ids
  · rcases assigneeId with _ | _ | lead <;> rfl
  · rcases assigneeId with _ | _ | lead
    · cases beforeId with
      | none => rfl
      | some lead =>
        by_cases h : lead ∈ ids
        · simp [h]
          rfl
        · simp [h]
          rfl
    · cases ids <;> rfl
    · rfl

theorem resolveUpdate_uuid (currentId : Option Uuid) (currentIds : List Uuid)
    (input : Tasks.TaskAssignmentInput) :
    resolveTaskAssignmentUpdate (fun _ => false) ⟨currentId, currentIds⟩ (mutationInput input) =
      (Tasks.resolveTaskAssignmentUpdate currentId currentIds input).map fun r =>
        { assigneeId := r.assigneeId, assigneeIds := r.assigneeIds, changed := r.changed
          addedAssigneeIds := r.addedAssigneeIds, removedAssigneeIds := r.removedAssigneeIds
          primaryChanged := r.primaryChanged, hasAssigneeMutation := r.hasAssigneeMutation } := by
  have hbefore : beforeAssigneeIds (fun _ => false) ⟨currentId, currentIds⟩ =
      if currentIds ≠ [] then currentIds else currentId.toList := by
    unfold beforeAssigneeIds
    simp only [present_uuid]
  unfold resolveTaskAssignmentUpdate Tasks.resolveTaskAssignmentUpdate
  simp only [hbefore, updateTarget_uuid, assertCanonical_uuid]
  generalize Tasks.targetAssignment _ _ input = target
  obtain ⟨assigneeId, assigneeIds⟩ := input
  rcases assigneeIds with _ | ids
  · simp [mutationInput, assertUnique, bind, Except.bind, pure, Except.pure]
    rcases target with e | target
    · rfl
    · simp only [Except.map]
      generalize Tasks.assertCanonicalTaskAssignment _ _ = check
      cases check <;> rfl
  · by_cases hnodup : ids.Nodup
    · simp [mutationInput, assertUnique, hnodup, bind, Except.bind, pure, Except.pure]
      rcases target with e | target
      · rfl
      · simp only [Except.map]
        generalize Tasks.assertCanonicalTaskAssignment _ _ = check
        cases check <;> rfl
    · simp [mutationInput, assertUnique, hnodup, bind, Except.bind, pure, Except.pure]
      rfl

/-! ### States -/

/-- Nobody twice, and the lead first; without a lead there is nobody. -/
structure TaskAssignmentState.Canonical (s : TaskAssignmentState ι) : Prop where
  nodup : s.assigneeIds.Nodup
  lead : s.assigneeId = s.assigneeIds.head?

variable {blank}

/-- What a task has stored: named people (their ids are uuids), each of them once. -/
structure Stored (blank : ι → Bool) where
  ids : List ι
  nodup : ids.Nodup
  named : ∀ id ∈ ids, blank id = false

/-- The first one is the lead. -/
def Stored.state (current : Stored blank) : TaskAssignmentState ι := ⟨current.ids.head?, current.ids⟩

def TaskAssignmentMutationInput.Given (input : TaskAssignmentMutationInput ι) : Prop :=
  input.assigneeId ≠ none ∨ input.assigneeIds ≠ none

def ResolvedTaskAssignmentUpdate.state (r : ResolvedTaskAssignmentUpdate ι) :
    TaskAssignmentState ι := ⟨r.assigneeId, r.assigneeIds⟩

/-- `r` is a canonical state with the differences that lead from `before` to it. -/
structure Exact (before : TaskAssignmentState ι) (input : TaskAssignmentMutationInput ι)
    (r : ResolvedTaskAssignmentUpdate ι) : Prop where
  canonical : r.state.Canonical
  disjoint : r.addedAssigneeIds.Disjoint r.removedAssigneeIds
  final : ∀ id, id ∈ r.assigneeIds ↔
    (id ∈ before.assigneeIds ∧ id ∉ r.removedAssigneeIds) ∨ id ∈ r.addedAssigneeIds
  changed : r.changed = true ↔ input.Given ∧
    (r.assigneeId ≠ before.assigneeId ∨ ¬ ∀ id, id ∈ r.assigneeIds ↔ id ∈ before.assigneeIds)

theorem Stored.canonical (current : Stored blank) : current.state.Canonical :=
  ⟨current.nodup, rfl⟩

theorem present_of_named {ids : List ι} (h : ∀ id ∈ ids, blank id = false) :
    present blank ids = ids := by
  unfold present
  rw [List.filter_eq_self]
  intro id hid
  rw [h id hid]
  rfl

theorem Stored.beforeAssigneeIds (current : Stored blank) :
    Assignments.beforeAssigneeIds blank current.state = current.ids := by
  unfold Assignments.beforeAssigneeIds
  split
  · exact present_of_named current.named
  · next h =>
    have hnil : current.ids = [] := not_not.mp h
    simp [Stored.state, hnil, present]

theorem Stored.lead_or (current : Stored blank) :
    current.state.assigneeId.or current.ids.head? = current.state.assigneeId := by
  cases hids : current.ids <;> simp [Stored.state, hids]

/-! ### The answers -/

variable {input : TaskAssignmentMutationInput ι}

theorem isEmpty_filter_iff {xs : List ι} {p : ι → Bool} :
    (xs.filter p).isEmpty = true ↔ ∀ id ∈ xs, p id = false := by
  rw [List.isEmpty_iff, List.filter_eq_nil_iff]
  exact forall₂_congr fun _ _ => Bool.not_eq_true _ |>.to_iff

section Answers

variable [DecidableEq ι]

theorem assertUnique_iff {ids : List ι} : assertUnique ids = .ok () ↔ ids.Nodup := by
  unfold assertUnique
  split
  · next h => exact ⟨fun h' => (by cases h'), fun h' => absurd h' h⟩
  · next h => exact ⟨fun _ => not_not.mp h, fun _ => rfl⟩

theorem assertCanonical_iff {s : TaskAssignmentState ι} :
    assertCanonicalTaskAssignment s.assigneeId s.assigneeIds = .ok () ↔ s.Canonical := by
  obtain ⟨assigneeId, assigneeIds⟩ := s
  unfold assertCanonicalTaskAssignment
  rw [then_ok, assertUnique_iff]
  constructor
  · rintro ⟨hnodup, h⟩
    refine ⟨hnodup, ?_⟩
    dsimp only at h ⊢
    split at h
    · rfl
    · cases h
    · cases h
    · next lead first rest =>
      split at h
      · cases h
      · next hfirst =>
        rw [not_not] at hfirst
        rw [hfirst]
        rfl
  · rintro ⟨hnodup, hlead⟩
    refine ⟨hnodup, ?_⟩
    dsimp only at hlead ⊢
    subst hlead
    cases assigneeIds with
    | nil => rfl
    | cons first rest =>
      show (if first ≠ first then _ else _) = _
      rw [if_neg (not_not.mpr rfl), if_neg (not_not.mpr List.mem_cons_self)]

theorem differs_iff {before final : List ι} :
    ((!(final.filter fun id => id ∉ before).isEmpty) ||
      !(before.filter fun id => id ∉ final).isEmpty) = true ↔
      ¬ ∀ id, id ∈ final ↔ id ∈ before := by
  rw [← not_iff_not, not_not, Bool.not_eq_true, Bool.or_eq_false_iff, Bool.not_eq_false',
    Bool.not_eq_false', isEmpty_filter_iff, isEmpty_filter_iff]
  simp only [decide_eq_false_iff_not, not_not]
  exact ⟨fun h id => ⟨h.1 id, h.2 id⟩, fun h => ⟨fun id => (h id).mp, fun id => (h id).mpr⟩⟩

theorem resolveTaskAssignmentUpdate_exact {current : Stored blank}
    {r : ResolvedTaskAssignmentUpdate ι}
    (h : resolveTaskAssignmentUpdate blank current.state input = .ok r) :
    Exact current.state input r := by
  simp only [resolveTaskAssignmentUpdate, bind_ok, pure_ok, current.beforeAssigneeIds] at h
  obtain ⟨-, -, target, -, ⟨⟩, hcanonical, rfl⟩ := h
  refine ⟨assertCanonical_iff.mp hcanonical, ?_, fun id => ?_, ?_⟩
  · intro id hadded hremoved
    simp only [List.mem_filter, decide_eq_true_eq] at hadded hremoved
    exact hadded.2 hremoved.1
  · simp only [List.mem_filter, decide_eq_true_eq, Stored.state]
    tauto
  · simp only [current.lead_or]
    rw [Bool.and_eq_true, Bool.or_assoc, Bool.or_eq_true, Bool.or_eq_true, decide_eq_true_eq,
      differs_iff, Option.isSome_iff_ne_none, Option.isSome_iff_ne_none,
      ne_comm (a := target.assigneeId)]
    rfl

theorem resolveTaskAssignmentUpdate_idle (current : Stored blank) (h : ¬ input.Given) :
    ∃ r, resolveTaskAssignmentUpdate blank current.state input = .ok r ∧ r.state = current.state := by
  obtain ⟨assigneeId, assigneeIds⟩ := input
  obtain ⟨hid, hids⟩ : assigneeId = none ∧ assigneeIds = none := by
    simpa only [TaskAssignmentMutationInput.Given, not_or, not_not] using h
  subst hid hids
  have htarget : updateTarget blank (current.state.assigneeId.or current.ids.head?) current.ids
      ⟨none, none⟩ = .ok current.state := by
    rw [current.lead_or]
    rfl
  have hunique : assertUnique ([] : List ι) = .ok () := assertUnique_iff.mpr List.nodup_nil
  have hcanonical := assertCanonical_iff.mpr current.canonical
  simp only [resolveTaskAssignmentUpdate, current.beforeAssigneeIds, bind_ok, pure_ok]
  exact ⟨_, ⟨(), hunique, current.state, htarget, (), hcanonical, rfl⟩, rfl⟩

theorem resolveTaskAssignmentCreation_canonical {s : TaskAssignmentState ι}
    (h : resolveTaskAssignmentCreation blank input = .ok s) : s.Canonical := by
  simp only [resolveTaskAssignmentCreation, bind_ok, pure_ok] at h
  obtain ⟨-, -, target, -, ⟨⟩, hcanonical, rfl⟩ := h
  exact assertCanonical_iff.mp hcanonical

/-- The resolvers answer with canonical states only, and those of an update with what differs. -/
theorem resolves_exactly (current : Stored blank) (input : TaskAssignmentMutationInput ι) :
    (∀ r, resolveTaskAssignmentUpdate blank current.state input = .ok r →
      Exact current.state input r) ∧
    (¬ input.Given → ∃ r, resolveTaskAssignmentUpdate blank current.state input = .ok r ∧
      r.state = current.state) ∧
    ∀ s, resolveTaskAssignmentCreation blank input = .ok s → s.Canonical :=
  ⟨fun _ => resolveTaskAssignmentUpdate_exact, resolveTaskAssignmentUpdate_idle current,
    fun _ => resolveTaskAssignmentCreation_canonical⟩

end Answers

/-- Two people, the first one leads. -/
def pair : Stored fun id : String => id = "" := ⟨["a", "b"], by decide, by decide⟩

/-- Without its lead a task is led by the next one. -/
theorem resolves_exactly_pair : ∃ r,
    resolveTaskAssignmentUpdate (fun id : String => id = "") pair.state { assigneeId := some none } =
      .ok r ∧ r.assigneeIds = ["b"] ∧ Exact pair.state { assigneeId := some none } r :=
  ⟨_, rfl, rfl, (resolves_exactly pair { assigneeId := some none }).1 _ rfl⟩

end CalmBoard.Assignments
