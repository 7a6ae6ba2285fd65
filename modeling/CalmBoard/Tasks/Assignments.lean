import CalmBoard.Schema

/-!
# CalmBoard.Tasks.Assignments — the people of a task, resolved from an input

A task has a lead (`assigneeId`) and a list of assignees with the lead first.  The resolvers derive
both, and the differences to write, from an input that may give either of them.
-/

namespace CalmBoard.Tasks

structure TaskAssignmentState where
  assigneeId : Option Uuid
  assigneeIds : List Uuid

/-- `none` is `undefined`, `some none` is `null`. -/
structure TaskAssignmentInput where
  assigneeId : Option (Option Uuid) := none
  assigneeIds : Option (List Uuid) := none
  deriving DecidableEq

structure ResolvedTaskAssignmentUpdate where
  assigneeId : Option Uuid
  assigneeIds : List Uuid
  changed : Bool
  addedAssigneeIds : List Uuid
  removedAssigneeIds : List Uuid
  primaryChanged : Bool
  hasAssigneeMutation : Bool

def uniqueAssigneesError : RepoError := .conflict "Task assigneeIds must contain unique user IDs"

def noLeadError : RepoError := .conflict "Task cannot have assignees without a Lead"

def assertCanonicalTaskAssignment (assigneeId : Option Uuid) (assigneeIds : List Uuid) :
    Except RepoError Unit :=
  if ¬ assigneeIds.Nodup then .error uniqueAssigneesError
  else
    match assigneeId, assigneeIds with
    | none, [] => .ok ()
    | none, _ :: _ => .error noLeadError
    | some _, [] =>
      .error (.conflict "Task with a Lead must have a non-empty assigneeIds list")
    | some lead, first :: _ =>
      if first ≠ lead then
        .error (.conflict "Task Lead must be the first element in assigneeIds")
      else .ok ()

def resolveTaskAssignmentCreation (input : TaskAssignmentInput) :
    Except RepoError TaskAssignmentState := do
  if let some ids := input.assigneeIds then
    if ¬ ids.Nodup then throw uniqueAssigneesError
  let (lead, ids) ← match input.assigneeId, input.assigneeIds with
    | some (some lead), ids => .ok (some lead, lead :: (ids.getD []).filter (· ≠ lead))
    | some none, some (_ :: _) => .error noLeadError
    | some none, _ => .ok (none, [])
    | none, some (first :: rest) => .ok (some first, first :: rest)
    | none, _ => .ok (none, [])
  assertCanonicalTaskAssignment lead ids
  return { assigneeId := lead, assigneeIds := ids }

/-- The lead and the assignees after an update, before they are checked. -/
def targetAssignment (beforeId : Option Uuid) (beforeIds : List Uuid) (input : TaskAssignmentInput) :
    Except RepoError TaskAssignmentState :=
  match input.assigneeId, input.assigneeIds with
  | some none, some (_ :: _) => .error noLeadError
  | some (some lead), some ids => .ok ⟨some lead, lead :: ids.filter (· ≠ lead)⟩
  | some none, some [] => .ok ⟨none, []⟩
  | some (some lead), none =>
    .ok ⟨some lead, lead :: beforeIds.filter fun id => some id ≠ beforeId ∧ id ≠ lead⟩
  | some none, none =>
    let remaining := beforeIds.filter fun id => some id ≠ beforeId
    .ok ⟨remaining.head?, remaining⟩
  | none, some ids =>
    match beforeId with
    | some lead =>
      if lead ∈ ids then .ok ⟨some lead, lead :: ids.filter (· ≠ lead)⟩ else .ok ⟨ids.head?, ids⟩
    | none => .ok ⟨ids.head?, ids⟩
  | none, none => .ok ⟨beforeId, beforeIds⟩

/-- `currentId`, `currentIds`: the lead column and the active assignee rows of the stored task. -/
def resolveTaskAssignmentUpdate (currentId : Option Uuid) (currentIds : List Uuid)
    (input : TaskAssignmentInput) : Except RepoError ResolvedTaskAssignmentUpdate := do
  let hasAssigneeMutation := input.assigneeId.isSome || input.assigneeIds.isSome
  if let some ids := input.assigneeIds then
    if ¬ ids.Nodup then throw uniqueAssigneesError
  let beforeIds := if currentIds ≠ [] then currentIds else currentId.toList
  let beforeId := currentId.or beforeIds.head?
  let target ← targetAssignment beforeId beforeIds input
  assertCanonicalTaskAssignment target.assigneeId target.assigneeIds
  let addedAssigneeIds := target.assigneeIds.filter (· ∉ beforeIds)
  let removedAssigneeIds := beforeIds.filter (· ∉ target.assigneeIds)
  let primaryChanged := decide (beforeId ≠ target.assigneeId)
  return {
    assigneeId := target.assigneeId
    assigneeIds := target.assigneeIds
    changed := hasAssigneeMutation &&
      (primaryChanged || !addedAssigneeIds.isEmpty || !removedAssigneeIds.isEmpty)
    addedAssigneeIds, removedAssigneeIds, primaryChanged, hasAssigneeMutation }

end CalmBoard.Tasks
