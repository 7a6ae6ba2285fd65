import CalmBoard.Tasks.Assignments
import CalmBoard.Lib.Keyed
import CalmBoard.Lib.Fallible

/-!
# CalmBoard.Tasks.AssignmentDomain — the assignment edits of the web client

The client builds the payload of an edit from the task it shows; the server resolves it against the
task it stores.

* `buildAddAssigneeMutation`, `buildRemoveAssigneeMutation`, `buildSetLeadMutation`,
  `buildClearAllAssigneesMutation`, `rebalanceTaskAssignees`: the payloads.
* `isAssignmentMutationNoop`: whether the client sends a payload at all.
* `Edit.intended`: what each edit is for.
* `edits_resolve`: the server makes of a payload what the edit is for.
-/

namespace CalmBoard.Tasks

open Fallible

/-! ### The client -/

/-- The task as the client has it: the lead and the assignees. -/
abbrev ClientTask := TaskAssignmentState

def getTaskAssigneeIds (task : ClientTask) : List Uuid :=
  distinct (task.assigneeId.toList ++ task.assigneeIds)

def buildAddAssigneeMutation (task : ClientTask) (userId : Uuid) : TaskAssignmentInput :=
  let current := getTaskAssigneeIds task
  match current with
  | [] => { assigneeId := some (some userId), assigneeIds := some [userId] }
  | first :: _ =>
    if userId ∈ current then
      { assigneeId := some (some (task.assigneeId.getD first)), assigneeIds := some current }
    else
      { assigneeId := some (some (task.assigneeId.getD first))
        assigneeIds := some (current ++ [userId]) }

def buildRemoveAssigneeMutation (task : ClientTask) (userId : Uuid) : TaskAssignmentInput :=
  let remaining := (getTaskAssigneeIds task).filter (· ≠ userId)
  match remaining with
  | [] => { assigneeId := some none, assigneeIds := some [] }
  | first :: _ =>
    if task.assigneeId = some userId then { assigneeIds := some remaining }
    else { assigneeId := some (some (task.assigneeId.getD first)), assigneeIds := some remaining }

def buildSetLeadMutation (task : ClientTask) (leadUserId : Uuid) : TaskAssignmentInput :=
  let others := (getTaskAssigneeIds task).filter (· ≠ leadUserId)
  { assigneeId := some (some leadUserId), assigneeIds := some (leadUserId :: others) }

def buildClearAllAssigneesMutation : TaskAssignmentInput :=
  { assigneeId := some none, assigneeIds := some [] }

/-- The result is sent as it is. -/
def rebalanceTaskAssignees (task : ClientTask) (sourceUserId targetUserId : Uuid) :
    Option TaskAssignmentInput :=
  if sourceUserId = targetUserId then none
  else
    let currentAssignees := getTaskAssigneeIds task
    if sourceUserId ∉ currentAssignees then none
    else if targetUserId ∈ currentAssignees then none
    else
      let replaced := currentAssignees.map fun id => if id = sourceUserId then targetUserId else id
      if task.assigneeId = some sourceUserId then
        let newAssigneeIds :=
          if targetUserId ∈ replaced then replaced else targetUserId :: replaced
        some { assigneeId := some (some targetUserId), assigneeIds := some (distinct newAssigneeIds) }
      else some { assigneeId := some task.assigneeId, assigneeIds := some (distinct replaced) }

/-- Ids are compared one by one, once the lists are equally long. -/
def isAssignmentMutationNoop (task : ClientTask) (mutation : TaskAssignmentInput) : Bool :=
  let currentIds := getTaskAssigneeIds task
  let targetIds := mutation.assigneeIds.getD []
  if mutation.assigneeId.any fun target => target ≠ task.assigneeId then false
  else if currentIds.length ≠ targetIds.length then false
  else (List.zip currentIds targetIds).all fun ids => ids.1 = ids.2

/-! ### What the edits are for -/

inductive Edit where
  | add (userId : Uuid)
  | remove (userId : Uuid)
  | setLead (userId : Uuid)
  | clearAll
  | rebalance (sourceUserId targetUserId : Uuid)

/-- What is sent; a rebalancing may come to nothing. -/
def Edit.payload (task : ClientTask) : Edit → Option TaskAssignmentInput
  | .add userId => some (buildAddAssigneeMutation task userId)
  | .remove userId => some (buildRemoveAssigneeMutation task userId)
  | .setLead userId => some (buildSetLeadMutation task userId)
  | .clearAll => some buildClearAllAssigneesMutation
  | .rebalance sourceUserId targetUserId => rebalanceTaskAssignees task sourceUserId targetUserId

/-- The assignees after an edit, the lead first. -/
def Edit.assignees (ids : List Uuid) : Edit → List Uuid
  | .add userId => if userId ∈ ids then ids else ids ++ [userId]
  | .remove userId => ids.filter (· ≠ userId)
  | .setLead userId => userId :: ids.filter (· ≠ userId)
  | .clearAll => []
  | .rebalance sourceUserId targetUserId =>
    ids.map fun id => if id = sourceUserId then targetUserId else id

/-- A list of assignees with its first as the lead. -/
def led (ids : List Uuid) : TaskAssignmentState := ⟨ids.head?, ids⟩

def Edit.intended (task : ClientTask) (edit : Edit) : TaskAssignmentState :=
  led (edit.assignees task.assigneeIds)

/-- Nobody twice, and the lead first. -/
structure TaskAssignmentState.Canonical (task : TaskAssignmentState) : Prop where
  nodup : task.assigneeIds.Nodup
  lead : task.assigneeId = task.assigneeIds.head?

variable {task : TaskAssignmentState} {ids : List Uuid} {payload : TaskAssignmentInput}
  {edit : Edit}

theorem TaskAssignmentState.Canonical.eq_led (h : task.Canonical) : task = led task.assigneeIds := by
  cases task
  exact congrArg (TaskAssignmentState.mk · _) h.lead

theorem getTaskAssigneeIds_led (h : ids.Nodup) : getTaskAssigneeIds (led ids) = ids := by
  cases ids with
  | nil => rfl
  | cons first rest =>
    have honce : insertLast (insertLast [] first) first = [first] :=
      if_pos (List.mem_singleton.mpr rfl)
    show (first :: first :: rest).foldl insertLast [] = first :: rest
    rw [List.foldl_cons, List.foldl_cons, honce, foldl_insertLast h]
    rfl

/-! ### The payloads -/

/-- A payload that names the assignees `l` of a task that has `ids`, with the first of them as the
lead; it leaves the lead out when the task's lead is not among them. -/
structure Names (ids : List Uuid) (payload : TaskAssignmentInput) (l : List Uuid) : Prop where
  assigneeIds : payload.assigneeIds = some l
  assigneeId : payload.assigneeId = some l.head? ∨
    payload.assigneeId = none ∧ ∀ lead, ids.head? = some lead → lead ∉ l

variable {l : List Uuid}

theorem names_add (userId : Uuid) (h : ids.Nodup) :
    Names ids (buildAddAssigneeMutation (led ids) userId) ((Edit.add userId).assignees ids) := by
  unfold buildAddAssigneeMutation Edit.assignees
  rw [getTaskAssigneeIds_led h]
  cases ids with
  | nil => exact ⟨rfl, Or.inl rfl⟩
  | cons first rest =>
    simp only
    split
    · exact ⟨rfl, Or.inl rfl⟩
    · exact ⟨rfl, Or.inl rfl⟩

theorem names_remove (userId : Uuid) (h : ids.Nodup) :
    Names ids (buildRemoveAssigneeMutation (led ids) userId) ((Edit.remove userId).assignees ids) := by
  unfold buildRemoveAssigneeMutation Edit.assignees
  rw [getTaskAssigneeIds_led h]
  simp only
  split
  · next hnone =>
    rw [hnone]
    exact ⟨rfl, Or.inl rfl⟩
  · next first rest hremaining =>
    split
    · next hlead =>
      refine ⟨rfl, Or.inr ⟨rfl, fun lead hl hmem => ?_⟩⟩
      obtain rfl : lead = userId := Option.some.inj (hl.symm.trans hlead)
      simp at hmem
    · next hlead =>
      refine ⟨rfl, Or.inl ?_⟩
      -- the lead stays, and it is the first of those that stay
      cases ids with
      | nil => cases hremaining
      | cons lead others =>
        have hne : lead ≠ userId := fun he => hlead (congrArg some he)
        rw [List.filter_cons_of_pos (by simpa using hne)]
        rfl

theorem names_setLead (userId : Uuid) (h : ids.Nodup) :
    Names ids (buildSetLeadMutation (led ids) userId) ((Edit.setLead userId).assignees ids) := by
  unfold buildSetLeadMutation Edit.assignees
  rw [getTaskAssigneeIds_led h]
  exact ⟨rfl, Or.inl rfl⟩

theorem nodup_replaced {source target : Uuid} (h : ids.Nodup) (htarget : target ∉ ids) :
    (ids.map fun id => if id = source then target else id).Nodup := by
  refine List.Nodup.map_on (fun a ha b hb hab => ?_) h
  by_cases has : a = source
  · by_cases hbs : b = source
    · rw [has, hbs]
    · rw [if_pos has, if_neg hbs] at hab
      exact absurd (hab ▸ hb) htarget
  · by_cases hbs : b = source
    · rw [if_neg has, if_pos hbs] at hab
      exact absurd (hab ▸ ha) htarget
    · rwa [if_neg has, if_neg hbs] at hab

theorem rebalance_some {source target : Uuid} (h : ids.Nodup)
    (hpayload : rebalanceTaskAssignees (led ids) source target = some payload) :
    source ∈ ids ∧ target ∉ ids ∧
      Names ids payload ((Edit.rebalance source target).assignees ids) := by
  unfold rebalanceTaskAssignees at hpayload
  rw [getTaskAssigneeIds_led h] at hpayload
  split at hpayload
  · cases hpayload
  simp only at hpayload
  split at hpayload
  · cases hpayload
  next hsource =>
  split at hpayload
  · cases hpayload
  next htarget =>
  rw [not_not] at hsource
  have hnodup : ((Edit.rebalance source target).assignees ids).Nodup := nodup_replaced h htarget
  have htaken : target ∈ (Edit.rebalance source target).assignees ids :=
    List.mem_map.mpr ⟨source, hsource, if_pos rfl⟩
  refine ⟨hsource, htarget, ?_⟩
  split at hpayload
  · next hlead =>
    cases hpayload
    have hhead : ids.head? = some source := hlead
    refine ⟨congrArg some ?_, Or.inl ?_⟩
    · exact (congrArg distinct (if_pos htaken)).trans (distinct_of_nodup hnodup)
    show some (some target) = some ((Edit.rebalance source target).assignees ids).head?
    unfold Edit.assignees
    rw [List.head?_map, hhead, Option.map_some, if_pos rfl]
  · next hlead =>
    cases hpayload
    have hhead : ids.head? ≠ some source := hlead
    refine ⟨congrArg some (distinct_of_nodup hnodup), Or.inl ?_⟩
    show some ids.head? = some ((Edit.rebalance source target).assignees ids).head?
    unfold Edit.assignees
    rw [List.head?_map]
    cases hids : ids.head? with
    | none => rfl
    | some lead =>
      have hne : lead ≠ source := fun he => hhead (by rw [hids, he])
      rw [Option.map_some, if_neg hne]

theorem payload_names (h : ids.Nodup) (hpayload : edit.payload (led ids) = some payload) :
    Names ids payload (edit.assignees ids) := by
  cases edit with
  | add userId =>
    cases hpayload
    exact names_add userId h
  | remove userId =>
    cases hpayload
    exact names_remove userId h
  | setLead userId =>
    cases hpayload
    exact names_setLead userId h
  | clearAll =>
    cases hpayload
    exact ⟨rfl, Or.inl rfl⟩
  | rebalance source target => exact (rebalance_some h hpayload).2.2

theorem assignees_nodup (h : ids.Nodup) (hpayload : edit.payload (led ids) = some payload) :
    (edit.assignees ids).Nodup := by
  cases edit with
  | add userId =>
    show (if userId ∈ ids then ids else ids ++ [userId]).Nodup
    split
    · exact h
    · next hid => exact List.nodup_append_comm.mp (List.nodup_cons.mpr ⟨hid, h⟩)
  | remove userId => exact h.filter _
  | setLead userId => exact List.nodup_cons.mpr ⟨by simp, h.filter _⟩
  | clearAll => exact List.nodup_nil
  | rebalance source target => exact nodup_replaced h (rebalance_some h hpayload).2.1

theorem assignees_same_iff (h : ids.Nodup) (hpayload : edit.payload (led ids) = some payload) :
    ((edit.assignees ids).head? = ids.head? ∧ ∀ x, x ∈ edit.assignees ids ↔ x ∈ ids) ↔
      edit.assignees ids = ids := by
  refine ⟨?_, fun he => by rw [he]; exact ⟨rfl, fun _ => Iff.rfl⟩⟩
  rintro ⟨hhead, hmem⟩
  cases edit with
  | add userId =>
    have hid : userId ∈ ids := by
      refine (hmem userId).mp ?_
      show userId ∈ if userId ∈ ids then ids else ids ++ [userId]
      split
      · next hid => exact hid
      · exact List.mem_append_right _ (List.mem_singleton.mpr rfl)
    exact if_pos hid
  | remove userId =>
    have hid : userId ∉ ids := fun hid => by simpa [Edit.assignees] using (hmem userId).mpr hid
    refine List.filter_eq_self.mpr fun x hx => ?_
    simpa using fun he : x = userId => hid (he ▸ hx)
  | setLead userId =>
    cases ids with
    | nil => cases hhead
    | cons lead rest =>
      obtain rfl : userId = lead := Option.some.inj hhead
      have hrest : rest.filter (· ≠ userId) = rest := by
        refine List.filter_eq_self.mpr fun x hx => ?_
        simpa using fun he : x = userId => (List.nodup_cons.mp h).1 (he ▸ hx)
      show userId :: (userId :: rest).filter (· ≠ userId) = userId :: rest
      rw [List.filter_cons_of_neg (by simp), hrest]
  | clearAll =>
    refine (List.eq_nil_iff_forall_not_mem.mpr fun x hx => ?_).symm
    exact List.not_mem_nil ((hmem x).mpr hx)
  | rebalance source target =>
    obtain ⟨hsource, htarget, -⟩ := rebalance_some h hpayload
    exact absurd ((hmem target).mp (List.mem_map.mpr ⟨source, hsource, if_pos rfl⟩)) htarget

/-! ### The two sides -/

theorem zip_all_iff : ∀ {a b : List Uuid}, a.length = b.length →
    (((List.zip a b).all fun ids => ids.1 = ids.2) = true ↔ b = a)
  | [], [], _ => by simp
  | x :: a, y :: b, h => by
    rw [List.zip_cons_cons, List.all_cons, Bool.and_eq_true,
      zip_all_iff (Nat.succ.inj h), List.cons.injEq, decide_eq_true_iff, eq_comm (a := x)]

theorem Names.noop_iff (hids : ids.Nodup) (h : Names ids payload l) :
    isAssignmentMutationNoop (led ids) payload = true ↔ l = ids := by
  unfold isAssignmentMutationNoop
  rw [getTaskAssigneeIds_led hids, h.assigneeIds, Option.getD_some]
  simp only
  constructor
  · intro hnoop
    split at hnoop
    · cases hnoop
    split at hnoop
    · cases hnoop
    · next hlength => exact (zip_all_iff (not_not.mp hlength)).mp hnoop
  · rintro rfl
    have hlead : (payload.assigneeId.any fun target => target ≠ (led l).assigneeId) = false := by
      rcases h.assigneeId with hlead | ⟨hlead, -⟩
      · rw [hlead]
        simp [led]
      · rw [hlead]
        rfl
    rw [hlead, if_neg Bool.false_ne_true, if_neg (not_not.mpr rfl)]
    exact (zip_all_iff rfl).mpr rfl

theorem led_of_head {lead : Uuid} (hl : l.Nodup) (hhead : l.head? = some lead) :
    (⟨some lead, lead :: l.filter (· ≠ lead)⟩ : TaskAssignmentState) = led l := by
  cases l with
  | nil => cases hhead
  | cons first rest =>
    obtain rfl : first = lead := Option.some.inj hhead
    have hrest : rest.filter (· ≠ first) = rest := by
      refine List.filter_eq_self.mpr fun x hx => ?_
      simpa using fun he : x = first => (List.nodup_cons.mp hl).1 (he ▸ hx)
    rw [List.filter_cons_of_neg (by simp), hrest]
    rfl

theorem Names.target (hl : l.Nodup) (h : Names ids payload l) :
    targetAssignment ids.head? ids payload = .ok (led l) := by
  unfold targetAssignment
  rw [h.assigneeIds]
  rcases h.assigneeId with hlead | ⟨hlead, hgone⟩
  · rw [hlead]
    cases l with
    | nil => rfl
    | cons first rest =>
      show Except.ok _ = _
      exact congrArg _ (led_of_head hl rfl)
  · rw [hlead]
    simp only
    cases hhead : ids.head? with
    | none => rfl
    | some lead =>
      simp only [if_neg (hgone lead hhead)]
      rfl

theorem assertCanonical_led (hl : l.Nodup) :
    assertCanonicalTaskAssignment (led l).assigneeId (led l).assigneeIds = .ok () := by
  unfold assertCanonicalTaskAssignment
  cases l with
  | nil => rfl
  | cons first rest => exact (if_neg (not_not.mpr hl)).trans (if_neg (not_not.mpr rfl))

theorem Names.resolves (hl : l.Nodup) (h : Names ids payload l) :
    ∃ r, resolveTaskAssignmentUpdate ids.head? ids payload = .ok r ∧
      (⟨r.assigneeId, r.assigneeIds⟩ : TaskAssignmentState) = led l ∧
      (r.changed = false ↔ l.head? = ids.head? ∧ ∀ x, x ∈ l ↔ x ∈ ids) := by
  have hids : (if ids ≠ [] then ids else ids.head?.toList) = ids := by
    cases ids <;> rfl
  have hlead : ids.head?.or ids.head? = ids.head? := by
    cases ids <;> rfl
  unfold resolveTaskAssignmentUpdate
  simp only [hids, hlead, h.assigneeIds, h.target hl, hl, bind_ok, pure_ok, not_true_eq_false,
    if_false]
  refine ⟨_, ⟨led l, rfl, (), assertCanonical_led hl, rfl⟩, rfl, ?_⟩
  have hempty : ∀ a b : List Uuid,
      (a.filter fun x => decide (x ∉ b)).isEmpty = true ↔ ∀ x ∈ a, x ∈ b := by
    intro a b
    rw [List.isEmpty_iff, List.filter_eq_nil_iff]
    simp
  simp only [Option.isSome_some, Bool.or_true, Bool.true_and, Bool.or_eq_false_iff,
    decide_eq_false_iff_not, ne_eq, not_not, Bool.not_eq_false', hempty]
  constructor
  · rintro ⟨⟨hhead, hadded⟩, hremoved⟩
    exact ⟨hhead.symm, fun x => ⟨hadded x, hremoved x⟩⟩
  · rintro ⟨hhead, hmem⟩
    exact ⟨⟨hhead.symm, fun x => (hmem x).mp⟩, fun x => (hmem x).mpr⟩

/-- **Edits**: the server makes of a payload what the edit is for, and the client holds it back
exactly when the server would report no change. -/
theorem edits_resolve (task : ClientTask) (edit : Edit) (payload : TaskAssignmentInput)
    (hcanonical : task.Canonical) (hpayload : edit.payload task = some payload) :
    ∃ r, resolveTaskAssignmentUpdate task.assigneeId task.assigneeIds payload = .ok r ∧
      (⟨r.assigneeId, r.assigneeIds⟩ : TaskAssignmentState) = edit.intended task ∧
      (isAssignmentMutationNoop task payload = true ↔ r.changed = false) := by
  have hids := hcanonical.nodup
  rw [hcanonical.eq_led] at hpayload ⊢
  have hnames := payload_names hids hpayload
  obtain ⟨r, hr, hstate, hchanged⟩ := hnames.resolves (assignees_nodup hids hpayload)
  refine ⟨r, hr, hstate, ?_⟩
  rw [hnames.noop_iff hids, hchanged, assignees_same_iff hids hpayload]

/-- The lead 1 is removed from a task that 2 also works on. -/
theorem edits_resolve_remove_lead :
    buildRemoveAssigneeMutation (led [1, 2]) 1 = { assigneeIds := some [2] } ∧
    ∃ r, resolveTaskAssignmentUpdate (some 1) [1, 2] { assigneeIds := some [2] } = .ok r ∧
      (⟨r.assigneeId, r.assigneeIds⟩ : TaskAssignmentState) = ⟨some 2, [2]⟩ ∧
      (isAssignmentMutationNoop (led [1, 2]) { assigneeIds := some [2] } = true ↔ r.changed = false) :=
  ⟨by decide, edits_resolve (led [1, 2]) (.remove 1) { assigneeIds := some [2] } ⟨by decide, rfl⟩ rfl⟩

end CalmBoard.Tasks
