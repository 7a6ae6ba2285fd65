import CalmBoard.Workflows.Reviews

/-!
# CalmBoard.Workflows.Deletion — what the deletion of a task closes

* `Lists`: checklists and items point where they should.
* `deleteChecklists_ok`: checklists with their items.
* `closeDeletedTaskWorkflows_ok`: everything a deleted task had.
-/

namespace CalmBoard.Workflows

open Fallible

variable {s s' : Store}

/-! ### Checklists -/

variable {t : Timestamptz}

/-- The checklist an item points at is there, for the same task, and not deleted before it. -/
def ItemOf (checklists : Table ChecklistRow ChecklistRow.id) (i : ChecklistItemRow)
    (c : ChecklistRow) : Prop :=
  checklists.find? i.checklistId = some c ∧ c.projectId = i.projectId ∧ c.taskId = i.taskId ∧
    (i.deletedAt = none → c.deletedAt = none)

/-- What the triggers keep of the checklists. -/
structure Lists (s : Store) : Prop where
  scope : ∀ c ∈ s.checklists.rows, Scoped s.db c.taskId c.projectId
  belongs : ∀ i ∈ s.items.rows, ∃ c, ItemOf s.checklists i c
  checks : ∀ i ∈ s.items.rows, completionCheck i = .ok ()

def ChecklistRow.delete (t : Timestamptz) (c : ChecklistRow) : ChecklistRow :=
  { c with deletedAt := some t, updatedAt := t }

def ChecklistItemRow.delete (t : Timestamptz) (i : ChecklistItemRow) : ChecklistItemRow :=
  { i with deletedAt := some t, updatedAt := t }

theorem ChecklistRow.delete_id (t : Timestamptz) (c : ChecklistRow) : (c.delete t).id = c.id := rfl

theorem ChecklistItemRow.delete_id (t : Timestamptz) (i : ChecklistItemRow) :
    (i.delete t).id = i.id := rfl

def liveChecklist (selects : ChecklistRow → Bool) (c : ChecklistRow) : Bool :=
  selects c && c.deletedAt.isNone

def liveItem (checklistId : Uuid) (i : ChecklistItemRow) : Bool :=
  i.checklistId = checklistId && i.deletedAt.isNone

/-- The store without the checklists that `selects`. -/
def Store.withoutChecklists (s : Store) (selects : ChecklistRow → Bool) (t : Timestamptz) : Store :=
  { s with
    checklists := s.checklists.update (liveChecklist selects) (ChecklistRow.delete t)
      (ChecklistRow.delete_id t)
    items := s.items.update
      (fun i => (s.checklists.rows.filter (liveChecklist selects)).any fun c => liveItem c.id i)
      (ChecklistItemRow.delete t) (ChecklistItemRow.delete_id t) }

theorem validateItem_ok {i : ChecklistItemRow} {c : ChecklistRow}
    (hitem : ItemOf s.checklists i c) (hcheck : completionCheck i = .ok ()) :
    validateTaskChecklistItem s i = .ok () ↔ ∀ u, i.completedBy = some u → u ∈ s.db.members := by
  obtain ⟨hfind, hproject, htask, hlive⟩ := hitem
  have hdeleted : ¬(i.deletedAt.isNone = true ∧ c.deletedAt.isSome = true) := by
    rintro ⟨hi, hc⟩
    rw [Option.isNone_iff_eq_none] at hi
    rw [hlive hi] at hc
    cases hc
  unfold validateTaskChecklistItem
  rw [hfind]
  simp only [throw_bind, guard_ok, hcheck, hproject, htask]
  simp only [hdeleted, ← activeMember_iff]
  cases i.completedBy <;> simp

/-- **Checklists** are deleted when the completers of their live items are members. -/
theorem deleteChecklists_ok (h : Lists s) {selects : ChecklistRow → Bool} :
    deleteChecklists selects t s = .ok s' ↔
      (∀ c ∈ s.checklists.rows, liveChecklist selects c = true → ∀ i ∈ s.items.rows,
        liveItem c.id i = true → ∀ u, i.completedBy = some u → u ∈ s.db.members) ∧
        s' = s.withoutChecklists selects t := by
  set s1 : Store := { s with
    checklists := s.checklists.update (liveChecklist selects) (ChecklistRow.delete t)
      (ChecklistRow.delete_id t) }
  have hwrite : ∀ u, updateRows checklistsPlace (fun s _ new => validateChecklist s new)
      (fun c => selects c && c.deletedAt.isNone)
      (fun c => { c with deletedAt := some t, updatedAt := t }) s = .ok u ↔ u = s1 := by
    intro u
    refine (updateRows_ok (ChecklistRow.delete_id t) fun _ _ _ _ => rfl).trans ?_
    exact and_iff_right fun c hc _ => validateTaskWorkflowScope_ok (h.scope c hc)
  have hitems : (s.checklists.rows.filter (liveChecklist selects)).foldlM (fun s c =>
      updateRows itemsPlace (fun s _ new => validateTaskChecklistItem s new) (liveItem c.id)
        (ChecklistItemRow.delete t) s) s1 = .ok s' ↔
        (∀ c ∈ s.checklists.rows.filter (liveChecklist selects), ∀ i ∈ s.items.rows,
          liveItem c.id i = true → validateTaskChecklistItem s1 (i.delete t) = .ok ()) ∧
        s' = s.withoutChecklists selects t :=
    foldlM_updateRows (ChecklistItemRow.delete_id t)
      (fun a b i _ => by simp [liveItem, ChecklistItemRow.delete]) _ _ fun _ _ _ _ => rfl
  have hmembers : (∀ c ∈ s.checklists.rows.filter (liveChecklist selects), ∀ i ∈ s.items.rows,
      liveItem c.id i = true → validateTaskChecklistItem s1 (i.delete t) = .ok ()) ↔
        ∀ c ∈ s.checklists.rows, liveChecklist selects c = true → ∀ i ∈ s.items.rows,
          liveItem c.id i = true → ∀ u, i.completedBy = some u → u ∈ s.db.members := by
    rw [List.forall_mem_filter]
    refine forall₃_congr fun c _ _ => forall₃_congr fun i hi _ => ?_
    obtain ⟨d, hfind, hproject, htask, -⟩ := h.belongs i hi
    have hitem : ItemOf s1.checklists (i.delete t)
        (if liveChecklist selects d then d.delete t else d) := by
      refine ⟨by rw [Table.find?_update]; exact congrArg _ hfind, ?_⟩
      split
      · exact ⟨hproject, htask, nofun⟩
      · exact ⟨hproject, htask, nofun⟩
    exact validateItem_ok hitem (h.checks i hi)
  unfold deleteChecklists
  rw [bind_ok]
  constructor
  · rintro ⟨u, hu, hfold⟩
    cases (hwrite u).mp hu
    obtain ⟨hok, hs'⟩ := hitems.mp hfold
    exact ⟨hmembers.mp hok, hs'⟩
  · rintro ⟨hok, hs'⟩
    exact ⟨s1, (hwrite s1).mpr rfl, hitems.mpr ⟨hmembers.mpr hok, hs'⟩⟩

theorem Lists.withoutChecklists (h : Lists s) (selects : ChecklistRow → Bool) (t : Timestamptz) :
    Lists (s.withoutChecklists selects t) where
  scope c hc := by
    obtain ⟨d, hd, rfl⟩ := List.mem_map.mp hc
    split
    · exact h.scope d hd
    · exact h.scope d hd
  belongs i hi := by
    obtain ⟨j, hj, rfl⟩ := List.mem_map.mp hi
    obtain ⟨c, hfind, hproject, htask, hlive⟩ := h.belongs j hj
    have hc : (s.withoutChecklists selects t).checklists.find? j.checklistId =
        some (if liveChecklist selects c then c.delete t else c) := by
      refine (Table.find?_update _ _ _ (ChecklistRow.delete_id t) _).trans ?_
      rw [hfind]
      rfl
    by_cases hany : ((s.checklists.rows.filter (liveChecklist selects)).any fun c =>
        liveItem c.id j) = true
    · rw [if_pos hany]
      refine ⟨_, hc, ?_⟩
      split
      · exact ⟨hproject, htask, nofun⟩
      · exact ⟨hproject, htask, nofun⟩
    · rw [if_neg hany]
      refine ⟨_, hc, ?_⟩
      split
      · next hsel =>
        refine ⟨hproject, htask, fun hj => absurd (List.any_eq_true.mpr ⟨c, ?_, ?_⟩) hany⟩
        · exact List.mem_filter.mpr ⟨Table.mem_of_find? hfind, hsel⟩
        · have hid := Table.key_of_find? hfind
          simp [liveItem, hid, hj]
      · exact ⟨hproject, htask, hlive⟩
  checks i hi := by
    obtain ⟨j, hj, rfl⟩ := List.mem_map.mp hi
    split
    · exact h.checks j hj
    · exact h.checks j hj

/-! ### Approvals of a deleted task -/

variable {taskId : Uuid} {q : ApprovalRequestRow}

def liveRequest (taskId : Uuid) (q : ApprovalRequestRow) : Bool :=
  q.taskId = taskId && q.deletedAt.isNone

def liveReviewer (taskId : Uuid) (v : ReviewerRow) : Bool := v.taskId = taskId && v.deletedAt.isNone

def openRequest (taskId : Uuid) (q : ApprovalRequestRow) : Bool :=
  q.taskId = taskId && q.status = .pending && q.deletedAt.isNone

/-- The store without the requests of a task and their reviewers. -/
def Store.withoutReviews (s : Store) (taskId : Uuid) (t : Timestamptz) : Store :=
  (s.updateReviewers (liveReviewer taskId) (deletingReviewer t)).updateRequests (liveRequest taskId)
    (deletingRequest t)

theorem openRequest_pending (h : openRequest taskId q = true) : q.status = .pending := by
  unfold openRequest at h
  simp only [Bool.and_eq_true, decide_eq_true_eq] at h
  exact h.1.2

theorem Rows.liveReviewer_eq (h : Rows s) {v : ReviewerRow} (hv : v ∈ s.reviewers.rows)
    (hq : s.requests.find? v.approvalRequestId = some q) (taskId : Uuid) :
    liveReviewer taskId v = liveRequest taskId q := by
  obtain ⟨r, hr, -, htask, hlive⟩ := h.belongs v hv
  cases Option.some.inj (hr.symm.trans hq)
  have hdeleted : v.deletedAt.isNone = q.deletedAt.isNone := by
    rw [Bool.eq_iff_iff, Option.isNone_iff_eq_none, Option.isNone_iff_eq_none]
    exact ⟨hlive, h.kept v hv q hq⟩
  unfold liveReviewer liveRequest
  rw [hdeleted, htask]

theorem find?_withoutReviews {id : Uuid} (hq : s.requests.find? id = some q) (taskId : Uuid)
    (t : Timestamptz) :
    (s.withoutReviews taskId t).requests.find? id =
      some (if liveRequest taskId q then q.set (deletingRequest t) else q) :=
  (find?_updateRequests (s := s.updateReviewers _ _) _ _ _).trans (congrArg (Option.map _) hq)

theorem Rows.withoutReviews (h : Rows s)
    (hclosed : ∀ q ∈ s.requests.rows, liveRequest taskId q = true → q.status ≠ .pending)
    (t : Timestamptz) : Rows (s.withoutReviews taskId t) where
  scope q hq := by
    obtain ⟨r, hr, rfl⟩ := List.mem_map.mp hq
    split <;> exact h.scope r hr
  resolution q hq := by
    obtain ⟨r, hr, rfl⟩ := List.mem_map.mp hq
    split <;> exact h.resolution r hr
  live q hq hp := by
    obtain ⟨r, hr, rfl⟩ := List.mem_map.mp hq
    split
    · next hsel =>
      rw [if_pos hsel] at hp
      exact absurd hp (hclosed r hr hsel)
    · next hsel =>
      rw [if_neg hsel] at hp
      exact h.live r hr hp
  belongs v hv := by
    obtain ⟨w, hw, rfl⟩ := List.mem_map.mp hv
    obtain ⟨q, hq, hproject, htask, hlive⟩ := h.belongs w hw
    have hfind := find?_withoutReviews hq taskId t
    have hsame := h.liveReviewer_eq hw hq taskId
    by_cases hsel : liveRequest taskId q = true
    · rw [if_pos hsel] at hfind
      rw [if_pos (hsame.trans hsel)]
      exact ⟨_, hfind, hproject, htask, nofun⟩
    · rw [if_neg hsel] at hfind
      rw [if_neg (hsame ▸ hsel)]
      exact ⟨_, hfind, hproject, htask, hlive⟩
  kept v hv q hq hlive := by
    obtain ⟨w, hw, rfl⟩ := List.mem_map.mp hv
    obtain ⟨r, hr, -⟩ := h.belongs w hw
    have hfind := find?_withoutReviews hr taskId t
    have hsame := h.liveReviewer_eq hw hr taskId
    by_cases hsel : liveRequest taskId r = true
    · rw [if_pos (hsame.trans hsel)] at hq
      rw [if_pos hsel] at hfind
      cases Option.some.inj (hfind.symm.trans hq)
      cases hlive
    · rw [if_neg (hsame ▸ hsel)] at hq ⊢
      rw [if_neg hsel] at hfind
      cases Option.some.inj (hfind.symm.trans hq)
      exact h.kept w hw q hr hlive
  decision v hv := by
    obtain ⟨w, hw, rfl⟩ := List.mem_map.mp hv
    split <;> exact h.decision w hw
  voters v hv w hw := by
    obtain ⟨v', hv', rfl⟩ := List.mem_map.mp hv
    obtain ⟨w', hw', rfl⟩ := List.mem_map.mp hw
    have hsame := h.voters v' hv' w' hw'
    split <;> split <;> exact hsame

theorem ballot?_withoutReviews (taskId : Uuid) (t : Timestamptz) (id : Uuid) :
    (s.withoutReviews taskId t).ballot? id = s.ballot? id := by
  have hvotes : (s.withoutReviews taskId t).votes id = s.votes id :=
    votes_same fun v _ _ => by split <;> rfl
  cases hq : s.requests.find? id with
  | none =>
    have hnone : (s.withoutReviews taskId t).requests.find? id = none :=
      (find?_updateRequests (s := s.updateReviewers _ _) _ _ _).trans (congrArg (Option.map _) hq)
    unfold Store.ballot?
    rw [hnone, hq]
    rfl
  | some q =>
    unfold Store.ballot?
    rw [find?_withoutReviews hq, hvotes, hq]
    simp only [Option.map_some]
    split <;> rfl

/-- What the deletion of a task asks of its workflows. -/
structure Closable (s : Store) (taskId : Uuid) : Prop where
  completers : ∀ i ∈ s.items.rows, i.taskId = taskId → i.deletedAt = none →
    ∀ u, i.completedBy = some u → u ∈ s.db.members
  requesters : ∀ q ∈ s.requests.rows, q.taskId = taskId → q.deletedAt = none →
    q.requestedBy ∈ s.db.members
  reviewers : ∀ v ∈ s.reviewers.rows, v.taskId = taskId → v.deletedAt = none →
    v.reviewerId ∈ s.db.members

/-- The store after a task that is deleted has closed its workflows. -/
def Store.closed (s : Store) (taskId : Uuid) (t : Timestamptz) : Store :=
  ((s.withoutChecklists (fun c => c.taskId = taskId) t).canceled (openRequest taskId) t).withoutReviews
    taskId t

theorem withoutReviews_ok (h : Rows s)
    (hclosed : ∀ q ∈ s.requests.rows, liveRequest taskId q = true → q.status ≠ .pending) :
    (do
      let s ← execute (.reviewers (liveReviewer taskId) (deletingReviewer t)) s
      execute (.requests (liveRequest taskId) (deletingRequest t)) s) = .ok s' ↔
      (∀ v ∈ s.reviewers.rows, liveReviewer taskId v = true → v.reviewerId ∈ s.db.members) ∧
        (∀ q ∈ s.requests.rows, liveRequest taskId q = true → q.requestedBy ∈ s.db.members) ∧
        s' = s.withoutReviews taskId t := by
  set s1 := s.updateReviewers (liveReviewer taskId) (deletingReviewer t)
  have hreviewers : ∀ u, execute (.reviewers (liveReviewer taskId) (deletingReviewer t)) s = .ok u ↔
      (∀ v ∈ s.reviewers.rows, liveReviewer taskId v = true → v.reviewerId ∈ s.db.members) ∧
        u = s1 := by
    intro u
    refine run_reviewers_ok (Or.inl rfl) (fun v hv _ => ?_) (fun _ _ _ hset => ?_) fun v hv _ => ?_
    · obtain ⟨q, hq, hproject, htask, -⟩ := h.belongs v hv
      exact ⟨q, hq, hproject, htask, nofun⟩
    · cases hset
    · exact if_pos (h.decision v hv)
  have hrequests : execute (.requests (liveRequest taskId) (deletingRequest t)) s1 = .ok s' ↔
      (∀ q ∈ s.requests.rows, liveRequest taskId q = true → q.requestedBy ∈ s.db.members) ∧
        s' = s.withoutReviews taskId t :=
    run_requests_ok nofun h.scope fun q hq hsel =>
      ⟨hclosed q hq hsel, fun hnone => hclosed q hq hsel ((h.resolution q hq).mpr hnone)⟩
  rw [bind_ok]
  constructor
  · rintro ⟨u, hu, hrest⟩
    obtain ⟨hv, rfl⟩ := (hreviewers u).mp hu
    exact ⟨hv, hrequests.mp hrest⟩
  · rintro ⟨hv, hrest⟩
    exact ⟨s1, (hreviewers s1).mpr ⟨hv, rfl⟩, hrequests.mpr hrest⟩

theorem canceled_closed :
    ∀ q ∈ (s.canceled (openRequest taskId) t).requests.rows, liveRequest taskId q = true →
      q.status ≠ .pending := by
  intro q hq hlive
  obtain ⟨r, hr, rfl⟩ := List.mem_map.mp hq
  by_cases hsel : openRequest taskId r = true
  · rw [if_pos hsel]
    exact nofun
  · rw [if_neg hsel] at hlive ⊢
    intro hp
    unfold liveRequest at hlive
    rw [Bool.and_eq_true] at hlive
    exact hsel (by simp [openRequest, hp, hlive.2, of_decide_eq_true hlive.1])

theorem Rows.withoutChecklists (h : Rows s) (selects : ChecklistRow → Bool) (t : Timestamptz) :
    Rows (s.withoutChecklists selects t) :=
  ⟨h.scope, h.resolution, h.live, h.belongs, h.kept, h.decision, h.voters⟩

theorem Reviews.withoutChecklists (h : Reviews s) (selects : ChecklistRow → Bool)
    (t : Timestamptz) : Reviews (s.withoutChecklists selects t) :=
  ⟨h.toRows.withoutChecklists selects t, h.ballots⟩

theorem Lists.completers_iff (h : Lists s) :
    (∀ c ∈ s.checklists.rows, liveChecklist (fun c => c.taskId = taskId) c = true →
      ∀ i ∈ s.items.rows, liveItem c.id i = true → ∀ u, i.completedBy = some u →
        u ∈ s.db.members) ↔
      ∀ i ∈ s.items.rows, i.taskId = taskId → i.deletedAt = none →
        ∀ u, i.completedBy = some u → u ∈ s.db.members := by
  constructor
  · intro hall i hi htask hlive
    obtain ⟨c, hc, -, hct, hcl⟩ := h.belongs i hi
    obtain ⟨hc, hid⟩ := Table.find?_eq_some_iff.mp hc
    refine hall c hc ?_ i hi ?_
    · simp [liveChecklist, hct.trans htask, hcl hlive]
    · simp [liveItem, hid, hlive]
  · intro hall c hc hsel i hi hitem
    simp only [liveChecklist, liveItem, Bool.and_eq_true, decide_eq_true_eq,
      Option.isNone_iff_eq_none] at hsel hitem
    obtain ⟨d, hd, -, hdt, -⟩ := h.belongs i hi
    have hcd : c = d := Table.eq_of_mem hc (Table.mem_of_find? hd)
      (hitem.1.symm.trans (Table.key_of_find? hd).symm)
    exact hall i hi (hdt.symm.trans (hcd ▸ hsel.1)) hitem.2

theorem canceled_members {selects : ApprovalRequestRow → Bool} :
    ((∀ v ∈ (s.canceled selects t).reviewers.rows, liveReviewer taskId v = true →
        v.reviewerId ∈ s.db.members) ↔
      ∀ v ∈ s.reviewers.rows, liveReviewer taskId v = true → v.reviewerId ∈ s.db.members) ∧
    ((∀ q ∈ (s.canceled selects t).requests.rows, liveRequest taskId q = true →
        q.requestedBy ∈ s.db.members) ↔
      ∀ q ∈ s.requests.rows, liveRequest taskId q = true → q.requestedBy ∈ s.db.members) := by
  constructor
  · refine List.forall_mem_map.trans (forall₂_congr fun v _ => ?_)
    split <;> exact Iff.rfl
  · refine List.forall_mem_map.trans (forall₂_congr fun q _ => ?_)
    split <;> exact Iff.rfl

/-- **Deletion**: the workflows of a task close when everybody in them is still a member. -/
theorem closeDeletedTaskWorkflows_ok (hlists : Lists s) (h : Reviews s) :
    closeDeletedTaskWorkflows taskId t s = .ok s' ↔ Closable s taskId ∧ s' = s.closed taskId t := by
  set s0 := s.withoutChecklists (fun c => c.taskId = taskId) t
  have h0 : Reviews s0 := h.withoutChecklists _ t
  have hcancel : ∀ u, execute (.requests (openRequest taskId) (resolving .canceled t)) s0 = .ok u ↔
      (∀ q ∈ s.requests.rows, openRequest taskId q = true → q.requestedBy ∈ s.db.members) ∧
        (∀ q ∈ s.requests.rows, openRequest taskId q = true → ∀ v ∈ s.reviewers.rows,
          openOf q.id v = true → v.reviewerId ∈ s.db.members) ∧
        u = s0.canceled (openRequest taskId) t :=
    fun u => run_cancel_ok h0.scope (fun q _ hsel => openRequest_pending hsel) h0.belongs
  set s1 := s0.canceled (openRequest taskId) t
  have hdelete : (do
      let s ← execute (.reviewers (liveReviewer taskId) (deletingReviewer t)) s1
      execute (.requests (liveRequest taskId) (deletingRequest t)) s) = .ok s' ↔
      (∀ v ∈ s.reviewers.rows, liveReviewer taskId v = true → v.reviewerId ∈ s.db.members) ∧
        (∀ q ∈ s.requests.rows, liveRequest taskId q = true → q.requestedBy ∈ s.db.members) ∧
        s' = s.closed taskId t := by
    rw [withoutReviews_ok (h0.canceled (fun q _ hsel => openRequest_pending hsel) t).toRows
      canceled_closed]
    exact and_congr canceled_members.1 (and_congr canceled_members.2 Iff.rfl)
  have hchecklists : ∀ u, deleteChecklists (fun c => c.taskId = taskId) t s = .ok u ↔
      (∀ i ∈ s.items.rows, i.taskId = taskId → i.deletedAt = none →
        ∀ u, i.completedBy = some u → u ∈ s.db.members) ∧ u = s0 :=
    fun u => (deleteChecklists_ok hlists).trans (and_congr hlists.completers_iff Iff.rfl)
  have hrequest : ∀ q : ApprovalRequestRow, liveRequest taskId q = true ↔
      q.taskId = taskId ∧ q.deletedAt = none := fun q => by simp [liveRequest]
  have hreviewer : ∀ v : ReviewerRow, liveReviewer taskId v = true ↔
      v.taskId = taskId ∧ v.deletedAt = none := fun v => by simp [liveReviewer]
  unfold closeDeletedTaskWorkflows
  constructor
  · intro hok
    obtain ⟨u, hu, hok⟩ := bind_ok.mp hok
    obtain ⟨hcompleters, rfl⟩ := (hchecklists u).mp hu
    obtain ⟨u, hu, hok⟩ := bind_ok.mp hok
    obtain ⟨-, -, rfl⟩ := (hcancel u).mp hu
    obtain ⟨hreviewers, hrequesters, hs'⟩ := hdelete.mp hok
    exact ⟨⟨hcompleters, fun q hq ht hd => hrequesters q hq ((hrequest q).mpr ⟨ht, hd⟩),
      fun v hv ht hd => hreviewers v hv ((hreviewer v).mpr ⟨ht, hd⟩)⟩, hs'⟩
  · rintro ⟨hc, hs'⟩
    refine bind_ok.mpr ⟨s0, (hchecklists s0).mpr ⟨hc.completers, rfl⟩, ?_⟩
    refine bind_ok.mpr ⟨s1, (hcancel s1).mpr ⟨fun q hq hsel => ?_, fun q hq hsel v hv ho => ?_, rfl⟩,
      hdelete.mpr ⟨?_, ?_, hs'⟩⟩
    · simp only [openRequest, Bool.and_eq_true, decide_eq_true_eq,
        Option.isNone_iff_eq_none] at hsel
      exact hc.requesters q hq hsel.1.1 hsel.2
    · simp only [openRequest, Bool.and_eq_true, decide_eq_true_eq] at hsel
      obtain ⟨hid, -, hlive⟩ := openOf_iff.mp ho
      obtain ⟨r, hr, -, htask, -⟩ := h.belongs v hv
      have hrq : r = q := Table.eq_of_mem (Table.mem_of_find? hr) hq
        ((Table.key_of_find? hr).trans hid)
      exact hc.reviewers v hv (htask.symm.trans (hrq ▸ hsel.1.1)) hlive
    · exact fun v hv hl => hc.reviewers v hv ((hreviewer v).mp hl).1 ((hreviewer v).mp hl).2
    · exact fun q hq hl => hc.requesters q hq ((hrequest q).mp hl).1 ((hrequest q).mp hl).2

/-! ### What a closed task leaves of the others -/

theorem Lists.closed (h : Lists s) (taskId : Uuid) (t : Timestamptz) : Lists (s.closed taskId t) := by
  have h' := h.withoutChecklists (fun c => c.taskId = taskId) t
  exact ⟨h'.scope, h'.belongs, h'.checks⟩

theorem Reviews.closed (h : Reviews s) (taskId : Uuid) (t : Timestamptz) :
    Reviews (s.closed taskId t) := by
  have hcanceled := (h.withoutChecklists (fun c => c.taskId = taskId) t).canceled
    (fun q _ (hsel : openRequest taskId q = true) => openRequest_pending hsel) t
  exact ⟨hcanceled.toRows.withoutReviews canceled_closed t, fun id b hb =>
    hcanceled.ballots id b ((ballot?_withoutReviews taskId t id).symm.trans hb)⟩

theorem Reviews.ballot?_closed (h : Reviews s) (taskId : Uuid) (t : Timestamptz) (id : Uuid) :
    (s.closed taskId t).ballot? id = s.ballot? id ∨
      ∃ b, s.ballot? id = some b ∧ b.status = .pending ∧
        (s.closed taskId t).ballot? id = some (b.close .canceled) := by
  have h0 := h.withoutChecklists (fun c => c.taskId = taskId) t
  unfold Store.closed
  rw [ballot?_withoutReviews]
  cases hq : s.requests.find? id with
  | none =>
    left
    rw [ballot?_eq_none.mpr hq]
    exact ballot?_canceled_none hq
  | some q =>
    have hb : s.ballot? id = some ⟨q.mode, q.status, s.votes id⟩ := ballot?_eq_some.mpr ⟨q, hq, rfl⟩
    rw [ballot?_canceled h0 hq]
    by_cases hsel : openRequest taskId q = true
    · rw [if_pos hsel]
      exact Or.inr ⟨_, hb, openRequest_pending hsel, rfl⟩
    · rw [if_neg hsel, hb]
      exact Or.inl rfl

end CalmBoard.Workflows
