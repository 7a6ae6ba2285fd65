import CalmBoard.Workflows.Ballot

/-!
# CalmBoard.Workflows.Statements — what a statement on approvals does with its triggers

The triggers run statements whose triggers run statements.  Here each kind of statement is reduced
to the rows it rewrites and the members it needs.

* `validateRequest_ok`, `reviewer_ok`: when a row may be written.
* `run_requests_eq`, `run_reviewers_eq`: statements that trigger nothing.
* `run_cancel_ok`, `run_decide_ok`: the two that do.
-/

namespace CalmBoard.Workflows

open Fallible

variable {s s' : Store}

theorem ApprovalRequestRow.set_id (q : ApprovalRequestRow) (change : RequestChange) :
    (q.set change).id = q.id := rfl

theorem ReviewerRow.set_id (v : ReviewerRow) (change : ReviewerChange) :
    (v.set change).id = v.id := rfl

/-! ### When a row may be written -/

variable {v : ReviewerRow} {q : ApprovalRequestRow}

/-- The task a workflow row points at is there, in the project of the row. -/
def Scoped (db : Db) (taskId projectId : Uuid) : Prop :=
  ∃ t, db.tasks.find? taskId = some t ∧ t.projectId = projectId

/-- The request a reviewer row points at is there, for the same task, and not deleted before it. -/
def Belongs (requests : Table ApprovalRequestRow ApprovalRequestRow.id) (v : ReviewerRow)
    (q : ApprovalRequestRow) : Prop :=
  requests.find? v.approvalRequestId = some q ∧ q.projectId = v.projectId ∧ q.taskId = v.taskId ∧
    (v.deletedAt = none → q.deletedAt = none)

theorem validateTaskWorkflowScope_ok {taskId projectId : Uuid} (h : Scoped s.db taskId projectId) :
    validateTaskWorkflowScope s taskId projectId false = .ok () := by
  obtain ⟨t, hfind, rfl⟩ := h
  unfold validateTaskWorkflowScope
  rw [hfind]
  simp

theorem activeMember_iff {userId : Uuid} : s.activeMember userId = true ↔ userId ∈ s.db.members := by
  unfold Store.activeMember
  rw [decide_eq_true_eq]

theorem validateRequest_ok {new : ApprovalRequestRow} (hscope : Scoped s.db new.taskId new.projectId)
    (hclosed : new.status ≠ .pending) (hresolved : new.resolvedAt ≠ none) :
    validateRequest s new = .ok () ↔ new.requestedBy ∈ s.db.members := by
  have hlive : (new.deletedAt.isNone && decide (new.status = .pending)) = false := by simp [hclosed]
  unfold validateRequest
  rw [hlive, then_ok, and_iff_right (validateTaskWorkflowScope_ok hscope), ← activeMember_iff]
  simp only [throw_bind, guard_ok]
  simp [resolutionCheck, hclosed, hresolved]

theorem reviewer_ok {new : ReviewerRow} (hbelongs : Belongs s.requests new q)
    (hcheck : decisionCheck new = .ok ()) :
    validateTaskApprovalReviewer s (some v) new = .ok () ↔
      new.reviewerId ∈ s.db.members ∧ validateStatusChange s q v new = .ok () := by
  obtain ⟨hfind, hproject, htask, hlive⟩ := hbelongs
  have hdeleted : ¬(new.deletedAt.isNone = true ∧ q.deletedAt.isSome = true) := by
    rintro ⟨hnew, hq⟩
    rw [Option.isNone_iff_eq_none] at hnew
    rw [hlive hnew] at hq
    cases hq
  unfold validateTaskApprovalReviewer
  rw [hfind]
  simp only [then_ok, throw_bind, guard_ok, hcheck, hproject, htask]
  rw [← activeMember_iff]
  simp only [hdeleted]
  simp

theorem statusChange_ok {new : ReviewerRow}
    (h : new.status = v.status ∨ v.status = .pending ∧ new.status = .skipped) :
    validateStatusChange s q v new = .ok () := by
  unfold validateStatusChange
  rcases h with h | ⟨hv, hnew⟩
  · simp [h]
  · simp [hv, hnew, ReviewerStatus.decided]

theorem statusDecision_ok {new : ReviewerRow} (hv : v.status = .pending)
    (hnew : new.status.decided = true) :
    validateStatusChange s q v new = .ok () ↔ q.status = .pending ∧ (q.mode = .sequential →
      ∀ w ∈ s.reviewers.rows, w.approvalRequestId = new.approvalRequestId → w.open = true →
        new.sequence ≤ w.sequence) := by
  have hne : v.status ≠ new.status := by
    intro he
    rw [← he, hv] at hnew
    cases hnew
  have hearlier : (s.reviewers.rows.any fun earlier =>
      earlier.approvalRequestId = new.approvalRequestId && earlier.sequence < new.sequence &&
        earlier.open) = false ↔ ∀ w ∈ s.reviewers.rows,
          w.approvalRequestId = new.approvalRequestId → w.open = true →
            new.sequence ≤ w.sequence := by
    rw [List.any_eq_false]
    refine forall₂_congr fun w _ => ?_
    simp only [Bool.and_eq_true, decide_eq_true_eq, not_and, ← not_lt]
    exact ⟨fun h hr ho hlt => h ⟨hr, hlt⟩ ho, fun h ⟨hr, hlt⟩ ho => h hr ho hlt⟩
  unfold validateStatusChange
  rw [if_pos hne, ← hearlier]
  simp only [guard_ok, hv, hnew]
  simp

theorem reviewer_stable {new : ReviewerRow} (h : new.status = v.status ∨ new.status.decided = false)
    (U : Table ReviewerRow ReviewerRow.id) :
    validateTaskApprovalReviewer (reviewersPlace.set U s) (some v) new =
      validateTaskApprovalReviewer s (some v) new := by
  have hchange : ∀ q, validateStatusChange (reviewersPlace.set U s) q v new =
      validateStatusChange s q v new := by
    intro q
    unfold validateStatusChange
    rcases h with h | h <;> simp [h]
  unfold validateTaskApprovalReviewer
  simp only [hchange]
  rfl

/-! ### Changes -/

def resolving (status : ApprovalStatus) (t : Timestamptz) : RequestChange where
  status := some status
  resolvedAt := some (some t)
  updatedAt := t

def deletingRequest (t : Timestamptz) : RequestChange where
  deletedAt := some (some t)
  updatedAt := t

def skipping (t : Timestamptz) : ReviewerChange where
  status := some .skipped
  decidedAt := some (some t)
  updatedAt := t

def deletingReviewer (t : Timestamptz) : ReviewerChange where
  deletedAt := some (some t)
  updatedAt := t

def deciding (decision : TaskApprovalDecision) (comment : Option String) (t : Timestamptz) :
    ReviewerChange where
  status := some decision.status
  comment := some comment
  decidedAt := some (some t)
  updatedAt := t

/-- Requests that a statement rewrites. -/
def Store.updateRequests (s : Store) (selects : ApprovalRequestRow → Bool) (change : RequestChange) :
    Store :=
  { s with requests := s.requests.update selects (fun q => q.set change) fun q => q.set_id change }

/-- Reviewers that a statement rewrites. -/
def Store.updateReviewers (s : Store) (selects : ReviewerRow → Bool) (change : ReviewerChange) :
    Store :=
  { s with reviewers := s.reviewers.update selects (fun v => v.set change) fun v => v.set_id change }

theorem rows_updateReviewers (selects : ReviewerRow → Bool) (change : ReviewerChange) :
    (s.updateReviewers selects change).reviewers.rows =
      s.reviewers.rows.map fun v => if selects v then v.set change else v := rfl

theorem belongs_update {requests : Table ApprovalRequestRow ApprovalRequestRow.id}
    (h : Belongs requests v q) (selects : ApprovalRequestRow → Bool) (status : ApprovalStatus)
    (t : Timestamptz) :
    Belongs (requests.update selects (fun q => q.set (resolving status t))
      fun q => q.set_id _) v
      (if selects q then q.set (resolving status t) else q) := by
  obtain ⟨hfind, hrest⟩ := h
  refine ⟨by rw [Table.find?_update, hfind]; rfl, ?_⟩
  split
  · exact hrest
  · exact hrest

/-! ### Statements that trigger nothing -/

variable {change : ReviewerChange} {selects : ApprovalRequestRow → Bool} {depth : ℕ}

theorem run_requests_eq {change : RequestChange} (h : change.status ≠ some .canceled) :
    run (depth + 1) (.requests selects change) s =
      updateRows requestsPlace (fun s _ new => validateRequest s new) selects
        (fun q => q.set change) s := by
  simp only [run]
  refine bind_same fun t => ?_
  cases hstatus : change.status with
  | none => rfl
  | some status =>
    rw [Option.isSome_some, if_pos rfl]
    refine foldlM_same fun u q _ => ?_
    unfold closeTaskWorkflowChildren
    refine if_neg fun hclose => h ?_
    rw [hstatus, ← hclose.2]
    simp [ApprovalRequestRow.set, hstatus]

theorem run_reviewers_eq {selects : ReviewerRow → Bool}
    (h : ∀ status, change.status = some status → status.decided = false) :
    run (depth + 1) (.reviewers selects change) s =
      updateRows reviewersPlace
        (fun s old new => validateTaskApprovalReviewer s (some old) new) selects
        (fun v => v.set change) s := by
  simp only [run]
  refine bind_same fun t => ?_
  cases hstatus : change.status with
  | none => rfl
  | some status =>
    rw [Option.isSome_some, if_pos rfl]
    refine foldlM_same fun u v _ => ?_
    unfold syncTaskApprovalStatus
    refine if_neg fun hsync => ?_
    have hdecided : (v.set change).status = status := by simp [ReviewerRow.set, hstatus]
    rw [hdecided, h status hstatus] at hsync
    cases hsync.2

/-- Requests that take a status other than `canceled`, or are deleted. -/
theorem run_requests_ok {change : RequestChange} (h : change.status ≠ some .canceled)
    (hscope : ∀ q ∈ s.requests.rows, Scoped s.db q.taskId q.projectId)
    (hclosed : ∀ q ∈ s.requests.rows, selects q = true →
      (q.set change).status ≠ .pending ∧ (q.set change).resolvedAt ≠ none) :
    run (depth + 1) (.requests selects change) s = .ok s' ↔
      (∀ q ∈ s.requests.rows, selects q = true → q.requestedBy ∈ s.db.members) ∧
        s' = s.updateRequests selects change := by
  rw [run_requests_eq h, updateRows_ok (fun q => q.set_id change) fun _ _ _ _ => rfl]
  refine and_congr (forall₃_congr fun q hq hp => ?_) Iff.rfl
  exact validateRequest_ok (hscope q hq) (hclosed q hq hp).1 (hclosed q hq hp).2

/-! ### Statements that skip the open reviews -/

theorem reviewers_ok {selects : ReviewerRow → Bool}
    (hchange : change.status = none ∨ change.status = some .skipped)
    (hbelongs : ∀ v ∈ s.reviewers.rows, selects v = true → ∃ q, Belongs s.requests (v.set change) q)
    (hstatus : ∀ v ∈ s.reviewers.rows, selects v = true → change.status.isSome = true →
      v.status = .pending)
    (hcheck : ∀ v ∈ s.reviewers.rows, selects v = true → decisionCheck (v.set change) = .ok ()) :
    (∀ v ∈ s.reviewers.rows, selects v = true →
        validateTaskApprovalReviewer s (some v) (v.set change) = .ok ()) ↔
      ∀ v ∈ s.reviewers.rows, selects v = true → v.reviewerId ∈ s.db.members := by
  refine forall₃_congr fun v hv hp => ?_
  obtain ⟨q, hq⟩ := hbelongs v hv hp
  rw [reviewer_ok hq (hcheck v hv hp)]
  refine and_iff_left (statusChange_ok ?_)
  rcases hchange with hnone | hskip
  · exact Or.inl (by simp [ReviewerRow.set, hnone])
  · exact Or.inr ⟨hstatus v hv hp (by rw [hskip]; rfl), by simp [ReviewerRow.set, hskip]⟩

theorem set_undecided (hchange : change.status = none ∨ change.status = some .skipped) :
    (v.set change).status = v.status ∨ (v.set change).status.decided = false := by
  rcases hchange with h | h
  · exact Or.inl (by simp [ReviewerRow.set, h])
  · exact Or.inr (by simp [ReviewerRow.set, h, ReviewerStatus.decided])

theorem undecided_status (hchange : change.status = none ∨ change.status = some .skipped)
    (status : ReviewerStatus) (h : change.status = some status) : status.decided = false := by
  rcases hchange with hc | hc <;> rw [hc] at h <;> cases h
  rfl

theorem run_reviewers_ok {selects : ReviewerRow → Bool}
    (hchange : change.status = none ∨ change.status = some .skipped)
    (hbelongs : ∀ v ∈ s.reviewers.rows, selects v = true → ∃ q, Belongs s.requests (v.set change) q)
    (hstatus : ∀ v ∈ s.reviewers.rows, selects v = true → change.status.isSome = true →
      v.status = .pending)
    (hcheck : ∀ v ∈ s.reviewers.rows, selects v = true → decisionCheck (v.set change) = .ok ()) :
    run (depth + 1) (.reviewers selects change) s = .ok s' ↔
      (∀ v ∈ s.reviewers.rows, selects v = true → v.reviewerId ∈ s.db.members) ∧
        s' = s.updateReviewers selects change := by
  rw [run_reviewers_eq (undecided_status hchange), updateRows_ok (fun v => v.set_id change)
    fun v _ _ U => reviewer_stable (set_undecided hchange) U]
  exact and_congr (reviewers_ok hchange hbelongs hstatus hcheck) Iff.rfl

theorem openOf_iff {id : Uuid} : openOf id v = true ↔
    v.approvalRequestId = id ∧ v.status = .pending ∧ v.deletedAt = none := by
  unfold openOf ReviewerRow.open
  simp

theorem run_cancel_ok {t : Timestamptz}
    (hscope : ∀ q ∈ s.requests.rows, Scoped s.db q.taskId q.projectId)
    (hopen : ∀ q ∈ s.requests.rows, selects q = true → q.status = .pending)
    (hbelongs : ∀ v ∈ s.reviewers.rows, ∃ q, Belongs s.requests v q) :
    run (depth + 2) (.requests selects (resolving .canceled t)) s = .ok s' ↔
      (∀ q ∈ s.requests.rows, selects q = true → q.requestedBy ∈ s.db.members) ∧
        (∀ q ∈ s.requests.rows, selects q = true → ∀ v ∈ s.reviewers.rows, openOf q.id v = true →
          v.reviewerId ∈ s.db.members) ∧
        s' = (s.updateRequests selects (resolving .canceled t)).updateReviewers
          (fun v => (s.requests.rows.filter selects).any fun q => openOf q.id v) (skipping t) := by
  set s1 := s.updateRequests selects (resolving .canceled t)
  have hwrite : ∀ u, updateRows requestsPlace (fun s _ new => validateRequest s new) selects
      (fun q => q.set (resolving .canceled t)) s = .ok u ↔
        (∀ q ∈ s.requests.rows, selects q = true → q.requestedBy ∈ s.db.members) ∧ u = s1 := by
    intro u
    rw [updateRows_ok (fun q => q.set_id _) fun _ _ _ _ => rfl]
    refine and_congr (forall₃_congr fun q hq hp => ?_) Iff.rfl
    exact validateRequest_ok (hscope q hq) nofun nofun
  have hclose : ∀ u, (s.requests.rows.filter selects).foldlM (fun s q =>
      closeTaskWorkflowChildren (fun statement s => run (depth + 1) statement s) s q
        (q.set (resolving .canceled t))) u =
      (s.requests.rows.filter selects).foldlM (fun s q => updateRows reviewersPlace
        (fun s old new => validateTaskApprovalReviewer s (some old) new) (openOf q.id)
        (fun v => v.set (skipping t)) s) u := by
    intro u
    refine foldlM_congr fun s q hq => ?_
    obtain ⟨hq, hp⟩ := List.mem_filter.mp hq
    unfold closeTaskWorkflowChildren
    rw [if_pos ⟨hopen q hq hp, rfl⟩]
    exact run_reviewers_eq (undecided_status (Or.inr rfl))
  have hskip : (s.requests.rows.filter selects).foldlM (fun s q => updateRows reviewersPlace
      (fun s old new => validateTaskApprovalReviewer s (some old) new) (openOf q.id)
      (fun v => v.set (skipping t)) s) s1 = .ok s' ↔
        (∀ q ∈ s.requests.rows.filter selects, ∀ v ∈ s1.reviewers.rows, openOf q.id v = true →
          validateTaskApprovalReviewer s1 (some v) (v.set (skipping t)) = .ok ()) ∧
        s' = s1.updateReviewers
          (fun v => (s.requests.rows.filter selects).any fun q => openOf q.id v) (skipping t) :=
    foldlM_updateRows (fun v => v.set_id (skipping t))
      (fun a b v _ => by simp [openOf, ReviewerRow.open, ReviewerRow.set, skipping]) _ _
      fun q v U _ => reviewer_stable (set_undecided (Or.inr rfl)) U
  have hmembers : (∀ q ∈ s.requests.rows.filter selects, ∀ v ∈ s1.reviewers.rows,
      openOf q.id v = true →
        validateTaskApprovalReviewer s1 (some v) (v.set (skipping t)) = .ok ()) ↔
      ∀ q ∈ s.requests.rows, selects q = true → ∀ v ∈ s.reviewers.rows, openOf q.id v = true →
        v.reviewerId ∈ s.db.members := by
    rw [List.forall_mem_filter]
    refine forall₃_congr fun q hq hp => ?_
    refine reviewers_ok (Or.inr rfl) (fun v hv _ => ?_) (fun v _ hv _ => (openOf_iff.mp hv).2.1)
      fun v _ _ => rfl
    obtain ⟨q, hq⟩ := hbelongs v hv
    exact ⟨_, belongs_update hq selects .canceled t⟩
  simp only [run, resolving, Option.isSome_some, if_true]
  rw [bind_ok]
  constructor
  · rintro ⟨u, hu, h⟩
    obtain ⟨hrequesters, rfl⟩ := (hwrite u).mp hu
    obtain ⟨hreviewers, hs'⟩ := hskip.mp ((hclose s1).symm.trans h)
    exact ⟨hrequesters, hmembers.mp hreviewers, hs'⟩
  · rintro ⟨hrequesters, hreviewers, hs'⟩
    refine ⟨s1, (hwrite s1).mpr ⟨hrequesters, rfl⟩, (hclose s1).trans ?_⟩
    exact hskip.mpr ⟨hmembers.mpr hreviewers, hs'⟩

/-! ### A decision -/

/-- The store after the decision is written, before the request follows. -/
def Store.decided (s : Store) (v : ReviewerRow) (change : ReviewerChange) : Store :=
  s.updateReviewers (fun w => w.id = v.id) change

/-- The store after the request has followed a decision. -/
def Store.settled (s : Store) (requestId voterId : Uuid) (status : ApprovalStatus) : Store :=
  (s.updateRequests (fun q => q.id = requestId) (resolving status s.db.now)).updateReviewers
    (fun w => openOf requestId w && w.id ≠ voterId) (skipping s.db.now)

theorem settle_ok {requestId voterId : Uuid} {status : ApprovalStatus}
    (hscope : ∀ q ∈ s.requests.rows, Scoped s.db q.taskId q.projectId)
    (hbelongs : ∀ v ∈ s.reviewers.rows, ∃ q, Belongs s.requests v q)
    (hq : s.requests.find? requestId = some q) (hstatus : status = .rejected ∨ status = .approved) :
    (do
      let t ← run (depth + 1)
        (.requests (fun q => q.id = requestId) (resolving status s.db.now)) s
      run (depth + 1) (.reviewers (fun w => openOf requestId w && w.id ≠ voterId)
        (skipping t.db.now)) t) = .ok s' ↔
      q.requestedBy ∈ s.db.members ∧
        (∀ w ∈ s.reviewers.rows, openOf requestId w = true → w.id ≠ voterId →
          w.reviewerId ∈ s.db.members) ∧
        s' = s.settled requestId voterId status := by
  set s1 := s.updateRequests (fun q => q.id = requestId) (resolving status s.db.now)
  have hrequests : ∀ t, run (depth + 1)
      (.requests (fun q => q.id = requestId) (resolving status s.db.now)) s = .ok t ↔
        q.requestedBy ∈ s.db.members ∧ t = s1 := by
    intro t
    have hne : (resolving status s.db.now).status ≠ some .canceled := by
      rcases hstatus with rfl | rfl <;> simp [resolving]
    have hclosed : status ≠ .pending := by
      rcases hstatus with rfl | rfl <;> decide
    rw [run_requests_ok hne hscope fun q _ _ => ⟨hclosed, nofun⟩]
    refine and_congr ?_ Iff.rfl
    constructor
    · exact fun h => h q (Table.mem_of_find? hq) (by simpa using Table.key_of_find? hq)
    · intro h x hx hid
      have hxq : x = q := Table.eq_of_mem hx (Table.mem_of_find? hq)
        ((of_decide_eq_true hid).trans (Table.key_of_find? hq).symm)
      exact hxq ▸ h
  have hreviewers : run (depth + 1) (.reviewers (fun w => openOf requestId w && w.id ≠ voterId)
      (skipping s1.db.now)) s1 = .ok s' ↔
        (∀ w ∈ s.reviewers.rows, openOf requestId w = true → w.id ≠ voterId →
          w.reviewerId ∈ s.db.members) ∧ s' = s.settled requestId voterId status := by
    rw [run_reviewers_ok (Or.inr rfl) (fun v hv _ => ?_) (fun v _ hp _ => ?_) fun _ _ _ => rfl]
    · refine and_congr ?_ Iff.rfl
      simp only [Bool.and_eq_true, decide_eq_true_eq, and_imp]
      exact Iff.rfl
    · obtain ⟨q, hq⟩ := hbelongs v hv
      exact ⟨_, belongs_update hq (fun q => q.id = requestId) status s.db.now⟩
    · rw [Bool.and_eq_true] at hp
      exact (openOf_iff.mp hp.1).2.1
  rw [bind_ok]
  constructor
  · rintro ⟨t, ht, h⟩
    obtain ⟨hrequester, rfl⟩ := (hrequests t).mp ht
    exact ⟨hrequester, hreviewers.mp h⟩
  · rintro ⟨hrequester, h⟩
    exact ⟨s1, (hrequests s1).mpr ⟨hrequester, rfl⟩, hreviewers.mpr h⟩

theorem mem_decided {w : ReviewerRow} (h : w.id ≠ v.id) :
    w ∈ (s.decided v change).reviewers.rows ↔ w ∈ s.reviewers.rows := by
  rw [Store.decided, rows_updateReviewers, List.mem_map]
  constructor
  · rintro ⟨x, hx, rfl⟩
    by_cases hid : x.id = v.id
    · rw [if_pos (by simpa using hid)] at h
      exact absurd hid h
    · rwa [if_neg (by simpa using hid)]
  · intro hw
    exact ⟨w, hw, by simp [h]⟩

theorem belongs_decided (hbelongs : ∀ w ∈ s.reviewers.rows, ∃ q, Belongs s.requests w q)
    (hlive : change.deletedAt = none) :
    ∀ w ∈ (s.decided v change).reviewers.rows, ∃ q, Belongs s.requests w q := by
  intro w hw
  rw [Store.decided, rows_updateReviewers] at hw
  obtain ⟨x, hx, rfl⟩ := List.mem_map.mp hw
  obtain ⟨q, hq⟩ := hbelongs x hx
  refine ⟨q, ?_⟩
  split
  · refine ⟨hq.1, hq.2.1, hq.2.2.1, fun h => hq.2.2.2 ?_⟩
    simpa [ReviewerRow.set, hlive] using h
  · exact hq

/-- **Decision**: the voter is a member whose turn it is; the request stays open, or it takes its
status and the other open reviews are skipped. -/
theorem run_decide_ok {decision : TaskApprovalDecision} {comment : Option String} {t : Timestamptz}
    (hscope : ∀ q ∈ s.requests.rows, Scoped s.db q.taskId q.projectId)
    (hbelongs : ∀ v ∈ s.reviewers.rows, ∃ q, Belongs s.requests v q) (hv : v ∈ s.reviewers.rows)
    (hpending : v.status = .pending) (hq : Belongs s.requests v q) (hopen : q.status = .pending) :
    run (depth + 2) (.reviewers (fun w => w.id = v.id) (deciding decision comment t)) s = .ok s' ↔
      v.reviewerId ∈ s.db.members ∧ (q.mode = .sequential → ∀ w ∈ s.reviewers.rows,
        w.approvalRequestId = v.approvalRequestId → w.open = true → v.sequence ≤ w.sequence) ∧
      match finalStatus (s.decided v (deciding decision comment t)) q
          (v.set (deciding decision comment t)) with
      | none => s' = s.decided v (deciding decision comment t)
      | some status => q.requestedBy ∈ s.db.members ∧
          (∀ w ∈ s.reviewers.rows, openOf v.approvalRequestId w = true → w.id ≠ v.id →
            w.reviewerId ∈ s.db.members) ∧
          s' = (s.decided v (deciding decision comment t)).settled v.approvalRequestId v.id
            status := by
  set change := deciding decision comment t
  have hdecided : (v.set change).status.decided = true := by cases decision <;> rfl
  have hcheck : decisionCheck (v.set change) = .ok () := by cases decision <;> rfl
  have hsingle : ∀ x ∈ s.reviewers.rows, decide (x.id = v.id) = true ↔ x = v := by
    intro x hx
    rw [decide_eq_true_eq]
    exact ⟨fun h => Table.eq_of_mem hx hv h, fun h => h ▸ rfl⟩
  have hwrite : ∀ u, updateRows reviewersPlace
      (fun s old new => validateTaskApprovalReviewer s (some old) new) (fun w => w.id = v.id)
      (fun w => w.set change) s = .ok u ↔
        (v.reviewerId ∈ s.db.members ∧ (q.mode = .sequential → ∀ w ∈ s.reviewers.rows,
          w.approvalRequestId = v.approvalRequestId → w.open = true → v.sequence ≤ w.sequence)) ∧
        u = s.decided v change := by
    intro u
    have hset : Belongs s.requests (v.set change) q := ⟨hq.1, hq.2.1, hq.2.2.1, hq.2.2.2⟩
    rw [updateRows_single (fun w => w.set_id change) hv hsingle, reviewer_ok hset hcheck,
      statusDecision_ok hpending hdecided, and_iff_right hopen]
    exact Iff.rfl
  have hrows : s.reviewers.rows.filter (fun w => w.id = v.id) = [v] := Table.filter_single hv hsingle
  have hfind : (s.decided v change).requests.find? (v.set change).approvalRequestId = some q := hq.1
  have hsync : syncTaskApprovalStatus (fun statement s => run (depth + 1) statement s)
      (s.decided v change) v (v.set change) = .ok s' ↔
        match finalStatus (s.decided v change) q (v.set change) with
        | none => s' = s.decided v change
        | some status => q.requestedBy ∈ s.db.members ∧
            (∀ w ∈ s.reviewers.rows, openOf v.approvalRequestId w = true → w.id ≠ v.id →
              w.reviewerId ∈ s.db.members) ∧
            s' = (s.decided v change).settled v.approvalRequestId v.id status := by
    unfold syncTaskApprovalStatus
    rw [if_pos ⟨hpending, hdecided⟩]
    simp only [hfind, hopen, if_true]
    cases hfinal : finalStatus (s.decided v change) q (v.set change) with
    | none =>
      simp only [Except.ok.injEq]
      exact eq_comm
    | some status =>
      have hstatus : status = .rejected ∨ status = .approved := by
        unfold finalStatus at hfinal
        split_ifs at hfinal <;> cases hfinal <;> simp
      refine (settle_ok (s := s.decided v change) hscope (belongs_decided hbelongs rfl) hq.1
        hstatus).trans ?_
      refine and_congr Iff.rfl (and_congr (forall_congr' fun w => ?_) Iff.rfl)
      constructor
      · exact fun h hw ho hne => h ((mem_decided hne).mpr hw) ho hne
      · exact fun h hw ho hne => h ((mem_decided hne).mp hw) ho hne
  simp only [run]
  rw [bind_ok, hrows]
  have hsome : change.status.isSome = true := rfl
  simp only [hsome, if_true, List.foldlM_cons, List.foldlM_nil]
  constructor
  · rintro ⟨u, hu, h⟩
    obtain ⟨⟨hmember, hturn⟩, rfl⟩ := (hwrite u).mp hu
    rw [bind_pure] at h
    exact ⟨hmember, hturn, hsync.mp h⟩
  · rintro ⟨hmember, hturn, h⟩
    refine ⟨_, (hwrite _).mpr ⟨⟨hmember, hturn⟩, rfl⟩, ?_⟩
    rw [bind_pure]
    exact hsync.mpr h

end CalmBoard.Workflows
