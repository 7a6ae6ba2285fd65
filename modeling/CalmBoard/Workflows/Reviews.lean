import CalmBoard.Workflows.Statements

/-!
# CalmBoard.Workflows.Reviews — approval requests as ballots

A request with its reviewer rows is a ballot; `Reviews` is what the triggers keep of the two tables,
and that every ballot is sound.

* `Store.ballot?`: the ballot of a request.
* `votes_decided`, `votes_settled`, `ballot?_canceled`: what statements do to ballots.
* `decideApproval_ok`, `cancelApproval_ok`: when a call succeeds, and what it leaves.
-/

namespace CalmBoard.Workflows

open Fallible

variable {s s' : Store}

def ReviewerRow.vote (v : ReviewerRow) : Vote := ⟨v.id, v.sequence, v.status⟩

def Store.votes (s : Store) (requestId : Uuid) : List Vote :=
  (s.reviewers.rows.filter fun v => v.approvalRequestId = requestId).map ReviewerRow.vote

def Store.ballot? (s : Store) (requestId : Uuid) : Option Ballot :=
  (s.requests.find? requestId).map fun q => ⟨q.mode, q.status, s.votes requestId⟩

/-- What the triggers keep of the rows of requests and reviewers. -/
structure Rows (s : Store) : Prop where
  scope : ∀ q ∈ s.requests.rows, Scoped s.db q.taskId q.projectId
  resolution : ∀ q ∈ s.requests.rows, q.status = .pending ↔ q.resolvedAt = none
  live : ∀ q ∈ s.requests.rows, q.status = .pending → q.deletedAt = none
  belongs : ∀ v ∈ s.reviewers.rows, ∃ q, Belongs s.requests v q
  /-- reviewers are not deleted before their request -/
  kept : ∀ v ∈ s.reviewers.rows, ∀ q, s.requests.find? v.approvalRequestId = some q →
    q.deletedAt = none → v.deletedAt = none
  decision : ∀ v ∈ s.reviewers.rows, v.status = .pending ↔ v.decidedAt = none
  voters : ∀ v ∈ s.reviewers.rows, ∀ w ∈ s.reviewers.rows,
    v.approvalRequestId = w.approvalRequestId → v.reviewerId = w.reviewerId → v.id = w.id

/-- The rows, and what they say together. -/
structure Reviews (s : Store) : Prop extends Rows s where
  ballots : ∀ id b, s.ballot? id = some b → b.Sound

/-! ### Votes -/

variable {change : ReviewerChange} {id : Uuid}

theorem mem_votes {w : Vote} : w ∈ s.votes id ↔
    ∃ v ∈ s.reviewers.rows, v.approvalRequestId = id ∧ v.vote = w := by
  unfold Store.votes
  rw [List.mem_map]
  simp only [List.mem_filter, decide_eq_true_eq, and_assoc]

theorem votes_update {selects : ReviewerRow → Bool} {g : Vote → Vote}
    (h : ∀ v ∈ s.reviewers.rows, v.approvalRequestId = id →
      (if selects v then v.set change else v).vote = g v.vote) :
    (s.updateReviewers selects change).votes id = (s.votes id).map g := by
  have hsame : (fun v : ReviewerRow => decide (v.approvalRequestId = id)) ∘
      (fun v => if selects v then v.set change else v) =
        fun v => decide (v.approvalRequestId = id) := by
    funext v
    simp only [Function.comp_apply]
    split <;> rfl
  unfold Store.votes
  rw [rows_updateReviewers, List.filter_map, hsame, List.map_map, List.map_map]
  refine List.map_congr_left fun v hv => ?_
  obtain ⟨hv, hid⟩ := List.mem_filter.mp hv
  exact h v hv (of_decide_eq_true hid)

theorem votes_same {selects : ReviewerRow → Bool}
    (h : ∀ v ∈ s.reviewers.rows, v.approvalRequestId = id →
      (if selects v then v.set change else v).vote = v.vote) :
    (s.updateReviewers selects change).votes id = s.votes id :=
  (votes_update (g := fun w => w) h).trans (List.map_id _)

theorem ballot?_eq_some {b : Ballot} : s.ballot? id = some b ↔
    ∃ q, s.requests.find? id = some q ∧ b = ⟨q.mode, q.status, s.votes id⟩ := by
  unfold Store.ballot?
  rw [Option.map_eq_some_iff]
  exact exists_congr fun q => and_congr Iff.rfl eq_comm

theorem find?_updateRequests (selects : ApprovalRequestRow → Bool) (change : RequestChange)
    (id : Uuid) : (s.updateRequests selects change).requests.find? id =
      (s.requests.find? id).map fun q => if selects q then q.set change else q :=
  Table.find?_update _ _ _ (fun q => q.set_id change) id

/-! ### Rows under a statement -/

variable {selects : ApprovalRequestRow → Bool}

theorem Rows.updateRequests (h : Rows s) {change : RequestChange}
    (hdeleted : change.deletedAt = none)
    (hclosed : ∀ q ∈ s.requests.rows, selects q = true →
      (q.set change).status ≠ .pending ∧ (q.set change).resolvedAt ≠ none) :
    Rows (s.updateRequests selects change) where
  scope q hq := by
    obtain ⟨r, hr, rfl⟩ := List.mem_map.mp hq
    split <;> exact h.scope r hr
  resolution q hq := by
    obtain ⟨r, hr, rfl⟩ := List.mem_map.mp hq
    split
    · next hsel => exact iff_of_false (hclosed r hr hsel).1 (hclosed r hr hsel).2
    · exact h.resolution r hr
  live q hq := by
    obtain ⟨r, hr, rfl⟩ := List.mem_map.mp hq
    split
    · next hsel => exact fun hp => absurd hp (hclosed r hr hsel).1
    · exact h.live r hr
  belongs v hv := by
    obtain ⟨q, hq, hproject, htask, hlive⟩ := h.belongs v hv
    refine ⟨if selects q then q.set change else q, ?_, ?_⟩
    · rw [find?_updateRequests, hq]
      rfl
    · split
      · exact ⟨hproject, htask, fun hv => by simp [ApprovalRequestRow.set, hdeleted, hlive hv]⟩
      · exact ⟨hproject, htask, hlive⟩
  kept v hv q hq hlive := by
    rw [find?_updateRequests, Option.map_eq_some_iff] at hq
    obtain ⟨r, hr, rfl⟩ := hq
    refine h.kept v hv r hr ?_
    split at hlive
    · simpa [ApprovalRequestRow.set, hdeleted] using hlive
    · exact hlive
  decision := h.decision
  voters := h.voters

theorem Rows.updateReviewers (h : Rows s) {selects : ReviewerRow → Bool}
    (hdeleted : change.deletedAt = none)
    (hdecision : ∀ v ∈ s.reviewers.rows, selects v = true →
      ((v.set change).status = .pending ↔ (v.set change).decidedAt = none)) :
    Rows (s.updateReviewers selects change) where
  scope := h.scope
  resolution := h.resolution
  live := h.live
  belongs v hv := by
    obtain ⟨w, hw, rfl⟩ := List.mem_map.mp hv
    obtain ⟨q, hq, hproject, htask, hlive⟩ := h.belongs w hw
    refine ⟨q, ?_⟩
    split
    · exact ⟨hq, hproject, htask, fun hv => hlive (by simpa [ReviewerRow.set, hdeleted] using hv)⟩
    · exact ⟨hq, hproject, htask, hlive⟩
  kept v hv q hq hlive := by
    obtain ⟨w, hw, rfl⟩ := List.mem_map.mp hv
    have hfind : s.requests.find? w.approvalRequestId = some q := by
      split at hq <;> exact hq
    have hw := h.kept w hw q hfind hlive
    split
    · simpa [ReviewerRow.set, hdeleted] using hw
    · exact hw
  decision v hv := by
    obtain ⟨w, hw, rfl⟩ := List.mem_map.mp hv
    split
    · next hsel => exact hdecision w hw hsel
    · exact h.decision w hw
  voters v hv w hw := by
    obtain ⟨v', hv', rfl⟩ := List.mem_map.mp hv
    obtain ⟨w', hw', rfl⟩ := List.mem_map.mp hw
    have hsame := h.voters v' hv' w' hw'
    split <;> split <;> exact hsame

/-! ### Open reviews -/

theorem Reviews.pending_request (h : Reviews s) {v : ReviewerRow} (hv : v ∈ s.reviewers.rows)
    (hpending : v.status = .pending) {q : ApprovalRequestRow}
    (hq : s.requests.find? v.approvalRequestId = some q) : q.status = .pending := by
  by_contra hclosed
  have hsound := h.ballots _ _ (ballot?_eq_some.mpr ⟨q, hq, rfl⟩)
  exact hsound.closed hclosed v.vote (mem_votes.mpr ⟨v, hv, rfl, rfl⟩) hpending

theorem Reviews.open_iff (h : Reviews s) {v : ReviewerRow} (hv : v ∈ s.reviewers.rows) :
    v.open = true ↔ v.status = .pending := by
  unfold ReviewerRow.open
  rw [Bool.and_eq_true, decide_eq_true_eq, Option.isNone_iff_eq_none]
  refine ⟨And.left, fun hpending => ⟨hpending, ?_⟩⟩
  obtain ⟨q, hq⟩ := h.belongs v hv
  have hopen := h.pending_request hv hpending hq.1
  exact h.kept v hv q hq.1 (h.live q (Table.mem_of_find? hq.1) hopen)

theorem Reviews.skip_vote (h : Reviews s) {v : ReviewerRow} (hv : v ∈ s.reviewers.rows)
    (t : Timestamptz) : (if v.open then v.set (skipping t) else v).vote = v.vote.skip := by
  unfold Vote.skip
  by_cases hpending : v.status = .pending
  · rw [if_pos ((h.open_iff hv).mpr hpending)]
    exact (if_pos hpending).symm
  · rw [if_neg fun ho => hpending ((h.open_iff hv).mp ho)]
    exact (if_neg hpending).symm

/-! ### Cancellation -/

/-- The store after the requests that `selects` are canceled. -/
def Store.canceled (s : Store) (selects : ApprovalRequestRow → Bool) (t : Timestamptz) : Store :=
  (s.updateRequests selects (resolving .canceled t)).updateReviewers
    (fun v => (s.requests.rows.filter selects).any fun q => openOf q.id v) (skipping t)

theorem any_openOf {v : ReviewerRow} {q : ApprovalRequestRow}
    (hq : s.requests.find? v.approvalRequestId = some q) :
    ((s.requests.rows.filter selects).any fun q => openOf q.id v) = (selects q && v.open) := by
  have hid := Table.key_of_find? hq
  rw [Bool.eq_iff_iff, List.any_eq_true, Bool.and_eq_true]
  constructor
  · rintro ⟨x, hx, ho⟩
    obtain ⟨hx, hsel⟩ := List.mem_filter.mp hx
    rw [openOf, Bool.and_eq_true, decide_eq_true_eq] at ho
    have hxq : x = q := Table.eq_of_mem hx (Table.mem_of_find? hq) (ho.1.symm.trans hid.symm)
    exact ⟨hxq ▸ hsel, ho.2⟩
  · rintro ⟨hsel, ho⟩
    refine ⟨q, List.mem_filter.mpr ⟨Table.mem_of_find? hq, hsel⟩, ?_⟩
    simp [openOf, hid, ho]

theorem ballot?_canceled (h : Reviews s) {t : Timestamptz} {q : ApprovalRequestRow}
    (hq : s.requests.find? id = some q) :
    (s.canceled selects t).ballot? id =
      some (if selects q then Ballot.close ⟨q.mode, q.status, s.votes id⟩ .canceled
        else ⟨q.mode, q.status, s.votes id⟩) := by
  have hfind : (s.canceled selects t).requests.find? id =
      some (if selects q then q.set (resolving .canceled t) else q) := by
    refine (find?_updateRequests selects (resolving .canceled t) id).trans ?_
    rw [hq]
    rfl
  have hvotes : (s.canceled selects t).votes id =
      if selects q then (s.votes id).map Vote.skip else s.votes id := by
    by_cases hsel : selects q = true
    · rw [if_pos hsel]
      refine votes_update fun v hv hid => ?_
      rw [any_openOf (hid.symm ▸ hq), hsel, Bool.true_and]
      exact h.skip_vote hv t
    · rw [if_neg hsel]
      refine votes_same fun v hv hid => ?_
      rw [Bool.not_eq_true] at hsel
      rw [any_openOf (hid.symm ▸ hq), hsel, Bool.false_and]
      rfl
  rw [ballot?_eq_some]
  refine ⟨_, hfind, ?_⟩
  rw [hvotes]
  split <;> rfl

theorem ballot?_eq_none : s.ballot? id = none ↔ s.requests.find? id = none := by
  unfold Store.ballot?
  exact Option.map_eq_none_iff

theorem ballot?_canceled_none {t : Timestamptz} (hq : s.requests.find? id = none) :
    (s.canceled selects t).ballot? id = none :=
  ballot?_eq_none.mpr ((find?_updateRequests selects (resolving .canceled t) id).trans
    (congrArg (Option.map _) hq))

theorem Reviews.canceled (h : Reviews s)
    (hopen : ∀ q ∈ s.requests.rows, selects q = true → q.status = .pending) (t : Timestamptz) :
    Reviews (s.canceled selects t) where
  toRows := by
    have hrequests : Rows (s.updateRequests selects (resolving .canceled t)) :=
      h.toRows.updateRequests rfl fun _ _ _ => ⟨nofun, nofun⟩
    exact hrequests.updateReviewers rfl fun _ _ _ => ⟨nofun, nofun⟩
  ballots id b hb := by
    cases hq : s.requests.find? id with
    | none =>
      rw [ballot?_canceled_none hq] at hb
      cases hb
    | some q =>
      have hsound := h.ballots id _ (ballot?_eq_some.mpr ⟨q, hq, rfl⟩)
      rw [ballot?_canceled h hq, Option.some.injEq] at hb
      split at hb
      · next hsel => exact hb ▸ hsound.canceling (hopen q (Table.mem_of_find? hq) hsel)
      · exact hb ▸ hsound

/-! ### Decisions -/

variable {requestId actorId : Uuid}

section Decision

variable {v : ReviewerRow} {q : ApprovalRequestRow} {decision : TaskApprovalDecision}
  {comment : Option String} {t : Timestamptz}

theorem mark_vote (v w : ReviewerRow) (decision : TaskApprovalDecision) (comment : Option String)
    (t : Timestamptz) :
    (if decide (w.id = v.id) then w.set (deciding decision comment t) else w).vote =
      w.vote.mark v.id decision := by
  unfold Vote.mark
  by_cases hid : w.id = v.id
  · rw [if_pos (decide_eq_true hid)]
    exact (if_pos hid).symm
  · rw [if_neg (by simpa using hid)]
    exact (if_neg hid).symm

theorem votes_decided (comment : Option String) (t : Timestamptz) (id : Uuid) :
    (s.decided v (deciding decision comment t)).votes id =
      (s.votes id).map (Vote.mark v.id decision) :=
  votes_update fun w _ _ => mark_vote v w decision comment t

theorem votes_decided_other (hv : v ∈ s.reviewers.rows) (change : ReviewerChange)
    (hid : id ≠ v.approvalRequestId) : (s.decided v change).votes id = s.votes id := by
  refine votes_same fun w hw hrequest => ?_
  rw [if_neg]
  intro he
  have hwv : w = v := Table.eq_of_mem hw hv (of_decide_eq_true he)
  exact hid (hwv ▸ hrequest.symm)

theorem mem_rows_decided (hv : v ∈ s.reviewers.rows) {w : ReviewerRow} :
    w ∈ (s.decided v (deciding decision comment t)).reviewers.rows ↔
      w = v.set (deciding decision comment t) ∨ w.id ≠ v.id ∧ w ∈ s.reviewers.rows := by
  rw [Store.decided, rows_updateReviewers, List.mem_map]
  constructor
  · rintro ⟨x, hx, rfl⟩
    by_cases hid : x.id = v.id
    · rw [if_pos (decide_eq_true hid)]
      exact Or.inl (by rw [Table.eq_of_mem hx hv hid])
    · rw [if_neg (by simpa using hid)]
      exact Or.inr ⟨hid, hx⟩
  · rintro (rfl | ⟨hid, hw⟩)
    · exact ⟨v, hv, if_pos (decide_eq_true rfl)⟩
    · exact ⟨w, hw, if_neg (by simpa using hid)⟩

theorem decided_ne_pending (decision : TaskApprovalDecision) : decision.status ≠ .pending := by
  cases decision <;> decide

theorem Reviews.open_decided (h : Reviews s) (hv : v ∈ s.reviewers.rows) {w : ReviewerRow}
    (hw : w ∈ (s.decided v (deciding decision comment t)).reviewers.rows) :
    w.open = true ↔ w.status = .pending := by
  rcases (mem_rows_decided hv).mp hw with rfl | ⟨-, hw⟩
  · have hne : (v.set (deciding decision comment t)).status ≠ .pending := decided_ne_pending decision
    exact iff_of_false (by simp [ReviewerRow.open, hne]) hne
  · exact h.open_iff hw

theorem Reviews.finalStatus_eq (h : Reviews s) (hv : v ∈ s.reviewers.rows) :
    finalStatus (s.decided v (deciding decision comment t)) q
        (v.set (deciding decision comment t)) =
      Ballot.outcome q.mode decision
        ((s.votes v.approvalRequestId).map (Vote.mark v.id decision)) := by
  set s1 := s.decided v (deciding decision comment t)
  have hrejected : (v.set (deciding decision comment t)).status = .rejected ↔
      decision = .rejected := by
    cases decision <;> simp [ReviewerRow.set, deciding, TaskApprovalDecision.status]
  have hany : s1.reviewers.rows.any (openOf v.approvalRequestId) = true ↔
      ∃ w ∈ (s.votes v.approvalRequestId).map (Vote.mark v.id decision), w.status = .pending := by
    rw [← votes_decided comment t, List.any_eq_true]
    constructor
    · rintro ⟨w, hw, ho⟩
      obtain ⟨hid, hpending, -⟩ := openOf_iff.mp ho
      exact ⟨w.vote, mem_votes.mpr ⟨w, hw, hid, rfl⟩, hpending⟩
    · rintro ⟨_, hvote, hpending⟩
      obtain ⟨w, hw, hid, rfl⟩ := mem_votes.mp hvote
      refine ⟨w, hw, ?_⟩
      rw [openOf, (h.open_decided hv hw).mpr hpending, Bool.and_true]
      exact decide_eq_true hid
  unfold finalStatus Ballot.outcome
  simp only [hrejected]
  split_ifs with h1 h2 h3 h4 h4
  · rfl
  · rfl
  · rfl
  · exact absurd (hany.mp h3) h4
  · exact absurd (hany.mpr h4) h3
  · rfl

/-- Where a decision leads. -/
def Store.followed (s : Store) (v : ReviewerRow) (q : ApprovalRequestRow)
    (change : ReviewerChange) : Store :=
  match finalStatus (s.decided v change) q (v.set change) with
  | none => s.decided v change
  | some status => (s.decided v change).settled v.approvalRequestId v.id status

theorem followed_of_none (h : finalStatus (s.decided v change) q (v.set change) = none) :
    s.followed v q change = s.decided v change := by
  unfold Store.followed
  rw [h]

theorem followed_of_some {status : ApprovalStatus}
    (h : finalStatus (s.decided v change) q (v.set change) = some status) :
    s.followed v q change =
      (s.decided v change).settled v.approvalRequestId v.id status := by
  unfold Store.followed
  rw [h]

theorem Reviews.votes_settled (h : Reviews s) (hv : v ∈ s.reviewers.rows)
    (status : ApprovalStatus) :
    ((s.decided v (deciding decision comment t)).settled v.approvalRequestId v.id status).votes
        v.approvalRequestId =
      ((s.votes v.approvalRequestId).map (Vote.mark v.id decision)).map Vote.skip := by
  rw [← votes_decided comment t]
  refine votes_update fun w hw hid => ?_
  have hopen := h.open_decided hv hw
  unfold Vote.skip
  rcases (mem_rows_decided hv).mp hw with rfl | ⟨hne, -⟩
  · have hsel : (openOf v.approvalRequestId (v.set (deciding decision comment t)) &&
        decide ((v.set (deciding decision comment t)).id ≠ v.id)) = false := by
      simp [ReviewerRow.set_id]
    rw [hsel]
    exact (if_neg (decided_ne_pending decision)).symm
  · by_cases hpending : w.status = .pending
    · have hsel : (openOf v.approvalRequestId w && decide (w.id ≠ v.id)) = true := by
        simp [openOf, hid, hopen.mpr hpending, hne]
      rw [if_pos hsel]
      exact (if_pos hpending).symm
    · have hsel : ¬(openOf v.approvalRequestId w && decide (w.id ≠ v.id)) = true := by
        intro hsel
        exact hpending (openOf_iff.mp (Bool.and_eq_true _ _ ▸ hsel).1).2.1
      rw [if_neg hsel]
      exact (if_neg hpending).symm

theorem votes_settled_other {voterId : Uuid} {status : ApprovalStatus} (hid : id ≠ requestId) :
    (s.settled requestId voterId status).votes id = s.votes id := by
  refine votes_same fun w _ hrequest => ?_
  rw [if_neg]
  intro hsel
  exact hid (hrequest.symm.trans (openOf_iff.mp (Bool.and_eq_true _ _ ▸ hsel).1).1)

/-- **Refinement**: a decision casts a vote. -/
theorem Reviews.ballot?_followed (h : Reviews s) (hv : v ∈ s.reviewers.rows)
    (hq : s.requests.find? v.approvalRequestId = some q) :
    (s.followed v q (deciding decision comment t)).ballot? v.approvalRequestId =
      some (Ballot.cast ⟨q.mode, q.status, s.votes v.approvalRequestId⟩ v.id decision) := by
  set b : Ballot := ⟨q.mode, q.status, s.votes v.approvalRequestId⟩
  have hfinal : finalStatus (s.decided v (deciding decision comment t)) q
      (v.set (deciding decision comment t)) =
        Ballot.outcome b.mode decision (b.marked v.id decision).votes := h.finalStatus_eq hv
  cases houtcome : Ballot.outcome b.mode decision (b.marked v.id decision).votes with
  | none =>
    rw [followed_of_none (hfinal.trans houtcome), Ballot.cast_of_none houtcome, ballot?_eq_some]
    refine ⟨q, hq, ?_⟩
    rw [votes_decided comment t]
    rfl
  | some status =>
    rw [followed_of_some (hfinal.trans houtcome), Ballot.cast_of_some houtcome, ballot?_eq_some]
    have hid := Table.key_of_find? hq
    refine ⟨q.set (resolving status s.db.now), ?_, ?_⟩
    · refine (find?_updateRequests (s := s.decided v (deciding decision comment t)) _ _ _).trans ?_
      have hfind : (s.decided v (deciding decision comment t)).requests.find? v.approvalRequestId =
          some q := hq
      rw [hfind]
      simp [hid]
      rfl
    · rw [h.votes_settled hv]
      rfl

theorem ballot?_followed_other (hv : v ∈ s.reviewers.rows) (hid : id ≠ v.approvalRequestId) :
    (s.followed v q (deciding decision comment t)).ballot? id = s.ballot? id := by
  have hvotes := votes_decided_other hv (deciding decision comment t) hid
  unfold Store.followed
  split
  · unfold Store.ballot?
    rw [hvotes]
    rfl
  · next status _ =>
    set s1 := s.decided v (deciding decision comment t)
    have hfind : (s1.settled v.approvalRequestId v.id status).requests.find? id =
        s.requests.find? id := by
      refine (find?_updateRequests (s := s1) _ _ _).trans ?_
      have hs1 : s1.requests.find? id = s.requests.find? id := rfl
      rw [hs1]
      cases hq : s.requests.find? id with
      | none => rfl
      | some r =>
        have hne : r.id ≠ v.approvalRequestId := Table.key_of_find? hq ▸ hid
        simp [hne]
    unfold Store.ballot?
    rw [hfind, votes_settled_other hid, hvotes]

theorem Rows.followed (h : Rows s) :
    Rows (s.followed v q (deciding decision comment t)) := by
  have hdecided : Rows (s.decided v (deciding decision comment t)) :=
    h.updateReviewers rfl fun _ _ _ => iff_of_false (decided_ne_pending decision) nofun
  cases hfinal : finalStatus (s.decided v (deciding decision comment t)) q
      (v.set (deciding decision comment t)) with
  | none => exact followed_of_none hfinal ▸ hdecided
  | some status =>
    have hclosed : status ≠ .pending := by
      unfold finalStatus at hfinal
      split_ifs at hfinal <;> cases hfinal <;> decide
    have hrequests : Rows ((s.decided v (deciding decision comment t)).updateRequests
        (fun q => q.id = v.approvalRequestId) (resolving status s.db.now)) :=
      hdecided.updateRequests rfl fun _ _ _ => ⟨hclosed, nofun⟩
    rw [followed_of_some hfinal]
    exact hrequests.updateReviewers rfl fun _ _ _ => ⟨nofun, nofun⟩

/-- The open review that a call of `decideApproval` is about. -/
structure Review (s : Store) (actorId requestId : Uuid) (v : ReviewerRow)
    (q : ApprovalRequestRow) : Prop where
  mem : v ∈ s.reviewers.rows
  request : v.approvalRequestId = requestId
  reviewer : v.reviewerId = actorId
  pending : v.status = .pending
  found : s.requests.find? requestId = some q

theorem Reviews.opened (h : Reviews s) (hr : Review s actorId requestId v q) :
    q.status = .pending :=
  h.pending_request hr.mem hr.pending (hr.request.symm ▸ hr.found)

theorem Reviews.selectsReview (h : Reviews s) {w : ReviewerRow} (hw : w ∈ s.reviewers.rows) :
    s.selectsReview requestId actorId w = true ↔ ∃ q, Review s actorId requestId w q := by
  unfold Store.selectsReview
  simp only [Bool.and_eq_true, openOf_iff, decide_eq_true_eq, Option.any_eq_true]
  constructor
  · rintro ⟨⟨⟨hid, hpending, -⟩, hactor⟩, q, hq, -⟩
    exact ⟨q, hw, hid, hactor, hpending, hq⟩
  · rintro ⟨q, -, hid, hactor, hpending, hq⟩
    have hopen := h.pending_request hw hpending (hid.symm ▸ hq)
    have hlive := h.live q (Table.mem_of_find? hq) hopen
    exact ⟨⟨⟨hid, hpending, h.kept w hw q (hid.symm ▸ hq) hlive⟩, hactor⟩, q, hq, hopen,
      by rw [hlive]; rfl⟩

theorem Reviews.pendingReview? (h : Reviews s) :
    s.pendingReview? requestId actorId = some v ↔ ∃ q, Review s actorId requestId v q := by
  unfold Store.pendingReview?
  constructor
  · intro hfind
    exact (h.selectsReview (List.mem_of_find?_eq_some hfind)).mp (List.find?_some hfind)
  · rintro ⟨q, hr⟩
    have hsel := (h.selectsReview hr.mem).mpr ⟨q, hr⟩
    cases hfind : s.reviewers.rows.find? (s.selectsReview requestId actorId) with
    | none => exact absurd hsel (List.find?_eq_none.mp hfind v hr.mem)
    | some w =>
      have hw := List.mem_of_find?_eq_some hfind
      obtain ⟨r, hrw⟩ := (h.selectsReview hw).mp (List.find?_some hfind)
      have hid := h.voters w hw v hr.mem (hrw.request.trans hr.request.symm)
        (hrw.reviewer.trans hr.reviewer.symm)
      rw [Table.eq_of_mem hw hr.mem hid]

/-- A decision that closes its request. -/
def Resolves (s : Store) (v : ReviewerRow) (q : ApprovalRequestRow)
    (decision : TaskApprovalDecision) : Prop :=
  decision = .rejected ∨ q.mode = .any ∨
    ∀ w ∈ s.reviewers.rows, w.approvalRequestId = q.id → w.status = .pending → w = v

theorem Reviews.resolves_iff (h : Reviews s) (comment : Option String) (t : Timestamptz)
    (hv : v ∈ s.reviewers.rows)
    (hq : s.requests.find? v.approvalRequestId = some q) :
    (finalStatus (s.decided v (deciding decision comment t)) q
      (v.set (deciding decision comment t))).isSome = true ↔ Resolves s v q decision := by
  have hid := Table.key_of_find? hq
  have hleft : (∃ w ∈ (s.votes v.approvalRequestId).map (Vote.mark v.id decision),
      w.status = .pending) ↔
        ¬∀ w ∈ s.reviewers.rows, w.approvalRequestId = q.id → w.status = .pending → w = v := by
    rw [← votes_decided comment t]
    push Not
    constructor
    · rintro ⟨_, hvote, hpending⟩
      obtain ⟨w, hw, hrequest, rfl⟩ := mem_votes.mp hvote
      rcases (mem_rows_decided hv).mp hw with rfl | ⟨hne, hw⟩
      · exact absurd hpending (decided_ne_pending decision)
      · exact ⟨w, hw, hrequest.trans hid.symm, hpending, fun he => hne (he ▸ rfl)⟩
    · rintro ⟨w, hw, hrequest, hpending, hne⟩
      refine ⟨w.vote, mem_votes.mpr ⟨w, (mem_rows_decided hv).mpr (Or.inr ⟨?_, hw⟩),
        hrequest.trans hid, rfl⟩, hpending⟩
      exact fun he => hne (Table.eq_of_mem hw hv he)
  rw [h.finalStatus_eq hv]
  unfold Ballot.outcome Resolves
  split_ifs with h1 h2 h3
  · simp [h1]
  · simp [h2]
  · simp only [Option.isSome_none, Bool.false_eq_true, h1, h2, false_or, false_iff]
    exact hleft.mp h3
  · simp only [Option.isSome_some, h1, h2, false_or, true_iff]
    exact not_not.mp fun hn => h3 (hleft.mpr hn)

def InTurn (s : Store) (v : ReviewerRow) (q : ApprovalRequestRow) : Prop :=
  q.mode = .sequential → ∀ w ∈ s.reviewers.rows, w.approvalRequestId = q.id →
    w.status = .pending → v.sequence ≤ w.sequence

theorem Review.turn (hr : Review s actorId requestId v q) (hturn : InTurn s v q) :
    Ballot.Turn ⟨q.mode, q.status, s.votes requestId⟩ v.vote where
  mem := mem_votes.mpr ⟨v, hr.mem, hr.request, rfl⟩
  pending := hr.pending
  first hmode x hx hpending := by
    obtain ⟨w, hw, hid, rfl⟩ := mem_votes.mp hx
    exact hturn hmode w hw (hid.trans (Table.key_of_find? hr.found).symm) hpending

/-- **Success of a decision**: by an open review whose turn it is; where it closes the request, the
requester and the reviewers who are skipped must be members like the one who decides. -/
theorem Reviews.decideApproval_ok (h : Reviews s) (hr : Review s actorId requestId v q) :
    decideApproval s (some actorId) requestId decision comment = .ok s' ↔
      actorId ∈ s.db.members ∧ InTurn s v q ∧
        (Resolves s v q decision → q.requestedBy ∈ s.db.members ∧
          ∀ w ∈ s.reviewers.rows, w.approvalRequestId = q.id → w.status = .pending → w ≠ v →
            w.reviewerId ∈ s.db.members) ∧
        s' = s.followed v q (deciding decision (trimmedOrNull comment) s.db.newDate) := by
  set change := deciding decision (trimmedOrNull comment) s.db.newDate
  have hq : s.requests.find? v.approvalRequestId = some q := hr.request.symm ▸ hr.found
  have hopen := h.opened hr
  have hid : q.id = v.approvalRequestId := Table.key_of_find? hq
  have hbelongs : Belongs s.requests v q := by
    obtain ⟨r, hr'⟩ := h.belongs v hr.mem
    cases Option.some.inj (hr'.1.symm.trans hq)
    exact hr'
  have hturn : (q.mode = .sequential → ∀ w ∈ s.reviewers.rows,
      w.approvalRequestId = v.approvalRequestId → w.open = true → v.sequence ≤ w.sequence) ↔
        InTurn s v q := by
    unfold InTurn
    rw [hid]
    refine forall_congr' fun _ => forall₃_congr fun w hw _ => ?_
    rw [h.open_iff hw]
  have hothers : (∀ w ∈ s.reviewers.rows, openOf v.approvalRequestId w = true → w.id ≠ v.id →
      w.reviewerId ∈ s.db.members) ↔
        ∀ w ∈ s.reviewers.rows, w.approvalRequestId = q.id → w.status = .pending → w ≠ v →
          w.reviewerId ∈ s.db.members := by
    refine forall₂_congr fun w hw => ?_
    have hne : w.id ≠ v.id ↔ w ≠ v :=
      not_congr ⟨fun he => Table.eq_of_mem hw hr.mem he, fun he => he ▸ rfl⟩
    rw [openOf, Bool.and_eq_true, decide_eq_true_eq, h.open_iff hw, and_imp, hid, hne]
  have hrun : decideApproval s (some actorId) requestId decision comment = .ok s' ↔
      run (98 + 2) (.reviewers (fun w => w.id = v.id) change) s = .ok s' := by
    unfold decideApproval
    simp only [h.pendingReview?.mpr ⟨q, hr⟩]
    exact mapError_ok
  rw [hrun, run_decide_ok h.scope h.belongs hr.mem hr.pending hbelongs hopen, hr.reviewer, hturn]
  refine and_congr Iff.rfl (and_congr Iff.rfl ?_)
  rw [← h.resolves_iff (trimmedOrNull comment) s.db.newDate hr.mem hq]
  cases hfinal : finalStatus (s.decided v change) q (v.set change) with
  | none =>
    rw [followed_of_none hfinal]
    simp only [Option.isSome_none, Bool.false_eq_true, false_imp_iff, true_and]
    exact Iff.rfl
  | some status =>
    rw [followed_of_some hfinal]
    simp only [hothers, Option.isSome_some, true_imp_iff, and_assoc]
    exact Iff.rfl

/-- **Refinement** of `decideApproval`. -/
theorem Reviews.followed (h : Reviews s) (hr : Review s actorId requestId v q)
    (hturn : InTurn s v q) :
    Reviews (s.followed v q (deciding decision comment t)) where
  toRows := h.toRows.followed
  ballots id b hb := by
    have hq : s.requests.find? v.approvalRequestId = some q := hr.request.symm ▸ hr.found
    by_cases hid : id = v.approvalRequestId
    · subst hid
      rw [h.ballot?_followed hr.mem hq, Option.some.injEq] at hb
      have hsound := h.ballots _ _ (ballot?_eq_some.mpr ⟨q, hq, rfl⟩)
      have hstep := Ballot.Step.cast (b := ⟨q.mode, q.status, s.votes v.approvalRequestId⟩)
        (h.opened hr) (hr.request ▸ hr.turn hturn) decision
      exact hb ▸ Ballot.sound_step hsound hstep
    · rw [ballot?_followed_other hr.mem hid] at hb
      exact h.ballots id b hb

end Decision

/-! ### Cancellation by the requester -/

/-- **Success of a cancellation**: by the requester of an open request; the requester and everybody
who has not decided must be members. -/
theorem Reviews.cancelApproval_ok (h : Reviews s) :
    cancelApproval s (some actorId) requestId = .ok s' ↔
      ∃ q, s.requests.find? requestId = some q ∧ q.requestedBy = actorId ∧ q.status = .pending ∧
        actorId ∈ s.db.members ∧ (∀ v ∈ s.reviewers.rows, v.approvalRequestId = requestId →
          v.status = .pending → v.reviewerId ∈ s.db.members) ∧
        s' = s.canceled (fun r => r.id = requestId && r.requestedBy = actorId &&
          r.status = .pending && r.deletedAt.isNone) s.db.newDate := by
  set selects : ApprovalRequestRow → Bool := fun r => r.id = requestId && r.requestedBy = actorId &&
    r.status = .pending && r.deletedAt.isNone
  have hselects : ∀ r, selects r = true ↔ r.id = requestId ∧ r.requestedBy = actorId ∧
      r.status = .pending ∧ r.deletedAt = none := by
    intro r
    simp [selects, and_assoc]
  have hrun : execute (.requests selects (resolving .canceled s.db.newDate)) s = .ok s' ↔
      (∀ q ∈ s.requests.rows, selects q = true → q.requestedBy ∈ s.db.members) ∧
        (∀ q ∈ s.requests.rows, selects q = true → ∀ v ∈ s.reviewers.rows, openOf q.id v = true →
          v.reviewerId ∈ s.db.members) ∧ s' = s.canceled selects s.db.newDate :=
    run_cancel_ok h.scope (fun q _ hsel => ((hselects q).mp hsel).2.2.1) h.belongs
  have hreviewers : ∀ v ∈ s.reviewers.rows, openOf requestId v = true ↔
      v.approvalRequestId = requestId ∧ v.status = .pending := by
    intro v hv
    rw [openOf, Bool.and_eq_true, decide_eq_true_eq, h.open_iff hv]
  unfold cancelApproval
  constructor
  · intro hok
    obtain ⟨hany, hok⟩ : s.requests.rows.any selects = true ∧
        execute (.requests selects (resolving .canceled s.db.newDate)) s = .ok s' := by
      by_cases hany : s.requests.rows.any selects = true
      · exact ⟨hany, (if_pos hany).symm.trans hok⟩
      · cases (if_neg hany).symm.trans hok
    obtain ⟨hrequester, hvoters, hs'⟩ := hrun.mp hok
    obtain ⟨q, hq, hsel⟩ := List.any_eq_true.mp hany
    obtain ⟨hid, hactor, hopen, -⟩ := (hselects q).mp hsel
    refine ⟨q, Table.find?_eq_some_iff.mpr ⟨hq, hid⟩, hactor, hopen, hactor ▸ hrequester q hq hsel,
      fun v hv hrequest hpending => ?_, hs'⟩
    exact hvoters q hq hsel v hv (hid.symm ▸ (hreviewers v hv).mpr ⟨hrequest, hpending⟩)
  · rintro ⟨q, hfind, hactor, hopen, hmember, hvoters, hs'⟩
    obtain ⟨hq, hid⟩ := Table.find?_eq_some_iff.mp hfind
    have hsel : selects q = true := (hselects q).mpr ⟨hid, hactor, hopen, h.live q hq hopen⟩
    have hone : ∀ r ∈ s.requests.rows, selects r = true → r = q := fun r hr hr' =>
      Table.eq_of_mem hr hq (((hselects r).mp hr').1.trans hid.symm)
    refine (if_pos (List.any_eq_true.mpr ⟨q, hq, hsel⟩)).trans (hrun.mpr ⟨?_, ?_, hs'⟩)
    · exact fun r hr hr' => hone r hr hr' ▸ hactor.symm ▸ hmember
    · intro r hr hr' v hv ho
      obtain ⟨hrequest, hpending⟩ := (hreviewers v hv).mp (hid ▸ hone r hr hr' ▸ ho)
      exact hvoters v hv hrequest hpending

end CalmBoard.Workflows
