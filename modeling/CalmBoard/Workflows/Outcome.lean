import CalmBoard.Workflows.Requests

/-!
# CalmBoard.Workflows.Outcome — how approval requests end

Every request of the workspace takes each ballot one step, or leaves it.

* `coherent_step`: what a request keeps of the store, and does to a ballot.
* `resolving`: the request that took an approval request out of `pending`.
* `approval_outcome`: status, votes and order after every run.
-/

namespace CalmBoard.Workflows

open Fallible

variable {rt : Runtime} {s s' : Store} {actorId : Option Uuid} {id : Uuid}

/-- What a request does to the ballot of an approval request. -/
inductive BallotStep : Request → Uuid → Option Ballot → Option Ballot → Prop
  | same (request : Request) (id : Uuid) (b : Option Ballot) : BallotStep request id b b
  | request {actorId : Option Uuid} {input : CreateTaskApprovalInput} {id : Uuid} {b : Ballot}
      (hopen : b.status = .pending) : BallotStep (.requestApproval actorId input) id none (some b)
  | decide {actorId : Option Uuid} {id : Uuid} {decision : TaskApprovalDecision}
      {comment : Option String} {b : Ballot} {v : Vote} (hopen : b.status = .pending)
      (hturn : b.Turn v) : BallotStep (.decideApproval actorId id decision comment) id (some b)
        (some (b.cast v.id decision))
  | cancel {actorId : Option Uuid} {id : Uuid} {b : Ballot} (hopen : b.status = .pending) :
      BallotStep (.cancelApproval actorId id) id (some b) (some (b.close .canceled))
  | delete {taskId id : Uuid} {b : Ballot} (hopen : b.status = .pending) :
      BallotStep (.workspace (.softDeleteTask taskId)) id (some b) (some (b.close .canceled))

/-- What every request keeps. -/
structure Coherent (s : Store) : Prop where
  lists : Lists s
  reviews : Reviews s

theorem Coherent.listsOnly (h : Coherent s) (hs : ListsOnly s s') (request : Request) :
    Coherent s' ∧ ∀ id, BallotStep request id (s.ballot? id) (s'.ballot? id) :=
  ⟨⟨hs.lists, h.reviews.same hs.toSameReviews⟩, fun id =>
    hs.toSameReviews.ballot? id ▸ .same request id _⟩

theorem Coherent.outside (h : Coherent s) {db : Db} (request : Request)
    (htasks : ∀ k p, Scoped s.db k p → Scoped db k p) :
    Coherent { s with db } ∧
      ∀ id, BallotStep request id (s.ballot? id) (({ s with db } : Store).ballot? id) :=
  ⟨⟨h.lists.same ⟨rfl, rfl, htasks⟩, h.reviews.same ⟨rfl, rfl, htasks⟩⟩, fun _ => .same _ _ _⟩

theorem Coherent.softDelete (h : Coherent s) {taskId : Uuid}
    (hok : softDelete s taskId = .ok s') : Coherent s' ∧ ∀ id,
      BallotStep (.workspace (.softDeleteTask taskId)) id (s.ballot? id) (s'.ballot? id) := by
  obtain ⟨db, hdb, hok⟩ := bind_ok.mp hok
  have htasks : ∀ k p, Scoped s.db k p → Scoped db k p := fun k p =>
    scoped_step (show CalmBoard.step utcRuntime (.softDeleteTask taskId) s.db = .ok db from hdb)
  obtain ⟨⟨hlists, h0⟩, -⟩ := h.outside (.setMembers []) htasks
  obtain ⟨s1, h1, hok⟩ := bind_ok.mp hok
  obtain ⟨-, rfl⟩ := (closeDeletedTaskWorkflows_ok hlists h0).mp h1
  obtain ⟨hlists', h', hballots⟩ := closeAll_ok (hlists.closed _ _) (h0.closed _ _) hok
  refine ⟨⟨hlists', h'⟩, fun id => ?_⟩
  have hdb : ({ s with db } : Store).ballot? id = s.ballot? id := rfl
  rcases h0.ballot?_closed taskId s.db.newDate id with hsame | ⟨b, hb, hopen, hclosed⟩
  · rcases hballots id with hsame' | ⟨b, hb, hopen, hclosed⟩
    · exact (hsame'.trans (hsame.trans hdb)).symm ▸ .same _ _ _
    · rw [hclosed, ← hdb, ← hsame, hb]
      exact .delete hopen
  · rcases hballots id with hsame' | ⟨b', hb', hopen', -⟩
    · rw [hsame', hclosed, ← hdb, hb]
      exact .delete hopen
    · rw [hclosed] at hb'
      cases hb'
      cases hopen'

theorem Coherent.requestApproval (h : Coherent s) {input : CreateTaskApprovalInput}
    (hok : requestApproval s actorId input = .ok s') :
    Coherent s' ∧ ∀ id, BallotStep (.requestApproval actorId input) id (s.ballot? id)
      (s'.ballot? id) := by
  obtain ⟨q, reviewerIds, rows, hr⟩ := requestApproval_ok hok
  refine ⟨⟨h.lists.same hr.toSameLists, h.reviews.requested hr⟩, fun id => ?_⟩
  rw [h.reviews.ballot?_requested hr]
  split
  · next hid =>
    have hnone : s.ballot? id = none := by
      unfold Store.ballot?
      rw [← hid, hr.fresh]
      rfl
    rw [hnone]
    exact .request rfl
  · exact .same _ _ _

theorem Coherent.decideApproval (h : Coherent s) {decision : TaskApprovalDecision}
    {comment : Option String} (hok : decideApproval s actorId id decision comment = .ok s') :
    Coherent s' ∧ ∀ k, BallotStep (.decideApproval actorId id decision comment) k (s.ballot? k)
      (s'.ballot? k) := by
  cases actorId with
  | none => cases hok
  | some actorId =>
    cases hfind : s.pendingReview? id actorId with
    | none =>
      unfold Workflows.decideApproval at hok
      simp only [hfind] at hok
      cases hok
    | some v =>
      obtain ⟨q, hr⟩ := h.reviews.pendingReview?.mp hfind
      obtain ⟨-, hturn, -, rfl⟩ := (h.reviews.decideApproval_ok hr).mp hok
      refine ⟨⟨?_, h.reviews.followed hr hturn⟩, fun k => ?_⟩
      · refine h.lists.same ?_
        unfold Store.followed
        split <;> exact ⟨rfl, rfl, fun _ _ hs => hs⟩
      · have hq : s.requests.find? v.approvalRequestId = some q := hr.request.symm ▸ hr.found
        by_cases hk : k = v.approvalRequestId
        · have hb : s.ballot? k = some ⟨q.mode, q.status, s.votes k⟩ :=
            ballot?_eq_some.mpr ⟨q, hk ▸ hq, rfl⟩
          have hid : k = id := hk.trans hr.request
          rw [hk, h.reviews.ballot?_followed hr.mem hq, ← hk, hb, hid]
          exact .decide (h.reviews.opened hr) (hr.turn hturn)
        · rw [ballot?_followed_other hr.mem hk]
          exact .same _ _ _

theorem Coherent.cancelApproval (h : Coherent s) (hok : cancelApproval s actorId id = .ok s') :
    Coherent s' ∧ ∀ k, BallotStep (.cancelApproval actorId id) k (s.ballot? k)
      (s'.ballot? k) := by
  cases actorId with
  | none => cases hok
  | some actorId =>
    obtain ⟨q, hfind, hactor, hopen, -, -, rfl⟩ := h.reviews.cancelApproval_ok.mp hok
    set selects : ApprovalRequestRow → Bool := fun r => r.id = id && r.requestedBy = actorId &&
      r.status = .pending && r.deletedAt.isNone
    have hpending : ∀ r ∈ s.requests.rows, selects r = true → r.status = .pending := by
      intro r _ hsel
      simp only [selects, Bool.and_eq_true, decide_eq_true_eq] at hsel
      exact hsel.1.2
    refine ⟨⟨h.lists.same ⟨rfl, rfl, fun _ _ hs => hs⟩, h.reviews.canceled hpending _⟩, fun k => ?_⟩
    cases hq : s.requests.find? k with
    | none =>
      rw [ballot?_canceled_none hq, ballot?_eq_none.mpr hq]
      exact .same _ _ _
    | some r =>
      have hb : s.ballot? k = some ⟨r.mode, r.status, s.votes k⟩ := ballot?_eq_some.mpr ⟨r, hq, rfl⟩
      rw [ballot?_canceled h.reviews hq, hb]
      split
      · next hsel =>
        have hid : k = id := by
          simp only [selects, Bool.and_eq_true, decide_eq_true_eq] at hsel
          exact (Table.key_of_find? hq).symm.trans hsel.1.1.1
        rw [hid]
        exact .cancel (hpending r (Table.mem_of_find? hq) hsel)
      · exact .same _ _ _

/-- **Step**: what every request does to the ballots. -/
theorem coherent_step (h : Coherent s) : ∀ {request : Request}, step rt request s = .ok s' →
    Coherent s' ∧ ∀ id, BallotStep request id (s.ballot? id) (s'.ballot? id)
  | .setMembers members, hok => by
    cases hok
    exact h.outside (.setMembers members) fun _ _ hs => hs
  | .replaceChecklists actorId taskId inputs, hok =>
    h.listsOnly (h.lists.replaceChecklists hok) _
  | .setChecklistItemCompletion actorId itemId isCompleted, hok =>
    h.listsOnly (h.lists.setChecklistItemCompletion hok) _
  | .requestApproval actorId input, hok => h.requestApproval hok
  | .decideApproval actorId id decision comment, hok => h.decideApproval hok
  | .cancelApproval actorId id, hok => h.cancelApproval hok
  | .workspace request, hok => by
    cases request with
    | softDeleteTask taskId => exact h.softDelete hok
    | _ =>
      obtain ⟨db, hdb, hok⟩ := bind_ok.mp hok
      cases pure_ok.mp hok
      exact h.outside _ fun k p => scoped_step hdb

theorem ballot?_initial (setup : Setup) (id : Uuid) : (initial setup).ballot? id = none := rfl

theorem coherent_initial (setup : Setup) : Coherent (initial setup) where
  lists :=
    { scope := fun _ hc => absurd hc List.not_mem_nil
      belongs := fun _ hi => absurd hi List.not_mem_nil
      checks := fun _ hi => absurd hi List.not_mem_nil }
  reviews :=
    { scope := fun _ hq => absurd hq List.not_mem_nil
      resolution := fun _ hq => absurd hq List.not_mem_nil
      live := fun _ hq => absurd hq List.not_mem_nil
      belongs := fun _ hv => absurd hv List.not_mem_nil
      kept := fun _ hv => absurd hv List.not_mem_nil
      decision := fun _ hv => absurd hv List.not_mem_nil
      voters := fun _ hv => absurd hv List.not_mem_nil
      ballots := fun id b hb => by
        rw [ballot?_initial] at hb
        cases hb }

theorem coherent_exec (h : Coherent s) (request : Request) :
    Coherent (Runs.exec (step rt) s request) ∧ ∀ id,
      BallotStep request id (s.ballot? id) ((Runs.exec (step rt) s request).ballot? id) := by
  unfold Runs.exec
  cases hok : step rt request s with
  | ok s' => exact coherent_step h hok
  | error e => exact ⟨h, fun id => .same request id _⟩

/-- **Invariant** of every run. -/
theorem coherent_after (rt : Runtime) (setup : Setup) (requests : List Request) :
    Coherent (after rt setup requests) :=
  Runs.run_invariant (fun _ _ _ hs hok => (coherent_step hs hok).1) requests _
    (coherent_initial setup)

/-! ### Resolution -/

variable {request : Request}

theorem BallotStep.sound {b b' : Ballot} (h : BallotStep request id (some b) (some b')) :
    b' = b ∨ b.status = .pending ∧ b.Step b' := by
  cases h with
  | same => exact Or.inl rfl
  | decide hopen hturn => exact Or.inr ⟨hopen, .cast hopen hturn _⟩
  | cancel hopen => exact Or.inr ⟨hopen, .cancel hopen⟩
  | delete hopen => exact Or.inr ⟨hopen, .cancel hopen⟩

theorem ballot?_run_closed {b : Ballot} (hclosed : b.status ≠ .pending) :
    ∀ (requests : List Request) (s : Store), Coherent s → s.ballot? id = some b →
      (Runs.run (step rt) s requests).ballot? id = some b
  | [], s, _, hb => hb
  | request :: requests, s, h, hb => by
    obtain ⟨h', hstep⟩ := @coherent_exec rt _ h request
    have hstep := hstep id
    rw [hb] at hstep
    refine ballot?_run_closed hclosed requests _ h' ?_
    generalize (Runs.exec (step rt) s request).ballot? id = b' at hstep ⊢
    cases hstep with
    | same => rfl
    | decide hopen => exact absurd hopen hclosed
    | cancel hopen => exact absurd hopen hclosed
    | delete hopen => exact absurd hopen hclosed

/-- An approval request that is there and open. -/
def Store.pending (s : Store) (id : Uuid) : Bool :=
  (s.requests.find? id).any fun q => q.status = .pending

/-- The request that took an approval request out of `pending`. -/
def resolvedBy (rt : Runtime) (id : Uuid) : Store → List Request → Option Request
  | _, [] => none
  | s, request :: requests =>
    let s' := Runs.exec (step rt) s request
    if s.pending id && !s'.pending id then some request else resolvedBy rt id s' requests


theorem pending_eq (s : Store) (id : Uuid) :
    s.pending id = (s.ballot? id).any fun b => b.status = .pending := by
  unfold Store.pending Store.ballot?
  rw [Option.any_map]

theorem BallotStep.rejected_iff {b b' : Ballot} (h : BallotStep request id (some b) (some b'))
    (hopen : b.status = .pending) (hclosed : b'.status ≠ .pending) : b'.status = .rejected ↔
      ∃ actorId comment, request = .decideApproval actorId id .rejected comment := by
  cases h with
  | same => exact absurd hopen hclosed
  | @decide actorId _ decision comment _ v _ _ =>
    have hstatus := (Ballot.cast_status b hopen v.id decision).resolve_left hclosed
    cases decision with
    | approved =>
      refine iff_of_false (fun he => ?_) (by rintro ⟨_, _, he⟩; cases he)
      rw [he] at hstatus
      cases hstatus
    | rejected => exact iff_of_true hstatus ⟨actorId, comment, rfl⟩
  | cancel => exact iff_of_false nofun (by rintro ⟨_, _, he⟩; cases he)
  | delete => exact iff_of_false nofun (by rintro ⟨_, _, he⟩; cases he)

theorem BallotStep.created {b' : Ballot} (h : BallotStep request id none (some b')) :
    b'.status = .pending := by
  cases h
  assumption

theorem BallotStep.kept {b : Ballot} {b' : Option Ballot} (h : BallotStep request id (some b) b') :
    ∃ c, b' = some c := by
  cases h <;> exact ⟨_, rfl⟩

/-- **Run**: a request ends rejected exactly when a rejection resolved it. -/
theorem rejected_run : ∀ (requests : List Request) (s : Store), Coherent s →
    (∀ b, s.ballot? id = some b → b.status = .pending) →
      ∀ b, (Runs.run (step rt) s requests).ballot? id = some b →
        (b.status = .rejected ↔ ∃ actorId comment,
          resolvedBy rt id s requests = some (.decideApproval actorId id .rejected comment))
  | [], s, _, hopen, b, hb => by
    refine iff_of_false (fun he => ?_) (by rintro ⟨_, _, he⟩; cases he)
    rw [hopen b hb] at he
    cases he
  | request :: requests, s, h, hopen, b, hb => by
    obtain ⟨h', hstep⟩ := @coherent_exec rt _ h request
    have hstep := hstep id
    unfold resolvedBy
    simp only [pending_eq]
    by_cases hopen' : ∀ b', (Runs.exec (step rt) s request).ballot? id = some b' →
        b'.status = .pending
    · have hgo : (((s.ballot? id).any fun b => b.status = .pending) &&
          !((Runs.exec (step rt) s request).ballot? id).any fun b => b.status = .pending) = false := by
        cases hb' : s.ballot? id with
        | none => rfl
        | some b0 =>
          obtain ⟨c, hc⟩ := (hb' ▸ hstep).kept
          rw [hc]
          simp [hopen' c hc]
      rw [hgo]
      exact rejected_run requests _ h' hopen' b hb
    · push Not at hopen'
      obtain ⟨b', hb', hclosed⟩ := hopen'
      have hfinal := @ballot?_run_closed rt _ _ hclosed requests _ h' hb'
      have hbb' : b = b' := Option.some.inj (hb.symm.trans hfinal)
      rw [hb'] at hstep ⊢
      cases hb0 : s.ballot? id with
      | none => exact absurd (hb0 ▸ hstep).created hclosed
      | some b0 =>
        rw [hb0] at hstep
        have hpending := hopen b0 hb0
        simp only [Option.any_some, hpending, hclosed]
        rw [hbb', hstep.rejected_iff hpending hclosed]
        simp

/-! ### Outcome -/

variable {q : ApprovalRequestRow}

def Store.reviewersOf (s : Store) (q : ApprovalRequestRow) : List ReviewerRow :=
  s.reviewers.rows.filter fun v => v.approvalRequestId = q.id

/-- The statuses of a request and of its reviewers, row by row. -/
def Store.statuses (s : Store) (id : Uuid) : Option (ApprovalStatus × List (Uuid × ReviewerStatus)) :=
  (s.requests.find? id).map fun q => (q.status, (s.reviewersOf q).map fun v => (v.id, v.status))

/-- How a request stands, and how it came there. -/
structure Outcome (s : Store) (q : ApprovalRequestRow) (resolvedBy : Option Request) : Prop where
  approved : q.deletedAt = none → (q.status = .approved ↔
    q.resolvedAt ≠ none ∧ (∀ v ∈ s.reviewersOf q, v.status ≠ .rejected) ∧
      ((q.mode = .any ∧ ∃ v ∈ s.reviewersOf q, v.status = .approved) ∨
        ∀ v ∈ s.reviewersOf q, v.deletedAt = none → v.status = .approved))
  rejected : q.status = .rejected ↔
    ∃ actorId comment, resolvedBy = some (.decideApproval actorId q.id .rejected comment)
  settled : q.status ≠ .pending → ∀ v ∈ s.reviewersOf q, v.status ≠ .pending

/-- In a sequential request nobody who has decided comes after somebody who decides between two
states. -/
def InOrder (s s' : Store) (q : ApprovalRequestRow) : Prop :=
  q.mode = .sequential → ∀ v ∈ s.reviewersOf q, v.status = .pending →
    (∃ v' ∈ s'.reviewers.rows, v'.id = v.id ∧ v'.status.decided = true) →
      ∀ w ∈ s.reviewersOf q, w.status.decided = true → w.sequence < v.sequence

theorem mem_reviewersOf {v : ReviewerRow} :
    v ∈ s.reviewersOf q ↔ v ∈ s.reviewers.rows ∧ v.approvalRequestId = q.id := by
  unfold Store.reviewersOf
  rw [List.mem_filter, decide_eq_true_eq]

theorem forall_votes {p : Vote → Prop} :
    (∀ w ∈ s.votes q.id, p w) ↔ ∀ v ∈ s.reviewersOf q, p v.vote := by
  unfold Store.votes Store.reviewersOf
  rw [List.forall_mem_map]

theorem exists_votes {p : Vote → Prop} :
    (∃ w ∈ s.votes q.id, p w) ↔ ∃ v ∈ s.reviewersOf q, p v.vote := by
  unfold Store.votes Store.reviewersOf
  simp only [List.mem_map, exists_exists_and_eq_and]

theorem statuses_eq (s : Store) (id : Uuid) : s.statuses id =
    (s.ballot? id).map fun b => (b.status, b.votes.map fun w => (w.id, w.status)) := by
  unfold Store.statuses Store.ballot? Store.votes Store.reviewersOf
  rw [Option.map_map]
  cases hq : s.requests.find? id with
  | none => rfl
  | some q =>
    rw [← Table.key_of_find? hq]
    simp only [Option.map_some, Function.comp_apply, List.map_map]
    rfl

theorem Coherent.outcome (h : Coherent s) (hq : q ∈ s.requests.rows) {resolvedBy : Option Request}
    (hrejected : q.status = .rejected ↔
      ∃ actorId comment, resolvedBy = some (.decideApproval actorId q.id .rejected comment)) :
    Outcome s q resolvedBy where
  approved hlive := by
    have hfind := Table.find?_of_mem hq
    have hsound := h.reviews.ballots q.id _ (ballot?_eq_some.mpr ⟨q, hfind, rfl⟩)
    have hkept : ∀ v ∈ s.reviewersOf q, v.deletedAt = none := fun v hv => by
      obtain ⟨hv, hid⟩ := mem_reviewersOf.mp hv
      exact h.reviews.kept v hv q (hid.symm ▸ hfind) hlive
    have hresolved : q.status ≠ .pending ↔ q.resolvedAt ≠ none :=
      not_congr (h.reviews.resolution q hq)
    refine hsound.approved_iff.trans ?_
    simp only [forall_votes, exists_votes]
    refine and_congr hresolved (and_congr Iff.rfl (or_congr Iff.rfl ?_))
    exact forall₂_congr fun v hv => ⟨fun hv _ => hv, fun hall => hall (hkept v hv)⟩
  rejected := hrejected
  settled hclosed := by
    have hsound := h.reviews.ballots q.id _
      (ballot?_eq_some.mpr ⟨q, Table.find?_of_mem hq, rfl⟩)
    exact forall_votes.mp (hsound.closed hclosed)

theorem Coherent.inOrder (h : Coherent s) (hq : q ∈ s.requests.rows) (request : Request) :
    InOrder s (Runs.exec (step rt) s request) q := by
  rintro hmode v hv hpending ⟨v', hv', hid, hdecided⟩ w hw hw'
  obtain ⟨h', hstep⟩ := @coherent_exec rt _ h request
  set s' := Runs.exec (step rt) s request
  have hb := ballot?_eq_some.mpr ⟨q, Table.find?_of_mem hq, rfl⟩
  have hsound := h.reviews.ballots q.id _ hb
  have hvote : ∀ u ∈ s.reviewersOf q, u.vote ∈ s.votes q.id := fun u hu =>
    mem_votes.mpr ⟨u, (mem_reviewersOf.mp hu).1, (mem_reviewersOf.mp hu).2, rfl⟩
  have hstep := hstep q.id
  rw [hb] at hstep
  obtain ⟨b', hb'⟩ := hstep.kept
  rw [hb'] at hstep
  obtain ⟨r, -, rfl⟩ := ballot?_eq_some.mp hb'
  -- the row of the vote that carries the id of `v` is `v'`
  have hmem : ∀ u ∈ s'.votes q.id, u.id = v.id → v'.vote ∈ s'.votes q.id := by
    intro u hu huid
    obtain ⟨x, hx, hrequest, rfl⟩ := mem_votes.mp hu
    have hxv : x = v' := Table.eq_of_mem hx hv' (huid.trans hid.symm)
    exact hxv ▸ hu
  rcases hstep.sound with hsame | ⟨-, hstep⟩
  · have hvotes : s'.votes q.id = s.votes q.id := congrArg Ballot.votes hsame
    have hin := hmem v.vote (hvotes ▸ hvote v hv) rfl
    have hvv : v'.vote = v.vote :=
      List.inj_on_of_nodup_map hsound.ids (hvotes ▸ hin) (hvote v hv) hid
    have hpending' : v'.status = .pending := (congrArg Vote.status hvv).trans hpending
    rw [hpending'] at hdecided
    cases hdecided
  · obtain ⟨u, hu, huid⟩ := hstep.keeps (hvote v hv)
    have hturn := hsound.decided_by hstep (hvote v hv) hpending (hmem u hu huid) hid hdecided
    exact hsound.turn_after hmode hturn (hvote w hw) hw'

/-- **Approval outcome**: after every run a request stands as its reviewers and the resolving
decision say, it stays so in every continuation once it is resolved, and decisions of a sequential
request come in order. -/
theorem approval_outcome (rt : Runtime) (setup : Setup) (requests : List Request) :
    ∀ q ∈ (after rt setup requests).requests.rows,
      Outcome (after rt setup requests) q (resolvedBy rt q.id (initial setup) requests) ∧
      (q.status ≠ .pending → ∀ later, (after rt setup (requests ++ later)).statuses q.id =
        (after rt setup requests).statuses q.id) ∧
      ∀ request, InOrder (after rt setup requests) (after rt setup (requests ++ [request])) q := by
  intro q hq
  have h := coherent_after rt setup requests
  have hfind := Table.find?_of_mem hq
  have hballot := ballot?_eq_some.mpr ⟨q, hfind, rfl⟩
  have hrun : ∀ later, after rt setup (requests ++ later) =
      Runs.run (step rt) (after rt setup requests) later := fun later => List.foldl_append
  refine ⟨h.outcome hq ?_, fun hclosed later => ?_, fun request => ?_⟩
  · exact rejected_run requests (initial setup) (coherent_initial setup)
      (fun b hb => by rw [ballot?_initial] at hb; cases hb) _ hballot
  · rw [hrun, statuses_eq, statuses_eq, hballot]
    rw [ballot?_run_closed hclosed later _ h hballot]
  · rw [hrun]
    exact h.inOrder hq request

/-! ### A small run -/

/-- Three members. -/
def teamSetup : Setup := { smallSetup with members := [1, 2, 3] }

/-- A task whose two reviewers decide one after the other. -/
def twoReviews : List Request :=
  [.workspace (.createTask { projectId := 7, title := "a" }),
    .requestApproval (some 1) { taskId := 100, reviewerIds := [2, 3], mode := some .sequential },
    .decideApproval (some 2) 101 .approved none, .decideApproval (some 3) 101 .approved none]

theorem approval_outcome_sequential :
    ∃ q ∈ (after utcRuntime teamSetup twoReviews).requests.rows, q.status = .approved ∧
      Outcome (after utcRuntime teamSetup twoReviews) q
        (resolvedBy utcRuntime q.id (initial teamSetup) twoReviews) := by
  have hany : ((after utcRuntime teamSetup twoReviews).requests.rows.any
      fun q => q.status = .approved) = true := by decide
  obtain ⟨q, hq, hstatus⟩ := List.any_eq_true.mp hany
  exact ⟨q, hq, of_decide_eq_true hstatus,
    (approval_outcome utcRuntime teamSetup twoReviews q hq).1⟩

end CalmBoard.Workflows
