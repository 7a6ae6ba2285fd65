import CalmBoard.Workflows.Deletion
import CalmBoard.Tasks.Hierarchy

/-!
# CalmBoard.Workflows.Requests — what each request leaves of the workflows

* `scoped_step`: tasks stay, in their projects.
* `Lists.replaceChecklists`, `Lists.setChecklistItemCompletion`: the checklists.
* `requestApproval_ok`: a new request is a new ballot.
* `closeAll_ok`: a deleted task and its children.
-/

namespace CalmBoard.Workflows

open Fallible

variable {s s' : Store}

/-! ### Tasks stay -/

variable {taskId : Uuid}

theorem scoped_iff {db : Db} {projectId : Uuid} : Scoped db taskId projectId ↔
    ∃ c, db.board.tree taskId = some c ∧ c.projectId = projectId := by
  unfold Scoped Board.tree
  rw [board_find?, Option.map_map]
  constructor
  · rintro ⟨t, ht, hp⟩
    exact ⟨t.card.node, by rw [ht]; rfl, hp⟩
  · rintro ⟨c, hc, hp⟩
    obtain ⟨t, ht, rfl⟩ := Option.map_eq_some_iff.mp hc
    exact ⟨t, ht, hp⟩

theorem scoped_written {b : Board} {k projectId : Uuid} {before after : Card}
    (hbefore : b.tree taskId = some before) (hafter : after.projectId = before.projectId)
    (h : ∃ c, b.tree k = some c ∧ c.projectId = projectId) :
    ∃ c, Function.update b.tree taskId (some after) k = some c ∧ c.projectId = projectId := by
  obtain ⟨c, hc, hp⟩ := h
  by_cases hk : k = taskId
  · subst hk
    cases Option.some.inj (hc.symm.trans hbefore)
    exact ⟨after, Function.update_self .., hafter.trans hp⟩
  · exact ⟨c, by rw [Function.update_of_ne hk, hc], hp⟩

theorem scoped_update {rt : Runtime} {db db' : Db} {input : Tasks.UpdateTaskInput}
    (h : Tasks.update rt db taskId input = .ok db') {k p : Uuid} (hs : Scoped db k p) :
    Scoped db' k p := by
  obtain rfl | ⟨plan, after, hplan, -, -, hafter, hboard⟩ := Tasks.board_update h
  · exact hs
  obtain ⟨hbefore, -⟩ := Tasks.planUpdate_ok hplan
  obtain ⟨-, hfind, -⟩ := Tasks.getById_ok hbefore
  have hw := Tasks.updateColumns_ok hafter
  have hid : after.card.id = taskId := hw.id.trans (Table.key_of_find? hfind)
  have hcard : db.board.cards.find? after.card.id = some plan.before.row.card := by
    rw [hid, board_find?, hfind]
    rfl
  rw [scoped_iff] at hs ⊢
  rw [hboard, Board.tree_change hcard]
  have htree : db.board.tree after.card.id = some plan.before.row.card.node := by
    unfold Board.tree
    rw [hcard]
    rfl
  exact scoped_written htree hw.projectId hs

/-- **Frame**: a call of the task or sprint repository leaves every task in its project. -/
theorem scoped_step {rt : Runtime} {db db' : Db} {request : CalmBoard.Request}
    (h : CalmBoard.step rt request db = .ok db') {k p : Uuid} (hs : Scoped db k p) :
    Scoped db' k p := by
  have htree := Board.tree_step (step_board h)
  rw [scoped_iff] at hs ⊢
  generalize hafter : db'.board.tree = tree at htree ⊢
  cases htree with
  | same => exact hs
  | @create input card hnew =>
    obtain ⟨c, hc, hp⟩ := hs
    have hk : k ≠ card.id := fun he => by rw [he, hnew] at hc; cases hc
    exact ⟨c, by rw [Function.update_of_ne hk, hc], hp⟩
  | update => exact hafter ▸ scoped_iff.mp (scoped_update h (scoped_iff.mpr hs))
  | move hactive => exact scoped_written (Board.tree_of_active hactive) rfl hs
  | delete hactive =>
    obtain ⟨c, hc, hp⟩ := hs
    refine ⟨_, congrArg (Option.map _) hc, ?_⟩
    dsimp only
    split
    · exact hp
    · exact hp

/-! ### Requests that leave the approvals -/

/-- Requests and reviewers are the same, and tasks stay where they are. -/
structure SameReviews (s s' : Store) : Prop where
  requests : s'.requests = s.requests
  reviewers : s'.reviewers = s.reviewers
  tasks : ∀ k p, Scoped s.db k p → Scoped s'.db k p

theorem SameReviews.ballot? (h : SameReviews s s') (id : Uuid) : s'.ballot? id = s.ballot? id := by
  unfold Store.ballot? Store.votes
  rw [h.requests, h.reviewers]

theorem Reviews.same (h : Reviews s) (hs : SameReviews s s') : Reviews s' where
  scope q hq := hs.tasks _ _ (h.scope q (hs.requests ▸ hq))
  resolution q hq := h.resolution q (hs.requests ▸ hq)
  live q hq := h.live q (hs.requests ▸ hq)
  belongs v hv := hs.requests.symm ▸ h.belongs v (hs.reviewers ▸ hv)
  kept v hv q hq := h.kept v (hs.reviewers ▸ hv) q (hs.requests ▸ hq)
  decision v hv := h.decision v (hs.reviewers ▸ hv)
  voters v hv w hw := h.voters v (hs.reviewers ▸ hv) w (hs.reviewers ▸ hw)
  ballots id b hb := h.ballots id b ((hs.ballot? id).symm.trans hb)

/-- Checklists and items are the same, and tasks stay where they are. -/
structure SameLists (s s' : Store) : Prop where
  checklists : s'.checklists = s.checklists
  items : s'.items = s.items
  tasks : ∀ k p, Scoped s.db k p → Scoped s'.db k p

theorem Lists.same (h : Lists s) (hs : SameLists s s') : Lists s' where
  scope c hc := hs.tasks _ _ (h.scope c (hs.checklists ▸ hc))
  belongs i hi := hs.checklists.symm ▸ h.belongs i (hs.items ▸ hi)
  checks i hi := h.checks i (hs.items ▸ hi)

/-! ### Checklists -/

variable {actorId : Option Uuid}

theorem validateTaskWorkflowScope_scoped {projectId : Uuid} {live : Bool}
    (h : validateTaskWorkflowScope s taskId projectId live = .ok ()) :
    Scoped s.db taskId projectId := by
  unfold validateTaskWorkflowScope at h
  cases hfind : s.db.tasks.find? taskId with
  | none =>
    rw [hfind] at h
    cases h
  | some t =>
    rw [hfind] at h
    simp only [ne_eq, guard_ok, not_not] at h
    exact ⟨t, hfind, h.1⟩

theorem validateItem_item {i : ChecklistItemRow} (h : validateTaskChecklistItem s i = .ok ()) :
    (∃ c, ItemOf s.checklists i c) ∧ completionCheck i = .ok () := by
  unfold validateTaskChecklistItem at h
  cases hfind : s.checklists.find? i.checklistId with
  | none =>
    rw [hfind] at h
    cases h
  | some c =>
    rw [hfind] at h
    simp only [throw_bind, guard_ok] at h
    obtain ⟨hscope, hlive, -, hcheck⟩ := h
    push Not at hscope hlive
    refine ⟨⟨c, hfind, hscope.1, hscope.2, fun hi => ?_⟩, hcheck⟩
    exact Option.not_isSome_iff_eq_none.mp (by simpa using hlive (by rw [hi]; rfl))

theorem insertRow_ok {ρ : Type} {key : ρ → Uuid} {place : Place Store key} {row : ρ}
    (h : insertRow place row s = .ok s') :
    ∃ T, (place.get s).insert? row = some T ∧ s' = place.set T s := by
  unfold insertRow at h
  split at h
  · next T hT =>
    cases h
    exact ⟨T, hT, rfl⟩
  · cases h

/-- What writing checklists leaves as it is. -/
structure ListsOnly (s s' : Store) : Prop extends SameReviews s s' where
  lists : Lists s'

theorem ListsOnly.trans {s'' : Store} (h : ListsOnly s s') (h' : ListsOnly s' s'') :
    ListsOnly s s'' where
  requests := h'.requests.trans h.requests
  reviewers := h'.reviewers.trans h.reviewers
  tasks k p hs := h'.tasks k p (h.tasks k p hs)
  lists := h'.lists

theorem Lists.insertChecklist (h : Lists s) {row : ChecklistRow}
    (hok : insertChecklist row s = .ok s') : ListsOnly s s' := by
  obtain ⟨hvalid, hok⟩ := then_ok.mp hok
  obtain ⟨T, hT, rfl⟩ := insertRow_ok hok
  obtain ⟨hnew, hrows⟩ := Table.insert?_eq_some hT
  refine ⟨⟨rfl, rfl, fun _ _ hs => hs⟩, fun c hc => ?_, fun i hi => ?_, h.checks⟩
  · rcases List.mem_append.mp (hrows ▸ hc) with hc | hc
    · exact h.scope c hc
    · cases List.mem_singleton.mp hc
      exact validateTaskWorkflowScope_scoped hvalid
  · obtain ⟨c, hfind, hrest⟩ := h.belongs i hi
    refine ⟨c, ?_, hrest⟩
    refine (Table.find?_insert? hT _).trans ?_
    rw [if_neg]
    · exact hfind
    · rintro he
      have hnone : s.checklists.find? i.checklistId = none := he ▸ hnew
      rw [hnone] at hfind
      cases hfind

theorem Lists.insertItem (h : Lists s) {row : ChecklistItemRow}
    (hok : insertItem row s = .ok s') : ListsOnly s s' := by
  obtain ⟨hvalid, hok⟩ := then_ok.mp hok
  obtain ⟨T, hT, rfl⟩ := insertRow_ok hok
  obtain ⟨-, hrows⟩ := Table.insert?_eq_some hT
  obtain ⟨hitem, hcheck⟩ := validateItem_item hvalid
  refine ⟨⟨rfl, rfl, fun _ _ hs => hs⟩, h.scope, fun i hi => ?_, fun i hi => ?_⟩
  · rcases List.mem_append.mp (hrows ▸ hi) with hi | hi
    · exact h.belongs i hi
    · cases List.mem_singleton.mp hi
      exact hitem
  · rcases List.mem_append.mp (hrows ▸ hi) with hi | hi
    · exact h.checks i hi
    · cases List.mem_singleton.mp hi
      exact hcheck

theorem Lists.replaceChecklists (h : Lists s) {inputs : List TaskChecklistInput}
    (hok : replaceChecklists s actorId taskId inputs = .ok s') : ListsOnly s s' := by
  simp only [Workflows.replaceChecklists, bind_ok] at hok
  obtain ⟨task, -, ⟨⟩, -, s1, hdelete, hinsert⟩ := hok
  obtain ⟨-, rfl⟩ := (deleteChecklists_ok h).mp hdelete
  have hstart : ListsOnly s (s.withoutChecklists (fun c => c.taskId = taskId) s.db.newDate) :=
    ⟨⟨rfl, rfl, fun _ _ hs => hs⟩, h.withoutChecklists _ _⟩
  refine foldlM_ok hinsert hstart fun u a u' _ hu hstep => ?_
  obtain ⟨u1, hchecklist, hitems⟩ := bind_ok.mp hstep
  have hu1 := hu.trans (hu.lists.insertChecklist hchecklist)
  exact foldlM_ok hitems hu1 fun u b u' _ hu hstep => hu.trans (hu.lists.insertItem hstep)

/-- The columns `setChecklistItemCompletion` sets. -/
def ChecklistItemRow.complete (isCompleted : Bool) (actorId : Option Uuid) (now : Timestamptz)
    (i : ChecklistItemRow) : ChecklistItemRow :=
  { i with
    isCompleted
    completedBy := if isCompleted then actorId else none
    completedAt := if isCompleted then some now else none
    updatedAt := now }

theorem Lists.setChecklistItemCompletion (h : Lists s) {itemId : Uuid} {isCompleted : Bool}
    (hok : setChecklistItemCompletion s actorId itemId isCompleted = .ok s') : ListsOnly s s' := by
  unfold Workflows.setChecklistItemCompletion at hok
  cases hfind : s.items.find? itemId with
  | none =>
    rw [hfind] at hok
    cases hok
  | some item =>
    rw [hfind] at hok
    obtain ⟨hitem, hid⟩ := Table.find?_eq_some_iff.mp hfind
    simp only at hok
    split at hok
    · have hone : ∀ i ∈ s.items.rows, decide (i.id = itemId) = true ↔ i = item := fun i hi => by
        rw [decide_eq_true_eq]
        exact ⟨fun he => Table.eq_of_mem hi hitem (he.trans hid.symm), fun he => he ▸ hid⟩
      obtain ⟨hvalid, rfl⟩ := (updateRows_single
        (f := ChecklistItemRow.complete isCompleted actorId s.db.newDate) (fun _ => rfl) hitem
        hone).mp hok
      obtain ⟨hbelongs, hcheck⟩ := validateItem_item hvalid
      refine ⟨⟨rfl, rfl, fun _ _ hs => hs⟩, h.scope, fun i hi => ?_, fun i hi => ?_⟩
      · obtain ⟨j, hj, rfl⟩ := List.mem_map.mp hi
        split
        · next hsel => exact (hone j hj).mp hsel ▸ hbelongs
        · exact h.belongs j hj
      · obtain ⟨j, hj, rfl⟩ := List.mem_map.mp hi
        split
        · next hsel => exact (hone j hj).mp hsel ▸ hcheck
        · exact h.checks j hj
    · cases hok

/-! ### A new request -/

/-- Rows that have just been added for a request. -/
structure Added (requestId taskId projectId : Uuid) (pairs : List (Uuid × ℕ))
    (rows : List ReviewerRow) : Prop where
  pairs : rows.map (fun v => (v.reviewerId, v.sequence)) = pairs
  fresh : ∀ v ∈ rows, v.approvalRequestId = requestId ∧ v.taskId = taskId ∧
    v.projectId = projectId ∧ v.status = .pending ∧ v.decidedAt = none ∧ v.deletedAt = none

theorem insertReviewers_ok {requestId projectId : Uuid} :
    ∀ {pairs : List (Uuid × ℕ)} {s s' : Store}, pairs.foldlM (fun s (reviewerId, sequence) =>
      insertReviewer
        { id := s.newId, projectId, taskId, approvalRequestId := requestId, reviewerId, sequence
          createdAt := s.db.now, updatedAt := s.db.now } s) s = .ok s' →
      ∃ rows, Added requestId taskId projectId pairs rows ∧
        s'.reviewers.rows = s.reviewers.rows ++ rows ∧ s'.requests = s.requests ∧
        SameLists s s'
  | [], s, s', h => by
    cases pure_ok.mp h
    exact ⟨[], ⟨rfl, by simp⟩, (List.append_nil _).symm, rfl, rfl, rfl, fun _ _ hs => hs⟩
  | (reviewerId, sequence) :: pairs, s, s', h => by
    rw [List.foldlM_cons] at h
    obtain ⟨s1, h1, h⟩ := bind_ok.mp h
    obtain ⟨-, h1⟩ := then_ok.mp h1
    simp only [throw_bind, guard_ok] at h1
    obtain ⟨-, h1⟩ := h1
    obtain ⟨T, hT, rfl⟩ := insertRow_ok h1
    obtain ⟨-, hrows⟩ := Table.insert?_eq_some hT
    obtain ⟨rows, ⟨hpairs, hfresh⟩, hreviewers, hrequests, hlists⟩ := insertReviewers_ok h
    set row : ReviewerRow :=
      { id := s.newId, projectId, taskId, approvalRequestId := requestId, reviewerId, sequence
        createdAt := s.db.now, updatedAt := s.db.now }
    refine ⟨row :: rows, ⟨by rw [List.map_cons, hpairs], ?_⟩, ?_, hrequests, hlists.checklists,
      hlists.items, fun k p hs => hlists.tasks k p hs⟩
    · exact List.forall_mem_cons.mpr ⟨⟨rfl, rfl, rfl, rfl, rfl, rfl⟩, hfresh⟩
    · rw [hreviewers]
      show T.rows ++ rows = _
      rw [hrows, List.append_assoc]
      rfl

theorem requireActiveMembers_ok {userIds uniqueIds : List Uuid}
    (h : requireActiveMembers s userIds = .ok uniqueIds) :
    uniqueIds = userIds.reverse.dedup.reverse ∧ ∀ u ∈ uniqueIds, u ∈ s.db.members := by
  unfold requireActiveMembers at h
  simp only at h
  split at h
  · next hall =>
    cases h
    exact ⟨rfl, fun u hu => activeMember_iff.mp (List.all_eq_true.mp hall u hu)⟩
  · cases h

structure Requested (s s' : Store) (q : ApprovalRequestRow) (reviewerIds : List Uuid)
    (rows : List ReviewerRow) : Prop extends SameLists s s' where
  scope : Scoped s.db q.taskId q.projectId
  fresh : s.requests.find? q.id = none
  open_ : q.status = .pending ∧ q.resolvedAt = none ∧ q.deletedAt = none
  voters : reviewerIds.Nodup ∧ reviewerIds ≠ []
  added : Added q.id q.taskId q.projectId reviewerIds.zipIdx rows
  requests : s'.requests.rows = s.requests.rows ++ [q]
  reviewers : s'.reviewers.rows = s.reviewers.rows ++ rows

theorem requestApproval_ok {input : CreateTaskApprovalInput}
    (h : requestApproval s actorId input = .ok s') :
    ∃ q reviewerIds rows, Requested s s' q reviewerIds rows := by
  unfold requestApproval at h
  cases actorId with
  | none => cases h
  | some actorId =>
    simp only [throw_bind, guard_ok, not_or] at h
    obtain ⟨⟨hne, -⟩, h⟩ := h
    obtain ⟨task, -, h⟩ := bind_ok.mp h
    obtain ⟨_, -, h⟩ := bind_ok.mp h
    obtain ⟨reviewerIds, hreviewers, h⟩ := bind_ok.mp h
    obtain ⟨rfl, -⟩ := requireActiveMembers_ok hreviewers
    obtain ⟨s1, h1, h⟩ := bind_ok.mp (mapError_ok.mp h)
    obtain ⟨hvalid, h1⟩ := then_ok.mp h1
    simp only [throw_bind, guard_ok] at h1
    obtain ⟨-, h1⟩ := h1
    obtain ⟨T, hT, rfl⟩ := insertRow_ok h1
    obtain ⟨hnone, hrows⟩ := Table.insert?_eq_some hT
    obtain ⟨rows, hadded, hrest, hrequests, hlists⟩ := insertReviewers_ok h
    obtain ⟨hscope, -⟩ := then_ok.mp hvalid
    refine ⟨_, _, rows, ⟨⟨hlists.checklists, hlists.items, fun k p hs => hlists.tasks k p hs⟩,
      validateTaskWorkflowScope_scoped hscope, hnone, ⟨rfl, rfl, rfl⟩, ⟨?_, ?_⟩, hadded, ?_, hrest⟩⟩
    · exact List.nodup_reverse.mpr (List.nodup_dedup _)
    · intro hnil
      rw [List.reverse_eq_nil_iff, List.dedup_eq_nil, List.reverse_eq_nil_iff] at hnil
      exact hne hnil
    · rw [hrequests]
      exact hrows

section Requested

variable {q : ApprovalRequestRow} {reviewerIds : List Uuid} {rows : List ReviewerRow}

theorem Requested.find? (hr : Requested s s' q reviewerIds rows) (id : Uuid) :
    s'.requests.find? id = if q.id = id then some q else s.requests.find? id := by
  have hfresh := hr.fresh
  unfold Table.find? at hfresh ⊢
  rw [hr.requests, List.find?_append]
  by_cases hid : q.id = id
  · rw [if_pos hid, ← hid, hfresh]
    simp
  · rw [if_neg hid]
    simp [hid]

theorem Reviews.other_request (h : Reviews s) (hr : Requested s s' q reviewerIds rows)
    {v : ReviewerRow} (hv : v ∈ s.reviewers.rows) : v.approvalRequestId ≠ q.id := by
  intro he
  obtain ⟨r, hfind, -⟩ := h.belongs v hv
  rw [he, hr.fresh] at hfind
  cases hfind

theorem Reviews.votes_requested (h : Reviews s) (hr : Requested s s' q reviewerIds rows)
    (id : Uuid) : s'.votes id = if q.id = id then rows.map ReviewerRow.vote else s.votes id := by
  unfold Store.votes
  rw [hr.reviewers, List.filter_append, List.map_append]
  by_cases hid : q.id = id
  · have hold : s.reviewers.rows.filter (fun v => v.approvalRequestId = id) = [] :=
      List.filter_eq_nil_iff.mpr fun v hv => by
        rw [← hid, decide_eq_true_eq]
        exact h.other_request hr hv
    have hnew : rows.filter (fun v => v.approvalRequestId = id) = rows :=
      List.filter_eq_self.mpr fun v hv => decide_eq_true ((hr.added.fresh v hv).1.trans hid)
    rw [if_pos hid, hold, hnew, List.map_nil, List.nil_append]
  · have hnew : rows.filter (fun v => v.approvalRequestId = id) = [] :=
      List.filter_eq_nil_iff.mpr fun v hv => by
        rw [(hr.added.fresh v hv).1, decide_eq_true_eq]
        exact hid
    rw [if_neg hid, hnew, List.map_nil, List.append_nil]

theorem Reviews.ballot?_requested (h : Reviews s) (hr : Requested s s' q reviewerIds rows)
    (id : Uuid) : s'.ballot? id =
      if q.id = id then some ⟨q.mode, .pending, rows.map ReviewerRow.vote⟩ else s.ballot? id := by
  unfold Store.ballot?
  rw [hr.find?, h.votes_requested hr]
  by_cases hid : q.id = id
  · rw [if_pos hid, if_pos hid, if_pos hid, Option.map_some, hr.open_.1]
  · rw [if_neg hid, if_neg hid, if_neg hid]

theorem Requested.sound (hr : Requested s s' q reviewerIds rows) :
    Ballot.Sound ⟨q.mode, .pending, rows.map ReviewerRow.vote⟩ := by
  have hids : (rows.map ReviewerRow.id).Nodup := by
    have hall := s'.reviewers.nodup
    rw [hr.reviewers, List.map_append] at hall
    exact (List.nodup_append.mp hall).2.1
  have hsequences : rows.map ReviewerRow.sequence = List.range' 0 reviewerIds.length := by
    have hsnd := congrArg (List.map Prod.snd) hr.added.pairs
    rwa [List.map_map, List.zipIdx_map_snd] at hsnd
  have hlength : rows.length = reviewerIds.length := by
    simpa using congrArg List.length hr.added.pairs
  refine Ballot.sound_new ?_ ?_ ?_ ?_
  · rw [List.map_map]
    exact hids
  · rw [List.map_map]
    exact hsequences ▸ List.nodup_range'
  · intro hnil
    rw [List.map_eq_nil_iff] at hnil
    rw [hnil] at hlength
    exact hr.voters.2 (List.length_eq_zero_iff.mp hlength.symm)
  · intro w hw
    obtain ⟨v, hv, rfl⟩ := List.mem_map.mp hw
    exact (hr.added.fresh v hv).2.2.2.1

theorem Reviews.requested (h : Reviews s) (hr : Requested s s' q reviewerIds rows) :
    Reviews s' where
  scope r hm := by
    rcases List.mem_append.mp (hr.requests ▸ hm) with hm | hm
    · exact hr.tasks _ _ (h.scope r hm)
    · cases List.mem_singleton.mp hm
      exact hr.tasks _ _ hr.scope
  resolution r hm := by
    rcases List.mem_append.mp (hr.requests ▸ hm) with hm | hm
    · exact h.resolution r hm
    · cases List.mem_singleton.mp hm
      exact iff_of_true hr.open_.1 hr.open_.2.1
  live r hm := by
    rcases List.mem_append.mp (hr.requests ▸ hm) with hm | hm
    · exact h.live r hm
    · cases List.mem_singleton.mp hm
      exact fun _ => hr.open_.2.2
  belongs v hv := by
    rcases List.mem_append.mp (hr.reviewers ▸ hv) with hv | hv
    · obtain ⟨r, hfind, hrest⟩ := h.belongs v hv
      refine ⟨r, ?_, hrest⟩
      rw [hr.find?, if_neg (h.other_request hr hv).symm, hfind]
    · obtain ⟨hid, htask, hproject, -, -, -⟩ := hr.added.fresh v hv
      refine ⟨q, ?_, hproject.symm, htask.symm, fun _ => hr.open_.2.2⟩
      rw [hr.find?, if_pos hid.symm]
  kept v hv r hfind hlive := by
    rcases List.mem_append.mp (hr.reviewers ▸ hv) with hv | hv
    · rw [hr.find?, if_neg (h.other_request hr hv).symm] at hfind
      exact h.kept v hv r hfind hlive
    · exact (hr.added.fresh v hv).2.2.2.2.2
  decision v hv := by
    rcases List.mem_append.mp (hr.reviewers ▸ hv) with hv | hv
    · exact h.decision v hv
    · obtain ⟨-, -, -, hstatus, hdecided, -⟩ := hr.added.fresh v hv
      exact iff_of_true hstatus hdecided
  voters v hv w hw hrequest hvoter := by
    rcases List.mem_append.mp (hr.reviewers ▸ hv) with hv | hv <;>
      rcases List.mem_append.mp (hr.reviewers ▸ hw) with hw | hw
    · exact h.voters v hv w hw hrequest hvoter
    · exact absurd (hrequest.trans (hr.added.fresh w hw).1) (h.other_request hr hv)
    · exact absurd (hrequest.symm.trans (hr.added.fresh v hv).1) (h.other_request hr hw)
    · have hfst := congrArg (List.map Prod.fst) hr.added.pairs
      rw [List.map_map, List.zipIdx_map_fst] at hfst
      have hnodup : (rows.map ReviewerRow.reviewerId).Nodup := hfst ▸ hr.voters.1
      rw [List.inj_on_of_nodup_map hnodup hv hw hvoter]
  ballots id b hb := by
    rw [h.ballot?_requested hr] at hb
    split at hb
    · exact Option.some.inj hb ▸ hr.sound
    · exact h.ballots id b hb

end Requested

/-! ### The deletion of a task -/

theorem closeAll_ok : ∀ {tasks : List TaskRow} {s s' : Store},
    Lists s → Reviews s →
      tasks.foldlM (fun s r => closeDeletedTaskWorkflows r.id s.db.newDate s) s = .ok s' →
      Lists s' ∧ Reviews s' ∧ ∀ id, s'.ballot? id = s.ballot? id ∨
        ∃ b, s.ballot? id = some b ∧ b.status = .pending ∧
          s'.ballot? id = some (b.close .canceled)
  | [], s, s', hlists, h, hok => by
    cases pure_ok.mp hok
    exact ⟨hlists, h, fun id => Or.inl rfl⟩
  | r :: tasks, s, s', hlists, h, hok => by
    rw [List.foldlM_cons] at hok
    obtain ⟨s1, h1, hok⟩ := bind_ok.mp hok
    obtain ⟨-, rfl⟩ := (closeDeletedTaskWorkflows_ok hlists h).mp h1
    obtain ⟨hlists', h', hballots⟩ := closeAll_ok (hlists.closed _ _) (h.closed _ _) hok
    refine ⟨hlists', h', fun id => ?_⟩
    rcases h.ballot?_closed r.id s.db.newDate id with hsame | ⟨b, hb, hpending, hclosed⟩
    · exact hsame ▸ hballots id
    · refine Or.inr ⟨b, hb, hpending, ?_⟩
      rcases hballots id with hsame | ⟨b', hb', hpending', -⟩
      · exact hsame.trans hclosed
      · rw [hclosed] at hb'
        cases hb'
        cases hpending'

end CalmBoard.Workflows
