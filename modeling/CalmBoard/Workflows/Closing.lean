import CalmBoard.Workflows.Outcome

/-!
# CalmBoard.Workflows.Closing — who must still be a member when a workflow closes

The triggers check the members of every row they write, also of rows that are only closed.

* `decide_iff`, `cancel_iff`, `softDelete_iff`: when the calls that close something succeed.
-/

namespace CalmBoard.Workflows

open Fallible

variable {rt : Runtime} {s s' : Store}

theorem Coherent.decide_iff (h : Coherent s) {actorId requestId : Uuid} {v : ReviewerRow}
    {q : ApprovalRequestRow} {decision : TaskApprovalDecision} {comment : Option String}
    (hr : Review s actorId requestId v q) (hmember : actorId ∈ s.db.members)
    (hturn : InTurn s v q) :
    (∃ s', step rt (.decideApproval (some actorId) requestId decision comment) s = .ok s') ↔
      (Resolves s v q decision → q.requestedBy ∈ s.db.members ∧
        ∀ w ∈ s.reviewers.rows, w.approvalRequestId = q.id → w.status = .pending → w ≠ v →
          w.reviewerId ∈ s.db.members) := by
  constructor
  · rintro ⟨s', hok⟩
    exact ((h.reviews.decideApproval_ok hr).mp hok).2.2.1
  · intro hclosing
    exact ⟨_, (h.reviews.decideApproval_ok hr).mpr ⟨hmember, hturn, hclosing, rfl⟩⟩

theorem Coherent.cancel_iff (h : Coherent s) {q : ApprovalRequestRow} (hq : q ∈ s.requests.rows)
    (hopen : q.status = .pending) :
    (∃ s', step rt (.cancelApproval (some q.requestedBy) q.id) s = .ok s') ↔
      q.requestedBy ∈ s.db.members ∧ ∀ w ∈ s.reviewers.rows, w.approvalRequestId = q.id →
        w.status = .pending → w.reviewerId ∈ s.db.members := by
  have hfind := Table.find?_of_mem hq
  constructor
  · rintro ⟨s', hok⟩
    obtain ⟨r, hr, -, -, hmember, hreviewers, -⟩ := h.reviews.cancelApproval_ok.mp hok
    exact ⟨hmember, hreviewers⟩
  · rintro ⟨hmember, hreviewers⟩
    exact ⟨_, h.reviews.cancelApproval_ok.mpr
      ⟨q, hfind, rfl, hopen, hmember, hreviewers, rfl⟩⟩

/-! ### Deleting a task -/

theorem members_foldl {α : Type} {f : Db → α → Db} (hf : ∀ db a, (f db a).members = db.members) :
    ∀ (l : List α) (db : Db), (l.foldl f db).members = db.members
  | [], _ => rfl
  | a :: l, db => (members_foldl hf l (f db a)).trans (hf db a)

theorem members_deleteTasks (db : Db) (p : TaskRow → Bool) :
    (Tasks.deleteTasks db p).members = db.members := by
  refine members_foldl (fun db r => ?_) _ _
  unfold Tasks.closeDeletedTask Tasks.closeRecurrence Tasks.setRecurring
  dsimp only
  split <;> rfl

theorem softDelete_total {db : Db} {t : TaskRow} (ht : t ∈ db.tasks.rows)
    (hactive : t.active = true) :
    ∃ db', Tasks.softDelete db t.id = .ok db' ∧ db'.members = db.members := by
  have hfind : Tasks.findActive db t.id = some t :=
    Option.filter_eq_some_iff.mpr ⟨Table.find?_of_mem ht, hactive⟩
  have hbefore : Tasks.getById db t.id = .ok (Tasks.hydrate db t) := by
    unfold Tasks.getById
    rw [hfind]
  have hdeleted : (Tasks.deleteTasks (Tasks.deleteTasks db fun u => u.id = t.id)
      fun u => u.parentId = some t.id).members = db.members :=
    (members_deleteTasks _ _).trans (members_deleteTasks _ _)
  unfold Tasks.softDelete
  rw [hbefore]
  dsimp only [bind, Except.bind]
  split
  · exact ⟨_, rfl, hdeleted⟩
  · split
    · exact ⟨_, rfl, hdeleted⟩
    · exact ⟨_, rfl, hdeleted⟩

theorem closable_iff {k : Uuid} : Closable s k ↔
    (∀ i ∈ s.items.rows, i.taskId = k → i.deletedAt = none → ∀ u, i.completedBy = some u →
      u ∈ s.db.members) ∧
    (∀ q ∈ s.requests.rows, q.taskId = k → q.deletedAt = none → q.requestedBy ∈ s.db.members) ∧
    ∀ v ∈ s.reviewers.rows, v.taskId = k → v.deletedAt = none → v.reviewerId ∈ s.db.members :=
  ⟨fun h => ⟨h.completers, h.requesters, h.reviewers⟩, fun h => ⟨h.1, h.2.1, h.2.2⟩⟩

theorem Lists.closable_closed (h : Lists s) {k taskId : Uuid} (hne : k ≠ taskId) (t : Timestamptz) :
    Closable (s.closed taskId t) k ↔ Closable s k := by
  have hitems : (∀ i ∈ (s.closed taskId t).items.rows, i.taskId = k → i.deletedAt = none →
      ∀ u, i.completedBy = some u → u ∈ s.db.members) ↔
      ∀ i ∈ s.items.rows, i.taskId = k → i.deletedAt = none →
        ∀ u, i.completedBy = some u → u ∈ s.db.members := by
    refine List.forall_mem_map.trans (forall₂_congr fun i hi => ?_)
    by_cases hsel : ((s.checklists.rows.filter (liveChecklist fun c => c.taskId = taskId)).any
        fun c => liveItem c.id i) = true
    · -- a selected item is of the closed task
      obtain ⟨c, hc, hitem⟩ := List.any_eq_true.mp hsel
      obtain ⟨hc, hlive⟩ := List.mem_filter.mp hc
      simp only [liveChecklist, liveItem, Bool.and_eq_true, decide_eq_true_eq] at hlive hitem
      obtain ⟨d, hd, -, htask, -⟩ := h.belongs i hi
      have hdc : d = c := Table.eq_of_mem (Table.mem_of_find? hd) hc
        ((Table.key_of_find? hd).trans hitem.1)
      have hi : i.taskId ≠ k := fun he => hne (he.symm.trans (htask.symm.trans (hdc ▸ hlive.1)))
      rw [if_pos hsel]
      exact iff_of_true (fun he => absurd he hi) (fun he => absurd he hi)
    · rw [if_neg hsel]
  have hrequests : (∀ q ∈ (s.closed taskId t).requests.rows, q.taskId = k → q.deletedAt = none →
      q.requestedBy ∈ s.db.members) ↔
      ∀ q ∈ s.requests.rows, q.taskId = k → q.deletedAt = none → q.requestedBy ∈ s.db.members := by
    refine List.forall_mem_map.trans (List.forall_mem_map.trans (forall₂_congr fun q hq => ?_))
    by_cases hk : q.taskId = k
    · have hopen : ¬openRequest taskId q = true := by simp [openRequest, hk, hne]
      have hlive : ¬liveRequest taskId q = true := by simp [liveRequest, hk, hne]
      rw [if_neg hopen, if_neg hlive]
    · refine iff_of_true (fun he => absurd ?_ hk) (fun he => absurd he hk)
      refine Eq.trans ?_ he
      split <;> split <;> rfl
  have hreviewers : (∀ v ∈ (s.closed taskId t).reviewers.rows, v.taskId = k → v.deletedAt = none →
      v.reviewerId ∈ s.db.members) ↔
      ∀ v ∈ s.reviewers.rows, v.taskId = k → v.deletedAt = none → v.reviewerId ∈ s.db.members := by
    refine List.forall_mem_map.trans (List.forall_mem_map.trans (forall₂_congr fun v hv => ?_))
    -- skipping a reviewer leaves who it is, deleting it is for the closed task
    set w := if ((s.requests.rows.filter (openRequest taskId)).any fun q => openOf q.id v) = true
      then v.set (skipping t) else v with hw
    have htask : w.taskId = v.taskId := by rw [hw]; split <;> rfl
    have hid : w.reviewerId = v.reviewerId := by rw [hw]; split <;> rfl
    have hdeleted : w.deletedAt = v.deletedAt := by rw [hw]; split <;> rfl
    by_cases hk : v.taskId = k
    · have hlive : ¬liveReviewer taskId w = true := by simp [liveReviewer, htask, hk, hne]
      have hrow : (if liveReviewer taskId w = true then w.set (deletingReviewer t) else w) = w :=
        if_neg hlive
      show ((if liveReviewer taskId w = true then w.set (deletingReviewer t) else w).taskId = k →
        (if liveReviewer taskId w = true then w.set (deletingReviewer t) else w).deletedAt = none →
        (if liveReviewer taskId w = true then w.set (deletingReviewer t) else w).reviewerId ∈
          s.db.members) ↔ _
      rw [hrow, htask, hid, hdeleted]
    · refine iff_of_true (fun he => absurd ?_ hk) (fun he => absurd he hk)
      refine htask.symm.trans (Eq.trans ?_ he)
      show w.taskId = (if liveReviewer taskId w = true then w.set (deletingReviewer t) else w).taskId
      split <;> rfl
  rw [closable_iff, closable_iff]
  exact and_congr hitems (and_congr hrequests hreviewers)

theorem closeAll_iff : ∀ {tasks : List TaskRow} {s : Store}, Lists s → Reviews s →
    (tasks.map TaskRow.id).Nodup →
      ((∃ s', tasks.foldlM (fun s r => closeDeletedTaskWorkflows r.id s.db.newDate s) s = .ok s') ↔
        ∀ r ∈ tasks, Closable s r.id)
  | [], s, _, _, _ => iff_of_true ⟨s, rfl⟩ fun r hr => absurd hr List.not_mem_nil
  | r :: tasks, s, hlists, h, hnodup => by
    obtain ⟨hr, hnodup⟩ := List.nodup_cons.mp hnodup
    have ih := closeAll_iff (hlists.closed r.id s.db.newDate) (h.closed r.id s.db.newDate) hnodup
    have hrest : (∀ c ∈ tasks, Closable (s.closed r.id s.db.newDate) c.id) ↔
        ∀ c ∈ tasks, Closable s c.id := by
      refine forall₂_congr fun c hc => hlists.closable_closed (fun he => hr ?_) _
      exact he ▸ List.mem_map_of_mem hc
    rw [List.forall_mem_cons, ← hrest, ← ih]
    simp only [List.foldlM_cons, bind_ok]
    constructor
    · rintro ⟨s', s1, h1, hok⟩
      obtain ⟨hclosable, rfl⟩ := (closeDeletedTaskWorkflows_ok hlists h).mp h1
      exact ⟨hclosable, s', hok⟩
    · rintro ⟨hclosable, s', hok⟩
      exact ⟨s', _, (closeDeletedTaskWorkflows_ok hlists h).mpr ⟨hclosable, rfl⟩, hok⟩

theorem closable_db {db : Db} (hmembers : db.members = s.db.members) {k : Uuid} :
    Closable { s with db } k ↔ Closable s k := by
  rw [closable_iff, closable_iff, ← hmembers]

theorem Coherent.softDelete_iff (h : Coherent s) {t : TaskRow} (ht : t ∈ s.db.tasks.rows)
    (hactive : t.active = true) :
    (∃ s', step rt (.workspace (.softDeleteTask t.id)) s = .ok s') ↔
      Closable s t.id ∧ ∀ c ∈ s.subtasks t.id, Closable s c.id := by
  obtain ⟨db, hdb, hmembers⟩ := softDelete_total ht hactive
  have htasks : ∀ k p, Scoped s.db k p → Scoped db k p := fun k p =>
    scoped_step (show CalmBoard.step utcRuntime (.softDeleteTask t.id) s.db = .ok db from hdb)
  obtain ⟨⟨hlists, h0⟩, -⟩ := h.outside (.setMembers []) htasks
  have hnodup : ((s.subtasks t.id).map TaskRow.id).Nodup :=
    s.db.tasks.nodup.sublist (List.filter_sublist.map TaskRow.id)
  have hclosed : ∀ c ∈ s.subtasks t.id,
      (Closable (Store.closed { s with db } t.id s.db.newDate) c.id ↔ Closable s c.id) := by
    intro c hc
    have hne : c.id ≠ t.id := by
      have hsel := (List.mem_filter.mp hc).2
      simp only [Bool.and_eq_true, decide_eq_true_eq] at hsel
      exact hsel.2
    rw [hlists.closable_closed hne, closable_db hmembers]
  have hall := closeAll_iff (hlists.closed t.id s.db.newDate) (h0.closed t.id s.db.newDate) hnodup
  rw [← closable_db hmembers, ← forall₂_congr hclosed, ← hall]
  constructor
  · rintro ⟨s', hok⟩
    obtain ⟨db', hdb', hok⟩ := bind_ok.mp (show Workflows.softDelete s t.id = .ok s' from hok)
    cases hdb.symm.trans hdb'
    obtain ⟨s1, h1, hok⟩ := bind_ok.mp hok
    obtain ⟨hclosable, rfl⟩ := (closeDeletedTaskWorkflows_ok hlists h0).mp h1
    exact ⟨hclosable, s', hok⟩
  · rintro ⟨hclosable, s', hok⟩
    refine ⟨s', bind_ok.mpr ⟨db, hdb, bind_ok.mpr ⟨_, ?_, hok⟩⟩⟩
    exact (closeDeletedTaskWorkflows_ok hlists h0).mpr ⟨hclosable, rfl⟩

end CalmBoard.Workflows
