import CalmBoard.Timesheets.Repository
import CalmBoard.Workflows.Closing

/-!
# CalmBoard.Timesheets.Closing — closing what inactive people are part of

* `Sound`: what every request keeps.
* `Closes`: the requests that only close rows that exist.
* `closing_succeeds_iff`: they succeed exactly when the people in these rows are still members.
-/

namespace CalmBoard.Timesheets

open Fallible

variable {rt : Runtime} {s s' : Store}

/-- What every request keeps. -/
structure Sound (s : Store) : Prop where
  work : Workflows.Coherent s.work
  checks : ∀ r ∈ s.timesheets.rows, checkTimesheet r = .ok ()

/-! ### Statements -/

theorem updateTimesheet_ok {p : TimesheetRow → Bool} {f : TimesheetRow → TimesheetRow}
    (hf : ∀ r, (f r).id = r.id) : updateTimesheet p f s = .ok s' ↔
      (∀ r ∈ s.timesheets.rows, p r = true → guardTimesheetTransition s r (f r) = .ok () ∧
        validateTimesheetScope s (f r) = .ok () ∧ checkTimesheet (f r) = .ok ()) ∧
      s' = { s with timesheets := s.timesheets.update p f hf } := by
  unfold updateTimesheet
  rw [updateRows_ok hf fun _ _ _ _ => rfl]
  simp only [then_ok]
  exact Iff.rfl

theorem Sound.update (h : Sound s) {p : TimesheetRow → Bool} {f : TimesheetRow → TimesheetRow}
    (hf : ∀ r, (f r).id = r.id) (hok : updateTimesheet p f s = .ok s') : Sound s' := by
  obtain ⟨hrows, rfl⟩ := (updateTimesheet_ok hf).mp hok
  refine ⟨h.work, fun r hr => ?_⟩
  obtain ⟨old, hold, rfl⟩ := List.mem_map.mp hr
  by_cases hp : p old = true
  · rw [if_pos hp]
    exact (hrows old hold hp).2.2
  · rw [if_neg hp]
    exact h.checks old hold

theorem Sound.insertTimesheet (h : Sound s) {r : TimesheetRow} (hok : insertTimesheet r s = .ok s') :
    Sound s' := by
  unfold Timesheets.insertTimesheet at hok
  simp only [then_ok] at hok
  obtain ⟨-, hcheck, hok⟩ := hok
  split at hok
  · cases pure_ok.mp hok
    exact h
  · split at hok
    · next T hT =>
      cases pure_ok.mp hok
      refine ⟨h.work, fun t ht => ?_⟩
      rw [(Table.insert?_eq_some hT).2] at ht
      rcases List.mem_append.mp ht with ht | ht
      · exact h.checks t ht
      · cases List.mem_singleton.mp ht
        exact hcheck
    · cases pure_ok.mp hok
      exact h

theorem Sound.outside (h : Sound s) {db : Db}
    (htasks : ∀ k p, Workflows.Scoped s.work.db k p → Workflows.Scoped db k p) :
    Sound { s with work := { s.work with db } } :=
  ⟨(h.work.outside (.setMembers []) htasks).1, h.checks⟩

theorem Sound.drawn (h : Sound s) : Sound s.drawn := h.outside fun _ _ hs => hs

theorem Sound.insertTimeLog (h : Sound s) {log : TimeLogRow} (hok : insertTimeLog log s = .ok s') :
    Sound s' := by
  unfold Timesheets.insertTimeLog at hok
  simp only [then_ok] at hok
  obtain ⟨-, -, hok⟩ := hok
  split at hok
  · next T hT =>
    cases pure_ok.mp hok
    exact Sound.drawn ⟨h.work, h.checks⟩
  · cases hok

theorem Sound.addLoggedHours (h : Sound s) (taskId : Uuid) (minutes : ℤ) :
    Sound (addLoggedHours rt taskId minutes s) := by
  refine h.outside fun k p hs => ?_
  obtain ⟨t, ht, hp⟩ := hs
  have hfind := Table.find?_update s.work.db.tasks (fun t => t.id = taskId && t.active)
    (withHours rt minutes s.work.db.newDate) (withHours_id rt minutes s.work.db.newDate) k
  rw [ht] at hfind
  refine ⟨_, hfind, ?_⟩
  dsimp only
  split
  · exact hp
  · exact hp

/-! ### Calls -/

variable {actorId : Option Uuid}

theorem Sound.create (h : Sound s) {input : CreateTimeLogInput}
    (hok : create rt s actorId input = .ok s') : Sound s' := by
  unfold Timesheets.create at hok
  obtain ⟨actorId, -, hok⟩ := bind_ok.mp hok
  obtain ⟨-, hok⟩ := then_ok.mp hok
  obtain ⟨minutes, -, hok⟩ := bind_ok.mp hok
  dsimp only at hok
  split at hok
  · cases hok
  · obtain ⟨⟨periodStart, periodEnd⟩, -, hok⟩ := bind_ok.mp hok
    obtain ⟨task, -, hok⟩ := bind_ok.mp hok
    obtain ⟨periodStart, -, hok⟩ := bind_ok.mp hok
    obtain ⟨periodEnd, -, hok⟩ := bind_ok.mp hok
    obtain ⟨s1, h1, hok⟩ := bind_ok.mp hok
    have hs1 : Sound s1 := h.insertTimesheet h1
    split at hok
    · cases hok
    · simp only [throw_bind, guard_ok] at hok
      obtain ⟨-, hok⟩ := hok
      obtain ⟨s2, h2, hok⟩ := bind_ok.mp hok
      have hs2 : Sound s2 := by
        unfold reopenRejected at h2
        split at h2
        · exact hs1.drawn.update (f := reopen _) (fun _ => rfl) h2
        · cases h2
          exact hs1.drawn
      obtain ⟨s3, h3, hok⟩ := bind_ok.mp hok
      cases pure_ok.mp hok
      exact (hs2.insertTimeLog h3).addLoggedHours _ _

theorem Sound.submit (h : Sound s) {timesheetId : Uuid} {version : ℤ}
    (hok : submit s actorId timesheetId version = .ok s') : Sound s' := by
  unfold Timesheets.submit at hok
  obtain ⟨actorId, -, hok⟩ := bind_ok.mp hok
  obtain ⟨-, hok⟩ := then_ok.mp hok
  split at hok
  · cases hok
  · simp only [throw_bind, guard_ok] at hok
    obtain ⟨-, -, hok⟩ := hok
    split at hok
    · cases pure_ok.mp hok
      exact h
    · exact h.update (f := submitted _) (fun _ => rfl) (guard_ok.mp hok).2

theorem Sound.review (h : Sound s) {timesheetId : Uuid} {input : ReviewInput}
    (hok : review s actorId timesheetId input = .ok s') : Sound s' := by
  unfold Timesheets.review at hok
  obtain ⟨actorId, -, hok⟩ := bind_ok.mp hok
  obtain ⟨-, hok⟩ := then_ok.mp hok
  split at hok
  · cases hok
  · simp only [throw_bind, guard_ok] at hok
    obtain ⟨-, -, -, -, hok⟩ := hok
    exact h.update (f := reviewed _ _ _ _) (fun _ => rfl) hok

theorem Sound.step (h : Sound s) {request : Request} (hok : step rt request s = .ok s') :
    Sound s' := by
  cases request with
  | work request =>
    obtain ⟨work, hwork, hok⟩ := bind_ok.mp hok
    cases pure_ok.mp hok
    exact ⟨(Workflows.coherent_step h.work hwork).1, h.checks⟩
  | create actorId input => exact h.create hok
  | submit actorId timesheetId version => exact h.submit hok
  | review actorId timesheetId input => exact h.review hok

/-- **Invariant** of every run. -/
theorem sound_after (rt : Runtime) (setup : Setup) (requests : List Request) :
    Sound (after rt setup requests) :=
  Runs.run_invariant (fun _ _ _ hs hok => hs.step hok) requests _
    ⟨Workflows.coherent_after rt setup [], fun _ hr => absurd hr List.not_mem_nil⟩

/-! ### Reviews -/

theorem reviewed_ok {r : TimesheetRow} (hcheck : checkTimesheet r = .ok ())
    (hstatus : r.status = .submitted) {actorId : Uuid} (hmember : actorId ∈ s.work.db.members)
    (hother : r.userId ≠ actorId) (decision : Decision) (reason : Option String) (t : Timestamptz) :
    (guardTimesheetTransition s r (reviewed actorId decision reason t r) = .ok () ∧
      validateTimesheetScope s (reviewed actorId decision reason t r) = .ok () ∧
      checkTimesheet (reviewed actorId decision reason t r) = .ok ()) ↔
      r.userId ∈ s.work.db.members := by
  have hguard : guardTimesheetTransition s r (reviewed actorId decision reason t r) = .ok () := by
    have hversion : ¬(reviewed actorId decision reason t r).version < r.version := by
      show ¬r.version + 1 < r.version
      omega
    unfold guardTimesheetTransition
    simp only [throw_bind, guard_ok, hstatus]
    refine ⟨by simp [reviewed], (fun h => by cases h), ?_, by simp, hversion, rfl⟩
    cases decision <;> simp [reviewed, TimesheetStatus.next]
  have hscope : validateTimesheetScope s (reviewed actorId decision reason t r) = .ok () ↔
      r.userId ∈ s.work.db.members := by
    unfold validateTimesheetScope reviewed
    simp only [throw_bind, guard_ok, not_not]
    exact ⟨fun h => h.1, fun h => ⟨h, fun he => hother he.symm, hmember, rfl⟩⟩
  have hnew : checkTimesheet (reviewed actorId decision reason t r) = .ok () := by
    unfold checkTimesheet at hcheck ⊢
    simp only [throw_bind, guard_ok] at hcheck ⊢
    obtain ⟨hperiod, hlength, hversion, hsubmitted, -⟩ := hcheck
    have hversion' : ¬r.version + 1 < 1 := by omega
    have hsubmitted' : r.submittedAt ≠ none := fun he => hsubmitted ⟨by simp [hstatus], he⟩
    cases decision with
    | approved => exact ⟨hperiod, hlength, hversion', by simp [reviewed, hsubmitted'],
        by simp [reviewed], by simp [reviewed], by simp [reviewed], rfl⟩
    | rejected => exact ⟨hperiod, hlength, hversion', by simp [reviewed, hsubmitted'],
        by simp [reviewed], by simp [reviewed], by simp [reviewed], rfl⟩
  rw [hscope]
  exact ⟨fun h => h.2.1, fun h => ⟨hguard, h, hnew⟩⟩

theorem Sound.review_iff (h : Sound s) {r : TimesheetRow} (hr : r ∈ s.timesheets.rows)
    (hstatus : r.status = .submitted) {actorId : Uuid} (hmember : actorId ∈ s.work.db.members)
    (hother : r.userId ≠ actorId) {input : ReviewInput} (hversion : input.expectedVersion = r.version)
    (hreason : input.decision = .rejected → Workflows.trimmedOrNull input.reason ≠ none) :
    (∃ s', Timesheets.step rt (.review (some actorId) r.id input) s = .ok s') ↔
      r.userId ∈ s.work.db.members := by
  set reason := Workflows.trimmedOrNull input.reason
  set selects : TimesheetRow → Bool := fun x => x.id = r.id && x.version = input.expectedVersion
  have hselects : ∀ x ∈ s.timesheets.rows, selects x = true ↔ x = r := by
    intro x hx
    simp only [selects, Bool.and_eq_true, decide_eq_true_eq]
    constructor
    · rintro ⟨hid, -⟩
      exact Table.eq_of_mem hx hr hid
    · rintro rfl
      exact ⟨rfl, hversion.symm⟩
  have hrow := reviewed_ok (h.checks r hr) hstatus hmember hother input.decision reason
    s.work.db.newDate
  have hid : ∀ x, (reviewed actorId input.decision reason s.work.db.newDate x).id = x.id := fun _ => rfl
  have hwrite : (∃ s', updateTimesheet selects (reviewed actorId input.decision reason
      s.work.db.newDate) s = .ok s') ↔ r.userId ∈ s.work.db.members := by
    rw [← hrow]
    constructor
    · rintro ⟨s', hok⟩
      exact ((updateTimesheet_ok hid).mp hok).1 r hr ((hselects r hr).mpr rfl)
    · intro hpasses
      refine ⟨_, (updateTimesheet_ok hid).mpr ⟨fun x hx hsel => ?_, rfl⟩⟩
      rw [(hselects x hx).mp hsel]
      exact hpasses
  rw [← hwrite]
  refine exists_congr fun s' => ?_
  show Timesheets.review s (some actorId) r.id input = .ok s' ↔ _
  have hactive : requireActiveMember s actorId = .ok () := if_pos hmember
  have hnone : ¬(input.decision = .rejected ∧ reason = none) := fun hboth => hreason hboth.1 hboth.2
  unfold Timesheets.review
  rw [Table.find?_of_mem hr]
  simp only [throw_bind, bind_ok, guard_ok, requireActor, hactive, hstatus, hversion, hother,
    Except.ok.injEq, exists_eq_left', selects]
  constructor
  · rintro ⟨_, _, _, _, _, _, hok⟩
    exact hok
  · exact fun hok => ⟨(), trivial, id, not_not.mpr rfl, not_not.mpr rfl, hnone, hok⟩

/-! ### Requests that close -/

/-- A request that closes rows which are there, by somebody who may. -/
inductive Closes (s : Store) : Request → Prop
  | decide {actorId requestId : Uuid} {v : Workflows.ReviewerRow}
      {q : Workflows.ApprovalRequestRow} (hr : Workflows.Review s.work actorId requestId v q)
      (hmember : actorId ∈ s.work.db.members) (hturn : Workflows.InTurn s.work v q)
      (decision : Workflows.TaskApprovalDecision) (comment : Option String) :
      Closes s (.work (.decideApproval (some actorId) requestId decision comment))
  | cancel {q : Workflows.ApprovalRequestRow} (hq : q ∈ s.work.requests.rows)
      (hopen : q.status = .pending) : Closes s (.work (.cancelApproval (some q.requestedBy) q.id))
  | delete {t : TaskRow} (ht : t ∈ s.work.db.tasks.rows) (hactive : t.active = true) :
      Closes s (.work (.workspace (.softDeleteTask t.id)))
  | review {r : TimesheetRow} (hr : r ∈ s.timesheets.rows) (hstatus : r.status = .submitted)
      {actorId : Uuid} (hmember : actorId ∈ s.work.db.members) (hother : r.userId ≠ actorId)
      {input : ReviewInput} (hversion : input.expectedVersion = r.version)
      (hreason : input.decision = .rejected → Workflows.trimmedOrNull input.reason ≠ none) :
      Closes s (.review (some actorId) r.id input)

/-- The people in the rows a request closes are members. -/
inductive PeopleActive (s : Store) : Request → Prop
  | decide {actorId requestId : Uuid} {decision : Workflows.TaskApprovalDecision}
      {comment : Option String} (hpeople : ∀ v q, Workflows.Review s.work actorId requestId v q →
        Workflows.Resolves s.work v q decision → q.requestedBy ∈ s.work.db.members ∧
          ∀ w ∈ s.work.reviewers.rows, w.approvalRequestId = q.id → w.status = .pending → w ≠ v →
            w.reviewerId ∈ s.work.db.members) :
      PeopleActive s (.work (.decideApproval (some actorId) requestId decision comment))
  | cancel {actorId : Option Uuid} {requestId : Uuid} (hpeople : ∀ q ∈ s.work.requests.rows,
      q.id = requestId → q.requestedBy ∈ s.work.db.members ∧ ∀ w ∈ s.work.reviewers.rows,
        w.approvalRequestId = q.id → w.status = .pending → w.reviewerId ∈ s.work.db.members) :
      PeopleActive s (.work (.cancelApproval actorId requestId))
  | delete {taskId : Uuid} (hpeople : Workflows.Closable s.work taskId ∧
      ∀ c ∈ s.work.subtasks taskId, Workflows.Closable s.work c.id) :
      PeopleActive s (.work (.workspace (.softDeleteTask taskId)))
  | review {actorId : Option Uuid} {timesheetId : Uuid} {input : ReviewInput}
      (hpeople : ∀ r ∈ s.timesheets.rows, r.id = timesheetId → r.userId ∈ s.work.db.members) :
      PeopleActive s (.review actorId timesheetId input)

theorem step_work {request : Workflows.Request} :
    (∃ s', step rt (.work request) s = .ok s') ↔ ∃ w, Workflows.step rt request s.work = .ok w := by
  constructor
  · rintro ⟨s', hok⟩
    obtain ⟨w, hw, -⟩ := bind_ok.mp hok
    exact ⟨w, hw⟩
  · rintro ⟨w, hw⟩
    exact ⟨{ s with work := w }, bind_ok.mpr ⟨w, hw, rfl⟩⟩

theorem Sound.closing_iff (h : Sound s) {request : Request} (hc : Closes s request) :
    (∃ s', Timesheets.step rt request s = .ok s') ↔ PeopleActive s request := by
  cases hc with
  | @decide actorId requestId v q hr hmember hturn decision comment =>
    rw [step_work, h.work.decide_iff hr hmember hturn]
    constructor
    · intro hpeople
      refine .decide fun v' q' hr' => ?_
      have hv : v' = v := Option.some.inj ((h.work.reviews.pendingReview?.mpr ⟨q', hr'⟩).symm.trans
        (h.work.reviews.pendingReview?.mpr ⟨q, hr⟩))
      have hq : q' = q := Option.some.inj (hr'.found.symm.trans hr.found)
      rw [hv, hq]
      exact hpeople
    · rintro ⟨hpeople⟩
      exact hpeople v q hr
  | @cancel q hq hopen =>
    rw [step_work, h.work.cancel_iff hq hopen]
    constructor
    · intro hpeople
      refine .cancel fun q' hq' hid => ?_
      rw [Table.eq_of_mem hq' hq hid]
      exact hpeople
    · rintro ⟨⟩
      rename_i hpeople
      exact hpeople q hq rfl
  | @delete t ht hactive =>
    rw [step_work, h.work.softDelete_iff ht hactive]
    constructor
    · exact .delete
    · rintro ⟨⟩
      assumption
  | @review r hr hstatus actorId hmember hother input hversion hreason =>
    rw [h.review_iff hr hstatus hmember hother hversion hreason]
    constructor
    · intro hpeople
      refine .review fun r' hr' hid => ?_
      rw [Table.eq_of_mem hr' hr hid]
      exact hpeople
    · rintro ⟨⟩
      rename_i hpeople
      exact hpeople r hr rfl

/-- **Closing**: in every reachable state a request that closes rows succeeds exactly when the
people in these rows are still members.  No request here lowers a plan below the usage or freezes writes;
`tasks_enforce_usage_update` or the write freeze could then refuse a soft deletion too. -/
theorem closing_succeeds_iff (rt : Runtime) (setup : Setup) (requests : List Request)
    (request : Request) (h : Closes (after rt setup requests) request) :
    (∃ s', step rt request (after rt setup requests) = .ok s') ↔
      PeopleActive (after rt setup requests) request :=
  (sound_after rt setup requests).closing_iff h

/-- A task with a review by the second member and a week of the third one. -/
def submittedWeek : List Request :=
  [.work (.workspace (.createTask { projectId := 7, title := "a" })),
    .work (.requestApproval (some 1) { taskId := 100, reviewerIds := [2] }),
    .create (some 3) { taskId := 100, durationMinutes := .fin 60 }, .submit (some 3) 103 1]

theorem closing_succeeds_iff_week :
    ∃ s', step utcRuntime (.review (some 2) 103 { decision := .approved, expectedVersion := 2 })
      (after utcRuntime Workflows.teamSetup submittedWeek) = .ok s' := by
  set s := after utcRuntime Workflows.teamSetup submittedWeek with hs
  have hrow : ∃ r ∈ s.timesheets.rows, r.id = 103 ∧ r.status = .submitted ∧ r.userId = 3 ∧
      r.version = 2 := by decide
  have hmember : 2 ∈ s.work.db.members ∧ 3 ∈ s.work.db.members := by decide
  obtain ⟨r, hr, hid, hstatus, howner, hversion⟩ := hrow
  rw [← hid]
  have hother : r.userId ≠ 2 := by rw [howner]; decide
  refine (closing_succeeds_iff utcRuntime Workflows.teamSetup submittedWeek _ (.review hr hstatus
    hmember.1 hother hversion.symm (by simp))).mpr (.review fun r' hr' hid' => ?_)
  rw [Table.eq_of_mem hr' hr hid', howner]
  exact hmember.2

/-- The week after everybody but the reviewer has left. -/
def abandonedWeek : List Request := submittedWeek ++ [.work (.setMembers [2])]

/-- Four requests that close something in the abandoned week. -/
def closings : List Request :=
  [.work (.decideApproval (some 2) 101 .approved none), .work (.cancelApproval (some 1) 101),
    .work (.workspace (.softDeleteTask 100)),
    .review (some 2) 103 { decision := .approved, expectedVersion := 2 }]

theorem inactive_people_block_closing :
    closings.length = 4 ∧ ∀ request ∈ closings,
      Closes (after utcRuntime Workflows.teamSetup abandonedWeek) request ∧
      ∀ s', step utcRuntime request (after utcRuntime Workflows.teamSetup abandonedWeek) ≠ .ok s' := by
  set s := after utcRuntime Workflows.teamSetup abandonedWeek with hs
  refine ⟨rfl, ?_⟩
  have hfails : ∀ request ∈ closings, (error? (step utcRuntime request s)).isSome = true := by
    decide
  have hmember : 2 ∈ s.work.db.members := by decide
  have hreviewer : ∃ v ∈ s.work.reviewers.rows, v.approvalRequestId = 101 ∧ v.reviewerId = 2 ∧
      v.status = .pending := by decide
  have hrequest : ∃ q ∈ s.work.requests.rows, q.id = 101 ∧ q.requestedBy = 1 ∧
      q.status = .pending ∧ q.mode = .all := by decide
  have htask : (s.work.db.tasks.rows.any fun t => decide (t.id = 100) && t.active) = true := by
    decide
  have hsheet : ∃ r ∈ s.timesheets.rows, r.id = 103 ∧ r.status = .submitted ∧ r.userId = 3 ∧
      r.version = 2 := by decide
  obtain ⟨v, hv, hvrequest, hvreviewer, hvstatus⟩ := hreviewer
  obtain ⟨q, hq, hqid, hqrequester, hqstatus, hqmode⟩ := hrequest
  obtain ⟨t, ht, hsel⟩ := List.any_eq_true.mp htask
  obtain ⟨r, hr, hrid, hrstatus, hrowner, hrversion⟩ := hsheet
  simp only [Bool.and_eq_true, decide_eq_true_eq] at hsel
  have hcloses : ∀ request ∈ closings, Closes s request := by
    intro request hrequest
    simp only [closings, List.mem_cons, List.not_mem_nil, or_false] at hrequest
    rcases hrequest with rfl | rfl | rfl | rfl
    · refine .decide ⟨hv, hvrequest, hvreviewer, hvstatus, hqid ▸ Table.find?_of_mem hq⟩ hmember
        (fun hmode => ?_) .approved none
      rw [hqmode] at hmode
      cases hmode
    · rw [← hqid, ← hqrequester]
      exact .cancel hq hqstatus
    · rw [← hsel.1]
      exact .delete ht hsel.2
    · rw [← hrid]
      have hother : r.userId ≠ 2 := by rw [hrowner]; decide
      exact .review hr hrstatus hmember hother hrversion.symm (by simp)
  refine fun request hrequest => ⟨hcloses request hrequest, fun s' hok => ?_⟩
  have herror := hfails request hrequest
  rw [hok] at herror
  cases herror

end CalmBoard.Timesheets
