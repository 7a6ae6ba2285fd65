import CalmBoard.Reports.Schedules

/-!
# CalmBoard.Reports.Served — a run for all of its schedules, or for none

The schedules that a run has locked share its transaction.

* `Passes`: what the triggers ask of one schedule.
* `enqueueSchedule_ok_iff`, `enqueueScheduledReports_ok_iff`: a run succeeds exactly when all of its
  schedules pass.
* `served_iff`: when a run serves the schedules whose creators are active members.
-/

namespace CalmBoard.Reports

open Fallible

variable {zones : Zones} {now : Timestamptz} {s t : Store} {r r' : ReportSchedule} {jobs : ExportJobs}
  {job : ExportJob} {inserted : Bool}

/-! ### One schedule -/

def ExportJobs.hasKey (jobs : ExportJobs) (key : String) : Prop :=
  key ∈ jobs.rows.map ExportJob.idempotencyKey

def ExportJobs.hasOccurrence (jobs : ExportJobs) (o : Uuid × Timestamptz) : Prop :=
  o ∈ jobs.rows.filterMap ExportJob.occurrence?

instance (jobs : ExportJobs) (key : String) : Decidable (jobs.hasKey key) :=
  inferInstanceAs (Decidable (_ ∈ _))

instance (jobs : ExportJobs) (o : Uuid × Timestamptz) : Decidable (jobs.hasOccurrence o) :=
  inferInstanceAs (Decidable (_ ∈ _))

/-- The workspace of a schedule is one of its organization, and not deleted. -/
def ReportSchedule.inWorkspace (s : Store) (r : ReportSchedule) : Bool :=
  (s.workspaces.find? r.workspaceId).any fun w =>
    w.organizationId = r.organizationId && w.deletedAt.isNone

/-- The creator of a schedule is an active member of its workspace. -/
def ReportSchedule.hasMember (s : Store) (r : ReportSchedule) : Bool :=
  s.activeMember r.organizationId r.workspaceId r.createdBy

/-- What the triggers ask of a due schedule. -/
structure Passes (zones : Zones) (now : Timestamptz) (s : Store) (r : ReportSchedule) : Prop where
  workspace : r.inWorkspace s = true
  member : r.hasMember s = true
  zone : zones.known r.timezone = true
  recurs : ∃ t, nextReportRun zones r.cadence r.timezone r.minuteOfDay now = .ok t

theorem insert_ok {x : ExportJobs × Bool} (h : jobs.insert job = .ok x) :
    (jobs.hasKey job.idempotencyKey ∧ x = (jobs, false)) ∨
      (¬ jobs.hasKey job.idempotencyKey ∧ (∀ o ∈ job.occurrence?, ¬ jobs.hasOccurrence o) ∧
        x.1.rows = jobs.rows ++ [job] ∧ x.2 = true) := by
  unfold ExportJobs.insert at h
  split at h
  · next hkey =>
    cases h
    exact Or.inl ⟨hkey, rfl⟩
  · next hkey =>
    split at h
    · cases h
    · next hfree =>
      cases h
      exact Or.inr ⟨hkey, fun o ho htaken => hfree ⟨o, ho, htaken⟩, rfl, rfl⟩

theorem insert_ok_iff : (∃ x, jobs.insert job = .ok x) ↔
    ((∃ o ∈ job.occurrence?, jobs.hasOccurrence o) → jobs.hasKey job.idempotencyKey) := by
  unfold ExportJobs.insert
  split
  · next hkey => exact ⟨fun _ _ => hkey, fun _ => ⟨_, rfl⟩⟩
  · next hkey =>
    split
    · next htaken =>
      refine ⟨fun h => ?_, fun h => absurd (h htaken) hkey⟩
      obtain ⟨x, hx⟩ := h
      cases hx
    · next hfree => exact ⟨fun _ h => absurd h hfree, fun _ => ⟨_, rfl⟩⟩

theorem nextReportRun_gt {cadence : Cadence} {timezone : String} {minuteOfDay : ℕ} {time : Timestamptz}
    (h : nextReportRun zones cadence timezone minuteOfDay now = .ok time) : now < time := by
  unfold nextReportRun at h
  split at h
  · cases h
  · split at h
    · cases h
    · dsimp only at h
      split at h
      · next hfound =>
        cases h
        obtain ⟨offsetDays, -, hcandidate⟩ := List.exists_of_findSome?_eq_some hfound
        split at hcandidate
        · split at hcandidate
          · next hlt =>
            cases hcandidate
            exact hlt
          · cases hcandidate
        · cases hcandidate
      · cases h

theorem validateReportSchedule_ok_iff :
    validateReportSchedule zones s r = .ok () ↔
      r.inWorkspace s = true ∧ r.hasMember s = true ∧ zones.known r.timezone = true := by
  unfold validateReportSchedule ReportSchedule.inWorkspace ReportSchedule.hasMember
  simp only [throw_bind, guard_ok, pure_ok, not_not, and_true]

/-- The trigger of a job asks for a member and a workspace of the organization, whether it is deleted
or not; the schedule is the one that is locked. -/
theorem validateExportJob_ok_iff (hfind : s.schedules.find? r.id = some r) :
    validateExportJob s r.organizationId r.workspaceId r.createdBy r.id r.format = .ok () ↔
      (s.workspaces.find? r.workspaceId).any (fun w => w.organizationId = r.organizationId) = true ∧
        r.hasMember s = true := by
  unfold validateExportJob ReportSchedule.hasMember
  simp only [throw_bind, guard_ok, pure_ok, not_not, and_true, hfind]
  simp

theorem any_of_inWorkspace (h : r.inWorkspace s = true) :
    (s.workspaces.find? r.workspaceId).any (fun w => w.organizationId = r.organizationId) = true := by
  obtain ⟨w, hw, hmatch⟩ := (Option.any_eq_true _ _).mp h
  rw [Bool.and_eq_true] at hmatch
  exact (Option.any_eq_true _ _).mpr ⟨w, hw, hmatch.1⟩

theorem enqueueSchedule_ok (h : enqueueSchedule zones now s r = .ok t) :
    ∃ jobs inserted nextRunAt, s.jobs.insert r.job = .ok (jobs, inserted) ∧ now < nextRunAt ∧
      t = s.enqueued r nextRunAt jobs inserted := by
  unfold enqueueSchedule at h
  obtain ⟨-, h⟩ := then_ok.mp h
  obtain ⟨⟨jobs, inserted⟩, hinsert, h⟩ := bind_ok.mp h
  obtain ⟨nextRunAt, hnext, h⟩ := bind_ok.mp h
  obtain ⟨-, h⟩ := then_ok.mp h
  exact ⟨jobs, inserted, nextRunAt, hinsert, nextReportRun_gt hnext, (pure_ok.mp h).symm⟩

/-- The occurrence of a schedule is not enqueued under another key. -/
def ReportSchedule.Fits (jobs : ExportJobs) (r : ReportSchedule) : Prop :=
  jobs.hasOccurrence (r.id, r.occurrence) → jobs.hasKey r.idempotencyKey

theorem insert_job_ok_iff : (∃ x, s.jobs.insert r.job = .ok x) ↔ r.Fits s.jobs := by
  rw [insert_ok_iff]
  simp [ReportSchedule.job, ExportJob.occurrence?, ReportSchedule.Fits]

theorem enqueueSchedule_ok_iff (hfind : s.schedules.find? r.id = some r) :
    (∃ t, enqueueSchedule zones now s r = .ok t) ↔ Passes zones now s r ∧ r.Fits s.jobs := by
  constructor
  · rintro ⟨t, h⟩
    unfold enqueueSchedule at h
    obtain ⟨-, h⟩ := then_ok.mp h
    obtain ⟨x, hx, h⟩ := bind_ok.mp h
    obtain ⟨nextRunAt, hnext, h⟩ := bind_ok.mp h
    obtain ⟨hvalid, -⟩ := then_ok.mp h
    obtain ⟨hworkspace, hmember, hzone⟩ := validateReportSchedule_ok_iff.mp hvalid
    exact ⟨⟨hworkspace, hmember, hzone, nextRunAt, hnext⟩, insert_job_ok_iff.mp ⟨x, hx⟩⟩
  · rintro ⟨hpasses, hfits⟩
    obtain ⟨nextRunAt, hnext⟩ := hpasses.recurs
    obtain ⟨⟨jobs, inserted⟩, hx⟩ := insert_job_ok_iff.mpr hfits
    have hjob := (validateExportJob_ok_iff hfind).mpr
      ⟨any_of_inWorkspace hpasses.workspace, hpasses.member⟩
    have hvalid : validateReportSchedule zones s (r.advanced nextRunAt) = .ok () :=
      validateReportSchedule_ok_iff.mpr ⟨hpasses.workspace, hpasses.member, hpasses.zone⟩
    refine ⟨s.enqueued r nextRunAt jobs inserted, then_ok.mpr ⟨hjob, bind_ok.mpr ⟨_, hx, ?_⟩⟩⟩
    exact bind_ok.mpr ⟨_, hnext, then_ok.mpr ⟨hvalid, rfl⟩⟩

/-! ### Other schedules -/

theorem idempotencyKey_ne (h : r.id ≠ r'.id) : r.idempotencyKey ≠ r'.idempotencyKey := by
  have hid : ∀ (n : ℕ) (rest : List Char),
      (Nat.toDigits 10 n ++ '/' :: rest).takeWhile Char.isDigit = Nat.toDigits 10 n := by
    intro n rest
    rw [List.takeWhile_append_of_pos fun c hc => Nat.isDigit_of_mem_toDigits (by decide) (by decide) hc]
    rw [List.takeWhile_cons_of_neg (by decide), List.append_nil]
  have htext : ∀ q : ReportSchedule, q.idempotencyKey.toList = "scheduled-report/".toList ++
      (Nat.toDigits 10 q.id ++ '/' :: IsoDate.toISOString q.nextRunAt.millis) := by
    intro q
    unfold ReportSchedule.idempotencyKey
    simp [toString]
  intro heq
  have hlist := congrArg String.toList heq
  rw [htext, htext] at hlist
  have hdigits := congrArg (List.takeWhile Char.isDigit) (List.append_cancel_left hlist)
  rw [hid, hid] at hdigits
  refine h ?_
  rw [← Nat.ofDigitChars_ten_toDigits (n := r.id), hdigits, Nat.ofDigitChars_ten_toDigits]

/-- What a run has read of a schedule, and what it needs to know of the jobs. -/
structure SameFor (r : ReportSchedule) (s t : Store) : Prop where
  row : t.schedules.find? r.id = s.schedules.find? r.id
  workspaces : t.workspaces = s.workspaces
  memberships : t.memberships = s.memberships
  key : t.jobs.hasKey r.idempotencyKey ↔ s.jobs.hasKey r.idempotencyKey
  occurrence : t.jobs.hasOccurrence (r.id, r.occurrence) ↔ s.jobs.hasOccurrence (r.id, r.occurrence)

/-- **Independence**: the work for one schedule is no matter for another. -/
theorem sameFor_of_ne (hne : r'.id ≠ r.id) (h : enqueueSchedule zones now s r' = .ok t) :
    SameFor r s t := by
  obtain ⟨jobs, inserted, nextRunAt, hinsert, -, rfl⟩ := enqueueSchedule_ok h
  have hrow : (s.schedules.put (r'.advanced nextRunAt)).find? r.id = s.schedules.find? r.id :=
    Table.find?_put_of_ne hne
  rcases insert_ok hinsert with ⟨-, hx⟩ | ⟨-, -, hrows, -⟩
  · cases hx
    exact ⟨hrow, rfl, rfl, Iff.rfl, Iff.rfl⟩
  · refine ⟨hrow, rfl, rfl, ?_, ?_⟩
    · show r.idempotencyKey ∈ jobs.rows.map _ ↔ _
      rw [hrows, List.map_append, List.mem_append]
      refine or_iff_left fun hmem => ?_
      exact idempotencyKey_ne (Ne.symm hne) (List.mem_singleton.mp hmem)
    · show (r.id, r.occurrence) ∈ jobs.rows.filterMap _ ↔ _
      rw [hrows, List.filterMap_append, List.mem_append]
      refine or_iff_left fun hmem => hne ?_
      have hpair : (r'.id, r'.occurrence) = (r.id, r.occurrence) := by
        simpa [ReportSchedule.job, ExportJob.occurrence?, eq_comm] using hmem
      exact congrArg Prod.fst hpair

theorem SameFor.refl (r : ReportSchedule) (s : Store) : SameFor r s s :=
  ⟨rfl, rfl, rfl, Iff.rfl, Iff.rfl⟩

theorem SameFor.trans {u : Store} (h : SameFor r s t) (h' : SameFor r t u) : SameFor r s u :=
  ⟨h'.row.trans h.row, h'.workspaces.trans h.workspaces, h'.memberships.trans h.memberships,
    h'.key.trans h.key, h'.occurrence.trans h.occurrence⟩

/-- Ready to be enqueued. -/
def Ready (zones : Zones) (now : Timestamptz) (s : Store) (r : ReportSchedule) : Prop :=
  Passes zones now s r ∧ r.Fits s.jobs

theorem SameFor.ready (h : SameFor r s t) : Ready zones now t r ↔ Ready zones now s r := by
  have hpasses : Passes zones now t r ↔ Passes zones now s r := by
    have hworkspace : r.inWorkspace t = r.inWorkspace s := by
      unfold ReportSchedule.inWorkspace
      rw [h.workspaces]
    have hmember : r.hasMember t = r.hasMember s := by
      unfold ReportSchedule.hasMember Store.activeMember
      rw [h.memberships]
    constructor
    · rintro ⟨h₁, h₂, h₃, h₄⟩
      exact ⟨hworkspace ▸ h₁, hmember ▸ h₂, h₃, h₄⟩
    · rintro ⟨h₁, h₂, h₃, h₄⟩
      exact ⟨hworkspace.symm ▸ h₁, hmember.symm ▸ h₂, h₃, h₄⟩
  unfold Ready ReportSchedule.Fits
  rw [hpasses, h.key, h.occurrence]

/-! ### One run -/

variable {options : ScheduledReportOptions} {skipped : List Uuid}

theorem mem_due (h : r ∈ due options now skipped s) :
    s.schedules.find? r.id = some r ∧ r.nextRunAt ≤ now := by
  have hmem := List.mem_of_mem_take h
  rw [List.mem_mergeSort, List.mem_filter] at hmem
  obtain ⟨hrow, hdue⟩ := hmem
  simp only [Bool.and_eq_true, decide_eq_true_eq] at hdue
  exact ⟨Table.find?_of_mem hrow, hdue.1.2⟩

theorem mem_due_of_few (hfew : s.schedules.rows.length ≤ options.batchSize)
    (h : r ∈ s.schedules.rows.filter fun r => r.isEnabled && r.deletedAt.isNone &&
      r.nextRunAt ≤ now && !skipped.contains r.id) : r ∈ due options now skipped s := by
  unfold due
  rw [List.take_of_length_le, List.mem_mergeSort]
  · exact h
  · rw [List.length_mergeSort]
    exact (List.length_filter_le ..).trans hfew

theorem pairwise_due (options : ScheduledReportOptions) (now : Timestamptz) (skipped : List Uuid)
    (s : Store) : (due options now skipped s).Pairwise fun a b => a.id ≠ b.id := by
  have hrows : s.schedules.rows.Pairwise fun a b => a.id ≠ b.id :=
    List.pairwise_map.mp s.schedules.nodup
  have hsorted : ((s.schedules.rows.filter fun r => r.isEnabled && r.deletedAt.isNone &&
      r.nextRunAt ≤ now && !skipped.contains r.id).mergeSort dueOrder).Pairwise
      fun a b => a.id ≠ b.id :=
    (List.mergeSort_perm _ dueOrder).symm.pairwise (hrows.sublist List.filter_sublist) Ne.symm
  exact hsorted.sublist (List.take_sublist ..)

/-- The row that a run has read. -/
def Locked (s : Store) (r : ReportSchedule) : Prop := s.schedules.find? r.id = some r

theorem SameFor.locked (h : SameFor r s t) (hr : Locked s r) : Locked t r := h.row.trans hr

/-- **All or none**: a run succeeds exactly when every schedule it has locked is ready. -/
theorem enqueueScheduledReports_ok_iff (options : ScheduledReportOptions) (skipped : List Uuid) :
    (∃ t, enqueueScheduledReports zones options now skipped s = .ok t) ↔
      ∀ r ∈ due options now skipped s, Ready zones now s r := by
  have hstep : ∀ s r, Locked s r →
      ((∃ t, enqueueSchedule zones now s r = .ok t) ↔ Ready zones now s r) :=
    fun s r hr => enqueueSchedule_ok_iff hr
  have hlocked : ∀ s (a b : ReportSchedule) t, b.id ≠ a.id → Locked s a →
      enqueueSchedule zones now s b = .ok t → Locked t a :=
    fun s a b t hne ha h => (sameFor_of_ne hne h).locked ha
  have hready : ∀ s (a b : ReportSchedule) t, b.id ≠ a.id → Locked s a →
      enqueueSchedule zones now s b = .ok t → (Ready zones now t a ↔ Ready zones now s a) :=
    fun s a b t hne _ h => (sameFor_of_ne hne h).ready
  exact foldlM_ok_iff (R := fun a b => a.id ≠ b.id) hstep hlocked hready
    (pairwise_due options now skipped s) fun r hr => (mem_due hr).1

/-- A schedule after a run: one job for its occurrence, and a next run in the future. -/
def Served (now : Timestamptz) (s : Store) (r : ReportSchedule) : Prop :=
  (s.jobs.rows.filter fun j => j.occurrence? = some (r.id, r.occurrence)).length = 1 ∧
    ∃ row, s.schedules.find? r.id = some row ∧ now < row.nextRunAt

theorem one_job_iff {jobs : ExportJobs} {o : Uuid × Timestamptz} :
    (jobs.rows.filter fun j => j.occurrence? = some o).length = 1 ↔ jobs.hasOccurrence o := by
  have hcount : ∀ rows : List ExportJob, (rows.filter fun j => j.occurrence? = some o).length =
      (rows.filterMap ExportJob.occurrence?).count o := by
    intro rows
    induction rows with
    | nil => rfl
    | cons j rows ih =>
      cases hj : j.occurrence? with
      | none => simp [hj, ih]
      | some o' =>
        by_cases ho : o' = o
        · simp [hj, ho, ih]
        · simp [hj, ho, ih]
  rw [hcount]
  constructor
  · intro hone
    exact List.count_pos_iff.mp (by omega)
  · exact List.count_eq_one_of_mem jobs.occurrences

/-- What the work for a schedule has brought about, from the jobs at the start of the run. -/
structure Done (now : Timestamptz) (start s : Store) (r : ReportSchedule) : Prop where
  next : ∃ row, s.schedules.find? r.id = some row ∧ now < row.nextRunAt
  occurrence : s.jobs.hasOccurrence (r.id, r.occurrence) ↔
    (start.jobs.hasKey r.idempotencyKey → start.jobs.hasOccurrence (r.id, r.occurrence))

theorem Done.of_same {start : Store} (h : Done now start s r) (hsame : SameFor r s t) :
    Done now start t r :=
  ⟨hsame.row ▸ h.next, hsame.occurrence.trans h.occurrence⟩

theorem enqueueSchedule_done {start : Store} (hsame : SameFor r start s) (hr : Locked s r)
    (h : enqueueSchedule zones now s r = .ok t) : Done now start t r := by
  obtain ⟨jobs, inserted, nextRunAt, hinsert, hlt, rfl⟩ := enqueueSchedule_ok h
  have hold : s.schedules.find? (r.advanced nextRunAt).id = some r := hr
  have hrow : (s.schedules.put (r.advanced nextRunAt)).find? r.id = some (r.advanced nextRunAt) :=
    (Table.find?_put hold r.id).trans (if_pos rfl)
  refine ⟨⟨_, hrow, hlt⟩, ?_⟩
  rw [← hsame.key, ← hsame.occurrence]
  rcases insert_ok hinsert with ⟨hkey, hx⟩ | ⟨hkey, -, hrows, -⟩
  · cases hx
    exact ⟨fun ho _ => ho, fun ho => ho hkey⟩
  · refine iff_of_true ?_ fun htaken => absurd htaken hkey
    show (r.id, r.occurrence) ∈ jobs.rows.filterMap _
    rw [hrows, List.filterMap_append]
    refine List.mem_append_right _ ?_
    simp [ReportSchedule.job, ExportJob.occurrence?]

theorem done_of_run (h : enqueueScheduledReports zones options now skipped s = .ok t) :
    ∀ r ∈ due options now skipped s, Done now s t r := by
  have hstep : ∀ u (r : ReportSchedule) v, SameFor r s u ∧ Locked u r →
      enqueueSchedule zones now u r = .ok v → Done now s v r :=
    fun u r v hu hv => enqueueSchedule_done hu.1 hu.2 hv
  have hbefore : ∀ u (a b : ReportSchedule) v, b.id ≠ a.id → SameFor a s u ∧ Locked u a →
      enqueueSchedule zones now u b = .ok v → SameFor a s v ∧ Locked v a := by
    intro u a b v hne hu hv
    have hsame := sameFor_of_ne hne hv
    exact ⟨hu.1.trans hsame, hsame.locked hu.2⟩
  have hafter : ∀ u (a b : ReportSchedule) v, a.id ≠ b.id → Done now s u a →
      enqueueSchedule zones now u b = .ok v → Done now s v a :=
    fun u a b v hne hu hv => hu.of_same (sameFor_of_ne (Ne.symm hne) hv)
  exact foldlM_each (R := fun a b => a.id ≠ b.id) hstep hbefore hafter
    (pairwise_due options now skipped s) h fun r hr => ⟨SameFor.refl r s, (mem_due hr).1⟩

/-! ### Any number of runs -/

/-- What has been enqueued is among the jobs, once. -/
structure Logged (s : Store) : Prop where
  nodup : s.log.Nodup
  jobs : ∀ o ∈ s.log, s.jobs.hasOccurrence o

theorem hasOccurrence_of_insert {x : ExportJobs × Bool} {o : Uuid × Timestamptz}
    (h : jobs.insert job = .ok x) (ho : jobs.hasOccurrence o) : x.1.hasOccurrence o := by
  rcases insert_ok h with ⟨-, rfl⟩ | ⟨-, -, hrows, -⟩
  · exact ho
  · show o ∈ x.1.rows.filterMap _
    rw [hrows, List.filterMap_append]
    exact List.mem_append_left _ ho

theorem Logged.enqueueSchedule (hs : Logged s) (h : enqueueSchedule zones now s r = .ok t) :
    Logged t := by
  obtain ⟨jobs, inserted, nextRunAt, hinsert, -, rfl⟩ := enqueueSchedule_ok h
  have hold : ∀ o ∈ s.log, jobs.hasOccurrence o :=
    fun o ho => hasOccurrence_of_insert hinsert (hs.jobs o ho)
  rcases insert_ok hinsert with ⟨-, hx⟩ | ⟨-, hfree, hrows, hinserted⟩
  · cases hx
    exact ⟨hs.nodup, hold⟩
  · have hnew : (r.id, r.occurrence) ∉ s.log := by
      intro hmem
      exact hfree _ rfl (hs.jobs _ hmem)
    have hlog : (s.enqueued r nextRunAt jobs inserted).log = s.log ++ [(r.id, r.occurrence)] :=
      if_pos hinserted
    refine ⟨?_, fun o ho => ?_⟩
    · rw [hlog, ← List.concat_eq_append]
      exact hs.nodup.concat hnew
    · rw [hlog] at ho
      rcases List.mem_append.mp ho with ho | ho
      · exact hold o ho
      · rw [List.mem_singleton] at ho
        subst ho
        show (r.id, r.occurrence) ∈ jobs.rows.filterMap _
        rw [hrows, List.filterMap_append]
        refine List.mem_append_right _ ?_
        simp [ReportSchedule.job, ExportJob.occurrence?]

theorem Logged.step {e : Event} (hs : Logged s) (h : step zones e s = .ok t) : Logged t := by
  cases e with
  | run options now skipped => exact foldlM_ok h hs fun u r v _ hu hv => hu.enqueueSchedule hv
  | request organizationId requestedBy workspaceId idempotencyKey format =>
    obtain ⟨x, hx, h⟩ := bind_ok.mp h
    cases h
    exact ⟨hs.nodup, fun o ho => hasOccurrence_of_insert hx (hs.jobs o ho)⟩
  | change schedules workspaces memberships =>
    cases h
    exact ⟨hs.nodup, hs.jobs⟩

theorem exec_of_not_ready (hr : r ∈ due options now skipped s) (hnot : ¬ Ready zones now s r) :
    Runs.exec (step zones) s (.run options now skipped) = s := by
  unfold Runs.exec
  cases h : step zones (.run options now skipped) s with
  | ok t => exact absurd ((enqueueScheduledReports_ok_iff options skipped).mp ⟨t, h⟩ r hr) hnot
  | error e => rfl

theorem not_served_of_due (hr : r ∈ due options now skipped s) : ¬ Served now s r := by
  rintro ⟨-, row, hrow, hlt⟩
  obtain ⟨hfind, hle⟩ := mem_due hr
  rw [hfind] at hrow
  cases hrow
  exact absurd hle (not_le.mpr hlt)

theorem served_of_ok_iff (h : enqueueScheduledReports zones options now skipped s = .ok t)
    (hr : r ∈ due options now skipped s) :
    Served now (Runs.exec (step zones) s (.run options now skipped)) r ↔
      (s.jobs.hasKey r.idempotencyKey → s.jobs.hasOccurrence (r.id, r.occurrence)) := by
  have hexec : Runs.exec (step zones) s (.run options now skipped) = t := Runs.exec_of_ok h
  have hdone := done_of_run h r hr
  rw [hexec]
  unfold Served
  rw [one_job_iff, hdone.occurrence]
  exact and_iff_left hdone.next

/-- **All or none**: a run serves every schedule it has locked whose creator is an active member exactly
if there is no such schedule, or all of them pass the triggers and the key of each is held by a job for
its occurrence or by none.  No occurrence is enqueued twice in any number of runs. -/
theorem served_iff (zones : Zones) (options : ScheduledReportOptions) (now : Timestamptz)
    (skipped : List Uuid) (s : Store) :
    ((∀ r ∈ due options now skipped s, r.hasMember s = true →
        Served now (Runs.exec (step zones) s (.run options now skipped)) r) ↔
      (∀ r ∈ due options now skipped s, r.hasMember s = false) ∨
        ∀ r ∈ due options now skipped s, Passes zones now s r ∧
          (s.jobs.hasKey r.idempotencyKey ↔ s.jobs.hasOccurrence (r.id, r.occurrence))) ∧
      ∀ events, (Runs.run (step zones) { s with log := [] } events).log.Nodup := by
  have hrun : (∃ t, enqueueScheduledReports zones options now skipped s = .ok t) ↔
      ∀ r ∈ due options now skipped s, Ready zones now s r :=
    enqueueScheduledReports_ok_iff options skipped
  refine ⟨⟨fun hserved => ?_, ?_⟩, fun events => ?_⟩
  · by_cases hready : ∀ r ∈ due options now skipped s, Ready zones now s r
    · obtain ⟨t, ht⟩ := hrun.mpr hready
      refine Or.inr fun r hr => ?_
      obtain ⟨hpasses, hfits⟩ := hready r hr
      exact ⟨hpasses, (served_of_ok_iff ht hr).mp (hserved r hr hpasses.member), hfits⟩
    · refine Or.inl fun r hr => ?_
      by_contra hmember
      rw [Bool.not_eq_false] at hmember
      push Not at hready
      obtain ⟨q, hq, hnot⟩ := hready
      have hr' := hserved r hr hmember
      rw [exec_of_not_ready hq hnot] at hr'
      exact not_served_of_due hr hr'
  · rintro (hnone | hall) r hr hmember
    · rw [hnone r hr] at hmember
      cases hmember
    · obtain ⟨t, ht⟩ := hrun.mpr fun q hq => ⟨(hall q hq).1, (hall q hq).2.mpr⟩
      exact (served_of_ok_iff ht hr).mpr (hall r hr).2.mp
  · have hstart : Logged { s with log := [] } := ⟨List.nodup_nil, fun o ho => (by cases ho)⟩
    exact (Runs.run_invariant (fun u e v hu h => hu.step h) events _ hstart).nodup

/-- The creator of one of two due schedules has left: the other one, whose creator has not, gets no job,
in this run or in a later one. -/
theorem one_schedule_stops_others :
    let zones : Zones := ⟨fun zone => zone = "UTC", fun _ t => t.micros, fun _ micros => ⟨micros⟩⟩
    let schedule (id createdBy : Uuid) : ReportSchedule :=
      { id, organizationId := 1, workspaceId := 2, createdBy, format := .pdf, cadence := .daily
        timezone := "UTC", minuteOfDay := 480, isEnabled := true, nextRunAt := ⟨0⟩ }
    let s : Store :=
      { schedules := ⟨[schedule 10 7, schedule 11 8], by decide⟩
        workspaces := ⟨[{ id := 2, organizationId := 1 }], by decide⟩
        memberships := [⟨7, 1, none, true⟩, ⟨8, 1, none, false⟩]
        jobs := ⟨[], List.nodup_nil, List.nodup_nil⟩ }
    ∃ r ∈ due {} ⟨5⟩ [] s, r.hasMember s = true ∧
      ¬ Served ⟨5⟩ (Runs.exec (step zones) s (.run {} ⟨5⟩ [])) r ∧
      ¬ Served ⟨9⟩ (Runs.run (step zones) s [.run {} ⟨5⟩ [], .run {} ⟨9⟩ []]) r := by
  intro zones schedule s
  have hdue : ∀ now : Timestamptz, 0 ≤ now.micros → ∀ r ∈ s.schedules.rows,
      r ∈ due {} now [] s := by
    intro now hnow r hr
    refine mem_due_of_few (by decide) (List.mem_filter.mpr ⟨hr, ?_⟩)
    have hle : r.nextRunAt ≤ now ∧ r.isEnabled = true ∧ r.deletedAt = none := by
      rcases List.mem_cons.mp hr with rfl | hr
      · exact ⟨hnow, rfl, rfl⟩
      · rw [List.mem_singleton.mp hr]
        exact ⟨hnow, rfl, rfl⟩
    simp [hle]
  have hexec : ∀ now : Timestamptz, 0 ≤ now.micros →
      Runs.exec (step zones) s (.run {} now []) = s := by
    intro now hnow
    refine exec_of_not_ready (r := schedule 11 8) (hdue now hnow _ (by simp [s])) fun h => ?_
    exact absurd h.1.member (by decide)
  have hfirst := hexec ⟨5⟩ (by decide)
  have hrun : Runs.run (step zones) s [.run {} ⟨5⟩ [], .run {} ⟨9⟩ []] = s := by
    show Runs.exec (step zones) (Runs.exec (step zones) s (.run {} ⟨5⟩ [])) (.run {} ⟨9⟩ []) = s
    rw [hfirst]
    exact hexec ⟨9⟩ (by decide)
  have hmem : ∀ now : Timestamptz, 0 ≤ now.micros → schedule 10 7 ∈ due {} now [] s :=
    fun now hnow => hdue now hnow _ (by simp [s])
  refine ⟨schedule 10 7, hmem ⟨5⟩ (by decide), by decide, ?_, ?_⟩
  · rw [hfirst]
    exact not_served_of_due (hmem ⟨5⟩ (by decide))
  · rw [hrun]
    exact not_served_of_due (hmem ⟨9⟩ (by decide))

end CalmBoard.Reports
