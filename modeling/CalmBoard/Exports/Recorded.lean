import CalmBoard.Exports.Worker

/-!
# CalmBoard.Exports.Recorded — files and what their jobs record of them

* `Moved`, `proceed_moved`: what a step does to the jobs, to the bucket and to its session.
* `Current`: a file is written or deleted while its job is as the session has read it.
* `artefacts_match`: as long as that is so, every job that can be downloaded has the file that it
  records.
* `overwritten_by_stale_worker`: a worker whose claim has expired stores its archive over that of the
  next one.
-/

namespace CalmBoard.Exports

open Queue Sessions

variable {sha256 : Bytes → String} {s s' : Store} {l l' : Local} {now : ℤ} {op : Op}
  {job job' : ExportJob}

/-- The bucket has the file. -/
def Artefact.StoredIn (sha256 : Bytes → String) (objects : ObjectKey → Option Bytes)
    (artefact : Artefact) : Prop :=
  ∃ body, objects artefact.objectKey = some body ∧ artefact.fileSize = body.length ∧
    artefact.checksum = sha256 body

/-- Every completed job has a result, and its file until it expires. -/
def Store.Matches (sha256 : Bytes → String) (s : Store) : Prop :=
  ∀ job ∈ s.jobs.rows, job.lease.status = .closed () → ∃ result, job.result = some result ∧
    (s.clock < result.expiresAt → result.artefact.StoredIn sha256 s.objects)

/-- The candidates of a worker that is not done with them. -/
def Local.held : Local → List Candidate
  | .working _ rest => rest
  | .stored run _ | .failed run _ => run.c :: run.rest
  | _ => []

/-- What a clean-up has still to delete. -/
def Local.todo : Local → List CleanupCandidate
  | .cleaning rest | .deleted _ rest | .verified _ rest | .uncleaned _ _ rest => rest
  | _ => []

theorem owns_iff {c : Candidate} :
    c.owns job = true ↔ job.id = c.id ∧ owned c.claimToken job.lease = true := by
  unfold Candidate.owns
  rw [Bool.and_eq_true, decide_eq_true_iff]

theorem owned_iff {token : Uuid} {lease : Lease Uuid Unit} :
    owned token lease = true ↔ ∃ claimedAt, lease.status = .processing claimedAt token := by
  unfold owned
  cases lease.status <;> simp [eq_comm]

/-! ### Steps -/

variable {options : WorkspaceExportOptions} {c : CleanupCandidate}

/-- What becomes of a job: its claim and its result stay, it is claimed with a new token, the worker
that has stored its file completes it, or it is given back or retried. -/
inductive Fate (s : Store) (l : Local) (s' : Store) : ExportJob → ExportJob → Prop
  | stays {job job' : ExportJob} (hlease : job'.lease = job.lease)
    (hresult : job'.result = job.result) : Fate s l s' job job'
  | claimed {job : ExportJob} (now : ℤ) (token : Uuid) (hopen : job.lease.status.terminal = false)
    (hfresh : token ∉ s.tokens) (hgiven : token ∈ s'.tokens) : Fate s l s' job (job.claimed now token)
  | completed {job : ExportJob} (run : Run) (artefact : Artefact) (now : ℤ)
    (hl : l = .stored run artefact) (hc : run.c.owns job = true) :
    Fate s l s' job (job.completed artefact run.options now)
  | reopened {job job' : ExportJob} (hjob : job.lease.status ≠ .closed ())
    (hstatus : job'.lease.status = .pending ∨ job'.lease.status = .dead)
    (hresult : job'.result = job.result) : Fate s l s' job job'

/-- What becomes of the bucket. -/
inductive Stores (op : Op) (s : Store) (l : Local) : (ObjectKey → Option Bytes) → Prop
  | same : Stores op s l s.objects
  | put {options : WorkspaceExportOptions} {c : Candidate} {rest : List Candidate} {slug : String}
    {body : Bytes} {error : Option String} (hop : op = .put slug body error)
    (hl : l = .working options (c :: rest)) :
    Stores op s l (Function.update s.objects c.objectKey (some body))
  | deleted {c : CleanupCandidate} {rest : List CleanupCandidate} {error : Option String}
    (hop : op = .delete error) (hl : l = .cleaning (c :: rest)) :
    Stores op s l (Function.update s.objects c.objectKey none)

/-- A clean-up selects the job. -/
def Selected (s : Store) (c : CleanupCandidate) : Prop :=
  ∃ job ∈ s.jobs.rows, (job.expired s.clock = true ∨ job.dead = true) ∧ c = job.cleanupCandidate

/-- What becomes of all jobs. -/
structure Follows (s : Store) (l : Local) (s' : Store) : Prop where
  old : ∀ job' ∈ s'.jobs.rows, (∃ job ∈ s.jobs.rows, job.id = job'.id ∧ Fate s l s' job job') ∨
    (job'.lease.status = .pending ∧ job'.result = none)
  kept : ∀ job ∈ s.jobs.rows, ∃ job' ∈ s'.jobs.rows, job'.id = job.id ∧ Fate s l s' job job'

/-- What a step does. -/
structure Moved (sha256 : Bytes → String) (op : Op) (s : Store) (l : Local) (s' : Store)
    (l' : Local) : Prop where
  jobs : Follows s l s'
  objects : Stores op s l s'.objects
  clock : s'.clock = s.clock
  tokens : s.tokens ⊆ s'.tokens
  held : ∀ c ∈ l'.held, c ∈ l.held ∨ (c.claimToken ∉ s.tokens ∧ c.claimToken ∈ s'.tokens)
  stored : ∀ run artefact, l' = .stored run artefact →
    artefact.objectKey.id = run.c.id ∧ artefact.StoredIn sha256 s'.objects
  todo : ∀ c ∈ l'.todo, c ∈ l.todo ∨ Selected s c

theorem follows_same (h : s'.jobs = s.jobs) : Follows s l s' := by
  constructor
  · intro job hjob
    exact Or.inl ⟨job, h ▸ hjob, rfl, .stays rfl rfl⟩
  · intro job hjob
    exact ⟨job, h ▸ hjob, rfl, .stays rfl rfl⟩

theorem follows_update {p : ExportJob → Bool} {f : ExportJob → ExportJob}
    (hf : ∀ job, (f job).id = job.id) (h : s'.jobs = s.jobs.update p f hf)
    (hfate : ∀ job ∈ s.jobs.rows, p job = true → Fate s l s' job (f job)) : Follows s l s' := by
  have hrow : ∀ job ∈ s.jobs.rows, (if p job = true then f job else job).id = job.id ∧
      Fate s l s' job (if p job = true then f job else job) := by
    intro job hjob
    split
    · next hp => exact ⟨hf job, hfate job hjob hp⟩
    · exact ⟨rfl, .stays rfl rfl⟩
  constructor
  · intro job' hjob'
    rw [h, Table.mem_update] at hjob'
    obtain ⟨job, hjob, rfl⟩ := hjob'
    exact Or.inl ⟨job, hjob, (hrow job hjob).1.symm, (hrow job hjob).2⟩
  · intro job hjob
    refine ⟨if p job = true then f job else job, ?_, hrow job hjob⟩
    rw [h, Table.mem_update]
    exact ⟨job, hjob, rfl⟩

theorem moved_local (hheld : l'.held ⊆ l.held) (hstored : ∀ run artefact, l' ≠ .stored run artefact)
    (htodo : ∀ c ∈ l'.todo, c ∈ l.todo ∨ Selected s c) : Moved sha256 op s l s l' where
  jobs := follows_same rfl
  objects := .same
  clock := rfl
  tokens := List.Subset.refl _
  held _ hc := Or.inl (hheld hc)
  stored run artefact h := absurd h (hstored run artefact)
  todo := htodo

theorem moved_update {p : ExportJob → Bool} {f : ExportJob → ExportJob}
    {hf : ∀ job, (f job).id = job.id}
    (hfate : ∀ job ∈ s.jobs.rows, p job = true →
      Fate s l { s with jobs := s.jobs.update p f hf } job (f job))
    (hheld : l'.held ⊆ l.held) (hstored : ∀ run artefact, l' ≠ .stored run artefact)
    (htodo : l'.todo ⊆ l.todo) : Moved sha256 op s l { s with jobs := s.jobs.update p f hf } l' where
  jobs := follows_update hf rfl hfate
  objects := .same
  clock := rfl
  tokens := List.Subset.refl _
  held _ hc := Or.inl (hheld hc)
  stored run artefact h := absurd h (hstored run artefact)
  todo _ hc := Or.inl (htodo hc)

theorem mem_claimBatch {skipped : List Uuid} (h : job ∈ claimBatch options now skipped s) :
    job ∈ s.jobs.rows ∧ job.lease.status.terminal = false :=
  ⟨(mem_batch h).1, not_terminal_of_claimable (mem_batch h).2⟩

theorem moved_claim {skipped : List Uuid} {token : Uuid → Uuid} {call : Call}
    (hfresh : freshTokens (claimBatch options now skipped s) token s = true) :
    Moved sha256 op s (.called call) (commitClaim (claimBatch options now skipped s) now token s)
      (.working options ((claimBatch options now skipped s).map (candidateOf token))) := by
  have hnew : ∀ job ∈ claimBatch options now skipped s, token job.id ∉ s.tokens := by
    intro job hjob
    unfold freshTokens at hfresh
    rw [List.all_eq_true] at hfresh
    simpa using hfresh job hjob
  have hgiven : ∀ job ∈ claimBatch options now skipped s,
      token job.id ∈ (commitClaim (claimBatch options now skipped s) now token s).tokens :=
    fun job hjob => List.mem_append_right _ (List.mem_map_of_mem hjob)
  refine ⟨follows_update (fun job => job.claimed_id now (token job.id)) rfl fun job hjob hp => ?_,
    .same, rfl, List.subset_append_left _ _, ?_, ?_, ?_⟩
  · rw [List.contains_iff_mem, List.mem_map] at hp
    obtain ⟨x, hx, hid⟩ := hp
    obtain rfl := Table.eq_of_mem (mem_claimBatch hx).1 hjob hid
    exact .claimed now _ (mem_claimBatch hx).2 (hnew x hx) (hgiven x hx)
  · intro c hc
    obtain ⟨job, hjob, rfl⟩ := List.mem_map.mp hc
    exact Or.inr ⟨hnew job hjob, hgiven job hjob⟩
  · intro run artefact h
    cases h
  · intro c hc
    cases hc

theorem moved_put {run : Run} {slug : String} {body : Bytes} {error : Option String}
    (h : storeArchive sha256 run slug body error s = (s', l')) :
    Moved sha256 (.put slug body error) s (.working run.options (run.c :: run.rest)) s' l' := by
  unfold storeArchive at h
  split at h
  · cases h
    exact moved_local (List.Subset.refl _) (fun _ _ => by simp) fun _ hc => (by cases hc)
  · have hobjects : Stores (.put slug body error) s (.working run.options (run.c :: run.rest))
        (Function.update s.objects run.c.objectKey (some body)) := .put rfl rfl
    cases error with
    | none =>
      cases h
      refine ⟨follows_same rfl, hobjects, rfl, List.Subset.refl _, fun c hc => Or.inl hc, ?_,
        fun _ hc => (by cases hc)⟩
      intro run' artefact heq
      cases heq
      exact ⟨exportKey_id _ _ _ _ _, body, Function.update_self .., rfl, rfl⟩
    | some message =>
      cases h
      exact ⟨follows_same rfl, hobjects, rfl, List.Subset.refl _, fun c hc => Or.inl hc,
        fun _ _ heq => (by cases heq), fun _ hc => (by cases hc)⟩

theorem moved_delete {rest : List CleanupCandidate} {error : Option String} (hheld : l'.held = [])
    (htodo : l'.todo = rest) (hstored : ∀ run artefact, l' ≠ .stored run artefact) :
    Moved sha256 (.delete error) s (.cleaning (c :: rest)) (putObject c.objectKey none s) l' where
  jobs := follows_same rfl
  objects := .deleted rfl rfl
  clock := rfl
  tokens := List.Subset.refl _
  held x hx := by
    rw [hheld] at hx
    cases hx
  stored run artefact h := absurd h (hstored run artefact)
  todo x hx := by
    rw [htodo] at hx
    exact Or.inl (List.mem_cons_of_mem _ hx)

theorem moved_complete {run : Run} {artefact : Artefact}
    (h : markCompleted run artefact now s = (s', l')) :
    Moved sha256 op s (.stored run artefact) s' l' := by
  unfold markCompleted at h
  split at h
  · cases h
    exact moved_update (fun job _ hc => .completed run artefact now rfl hc)
      (List.subset_cons_self _ _) (fun _ _ => by simp) (List.Subset.refl _)
  · cases h
    exact moved_local (List.Subset.refl _) (fun _ _ => by simp) fun _ hc => (by cases hc)

theorem fate_released {c : Candidate} {message : String} (hc : c.owns job = true) :
    Fate s l s' job (job.released c message now) := by
  have hopen := not_terminal_of_owned (owns_iff.mp hc).2
  have hjob : job.lease.status ≠ .closed () := by
    intro hclosed
    rw [hclosed] at hopen
    cases hopen
  refine .reopened hjob ?_ rfl
  unfold ExportJob.released release
  split
  · exact Or.inr rfl
  · exact Or.inl rfl

theorem fate_retried (hdead : job.dead = true) : Fate s l s' job (job.retried now) := by
  have hstatus : job.lease.status = .dead := of_decide_eq_true hdead
  have hretried : (job.retried now).lease.status = .pending := by
    unfold ExportJob.retried retry
    rw [hstatus]
  exact .reopened (by simp [hstatus]) (Or.inl hretried) rfl

theorem moved_request {request : ExportRequest} {call : Call}
    (h : insertJob request now s = some s') : Moved sha256 op s (.called call) s' .stopped := by
  unfold insertJob at h
  split at h
  · obtain ⟨jobs, hinsert, rfl⟩ := Option.map_eq_some_iff.mp h
    have hrows : jobs.rows = s.jobs.rows ++ [newJob request now] := (Table.insert?_eq_some hinsert).2
    refine ⟨⟨fun job' hjob' => ?_, fun job hjob => ?_⟩, .same, rfl, List.Subset.refl _,
      fun _ hc => (by cases hc), fun _ _ heq => (by cases heq), fun _ hc => (by cases hc)⟩
    · rcases List.mem_append.mp (hrows ▸ hjob') with hjob' | hnew
      · exact Or.inl ⟨job', hjob', rfl, .stays rfl rfl⟩
      · rw [List.mem_singleton.mp hnew]
        exact Or.inr ⟨rfl, rfl⟩
    · exact ⟨job, hrows ▸ List.mem_append_left _ hjob, rfl, .stays rfl rfl⟩
  · cases h

theorem selected_of_expiredRows
    (h : c ∈ (expiredRows options s.clock s).map ExportJob.cleanupCandidate) : Selected s c := by
  obtain ⟨job, hjob, rfl⟩ := List.mem_map.mp h
  have hmem := List.mem_of_mem_take hjob
  rw [List.mem_mergeSort, List.mem_filter, Bool.and_eq_true, Bool.or_eq_true] at hmem
  exact ⟨job, hmem.1, hmem.2.1, rfl⟩

/-- **Steps**: what each of them does. -/
theorem proceed_moved (h : proceed sha256 s.clock op s l = some (s', l')) :
    Moved sha256 op s l s' l' := by
  unfold proceed at h
  split at h
  · cases h
    exact moved_local (List.nil_subset _) (fun _ _ => by simp) fun _ hc => (by cases hc)
  · dsimp only at h
    split at h
    · next hfresh =>
      cases h
      exact moved_claim hfresh
    · cases h
  · exact moved_put (Option.some.inj h)
  · exact moved_complete (Option.some.inj h)
  · cases h
    exact moved_update (fun job _ hc => fate_released hc) (List.subset_cons_self _ _)
      (fun _ _ => by simp) (List.Subset.refl _)
  · cases h
    exact moved_local (List.Subset.refl _) (fun _ _ => by simp) fun _ hc => (by cases hc)
  · cases h
    exact moved_local (List.Subset.refl _) (fun _ _ => by simp) fun _ hc => (by cases hc)
  · cases h
    exact moved_local (List.Subset.refl _) (fun _ _ => by simp)
      fun _ hc => Or.inr (selected_of_expiredRows hc)
  · next error c rest =>
    cases h
    cases error with
    | none => exact moved_delete rfl rfl fun _ _ => by simp
    | some message => exact moved_delete rfl rfl fun _ _ => by simp
  · next c rest =>
    cases h
    split
    · exact moved_local (List.Subset.refl _) (fun _ _ => by simp) fun _ hc => Or.inl hc
    · exact moved_local (List.Subset.refl _) (fun _ _ => by simp) fun _ hc => Or.inl hc
  · cases h
    exact moved_update (fun _ _ _ => .stays rfl rfl) (List.Subset.refl _) (fun _ _ => by simp)
      (List.Subset.refl _)
  · cases h
    exact moved_local (List.Subset.refl _) (fun _ _ => by simp)
      fun _ hc => Or.inl (List.mem_cons_of_mem _ hc)
  · cases h
    exact moved_local (List.Subset.refl _) (fun _ _ => by simp) fun _ hc => Or.inl hc
  · cases h
    exact moved_local (List.Subset.refl _) (fun _ _ => by simp) fun _ hc => Or.inl hc
  · cases h
    exact moved_update (fun _ _ _ => .stays rfl rfl) (List.Subset.refl _) (fun _ _ => by simp)
      (List.Subset.refl _)
  · obtain ⟨t, hinsert, ht⟩ := Option.map_eq_some_iff.mp h
    cases ht
    exact moved_request hinsert
  · cases h
    refine moved_update (fun job _ hp => ?_) (List.Subset.refl _) (fun _ _ => by simp)
      (List.Subset.refl _)
    rw [Bool.and_eq_true] at hp
    exact fate_retried hp.2
  · cases h

/-! ### Invariants -/

variable {objects : ObjectKey → Option Bytes}

/-- The session that writes to the bucket has read the job as it still is: the claim is still its own,
or the job still has the status it was selected with. -/
def Current (s : Store) (l : Local) (a : Action) : Prop :=
  match a.op, l with
  | .put .., .working _ (c :: _) => ∃ job ∈ s.jobs.rows, c.owns job = true
  | .delete _, .cleaning (c :: _) =>
    ∃ job ∈ s.jobs.rows, job.id = c.id ∧ job.lease.status = c.status
  | _, _ => True

instance (s : Store) (l : Local) (a : Action) : Decidable (Current s l a) := by
  unfold Current
  split <;> infer_instance

/-- What the store keeps: completed jobs have their files, under keys of their own, and the claims of
jobs have been handed out. -/
structure Sound (sha256 : Bytes → String) (s : Store) : Prop where
  done : s.Matches sha256
  keys : ∀ job ∈ s.jobs.rows, ∀ result, job.result = some result →
    result.artefact.objectKey.id = job.id
  issued : ∀ job ∈ s.jobs.rows, ∀ token, owned token job.lease = true → token ∈ s.tokens

/-- What a clean-up knows of a job that it has selected. -/
structure CleanupCandidate.Known (s : Store) (c : CleanupCandidate) : Prop where
  key : c.objectKey.id = c.id
  status : c.status = .dead ∨
    (c.status = .closed () ∧ ∃ job ∈ s.jobs.rows, job.id = c.id ∧ job.expired s.clock = true)

/-- What a session knows. -/
structure Knows (sha256 : Bytes → String) (s : Store) (l : Local) : Prop where
  held : ∀ c ∈ l.held, c.claimToken ∈ s.tokens
  stored : ∀ run artefact, l = .stored run artefact → artefact.objectKey.id = run.c.id ∧
    ∀ job ∈ s.jobs.rows, run.c.owns job = true → artefact.StoredIn sha256 s.objects
  todo : ∀ c ∈ l.todo, c.Known s

/-- Two workers hold different tokens. -/
def Different (l m : Local) : Prop := ∀ c ∈ l.held, ∀ c' ∈ m.held, c.claimToken ≠ c'.claimToken

/-- The file of a job stays in the bucket, where the step is not one of the worker that has claimed it
nor one of a clean-up that may delete it. -/
theorem Stores.kept {key : ObjectKey} (h : Stores op s l objects) (hl : Knows sha256 s l)
    (hg : Current s l ⟨now, op⟩) (hjob : job ∈ s.jobs.rows) (hkey : key.id = job.id)
    (hforeign : ∀ options c rest, l = .working options (c :: rest) → c.owns job = false)
    (hlive : job.lease.status ≠ .dead) (hvalid : job.expired s.clock = false) :
    objects key = s.objects key := by
  cases h with
  | same => rfl
  | @put options c rest _ _ _ hop hl' =>
    subst hop hl'
    obtain ⟨q, hq, hc⟩ := hg
    refine Function.update_of_ne (fun heq => ?_) _ _
    have hid : q.id = job.id := by
      rw [(owns_iff.mp hc).1, ← hkey, heq]
      exact (exportKey_id _ _ _ _ _).symm
    rw [Table.eq_of_mem hq hjob hid, hforeign options c rest rfl] at hc
    cases hc
  | @deleted c rest _ hop hl' =>
    subst hop hl'
    obtain ⟨q, hq, hid, hstatus⟩ := hg
    have hknown := hl.todo c List.mem_cons_self
    refine Function.update_of_ne (fun heq => ?_) _ _
    have hc : c.id = job.id := by rw [← hkey, heq, hknown.key]
    obtain rfl := Table.eq_of_mem hq hjob (hid.trans hc)
    rcases hknown.status with hdead | ⟨-, x, hx, hxid, hexpired⟩
    · exact hlive (hstatus.trans hdead)
    · rw [Table.eq_of_mem hx hjob (hxid.trans hc), hvalid] at hexpired
      cases hexpired

theorem Stores.of_stored {run : Run} {artefact : Artefact}
    (h : Stores op s (.stored run artefact) objects) : objects = s.objects := by
  cases h with
  | same => rfl
  | put hop hl => cases hl
  | deleted hop hl => cases hl

theorem not_owned_of_closed {c : Candidate} (h : job.lease.status = .closed ()) :
    c.owns job = false := by
  by_contra hc
  rw [Bool.not_eq_false] at hc
  obtain ⟨claimedAt, hstatus⟩ := owned_iff.mp (owns_iff.mp hc).2
  cases h.symm.trans hstatus

theorem expired_iff : job.expired now = true ↔
    job.lease.status = .closed () ∧ ∃ result, job.result = some result ∧ result.expiresAt ≤ now := by
  unfold ExportJob.expired
  rw [Bool.and_eq_true, decide_eq_true_iff, Option.any_eq_true]
  simp

theorem Sound.step (hs : Sound sha256 s) (hl : Knows sha256 s l) (hg : Current s l ⟨now, op⟩)
    (hmoved : Moved sha256 op s l s' l') : Sound sha256 s' := by
  constructor
  · intro job' hjob' hclosed
    rcases hmoved.jobs.old job' hjob' with ⟨job, hjob, -, hfate⟩ | ⟨hnew, -⟩
    · cases hfate with
      | stays hlease hresult =>
        rw [hlease] at hclosed
        obtain ⟨result, hjobresult, hstored⟩ := hs.done job hjob hclosed
        refine ⟨result, hresult.trans hjobresult, fun hvalid => ?_⟩
        rw [hmoved.clock] at hvalid
        obtain ⟨body, hbody, hsize, hsum⟩ := hstored hvalid
        refine ⟨body, ?_, hsize, hsum⟩
        rw [hmoved.objects.kept hl hg hjob (hs.keys job hjob result hjobresult)
          (fun _ _ _ _ => not_owned_of_closed hclosed) (by simp [hclosed]) ?_, hbody]
        rw [← Bool.not_eq_true, expired_iff]
        rintro ⟨-, result', hresult', hexpired⟩
        rw [hjobresult] at hresult'
        cases hresult'
        omega
      | completed run artefact now hl' hc =>
        refine ⟨_, rfl, fun _ => ?_⟩
        obtain ⟨body, hbody, hsize, hsum⟩ := (hl.stored run artefact hl').2 job hjob hc
        refine ⟨body, ?_, hsize, hsum⟩
        have hobjects : Stores op s (.stored run artefact) s'.objects := hl' ▸ hmoved.objects
        rw [hobjects.of_stored, hbody]
      | claimed now token hopen hfresh hgiven => cases hclosed
      | reopened hjobstatus hstatus hresult =>
        rw [hclosed] at hstatus
        rcases hstatus with h | h <;> cases h
    · cases hclosed.symm.trans hnew
  · intro job' hjob' result hresult
    rcases hmoved.jobs.old job' hjob' with ⟨job, hjob, hid, hfate⟩ | ⟨-, hnone⟩
    · rw [← hid]
      cases hfate with
      | stays hlease hsame => exact hs.keys job hjob result (hsame ▸ hresult)
      | claimed now token hopen hfresh hgiven => exact hs.keys job hjob result hresult
      | completed run artefact now hl' hc =>
        cases hresult
        exact (hl.stored run artefact hl').1.trans (owns_iff.mp hc).1.symm
      | reopened hjobstatus hstatus hsame => exact hs.keys job hjob result (hsame ▸ hresult)
    · cases hnone.symm.trans hresult
  · intro job' hjob' token howned
    obtain ⟨claimedAt, hprocessing⟩ := owned_iff.mp howned
    rcases hmoved.jobs.old job' hjob' with ⟨job, hjob, -, hfate⟩ | ⟨hnew, -⟩
    · cases hfate with
      | stays hlease hresult => exact hmoved.tokens (hs.issued job hjob token (hlease ▸ howned))
      | claimed now token' hopen hfresh hgiven =>
        cases hprocessing
        exact hgiven
      | completed run artefact now hl' hc => cases hprocessing
      | reopened hjobstatus hstatus hresult =>
        rw [hprocessing] at hstatus
        rcases hstatus with h | h <;> cases h
    · cases hprocessing.symm.trans hnew

theorem CleanupCandidate.Known.step (h : c.Known s) (hmoved : Moved sha256 op s l s' l') :
    c.Known s' := by
  refine ⟨h.key, h.status.imp_right fun ⟨hclosed, job, hjob, hid, hexpired⟩ => ⟨hclosed, ?_⟩⟩
  obtain ⟨job', hjob', hid', hfate⟩ := hmoved.jobs.kept job hjob
  obtain ⟨hstatus, result, hresult, hle⟩ := expired_iff.mp hexpired
  refine ⟨job', hjob', hid'.trans hid, ?_⟩
  rw [expired_iff, hmoved.clock]
  cases hfate with
  | stays hlease hsame => exact ⟨hlease ▸ hstatus, result, hsame ▸ hresult, hle⟩
  | claimed now token hopen hfresh hgiven =>
    rw [hstatus] at hopen
    cases hopen
  | completed run artefact now hl' hc => cases (not_owned_of_closed hstatus).symm.trans hc
  | reopened hjobstatus hstatus' hsame => exact absurd hstatus hjobstatus

theorem known_of_selected (hs : Sound sha256 s) (h : Selected s c) : c.Known s := by
  obtain ⟨job, hjob, hwhy, rfl⟩ := h
  constructor
  · unfold ExportJob.cleanupCandidate
    dsimp only
    split
    · next result hresult => exact hs.keys job hjob result hresult
    · exact exportKey_id _ _ _ _ _
  · rcases hwhy with hexpired | hdead
    · exact Or.inr ⟨(expired_iff.mp hexpired).1, job, hjob, rfl, hexpired⟩
    · exact Or.inl (of_decide_eq_true hdead)

theorem knows_own (hs : Sound sha256 s) (hl : Knows sha256 s l)
    (hmoved : Moved sha256 op s l s' l') : Knows sha256 s' l' := by
  constructor
  · intro c hc
    rcases hmoved.held c hc with hold | ⟨-, hnew⟩
    · exact hmoved.tokens (hl.held c hold)
    · exact hnew
  · intro run artefact heq
    obtain ⟨hkey, hstored⟩ := hmoved.stored run artefact heq
    exact ⟨hkey, fun _ _ _ => hstored⟩
  · intro c hc
    rcases hmoved.todo c hc with hold | hselected
    · exact (hl.todo c hold).step hmoved
    · exact (known_of_selected hs hselected).step hmoved

theorem knows_other {m : Local} (hl : Knows sha256 s l) (hm : Knows sha256 s m)
    (hdifferent : Different l m) (hg : Current s l ⟨now, op⟩) (hmoved : Moved sha256 op s l s' l') :
    Knows sha256 s' m := by
  refine ⟨fun c hc => hmoved.tokens (hm.held c hc), fun run artefact heq => ?_,
    fun c hc => (hm.todo c hc).step hmoved⟩
  subst heq
  obtain ⟨hkey, hstored⟩ := hm.stored run artefact rfl
  refine ⟨hkey, fun job' hjob' hc' => ?_⟩
  obtain ⟨hid', howned⟩ := owns_iff.mp hc'
  obtain ⟨claimedAt, hprocessing⟩ := owned_iff.mp howned
  rcases hmoved.jobs.old job' hjob' with ⟨job, hjob, hid, hfate⟩ | ⟨hnew, -⟩
  · cases hfate with
    | stays hlease hresult =>
      rw [hlease] at howned hprocessing
      have hc : run.c.owns job = true := owns_iff.mpr ⟨hid.trans hid', howned⟩
      obtain ⟨body, hbody, hsize, hsum⟩ := hstored job hjob hc
      refine ⟨body, ?_, hsize, hsum⟩
      rw [hmoved.objects.kept hl hg hjob (hkey.trans (owns_iff.mp hc).1.symm) ?_ (by simp [hprocessing])
        ?_, hbody]
      · rintro options c rest rfl
        by_contra hforeign
        rw [Bool.not_eq_false] at hforeign
        obtain ⟨at', hstatus⟩ := owned_iff.mp (owns_iff.mp hforeign).2
        have htoken : run.c.claimToken = c.claimToken :=
          (Status.processing.inj (hprocessing.symm.trans hstatus)).2
        exact hdifferent c List.mem_cons_self run.c List.mem_cons_self htoken.symm
      · rw [← Bool.not_eq_true, expired_iff, hprocessing]
        rintro ⟨hclosed, -⟩
        cases hclosed
    | claimed now token hopen hfresh hgiven =>
      cases hprocessing
      exact absurd (hm.held run.c List.mem_cons_self) hfresh
    | completed run' artefact' now hl' hc => cases hprocessing
    | reopened hjobstatus hstatus hresult =>
      rw [hprocessing] at hstatus
      rcases hstatus with h | h <;> cases h
  · cases hprocessing.symm.trans hnew

theorem different_own {m : Local} (hm : Knows sha256 s m) (h : Different l m)
    (hmoved : Moved sha256 op s l s' l') : Different l' m := by
  intro c hc c' hc' heq
  rcases hmoved.held c hc with hold | ⟨hfresh, -⟩
  · exact h c hold c' hc' heq
  · exact hfresh (heq ▸ hm.held c' hc')

/-! ### Runs -/

theorem Sound.later (hs : Sound sha256 s) (hle : s.clock ≤ now) :
    Sound sha256 { s with clock := now } := by
  refine ⟨fun job hjob hclosed => ?_, hs.keys, hs.issued⟩
  obtain ⟨result, hresult, hstored⟩ := hs.done job hjob hclosed
  exact ⟨result, hresult, fun hvalid => hstored (lt_of_le_of_lt hle hvalid)⟩

theorem CleanupCandidate.Known.later (h : c.Known s) (hle : s.clock ≤ now) :
    c.Known { s with clock := now } := by
  refine ⟨h.key, h.status.imp_right fun ⟨hclosed, job, hjob, hid, hexpired⟩ => ⟨hclosed, ?_⟩⟩
  obtain ⟨hstatus, result, hresult, hbefore⟩ := expired_iff.mp hexpired
  exact ⟨job, hjob, hid, expired_iff.mpr ⟨hstatus, result, hresult, hbefore.trans hle⟩⟩

theorem Knows.later (hl : Knows sha256 s l) (hle : s.clock ≤ now) :
    Knows sha256 { s with clock := now } l :=
  ⟨hl.held, hl.stored, fun c hc => (hl.todo c hc).later hle⟩

theorem move_cases {a : Action} (h : move sha256 a s l = some (s', l')) :
    s.clock ≤ a.now ∧ Moved sha256 a.op { s with clock := a.now } l s' l' := by
  unfold move at h
  split at h
  · cases h
  · next hle => exact ⟨by omega, proceed_moved h⟩

theorem joint_rules : JointRules (program sha256) (World.Meets Current) (Sound sha256)
    (Knows sha256) Different where
  symm _ _ h c hc c' hc' heq := h c' hc' c hc heq.symm
  enter _ _ _ := ⟨fun _ hc => (by cases hc), fun _ _ h => (by cases h), fun _ hc => (by cases hc)⟩
  apart _ _ _ hc := by cases hc
  own w i l a s' l' hg hi hs hl hmove := by
    obtain ⟨hle, hmoved⟩ := move_cases hmove
    have hcurrent : Current w.store l a := by
      unfold World.Meets at hg
      simpa only [hi] using hg
    have hs := hs.later hle
    have hl := hl.later hle
    exact ⟨hs.step hl (show Current { w.store with clock := a.now } l ⟨a.now, a.op⟩ from hcurrent)
      hmoved, knows_own hs hl hmoved⟩
  other w i l a s' l' j m hg hi _ _ _ hl hm hdifferent _ _ hmove := by
    obtain ⟨hle, hmoved⟩ := move_cases hmove
    have hcurrent : Current w.store l a := by
      unfold World.Meets at hg
      simpa only [hi] using hg
    have hm := hm.later hle
    exact ⟨knows_other (hl.later hle) hm hdifferent
      (show Current { w.store with clock := a.now } l ⟨a.now, a.op⟩ from hcurrent) hmoved,
      different_own hm hdifferent hmoved⟩

theorem sound_empty : Sound sha256 Store.empty :=
  ⟨fun _ hjob => (by cases hjob), fun _ hjob => (by cases hjob), fun _ hjob => (by cases hjob)⟩

/-- **Exports**: where files are written and deleted only while their jobs are as their sessions have
read them, every job that is completed and has not expired has the file that it records. -/
theorem artefacts_match (sha256 : Bytes → String) (events : List (Event Call Action))
    (hg : Runs.Guarded (Sessions.step (program sha256)) (World.Meets Current)
      (World.closed Store.empty) events) :
    (Sessions.run (program sha256) (World.closed Store.empty) events).store.Matches sha256 := by
  have hstart : World.Holds (program sha256) (Sound sha256) (Knows sha256)
      (World.closed Store.empty) := World.holds_closed sound_empty
  exact (run_joint joint_rules events hstart World.pairs_closed hg).1.store.done

/-! Two workers at one job, the first of which takes longer than its claim lasts. -/

/-- The checksums of the two archives. -/
def sampleSha256 (body : Bytes) : String :=
  if body = [1] then "4bf5122f344554c53bde2ebb8cd2b7e3d1600ad631c385a5d7cce23c7785459a"
  else "ee9040f65c341855e070ff438eb0ea9d5b831b2a2c270fb7ef592d750408e3b3"

/-- Both have claimed the job, and the second one has completed it. -/
def timeoutEvents : List (Event Call Action) :=
  [.enter (.request ⟨1, 10, some 20, .workspace, .json, none⟩), .act 0 ⟨0, .perform⟩,
    .enter (.process {}), .act 1 ⟨1, .claim [] fun _ => 11⟩,
    .enter (.process {}), .act 2 ⟨2000000, .claim [] fun _ => 12⟩,
    .act 2 ⟨2000001, .put "main" [2, 3] none⟩, .act 2 ⟨2000002, .complete⟩]

theorem artefacts_match_timeout :
    (Sessions.run (program sampleSha256) (World.closed Store.empty) timeoutEvents).store.Matches
      sampleSha256 :=
  artefacts_match sampleSha256 timeoutEvents (by decide +kernel)

/-- Then the first worker stores its archive. -/
def staleEvents : List (Event Call Action) :=
  timeoutEvents ++ [.act 1 ⟨2000003, .put "main" [1] none⟩]

theorem overwritten_by_stale_worker :
    ¬ (Sessions.run (program sampleSha256) (World.closed Store.empty) staleEvents).store.Matches
      sampleSha256 := by
  intro h
  have hrow : ∃ job ∈
      (Sessions.run (program sampleSha256) (World.closed Store.empty) staleEvents).store.jobs.rows,
      job.lease.status = .closed () ∧ (job.result.all fun result =>
        (Sessions.run (program sampleSha256) (World.closed Store.empty) staleEvents).store.clock <
          result.expiresAt && result.artefact.fileSize = 2 &&
        (Sessions.run (program sampleSha256) (World.closed Store.empty) staleEvents).store.objects
          result.artefact.objectKey = some [1]) = true := by
    decide +kernel
  obtain ⟨job, hjob, hclosed, hall⟩ := hrow
  obtain ⟨result, hresult, hstored⟩ := h job hjob hclosed
  rw [hresult, Option.all_some, Bool.and_eq_true, Bool.and_eq_true, decide_eq_true_iff,
    decide_eq_true_iff, decide_eq_true_iff] at hall
  obtain ⟨body, hbody, hsize, -⟩ := hstored hall.1.1
  rw [hall.2] at hbody
  cases hbody
  rw [hall.1.2] at hsize
  cases hsize

end CalmBoard.Exports
