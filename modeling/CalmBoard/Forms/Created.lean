import CalmBoard.Forms.Submissions

/-!
# CalmBoard.Forms.Created — a response creates one task

* `Change`: what a statement may do to a row.
* `move_cases`: a statement changes nothing, or it rewrites rows that its run has locked.
* `created_once`: one task for a response, linked exactly when the response is completed.
-/

namespace CalmBoard.Forms

open Queue Sessions

variable {uuid : String → Option Uuid} {s s' : Store} {l l' : Local} {a : Action}

/-- A response has a task exactly when it is completed (`form_responses_task_creation_result_check`). -/
def FormResponse.Checked (r : FormResponse) : Prop :=
  r.createdTaskId.isSome = true ↔ r.creation.status = .closed .completed

/-- Every row is checked, and every task has a completed response of its own. -/
structure Consistent (s : Store) : Prop where
  checked : ∀ r ∈ s.responses.rows, r.Checked
  completed : ∀ e ∈ s.created, ∃ r ∈ s.responses.rows, r.id = e.responseId ∧
    r.creation.status = .closed .completed
  once : (s.created.map Created.responseId).Nodup

/-- The row of a candidate is still claimed for it. -/
def Claims (s : Store) (c : Candidate) : Prop :=
  ∃ r, s.responses.find? c.id = some r ∧ owned c.claimToken r.creation = true

/-- What a run knows of the rows it has locked. -/
def Knows (s : Store) : Local → Prop
  | .claiming ids now _ => ∃ timeout, ∀ id ∈ ids, ∃ r, s.responses.find? id = some r ∧
      claimable timeout now r.creation = true
  | .locked c .. | .available c .. | .numbered c .. | .written c .. | .releasing c .. => Claims s c
  | _ => True

/-! ### Rows -/

variable {r : FormResponse} {c : Candidate} {now : ℤ}

/-- A write of a row that has not ended, after which it is checked again. -/
structure Change (r r' : FormResponse) : Prop where
  active : r.creation.status.terminal = false
  checked : r.Checked → r'.Checked

theorem no_task_of_open (h : r.creation.status.terminal = false) (hc : r.Checked) :
    r.createdTaskId.isSome = false := by
  by_contra hsome
  rw [Bool.not_eq_false] at hsome
  rw [hc.mp hsome] at h
  cases h

theorem change_of_open {r' : FormResponse} (h : r.creation.status.terminal = false)
    (htask : r'.createdTaskId = r.createdTaskId)
    (hstatus : r'.creation.status ≠ .closed .completed) : Change r r' := by
  refine ⟨h, fun hc => ?_⟩
  have hnone := no_task_of_open h hc
  unfold FormResponse.Checked
  rw [htask, hnone]
  exact ⟨fun h => (by cases h), fun h => absurd h hstatus⟩

theorem change_claimed {timeout : ℤ} {token : Uuid} (h : claimable timeout now r.creation = true) :
    Change r (r.claimed now token) :=
  change_of_open (not_terminal_of_claimable h) rfl (by simp [FormResponse.claimed, claim])

theorem change_complete {taskId : Uuid} (h : owned c.claimToken r.creation = true) :
    Change r (r.complete taskId) :=
  ⟨not_terminal_of_owned h, fun _ => ⟨fun _ => rfl, fun _ => rfl⟩⟩

theorem change_released (h : owned c.claimToken r.creation = true) :
    Change r (r.released now c) := by
  refine change_of_open (not_terminal_of_owned h) rfl ?_
  unfold FormResponse.released release
  split
  · simp
  · simp

/-! ### Statements -/

variable {rest : List Candidate}

/-- A statement that rewrites rows its run has locked; a task comes with its completed response. -/
structure Rewrites (s s' : Store) (l : Local) : Prop where
  rows : ∃ (p : FormResponse → Bool) (f : FormResponse → FormResponse) (hf : ∀ r, (f r).id = r.id),
    s'.responses = s.responses.update p f hf ∧
      ∀ r ∈ s.responses.rows, p r = true → Lock.response r.id ∈ l.locks ∧ Change r (f r)
  created : s'.created = s.created ∨ ∃ e, s'.created = s.created ++ [e] ∧
    (∃ r ∈ s.responses.rows, r.id = e.responseId ∧ r.creation.status.terminal = false) ∧
    ∃ r ∈ s'.responses.rows, r.id = e.responseId ∧ r.creation.status = .closed .completed

theorem rewrites_commitClaim {ids : List Uuid} {token : Uuid → Uuid}
    (hk : Knows s (.claiming ids now token)) :
    Rewrites s (commitClaim ids now token s) (.claiming ids now token) := by
  obtain ⟨timeout, hids⟩ := hk
  refine ⟨⟨_, _, fun r => r.claimed_id now (token r.id), rfl, fun r hr hp => ?_⟩, Or.inl rfl⟩
  have hid : r.id ∈ ids := by simpa using hp
  obtain ⟨r', hr', hclaimable⟩ := hids r.id hid
  rw [Table.find?_of_mem hr] at hr'
  cases hr'
  exact ⟨List.mem_map_of_mem hid, change_claimed hclaimable⟩

theorem selected_iff :
    (decide (r.id = c.id) && owned c.claimToken r.creation) = true ↔
      r.id = c.id ∧ owned c.claimToken r.creation = true := by
  simp

theorem rewrites_commitTask {sequence : SequenceRow} {task : FormTask} (hk : Claims s c) :
    Rewrites s (commitTask c sequence task s) (.written c sequence task rest) := by
  obtain ⟨r, hr, howned⟩ := hk
  obtain ⟨hmem, hid⟩ := Table.find?_eq_some_iff.mp hr
  refine ⟨⟨_, _, FormResponse.complete_id task.id, rfl, fun x hx hp => ?_⟩,
    Or.inr ⟨_, rfl, ⟨r, hmem, hid, ?_⟩, ?_⟩⟩
  · obtain ⟨hxid, hxowned⟩ := selected_iff.mp hp
    exact ⟨by simp [Local.locks, hxid], change_complete hxowned⟩
  · exact not_terminal_of_owned howned
  · refine ⟨r.complete task.id, ?_, hid, rfl⟩
    unfold commitTask
    rw [Table.mem_update]
    exact ⟨r, hmem, if_pos (selected_iff.mpr ⟨hid, howned⟩)⟩

theorem rewrites_commitRelease : Rewrites s (commitRelease c now s) (.releasing c now rest) := by
  refine ⟨⟨_, _, FormResponse.released_id now c, rfl, fun x hx hp => ?_⟩, Or.inl rfl⟩
  obtain ⟨hxid, hxowned⟩ := selected_iff.mp hp
  exact ⟨by simp [Local.locks, hxid], change_released hxowned⟩

theorem knows_claimBatch {options : FormSubmissionOptions} {skipped : List Uuid}
    {token : Uuid → Uuid} : Knows s (.claiming (claimBatch options now skipped s) now token) := by
  refine ⟨options.timeout, fun id hid => ?_⟩
  obtain ⟨r, hr, rfl⟩ := List.mem_map.mp hid
  obtain ⟨hmem, hclaimable⟩ := mem_batch hr
  exact ⟨r, Table.find?_of_mem hmem, hclaimable⟩

theorem claims_of_filter {p : FormResponse → Bool} (h : (s.responses.find? c.id).filter p = some r)
    (hp : ∀ r, p r = true → owned c.claimToken r.creation = true) : Claims s c := by
  obtain ⟨hr, hpr⟩ := Option.filter_eq_some_iff.mp h
  exact ⟨r, hr, hp r hpr⟩

theorem knows_lockResponse : Knows s (lockResponse c rest s) := by
  unfold lockResponse
  split
  · trivial
  split
  · trivial
  · next r hr =>
    split
    · trivial
    · refine claims_of_filter hr fun r hp => ?_
      rw [Bool.and_eq_true] at hp
      exact hp.2

/-- **Statements**: they change nothing, or rewrite rows that their run has locked. -/
theorem move_cases (hk : Knows s l) (h : move uuid a s l = some (s', l')) :
    (s' = s ∧ Knows s l') ∨ (Rewrites s s' l ∧ Knows s' l') := by
  unfold move at h
  split at h
  · cases h
  · cases h
    exact Or.inl ⟨rfl, trivial⟩
  · cases h
    refine Or.inl ⟨rfl, ?_⟩
    unfold fail
    split <;> trivial
  · cases h
    exact Or.inl ⟨rfl, knows_claimBatch⟩
  · unfold proceed at h
    split at h
    · cases h
      exact Or.inr ⟨rewrites_commitClaim hk, trivial⟩
    · cases h
      exact Or.inl ⟨rfl, trivial⟩
    · cases h
      exact Or.inl ⟨rfl, knows_lockResponse⟩
    · split at h
      · cases h
        exact Or.inl ⟨rfl, trivial⟩
      · cases h
        exact Or.inl ⟨rfl, hk⟩
    · cases h
      exact Or.inl ⟨rfl, hk⟩
    · cases h
      exact Or.inl ⟨rfl, hk⟩
    · cases h
      exact Or.inr ⟨rewrites_commitTask hk, trivial⟩
    · split at h
      · cases h
        exact Or.inl ⟨rfl, trivial⟩
      · next r hr =>
        cases h
        exact Or.inl ⟨rfl, claims_of_filter hr fun _ hp => hp⟩
    · cases h
      exact Or.inr ⟨rewrites_commitRelease, trivial⟩
    · cases h
    · cases h
  · cases h

/-! ### Runs together -/

theorem Rewrites.stays (h : Rewrites s s' l) (hr : r ∈ s.responses.rows)
    (hfree : Lock.response r.id ∉ l.locks ∨ r.creation.status.terminal = true) :
    r ∈ s'.responses.rows := by
  obtain ⟨p, f, hf, hrows, hp⟩ := h.rows
  rw [hrows, Table.mem_update]
  refine ⟨r, hr, if_neg fun hpr => ?_⟩
  obtain ⟨hlocked, hchange⟩ := hp r hr hpr
  rcases hfree with hfree | hended
  · exact hfree hlocked
  · rw [hchange.active] at hended
    cases hended

theorem Claims.of_rewrites (hc : Claims s c) (h : Rewrites s s' l)
    (hfree : Lock.response c.id ∉ l.locks) : Claims s' c := by
  obtain ⟨r, hr, howned⟩ := hc
  obtain ⟨hmem, hid⟩ := Table.find?_eq_some_iff.mp hr
  refine ⟨r, Table.find?_eq_some_iff.mpr ⟨h.stays hmem (Or.inl ?_), hid⟩, howned⟩
  rwa [hid]

theorem Knows.of_rewrites {m : Local} (hm : Knows s m) (h : Rewrites s s' l)
    (hclash : (program uuid).clash l m = false) : Knows s' m := by
  have hfree : ∀ k ∈ m.locks, k ∉ l.locks := fun k hk hl => not_locked (by simp [program]) hclash hl hk
  cases m with
  | claiming ids now token =>
    obtain ⟨timeout, hids⟩ := hm
    refine ⟨timeout, fun id hid => ?_⟩
    obtain ⟨r, hr, hclaimable⟩ := hids id hid
    obtain ⟨hmem, hrid⟩ := Table.find?_eq_some_iff.mp hr
    refine ⟨r, Table.find?_eq_some_iff.mpr ⟨h.stays hmem (Or.inl ?_), hrid⟩, hclaimable⟩
    rw [hrid]
    exact hfree _ (List.mem_map_of_mem hid)
  | locked c | available c | numbered c | written c | releasing c =>
    exact Claims.of_rewrites hm h (hfree _ List.mem_cons_self)
  | start | working | failed | stopped => trivial

theorem Rewrites.consistent (h : Rewrites s s' l) (hc : Consistent s) : Consistent s' := by
  have hended : ∀ r ∈ s.responses.rows, r.creation.status = .closed .completed →
      r ∈ s'.responses.rows := fun r hr hs => h.stays hr (Or.inr (by rw [hs]; rfl))
  constructor
  · obtain ⟨p, f, hf, hrows, hp⟩ := h.rows
    intro x hx
    rw [hrows, Table.mem_update] at hx
    obtain ⟨r, hr, rfl⟩ := hx
    split
    · next hpr => exact (hp r hr hpr).2.checked (hc.checked r hr)
    · exact hc.checked r hr
  · intro e he
    have hold : e ∈ s.created → ∃ r ∈ s'.responses.rows, r.id = e.responseId ∧
        r.creation.status = .closed .completed := by
      intro he
      obtain ⟨r, hr, hid, hs⟩ := hc.completed e he
      exact ⟨r, hended r hr hs, hid, hs⟩
    rcases h.created with hsame | ⟨e', hadd, -, hnew⟩
    · exact hold (hsame ▸ he)
    · rw [hadd] at he
      rcases List.mem_append.mp he with he | he
      · exact hold he
      · rw [List.mem_singleton.mp he]
        exact hnew
  · rcases h.created with hsame | ⟨e', hadd, ⟨r, hr, hid, hopen⟩, -⟩
    · rw [hsame]
      exact hc.once
    · rw [hadd, List.map_append, List.nodup_append]
      refine ⟨hc.once, List.nodup_singleton _, ?_⟩
      rintro k hk k' hk' rfl
      -- a response that has a task is completed, and this one was not
      rw [List.map_singleton, List.mem_singleton] at hk'
      obtain ⟨e, he, hek⟩ := List.mem_map.mp hk
      obtain ⟨x, hx, hxid, hs⟩ := hc.completed e he
      have hsame : x = r := Table.eq_of_mem hx hr (hxid.trans (hek.trans (hk'.trans hid.symm)))
      rw [← hsame, hs] at hopen
      cases hopen

theorem rules_of {I : Store → Prop} (hI : ∀ s s' l, I s → Rewrites s s' l → I s') :
    Rules (program uuid) (fun _ _ _ => True) (fun s => Consistent s ∧ I s) Knows where
  enter _ _ _ := trivial
  own s l a s' l' hs hl _ hmove := by
    rcases move_cases hl hmove with ⟨rfl, hk⟩ | ⟨hr, hk⟩
    · exact ⟨hs, hk⟩
    · exact ⟨⟨hr.consistent hs.1, hI s s' l hs.2 hr⟩, hk⟩
  other s l a s' l' m _ hl hm hclash _ hmove := by
    rcases move_cases hl hmove with ⟨rfl, -⟩ | ⟨hr, -⟩
    · exact hm
    · exact hm.of_rewrites hr hclash

/-- **Form responses**: whatever runs of the worker do in whatever order, no response gets two
tasks, it is linked to one exactly when it is completed, and one that is completed or dead stays as
it is. -/
theorem created_once (uuid : String → Option Uuid) (s : Store) (hs : Consistent s)
    (events more : List (Event FormSubmissionOptions Action)) :
    let w := run (program uuid) (World.closed s) events
    (w.store.created.map Created.responseId).Nodup ∧
    (∀ r ∈ w.store.responses.rows,
      r.createdTaskId.isSome = true ↔ r.creation.status = .closed .completed) ∧
    ∀ r ∈ w.store.responses.rows,
      r.creation.status = .closed .completed ∨ r.creation.status = .dead →
        r ∈ (run (program uuid) w more).store.responses.rows := by
  intro w
  have hw : World.Holds (program uuid) (fun s => Consistent s ∧ True) Knows w :=
    run_always (rules_of fun _ _ _ _ _ => trivial) events (World.holds_closed ⟨hs, trivial⟩)
  refine ⟨hw.store.1.once, hw.store.1.checked, fun r hr hended => ?_⟩
  have hterminal : r.creation.status.terminal = true := by
    rcases hended with h | h
    · rw [h]
      rfl
    · rw [h]
      rfl
  have hstays : World.Holds (program uuid)
      (fun s => Consistent s ∧ r ∈ s.responses.rows) Knows (run (program uuid) w more) :=
    run_always (rules_of fun s s' l hr hrewrites => hrewrites.stays hr (Or.inr hterminal)) more
      ⟨⟨hw.store.1, hr⟩, hw.sessions, hw.apart⟩
  exact hstays.store.2

/-! A run claims a response and is slow; another one claims it again after the timeout. -/

def sampleResponse : FormResponse :=
  { id := 1, organizationId := 10, workspaceId := 20
    payload := some { projectId := .string "p", title := .string "[Contact] Ada"
                      description := .string "", status := .string "todo"
                      priority := .string "medium" }
    creation := { status := .pending, attempts := 0, maxAttempts := 5, availableAt := 0 }
    submittedAt := 0 }

def sampleStore : Store :=
  { responses := ⟨[sampleResponse], List.nodup_singleton _⟩
    projects := [{ id := 7, organizationId := 10, workspaceId := 20 }]
    sequences := Table.empty, created := [], events := [] }

def reclaimEvents : List (Event FormSubmissionOptions Action) :=
  [.enter {}, .enter {}, .act 0 (.claim 0 [] fun _ => 100), .act 0 (.next 0 0),
    .act 1 (.claim 1000000 [] fun _ => 200), .act 1 (.next 1000000 0),
    .act 0 (.next 1000001 0), .act 1 (.next 1000002 0), .act 1 (.next 1000002 0),
    .act 1 (.next 1000002 0), .act 1 (.next 1000002 55), .act 1 (.next 1000003 0),
    .act 0 (.next 1000004 0)]

theorem consistent_sampleStore : Consistent sampleStore := by
  refine ⟨fun r hr => ?_, fun e he => (by cases he), List.nodup_nil⟩
  rw [List.mem_singleton.mp hr]
  exact ⟨fun h => (by cases h), fun h => (by cases h)⟩

theorem created_once_reclaimed :
    (run (program fun _ => some 7) (World.closed sampleStore) reclaimEvents).store.created.length =
        1 ∧
      ∀ r ∈ (run (program fun _ => some 7) (World.closed sampleStore)
          reclaimEvents).store.responses.rows,
        r.createdTaskId.isSome = true ↔ r.creation.status = .closed .completed := by
  have h := created_once (fun _ => some 7) sampleStore consistent_sampleStore reclaimEvents []
  exact ⟨by decide +kernel, h.2.1⟩

end CalmBoard.Forms
