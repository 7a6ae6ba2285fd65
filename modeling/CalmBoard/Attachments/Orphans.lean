import CalmBoard.Attachments.Steps

/-!
# CalmBoard.Attachments.Orphans — what the clean-up deletes

* `Live`: an attachment that can be used.
* `Timely`: no verdict `clean` arrives for an attachment that a clean-up has still to delete.
* `orphans_only`: as long as that is so, a clean-up deletes no file of a live attachment.
* `late_verdict_lost`: a completion that arrives after the claim.
-/

namespace CalmBoard.Attachments

open Sessions

variable {accepts : Bytes → Bool} {s s' : Store} {l l' : Local} {now : ℤ} {op : Op}
  {row row' : Attachment} {c : AttachmentCleanupCandidate}

/-- Clean, not deleted, and attached to an active task or project. -/
def Live (s : Store) (row : Attachment) : Prop :=
  row.scanStatus = .clean ∧ row.deletedAt = none ∧ targetActive s row.target = true

instance (s : Store) (row : Attachment) : Decidable (Live s row) :=
  inferInstanceAs (Decidable (_ ∧ _ ∧ _))

/-- The file is not that of a live attachment. -/
def Unused (s : Store) (key : ObjectKey) : Prop :=
  ∀ row ∈ s.attachments.rows, row.url = key → ¬ Live s row

instance (s : Store) (key : ObjectKey) : Decidable (Unused s key) :=
  inferInstanceAs (Decidable (∀ row ∈ s.attachments.rows, _ → ¬ Live s row))

/-- What a clean-up has claimed and not deleted. -/
def Local.todo : Local → List AttachmentCleanupCandidate
  | .claiming _ rest | .cleaning rest | .fileDeleted _ rest | .cleaned _ rest | .finishing _ rest
  | .cleanupFailed _ _ rest | .releasing _ _ rest => rest
  | _ => []

/-- The file that a clean-up deletes with an event. -/
def deletedFile (w : World Store Local) : Event Call Action → Option ObjectKey
  | .act i ⟨_, .erase _⟩ =>
    match w.sessions[i]? with
    | some (.cleaning (c :: _)) => some c.url
    | _ => none
  | _ => none

/-- The transaction has found a file clean. -/
def Tx.clean (tx : Tx) : Bool := tx.patch.scan.any fun result => result.status = .clean

/-- A completion that has found a file clean commits while no clean-up has the attachment still to
delete. -/
def Timely (w : World Store Local) : Event Call Action → Prop
  | .act i ⟨_, .commit⟩ =>
    match w.sessions[i]? with
    | some (.presenting _ (some tx)) =>
      tx.clean = true → ∀ m ∈ w.sessions, ∀ c ∈ m.todo, c.id ≠ tx.id
    | _ => True
  | _ => True

instance (w : World Store Local) (e : Event Call Action) : Decidable (Timely w e) := by
  unfold Timely
  split
  · split <;> infer_instance
  · infer_instance

/-- What a clean-up knows of a candidate. -/
structure AttachmentCleanupCandidate.Known (s : Store) (c : AttachmentCleanupCandidate) : Prop where
  issued : c.url.uuid ∈ s.issued
  id : ∀ row ∈ s.attachments.rows, row.url = c.url → row.id = c.id
  orphan : Unused s c.url

theorem Fate.live (hfate : Fate op l row row')
    (htargets : ∀ target, targetActive s' target = true → targetActive s target = true)
    (hlive : Live s' row') : Live s row ∨ ∃ rows tx, op = .commit ∧ l = .presenting rows (some tx) ∧
      row.id = tx.id ∧ tx.clean = true := by
  obtain ⟨hclean, hkept, hactive⟩ := hlive
  have hbefore : targetActive s row.target = true := by
    rw [← hfate.same.2.2]
    exact htargets _ hactive
  cases hfate with
  | stays | claimed | released => exact Or.inl ⟨hclean, hkept, hbefore⟩
  | patched rows tx hop hl hid =>
    unfold Patch.apply at hclean hkept
    have hdeleted : row.deletedAt = none := by
      dsimp only at hkept
      rw [Option.or_eq_none_iff] at hkept
      have hsame : ((row.withScan tx.patch.scan).withPreview tx.patch.preview).deletedAt =
          row.deletedAt := by
        unfold Attachment.withPreview Attachment.withScan
        split <;> split <;> rfl
      exact hsame ▸ hkept.2
    have hstatus : ((row.withScan tx.patch.scan).withPreview tx.patch.preview).scanStatus =
        (row.withScan tx.patch.scan).scanStatus := by
      unfold Attachment.withPreview
      split <;> rfl
    rw [hstatus] at hclean
    cases hscan : tx.patch.scan with
    | none =>
      rw [hscan] at hclean
      exact Or.inl ⟨hclean, hdeleted, hbefore⟩
    | some result =>
      rw [hscan] at hclean
      refine Or.inr ⟨rows, tx, hop, hl, hid, ?_⟩
      unfold Tx.clean
      rw [hscan, Option.any_some]
      exact decide_eq_true hclean

theorem AttachmentCleanupCandidate.Known.step (h : c.Known s) (hmoved : Moved op s l s')
    (htimely : ∀ rows tx, op = .commit → l = .presenting rows (some tx) → tx.clean = true →
      c.id ≠ tx.id) : c.Known s' := by
  obtain ⟨new, hfresh, hrows⟩ := hmoved.rows
  have hold : ∀ row' ∈ s'.attachments.rows, row'.url = c.url →
      ∃ row ∈ s.attachments.rows, row.id = row'.id ∧ row.url = c.url ∧ Fate op l row row' := by
    intro row' hrow' hurl
    rcases hrows row' hrow' with ⟨row, hrow, hid, hfate⟩ | hnew
    · exact ⟨row, hrow, hid, hfate.same.1.symm.trans hurl, hfate⟩
    · exact absurd (hurl ▸ h.issued) (hfresh row' hnew).uuid
  refine ⟨hmoved.issued h.issued, fun row' hrow' hurl' => ?_, fun row' hrow' hurl' hlive => ?_⟩
  · obtain ⟨row, hrow, hid, hurl, -⟩ := hold row' hrow' hurl'
    exact hid ▸ h.id row hrow hurl
  · obtain ⟨row, hrow, hid, hurl, hfate⟩ := hold row' hrow' hurl'
    rcases hfate.live hmoved.targets hlive with hbefore | ⟨rows, tx, hop, hl, htx, hclean⟩
    · exact h.orphan row hrow hurl hbefore
    · exact htimely rows tx hop hl hclean ((h.id row hrow hurl).symm.trans htx)

theorem not_live_of_orphaned {options : AttachmentCleanupOptions}
    (h : orphaned options now s row = true) : ¬ Live s row := by
  rintro ⟨hclean, hkept, hactive⟩
  unfold orphaned at h
  rw [hclean, hkept, hactive] at h
  simp at h

theorem known_of_claimed {options : AttachmentCleanupOptions} {skipped : List Uuid}
    (hs : Registered s)
    (h : c ∈ (claimAttachmentCleanupBatch options now skipped s).map (candidateOf now)) :
    c.Known s := by
  obtain ⟨row, hrow, rfl⟩ := List.mem_map.mp h
  have hmem := List.mem_of_mem_take hrow
  rw [List.mem_mergeSort, List.mem_filter, Bool.and_eq_true] at hmem
  obtain ⟨hrow, heligible, -⟩ := hmem
  unfold cleanupEligible at heligible
  rw [Bool.and_eq_true] at heligible
  refine ⟨hs.uuid row hrow, fun row' hrow' hurl => hs.unique row' hrow' row hrow hurl,
    fun row' hrow' hurl => ?_⟩
  rw [Table.eq_of_mem hrow' hrow (hs.unique row' hrow' row hrow hurl)]
  exact not_live_of_orphaned heligible.2

theorem cleanup_todo (h : cleanup now op s l = some (s', l')) (hc : c ∈ l'.todo) :
    c ∈ l.todo ∨ (s' = s ∧ ∃ options skipped,
      c ∈ (claimAttachmentCleanupBatch options now skipped s).map (candidateOf now)) := by
  unfold cleanup at h
  repeat' split at h
  all_goals cases h
  all_goals first
    | exact Or.inr ⟨rfl, _, _, hc⟩
    | exact Or.inl hc
    | exact Or.inl (List.mem_cons_of_mem _ hc)

@[simp] theorem startCompletion_todo (context : Context) : (startCompletion context row).todo = [] := by
  unfold startCompletion
  repeat' split
  all_goals rfl

@[simp] theorem inspectObject_todo (context : Context) : (inspectObject context row s).todo = [] := by
  unfold inspectObject
  repeat' split
  all_goals rfl

@[simp] theorem readSignature_todo (context : Context) : (readSignature context row s).todo = [] := by
  unfold readSignature
  repeat' split
  all_goals rfl

@[simp] theorem scanObject_todo (context : Context) (engine : String) (signature : Option String) :
    (scanObject accepts context row engine signature s).todo = [] := by
  unfold scanObject
  split <;> rfl

@[simp] theorem writeScan_todo (context : Context) (result : AttachmentScanResult) :
    (writeScan context row result now s).todo = [] := by
  unfold writeScan
  repeat' split
  all_goals rfl

@[simp] theorem writePreview_todo (context : Context) (tx : Option Tx)
    (result : AttachmentPreviewResult) : (writePreview context row tx result now s).todo = [] := by
  unfold writePreview
  repeat' split
  all_goals rfl

theorem completeUpload_todo (h : completeUpload accepts now op s l = some (s', l')) :
    l'.todo = [] := by
  unfold completeUpload at h
  repeat' split at h
  all_goals cases h
  all_goals first | rfl | simp

theorem deleteAttachment_todo (h : deleteAttachment now op s l = some (s', l')) : l'.todo = [] := by
  unfold deleteAttachment at h
  repeat' split at h
  all_goals cases h
  all_goals rfl

theorem createUpload_todo {context : Context} {input : UploadInput} {id uuid : Uuid}
    {folder : String} (h : createUpload context input id folder uuid now s = some (s', l')) :
    l'.todo = [] := by
  unfold createUpload at h
  split at h
  · obtain ⟨attachments, -, heq⟩ := Option.map_eq_some_iff.mp h
    cases heq
    rfl
  · cases h

theorem proceed_todo (h : proceed accepts now op s l = some (s', l')) (hc : c ∈ l'.todo) :
    c ∈ l.todo ∨ (s' = s ∧ ∃ options skipped,
      c ∈ (claimAttachmentCleanupBatch options now skipped s).map (candidateOf now)) := by
  have hnone : ∀ m : Local, m.todo = [] → c ∉ m.todo := by
    intro m hm hmem
    rw [hm] at hmem
    cases hmem
  unfold proceed at h
  split at h
  · cases h
    cases hc
  · exact absurd hc (hnone _ (createUpload_todo h))
  · obtain ⟨t, -, heq⟩ := Option.map_eq_some_iff.mp h
    cases heq
    cases hc
  · cases h
    refine absurd hc (hnone _ ?_)
    split <;> rfl
  · cases h
    cases hc
  · cases h
    cases hc
  · cases h
    cases hc
  · rcases Option.or_eq_some_iff.mp h with h | ⟨-, h⟩
    · exact absurd hc (hnone _ (completeUpload_todo h))
    · rcases Option.or_eq_some_iff.mp h with h | ⟨-, h⟩
      · exact absurd hc (hnone _ (deleteAttachment_todo h))
      · exact cleanup_todo h hc

/-! ### Runs -/

theorem timely_for {w : World Store Local} {i j : ℕ} {m : Local} {a : Action}
    (hg : Timely w (.act i a)) (hi : w.sessions[i]? = some l) (hj : w.sessions[j]? = some m)
    (hc : c ∈ m.todo) :
    ∀ rows tx, a.op = .commit → l = .presenting rows (some tx) → tx.clean = true → c.id ≠ tx.id := by
  intro rows tx hop hl hclean
  obtain ⟨now, op⟩ := a
  cases hop
  subst hl
  unfold Timely at hg
  simp only [hi] at hg
  exact hg hclean m (List.mem_of_getElem? hj) c hc

theorem orphan_rules : JointRules (program accepts) Timely Registered
    (fun s l => ∀ c ∈ l.todo, c.Known s) (fun _ _ => True) where
  symm _ _ _ := trivial
  enter _ _ _ := fun _ hc => (by cases hc)
  apart _ _ := trivial
  own w i l a s' l' hg hi hs hl hmove := by
    obtain ⟨-, hproceed⟩ := move_cases hmove
    have hmoved := proceed_moved hproceed
    have hregistered : Registered { w.store with clock := a.now } := ⟨hs.id, hs.uuid, hs.file, hs.unique⟩
    refine ⟨hregistered.step hmoved, fun c hc => ?_⟩
    rcases proceed_todo hproceed hc with hold | ⟨rfl, options, skipped, hclaimed⟩
    · have hknown := hl c hold
      have hlater : c.Known { w.store with clock := a.now } := ⟨hknown.issued, hknown.id, hknown.orphan⟩
      exact hlater.step hmoved (timely_for hg hi hi hold)
    · exact known_of_claimed hregistered hclaimed
  other w i l a s' l' j m hg hi _ hj hs hl hm _ _ _ hmove := by
    obtain ⟨-, hproceed⟩ := move_cases hmove
    refine ⟨fun c hc => ?_, trivial⟩
    have hknown := hm c hc
    have hlater : c.Known { w.store with clock := a.now } := ⟨hknown.issued, hknown.id, hknown.orphan⟩
    exact hlater.step (proceed_moved hproceed) (timely_for hg hi hj hc)

/-- **Clean-ups**: where no verdict `clean` is committed for an attachment that a clean-up has claimed
and not deleted, no clean-up deletes the file of a live attachment. -/
theorem orphans_only (accepts : Bytes → Bool) (tasks projects : Table TargetRow TargetRow.id)
    (events : List (Event Call Action))
    (hg : Runs.Guarded (Sessions.step (program accepts)) Timely
      (World.closed (Store.start tasks projects)) events)
    (e : Event Call Action) (key : ObjectKey)
    (hdeletes : deletedFile (Sessions.run (program accepts)
      (World.closed (Store.start tasks projects)) events) e = some key) :
    Unused (Sessions.run (program accepts) (World.closed (Store.start tasks projects)) events).store
      key := by
  have hstart : World.Holds (program accepts) Registered (fun s l => ∀ c ∈ l.todo, c.Known s)
      (World.closed (Store.start tasks projects)) :=
    World.holds_closed (registered_start tasks projects)
  have hw := (run_joint orphan_rules events hstart World.pairs_closed hg).1
  generalize Sessions.run (program accepts) (World.closed (Store.start tasks projects)) events = w
    at hw hdeletes ⊢
  unfold deletedFile at hdeletes
  split at hdeletes
  · split at hdeletes
    · next i now error x c rest hi =>
      cases hdeletes
      exact (hw.sessions i _ hi c List.mem_cons_self).orphan
    · cases hdeletes
  · cases hdeletes

/-! An upload that is completed more than two hours later, while a clean-up is at it. -/

def sampleContext : Context := { organizationId := 1, workspaceId := 2 }

def sampleTasks : Table TargetRow TargetRow.id :=
  ⟨[{ id := 5, organizationId := 1, workspaceId := 2 }], List.nodup_singleton _⟩

def sampleInput : UploadInput :=
  { target := .task 5, fileName := "notes.txt", fileSize := 2, mimeType := "text/plain" }

def sampleKey : ObjectKey := newKey sampleContext sampleInput "2026/01" 8

/-- The file is uploaded, and a clean-up claims the attachment. -/
def claimedEvents : List (Event Call Action) :=
  [.enter (.createUpload sampleContext sampleInput), .act 0 ⟨0, .create 7 "2026/01" 8⟩,
    .enter (.put sampleKey ⟨[72, 105], "text/plain"⟩), .act 1 ⟨1, .put⟩,
    .enter (.cleanup {}), .act 2 ⟨8000000000, .claim []⟩, .act 2 ⟨8000000000, .commit⟩]

def eraseEvent : Event Call Action := .act 2 ⟨8000000002, .erase none⟩

theorem orphans_only_claimed :
    Unused (Sessions.run (program fun _ => true) (World.closed (Store.start sampleTasks Table.empty))
      claimedEvents).store sampleKey :=
  orphans_only (fun _ => true) sampleTasks Table.empty claimedEvents (by decide +kernel) eraseEvent
    sampleKey (by decide +kernel)

/-- The completion finds the file clean. -/
def lateEvents : List (Event Call Action) :=
  claimedEvents ++ [.enter (.completeUpload sampleContext 7)] ++
    [Op.read, .inspect, .inspect, .scan "engine" none, .write, .preview none, .write, .commit].map
      fun op => .act 3 ⟨8000000001, op⟩

theorem late_verdict_lost :
    deletedFile (Sessions.run (program fun _ => true)
        (World.closed (Store.start sampleTasks Table.empty)) lateEvents) eraseEvent =
      some sampleKey ∧
    ¬ Unused (Sessions.run (program fun _ => true)
        (World.closed (Store.start sampleTasks Table.empty)) lateEvents).store sampleKey := by
  decide +kernel

end CalmBoard.Attachments
