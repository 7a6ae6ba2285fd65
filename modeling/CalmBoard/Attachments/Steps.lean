import CalmBoard.Attachments.Service

/-!
# CalmBoard.Attachments.Steps — what a step does to rows and files

* `Fate`: a row stays, is claimed or given back by a clean-up, or gets the changes of a transaction.
* `Stores`: a file is put through its URL, a preview is put, or something is deleted.
* `proceed_moved`: every step is of these kinds.
* `Registered`: identifiers and keys belong to one row.
-/

namespace CalmBoard.Attachments

open Sessions

variable {accepts : Bytes → Bool} {s s' : Store} {l l' : Local} {now : ℤ} {op : Op}
  {row row' : Attachment}

/-- What becomes of a row. -/
inductive Fate (op : Op) (l : Local) : Attachment → Attachment → Prop
  | stays {row : Attachment} : Fate op l row row
  | claimed {row : Attachment} (now : ℤ) : Fate op l row (row.claimed now)
  | released {row : Attachment} (message : String) : Fate op l row (row.released message)
  | patched {row : Attachment} (rows : List Attachment) (tx : Tx) (hop : op = .commit)
    (hl : l = .presenting rows (some tx)) (hid : row.id = tx.id) : Fate op l row (tx.patch.apply row)

/-- A row that is new: nothing about it was used before. -/
structure Fresh (s s' : Store) (row : Attachment) : Prop where
  status : row.scanStatus = .pending
  file : row.url.preview = false
  id : row.id ∉ s.issued
  uuid : row.url.uuid ∉ s.issued
  issued : row.id ∈ s'.issued ∧ row.url.uuid ∈ s'.issued

/-- What becomes of the bucket. -/
inductive Stores (op : Op) (s : Store) (l : Local) : (ObjectKey → Option StoredObject) → Prop
  | same : Stores op s l s.objects
  | put (key : ObjectKey) (object : StoredObject) (hop : op = .put)
    (hl : l = .called (.put key object)) :
    Stores op s l (Function.update s.objects key (some object))
  | preview (key : ObjectKey) (object : StoredObject) (hkey : key.preview = true) :
    Stores op s l (Function.update s.objects key (some object))
  | erased (key : ObjectKey) : Stores op s l (Function.update s.objects key none)

/-- What a step does to the store; at most one row is new. -/
structure Moved (op : Op) (s : Store) (l : Local) (s' : Store) : Prop where
  rows : ∃ new : Option Attachment, (∀ row ∈ new, Fresh s s' row) ∧
    ∀ row' ∈ s'.attachments.rows,
      (∃ row ∈ s.attachments.rows, row.id = row'.id ∧ Fate op l row row') ∨ row' ∈ new
  objects : Stores op s l s'.objects
  targets : ∀ target, targetActive s' target = true → targetActive s target = true
  issued : s.issued ⊆ s'.issued

theorem moved_objects {objects : ObjectKey → Option StoredObject} (h : Stores op s l objects) :
    Moved op s l { s with objects } where
  rows := ⟨none, fun _ hnew => (by cases hnew), fun row hrow => Or.inl ⟨row, hrow, rfl, .stays⟩⟩
  objects := h
  targets _ h := h
  issued := List.Subset.refl _

theorem moved_same : Moved op s l s := moved_objects .same

theorem moved_erase (key : ObjectKey) : Moved op s l (putObject key none s) :=
  moved_objects (.erased key)

theorem moved_rows {attachments : Table Attachment Attachment.id}
    (h : ∀ row' ∈ attachments.rows, ∃ row ∈ s.attachments.rows, row.id = row'.id ∧ Fate op l row row') :
    Moved op s l { s with attachments } where
  rows := ⟨none, fun _ hnew => (by cases hnew), fun row' hrow' => Or.inl (h row' hrow')⟩
  objects := .same
  targets _ h := h
  issued := List.Subset.refl _

theorem moved_update {p : Attachment → Bool} {f : Attachment → Attachment}
    {hf : ∀ row, (f row).id = row.id} (hfate : ∀ row, p row = true → Fate op l row (f row)) :
    Moved op s l { s with attachments := s.attachments.update p f hf } := by
  refine moved_rows fun row' hrow' => ?_
  rw [Table.mem_update] at hrow'
  obtain ⟨row, hrow, rfl⟩ := hrow'
  split
  · next hp => exact ⟨row, hrow, (hf row).symm, hfate row hp⟩
  · exact ⟨row, hrow, rfl, .stays⟩

theorem moved_remove {p : Attachment → Bool} :
    Moved op s l { s with attachments := s.attachments.remove p } := by
  refine moved_rows fun row' hrow' => ⟨row', ?_, rfl, .stays⟩
  rw [Table.rows_remove] at hrow'
  exact List.mem_of_mem_filter hrow'

theorem moved_create {context : Context} {input : UploadInput} {id uuid : Uuid} {folder : String}
    (h : createUpload context input id folder uuid now s = some (s', l')) : Moved op s l s' := by
  unfold createUpload at h
  split at h
  · next hfresh =>
    simp only [Bool.and_eq_true, Bool.not_eq_true', decide_eq_true_eq] at hfresh
    obtain ⟨⟨⟨-, hid⟩, huuid⟩, -⟩ := hfresh
    obtain ⟨attachments, hinsert, heq⟩ := Option.map_eq_some_iff.mp h
    cases heq
    refine ⟨⟨some (newAttachment context input id (newKey context input folder uuid) now), ?_, ?_⟩,
      .same, fun _ h => h, List.subset_append_left _ _⟩
    · intro row hrow
      cases hrow
      rw [List.contains_eq_mem, decide_eq_false_iff_not] at hid huuid
      refine ⟨rfl, rfl, hid, huuid, ?_, ?_⟩
      · exact List.mem_append_right _ List.mem_cons_self
      · exact List.mem_append_right _ (List.mem_cons_of_mem _ List.mem_cons_self)
    · intro row' hrow'
      rw [show row' ∈ attachments.rows ↔ _ from Iff.rfl, (Table.insert?_eq_some hinsert).2] at hrow'
      rcases List.mem_append.mp hrow' with hold | hnew
      · exact Or.inl ⟨row', hold, rfl, .stays⟩
      · exact Or.inr (List.mem_singleton.mp hnew ▸ rfl)
  · cases h

theorem moved_put {key : ObjectKey} {object : StoredObject}
    (h : putUpload key object now s = some s') :
    Moved .put s (.called (.put key object)) s' := by
  unfold putUpload at h
  split at h
  · cases h
    exact moved_objects (.put key object rfl rfl)
  · cases h

theorem active_of_softDeleted {T : Table TargetRow TargetRow.id} {id id' : Uuid}
    (h : ((T.update (fun t => t.id = id) TargetRow.softDeleted TargetRow.softDeleted_id).find? id').any
      (fun t => !t.deleted) = true) : (T.find? id').any (fun t => !t.deleted) = true := by
  rw [Table.find?_update] at h
  cases hfind : T.find? id' with
  | none =>
    rw [hfind] at h
    cases h
  | some t =>
    rw [hfind, Option.map_some, Option.any_some] at h
    rw [Option.any_some]
    split at h
    · cases h
    · exact h

theorem moved_targets {tasks projects : Table TargetRow TargetRow.id}
    (h : ∀ target, targetActive { s with tasks, projects } target = true →
      targetActive s target = true) : Moved op s l { s with tasks, projects } where
  rows := ⟨none, fun _ hnew => (by cases hnew), fun row hrow => Or.inl ⟨row, hrow, rfl, .stays⟩⟩
  objects := .same
  targets := h
  issued := List.Subset.refl _

theorem moved_deleteTask (id : Uuid) : Moved op s l (deleteTask id s) := by
  refine moved_targets fun target h => ?_
  cases target with
  | task id' => exact active_of_softDeleted h
  | project id' => exact h

theorem moved_deleteProject (id : Uuid) : Moved op s l (deleteProject id s) := by
  refine moved_targets fun target h => ?_
  cases target with
  | task id' => exact h
  | project id' => exact active_of_softDeleted h

theorem moved_preview {data : Option Bytes} : Moved op s l (createAttachmentPreview row data s).1 := by
  unfold createAttachmentPreview
  split
  · exact moved_same
  · split
    · exact moved_same
    · split
      · exact moved_objects (.preview _ _ rfl)
      · exact moved_same

theorem moved_completeUpload (h : completeUpload accepts now op s l = some (s', l')) :
    Moved op s l s' := by
  unfold completeUpload at h
  repeat' split at h
  all_goals cases h
  all_goals first | exact moved_same | exact moved_erase _ | exact moved_preview

theorem moved_deleteAttachment (h : deleteAttachment now op s l = some (s', l')) : Moved op s l s' := by
  unfold deleteAttachment at h
  repeat' split at h
  all_goals cases h
  all_goals first | exact moved_same | exact moved_erase _

theorem moved_cleanup (h : cleanup now op s l = some (s', l')) : Moved op s l s' := by
  unfold cleanup at h
  repeat' split at h
  all_goals cases h
  all_goals first
    | exact moved_same
    | exact moved_erase _
    | exact moved_remove
    | exact moved_update fun _ _ => .claimed _
    | exact moved_update fun _ _ => .released _

/-- **Steps**: what each of them does. -/
theorem proceed_moved (h : proceed accepts now op s l = some (s', l')) : Moved op s l s' := by
  unfold proceed at h
  split at h
  · cases h
    exact moved_same
  · exact moved_create h
  · obtain ⟨t, hput, heq⟩ := Option.map_eq_some_iff.mp h
    cases heq
    exact moved_put hput
  · cases h
    exact moved_same
  · cases h
    exact moved_deleteTask _
  · cases h
    exact moved_deleteProject _
  · next rows tx =>
    cases h
    cases tx with
    | none => exact moved_same
    | some tx => exact moved_update fun row hid => .patched rows tx rfl rfl (of_decide_eq_true hid)
  · rcases Option.or_eq_some_iff.mp h with h | ⟨-, h⟩
    · exact moved_completeUpload h
    · rcases Option.or_eq_some_iff.mp h with h | ⟨-, h⟩
      · exact moved_deleteAttachment h
      · exact moved_cleanup h

theorem move_cases {a : Action} (h : move accepts a s l = some (s', l')) :
    s.clock ≤ a.now ∧ proceed accepts a.now a.op { s with clock := a.now } l = some (s', l') := by
  unfold move at h
  split at h
  · cases h
  · next hle => exact ⟨by omega, h⟩

/-! ### Identifiers -/

/-- Identifiers and keys have been generated, and each key is that of one row. -/
structure Registered (s : Store) : Prop where
  id : ∀ row ∈ s.attachments.rows, row.id ∈ s.issued
  uuid : ∀ row ∈ s.attachments.rows, row.url.uuid ∈ s.issued
  file : ∀ row ∈ s.attachments.rows, row.url.preview = false
  unique : ∀ row ∈ s.attachments.rows, ∀ row' ∈ s.attachments.rows, row.url = row'.url →
    row.id = row'.id

theorem apply_same (patch : Patch) (row : Attachment) :
    (patch.apply row).url = row.url ∧ (patch.apply row).mimeType = row.mimeType ∧
      (patch.apply row).target = row.target := by
  unfold Patch.apply Attachment.withPreview Attachment.withScan
  split <;> split <;> exact ⟨rfl, rfl, rfl⟩

theorem Fate.same (h : Fate op l row row') :
    row'.url = row.url ∧ row'.mimeType = row.mimeType ∧ row'.target = row.target := by
  cases h with
  | stays | claimed | released => exact ⟨rfl, rfl, rfl⟩
  | patched rows tx hop hl hid => exact apply_same tx.patch row

theorem Registered.step (hs : Registered s) (h : Moved op s l s') : Registered s' := by
  obtain ⟨new, hfresh, hrows⟩ := h.rows
  have hold : ∀ row' ∈ s'.attachments.rows,
      (∃ row ∈ s.attachments.rows, row.id = row'.id ∧ row.url = row'.url) ∨ row' ∈ new := by
    intro row' hrow'
    refine (hrows row' hrow').imp_left ?_
    rintro ⟨row, hrow, hid, hfate⟩
    exact ⟨row, hrow, hid, hfate.same.1.symm⟩
  constructor
  · intro row' hrow'
    rcases hold row' hrow' with ⟨row, hrow, hid, -⟩ | hnew
    · exact hid ▸ h.issued (hs.id row hrow)
    · exact (hfresh row' hnew).issued.1
  · intro row' hrow'
    rcases hold row' hrow' with ⟨row, hrow, -, hurl⟩ | hnew
    · exact hurl ▸ h.issued (hs.uuid row hrow)
    · exact (hfresh row' hnew).issued.2
  · intro row' hrow'
    rcases hold row' hrow' with ⟨row, hrow, -, hurl⟩ | hnew
    · exact hurl ▸ hs.file row hrow
    · exact (hfresh row' hnew).file
  · intro row' hrow' other' hother' heq
    rcases hold row' hrow' with ⟨row, hrow, hid, hurl⟩ | hnew
    · rcases hold other' hother' with ⟨other, hother, hid', hurl'⟩ | hnew'
      · rw [← hid, ← hid']
        exact hs.unique row hrow other hother (by rw [hurl, hurl', heq])
      · refine absurd (hs.uuid row hrow) ?_
        rw [hurl, heq]
        exact (hfresh other' hnew').uuid
    · rcases hold other' hother' with ⟨other, hother, hid', hurl'⟩ | hnew'
      · refine absurd (hs.uuid other hother) ?_
        rw [hurl', ← heq]
        exact (hfresh row' hnew).uuid
      · rw [Option.mem_unique hnew hnew']

theorem registered_start (tasks projects : Table TargetRow TargetRow.id) :
    Registered (Store.start tasks projects) :=
  ⟨fun _ h => (by cases h), fun _ h => (by cases h), fun _ h => (by cases h),
    fun _ h => (by cases h)⟩

end CalmBoard.Attachments
