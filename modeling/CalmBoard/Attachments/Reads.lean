import CalmBoard.Attachments.Steps

/-!
# CalmBoard.Attachments.Reads — what sessions read and show

* `Local.copies`, `Local.shown`: the rows that a session holds, and those it is going to show.
* `Local.scanning?`, `Local.reads`: what a completion is judging, and whether it has read the file.
* `Goes`, `proceed_goes`: where a step takes a session, with what it has found in the store.
-/

namespace CalmBoard.Attachments

open Sessions

variable {accepts : Bytes → Bool} {s s' : Store} {l l' m : Local} {now : ℤ} {op : Op}
  {row row' : Attachment}

/-! ### What sessions hold -/

/-- The rows that a session has read and still needs. -/
def Local.copies : Local → List Attachment
  | .got _ row | .inspected _ row | .recognised _ row | .rejected _ row _ | .judged _ row _
  | .condemned row _ | .previewing _ row _ | .previewed _ row _ _ => [row]
  | .presenting rows _ => rows
  | _ => []

/-- Those among them that it is going to show. -/
def Local.shown : Local → List Attachment
  | .condemned row _ | .previewing _ row _ | .previewed _ row _ _ => [row]
  | .presenting rows _ => rows
  | _ => []

/-- What it has changed and not committed. -/
def Local.tx? : Local → Option Tx
  | .condemned _ tx => some tx
  | .previewing _ _ tx | .previewed _ _ tx _ | .presenting _ tx | .erasing _ tx | .erased _ tx => tx
  | _ => none

def Tx.scans (tx : Tx) : Bool := tx.patch.scan.isSome

/-- The attachment that a completion is judging, until it commits. -/
def Local.scanning? : Local → Option Uuid
  | .got _ row | .inspected _ row | .recognised _ row | .rejected _ row _ | .judged _ row _ =>
    some row.id
  | .condemned _ tx => ((some tx).filter Tx.scans).map Tx.id
  | .previewing _ _ tx | .previewed _ _ tx _ | .presenting _ tx | .erasing _ tx | .erased _ tx =>
    (tx.filter Tx.scans).map Tx.id
  | _ => none

/-- A completion has begun to read the file, and has not committed. -/
def Local.reads (key : ObjectKey) : Local → Bool
  | .recognised _ row | .judged _ row _ | .condemned row _ | .previewing _ row (some _)
  | .previewed _ row (some _) _ => row.url = key
  | .presenting rows (some _) => rows.any fun row => row.url = key
  | _ => false

/-- What is in the bucket for a row. -/
def FileIs (s : Store) (row : Attachment) (p : StoredObject → Prop) : Prop :=
  ∀ object, s.objects row.url = some object → p object

def Recognised (s : Store) (row : Attachment) : Prop :=
  FileIs s row fun object =>
    contentMatchesMimeType row.type (object.body.take attachmentSignatureBytes) = true

def Scanned (accepts : Bytes → Bool) (s : Store) (row : Attachment) : Prop :=
  FileIs s row fun object => accepts object.body = true

/-- Nothing is held, and nothing but a deletion is to be committed. -/
structure Local.Idle (l : Local) : Prop where
  copies : l.copies = []
  shown : l.shown = []
  scanning : l.scanning? = none
  tx : ∀ tx, l.tx? = some tx → tx.scans = false

/-! ### Steps of a session -/

variable {context : Context} {result : AttachmentPreviewResult} {id : Uuid}

/-- Where a session goes, with what it has read in the store. -/
inductive Goes (accepts : Bytes → Bool) (op : Op) (s : Store) : Local → Local → Prop
  | idles {l l' : Local} (h : l'.Idle) : Goes accepts op s l l'
  | shows {l : Local} {rows : List Attachment} (h : ∀ row ∈ rows, row ∈ s.attachments.rows) :
    Goes accepts op s l (.presenting rows none)
  | starts {context : Context} {id : Uuid} {row : Attachment} (hrow : row ∈ s.attachments.rows)
    (hid : row.id = id) (hpending : row.scanStatus = .pending) (hop : op = .read) :
    Goes accepts op s (.called (.completeUpload context id)) (.got context row)
  | previews {l : Local} {context : Context} {row : Attachment} (hrow : row ∈ s.attachments.rows) :
    Goes accepts op s l (.previewing context row none)
  | inspects {context : Context} {row : Attachment} :
    Goes accepts op s (.got context row) (.inspected context row)
  | rejects {l : Local} {context : Context} {row : Attachment} {engine : String}
    (h : l = .got context row ∨ l = .inspected context row) :
    Goes accepts op s l (.rejected context row engine)
  | fails {l : Local} {context : Context} {row : Attachment} {engine : String}
    (h : l = .inspected context row ∨ l = .rejected context row engine ∨ l = .recognised context row) :
    Goes accepts op s l (.judged context row (failedScan engine))
  | recognises {context : Context} {row : Attachment} (h : Recognised s row) :
    Goes accepts op s (.inspected context row) (.recognised context row)
  | judges {context : Context} {row : Attachment} {result : AttachmentScanResult}
    (h : result.status = .clean → Scanned accepts s row) :
    Goes accepts op s (.recognised context row) (.judged context row result)
  | writes {l' : Local} {context : Context} {row current : Attachment}
    {result : AttachmentScanResult} (tx : Tx) (hcurrent : current ∈ s.attachments.rows)
    (hid : current.id = row.id) (htx : tx.id = row.id) (hscan : tx.patch.scan = some result)
    (hstatus : (tx.patch.apply current).scanStatus = result.status)
    (hl' : l' = .condemned (tx.patch.apply current) tx ∨
      l' = .previewing context (tx.patch.apply current) (some tx) ∨
      l' = .presenting [tx.patch.apply current] (some tx)) :
    Goes accepts op s (.judged context row result) l'
  | keeps {l l' : Local} (hcopies : l'.copies = l.copies) (hshown : l'.shown = l.shown)
    (htx : l'.tx? = l.tx?) (hscanning : l'.scanning? = l.scanning?)
    (hno : ∀ context row, l' ≠ .recognised context row)
    (hno' : ∀ context row result, l' ≠ .judged context row result)
    (hl : ∀ rows tx, l ≠ .presenting rows tx) : Goes accepts op s l l'
  | amends {context : Context} {row : Attachment} {tx : Tx} {patch : Patch}
    {result : AttachmentPreviewResult} (hscan : patch.scan = none) (patch' : Patch)
    (hscan' : patch'.scan = tx.patch.scan) :
    Goes accepts op s (.previewed context row (some tx) result)
      (.presenting [patch.apply row] (some { tx with patch := patch' }))
  | updates {context : Context} {row current : Attachment} {result : AttachmentPreviewResult} (tx : Tx)
    (hcurrent : current ∈ s.attachments.rows)
    (hscan : tx.patch.scan = none) :
    Goes accepts op s (.previewed context row none result) (.presenting [tx.patch.apply current] (some tx))

theorem idle_stopped : Local.stopped.Idle := ⟨rfl, rfl, rfl, fun _ h => (by cases h)⟩

theorem mem_of_findAttachment (h : findAttachment context id s = some row) :
    row ∈ s.attachments.rows ∧ row.id = id := by
  obtain ⟨hfind, -⟩ := Option.filter_eq_some_iff.mp h
  exact Table.find?_eq_some_iff.mp hfind

theorem mem_of_getAttachment (h : getAttachment context id s = some row) :
    row ∈ s.attachments.rows ∧ row.id = id :=
  mem_of_findAttachment (Option.filter_eq_some_iff.mp h).1

theorem goes_start (h : getAttachment context id s = some row) :
    Goes accepts .read s (.called (.completeUpload context id)) (startCompletion context row) := by
  obtain ⟨hrow, hid⟩ := mem_of_getAttachment h
  have hshows : Goes accepts .read s (.called (.completeUpload context id)) (.presenting [row] none) :=
    .shows fun r hr => List.mem_singleton.mp hr ▸ hrow
  unfold startCompletion
  split
  · exact hshows
  · exact hshows
  · split
    · exact hshows
    · exact .previews hrow
  · next hpending => exact .starts hrow hid hpending rfl

theorem goes_inspect : Goes accepts op s (.got context row) (inspectObject context row s) := by
  unfold inspectObject
  split
  · exact .idles idle_stopped
  · split
    · exact .rejects (Or.inl rfl)
    · exact .inspects

theorem goes_signature :
    Goes accepts op s (.inspected context row) (readSignature context row s) := by
  unfold readSignature
  split
  · exact .fails (Or.inl rfl)
  · next object hobject =>
    split
    · next hmatches =>
      refine .recognises fun object' hobject' => ?_
      rw [hobject] at hobject'
      cases hobject'
      exact hmatches
    · exact .rejects (Or.inr rfl)

theorem goes_scan {engine : String} {signature : Option String} :
    Goes accepts op s (.recognised context row) (scanObject accepts context row engine signature s) := by
  unfold scanObject
  split
  · exact .fails (Or.inr (Or.inr rfl))
  · next object hobject =>
    refine .judges fun hclean object' hobject' => ?_
    rw [hobject] at hobject'
    cases hobject'
    by_contra hrefused
    rw [if_neg hrefused] at hclean
    cases hclean

theorem apply_scanStatus (patch : Patch) (row : Attachment) :
    (patch.apply row).scanStatus = (patch.scan.map AttachmentScanResult.status).getD row.scanStatus := by
  unfold Patch.apply Attachment.withPreview Attachment.withScan
  cases patch.scan <;> cases patch.preview <;> rfl

theorem goes_write {result : AttachmentScanResult} :
    Goes accepts op s (.judged context row result) (writeScan context row result now s) := by
  unfold writeScan
  split
  · exact .idles idle_stopped
  · next current hcurrent =>
    obtain ⟨hmem, hid⟩ := mem_of_findAttachment hcurrent
    let tx : Tx := { id := row.id, patch := { scan := some result, updatedAt := newDate now } }
    have hstatus : (tx.patch.apply current).scanStatus = result.status := apply_scanStatus _ _
    dsimp only
    split
    · exact .writes tx hmem hid rfl rfl hstatus (Or.inl rfl)
    · exact .writes tx hmem hid rfl rfl hstatus (Or.inr (Or.inl rfl))
    · exact .writes tx hmem hid rfl rfl hstatus (Or.inr (Or.inr rfl))

theorem goes_writePreview {tx : Option Tx} :
    Goes accepts op s (.previewed context row tx result) (writePreview context row tx result now s) := by
  unfold writePreview
  split
  · exact .amends rfl _ rfl
  · split
    · exact .idles idle_stopped
    · next current hcurrent =>
      exact .updates { id := row.id, patch := { preview := some result, updatedAt := newDate now } }
        (mem_of_findAttachment hcurrent).1 rfl

theorem goes_condemned {tx : Tx} : Goes accepts op s (.condemned row tx) (.presenting [row] (some tx)) :=
  .keeps rfl rfl rfl rfl (fun _ _ h => (by cases h)) (fun _ _ _ h => (by cases h))
    fun _ _ h => (by cases h)

theorem goes_previewing {tx : Option Tx} :
    Goes accepts op s (.previewing context row tx) (.previewed context row tx result) :=
  .keeps rfl rfl rfl rfl (fun _ _ h => (by cases h)) (fun _ _ _ h => (by cases h))
    fun _ _ h => (by cases h)

theorem goes_completeUpload (h : completeUpload accepts now op s l = some (s', l')) :
    Goes accepts op s' l l' := by
  unfold completeUpload at h
  repeat' split at h
  all_goals cases h
  · exact .idles idle_stopped
  · exact goes_start ‹_›
  · exact goes_inspect
  · exact goes_signature
  · exact .fails (Or.inl rfl)
  · exact .fails (Or.inr (Or.inl rfl))
  · exact .idles idle_stopped
  · exact goes_scan
  · exact .fails (Or.inr (Or.inr rfl))
  · exact goes_write
  · exact goes_condemned
  · exact .idles idle_stopped
  · exact goes_previewing
  · exact goes_previewing
  · exact goes_writePreview

theorem goes_erasing {tx : Option Tx} {l : Local} (hl : l = .erasing row tx ∨ l = .erased row tx) :
    Goes accepts op s l (.presenting [] tx) := by
  rcases hl with rfl | rfl
  · exact .keeps rfl rfl rfl rfl (fun _ _ h => (by cases h)) (fun _ _ _ h => (by cases h))
      fun _ _ h => (by cases h)
  · exact .keeps rfl rfl rfl rfl (fun _ _ h => (by cases h)) (fun _ _ _ h => (by cases h))
      fun _ _ h => (by cases h)

theorem goes_writeDeletion : Goes accepts op s l (writeDeletion context row now s) := by
  unfold writeDeletion
  cases findAttachment context row.id s with
  | none => exact .idles ⟨rfl, rfl, rfl, fun _ h => (by cases h)⟩
  | some current =>
    refine .idles ⟨rfl, rfl, rfl, fun tx htx => ?_⟩
    cases htx
    rfl

theorem goes_deleteAttachment (h : deleteAttachment now op s l = some (s', l')) :
    Goes accepts op s' l l' := by
  unfold deleteAttachment at h
  repeat' split at h
  all_goals cases h
  · exact .idles idle_stopped
  · exact .idles ⟨rfl, rfl, rfl, fun _ h => (by cases h)⟩
  · exact goes_writeDeletion
  · exact goes_erasing (Or.inl rfl)
  · exact .keeps rfl rfl rfl rfl (fun _ _ h => (by cases h)) (fun _ _ _ h => (by cases h))
      fun _ _ h => (by cases h)
  · exact .idles idle_stopped
  · exact goes_erasing (Or.inr rfl)
  · exact .idles idle_stopped

theorem goes_cleanup (h : cleanup now op s l = some (s', l')) : Goes accepts op s' l l' := by
  have hidle : l'.Idle := by
    unfold cleanup at h
    repeat' split at h
    all_goals cases h
    all_goals exact ⟨rfl, rfl, rfl, fun _ h => (by cases h)⟩
  exact .idles hidle

theorem goes_create {input : UploadInput} {uuid : Uuid} {folder : String}
    (h : createUpload context input id folder uuid now s = some (s', l')) :
    Goes accepts op s' l l' := by
  unfold createUpload at h
  split at h
  · obtain ⟨attachments, hinsert, heq⟩ := Option.map_eq_some_iff.mp h
    cases heq
    refine .shows fun row hrow => ?_
    show row ∈ attachments.rows
    rw [(Table.insert?_eq_some hinsert).2, List.mem_singleton.mp hrow]
    exact List.mem_append_right _ List.mem_cons_self
  · cases h

theorem goes_list {target : AttachmentTarget} :
    Goes accepts op s l (if targetExists context s target then
      .presenting (listAttachments context target s) none else .stopped) := by
  split
  · refine .shows fun row hrow => ?_
    unfold listAttachments at hrow
    rw [List.mem_mergeSort] at hrow
    exact List.mem_of_mem_filter hrow
  · exact .idles idle_stopped

/-- **Sessions**: what a step does to its own. -/
theorem proceed_goes (h : proceed accepts now op s l = some (s', l')) : Goes accepts op s' l l' := by
  unfold proceed at h
  split at h
  · cases h
    exact .idles idle_stopped
  · exact goes_create h
  · obtain ⟨t, -, heq⟩ := Option.map_eq_some_iff.mp h
    cases heq
    exact .idles idle_stopped
  · cases h
    exact goes_list
  · cases h
    exact .idles idle_stopped
  · cases h
    exact .idles idle_stopped
  · cases h
    exact .idles idle_stopped
  · rcases Option.or_eq_some_iff.mp h with h | ⟨-, h⟩
    · exact goes_completeUpload h
    · rcases Option.or_eq_some_iff.mp h with h | ⟨-, h⟩
      · exact goes_deleteAttachment h
      · exact goes_cleanup h

/-! ### What a completion is judging -/

theorem scanning_amended {patch : Patch} {tx : Tx} (h : patch.scan = tx.patch.scan) :
    (Local.presenting [row'] (some { tx with patch })).scanning? =
      (Local.previewed context row (some tx) result).scanning? := by
  have hsame : Tx.scans { tx with patch } = tx.scans := by
    unfold Tx.scans
    rw [h]
  show (Option.filter Tx.scans (some { tx with patch })).map Tx.id =
    (Option.filter Tx.scans (some tx)).map Tx.id
  rw [Option.filter_some, Option.filter_some, hsame]
  split <;> rfl

theorem scanning_of_scans {tx : Tx} (h : ((some tx).filter Tx.scans).map Tx.id = some id) :
    tx.id = id ∧ tx.scans = true := by
  obtain ⟨x, hx, rfl⟩ := Option.map_eq_some_iff.mp h
  obtain ⟨heq, hscans⟩ := Option.filter_eq_some_iff.mp hx
  cases heq
  exact ⟨rfl, hscans⟩

end CalmBoard.Attachments
