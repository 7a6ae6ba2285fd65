import CalmBoard.Attachments.Repository
import CalmBoard.Lib.Sessions

/-!
# CalmBoard.Attachments.Service — uploads, completions and clean-ups, step by step

* `completeUpload`: the steps of a completion, each one a statement or an operation of the bucket.
* `cleanup`: those of a clean-up.
* `move`: all calls; a transaction has its changes in its local state until it commits, with the row
  locked.
-/

namespace CalmBoard.Attachments

open Sessions

/-- What a client asks an upload for. -/
structure UploadInput where
  target : AttachmentTarget
  fileName : String
  fileSize : ℕ
  mimeType : String

inductive Call where
  | createUpload (context : Context) (input : UploadInput)
  | put (key : ObjectKey) (object : StoredObject)
  | completeUpload (context : Context) (id : Uuid)
  | list (context : Context) (target : AttachmentTarget)
  | delete (context : Context) (id : Uuid)
  | cleanup (options : AttachmentCleanupOptions)
  | deleteTask (id : Uuid)
  | deleteProject (id : Uuid)

/-- A change that is not committed. -/
structure Tx where
  id : Uuid
  patch : Patch

inductive Local where
  | called (call : Call)
  /-- a pending row has been read -/
  | got (context : Context) (row : Attachment)
  /-- the file has the size and the type of the row -/
  | inspected (context : Context) (row : Attachment)
  /-- and its first bytes are those of the type -/
  | recognised (context : Context) (row : Attachment)
  /-- the file is refused, and is deleted next -/
  | rejected (context : Context) (row : Attachment) (engine : String)
  | judged (context : Context) (row : Attachment) (result : AttachmentScanResult)
  /-- infected; the file is deleted next -/
  | condemned (row : Attachment) (tx : Tx)
  /-- a clean file may have a preview -/
  | previewing (context : Context) (row : Attachment) (tx : Option Tx)
  | previewed (context : Context) (row : Attachment) (tx : Option Tx)
    (result : AttachmentPreviewResult)
  /-- the answer is made, and the transaction commits -/
  | presenting (rows : List Attachment) (tx : Option Tx)
  | deletable (context : Context) (row : Attachment)
  | erasing (row : Attachment) (tx : Option Tx)
  | erased (row : Attachment) (tx : Option Tx)
  | claiming (now : ℤ) (candidates : List AttachmentCleanupCandidate)
  | cleaning (rest : List AttachmentCleanupCandidate)
  /-- the file has been deleted -/
  | fileDeleted (c : AttachmentCleanupCandidate) (rest : List AttachmentCleanupCandidate)
  | cleaned (c : AttachmentCleanupCandidate) (rest : List AttachmentCleanupCandidate)
  | finishing (c : AttachmentCleanupCandidate) (rest : List AttachmentCleanupCandidate)
  | cleanupFailed (c : AttachmentCleanupCandidate) (message : String)
    (rest : List AttachmentCleanupCandidate)
  | releasing (c : AttachmentCleanupCandidate) (message : String)
    (rest : List AttachmentCleanupCandidate)
  | stopped

def txLocks (tx : Option Tx) : List Uuid := tx.toList.map Tx.id

/-- The rows that a session has locked. -/
def Local.locks : Local → List Uuid
  | .condemned _ tx => [tx.id]
  | .previewing _ _ tx | .previewed _ _ tx _ | .presenting _ tx | .erasing _ tx | .erased _ tx =>
    txLocks tx
  | .claiming _ candidates => candidates.map AttachmentCleanupCandidate.id
  | .finishing c _ | .releasing c _ _ => [c.id]
  | _ => []

/-- The next step, with what the environment decides.  `error` is that of an operation of the bucket
that has had its effect all the same. -/
inductive Op where
  | create (id : Uuid) (folder : String) (uuid : Uuid)
  | put
  | read
  /-- the next operation of the bucket that reads -/
  | inspect
  | scan (engine : String) (signature : Option String)
  | preview (data : Option Bytes)
  | erase (error : Option String)
  | write
  | lock
  | claim (skipped : List Uuid)
  | commit
  | fail (message : String)
  | crash

/-- A step and the time it is made at. -/
structure Action where
  now : ℤ
  op : Op

/-! ### Uploads -/

def uploadExpiresInSeconds : ℤ := 15 * 60

def newKey (context : Context) (input : UploadInput) (folder : String) (uuid : Uuid) : ObjectKey :=
  { organizationId := context.organizationId, workspaceId := context.workspaceId, folder, uuid
    fileName := input.fileName }

def newAttachment (context : Context) (input : UploadInput) (id : Uuid) (key : ObjectKey) (now : ℤ) :
    Attachment :=
  { id, organizationId := context.organizationId, workspaceId := context.workspaceId
    target := input.target, fileName := input.fileName, fileSize := input.fileSize
    mimeType := some input.mimeType, url := key, createdAt := now, updatedAt := now }

/-- `createUpload`; identifiers are generated once. -/
def createUpload (context : Context) (input : UploadInput) (id : Uuid) (folder : String)
    (uuid : Uuid) (now : ℤ) (s : Store) : Option (Store × Local) :=
  if targetExists context s input.target && !s.issued.contains id && !s.issued.contains uuid &&
      id ≠ uuid then
    let key := newKey context input folder uuid
    let row := newAttachment context input id key now
    (s.attachments.insert? row).map fun attachments =>
      ({ s with
          attachments
          uploads := s.uploads ++ [{ key, expiresAt := now + uploadExpiresInSeconds * 1000000 }]
          issued := s.issued ++ [id, uuid] },
        .presenting [row] none)
  else none

/-- The bucket accepts a file while a URL for its key is valid. -/
def putUpload (key : ObjectKey) (object : StoredObject) (now : ℤ) (s : Store) : Option Store :=
  if s.uploads.any fun u => u.key = key && now ≤ u.expiresAt then
    some (putObject key (some object) s)
  else none

/-! ### Completions -/

def Attachment.type (row : Attachment) : String := row.mimeType.getD "application/octet-stream"

/-- A row that `get` has returned; `none` is `TenantResourceNotFoundError`. -/
def getAttachment (context : Context) (id : Uuid) (s : Store) : Option Attachment :=
  (findAttachment context id s).filter fun row => targetExists context s row.target

def startCompletion (context : Context) (row : Attachment) : Local :=
  match row.scanStatus with
  | .infected | .failed => .presenting [row] none
  | .clean =>
    if row.previewStatus ≠ .pending ∧ row.previewStatus ≠ .failed then .presenting [row] none
    else .previewing context row none
  | .pending => .got context row

/-- `inspectObject` -/
def inspectObject (context : Context) (row : Attachment) (s : Store) : Local :=
  match s.objects row.url with
  | none => .stopped
  | some object =>
    if object.body.length ≠ row.fileSize ∨
        some object.mimeType.toLower ≠ row.mimeType.map String.toLower then
      .rejected context row "object-metadata"
    else .inspected context row

def failedScan (engine : String) : AttachmentScanResult := { status := .failed, engine }

/-- `readObjectHead` and `contentMatchesMimeType` -/
def readSignature (context : Context) (row : Attachment) (s : Store) : Local :=
  match s.objects row.url with
  | none => .judged context row (failedScan "content-signature-unavailable")
  | some object =>
    if contentMatchesMimeType row.type (object.body.take attachmentSignatureBytes) then
      .recognised context row
    else .rejected context row "content-signature"

/-- The scanner reads the file; `accepts` is its judgement. -/
def scanObject (accepts : Bytes → Bool) (context : Context) (row : Attachment) (engine : String)
    (signature : Option String) (s : Store) : Local :=
  match s.objects row.url with
  | none => .judged context row (failedScan "scanner-unavailable")
  | some object =>
    .judged context row
      { status := if accepts object.body then .clean else .infected, engine, signature }

/-- `setScanResult`, and where the completion goes on -/
def writeScan (context : Context) (row : Attachment) (result : AttachmentScanResult) (now : ℤ)
    (s : Store) : Local :=
  match findAttachment context row.id s with
  | none => .stopped
  | some current =>
    let patch : Patch := { scan := some result, updatedAt := newDate now }
    let tx : Tx := { id := row.id, patch }
    match result.status with
    | .infected => .condemned (patch.apply current) tx
    | .clean => .previewing context (patch.apply current) (some tx)
    | _ => .presenting [patch.apply current] (some tx)

def imageMimeTypes : List String := ["image/gif", "image/jpeg", "image/png", "image/webp"]

def sourcePreviewMimeTypes : List String := ["application/pdf", "text/csv", "text/plain"]

def failedPreview : AttachmentPreviewResult := { status := .failed }

/-- `createAttachmentPreview`; `data` is the preview of an image, `none` where none can be made. -/
def createAttachmentPreview (row : Attachment) (data : Option Bytes) (s : Store) :
    Store × AttachmentPreviewResult :=
  if row.type ∈ sourcePreviewMimeTypes then (s, { status := .source, mimeType := some row.type })
  else if row.type ∉ imageMimeTypes then (s, { status := .unsupported })
  else
    match s.objects row.url, data with
    | some _, some data =>
      let previewKey := { row.url with preview := true }
      (putObject previewKey (some { body := data, mimeType := "image/webp" }) s,
        { status := .ready, storageReference := some previewKey, mimeType := some "image/webp" })
    | _, _ => (s, failedPreview)

/-- `setPreviewResult` -/
def writePreview (context : Context) (row : Attachment) (tx : Option Tx)
    (result : AttachmentPreviewResult) (now : ℤ) (s : Store) : Local :=
  match tx with
  | some tx =>
    let patch : Patch := { tx.patch with preview := some result, updatedAt := newDate now }
    .presenting [Patch.apply { preview := some result, updatedAt := newDate now } row]
      (some { tx with patch })
  | none =>
    match findAttachment context row.id s with
    | none => .stopped
    | some current =>
      let patch : Patch := { preview := some result, updatedAt := newDate now }
      .presenting [patch.apply current] (some { id := row.id, patch })

def completeUpload (accepts : Bytes → Bool) (now : ℤ) (op : Op) (s : Store) :
    Local → Option (Store × Local)
  | .called (.completeUpload context id) =>
    match op, getAttachment context id s with
    | .read, none => some (s, .stopped)
    | .read, some row => some (s, startCompletion context row)
    | _, _ => none
  | .got context row =>
    match op with
    | .inspect => some (s, inspectObject context row s)
    | _ => none
  | .inspected context row =>
    match op with
    | .inspect => some (s, readSignature context row s)
    | .fail _ => some (s, .judged context row (failedScan "content-signature-unavailable"))
    | _ => none
  | .rejected context row engine =>
    match op with
    | .erase none => some (putObject row.url none s, .judged context row (failedScan engine))
    | .erase (some _) => some (putObject row.url none s, .stopped)
    | _ => none
  | .recognised context row =>
    match op with
    | .scan engine signature => some (s, scanObject accepts context row engine signature s)
    | .fail _ => some (s, .judged context row (failedScan "scanner-unavailable"))
    | _ => none
  | .judged context row result =>
    match op with
    | .write => some (s, writeScan context row result now s)
    | _ => none
  | .condemned row tx =>
    match op with
    | .erase none => some (putObject row.url none s, .presenting [row] (some tx))
    | .erase (some _) => some (putObject row.url none s, .stopped)
    | _ => none
  | .previewing context row tx =>
    match op with
    | .preview data =>
      let made := createAttachmentPreview row data s
      some (made.1, .previewed context row tx made.2)
    | .fail _ => some (s, .previewed context row tx failedPreview)
    | _ => none
  | .previewed context row tx result =>
    match op with
    | .write => some (s, writePreview context row tx result now s)
    | _ => none
  | _ => none

/-! ### Deletions and clean-ups -/

/-- `deletedAt` is set, where the row is still in scope. -/
def writeDeletion (context : Context) (row : Attachment) (now : ℤ) (s : Store) : Local :=
  .erasing row ((findAttachment context row.id s).map fun _ =>
    { id := row.id, patch := { deletedAt := some (newDate now), updatedAt := newDate now } })

def deleteAttachment (now : ℤ) (op : Op) (s : Store) : Local → Option (Store × Local)
  | .called (.delete context id) =>
    match op, getAttachment context id s with
    | .read, none => some (s, .stopped)
    | .read, some row => some (s, .deletable context row)
    | _, _ => none
  | .deletable context row =>
    match op with
    | .write => some (s, writeDeletion context row now s)
    | _ => none
  | .erasing row tx =>
    match op, row.previewReference with
    | .erase none, none => some (putObject row.url none s, .presenting [] tx)
    | .erase none, some _ => some (putObject row.url none s, .erased row tx)
    | .erase (some _), _ => some (putObject row.url none s, .stopped)
    | _, _ => none
  | .erased row tx =>
    match op, row.previewReference with
    | .erase none, some key => some (putObject key none s, .presenting [] tx)
    | .erase (some _), some key => some (putObject key none s, .stopped)
    | _, _ => none
  | _ => none

def cleanup (now : ℤ) (op : Op) (s : Store) : Local → Option (Store × Local)
  | .called (.cleanup options) =>
    match op with
    | .claim skipped =>
      some (s, .claiming now
        ((claimAttachmentCleanupBatch options now skipped s).map (candidateOf now)))
    | _ => none
  | .claiming claimedAt candidates =>
    match op with
    | .commit =>
      some (commitCleanupClaim (candidates.map AttachmentCleanupCandidate.id) claimedAt s,
        .cleaning candidates)
    | _ => none
  | .cleaning (c :: rest) =>
    match op, c.previewReference with
    | .erase none, none => some (putObject c.url none s, .cleaned c rest)
    | .erase none, some _ => some (putObject c.url none s, .fileDeleted c rest)
    | .erase (some message), _ => some (putObject c.url none s, .cleanupFailed c message rest)
    | .fail message, _ => some (s, .cleanupFailed c message rest)
    | _, _ => none
  | .fileDeleted c rest =>
    match op, c.previewReference with
    | .erase none, some key => some (putObject key none s, .cleaned c rest)
    | .erase (some message), some key => some (putObject key none s, .cleanupFailed c message rest)
    | .fail message, _ => some (s, .cleanupFailed c message rest)
    | _, _ => none
  | .cleaned c rest =>
    match op with
    | .lock => some (s, .finishing c rest)
    -- the storage counters may refuse the deletion of the row
    | .fail message => some (s, .cleanupFailed c message rest)
    | _ => none
  | .finishing c rest =>
    match op with
    | .commit => some (deleteCandidate c s, .cleaning rest)
    | _ => none
  | .cleanupFailed c message rest =>
    match op with
    | .lock => some (s, .releasing c message rest)
    | _ => none
  | .releasing c message rest =>
    match op with
    | .commit => some (releaseCandidate c message s, .cleaning rest)
    | _ => none
  | _ => none

def TargetRow.softDeleted (t : TargetRow) : TargetRow := { t with deleted := true }

@[simp] theorem TargetRow.softDeleted_id (t : TargetRow) : t.softDeleted.id = t.id := rfl

def deleteTask (id : Uuid) (s : Store) : Store :=
  { s with tasks := s.tasks.update (fun t => t.id = id) TargetRow.softDeleted TargetRow.softDeleted_id }

def deleteProject (id : Uuid) (s : Store) : Store :=
  { s with
    projects := s.projects.update (fun p => p.id = id) TargetRow.softDeleted
      TargetRow.softDeleted_id }

/-! ### All calls -/

/-- Whatever was changed, if anything, is in the store. -/
def commitTx (tx : Option Tx) (s : Store) : Store :=
  match tx with
  | none => s
  | some tx => commitPatch tx.id tx.patch s

def proceed (accepts : Bytes → Bool) (now : ℤ) (op : Op) (s : Store) (l : Local) :
    Option (Store × Local) :=
  match l, op with
  | _, .crash => some (s, .stopped)
  | .called (.createUpload context input), .create id folder uuid =>
    createUpload context input id folder uuid now s
  | .called (.put key object), .put => (putUpload key object now s).map fun s' => (s', .stopped)
  | .called (.list context target), .read =>
    some (s, if targetExists context s target then
      .presenting (listAttachments context target s) none else .stopped)
  | .called (.deleteTask id), .commit => some (deleteTask id s, .stopped)
  | .called (.deleteProject id), .commit => some (deleteProject id s, .stopped)
  | .presenting _ tx, .commit => some (commitTx tx s, .stopped)
  | l, op =>
    (completeUpload accepts now op s l).or
      ((deleteAttachment now op s l).or (cleanup now op s l))

/-- Time does not go back. -/
def move (accepts : Bytes → Bool) (a : Action) (s : Store) (l : Local) : Option (Store × Local) :=
  if a.now < s.clock then none else proceed accepts a.now a.op { s with clock := a.now } l

def program (accepts : Bytes → Bool) : Program Call Store Local Uuid Action where
  start := .called
  locks := Local.locks
  conflict id id' := id = id'
  move := move accepts
  conflict_symm _ _ := by simp [eq_comm]
  start_locks _ := rfl

end CalmBoard.Attachments
