import Mathlib.Logic.Function.Basic
import CalmBoard.Schema

/-!
# CalmBoard.Attachments.Repository — attachments, their files and their rows

* `contentMatchesMimeType`: the first bytes of a file against its type.
* `Attachment`, `ObjectKey`, `Store`: the rows, the bucket and the upload URLs that are out.
* `presentAttachment`: what a client is shown.
* `Patch`: what the transactions change of a row.
* `cleanupEligible`: the rows that a clean-up claims.

Times are in microseconds, as in the database; `toDate` is what a JavaScript date keeps of one.
-/

namespace CalmBoard.Attachments

abbrev Bytes := List UInt8

/-! ### Signatures -/

def attachmentSignatureBytes : ℕ := 16

def startsWith (head bytes : Bytes) (offset : ℕ := 0) : Bool :=
  offset + bytes.length ≤ head.length && (head.drop offset).take bytes.length = bytes

def ascii (text : String) : Bytes := text.toList.map fun character => UInt8.ofNat character.toNat

def zipContainer (head : Bytes) : Bool :=
  startsWith head [0x50, 0x4b, 0x03, 0x04] || startsWith head [0x50, 0x4b, 0x05, 0x06]

def oleContainer (head : Bytes) : Bool := startsWith head [0xd0, 0xcf, 0x11, 0xe0, 0xa1, 0xb1, 0x1a, 0xe1]

def plainText (head : Bytes) : Bool := !head.isEmpty && !head.contains 0

def signatureChecks : List (String × (Bytes → Bool)) :=
  [("application/pdf", fun head => startsWith head (ascii "%PDF-")),
    ("image/png", fun head => startsWith head [0x89, 0x50, 0x4e, 0x47, 0x0d, 0x0a, 0x1a, 0x0a]),
    ("image/jpeg", fun head => startsWith head [0xff, 0xd8, 0xff]),
    ("image/gif", fun head =>
      startsWith head (ascii "GIF87a") || startsWith head (ascii "GIF89a")),
    ("image/webp", fun head =>
      startsWith head (ascii "RIFF") && startsWith head (ascii "WEBP") 8),
    ("application/zip", zipContainer),
    ("application/vnd.openxmlformats-officedocument.spreadsheetml.sheet", zipContainer),
    ("application/vnd.openxmlformats-officedocument.presentationml.presentation", zipContainer),
    ("application/vnd.openxmlformats-officedocument.wordprocessingml.document", zipContainer),
    ("application/msword", oleContainer),
    ("application/vnd.ms-excel", oleContainer),
    ("application/vnd.ms-powerpoint", oleContainer),
    ("text/plain", plainText),
    ("text/csv", plainText)]

/-- Types without a known signature pass. -/
def contentMatchesMimeType (mimeType : String) (head : Bytes) : Bool :=
  match signatureChecks.lookup mimeType.toLower with
  | some check => check head
  | none => true

/-! ### Rows -/

/-- `organizations/<organizationId>/workspaces/<workspaceId>/<year>/<month>/<uuid>-<fileName>`, with
`.preview.webp` for the preview of the file. -/
structure ObjectKey where
  organizationId : Uuid
  workspaceId : Uuid
  folder : String
  uuid : Uuid
  fileName : String
  preview : Bool := false
  deriving DecidableEq

/-- An object of the bucket. -/
structure StoredObject where
  body : Bytes
  mimeType : String

inductive ScanStatus where
  | pending | clean | infected | failed
  deriving DecidableEq

inductive PreviewStatus where
  | pending | ready | source | unsupported | failed
  deriving DecidableEq

/-- Exactly one of `task_id` and `project_id` is set. -/
inductive AttachmentTarget where
  | task (taskId : Uuid)
  | project (projectId : Uuid)
  deriving DecidableEq

/-- `attachments`; the references are keys of the bucket. -/
structure Attachment where
  id : Uuid
  organizationId : Uuid
  workspaceId : Uuid
  target : AttachmentTarget
  fileName : String
  fileSize : ℕ
  mimeType : Option String
  url : ObjectKey
  scanStatus : ScanStatus := .pending
  scanEngine : Option String := none
  scanSignature : Option String := none
  previewStatus : PreviewStatus := .pending
  previewReference : Option ObjectKey := none
  previewMimeType : Option String := none
  cleanupClaimedAt : Option ℤ := none
  cleanupAttempts : ℕ := 0
  cleanupError : Option String := none
  createdAt : ℤ
  updatedAt : ℤ
  deletedAt : Option ℤ := none

/-- A task or a project, as far as attachments look at it. -/
structure TargetRow where
  id : Uuid
  organizationId : Uuid
  workspaceId : Uuid
  deleted : Bool := false

/-- A URL that accepts one key until it expires. -/
structure UploadUrl where
  key : ObjectKey
  expiresAt : ℤ

/-- The rows, the bucket, the upload URLs that are out, the identifiers that have been generated, and
the time. -/
structure Store where
  attachments : Table Attachment Attachment.id
  tasks : Table TargetRow TargetRow.id
  projects : Table TargetRow TargetRow.id
  objects : ObjectKey → Option StoredObject
  uploads : List UploadUrl
  issued : List Uuid
  clock : ℤ

/-- Tasks and projects without attachments. -/
def Store.start (tasks projects : Table TargetRow TargetRow.id) : Store :=
  { attachments := Table.empty, tasks, projects, objects := fun _ => none, uploads := [], issued := []
    clock := 0 }

def putObject (key : ObjectKey) (object : Option StoredObject) (s : Store) : Store :=
  { s with objects := Function.update s.objects key object }

/-- The milliseconds of a time. -/
def toDate (time : ℤ) : ℤ := time / 1000

/-- `new Date()`, as a column keeps it. -/
def newDate (now : ℤ) : ℤ := toDate now * 1000

/-- `organization_id` and `workspace_id` are those of the context. -/
structure Context where
  organizationId : Uuid
  workspaceId : Uuid

/-- `requireTarget`; a deleted task or project will do. -/
def targetExists (context : Context) (s : Store) : AttachmentTarget → Bool
  | .task id => (s.tasks.find? id).any fun t =>
      t.organizationId = context.organizationId && t.workspaceId = context.workspaceId
  | .project id => (s.projects.find? id).any fun p =>
      p.organizationId = context.organizationId && p.workspaceId = context.workspaceId

/-- The task or the project of an attachment is there and not deleted. -/
def targetActive (s : Store) : AttachmentTarget → Bool
  | .task id => (s.tasks.find? id).any fun t => !t.deleted
  | .project id => (s.projects.find? id).any fun p => !p.deleted

/-- `attachmentScope` -/
def inScope (context : Context) (attachment : Attachment) : Bool :=
  attachment.organizationId = context.organizationId &&
    attachment.workspaceId = context.workspaceId && attachment.deletedAt.isNone

/-- `get` of the repository, without `requireTarget` -/
def findAttachment (context : Context) (id : Uuid) (s : Store) : Option Attachment :=
  (s.attachments.find? id).filter (inScope context)

def listAttachments (context : Context) (target : AttachmentTarget) (s : Store) : List Attachment :=
  (s.attachments.rows.filter fun a => a.target = target && inScope context a).mergeSort
    fun a b => decide (b.createdAt ≤ a.createdAt)

/-! ### Answers -/

/-- The URLs of an answer, by their keys; the URL of a preview has a type. -/
structure Presented where
  url : Option ObjectKey
  previewUrl : Option (ObjectKey × String)

def presentAttachment (attachment : Attachment) : Presented :=
  if attachment.scanStatus ≠ .clean then { url := none, previewUrl := none }
  else
    { url := some attachment.url
      previewUrl := match attachment.previewStatus, attachment.previewReference with
        | .ready, some previewReference =>
          some (previewReference, attachment.previewMimeType.getD "image/webp")
        | .source, _ =>
          some (attachment.url, attachment.mimeType.getD "application/octet-stream")
        | _, _ => none }

/-! ### Changes -/

structure AttachmentScanResult where
  status : ScanStatus
  engine : String
  signature : Option String := none

structure AttachmentPreviewResult where
  status : PreviewStatus
  storageReference : Option ObjectKey := none
  mimeType : Option String := none

/-- What a transaction has changed of a row. -/
structure Patch where
  scan : Option AttachmentScanResult := none
  preview : Option AttachmentPreviewResult := none
  deletedAt : Option ℤ := none
  updatedAt : ℤ

def Attachment.withScan (a : Attachment) : Option AttachmentScanResult → Attachment
  | none => a
  | some result =>
    { a with
      scanStatus := result.status, scanEngine := some result.engine
      scanSignature := result.signature }

def Attachment.withPreview (a : Attachment) : Option AttachmentPreviewResult → Attachment
  | none => a
  | some result =>
    { a with
      previewStatus := result.status, previewReference := result.storageReference
      previewMimeType := result.mimeType }

def Patch.apply (patch : Patch) (a : Attachment) : Attachment :=
  { (a.withScan patch.scan).withPreview patch.preview with
    deletedAt := patch.deletedAt.or a.deletedAt, updatedAt := patch.updatedAt }

@[simp] theorem Patch.apply_id (patch : Patch) (a : Attachment) : (patch.apply a).id = a.id := by
  unfold apply Attachment.withPreview Attachment.withScan
  split <;> split <;> rfl

def commitPatch (id : Uuid) (patch : Patch) (s : Store) : Store :=
  { s with
    attachments := s.attachments.update (fun a => a.id = id) patch.apply patch.apply_id }

/-! ### The clean-up -/

structure AttachmentCleanupOptions where
  pendingRetentionHours : ℕ := 2
  deletedRetentionHours : ℕ := 24
  claimTimeoutMinutes : ℕ := 30
  batchSize : ℕ := 100
  maxAttempts : ℕ := 10

structure AttachmentCleanupCandidate where
  id : Uuid
  url : ObjectKey
  previewReference : Option ObjectKey
  /-- a date, so in milliseconds -/
  claimToken : ℤ

def hours (n : ℕ) : ℤ := n * 3600000000

def minutes (n : ℕ) : ℤ := n * 60000000

/-- Why a row is up for a clean-up. -/
def orphaned (options : AttachmentCleanupOptions) (now : ℤ) (s : Store) (a : Attachment) : Bool :=
  (a.deletedAt.any fun deletedAt => deletedAt < now - hours options.deletedRetentionHours) ||
  (a.scanStatus ≠ .clean && a.updatedAt < now - hours options.pendingRetentionHours) ||
  !targetActive s a.target

def cleanupEligible (options : AttachmentCleanupOptions) (now : ℤ) (s : Store) (a : Attachment) :
    Bool :=
  a.cleanupAttempts < options.maxAttempts &&
  (a.cleanupClaimedAt.all fun claimedAt => claimedAt < now - minutes options.claimTimeoutMinutes) &&
  orphaned options now s a

/-- The rows that a claim takes, less those it finds locked. -/
def claimAttachmentCleanupBatch (options : AttachmentCleanupOptions) (now : ℤ) (skipped : List Uuid)
    (s : Store) : List Attachment :=
  ((s.attachments.rows.filter fun a =>
    cleanupEligible options now s a && !skipped.contains a.id).mergeSort
    fun a b => decide (toLex (a.updatedAt, a.id) ≤ toLex (b.updatedAt, b.id))).take options.batchSize

def Attachment.claimed (now : ℤ) (a : Attachment) : Attachment :=
  { a with
    cleanupClaimedAt := some now, cleanupAttempts := a.cleanupAttempts + 1, cleanupError := none }

@[simp] theorem Attachment.claimed_id (now : ℤ) (a : Attachment) : (a.claimed now).id = a.id := rfl

def commitCleanupClaim (ids : List Uuid) (now : ℤ) (s : Store) : Store :=
  { s with
    attachments := s.attachments.update (fun a => ids.contains a.id) (Attachment.claimed now)
      (Attachment.claimed_id now) }

def candidateOf (now : ℤ) (a : Attachment) : AttachmentCleanupCandidate :=
  { id := a.id, url := a.url, previewReference := a.previewReference, claimToken := toDate now }

/-- `where id = $1 and cleanup_claimed_at = $2` -/
def AttachmentCleanupCandidate.owns (c : AttachmentCleanupCandidate) (a : Attachment) : Bool :=
  a.id = c.id && a.cleanupClaimedAt = some (c.claimToken * 1000)

/-- The rows that `delete from attachments` leaves, where the storage counters let it. -/
def deleteCandidate (c : AttachmentCleanupCandidate) (s : Store) : Store :=
  { s with attachments := s.attachments.remove c.owns }

def Attachment.released (message : String) (a : Attachment) : Attachment :=
  { a with
    cleanupClaimedAt := none, cleanupError := some (String.ofList (message.toList.take 2000)) }

@[simp] theorem Attachment.released_id (message : String) (a : Attachment) :
    (a.released message).id = a.id := rfl

def releaseCandidate (c : AttachmentCleanupCandidate) (message : String) (s : Store) : Store :=
  { s with
    attachments := s.attachments.update c.owns (Attachment.released message)
      (Attachment.released_id message) }

end CalmBoard.Attachments
