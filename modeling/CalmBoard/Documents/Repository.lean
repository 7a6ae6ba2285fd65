import CalmBoard.Values
import CalmBoard.Lib.Table
import CalmBoard.Lib.Runs

/-!
# CalmBoard.Documents.Repository — the document tree of a workspace

One workspace of one organization; the tenant columns are the same in every row and are left out.

* `resolve`, `requireAccess`: what an actor may do with a document.
* `validateParent`: the walk up from a new parent and the height of the moved subtree.
* `validateDocumentHierarchy`: the trigger that checks both once more.
* `create`, `update`, `setPermission`, `removePermission`: the calls that write.
-/

namespace CalmBoard.Documents

inductive AccessLevel where
  | viewer | editor | manager
  deriving DecidableEq

inductive WorkspaceAccess where
  | none | viewer | editor

structure DocRow where
  id : Uuid
  projectId : Option Uuid := none
  parentId : Option Uuid := none
  title : String
  content : Option String := none
  authorId : Uuid
  icon : Option String := some "file-text"
  isPublic : Bool := false
  workspaceAccess : WorkspaceAccess := .viewer
  inheritPermissions : Bool := true
  createdAt : Timestamptz
  updatedAt : Timestamptz
  deletedAt : Option Timestamptz := none

/-- A document that is not soft-deleted. -/
def DocRow.active (d : DocRow) : Bool := d.deletedAt.isNone

/-- `document_permissions` -/
structure PermissionRow where
  docId : Uuid
  userId : Uuid
  accessLevel : AccessLevel
  grantedById : Uuid
  createdAt : Timestamptz
  updatedAt : Timestamptz
  deriving DecidableEq

/-- The tables; `members` are the users with an active membership, `projects` the project ids. -/
structure Store where
  now : Timestamptz
  uuids : ℕ → Uuid
  uuidCount : ℕ
  workspaceExists : Bool
  members : List Uuid
  projects : List Uuid
  docs : Table DocRow DocRow.id
  permissions : List PermissionRow

/-- Who calls: the actor of the tenant context and the option of the repository. -/
structure Context where
  actorId : Option Uuid
  canManageWorkspaceDocuments : Bool := false

def maxDocumentDepth : ℕ := 10

/-! ### Access -/

def accessRank : AccessLevel → ℕ
  | .viewer => 1
  | .editor => 2
  | .manager => 3

def AccessLevel.label : AccessLevel → String
  | .viewer => "viewer"
  | .editor => "editor"
  | .manager => "manager"

def WorkspaceAccess.level : WorkspaceAccess → Option AccessLevel
  | .none => Option.none
  | .viewer => some .viewer
  | .editor => some .editor

def strongestAccess (current candidate : Option AccessLevel) : Option AccessLevel :=
  match candidate, current with
  | none, _ => current
  | some candidate, none => some candidate
  | some candidate, some current =>
    if accessRank candidate > accessRank current then some candidate else some current

/-- The documents of `tenantScope`. -/
def Store.documents (s : Store) : List DocRow := s.docs.rows.filter DocRow.active

/-- `documentMap.get` -/
def Store.document? (s : Store) (id : Uuid) : Option DocRow := (s.docs.find? id).filter DocRow.active

def Store.grant? (s : Store) (userId docId : Uuid) : Option AccessLevel :=
  (s.permissions.find? fun g => g.docId = docId ∧ g.userId = userId).map PermissionRow.accessLevel

/-- A recursion that has used up its frames. -/
def stackOverflow : RepoError := .error "Maximum call stack size exceeded"

/-- What the actor has on a document by itself. -/
def ownAccess (s : Store) (context : Context) (actorId : Uuid) (document : DocRow) :
    Option AccessLevel :=
  let access :=
    if context.canManageWorkspaceDocuments ∨ document.authorId = actorId then some .manager
    else none
  let access := strongestAccess access (s.grant? actorId document.id)
  let access := strongestAccess access document.workspaceAccess.level
  if document.isPublic then strongestAccess access (some .viewer) else access

/-- `resolve` with the frames that are left.  A call follows one chain of parents, so that it never
meets an entry of its own cache. -/
def resolve (s : Store) (context : Context) (actorId : Uuid) :
    ℕ → Uuid → List Uuid → Except RepoError (Option AccessLevel)
  | 0, _, _ => throw stackOverflow
  | frames + 1, documentId, visited =>
    match s.document? documentId with
    | none => return none
    | some document =>
      if documentId ∈ visited then return none
      else
        let access := ownAccess s context actorId document
        match document.inheritPermissions, document.parentId with
        | true, some parentId => do
          let inherited ← resolve s context actorId frames parentId (documentId :: visited)
          return strongestAccess access inherited
        | _, _ => return access

def requireActor (context : Context) : Except RepoError Uuid :=
  match context.actorId with
  | some actorId => .ok actorId
  | none => .error (.denied "An authenticated actor is required for document access")

def requireWorkspace (s : Store) : Except RepoError Unit :=
  if s.workspaceExists then .ok () else .error (.notFound "workspace")

/-- Frames enough for a chain through every document. -/
def Store.frames (s : Store) : ℕ := s.documents.length + 2

def requireAccess (s : Store) (context : Context) (documentId : Uuid) (required : AccessLevel) :
    Except RepoError (DocRow × AccessLevel) := do
  let actorId ← requireActor context
  match s.document? documentId with
  | none => throw (.notFound "document")
  | some document =>
    match ← resolve s context actorId s.frames documentId [] with
    | none => throw (.denied s!"Document {required.label} access is required")
    | some accessLevel =>
      if accessRank accessLevel < accessRank required then
        throw (.denied s!"Document {required.label} access is required")
      return (document, accessLevel)

def requireProject (s : Store) (projectId : Uuid) : Except RepoError Unit :=
  if projectId ∈ s.projects then .ok () else .error (.notFound "project")

def requireActiveMember (s : Store) (userId : Uuid) : Except RepoError Unit :=
  if userId ∈ s.members then .ok () else .error (.notFound "workspace member")

/-! ### The parent -/

def cycleError : RepoError := .conflict "Document parent would create a cycle"

def nestingError : RepoError := .conflict s!"Document nesting cannot exceed {maxDocumentDepth} levels"

/-- The loop over the ancestors: `ancestorDepth` counts the documents visited before `current`. -/
def walkAncestors (s : Store) (documentId : Option Uuid) :
    ℕ → DocRow → List Uuid → ℕ → Except RepoError ℕ
  | 0, _, _, _ => throw stackOverflow
  | frames + 1, current, visited, ancestorDepth =>
    if some current.id = documentId ∨ current.id ∈ visited then throw cycleError
    else if ancestorDepth + 1 ≥ maxDocumentDepth then throw nestingError
    else
      match current.parentId.bind s.document? with
      | none => return ancestorDepth + 1
      | some next => walkAncestors s documentId frames next (current.id :: visited) (ancestorDepth + 1)

/-- `children.get(id)` -/
def Store.children (s : Store) (id : Uuid) : List Uuid :=
  (s.documents.filter fun d => d.parentId = some id).map DocRow.id

/-- `descendantDepth` with the frames that are left. -/
def descendantDepth (s : Store) : ℕ → Uuid → List Uuid → Except RepoError ℕ
  | 0, _, _ => throw stackOverflow
  | frames + 1, id, path =>
    if id ∈ path then throw (.conflict "Document hierarchy contains a cycle")
    else (s.children id).foldlM (fun deepest childId => do
      let depth ← descendantDepth s frames childId (id :: path)
      return max deepest (1 + depth)) 1

/-- The check of the moved subtree; a new document has none. -/
def checkDescendants (s : Store) (ancestorDepth : ℕ) : Option Uuid → Except RepoError Unit
  | none => .ok ()
  | some documentId => do
    let depth ← descendantDepth s s.frames documentId []
    if ancestorDepth + depth > maxDocumentDepth then throw nestingError

def validateParent (s : Store) (context : Context) (documentId : Option Uuid) :
    Option Uuid → Except RepoError Unit
  | none => .ok ()
  | some parentId => do
    let _ ← requireAccess s context parentId .editor
    match s.document? parentId with
    | none => throw (.notFound "parent document")
    | some parent =>
      let ancestorDepth ← walkAncestors s documentId maxDocumentDepth parent [] 0
      checkDescendants s ancestorDepth documentId

/-! ### The trigger `docs_validate_hierarchy` -/

/-- The rows of the recursive query `ancestors` from one row on; the row has depth
`maxDocumentDepth + 1 - left`. -/
def ancestorRows (s : Store) (newId : Uuid) : ℕ → DocRow → List Uuid → List (ℕ × Bool)
  | 0, row, path => [(maxDocumentDepth + 1, decide (row.id ∈ path ∨ row.id = newId))]
  | left + 1, row, path =>
    let cycle := decide (row.id ∈ path ∨ row.id = newId)
    (maxDocumentDepth - left, cycle) ::
      match cycle, row.parentId.bind s.document? with
      | false, some parent => ancestorRows s newId left parent (row.id :: path)
      | _, _ => []

/-- The depths of the recursive query `descendants` below a row of depth
`maxDocumentDepth + 1 - left`. -/
def descendantRows (s : Store) : ℕ → Uuid → List Uuid → List ℕ
  | 0, _, _ => []
  | left + 1, id, path =>
    ((s.children id).filter fun childId => childId ∉ path).flatMap fun childId =>
      (maxDocumentDepth + 1 - left) :: descendantRows s left childId (childId :: path)

def validateDocumentHierarchy (s : Store) (new : DocRow) : Except RepoError Unit :=
  match new.parentId with
  | none => .ok ()
  | some parentId =>
    match s.document? parentId with
    | none => throw (.database "document parent must belong to the same active workspace")
    | some parent => do
      let ancestors := ancestorRows s new.id maxDocumentDepth parent []
      if ancestors.any Prod.snd then throw (.database "document parent would create a cycle")
      let ancestorDepth := (ancestors.map Prod.fst).foldl max 0
      let descendantDepth := (descendantRows s maxDocumentDepth new.id [new.id]).foldl max 1
      if ancestorDepth + descendantDepth > maxDocumentDepth then
        throw (.database "document nesting cannot exceed 10 levels")

/-- `docs_parent_not_self_check` -/
def parentNotSelf (row : DocRow) : Except RepoError Unit :=
  if row.parentId = some row.id then throw (.database "docs_parent_not_self_check")
  else .ok ()

/-! ### Writing documents -/

structure CreateDocumentInput where
  id : Option Uuid := none
  projectId : Option Uuid := none
  parentId : Option Uuid := none
  title : String
  content : Option String := none
  icon : Option (Option String) := none
  isPublic : Option Bool := none
  workspaceAccess : Option WorkspaceAccess := none
  inheritPermissions : Option Bool := none
  createdAt : Option JsDate := none
  updatedAt : Option JsDate := none
  deletedAt : Option JsDate := none

structure UpdateDocumentInput where
  title : Option String := none
  content : Option (Option String) := none
  icon : Option (Option String) := none
  projectId : Option (Option Uuid) := none
  parentId : Option (Option Uuid) := none
  isPublic : Option Bool := none
  workspaceAccess : Option WorkspaceAccess := none
  inheritPermissions : Option Bool := none

/-- The inserted values; a missing one takes its column default. -/
def createRow (s : Store) (authorId : Uuid) (input : CreateDocumentInput) :
    Except RepoError DocRow := do
  return {
    id := input.id.getD (s.uuids s.uuidCount)
    projectId := input.projectId
    parentId := input.parentId
    title := ← varcharColumn 500 input.title
    content := input.content
    authorId := authorId
    icon := ← (input.icon.getD (some "file-text")).mapM (varcharColumn 50)
    isPublic := input.isPublic.getD false
    workspaceAccess := input.workspaceAccess.getD .viewer
    inheritPermissions := input.inheritPermissions.getD true
    createdAt := (← input.createdAt.mapM timestamp).getD s.now
    updatedAt := (← input.updatedAt.mapM timestamp).getD s.now
    deletedAt := ← input.deletedAt.mapM timestamp }

def insertDocument (s : Store) (row : DocRow) : Except RepoError Store := do
  validateDocumentHierarchy s row
  parentNotSelf row
  match s.docs.insert? row with
  | none => throw (.database "docs_pkey")
  | some docs => return { s with docs, uuidCount := s.uuidCount + 1 }

def create (s : Store) (context : Context) (input : CreateDocumentInput) :
    Except RepoError (Store × DocRow × AccessLevel) := do
  let actorId ← requireActor context
  requireWorkspace s
  input.projectId.forM (requireProject s)
  validateParent s context none input.parentId
  let row ← createRow s actorId input
  let s' ← insertDocument s row
  return (s', row, .manager)

/-- The fields whose change needs `manager` access. -/
def UpdateDocumentInput.managerFields (input : UpdateDocumentInput) : Bool :=
  input.parentId.isSome || input.isPublic.isSome || input.workspaceAccess.isSome ||
    input.inheritPermissions.isSome

/-- The row after the columns of the input are set. -/
def updateRow (s : Store) (document : DocRow) (input : UpdateDocumentInput) :
    Except RepoError DocRow := do
  return { document with
    title := ← (input.title.mapM (varcharColumn 500)).map (Option.getD · document.title)
    content := input.content.getD document.content
    icon := ← (input.icon.getD document.icon).mapM (varcharColumn 50)
    projectId := input.projectId.getD document.projectId
    parentId := input.parentId.getD document.parentId
    isPublic := input.isPublic.getD document.isPublic
    workspaceAccess := input.workspaceAccess.getD document.workspaceAccess
    inheritPermissions := input.inheritPermissions.getD document.inheritPermissions
    updatedAt := .ofMillis s.now.millis }

/-- The update statement; the trigger fires when `parent_id` is among the columns that are set. -/
def updateDocument (s : Store) (row : DocRow) (setsParent : Bool) : Except RepoError Store := do
  (if setsParent then validateDocumentHierarchy s row else .ok ())
  parentNotSelf row
  return { s with docs := s.docs.put row }

def update (s : Store) (context : Context) (documentId : Uuid) (input : UpdateDocumentInput) :
    Except RepoError (Store × DocRow × AccessLevel) := do
  let requiredAccess := if input.managerFields then AccessLevel.manager else .editor
  let (document, accessLevel) ← requireAccess s context documentId requiredAccess
  input.projectId.join.forM (requireProject s)
  input.parentId.forM (validateParent s context (some documentId))
  let row ← updateRow s document input
  let s' ← updateDocument s row input.parentId.isSome
  return (s', row, accessLevel)

/-! ### Writing permissions -/

/-- `onConflictDoUpdate` on document and user. -/
def upsertPermission (permissions : List PermissionRow) (row : PermissionRow) : List PermissionRow :=
  if permissions.any fun g => g.docId = row.docId ∧ g.userId = row.userId then
    permissions.map fun g =>
      if g.docId = row.docId ∧ g.userId = row.userId then
        { g with
          accessLevel := row.accessLevel, grantedById := row.grantedById, updatedAt := row.updatedAt }
      else g
  else permissions ++ [{ row with updatedAt := row.createdAt }]

def setPermission (s : Store) (context : Context) (documentId userId : Uuid)
    (accessLevel : AccessLevel) : Except RepoError Store := do
  let actorId ← requireActor context
  let (document, _) ← requireAccess s context documentId .manager
  if userId = actorId then throw (.conflict "Document managers cannot change their own access")
  if userId = document.authorId then
    throw (.conflict "The document author already has manager access")
  requireActiveMember s userId
  return { s with
    permissions := upsertPermission s.permissions
      { docId := documentId, userId, accessLevel, grantedById := actorId, createdAt := s.now,
        updatedAt := .ofMillis s.now.millis } }

def removePermission (s : Store) (context : Context) (documentId userId : Uuid) :
    Except RepoError Store := do
  let _ ← requireAccess s context documentId .manager
  return { s with
    permissions := s.permissions.filter fun g => ¬(g.docId = documentId ∧ g.userId = userId) }

/-! ### Requests -/

/-- The calls that write, and what changes elsewhere between them: time passes, ids are used up,
members and projects come and go. -/
inductive Request where
  | elsewhere (micros uuids : ℕ) (workspaceExists : Bool) (members projects : List Uuid)
  | create (context : Context) (input : CreateDocumentInput)
  | update (context : Context) (documentId : Uuid) (input : UpdateDocumentInput)
  | setPermission (context : Context) (documentId userId : Uuid) (accessLevel : AccessLevel)
  | removePermission (context : Context) (documentId userId : Uuid)

def step (request : Request) (s : Store) : Except RepoError Store :=
  match request with
  | .elsewhere micros uuids workspaceExists members projects => .ok
    { s with
      now := ⟨s.now.micros + micros⟩, uuidCount := s.uuidCount + uuids, workspaceExists, members
      projects }
  | .create context input => Prod.fst <$> create s context input
  | .update context documentId input => Prod.fst <$> update s context documentId input
  | .setPermission context documentId userId accessLevel =>
    setPermission s context documentId userId accessLevel
  | .removePermission context documentId userId => removePermission s context documentId userId

/-- A workspace before its first document. -/
def initial (now : Timestamptz) (uuids : ℕ → Uuid) : Store where
  now := now
  uuids := uuids
  uuidCount := 0
  workspaceExists := true
  members := []
  projects := []
  docs := .empty
  permissions := []

/-- The workspace after a sequence of requests. -/
def after (now : Timestamptz) (uuids : ℕ → Uuid) (requests : List Request) : Store :=
  Runs.run step (initial now uuids) requests

end CalmBoard.Documents
