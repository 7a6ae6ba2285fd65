import CalmBoard.Lib.Table
import CalmBoard.Lib.Requests
import CalmBoard.Idempotency.Request

/-!
# CalmBoard.Integrations.Credentials — the OAuth credential of an integration

The credentials of one workspace and provider under the key `default`, as OAuth completions, token
refreshes, uses and disconnects read and write them side by side.

* `statement`: `complete`, `accessToken`, `getForUse` and `disconnect`, statement by statement.
* `leads`: what a statement leads to; `Nexts` within a transaction, `Commits` and `Point.Ends` at its
  end.
-/

namespace CalmBoard.Credentials

open Requests

inductive AuthType where
  | oauth2 | apiKey | bearer | basic | webhookSecret
  deriving DecidableEq

inductive CredentialStatus where
  | active | expired | error | revoked
  deriving DecidableEq

/-- What `encrypted_payload` holds. -/
structure Secrets where
  accessToken : String
  refreshToken : Option String := none

/-- `integration_credentials`; times are in milliseconds. -/
structure CredentialRow where
  id : Uuid
  authType : AuthType := .oauth2
  displayName : String
  secrets : Secrets
  externalAccountId : Option String := none
  scopes : List String := []
  metadata : String := "\x7b\x7d"
  status : CredentialStatus := .active
  expiresAt : Option ℤ := none
  lastUsedAt : Option ℤ := none
  lastRotatedAt : ℤ := 0
  revokedAt : Option ℤ := none
  /-- not a column: the time for which the row has been marked as expired -/
  markedFor : Option ℤ := none

/-- Not revoked: in the partial unique index of the key. -/
def CredentialRow.isLive (r : CredentialRow) : Bool := r.revokedAt.isNone

def CredentialRow.isExpired (r : CredentialRow) (now : ℤ) : Bool := r.expiresAt.any (· ≤ now)

/-- The table, and what has been decided: the number of disconnects, and whether a completion begun
since the last of them has saved a credential. -/
structure Store where
  credentials : Table CredentialRow CredentialRow.id := Table.empty
  disconnects : ℕ := 0
  renewed : Bool := false

/-! ### Calls -/

/-- A call; what is `enclosed` runs in one transaction with the request it belongs to. -/
inductive Call where
  | complete
  | accessToken (enclosed : Bool)
  | getForUse (enclosed : Bool)
  | disconnect

/-- `SaveIntegrationCredentialInput` -/
structure SaveInput where
  authType : AuthType := .oauth2
  displayName : String
  secrets : Secrets
  externalAccountId : Option String := none
  scopes : List String := []
  metadata : String := "\x7b\x7d"
  expiresAt : Option ℤ := none

inductive Origin where
  | completion
  | refresh (enclosed : Bool)
  deriving DecidableEq

/-- A call that saves; `begun` is the number of disconnects when it began. -/
structure Saving where
  input : SaveInput
  origin : Origin
  begun : ℕ

/-- What a provider answers: a token, and with a code the account it is for. -/
structure Grant where
  accessToken : String := ""
  refreshToken : Option String := none
  scopes : List String := []
  expiresAt : Option ℤ := none
  displayName : String := ""
  externalAccountId : String := ""
  metadata : String := "\x7b\x7d"

/-- What a statement takes from outside: the time, the start of the transaction by the clock of the
database, what it finds in other tables, a new id, and what a provider answers. -/
structure Input where
  now : ℤ := 0
  dbNow : ℤ := 0
  stateOpen : Bool := true
  workspace : Bool := true
  membership : Bool := true
  id : Uuid := 0
  grant : Grant := {}

inductive Failure where
  | badRequest (message : String)
  | repository (e : RepoError)

inductive Reply where
  | saved (id : Uuid)
  | used (accessToken : String)
  | disconnected (id : Uuid)

abbrev Answer : Type := Except Failure Reply

/-- The statement that comes next. -/
inductive Point where
  | consumeState
  | exchangeCode (begun : ℕ)
  | getOAuthForRefresh (enclosed : Bool)
  | refreshAccessToken (enclosed : Bool) (current : CredentialRow) (refreshToken : String) (begun : ℕ)
  | selectExisting (x : Saving)
  | updateExisting (x : Saving) (existing : CredentialRow)
  | insertNew (x : Saving)
  | saved (x : Saving) (id : Uuid)
  | selectForUse (enclosed : Bool)
  | markExpired (enclosed : Bool) (id : Uuid) (now : ℤ)
  | markedExpired (enclosed : Bool)
  | touch (row : CredentialRow)
  | used (row : CredentialRow)
  | getForRevocation
  | revoke (id : Uuid)
  | revoked (id : Uuid)

/-- A lock of a row, or of the entry of the live row in the unique index of the key. -/
inductive Lock where
  | row (id : Uuid)
  | active
  deriving DecidableEq

inductive Write where
  | insert (id : Uuid) (rotatedAt : ℤ) (x : Saving)
  | update (id : Uuid) (rotatedAt : ℤ) (x : Saving)
  | markExpired (id : Uuid) (now : ℤ)
  | touch (id : Uuid) (now : ℤ)
  | revoke (id : Uuid) (now : ℤ)

def byCodeUnits (a b : String) : Bool :=
  decide (a.toList.map Idempotency.utf16Rank ≤ b.toList.map Idempotency.utf16Rank)

/-- The columns that a save sets. -/
def CredentialRow.save (rotatedAt : ℤ) (x : SaveInput) (r : CredentialRow) : CredentialRow :=
  { r with
    displayName := Text.trim x.displayName, secrets := x.secrets
    externalAccountId := x.externalAccountId, scopes := x.scopes.dedup.mergeSort byCodeUnits
    metadata := x.metadata, status := .active, expiresAt := x.expiresAt, lastRotatedAt := rotatedAt
    markedFor := none }

def CredentialRow.markExpired (now : ℤ) (r : CredentialRow) : CredentialRow :=
  { r with status := .expired, markedFor := some now }

def CredentialRow.touch (now : ℤ) (r : CredentialRow) : CredentialRow :=
  { r with lastUsedAt := some now }

def CredentialRow.revoke (now : ℤ) (r : CredentialRow) : CredentialRow :=
  { r with status := .revoked, revokedAt := some now }

@[simp] theorem CredentialRow.save_id (rotatedAt : ℤ) (x : SaveInput) (r : CredentialRow) :
    (r.save rotatedAt x).id = r.id := rfl

@[simp] theorem CredentialRow.markExpired_id (now : ℤ) (r : CredentialRow) :
    (r.markExpired now).id = r.id := rfl

@[simp] theorem CredentialRow.touch_id (now : ℤ) (r : CredentialRow) : (r.touch now).id = r.id := rfl

@[simp] theorem CredentialRow.revoke_id (now : ℤ) (r : CredentialRow) : (r.revoke now).id = r.id := rfl

@[simp] theorem CredentialRow.save_status (rotatedAt : ℤ) (x : SaveInput) (r : CredentialRow) :
    (r.save rotatedAt x).status = .active := rfl

@[simp] theorem CredentialRow.markExpired_status (now : ℤ) (r : CredentialRow) :
    (r.markExpired now).status = .expired := rfl

def SaveInput.row (id : Uuid) (rotatedAt : ℤ) (x : SaveInput) : CredentialRow :=
  CredentialRow.save rotatedAt x
    { id, authType := x.authType, displayName := x.displayName, secrets := x.secrets }

/-- An OAuth completion that was begun after every disconnect. -/
def Saving.isRenewal (x : Saving) (s : Store) : Bool :=
  x.origin = .completion && x.begun = s.disconnects

def Store.setCredential (s : Store) (id : Uuid) (f : CredentialRow → CredentialRow)
    (hf : ∀ r, (f r).id = r.id) : Store :=
  { s with credentials := s.credentials.update (fun r => r.id = id) f hf }

def Write.apply : Write → Store → Store
  | .insert id rotatedAt x, s =>
    { s with
      credentials := (s.credentials.insert? (x.input.row id rotatedAt)).getD s.credentials
      renewed := s.renewed || x.isRenewal s }
  | .update id rotatedAt x, s =>
    { s.setCredential id (CredentialRow.save rotatedAt x.input) (CredentialRow.save_id _ _) with
      renewed := s.renewed || x.isRenewal s }
  | .markExpired id now, s =>
    s.setCredential id (CredentialRow.markExpired now) (CredentialRow.markExpired_id now)
  | .touch id now, s => s.setCredential id (CredentialRow.touch now) (CredentialRow.touch_id now)
  | .revoke id now, s =>
    { s.setCredential id (CredentialRow.revoke now) (CredentialRow.revoke_id now) with
      disconnects := s.disconnects + 1, renewed := false }

/-! ### Statements -/

def REFRESH_SKEW_MILLISECONDS : ℤ := 60000

/-- `requireWorkspace`, `requireMembership` -/
def Input.refusal (i : Input) : Option Failure :=
  if !i.workspace then some (.repository (.notFound "workspace"))
  else if !i.membership then
    some (.repository (.denied "permission denied in the current tenant"))
  else none

def failed (e : RepoError) : Outcome Point Lock Write Answer := .fail (.error (.repository e))

/-- The select after `requireWorkspace` and `requireMembership`. -/
def Input.select (i : Input) (o : Outcome Point Lock Write Answer) : Outcome Point Lock Write Answer :=
  match i.refusal with
  | some e => .fail (.error e)
  | none => o

/-- What `save` checks before its transaction. -/
def Input.save (i : Input) (x : Saving) : Outcome Point Lock Write Answer :=
  i.select <|
    if Text.trim x.input.displayName = "" ∨ 160 < Text.utf16Length (Text.trim x.input.displayName) then
      failed (.conflict "displayName is invalid")
    else if x.input.expiresAt.any (· ≤ i.now) then
      failed (.conflict "expiresAt must be in the future")
    else .next (.selectExisting x) [] []

def Store.live (s : Store) : Option CredentialRow := s.credentials.rows.find? CredentialRow.isLive

/-- The row that `getOAuthForRefresh` reads. -/
def Store.forRefresh (s : Store) : Option CredentialRow :=
  (s.credentials.rows.find? fun r => (r.status = .active || r.status = .expired) && r.isLive).filter
    fun r => r.authType = .oauth2

/-- The row that `getForUse` reads. -/
def Store.forUse (s : Store) : Option CredentialRow :=
  s.credentials.rows.find? fun r => r.status = .active && r.isLive

/-- `validate_integration_credential_tenant` raises for a row that is active and expired. -/
def refusesExpiry (expiresAt : Option ℤ) (dbNow : ℤ) : Bool := expiresAt.any (· ≤ dbNow)

/-- One statement of a call. -/
def statement (i : Input) (p : Point) (s : Store) : Outcome Point Lock Write Answer :=
  match p with
  | .consumeState =>
    if i.stateOpen then .commit (.exchangeCode s.disconnects)
    else .fail (.error (.badRequest "Integration OAuth state was already used or has expired"))
  | .exchangeCode begun =>
    i.save
      { input :=
          { displayName := i.grant.displayName
            secrets := { accessToken := i.grant.accessToken, refreshToken := i.grant.refreshToken }
            externalAccountId := some i.grant.externalAccountId, scopes := i.grant.scopes
            metadata := i.grant.metadata, expiresAt := i.grant.expiresAt }
        origin := .completion, begun }
  | .getOAuthForRefresh enclosed =>
    i.select <|
      match s.forRefresh with
      | none => failed (.notFound "OAuth integration credential")
      | some current =>
        if current.expiresAt.all (i.now + REFRESH_SKEW_MILLISECONDS < ·) then
          .next (.selectForUse enclosed) [] []
        else
          match current.secrets.refreshToken with
          | none =>
            .fail (.error (.badRequest "The OAuth access token expired and cannot be refreshed"))
          | some refreshToken =>
            .next (.refreshAccessToken enclosed current refreshToken s.disconnects) [] []
  | .refreshAccessToken enclosed current refreshToken begun =>
    i.save
      { input :=
          { displayName := current.displayName
            secrets :=
              { accessToken := i.grant.accessToken
                refreshToken := some (i.grant.refreshToken.getD refreshToken) }
            externalAccountId := current.externalAccountId
            scopes := if i.grant.scopes.isEmpty then current.scopes else i.grant.scopes
            metadata := current.metadata, expiresAt := i.grant.expiresAt }
        origin := .refresh enclosed, begun }
  | .selectExisting x =>
    match s.live with
    | none => .next (.insertNew x) [] []
    | some existing =>
      if existing.authType ≠ x.input.authType then
        failed (.conflict "authType cannot change; revoke the credential before replacing it")
      else .next (.updateExisting x existing) [] []
  | .updateExisting x existing =>
    let rotatedAt := max i.now (existing.lastRotatedAt + 1)
    match s.credentials.find? existing.id with
    | none => failed (.error "Cannot read properties of undefined")
    | some r =>
      if !i.workspace then
        failed (.database "Integration credential workspace does not belong to its organization")
      else if refusesExpiry x.input.expiresAt i.dbNow then
        failed (.database "An active integration credential cannot already be expired")
      else if rotatedAt ≤ r.lastRotatedAt then
        failed (.database "Credential rotation must replace the complete encryption envelope")
      else if !r.isLive then failed (.database "integration_credentials_revocation_check")
      else .next (.saved x existing.id) [.row existing.id] [.update existing.id rotatedAt x]
  | .insertNew x =>
    if !i.workspace then
      failed (.database "Integration credential workspace does not belong to its organization")
    else if !i.membership then
      failed (.database "Integration credentials require an active owner or admin membership")
    else if refusesExpiry x.input.expiresAt i.dbNow then
      failed (.database "An active integration credential cannot already be expired")
    else if (s.credentials.find? i.id).isSome then
      failed (.database "integration_credentials_pkey")
    else if s.live.isSome then
      failed (.database "integration_credentials_tenant_provider_key_active_unique")
    else .next (.saved x i.id) [.row i.id, .active] [.insert i.id i.now x]
  | .saved x id =>
    match x.origin with
    | .completion => .finish (.ok (.saved id))
    | .refresh true => .next (.selectForUse true) [] []
    | .refresh false => .commit (.selectForUse false)
  | .selectForUse enclosed =>
    i.select <|
      match s.forUse with
      | none => failed (.notFound "integration credential")
      | some row =>
        if row.isExpired i.now then .next (.markExpired enclosed row.id i.now) [] []
        else .next (.touch row) [] []
  | .markExpired enclosed id now =>
    match s.credentials.find? id with
    | none => .next (.markedExpired enclosed) [] []
    | some r =>
      if !i.workspace then
        failed (.database "Integration credential workspace does not belong to its organization")
      else if !r.isLive then failed (.database "integration_credentials_revocation_check")
      else .next (.markedExpired enclosed) [.row id] [.markExpired id now]
  | .markedExpired enclosed =>
    -- the error ends a request's transaction, but not a statement that was committed by itself
    if enclosed then failed (.notFound "active integration credential")
    else .finish (.error (.repository (.notFound "active integration credential")))
  | .touch row =>
    match s.credentials.find? row.id with
    | none => failed (.error "Cannot read properties of undefined")
    | some r =>
      if !i.workspace then
        failed (.database "Integration credential workspace does not belong to its organization")
      else if r.status = .active && refusesExpiry r.expiresAt i.dbNow then
        failed (.database "An active integration credential cannot already be expired")
      else .next (.used row) [.row row.id] [.touch row.id i.now]
  | .used row => .finish (.ok (.used row.secrets.accessToken))
  | .getForRevocation =>
    i.select <|
      match s.forRefresh with
      | none => failed (.notFound "OAuth integration credential")
      | some current => .next (.revoke current.id) [] []
  | .revoke id =>
    i.select <|
      match (s.credentials.find? id).filter CredentialRow.isLive with
      | none => failed (.notFound "integration credential")
      | some _ => .next (.revoked id) [.row id, .active] [.revoke id i.now]
  | .revoked id => .finish (.ok (.disconnected id))

def Call.first : Call → Point
  | .complete => .consumeState
  | .accessToken enclosed => .getOAuthForRefresh enclosed
  | .getForUse enclosed => .selectForUse enclosed
  | .disconnect => .getForRevocation

def script : Script Call Store Input Point Lock Write Answer where
  first := Call.first
  apply := Write.apply
  statement := statement
  conflict k k' := k = k'
  conflict_symm k k' := by simp [eq_comm]

/-! ### What a statement leads to -/

variable {i : Input} {s : Store} {p p' : Point} {ks : List Lock} {ws : List Write} {a : Answer}
  {o : Outcome Point Lock Write Answer} {x : Saving}

/-- What a statement of a transaction goes on with. -/
inductive Nexts (i : Input) (s : Store) : Point → Point → List Lock → List Write → Prop
  | exchanged {begun : ℕ} {x : Saving} (horigin : x.origin = .completion) :
      Nexts i s (.exchangeCode begun) (.selectExisting x) [] []
  | current (enclosed : Bool) :
      Nexts i s (.getOAuthForRefresh enclosed) (.selectForUse enclosed) [] []
  | outdated (enclosed : Bool) {r : CredentialRow} (refreshToken : String)
      (hr : s.forRefresh = some r) :
      Nexts i s (.getOAuthForRefresh enclosed)
        (.refreshAccessToken enclosed r refreshToken s.disconnects) [] []
  | refreshed {enclosed : Bool} {r : CredentialRow} {refreshToken : String} {begun : ℕ} {x : Saving}
      (hbegun : x.begun = begun) :
      Nexts i s (.refreshAccessToken enclosed r refreshToken begun) (.selectExisting x) [] []
  | existing (x : Saving) (r : CredentialRow) :
      Nexts i s (.selectExisting x) (.updateExisting x r) [] []
  | vacant (x : Saving) : Nexts i s (.selectExisting x) (.insertNew x) [] []
  | update (x : Saving) (r : CredentialRow) (rotatedAt : ℤ) :
      Nexts i s (.updateExisting x r) (.saved x r.id) [.row r.id] [.update r.id rotatedAt x]
  | insert (x : Saving) (hnone : s.live = none) :
      Nexts i s (.insertNew x) (.saved x i.id) [.row i.id, .active] [.insert i.id i.now x]
  | reread {x : Saving} (id : Uuid) (horigin : x.origin = .refresh true) :
      Nexts i s (.saved x id) (.selectForUse true) [] []
  | expired (enclosed : Bool) (r : CredentialRow) :
      Nexts i s (.selectForUse enclosed) (.markExpired enclosed r.id i.now) [] []
  | usable (enclosed : Bool) (r : CredentialRow) :
      Nexts i s (.selectForUse enclosed) (.touch r) [] []
  | gone (enclosed : Bool) (id : Uuid) (now : ℤ) :
      Nexts i s (.markExpired enclosed id now) (.markedExpired enclosed) [] []
  | mark (enclosed : Bool) {id : Uuid} (now : ℤ) {r : CredentialRow}
      (hr : s.credentials.find? id = some r) (hlive : r.isLive = true) :
      Nexts i s (.markExpired enclosed id now) (.markedExpired enclosed) [.row id]
        [.markExpired id now]
  | touch (r : CredentialRow) : Nexts i s (.touch r) (.used r) [.row r.id] [.touch r.id i.now]
  | connected (r : CredentialRow) : Nexts i s .getForRevocation (.revoke r.id) [] []
  | revoke {id : Uuid} {r : CredentialRow} (hr : s.credentials.find? id = some r)
      (hlive : r.isLive = true) :
      Nexts i s (.revoke id) (.revoked id) [.row id, .active] [.revoke id i.now]

/-- Where a transaction is committed, and the call goes on. -/
inductive Commits (s : Store) : Point → Point → Prop
  | consumed : Commits s .consumeState (.exchangeCode s.disconnects)
  | refreshed {x : Saving} (id : Uuid) (horigin : x.origin = .refresh false) :
      Commits s (.saved x id) (.selectForUse false)

/-- The points at which a call ends, and commits. -/
def Point.Ends : Point → Prop
  | .saved x _ => x.origin = .completion
  | .markedExpired enclosed => enclosed = false
  | .used _ | .revoked _ => True
  | _ => False

inductive Leads (i : Input) (s : Store) : Point → Outcome Point Lock Write Answer → Prop
  | next {p p' : Point} {ks : List Lock} {ws : List Write} (h : Nexts i s p p' ks ws) :
      Leads i s p (.next p' ks ws)
  | commit {p p' : Point} (h : Commits s p p') : Leads i s p (.commit p')
  | finish {p : Point} (a : Answer) (hp : p.Ends) : Leads i s p (.finish a)
  | fail (p : Point) (a : Answer) : Leads i s p (.fail a)

theorem leads_select (h : Leads i s p o) : Leads i s p (i.select o) := by
  unfold Input.select
  split
  · exact .fail p _
  · exact h

theorem leads_save (h : Nexts i s p (.selectExisting x) [] []) : Leads i s p (i.save x) := by
  refine leads_select ?_
  split
  · exact .fail p _
  · split
    · exact .fail p _
    · exact .next h

theorem leads (i : Input) (p : Point) (s : Store) : Leads i s p (statement i p s) := by
  cases p with
  | consumeState =>
    simp only [statement]
    split
    · exact .commit .consumed
    · exact .fail _ _
  | exchangeCode begun => exact leads_save (.exchanged rfl)
  | getOAuthForRefresh enclosed =>
    refine leads_select ?_
    split
    · exact .fail _ _
    · next r hr =>
      split
      · exact .next (.current enclosed)
      · split
        · exact .fail _ _
        · exact .next (.outdated enclosed _ hr)
  | refreshAccessToken enclosed r refreshToken begun => exact leads_save (.refreshed rfl)
  | selectExisting x =>
    simp only [statement]
    split
    · exact .next (.vacant x)
    · split
      · exact .fail _ _
      · exact .next (.existing x _)
  | updateExisting x r =>
    simp only [statement]
    split
    · exact .fail _ _
    · split_ifs
      any_goals exact .fail _ _
      exact .next (.update x r _)
  | insertNew x =>
    simp only [statement]
    split_ifs with _ _ _ _ hlive
    any_goals exact .fail _ _
    exact .next (.insert x (by simpa using hlive))
  | saved x id =>
    simp only [statement]
    split
    · next horigin => exact .finish _ horigin
    · next horigin => exact .next (.reread id horigin)
    · next horigin => exact .commit (.refreshed id horigin)
  | selectForUse enclosed =>
    refine leads_select ?_
    split
    · exact .fail _ _
    · next r _ =>
      split
      · exact .next (.expired enclosed r)
      · exact .next (.usable enclosed r)
  | markExpired enclosed id now =>
    simp only [statement]
    split
    · exact .next (.gone enclosed id now)
    · next r hr =>
      split_ifs with _ hlive
      any_goals exact .fail _ _
      exact .next (.mark enclosed now hr (by simpa using hlive))
  | markedExpired enclosed =>
    simp only [statement]
    split
    · exact .fail _ _
    · next henclosed => exact .finish _ (Bool.eq_false_of_not_eq_true henclosed)
  | touch r =>
    simp only [statement]
    split
    · exact .fail _ _
    · split_ifs
      any_goals exact .fail _ _
      exact .next (.touch r)
  | used r => exact .finish _ trivial
  | getForRevocation =>
    refine leads_select ?_
    split
    · exact .fail _ _
    · exact .next (.connected _)
  | revoke id =>
    refine leads_select ?_
    split
    · exact .fail _ _
    · next r hr =>
      obtain ⟨hr, hlive⟩ := Option.filter_eq_some_iff.mp hr
      exact .next (.revoke hr hlive)
  | revoked id => exact .finish _ trivial

theorem nexts_of_next (h : statement i p s = .next p' ks ws) : Nexts i s p p' ks ws := by
  have hleads := leads i p s
  rw [h] at hleads
  cases hleads with
  | next hnext => exact hnext

theorem ends_of_finish (h : statement i p s = .finish a) : p.Ends := by
  have hleads := leads i p s
  rw [h] at hleads
  cases hleads with
  | finish _ hp => exact hp

theorem commits_of_commit (h : statement i p s = .commit p') : Commits s p p' := by
  have hleads := leads i p s
  rw [h] at hleads
  cases hleads with
  | commit hcommit => exact hcommit

end CalmBoard.Credentials
