import CalmBoard.Values
import CalmBoard.Lib.Table
import CalmBoard.Lib.Sessions

/-!
# CalmBoard.Auth.RefreshTokens — a session and the tokens of its family

* `create`: a session with its first refresh token.
* `move`: `rotate`, `validate`, `revoke`, `revokeOther` and `revokeAll`, statement by statement.
-/

namespace CalmBoard.Auth

open Sessions

def defaultSessionTtl : ℤ := 30 * 24 * 60 * 60 * 1000
def defaultRefreshTtl : ℤ := 7 * 24 * 60 * 60 * 1000
def sessionActivityTouchInterval : ℤ := 60000

/-- `user_sessions`; times are in milliseconds. -/
structure UserSession where
  id : Uuid
  userId : Uuid
  isCurrent : Bool := false
  lastActive : ℤ
  lastRefreshAt : Option ℤ := none
  expiresAt : ℤ
  revokedAt : Option ℤ := none
  revokeReason : Option String := none

structure RefreshToken where
  id : Uuid
  sessionId : Uuid
  userId : Uuid
  familyId : Uuid
  tokenHash : String
  parentTokenId : Option Uuid := none
  replacedByTokenId : Option Uuid := none
  expiresAt : ℤ
  usedAt : Option ℤ := none
  revokedAt : Option ℤ := none

/-- One session and the tokens of its family. -/
structure Store where
  session : UserSession
  tokens : Table RefreshToken RefreshToken.id

/-- `sessionActivityIsStale` -/
def sessionActivityIsStale (lastActive now : ℤ) : Bool :=
  sessionActivityTouchInterval ≤ now - lastActive

/-! ### Calls -/

structure CreateAuthSessionInput where
  userId : Uuid
  sessionExpiresAt : Option ℤ := none
  refreshExpiresAt : Option ℤ := none

/-- A refresh token, the one that will replace it with the id of its row, and the clock. -/
structure Rotation where
  refreshToken : String
  nextRefreshToken : String
  replacementId : Uuid
  now : ℤ

structure Validation where
  sessionId : Uuid
  userId : Option Uuid := none
  now : ℤ

/-- `revoke`, `revokeOther` or `revokeAll`. -/
inductive Scope where
  | one (sessionId : Uuid) (reason : String)
  | other (currentSessionId : Uuid)
  | all

structure Revocation where
  userId : Uuid
  scope : Scope
  now : ℤ

inductive Call where
  | rotate (r : Rotation)
  | validate (v : Validation)
  | revoke (r : Revocation)

inductive Outcome where
  | rotated | reuse | invalid | valid | revoked | notFound | failed
  deriving DecidableEq

/-- Where a call is, with the rows it has locked. -/
inductive Local where
  | start (call : Call)
  /-- the row of the token is locked -/
  | holdsToken (r : Rotation) (token : RefreshToken)
  /-- so is the row of the session -/
  | holdsBoth (r : Rotation) (token : RefreshToken) (session : UserSession)
  /-- a valid session whose last activity is old -/
  | stale (v : Validation)
  | touching (v : Validation)
  | revalidate (v : Validation)
  | revoking (r : Revocation)
  | returned (call : Call) (outcome : Outcome)

inductive Lock where
  | token (id : Uuid)
  | session
  deriving DecidableEq

def Local.locks : Local → List Lock
  | .holdsToken _ token => [.token token.id]
  | .holdsBoth _ token _ => [.token token.id, .session]
  | .touching _ | .revoking _ => [.session]
  | _ => []

def Local.call : Local → Call
  | .start call | .returned call _ => call
  | .holdsToken r _ | .holdsBoth r _ _ => .rotate r
  | .stale v | .touching v | .revalidate v => .validate v
  | .revoking r => .revoke r

/-- The next statement, or the failure of a call. -/
inductive Action where
  | next
  | abort

-- `hashRefreshToken`
variable (hash : String → String)

/-- `create`; the ids are those `gen_random_uuid()` returns. -/
def create (input : CreateAuthSessionInput) (userExists : Bool) (now : ℤ) (sessionId tokenId : Uuid)
    (refreshToken : String) : Option Store :=
  let sessionExpiresAt := input.sessionExpiresAt.getD (now + defaultSessionTtl)
  let refreshExpiresAt := input.refreshExpiresAt.getD (now + defaultRefreshTtl)
  if userExists = false ∨ sessionExpiresAt ≤ now ∨ refreshExpiresAt ≤ now ∨
      sessionExpiresAt < refreshExpiresAt then none
  else
    (Table.empty.insert? { id := tokenId, sessionId, userId := input.userId, familyId := sessionId
                           tokenHash := hash refreshToken, expiresAt := refreshExpiresAt }).map
      fun tokens =>
        { session := { id := sessionId, userId := input.userId, lastActive := now
                       lastRefreshAt := some now, expiresAt := sessionExpiresAt }
          tokens }

/-! ### Statements -/

def selectToken (r : Rotation) (s : Store) : Local :=
  if r.refreshToken = "" then .returned (.rotate r) .invalid
  else
    match s.tokens.rows.find? fun t => t.tokenHash = hash r.refreshToken with
    | none => .returned (.rotate r) .invalid
    | some token => .holdsToken r token

def selectSession (r : Rotation) (token : RefreshToken) (s : Store) : Local :=
  if s.session.id = token.sessionId then .holdsBoth r token s.session
  else .returned (.rotate r) .invalid

def revokeRow (now : ℤ) (reason : String) (session : UserSession) : UserSession :=
  { session with revokedAt := some now, revokeReason := some reason }

/-- The token that replaces another one. -/
def replacement (r : Rotation) (token : RefreshToken) (session : UserSession) : RefreshToken :=
  { id := r.replacementId, sessionId := session.id, userId := session.userId
    familyId := token.familyId, tokenHash := hash r.nextRefreshToken
    parentTokenId := some token.id
    expiresAt := min session.expiresAt (r.now + defaultRefreshTtl) }

/-- The token that has been replaced. -/
def spent (r : Rotation) (token : RefreshToken) : RefreshToken :=
  { token with usedAt := some r.now, replacedByTokenId := some r.replacementId }

@[simp] theorem spent_id (r : Rotation) (token : RefreshToken) : (spent r token).id = token.id := rfl

/-- The tokens after a rotation, unless the id or the hash of the new one is taken. -/
def replace (r : Rotation) (token : RefreshToken) (session : UserSession) (s : Store) :
    Option (Table RefreshToken RefreshToken.id) :=
  if s.tokens.rows.any fun t => t.tokenHash = hash r.nextRefreshToken then none
  else
    (s.tokens.insert? (replacement hash r token session)).map fun tokens =>
      tokens.update (fun t => t.id = token.id) (spent r) (spent_id r)

/-- What `rotate` writes once it holds both rows. -/
def finishRotate (r : Rotation) (token : RefreshToken) (session : UserSession) (s : Store) :
    Store × Local :=
  if token.usedAt.isSome then
    (if session.revokedAt.isNone then
        { s with session := revokeRow r.now "refresh_token_reuse" s.session }
      else s, .returned (.rotate r) .reuse)
  else if token.revokedAt.isSome ∨ session.revokedAt.isSome ∨ token.expiresAt ≤ r.now ∨
      session.expiresAt ≤ r.now then
    (if session.revokedAt.isNone ∧ session.expiresAt ≤ r.now then
        { s with session := revokeRow r.now "session_expired" s.session }
      else s, .returned (.rotate r) .invalid)
  else
    match replace hash r token session s with
    | none => (s, .returned (.rotate r) .failed)
    | some tokens =>
      ({ session := { s.session with lastActive := r.now, lastRefreshAt := some r.now }, tokens },
        .returned (.rotate r) .rotated)

/-- `protect_and_revoke_user_session` also marks the tokens of a session that is revoked.  `rotate`
refuses them with or without the mark, which the statements below leave out. -/
theorem finishRotate_marked {r : Rotation} {token : RefreshToken} {session : UserSession} {s : Store}
    (hrevoked : session.revokedAt.isSome = true) (mark : Option ℤ) :
    finishRotate hash r { token with revokedAt := mark } session s =
      finishRotate hash r token session s := by
  unfold finishRotate
  split
  · rfl
  · rw [if_pos (Or.inr (Or.inl hrevoked)), if_pos (Or.inr (Or.inl hrevoked))]

/-- The conditions of `validate` on the row. -/
def validates (v : Validation) (session : UserSession) : Bool :=
  session.id = v.sessionId && session.revokedAt.isNone && v.now < session.expiresAt &&
    v.userId.all fun userId => session.userId = userId

def selectValid (v : Validation) (s : Store) : Local :=
  if validates v s.session then
    if sessionActivityIsStale s.session.lastActive v.now then .stale v
    else .returned (.validate v) .valid
  else .returned (.validate v) .invalid

def lockStale (v : Validation) (s : Store) : Local :=
  if validates v s.session && s.session.lastActive ≤ v.now - sessionActivityTouchInterval then
    .touching v
  else .revalidate v

def reselectValid (v : Validation) (s : Store) : Local :=
  if validates v s.session then .returned (.validate v) .valid else .returned (.validate v) .invalid

/-- The conditions of a revocation on the row. -/
def revokes (r : Revocation) (session : UserSession) : Bool :=
  session.userId = r.userId && session.revokedAt.isNone &&
    match r.scope with
    | .one sessionId _ => session.id = sessionId
    | .other currentSessionId => session.id ≠ currentSessionId
    | .all => true

def Revocation.reason (r : Revocation) : String :=
  match r.scope with
  | .one _ reason => reason
  | .other _ => "logout_other_sessions"
  | .all => "logout_all_sessions"

def lockRevoked (r : Revocation) (s : Store) : Local :=
  if revokes r s.session then .revoking r
  else
    match r.scope with
    | .one .. => .returned (.revoke r) .notFound
    | _ => .returned (.revoke r) .revoked

/-- One statement of a call; a statement that locks a row reads it as it is then. -/
def move (a : Action) (s : Store) (l : Local) : Option (Store × Local) :=
  match a, l with
  | _, .returned .. => none
  | .abort, l => some (s, .returned l.call .failed)
  | .next, .start (.rotate r) => some (s, selectToken hash r s)
  | .next, .start (.validate v) => some (s, selectValid v s)
  | .next, .start (.revoke r) => some (s, lockRevoked r s)
  | .next, .holdsToken r token => some (s, selectSession r token s)
  | .next, .holdsBoth r token session => some (finishRotate hash r token session s)
  | .next, .stale v => some (s, lockStale v s)
  | .next, .touching v =>
    some ({ s with session := { s.session with lastActive := v.now } },
      .returned (.validate v) .valid)
  | .next, .revalidate v => some (s, reselectValid v s)
  | .next, .revoking r =>
    some ({ s with session := { revokeRow r.now r.reason s.session with isCurrent := false } },
      .returned (.revoke r) .revoked)

def program : Program Call Store Local Lock Action where
  start := .start
  locks := Local.locks
  conflict k k' := k = k'
  move := move hash
  conflict_symm k k' := by simp [eq_comm]
  start_locks _ := rfl

end CalmBoard.Auth
