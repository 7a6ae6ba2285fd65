import CalmBoard.Auth.Logins
import CalmBoard.Auth.RefreshTokens
import CalmBoard.Lib.Savepoints

/-!
# CalmBoard.Auth.Bookkeeping — what a refused login or refresh leaves behind

* `intercept`: a request runs in one transaction if it names an organization or an actor.
* `login`, `refresh`: the two calls, statement by statement.
* `login_raised`, `refresh_raised`: the rows they leave when they answer with an error.
* `bookkeeping_kept`: the failure is counted, and the session revoked, when no transaction encloses
  the call.
-/

namespace CalmBoard.Bookkeeping

open Savepoints
open Auth (UserSession RefreshToken Rotation)
open Logins (UserRow AuthToken)

/-! ### Requests -/

/-- The fields of a body or a query that name a tenant; `none` is a value that is no string. -/
structure TenantFields where
  organizationId : Option String := none
  workspaceId : Option String := none
  actorId : Option String := none

/-- A request to a public route: no guard has set its tenant or its user. -/
structure PublicRequest where
  body : TenantFields := {}
  query : TenantFields := {}

structure DatabaseRequestContext where
  organizationId : Option String
  workspaceId : Option String
  actorId : Option String

/-- The first string that is not blank, trimmed. -/
def optionalIdentifier (values : List (Option String)) : Option String :=
  values.findSome? fun value => value.bind fun v =>
    if Text.trim v = "" then none else some (Text.trim v)

def PublicRequest.context (r : PublicRequest) : DatabaseRequestContext where
  organizationId := optionalIdentifier [r.body.organizationId, r.query.organizationId]
  workspaceId := optionalIdentifier [r.body.workspaceId, r.query.workspaceId]
  actorId := optionalIdentifier [r.body.actorId, r.query.actorId]

/-- The request runs in one transaction. -/
def PublicRequest.Enclosed (r : PublicRequest) : Prop :=
  r.context.organizationId.isSome ∨ r.context.actorId.isSome

instance (r : PublicRequest) : Decidable r.Enclosed := by
  unfold PublicRequest.Enclosed
  infer_instance

/-! ### The store -/

inductive SecurityEventOutcome where
  | success | failure | blocked | challenge

/-- `security_events` of type `login_password` -/
structure SecurityEvent where
  userId : Option Uuid
  emailHash : Option String
  outcome : SecurityEventOutcome
  ip : Option String
  retryAfter : Option ℤ := none

structure Store where
  users : Table UserRow UserRow.id
  /-- users with an enabled factor -/
  mfaUsers : List Uuid := []
  challenges : Table AuthToken AuthToken.tokenHash := Table.empty
  sessions : Table UserSession UserSession.id := Table.empty
  tokens : Table RefreshToken RefreshToken.id := Table.empty
  events : List SecurityEvent := []

/-- The statements of the two calls. -/
inductive Statement where
  | setConfig
  | findByEmail | recordLoginFailure | recordSecurityEvent | isEnabled
  | lockChallenges | invalidateChallenges | insertChallenge
  | recordLoginSuccess | findUser | insertSession | insertToken
  | selectToken | selectSession | revokeSession | insertReplacement | useToken | touchSession
  | findPublicUser

inductive ServiceError where
  | unauthorized (message : String)
  /-- `Account is temporarily locked` -/
  | locked (retryAfter : ℤ)
  | tenantResourceNotFound (resource : String)
  | invalidAuthSession (message : String)
  | refreshTokenReuse
  | error (message : String)
  deriving DecidableEq

abbrev Call (α : Type) : Type := Program Statement Store ServiceError α

/-- `TenantDatabaseInterceptor.intercept` -/
def intercept {α : Type} (r : PublicRequest) (call : Call α) : Call α :=
  if r.Enclosed then
    transaction do
      select .setConfig fun _ => ()
      call
  else call

/-! ### Login -/

/-- What a login takes from outside: the clock, and the ids and tokens of new rows. -/
structure Io where
  now : ℤ
  ip : Option String := none
  challengeToken : String := ""
  refreshToken : String := ""
  sessionId : Uuid := 0
  tokenId : Uuid := 0

inductive LoginAnswer where
  | requiresMfa (challengeToken : String) (challengeExpiresAt : ℤ)
  | signedIn (userId sessionId : Uuid) (refreshToken : String)

/-- `toLowerCase`, the check of a password, and the hash functions. -/
structure Runtime where
  lower : String → String
  verify : String → String → Bool
  dummyPasswordHash : String
  hashSecurityEmail : String → String
  hashAuthToken : String → String
  hashRefreshToken : String → String

variable (rt : Runtime)

def Store.setUser (s : Store) (userId : Uuid) (f : UserRow → UserRow) (hf : ∀ u, (f u).id = u.id) :
    Store :=
  { s with users := s.users.update (fun u => u.id = userId) f hf }

def Store.setSession (s : Store) (sessionId : Uuid) (f : UserSession → UserSession)
    (hf : ∀ x, (f x).id = x.id) : Store :=
  { s with sessions := s.sessions.update (fun x => x.id = sessionId) f hf }

/-- `identities.findByEmail` -/
def Store.findByEmail (s : Store) (email : String) : Option UserRow :=
  s.users.rows.find? fun u => u.email = rt.lower email

def recordLoginFailure (userId : Uuid) (now : ℤ) : Call Unit :=
  statement .recordLoginFailure fun s =>
    some ((), s.setUser userId (UserRow.loginFailure now) fun _ => rfl)

def recordLoginSuccess (userId : Uuid) (now : ℤ) : Call Unit :=
  statement .recordLoginSuccess fun s =>
    some ((), s.setUser userId (UserRow.loginSuccess now) fun _ => rfl)

/-- `securityEvents.record` -/
def record (userId : Option Uuid) (email : String) (outcome : SecurityEventOutcome)
    (ip : Option String) (retryAfter : Option ℤ := none) : Call Unit :=
  let emailHash := if email = "" then none else some (rt.hashSecurityEmail email)
  if userId.isNone ∧ emailHash.isNone ∧ ip.isNone then
    raise (.error "A security event requires a user, email fingerprint, session, or IP")
  else
    statement .recordSecurityEvent fun s =>
      some ((), { s with events := s.events ++ [{ userId, emailHash, outcome, ip, retryAfter }] })

/-- `authTokens.issue` of a login challenge -/
def issueChallenge (userId : Uuid) (io : Io) : Call ℤ := do
  let expiresAt := io.now + Logins.Purpose.mfaLogin.ttl
  transaction do
    select .lockChallenges fun _ => ()
    statement .invalidateChallenges fun s => some ((), { s with
      challenges := s.challenges.update (fun t => t.userId = userId && t.purpose = .mfaLogin &&
        t.consumedAt.isNone && t.invalidatedAt.isNone) (AuthToken.invalidate io.now)
        (AuthToken.invalidate_hash io.now) })
    statement .insertChallenge fun s =>
      (s.challenges.insert? { tokenHash := rt.hashAuthToken io.challengeToken, userId
                              purpose := .mfaLogin, expiresAt, resets := 0 }).map
        fun challenges => ((), { s with challenges })
  return expiresAt

/-- `sessions.create` with the default lifetimes -/
def createSession (userId : Uuid) (io : Io) : Call Uuid := do
  let user ← select .findUser fun s => s.users.find? userId
  if user.isNone then raise (.tenantResourceNotFound "user")
  transaction do
    statement .insertSession fun s =>
      (s.sessions.insert? { id := io.sessionId, userId, lastActive := io.now
                            lastRefreshAt := some io.now
                            expiresAt := io.now + Auth.defaultSessionTtl }).map
        fun sessions => ((), { s with sessions })
    statement .insertToken fun s =>
      (s.tokens.insert? { id := io.tokenId, sessionId := io.sessionId, userId
                          familyId := io.sessionId
                          tokenHash := rt.hashRefreshToken io.refreshToken
                          expiresAt := io.now + Auth.defaultRefreshTtl }).map
        fun tokens => ((), { s with tokens })
  return io.sessionId

def invalidCredentials : ServiceError := .unauthorized "Invalid email or password"

/-- The account is locked at that time. -/
def locked (identity : Option UserRow) (now : ℤ) : Bool :=
  (identity.bind UserRow.lockedUntil).any fun t => now < t

/-- The password is the one of the account. -/
def passwordMatches (identity : Option UserRow) (password : String) : Bool :=
  rt.verify ((identity.bind UserRow.passwordHash).getD rt.dummyPasswordHash) password

/-- A wrong password counts unless the account is locked, or has none. -/
def countFailure (identity : Option UserRow) (io : Io) : Call Unit :=
  match identity with
  | some u =>
    if u.passwordHash.isSome ∧ locked identity io.now = false then recordLoginFailure u.id io.now
    else pure ()
  | none => pure ()

/-- A login that gives no right password. -/
def refuse (identity : Option UserRow) (email : String) (io : Io) : Call LoginAnswer := do
  countFailure identity io
  record rt (identity.map UserRow.id) email (if locked identity io.now then .blocked else .failure)
    io.ip
  raise invalidCredentials

/-- A login with the right password. -/
def admitUser (u : UserRow) (email : String) (io : Io) : Call LoginAnswer := do
  if !u.lifecycleState.available then raise invalidCredentials
  if locked (some u) io.now then
    -- seconds, rounded up
    let retryAfter := max 1 (-((io.now - u.lockedUntil.getD 0) / 1000))
    record rt (some u.id) email .blocked io.ip (some retryAfter)
    raise (.locked retryAfter)
  if ← select .isEnabled fun s => s.mfaUsers.contains u.id then
    let expiresAt ← issueChallenge rt u.id io
    record rt (some u.id) email .challenge io.ip
    return .requiresMfa io.challengeToken expiresAt
  recordLoginSuccess u.id io.now
  let sessionId ← createSession rt u.id io
  record rt (some u.id) email .success io.ip
  return .signedIn u.id sessionId io.refreshToken

def login (email password : String) (io : Io) : Call LoginAnswer := do
  let identity ← select .findByEmail fun s => s.findByEmail rt email
  match identity with
  | none => refuse rt none email io
  | some u =>
    if u.passwordHash.isNone ∨ passwordMatches rt identity password = false then
      refuse rt identity email io
    else admitUser rt u email io

/-! ### Refresh -/

inductive Rotated where
  | invalid
  | reuse
  | rotated (sessionId userId : Uuid) (refreshExpiresAt : ℤ)

def revokeSession (session : UserSession) (now : ℤ) (reason : String) : Call Unit :=
  statement .revokeSession fun s =>
    some ((), s.setSession session.id (Auth.revokeRow now reason) fun _ => rfl)

/-- A token that has been used ends its session. -/
def reused (r : Rotation) (session : UserSession) : Call Rotated :=
  if session.revokedAt.isNone then do
    revokeSession session r.now "refresh_token_reuse"
    return .reuse
  else return .reuse

/-- `sessions.rotate` once both rows are locked. -/
def rotateRows (r : Rotation) (token : RefreshToken) (session : UserSession) : Call Rotated :=
  if token.usedAt.isSome then reused r session
  else if token.revokedAt.isSome ∨ session.revokedAt.isSome ∨ token.expiresAt ≤ r.now ∨
      session.expiresAt ≤ r.now then do
    if session.revokedAt.isNone ∧ session.expiresAt ≤ r.now then
      revokeSession session r.now "session_expired"
    return .invalid
  else do
    let next := Auth.replacement rt.hashRefreshToken r token session
    statement .insertReplacement fun s =>
      if s.tokens.rows.any fun t => t.tokenHash = next.tokenHash then none
      else (s.tokens.insert? next).map fun tokens => ((), { s with tokens })
    statement .useToken fun s => some ((), { s with
      tokens := s.tokens.update (fun t => t.id = token.id) (Auth.spent r) (Auth.spent_id r) })
    statement .touchSession fun s => some ((), s.setSession session.id
      (fun x => { x with lastActive := r.now, lastRefreshAt := some r.now }) fun _ => rfl)
    return .rotated session.id session.userId next.expiresAt

/-- The transaction of `sessions.rotate`. -/
def rotateToken (r : Rotation) : Call Rotated := do
  let token ← select .selectToken fun s =>
    s.tokens.rows.find? fun t => t.tokenHash = rt.hashRefreshToken r.refreshToken
  match token with
  | none => return .invalid
  | some token =>
    let session ← select .selectSession fun s => s.sessions.find? token.sessionId
    match session with
    | none => return .invalid
    | some session => rotateRows rt r token session

def answerRotation : Rotated → Call (Uuid × Uuid × ℤ)
  | .reuse => raise .refreshTokenReuse
  | .invalid => raise (.invalidAuthSession "Authentication session is invalid or expired")
  | .rotated sessionId userId refreshExpiresAt => return (sessionId, userId, refreshExpiresAt)

def rotate (r : Rotation) : Call (Uuid × Uuid × ℤ) :=
  if r.refreshToken = "" then raise (.invalidAuthSession "Refresh token is required")
  else transaction (rotateToken rt r) >>= answerRotation

def reuseDetected : ServiceError :=
  .unauthorized "Refresh token reuse detected; the complete session family was revoked"

/-- The `catch` of `refresh`. -/
def asUnauthorized {α : Type} : Failure ServiceError → Call α
  | .raised .refreshTokenReuse => raise reuseDetected
  | .raised (.invalidAuthSession message) =>
    raise (.unauthorized
      (if message = "" then "Authentication session is invalid or expired" else message))
  | e => done (.error e)

def findPublicUser (rotated : Uuid × Uuid × ℤ) : Call (Uuid × Uuid × ℤ) := do
  let user ← select .findPublicUser fun s => s.users.find? rotated.2.1
  if user.any fun u => u.lifecycleState.available then return rotated
  else raise (.unauthorized "Authentication user is disabled")

def refresh (r : Rotation) : Call (Uuid × Uuid × ℤ) :=
  attempt (rotate rt r >>= findPublicUser) asUnauthorized

/-! ### What a call with an error leaves -/

variable {rt} {faults : Statement → Bool} {c : Connection Store}

theorem enclosed_error {α : Type} {r : PublicRequest} {call : Call α} {s : Store}
    {e : Failure ServiceError} (hr : r.Enclosed)
    (h : ((intercept r call).run faults ⟨s, false, false⟩).result = .error e) :
    ((intercept r call).run faults ⟨s, false, false⟩).connection.store = s := by
  simp only [intercept, if_pos hr] at h ⊢
  rw [transaction_error h]

theorem find?_setUser (s : Store) (u : UserRow) (f : UserRow → UserRow) (hf : ∀ u, (f u).id = u.id)
    (hu : s.users.find? u.id = some u) : (s.setUser u.id f hf).users.find? u.id = some (f u) := by
  simp [Store.setUser, hu]

theorem find?_setSession (s : Store) (x : UserSession) (f : UserSession → UserSession)
    (hf : ∀ x, (f x).id = x.id) (hx : s.sessions.find? x.id = some x) :
    (s.setSession x.id f hf).sessions.find? x.id = some (f x) := by
  simp [Store.setSession, hx]

theorem find?_of_findByEmail {s : Store} {email : String} {u : UserRow}
    (h : s.findByEmail rt email = some u) : s.users.find? u.id = some u :=
  Table.find?_of_mem (List.mem_of_find?_eq_some h)

theorem keeps_record (userId : Option Uuid) (email : String) (outcome : SecurityEventOutcome)
    (ip : Option String) (retryAfter : Option ℤ) :
    Keeps Store.users (record rt userId email outcome ip retryAfter) := by
  unfold record
  by_cases h : userId.isNone ∧ (if email = "" then none else some (rt.hashSecurityEmail email)).isNone ∧
      ip.isNone
  · rw [if_pos h]
    exact Keeps.done _
  · rw [if_neg h]
    refine Keeps.statement fun s a s' hs => ?_
    cases hs
    rfl

theorem refuse_raised {u : UserRow} {email : String} {io : Io} {e : ServiceError}
    (hu : c.store.users.find? u.id = some u) (hl : locked (some u) io.now = false)
    (h : ((refuse rt (some u) email io).run faults c).result = .error (.raised e)) :
    ((refuse rt (some u) email io).run faults c).connection.store.users.find? u.id =
      some (if u.passwordHash.isSome then u.loginFailure io.now else u) := by
  -- what follows the count does not write to users
  have hrest : Keeps Store.users (do
      record rt ((some u).map UserRow.id) email (if locked (some u) io.now then .blocked else .failure)
        io.ip
      raise invalidCredentials : Call LoginAnswer) :=
    Keeps.closed.bind (keeps_record _ _ _ _ _) fun _ => Keeps.done _
  by_cases hp : u.passwordHash.isSome = true
  · have hcount : countFailure (some u) io = recordLoginFailure u.id io.now := by
      simp [countFailure, hp, hl]
    simp only [refuse, hcount, recordLoginFailure] at h ⊢
    obtain ⟨_, s', hs', -, hconn⟩ := statement_bind h (by simp)
    cases hs'
    rw [hconn, hrest, if_pos hp]
    exact find?_setUser _ u _ _ hu
  · have hcount : countFailure (some u) io = pure () := by simp [countFailure, hp]
    have hkeeps : Keeps Store.users (refuse rt (some u) email io) := by
      unfold refuse
      rw [hcount]
      exact Keeps.closed.bind (Keeps.done _) fun _ => hrest
    rw [if_neg hp, hkeeps]
    exact hu

theorem login_raised {u : UserRow} {email password : String} {io : Io} {e : ServiceError}
    (hu : c.store.findByEmail rt email = some u)
    (hw : u.passwordHash.isNone ∨ passwordMatches rt (some u) password = false)
    (hl : locked (some u) io.now = false)
    (h : ((login rt email password io).run faults c).result = .error (.raised e)) :
    ((login rt email password io).run faults c).connection.store.users.find? u.id =
      some (if u.passwordHash.isSome then u.loginFailure io.now else u) := by
  unfold login select at h ⊢
  obtain ⟨identity, s', hs', hr, hconn⟩ := statement_bind h (by simp)
  obtain ⟨rfl, rfl⟩ : c.store.findByEmail rt email = identity ∧ c.store = s' := by simpa using hs'
  simp only [hu, if_pos hw] at hr hconn
  rw [hconn]
  exact refuse_raised (find?_of_findByEmail hu) hl hr

/-! ### A token that has been used -/

variable {session : UserSession}

def Revoked (s : Store) (sessionId : Uuid) : Prop :=
  ∃ x, s.sessions.find? sessionId = some x ∧ x.revokedAt.isSome

theorem reused_result {r : Rotation} (hs : c.store.sessions.find? session.id = some session)
    (h : ((reused r session).run faults c).result ≠ .error .database) :
    ((reused r session).run faults c).result = .ok .reuse ∧
      ((reused r session).run faults c).connection.aborted = c.aborted ∧
      Revoked ((reused r session).run faults c).connection.store session.id := by
  unfold reused at h ⊢
  by_cases hrev : session.revokedAt.isNone = true
  · simp only [if_pos hrev, revokeSession] at h ⊢
    obtain ⟨_, s', hs', hr, hconn⟩ := statement_bind rfl h
    cases hs'
    rw [← hr, hconn]
    exact ⟨rfl, rfl, _, find?_setSession _ session _ _ hs, rfl⟩
  · simp only [if_neg hrev]
    exact ⟨rfl, rfl, session, hs, by simpa [← Option.isSome_iff_ne_none] using hrev⟩

theorem rotateToken_used {r : Rotation} {token : RefreshToken}
    (ht : c.store.tokens.rows.find? (fun t => t.tokenHash = rt.hashRefreshToken r.refreshToken) =
      some token) (hu : token.usedAt.isSome)
    (hs : c.store.sessions.find? token.sessionId = some session)
    (h : ((rotateToken rt r).run faults c).result ≠ .error .database) :
    ((rotateToken rt r).run faults c).result = .ok .reuse ∧
      ((rotateToken rt r).run faults c).connection.aborted = c.aborted ∧
      Revoked ((rotateToken rt r).run faults c).connection.store token.sessionId := by
  have hid : session.id = token.sessionId := Table.key_of_find? hs
  unfold rotateToken select at h ⊢
  obtain ⟨t, s', hs', hr, hconn⟩ := statement_bind rfl h
  obtain ⟨rfl, rfl⟩ : _ = t ∧ c.store = s' := by simpa using hs'
  rw [← hr, hconn]
  simp only [ht] at hr ⊢
  rw [← hr] at h
  obtain ⟨x, s', hs', hr', hconn'⟩ := statement_bind rfl h
  obtain ⟨rfl, rfl⟩ : _ = x ∧ c.store = s' := by simpa using hs'
  rw [← hr', hconn']
  rw [← hr'] at h
  simp only [hs, rotateRows, if_pos hu] at h ⊢
  rw [← hid] at hs ⊢
  exact reused_result hs h

theorem refresh_raised {r : Rotation} {token : RefreshToken} {s : Store}
    (ht : s.tokens.rows.find? (fun t => t.tokenHash = rt.hashRefreshToken r.refreshToken) =
      some token) (hu : token.usedAt.isSome) (hs : s.sessions.find? token.sessionId = some session)
    (h : ((refresh rt r).run faults ⟨s, false, false⟩).result = .error (.raised reuseDetected)) :
    Revoked ((refresh rt r).run faults ⟨s, false, false⟩).connection.store token.sessionId := by
  by_cases hne : r.refreshToken = ""
  · simp [refresh, rotate, if_pos hne, raise, attempt, andThen, Bind.bind, asUnauthorized,
      reuseDetected] at h
  simp only [refresh, rotate, if_neg hne] at h ⊢
  have hresult : ((transaction (rotateToken rt r)).run faults ⟨s, false, false⟩).result =
    ((rotateToken rt r).run faults ⟨s, true, false⟩).result := transaction_result
  by_cases hdb : ((rotateToken rt r).run faults ⟨s, true, false⟩).result = .error .database
  · -- the error of a statement is passed on
    rw [hdb] at hresult
    have h₁ := bind_error (f := answerRotation) hresult
    have h₂ := bind_error (f := findPublicUser) h₁.1
    rw [(attempt_error h₂.1).1] at h
    cases h
  · obtain ⟨hok, hab, hrev⟩ := rotateToken_used (c := ⟨s, true, false⟩) ht hu hs hdb
    have hstore := transaction_store hok
    rw [hab, if_neg (by simp)] at hstore
    have h₁ := bind_ok (f := answerRotation) (hresult.trans hok)
    have h₂ := bind_error (f := findPublicUser) h₁.1
    rw [(attempt_error h₂.1).2]
    show Revoked (((transaction (rotateToken rt r) >>= answerRotation) >>= findPublicUser).run faults
      ⟨s, false, false⟩).connection.store token.sessionId
    rw [h₂.2, h₁.2]
    show Revoked ((transaction (rotateToken rt r)).run faults ⟨s, false, false⟩).connection.store
      token.sessionId
    rw [hstore]
    exact hrev

/-! ### One session -/

/-- What the calls of one session call it. -/
def outcome : Except (Failure ServiceError) Rotated → Auth.Outcome
  | .ok .invalid => .invalid
  | .ok .reuse => .reuse
  | .ok (.rotated ..) => .rotated
  | .error _ => .failed

/-- **Rotation**: without faults the statements do what `Auth.finishRotate` does to one session. -/
theorem rotateRows_healthy {r : Rotation} {token : RefreshToken}
    (hs : c.store.sessions.find? session.id = some session) (hopen : c.aborted = false) :
    let y := (rotateRows rt r token session).run healthy c
    let x := Auth.finishRotate rt.hashRefreshToken r token session ⟨session, c.store.tokens⟩
    x.2 = .returned (.rotate r) (outcome y.result) ∧ (outcome y.result = .failed ∨
      y.connection.store.sessions.find? session.id = some x.1.session ∧
        y.connection.store.tokens = x.1.tokens) := by
  have hset : ∀ f hf, (c.store.sessions.update (fun x => x.id = session.id) f hf).find? session.id =
      some (f session) := fun f hf => find?_setSession c.store session f hf hs
  unfold rotateRows Auth.finishRotate reused revokeSession
  by_cases hused : token.usedAt.isSome = true
  · simp only [if_pos hused]
    by_cases hrevoked : session.revokedAt.isNone = true
    · simp [hrevoked, statement, hopen, healthy, Bind.bind, andThen, outcome, Store.setSession]
      exact hset _ _
    · simp [hrevoked, outcome, hs]
  · simp only [if_neg hused]
    split
    · by_cases hrevoked : session.revokedAt.isNone = true ∧ session.expiresAt ≤ r.now
      · simp [hrevoked, statement, hopen, healthy, Bind.bind, andThen, outcome, Store.setSession]
        exact hset _ _
      · simp only [if_neg hrevoked]
        exact ⟨rfl, .inr ⟨hs, rfl⟩⟩
    · simp only [Auth.replace, statement, hopen, healthy, Bind.bind, andThen]
      by_cases htaken : (c.store.tokens.rows.any fun t =>
          t.tokenHash = rt.hashRefreshToken r.nextRefreshToken) = true
      · have htaken' : (c.store.tokens.rows.any fun t => t.tokenHash =
            (Auth.replacement rt.hashRefreshToken r token session).tokenHash) = true := htaken
        simp only [if_pos htaken, if_pos htaken']
        exact ⟨rfl, .inl rfl⟩
      · have htaken' : ¬(c.store.tokens.rows.any fun t => t.tokenHash =
            (Auth.replacement rt.hashRefreshToken r token session).tokenHash) = true := htaken
        simp only [if_neg htaken, if_neg htaken']
        cases hinsert : c.store.tokens.insert? (Auth.replacement rt.hashRefreshToken r token session) with
        | none => exact ⟨rfl, .inl rfl⟩
        | some tokens =>
          exact ⟨rfl, .inr ⟨hset (fun x => { x with lastActive := r.now, lastRefreshAt := some r.now })
            fun _ => rfl, rfl⟩⟩

/-! ### The two calls as requests -/

/-- The failed attempt of the account is counted. -/
def Counted (u : UserRow) (s : Store) : Prop :=
  ∃ u', s.users.find? u.id = some u' ∧ u'.failedLoginAttempts = u.failedLoginAttempts + 1

/-- A wrong password for an unlocked account, refused: it is counted unless a transaction encloses
the request, or the account has no password.  A used token, refused: its session is revoked unless a
transaction encloses the request, or it had been. -/
theorem bookkeeping_kept (rt : Runtime) (faults : Statement → Bool) (s : Store)
    (request : PublicRequest) :
    (∀ email password io u, s.findByEmail rt email = some u → locked (some u) io.now = false →
      (u.passwordHash.isNone ∨ passwordMatches rt (some u) password = false) →
      ((intercept request (login rt email password io)).run faults ⟨s, false, false⟩).result =
        .error (.raised invalidCredentials) →
      (Counted u
          ((intercept request (login rt email password io)).run faults ⟨s, false, false⟩).connection.store ↔
        u.passwordHash.isSome ∧ ¬ request.Enclosed)) ∧
    ∀ r token session,
      s.tokens.rows.find? (fun t => t.tokenHash = rt.hashRefreshToken r.refreshToken) = some token →
      token.usedAt.isSome → s.sessions.find? token.sessionId = some session →
      ((intercept request (refresh rt r)).run faults ⟨s, false, false⟩).result =
        .error (.raised reuseDetected) →
      (Revoked ((intercept request (refresh rt r)).run faults ⟨s, false, false⟩).connection.store
          session.id ↔
        session.revokedAt.isSome ∨ ¬ request.Enclosed) := by
  refine ⟨?_, ?_⟩
  · intro email password io u hu hl hw h
    have hfind := find?_of_findByEmail hu
    by_cases hr : request.Enclosed
    · rw [enclosed_error hr h]
      simp [Counted, hfind, hr]
    · simp only [intercept, if_neg hr] at h ⊢
      have hrow := login_raised (c := ⟨s, false, false⟩) hu hw hl h
      by_cases hp : u.passwordHash.isSome = true
      · rw [if_pos hp] at hrow
        exact iff_of_true ⟨_, hrow, rfl⟩ ⟨hp, hr⟩
      · rw [if_neg hp] at hrow
        simp [Counted, hrow, hp]
  · intro r token session ht hu hs h
    have hid : session.id = token.sessionId := Table.key_of_find? hs
    rw [hid]
    by_cases hr : request.Enclosed
    · rw [enclosed_error hr h]
      simp [Revoked, hs, hr]
    · simp only [intercept, if_neg hr] at h ⊢
      exact iff_of_true (refresh_raised ht hu hs h) (.inr hr)

/-! ### A request that names an actor -/

def sampleRuntime : Runtime where
  lower := fun x => x
  verify hash password := hash = password
  dummyPasswordHash := "-"
  hashSecurityEmail := fun x => x
  hashAuthToken := fun x => x
  hashRefreshToken := fun x => x

def sampleUser : UserRow := { id := 1, email := "a@b.c", passwordHash := some "correct horse" }

def sampleSession : UserSession := { id := 2, userId := 1, lastActive := 0, expiresAt := 1000 }

def sampleToken : RefreshToken :=
  { id := 3, sessionId := 2, userId := 1, familyId := 2, tokenHash := "old", expiresAt := 1000
    usedAt := some 5 }

def sampleStore : Store where
  users := ⟨[sampleUser], by decide⟩
  sessions := ⟨[sampleSession], by decide⟩
  tokens := ⟨[sampleToken], by decide⟩

def sampleRotation : Rotation :=
  { refreshToken := "old", nextRefreshToken := "new", replacementId := 4, now := 10 }

/-- `?actorId=x` -/
def namesActor : PublicRequest := { query := { actorId := some "x" } }

theorem kept_sample :
    (Counted sampleUser ((intercept {} (login sampleRuntime "a@b.c" "guess" { now := 7 })).run healthy
        ⟨sampleStore, false, false⟩).connection.store ↔
      sampleUser.passwordHash.isSome ∧ ¬ PublicRequest.Enclosed {}) ∧
    (Revoked ((intercept {} (refresh sampleRuntime sampleRotation)).run healthy
        ⟨sampleStore, false, false⟩).connection.store sampleSession.id ↔
      sampleSession.revokedAt.isSome ∨ ¬ PublicRequest.Enclosed {}) :=
  ⟨(bookkeeping_kept sampleRuntime healthy sampleStore {}).1 "a@b.c" "guess" { now := 7 } sampleUser
      rfl rfl (.inr rfl) rfl,
    (bookkeeping_kept sampleRuntime healthy sampleStore {}).2 sampleRotation sampleToken sampleSession
      rfl rfl rfl rfl⟩

/-- With a query that names an actor both calls are refused and leave the rows as they were. -/
theorem rolled_back :
    ((intercept namesActor (login sampleRuntime "a@b.c" "guess" { now := 7 })).run healthy
        ⟨sampleStore, false, false⟩).result = .error (.raised invalidCredentials) ∧
    ¬ Counted sampleUser ((intercept namesActor (login sampleRuntime "a@b.c" "guess" { now := 7 })).run
        healthy ⟨sampleStore, false, false⟩).connection.store ∧
    ((intercept namesActor (refresh sampleRuntime sampleRotation)).run healthy
        ⟨sampleStore, false, false⟩).result = .error (.raised reuseDetected) ∧
    ¬ Revoked ((intercept namesActor (refresh sampleRuntime sampleRotation)).run healthy
        ⟨sampleStore, false, false⟩).connection.store sampleSession.id := by
  have henclosed : namesActor.Enclosed := by decide
  have hlogin : ((intercept namesActor (login sampleRuntime "a@b.c" "guess" { now := 7 })).run healthy
      ⟨sampleStore, false, false⟩).result = .error (.raised invalidCredentials) := by
    rw [intercept, if_pos henclosed]
    rfl
  have hrefresh : ((intercept namesActor (refresh sampleRuntime sampleRotation)).run healthy
      ⟨sampleStore, false, false⟩).result = .error (.raised reuseDetected) := by
    rw [intercept, if_pos henclosed]
    rfl
  refine ⟨hlogin, ?_, hrefresh, ?_⟩
  · rw [enclosed_error henclosed hlogin]
    rintro ⟨u, hu, h⟩
    cases hu
    cases h
  · rw [enclosed_error henclosed hrefresh]
    rintro ⟨x, hx, h⟩
    cases hx
    cases h

end CalmBoard.Bookkeeping
