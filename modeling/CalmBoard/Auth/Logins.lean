import CalmBoard.Values
import CalmBoard.Lib.Table
import CalmBoard.Lib.Sessions

/-!
# CalmBoard.Auth.Logins — logins, password resets and account deletion

A login creates a session at once, or issues a challenge that a second request completes.

* `issue`, `insertSession`: the statements that create tokens and sessions.
* `Transaction`: what is written to users under their row locks.
* `move`: `login`, `completeMfaLogin`, `forgotPassword`, `resetPassword`, and the worker that
  deletes accounts, statement by statement.
-/

namespace CalmBoard.Logins

open Sessions

inductive LifecycleState where
  | active | deletionPending | authDisabled | anonymized
  deriving DecidableEq

/-- `["active", "deletion_pending"].includes(state)` -/
def LifecycleState.available : LifecycleState → Bool
  | .active | .deletionPending => true
  | .authDisabled | .anonymized => false

/-- `users`; times are in milliseconds.  `resets` counts the password resets. -/
structure UserRow where
  id : Uuid
  email : String
  passwordHash : Option String
  lifecycleState : LifecycleState := .active
  failedLoginAttempts : ℕ := 0
  lockedUntil : Option ℤ := none
  lastLoginAt : Option ℤ := none
  passwordChangedAt : Option ℤ := none
  resets : ℕ := 0

inductive Purpose where
  | passwordReset | mfaLogin
  deriving DecidableEq

/-- `tokenTtl` -/
def Purpose.ttl : Purpose → ℤ
  | .passwordReset => 30 * 60 * 1000
  | .mfaLogin => 5 * 60 * 1000

/-- `auth_tokens`; `resets` is the number of resets of its user when it was issued. -/
structure AuthToken where
  tokenHash : String
  userId : Uuid
  purpose : Purpose
  expiresAt : ℤ
  consumedAt : Option ℤ := none
  invalidatedAt : Option ℤ := none
  resets : ℕ

inductive DeletionStatus where
  | scheduled | processing | retryWait | completed | failed | canceled
  deriving DecidableEq

/-- `account_deletion_requests`; `dueAt` is `scheduled_for`, `retry_at` of a request that waits, or
`heartbeat_at` of one that is processed. -/
structure DeletionRequest where
  id : Uuid
  userId : Uuid
  status : DeletionStatus
  dueAt : ℤ
  claimToken : Option Uuid := none

structure UserSession where
  id : Uuid
  userId : Uuid
  revokedAt : Option ℤ := none

/-- A session as it was created: the resets of its user when the challenge was issued, if there was
one, and the user at that time. -/
structure Created where
  userId : Uuid
  challenge : Option ℕ
  resets : ℕ
  lifecycleState : LifecycleState

structure Store where
  users : Table UserRow UserRow.id
  /-- users with an enabled factor -/
  mfaUsers : List Uuid
  tokens : Table AuthToken AuthToken.tokenHash
  sessions : Table UserSession UserSession.id
  requests : Table DeletionRequest DeletionRequest.id
  created : List Created

def Store.empty : Store :=
  { users := Table.empty, mfaUsers := [], tokens := Table.empty, sessions := Table.empty
    requests := Table.empty, created := [] }

/-! ### Tokens -/

/-- Not consumed, not invalidated, not expired. -/
def AuthToken.usable (purpose : Purpose) (now : ℤ) (t : AuthToken) : Bool :=
  t.purpose = purpose && t.consumedAt.isNone && t.invalidatedAt.isNone && now < t.expiresAt

def AuthToken.invalidate (now : ℤ) (t : AuthToken) : AuthToken := { t with invalidatedAt := some now }

@[simp] theorem AuthToken.invalidate_hash (now : ℤ) (t : AuthToken) :
    (t.invalidate now).tokenHash = t.tokenHash := rfl

def AuthToken.consume (now : ℤ) (t : AuthToken) : AuthToken := { t with consumedAt := some now }

@[simp] theorem AuthToken.consume_hash (now : ℤ) (t : AuthToken) :
    (t.consume now).tokenHash = t.tokenHash := rfl

/-- A new token; the earlier ones of its purpose are invalidated. -/
def issue (userId : Uuid) (purpose : Purpose) (tokenHash : String) (now : ℤ) (s : Store) :
    Option Store :=
  let resets := ((s.users.find? userId).map UserRow.resets).getD 0
  ((s.tokens.update (fun t => t.userId = userId && t.purpose = purpose && t.consumedAt.isNone &&
      t.invalidatedAt.isNone) (AuthToken.invalidate now) (AuthToken.invalidate_hash now)).insert?
    { tokenHash, userId, purpose, expiresAt := now + purpose.ttl, resets }).map
      fun tokens => { s with tokens }

/-- `findMfaChallenge`, and the condition of `resetPassword`. -/
def usableToken (tokenHash : String) (purpose : Purpose) (now : ℤ) (s : Store) : Option AuthToken :=
  (s.tokens.find? tokenHash).filter (AuthToken.usable purpose now)

def consumeToken (tokenHash : String) (now : ℤ) (s : Store) : Store :=
  { s with
    tokens := s.tokens.update (fun t => t.tokenHash = tokenHash) (AuthToken.consume now)
      (AuthToken.consume_hash now) }

/-- The session of `create`; there is no user without a row. -/
def insertSession (userId : Uuid) (challenge : Option ℕ) (id : Uuid) (s : Store) : Option Store := do
  let user ← s.users.find? userId
  let sessions ← s.sessions.insert? { id, userId }
  return { s with
    sessions
    created := s.created ++ [{ userId, challenge, resets := user.resets
                               lifecycleState := user.lifecycleState }] }

/-! ### Users -/

/-- The wait after so many failures. -/
def lockDuration (failures : ℕ) : Option ℤ :=
  if 9 ≤ failures then some (24 * 60 * 60000)
  else if failures = 8 then some (60 * 60000)
  else if failures = 7 then some (15 * 60000)
  else if failures = 6 then some (5 * 60000)
  else if failures = 5 then some 60000
  else none

def UserRow.loginFailure (now : ℤ) (u : UserRow) : UserRow :=
  { u with
    failedLoginAttempts := u.failedLoginAttempts + 1
    lockedUntil := (lockDuration (u.failedLoginAttempts + 1)).map (now + ·) }

def UserRow.loginSuccess (now : ℤ) (u : UserRow) : UserRow :=
  { u with failedLoginAttempts := 0, lockedUntil := none, lastLoginAt := some now }

theorem UserRow.loginFailure_id (now : ℤ) (u : UserRow) : (u.loginFailure now).id = u.id := rfl

theorem UserRow.loginSuccess_id (now : ℤ) (u : UserRow) : (u.loginSuccess now).id = u.id := rfl

def UserRow.resetPassword (passwordHash : String) (now : ℤ) (u : UserRow) : UserRow :=
  { u with
    passwordHash := some passwordHash, passwordChangedAt := some now
    failedLoginAttempts := 0, lockedUntil := none, resets := u.resets + 1 }

def UserRow.enter (state : LifecycleState) (u : UserRow) : UserRow :=
  { u with lifecycleState := state }

/-- `lifecycle_state in ('deletion_pending', 'auth_disabled')` -/
def UserRow.disable (u : UserRow) : UserRow :=
  match u.lifecycleState with
  | .deletionPending | .authDisabled => u.enter .authDisabled
  | .active | .anonymized => u

def UserRow.anonymize (u : UserRow) : UserRow :=
  { u with
    lifecycleState := .anonymized, email := s!"deleted+{u.id}@users.invalid", passwordHash := none
    passwordChangedAt := none, failedLoginAttempts := 0, lockedUntil := none }

def DeletionRequest.enter (status : DeletionStatus) (claimToken : Option Uuid) (now : ℤ)
    (r : DeletionRequest) : DeletionRequest :=
  { r with status, claimToken, dueAt := now }

def UserSession.revoke (now : ℤ) (x : UserSession) : UserSession := { x with revokedAt := some now }

/-- A transaction that has locked the row of a user. -/
inductive Transaction where
  | loginFailure (userId : Uuid) (now : ℤ)
  | loginSuccess (userId : Uuid) (challenge : Option ℕ) (now : ℤ)
  /-- the sessions that it revokes are those it has found -/
  | resetPassword (userId : Uuid) (tokenHash passwordHash : String) (sessions : List Uuid) (now : ℤ)
  | schedule (userId requestId : Uuid) (scheduledFor : ℤ)
  | cancel (userId requestId : Uuid) (now : ℤ)
  | claimDeletion (userId requestId claimToken : Uuid) (now : ℤ)
  | anonymize (userId requestId : Uuid) (now : ℤ)

inductive Lock where
  | user (id : Uuid)
  | token (tokenHash : String)
  | request (id : Uuid)
  deriving DecidableEq

def Transaction.locks : Transaction → List Lock
  | .loginFailure u _ | .loginSuccess u _ _ | .schedule u _ _ => [.user u]
  | .resetPassword u tokenHash _ _ _ => [.token tokenHash, .user u]
  | .cancel u r _ | .claimDeletion u r _ _ | .anonymize u r _ => [.request r, .user u]

def Transaction.write : Transaction → UserRow → UserRow
  | .loginFailure _ now => UserRow.loginFailure now
  | .loginSuccess _ _ now => UserRow.loginSuccess now
  | .resetPassword _ _ passwordHash _ now => UserRow.resetPassword passwordHash now
  | .schedule .. => UserRow.enter .deletionPending
  | .cancel .. => UserRow.enter .active
  | .claimDeletion .. => UserRow.disable
  | .anonymize .. => UserRow.anonymize

def Transaction.userId : Transaction → Uuid
  | .loginFailure u _ | .loginSuccess u _ _ | .resetPassword u _ _ _ _ | .schedule u _ _
  | .cancel u _ _ | .claimDeletion u _ _ _ | .anonymize u _ _ => u

theorem Transaction.write_id (t : Transaction) (u : UserRow) : (t.write u).id = u.id := by
  cases t with
  | claimDeletion =>
    show u.disable.id = u.id
    unfold UserRow.disable
    split <;> rfl
  | loginFailure | loginSuccess | resetPassword | schedule | cancel | anonymize => rfl

def setRequest (id : Uuid) (status : DeletionStatus) (claimToken : Option Uuid) (now : ℤ)
    (s : Store) : Store :=
  { s with
    requests := s.requests.update (fun r => r.id = id)
      (DeletionRequest.enter status claimToken now) fun _ => rfl }

/-- What the transaction writes elsewhere; `none` where a new row is refused. -/
def Transaction.rest (t : Transaction) (s : Store) : Option Store :=
  match t with
  | .loginFailure .. | .loginSuccess .. => some s
  | .resetPassword _ tokenHash _ found now =>
    some { consumeToken tokenHash now s with
      sessions := s.sessions.update (fun x => found.contains x.id) (UserSession.revoke now)
        fun _ => rfl }
  | .schedule userId requestId scheduledFor =>
    (s.requests.insert? { id := requestId, userId, status := .scheduled
                          dueAt := scheduledFor }).map fun requests => { s with requests }
  | .cancel _ requestId now => some (setRequest requestId .canceled none now s)
  | .claimDeletion _ requestId claimToken now =>
    some (setRequest requestId .processing (some claimToken) now s)
  | .anonymize _ requestId now => some (setRequest requestId .completed none now s)

def Transaction.commit (t : Transaction) (s : Store) : Option Store :=
  (t.rest s).map fun s' =>
    { s' with users := s'.users.update (fun u => u.id = t.userId) t.write t.write_id }

/-- `purgeAccountSecurity` -/
def purgeAccountSecurity (userId : Uuid) (s : Store) : Store :=
  { s with
    sessions := s.sessions.remove fun x => x.userId = userId
    tokens := s.tokens.remove fun t => t.userId = userId
    mfaUsers := s.mfaUsers.filter (· ≠ userId) }

/-! ### Requests -/

inductive Call where
  | login (email password : String)
  | completeMfaLogin (tokenHash : String)
  | forgotPassword (email : String)
  | resetPassword (tokenHash passwordHash : String)
  | schedule (userId : Uuid) (scheduledFor : ℤ)
  | cancel (userId : Uuid)
  | claimAccountDeletion (claimTimeoutMinutes : ℕ)
  | purge (userId : Uuid)
  | anonymize (requestId claimToken : Uuid)
  | failOrRetry (requestId claimToken : Uuid) (terminal : Bool) (retryAt : ℤ)
  | retryFailed (requestId : Uuid)
  | register (user : UserRow)
  | setMfa (userId : Uuid) (enabled : Bool)

/-- Where a request is; `challenge` is what it knows of the resets when its challenge was issued. -/
inductive Local where
  | called (call : Call)
  /-- the password is right, and the user available -/
  | admitted (userId : Uuid)
  | challenging (userId : Uuid)
  /-- a challenge has been found -/
  | challenged (tokenHash : String) (userId : Uuid)
  /-- the code is right -/
  | consuming (tokenHash : String) (userId : Uuid)
  | consumed (userId : Uuid) (challenge : ℕ)
  | succeeding (userId : Uuid) (challenge : Option ℕ)
  | creating (userId : Uuid) (challenge : Option ℕ)
  /-- the user has been found -/
  | inserting (userId : Uuid) (challenge : Option ℕ)
  /-- every statement of the transaction has run -/
  | holding (t : Transaction)
  | stopped

def Local.locks : Local → List Lock
  | .holding t => t.locks
  | _ => []

/-- What a statement takes from outside: the time, the ids and tokens of new rows, whether the code
of a factor is right, and the requests that are locked. -/
structure Io where
  now : ℤ := 0
  id : Uuid := 0
  tokenHash : String := ""
  verified : Bool := true
  skipped : List Uuid := []

inductive Action where
  | next (io : Io)
  | crash

/-- `findByEmail`; addresses are stored in lower case. -/
def findByEmail (lower : String → String) (email : String) (s : Store) : Option UserRow :=
  s.users.rows.find? fun u => u.email = lower email

/-- The first statement of `login`. -/
def checkPassword (lower : String → String) (verify : String → String → Bool)
    (email password : String) (now : ℤ) (s : Store) : Local :=
  match findByEmail lower email s with
  | none => .stopped
  | some u =>
    let locked := u.lockedUntil.any fun t => now < t
    if !(u.passwordHash.any fun hash => verify hash password) then
      if u.passwordHash.isSome && !locked then .holding (.loginFailure u.id now) else .stopped
    else if !u.lifecycleState.available then .stopped
    else if locked then .stopped
    else .admitted u.id

def openSessions (userId : Uuid) (s : Store) : List Uuid :=
  (s.sessions.rows.filter fun x => x.userId = userId && x.revokedAt.isNone).map UserSession.id

/-- The request that the worker takes. -/
def dueRequest (claimTimeoutMinutes : ℕ) (now : ℤ) (skipped : List Uuid) (s : Store) :
    Option DeletionRequest :=
  s.requests.rows.find? fun r =>
    !skipped.contains r.id &&
      ((r.status = .scheduled && r.dueAt ≤ now) || (r.status = .retryWait && r.dueAt ≤ now) ||
        (r.status = .processing && r.dueAt < now - claimTimeoutMinutes * 60000))

def claimed (requestId claimToken : Uuid) (s : Store) : Option DeletionRequest :=
  (s.requests.find? requestId).filter fun r =>
    r.status = .processing && r.claimToken = some claimToken

/-- The first statement of a request. -/
def start (lower : String → String) (verify : String → String → Bool) (io : Io) (s : Store) :
    Call → Option (Store × Local)
  | .login email password => some (s, checkPassword lower verify email password io.now s)
  | .completeMfaLogin tokenHash =>
    match usableToken tokenHash .mfaLogin io.now s with
    | none => some (s, .stopped)
    | some t => some (s, .challenged tokenHash t.userId)
  | .forgotPassword email =>
    match (findByEmail lower email s).filter fun u => u.passwordHash.isSome with
    | none => some (s, .stopped)
    | some u => (issue u.id .passwordReset io.tokenHash io.now s).map fun s' => (s', .stopped)
  | .resetPassword tokenHash passwordHash =>
    match usableToken tokenHash .passwordReset io.now s with
    | none => some (s, .stopped)
    | some t =>
      some (s, .holding (.resetPassword t.userId tokenHash passwordHash (openSessions t.userId s)
        io.now))
  | .schedule userId scheduledFor =>
    match (s.users.find? userId).filter fun u => u.lifecycleState = .active with
    | none => some (s, .stopped)
    | some u => some (s, .holding (.schedule u.id io.id scheduledFor))
  | .cancel userId =>
    match s.requests.rows.find? fun r => r.userId = userId && r.status = .scheduled with
    | none => some (s, .stopped)
    | some r => some (s, .holding (.cancel userId r.id io.now))
  | .claimAccountDeletion claimTimeoutMinutes =>
    match dueRequest claimTimeoutMinutes io.now io.skipped s with
    | none => some (s, .stopped)
    | some r => some (s, .holding (.claimDeletion r.userId r.id io.id io.now))
  | .purge userId => some (purgeAccountSecurity userId s, .stopped)
  | .anonymize requestId claimToken =>
    match claimed requestId claimToken s with
    | none => some (s, .stopped)
    | some r => some (s, .holding (.anonymize r.userId r.id io.now))
  | .failOrRetry requestId claimToken terminal retryAt =>
    match claimed requestId claimToken s with
    | none => some (s, .stopped)
    | some r =>
      some (setRequest r.id (if terminal then .failed else .retryWait) none retryAt s, .stopped)
  | .retryFailed requestId =>
    match (s.requests.find? requestId).filter fun r => r.status = .failed with
    | none => some (s, .stopped)
    | some r => some (setRequest r.id .retryWait none io.now s, .stopped)
  | .register user =>
    (s.users.insert? { user with lifecycleState := .active, resets := 0 }).map
      fun users => ({ s with users }, .stopped)
  | .setMfa userId enabled =>
    some ({ s with mfaUsers := if enabled then userId :: s.mfaUsers
                               else s.mfaUsers.filter (· ≠ userId) }, .stopped)

/-- Where a request goes on after a transaction. -/
def Transaction.next : Transaction → Local
  | .loginSuccess u challenge _ => .creating u challenge
  | _ => .stopped

/-- The next statement of a request. -/
def proceed (lower : String → String) (verify : String → String → Bool) (io : Io) (s : Store) :
    Local → Option (Store × Local)
  | .called call => start lower verify io s call
  | .admitted u => some (s, if s.mfaUsers.contains u then .challenging u else .succeeding u none)
  | .challenging u => (issue u .mfaLogin io.tokenHash io.now s).map fun s' => (s', .stopped)
  | .challenged tokenHash u => some (s, if io.verified then .consuming tokenHash u else .stopped)
  | .consuming tokenHash u =>
    match (usableToken tokenHash .mfaLogin io.now s).filter fun t => t.userId = u with
    | none => some (s, .stopped)
    | some t => some (consumeToken tokenHash io.now s, .consumed u t.resets)
  | .consumed u challenge =>
    some (s, if (s.users.find? u).isSome then .succeeding u (some challenge) else .stopped)
  | .succeeding u challenge => some (s, .holding (.loginSuccess u challenge io.now))
  | .creating u challenge =>
    some (s, if (s.users.find? u).isSome then .inserting u challenge else .stopped)
  | .inserting u challenge =>
    (insertSession u challenge io.id s).map fun s' => (s', .stopped)
  | .holding t => (t.commit s).map fun s' => (s', t.next)
  | .stopped => none

def move (lower : String → String) (verify : String → String → Bool) (a : Action) (s : Store)
    (l : Local) : Option (Store × Local) :=
  match a with
  | .crash => some (s, .stopped)
  | .next io => proceed lower verify io s l

def program (lower : String → String) (verify : String → String → Bool) :
    Program Call Store Local Lock Action where
  start := .called
  locks := Local.locks
  conflict k k' := k = k'
  move := move lower verify
  conflict_symm k k' := by simp [eq_comm]
  start_locks _ := rfl

end CalmBoard.Logins
