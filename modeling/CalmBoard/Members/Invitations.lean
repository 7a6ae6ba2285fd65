import CalmBoard.Members.Repository
import CalmBoard.Lib.Fallible

/-!
# CalmBoard.Members.Invitations — one invitation and the calls that race for it

* `Env`: what the calls take from outside, the tokens and their hash among it.
* `Local`: where a call is, with what it has read and not committed.
* `move`: `resend`, `revoke`, `acceptInvitation` and `declineInvitation`, statement by statement.
-/

namespace CalmBoard.Members.Invitation

inductive InvitationStatus where
  | pending | accepted | revoked | declined
  deriving DecidableEq

structure InvitationRow where
  id : Uuid
  organizationId : Uuid
  workspaceId : Option Uuid := none
  email : String
  role : MembershipRole := .member
  status : InvitationStatus := .pending
  tokenHash : Option String := none
  tokenVersion : ℤ := 0
  expiresAt : Option Timestamptz := none
  acceptedAt : Option Timestamptz := none
  acceptedBy : Option Uuid := none
  revokedAt : Option Timestamptz := none
  declinedAt : Option Timestamptz := none
  lastSentAt : Option Timestamptz := none
  updatedAt : Timestamptz

structure UserRow where
  id : Uuid
  email : String

/-- What the calls take from outside: `toLowerCase`, the tokens `generateInvitationToken` returns
call by call, `hashInvitationToken`, the organization a token names, the ids `gen_random_uuid()`
returns, and `invitationLifetimeHours()` in milliseconds. -/
structure Env where
  lower : String → String
  token : ℕ → String
  hash : String → String
  tokenOrganizationId : String → Option Uuid
  uuid : ℕ → Uuid
  lifetime : ℤ

/-- The tables around one invitation of an organization; `generated` and `drawn` count the tokens
and the ids. -/
structure Store where
  invitation : InvitationRow
  memberships : Memberships
  users : Table UserRow UserRow.id
  workspaces : List Uuid
  generated : ℕ := 0
  drawn : ℕ := 0

inductive Call where
  | resend (workspaceId : Uuid) (actorId : Option Uuid) (invitationId : Uuid)
  | revoke (workspaceId : Uuid) (actorId : Option Uuid) (invitationId : Uuid)
  | accept (rawToken : String) (userId : Uuid)
  | decline (rawToken : String) (userId : Uuid)

/-- Where a call is.  `now` is the clock as the session read it when it locked the row. -/
inductive Local where
  | start (call : Call)
  /-- before `requireWorkspace` -/
  | workspace (call : Call)
  /-- before the statement that locks the invitation -/
  | select (call : Call)
  /-- the row is locked and may be closed or resent -/
  | locked (call : Call) (row : InvitationRow) (now : ℤ)
  /-- the user has the address of the invitation -/
  | identified (call : Call) (row : InvitationRow) (now : ℤ)
  /-- the user has no membership yet -/
  | outside (call : Call) (row : InvitationRow) (now : ℤ)
  /-- the insert met a membership -/
  | missed (call : Call) (row : InvitationRow) (now : ℤ)
  /-- the user has a membership, possibly one that is not committed -/
  | member (call : Call) (row : InvitationRow) (now : ℤ) (inserted : Option MembershipRow)
  /-- after the last statement -/
  | written (call : Call) (row : Option InvitationRow) (now : ℤ) (inserted : Option MembershipRow)
  | returned (call : Call) (result : Except RepoError Unit)

inductive Lock where
  | invitation
  | membership (userId : Uuid) (workspaceId : Option Uuid)
  deriving DecidableEq

/-- The session holds the row of the invitation. -/
def Local.holds : Local → Bool
  | .locked .. | .identified .. | .outside .. | .missed .. | .member .. | .written .. => true
  | _ => false

def Local.inserted : Local → Option MembershipRow
  | .member _ _ _ inserted | .written _ _ _ inserted => inserted
  | _ => none

/-- The row a session has written and not committed. -/
def Local.wrote : Local → Option InvitationRow
  | .written _ row .. => row
  | _ => none

def Local.locks (l : Local) : List Lock :=
  (if l.holds then [.invitation] else []) ++
    l.inserted.toList.map fun m => .membership m.userId m.workspaceId

def Local.call : Local → Call
  | .start call | .workspace call | .select call | .locked call .. | .identified call ..
  | .outside call .. | .missed call .. | .member call .. | .written call .. | .returned call _ => call

/-- The next statement of a session, with its clock and the row an unordered query returns, or the
failure of its transaction. -/
inductive Action where
  | next (now : ℤ) (pick : Option Uuid)
  | abort (e : RepoError)

variable (env : Env)

/-! ### Statements -/

def fail (call : Call) (s : Store) (e : RepoError) : Store × Local := (s, .returned call (.error e))

/-- `requireManager` of the calls that have one. -/
def begin (call : Call) (pick : Option Uuid) (s : Store) : Option (Store × Local) :=
  match call with
  | .resend workspaceId actorId _ =>
    (requireManager s.memberships workspaceId actorId pick).map fun
      | .ok _ => (s, .workspace call)
      | .error e => fail call s e
  | .revoke workspaceId actorId _ =>
    (requireManager s.memberships workspaceId actorId pick).map fun
      | .ok _ => (s, .select call)
      | .error e => fail call s e
  | .accept rawToken _ | .decline rawToken _ =>
    match env.tokenOrganizationId rawToken with
    | none => some (fail call s (.notFound "invitation"))
    | some _ => some (s, .select call)

/-- The conditions of `resend` and `revoke` on the row. -/
def Store.addressed (s : Store) (workspaceId invitationId : Uuid) : Bool :=
  s.invitation.id = invitationId && s.invitation.workspaceId = some workspaceId

/-- The conditions on a row that is looked up by its token. -/
def InvitationRow.named (row : InvitationRow) (rawToken : String) : Bool :=
  env.tokenOrganizationId rawToken = some row.organizationId &&
    row.tokenHash = some (env.hash rawToken)

def stillPending (call : Call) (s : Store) (now : ℤ) (message : String) : Store × Local :=
  if s.invitation.status = .pending then (s, .locked call s.invitation now)
  else fail call s (.conflict message)

/-- `!invitation.expiresAt || invitation.expiresAt <= new Date()` -/
def InvitationRow.expired (row : InvitationRow) (now : ℤ) : Bool :=
  row.expiresAt.all fun t => t.millis ≤ now

/-- `select … for update` with the checks that follow it; for `revoke` the conditional update. -/
def selectForUpdate (call : Call) (now : ℤ) (s : Store) : Store × Local :=
  match call with
  | .resend workspaceId _ invitationId =>
    if s.addressed workspaceId invitationId then
      stillPending call s now "Only pending invitations can be resent"
    else fail call s (.notFound "invitation")
  | .revoke workspaceId _ invitationId =>
    if s.addressed workspaceId invitationId && s.invitation.status = .pending then
      (s, .written call (some { s.invitation with
        status := .revoked, revokedAt := some (.ofMillis now), updatedAt := .ofMillis now }) now none)
    else fail call s (.notFound "pending invitation")
  | .accept rawToken _ =>
    if s.invitation.named env rawToken then
      if s.invitation.status = .pending && s.invitation.expired now then
        fail call s (.conflict "Invitation has expired and must be resent")
      else stillPending call s now "Invitation is no longer pending"
    else fail call s (.notFound "invitation")
  | .decline rawToken _ =>
    if s.invitation.named env rawToken then stillPending call s now "Invitation is no longer pending"
    else fail call s (.notFound "invitation")

/-- The user has the address of the invitation. -/
def isIntendedFor (users : Table UserRow UserRow.id) (row : InvitationRow) (userId : Uuid) : Bool :=
  (users.find? userId).any fun user => env.lower user.email = env.lower row.email

def identify (call : Call) (row : InvitationRow) (now : ℤ) (userId : Uuid) (s : Store) :
    Store × Local :=
  if isIntendedFor env s.users row userId then (s, .identified call row now)
  else
    fail call s (.denied "Invitation is not intended for the authenticated identity")

/-- The update of `resend`, with a new token. -/
def rotate (call : Call) (row : InvitationRow) (now : ℤ) (s : Store) : Store × Local :=
  let s' := { s with generated := s.generated + 1 }
  if s.invitation.id = row.id then
    (s', .written call (some { s.invitation with
      tokenHash := some (env.hash (env.token s.generated)), tokenVersion := row.tokenVersion + 1
      expiresAt := some (.ofMillis (now + env.lifetime)), lastSentAt := some (.ofMillis now)
      updatedAt := .ofMillis now }) now none)
  else fail call s' (.error "Invitation update did not return a row")

/-- A membership of the user in the place the invitation is for. -/
def joins (row : InvitationRow) (userId : Uuid) (m : MembershipRow) : Bool :=
  m.userId = userId && (m.workspaceId = none || m.workspaceId = row.workspaceId)

/-- The query for a membership of the user. -/
def existing (call : Call) (row : InvitationRow) (now : ℤ) (userId : Uuid) (s : Store) :
    Store × Local :=
  if s.memberships.rows.any (joins row userId) then (s, .member call row now none)
  else (s, .outside call row now)

/-- `insert … on conflict do nothing` -/
def insertMembership (call : Call) (row : InvitationRow) (now : ℤ) (userId : Uuid) (s : Store) :
    Store × Local :=
  let m : MembershipRow :=
    { id := env.uuid s.drawn, userId, workspaceId := row.workspaceId, role := row.role }
  let s' := { s with drawn := s.drawn + 1 }
  if s.memberships.rows.any fun x => x.id = m.id || (x.userId = userId && x.workspaceId = m.workspaceId)
  then (s', .missed call row now)
  else (s', .member call row now (some m))

/-- The query after an insert that did nothing. -/
def reselect (call : Call) (row : InvitationRow) (now : ℤ) (userId : Uuid) (s : Store) :
    Store × Local :=
  if s.memberships.rows.any fun m => m.userId = userId && m.workspaceId = row.workspaceId then
    (s, .member call row now none)
  else fail call s (.conflict "Membership could not be created")

/-- The conditional update that closes the invitation; its result is not looked at. -/
def close (call : Call) (row : InvitationRow) (now : ℤ) (inserted : Option MembershipRow)
    (f : InvitationRow → InvitationRow) (s : Store) : Store × Local :=
  if s.invitation.id = row.id && s.invitation.status = .pending then
    (s, .written call (some (f s.invitation)) now inserted)
  else (s, .written call none now inserted)

def accepted (userId : Uuid) (now : ℤ) (row : InvitationRow) : InvitationRow :=
  { row with
    status := .accepted, acceptedAt := some (.ofMillis now), acceptedBy := some userId
    updatedAt := .ofMillis now }

def declined (now : ℤ) (row : InvitationRow) : InvitationRow :=
  { row with status := .declined, declinedAt := some (.ofMillis now), updatedAt := .ofMillis now }

def commit (call : Call) (row : Option InvitationRow) (inserted : Option MembershipRow) (s : Store) :
    Option (Store × Local) := do
  let memberships ← match inserted with
    | none => some s.memberships
    | some m => s.memberships.insert? m
  return ({ s with invitation := row.getD s.invitation, memberships }, .returned call (.ok ()))

/-- The statement after a lock is held. -/
def proceed (now : ℤ) (s : Store) : Local → Option (Store × Local)
  | .locked (.resend w u k) row _ => some (rotate env (.resend w u k) row now s)
  | .locked (.accept t u) row read => some (identify env (.accept t u) row read u s)
  | .locked (.decline t u) row read => some (identify env (.decline t u) row read u s)
  | .identified (.accept t u) row read => some (existing (.accept t u) row read u s)
  | .identified (.decline t u) row read =>
    some (close (.decline t u) row read none (declined now) s)
  | .outside (.accept t u) row read => some (insertMembership env (.accept t u) row read u s)
  | .missed (.accept t u) row read => some (reselect (.accept t u) row read u s)
  | .member (.accept t u) row read inserted =>
    some (close (.accept t u) row read inserted (accepted u now) s)
  | _ => none

def move (a : Action) (s : Store) (l : Local) : Option (Store × Local) :=
  match l, a with
  | .returned .., _ => none
  | l, .abort e => some (fail l.call s e)
  | .start call, .next _ pick => begin env call pick s
  | .workspace call, .next .. =>
    match call with
    | .resend workspaceId .. =>
      if workspaceId ∈ s.workspaces then some (s, .select call)
      else some (fail call s (.notFound "workspace"))
    | _ => none
  | .select call, .next now _ => some (selectForUpdate env call now s)
  | .written call row _ inserted, .next .. => commit call row inserted s
  | l, .next now _ => proceed env now s l

def program : Sessions.Program Call Store Local Lock Action where
  start := .start
  locks := Local.locks
  conflict k k' := k = k'
  move := move env
  conflict_symm k k' := by simp [eq_comm]
  start_locks _ := rfl

end CalmBoard.Members.Invitation
