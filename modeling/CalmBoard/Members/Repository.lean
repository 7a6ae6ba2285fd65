import CalmBoard.Values
import CalmBoard.Lib.Table
import CalmBoard.Lib.Sessions

/-!
# CalmBoard.Members.Repository — memberships of one organization

* `visible`: the memberships a call may see.
* `requireManager`: who may manage them.
* `Role.move`: `updateRole`, statement by statement.
-/

namespace CalmBoard.Members

inductive MembershipRole where
  | owner | admin | manager | member | guest | viewer
  deriving DecidableEq

structure MembershipRow where
  id : Uuid
  userId : Uuid
  workspaceId : Option Uuid := none
  role : MembershipRole := .member
  status : Option String := some "active"

def MembershipRow.isOwner (m : MembershipRow) : Bool := m.role = .owner && m.status = some "active"

abbrev Memberships := Table MembershipRow MembershipRow.id

/-- `visibleMembershipScope` -/
def visible (workspaceId : Uuid) (m : MembershipRow) : Bool :=
  m.status = some "active" && (m.workspaceId = none || m.workspaceId = some workspaceId)

/-- The policy `memberships_select`. -/
def sees (workspaceId : Uuid) (actorId : Option Uuid) (m : MembershipRow) : Bool :=
  m.workspaceId = none || m.workspaceId = some workspaceId || actorId = some m.userId

/-- `select … limit 1` without an order: any row that matches, and none when no row does. -/
def selectOne (s : Memberships) (p : MembershipRow → Bool) (pick : Option Uuid) :
    Option (Option MembershipRow) :=
  match pick with
  | none => if s.rows.any p then none else some none
  | some id => ((s.find? id).filter p).map some

def requireActorMembership (s : Memberships) (workspaceId : Uuid) (actorId pick : Option Uuid) :
    Option (Except RepoError MembershipRow) :=
  match actorId with
  | none => some (.error (.denied "actorId is required for membership access"))
  | some actorId =>
    (selectOne s (fun m => m.userId = actorId && visible workspaceId m) pick).map fun found =>
      match found with
      | none => .error (.denied "permission denied in the current tenant")
      | some m => .ok m

def managerRoles : List MembershipRole := [.owner, .admin]

def requireManager (s : Memberships) (workspaceId : Uuid) (actorId pick : Option Uuid) :
    Option (Except RepoError MembershipRow) :=
  (requireActorMembership s workspaceId actorId pick).map fun found => do
    let m ← found
    if m.role ∉ managerRoles then
      throw (.denied "membership management requires owner or admin")
    return m

/-- What a session does next: its next statement, with the row an unordered query returns, or its
transaction fails. -/
inductive Action where
  | next (pick : Option Uuid)
  | abort (e : RepoError)

/-! ### updateRole -/

namespace Role

structure Call where
  workspaceId : Uuid
  actorId : Option Uuid
  membershipId : Uuid
  role : MembershipRole

/-- Where a call of `updateRole` is. -/
inductive Local where
  /-- before `requireManager` -/
  | actor (call : Call)
  /-- before the target is read -/
  | target (call : Call) (actor : MembershipRow)
  /-- before the owners are read -/
  | owners (call : Call) (target : MembershipRow)
  /-- before the update -/
  | update (call : Call)
  /-- after the update, before the commit -/
  | written (call : Call) (row : MembershipRow)
  | returned (result : Except RepoError MembershipRow)

/-- The locks of an update: the row, and the usage limits its trigger refreshes. -/
inductive Lock where
  | membership (id : Uuid)
  | usageLimits
  deriving DecidableEq

def Local.locks : Local → List Lock
  | .written _ row => [.membership row.id, .usageLimits]
  | _ => []

/-- The checks between the target and the next statement. -/
def checkTarget (call : Call) (actor target : MembershipRow) : Except RepoError Local := do
  if some target.userId = call.actorId then
    throw (.denied "members cannot change their own role")
  if actor.role ≠ .owner ∧ (target.role = .owner ∨ call.role = .owner) then
    throw (.denied "only an owner can manage the owner role")
  if target.role = .owner ∧ call.role ≠ .owner then return .owners call target
  return .update call

/-- The local state after a check: an exception ends the call. -/
def settle : Except RepoError Local → Local
  | .ok l => l
  | .error e => .returned (.error e)

/-- The membership a call is about, where its scope shows it. -/
def Call.target? (call : Call) (s : Memberships) : Option MembershipRow :=
  (s.find? call.membershipId).filter (visible call.workspaceId)

/-- The owners a call can see, other than the target. -/
def otherOwner (call : Call) (target m : MembershipRow) : Bool :=
  m.isOwner && sees call.workspaceId call.actorId m && m.userId ≠ target.userId

def move (a : Action) (s : Memberships) (l : Local) : Option (Memberships × Local) :=
  match l, a with
  | .returned _, _ => none
  | _, .abort e => some (s, .returned (.error e))
  | .actor call, .next pick =>
    (requireManager s call.workspaceId call.actorId pick).map fun found =>
      (s, settle (found.map (Local.target call)))
  | .target call actor, .next _ =>
    match call.target? s with
    | none => some (s, .returned (.error (.notFound "membership")))
    | some target => some (s, settle (checkTarget call actor target))
  | .owners call target, .next _ =>
    if s.rows.any (otherOwner call target) then some (s, .update call)
    else
      some (s, .returned
        (.error (.conflict "The organization must keep at least one active owner")))
  | .update call, .next _ =>
    match call.target? s with
    | none => some (s, .returned (.error (.notFound "membership")))
    | some row => some (s, .written call { row with role := call.role })
  | .written _ row, .next _ => some (s.put row, .returned (.ok row))

def program : Sessions.Program Call Memberships Local Lock Action where
  start := .actor
  locks := Local.locks
  conflict k k' := k = k'
  move := move
  conflict_symm k k' := by simp [eq_comm]
  start_locks _ := rfl

end Role

end CalmBoard.Members
