import CalmBoard.Values
import CalmBoard.Lib.Table
import CalmBoard.Lib.Runs

/-!
# CalmBoard.Usage.Limits — plans, usage limits and the triggers that enforce them

Projects, tasks and attachments are counted by triggers of whole statements, which see the rows
before and after; memberships by a trigger of every row.

* `Write`, `Session`: a statement on one table, under the row-level security of its session.
* `applyOrganizationUsageDelta`, `enforceInsert`, `enforceDelete`, `enforceUpdate`: the counters.
* `refreshMembershipUsageLimit`: the seats.
* `syncCurrentSubscriptionProjection`, `syncSubscriptionPlanUsageLimits`: where limits come from.
-/

namespace CalmBoard.Usage

inductive Resource where
  | seats | projects | tasks | storage
  deriving DecidableEq

inductive OrgPlan where
  | free | starter | team | business | enterprise
  deriving DecidableEq

inductive UsageError where
  /-- `usage limit exceeded` -/
  | limitExceeded (resource : Resource) (current limit : ℤ)
  /-- `Usage limits are not configured for organization …` -/
  | notConfigured (organizationId : Uuid)
  /-- any other exception or violated constraint -/
  | database (reason : String)
  deriving DecidableEq

/-! ### Rows -/

structure ProjectRow where
  id : Uuid
  organizationId : Uuid
  workspaceId : Uuid
  deletedAt : Option Timestamptz := none

structure TaskRow where
  id : Uuid
  organizationId : Uuid
  workspaceId : Uuid
  deletedAt : Option Timestamptz := none

/-- `attachments`; `file_size` counts bytes. -/
structure AttachmentRow where
  id : Uuid
  organizationId : Uuid
  workspaceId : Uuid
  fileSize : ℕ
  deletedAt : Option Timestamptz := none

structure MembershipRow where
  id : Uuid
  userId : Uuid
  organizationId : Uuid
  workspaceId : Option Uuid := none
  status : Option String := some "active"

/-- `subscription_plans` -/
structure PlanRow where
  id : Uuid
  key : OrgPlan
  minSeats : ℤ := 1
  maxSeats : ℤ
  maxProjects : ℤ
  maxTasks : ℤ
  maxStorageMb : ℤ
  isActive : Bool := true

structure SubscriptionRow where
  id : Uuid
  organizationId : Uuid
  planId : Uuid
  seats : ℤ := 1
  endedAt : Option Timestamptz := none

/-- `usage_limits` -/
structure LimitRow where
  organizationId : Uuid
  maxSeats : ℤ
  maxProjects : ℤ
  maxTasks : ℤ
  maxStorageMb : ℤ
  currentSeats : ℤ := 0
  currentProjects : ℤ := 0
  currentTasks : ℤ := 0
  currentStorageBytes : ℤ := 0

/-- The columns row-level security reads. -/
class TenantRow (ρ : Type) where
  id : ρ → Uuid
  organizationId : ρ → Uuid
  workspaceId : ρ → Option Uuid

/-- A table whose statements are counted: what an active row counts for. -/
class CountedRow (ρ : Type) extends TenantRow ρ where
  active : ρ → Bool
  size : ρ → ℕ

instance : CountedRow ProjectRow where
  id := ProjectRow.id
  organizationId := ProjectRow.organizationId
  workspaceId p := some p.workspaceId
  active p := p.deletedAt.isNone
  size _ := 1

instance : CountedRow TaskRow where
  id := TaskRow.id
  organizationId := TaskRow.organizationId
  workspaceId t := some t.workspaceId
  active t := t.deletedAt.isNone
  size _ := 1

instance : CountedRow AttachmentRow where
  id := AttachmentRow.id
  organizationId := AttachmentRow.organizationId
  workspaceId a := some a.workspaceId
  active a := a.deletedAt.isNone
  size := AttachmentRow.fileSize

instance : TenantRow MembershipRow where
  id := MembershipRow.id
  organizationId := MembershipRow.organizationId
  workspaceId := MembershipRow.workspaceId

structure Store where
  plans : Table PlanRow PlanRow.id
  subscriptions : Table SubscriptionRow SubscriptionRow.id
  limits : Table LimitRow LimitRow.organizationId
  projects : Table ProjectRow TenantRow.id
  tasks : Table TaskRow TenantRow.id
  attachments : Table AttachmentRow TenantRow.id
  memberships : Table MembershipRow TenantRow.id

/-! ### Statements -/

/-- The settings `app.organization_id`, `app.workspace_id` and `app.actor_id` of a connection. -/
structure Session where
  organizationId : Uuid
  workspaceId : Option Uuid := none
  actorId : Option Uuid := none

/-- `app_tenant_matches`; `allow` lets rows pass that belong to no workspace. -/
def Session.tenantMatches (session : Session) (allow : Bool) {ρ : Type} [TenantRow ρ] (r : ρ) : Bool :=
  TenantRow.organizationId r = session.organizationId ∧
    (session.workspaceId = none ∨ TenantRow.workspaceId r = session.workspaceId ∨
      (allow = true ∧ TenantRow.workspaceId r = none))

/-- A statement: new rows, ids to delete, or rows that replace the ones with their ids. -/
inductive Write (ρ : Type) where
  | insert (rows : List ρ)
  | delete (ids : List Uuid)
  | update (rows : List ρ)

section Write

variable {ρ : Type} [TenantRow ρ] (session : Session) (allow : Bool)

abbrev Rows (ρ : Type) [TenantRow ρ] : Type := Table ρ (TenantRow.id : ρ → Uuid)

def checkRows (rows : List ρ) : Except UsageError Unit :=
  if rows.all fun r => session.tenantMatches allow r then .ok ()
  else .error (.database "new row violates row-level security policy")

def insertRow (T : Rows ρ) (r : ρ) : Except UsageError (Rows ρ) :=
  match T.insert? r with
  | some T => .ok T
  | none => .error (.database "duplicate key value violates unique constraint")

/-- The new contents of a row. -/
def replacement (rows : List ρ) (r : ρ) : ρ :=
  (rows.find? fun new => TenantRow.id new = TenantRow.id r).getD r

theorem id_replacement (rows : List ρ) (r : ρ) :
    TenantRow.id (replacement rows r) = TenantRow.id r := by
  unfold replacement
  cases h : rows.find? fun new => TenantRow.id new = TenantRow.id r with
  | none => rfl
  | some new => simpa using List.find?_some h

/-- The table after a statement, with the rows it took away and the rows it put there. -/
def Write.run (T : Rows ρ) : Write ρ → Except UsageError (Rows ρ × List ρ × List ρ)
  | .insert rows => do
    checkRows session allow rows
    let T ← rows.foldlM insertRow T
    return (T, [], rows)
  | .delete ids =>
    let selected := fun r => TenantRow.id r ∈ ids ∧ session.tenantMatches allow r = true
    return (T.remove fun r => selected r, T.rows.filter fun r => selected r, [])
  | .update rows => do
    let selected := fun r =>
      TenantRow.id r ∈ rows.map TenantRow.id ∧ session.tenantMatches allow r = true
    let old := T.rows.filter fun r => selected r
    let new := old.map (replacement rows)
    checkRows session allow new
    return (T.update (fun r => selected r) (replacement rows) (id_replacement rows), old, new)

end Write

/-! ### Counters -/

def LimitRow.current (l : LimitRow) : Resource → ℤ
  | .seats => l.currentSeats
  | .projects => l.currentProjects
  | .tasks => l.currentTasks
  | .storage => l.currentStorageBytes

def LimitRow.configured (l : LimitRow) : Resource → ℤ
  | .seats => l.maxSeats
  | .projects => l.maxProjects
  | .tasks => l.maxTasks
  | .storage => l.maxStorageMb * 1024 * 1024

/-- The `CASE` expressions of the update. -/
def LimitRow.add (l : LimitRow) (resource : Resource) (delta : ℤ) : LimitRow :=
  { l with
    currentProjects := l.currentProjects + if resource = .projects then delta else 0
    currentTasks := l.currentTasks + if resource = .tasks then delta else 0
    currentStorageBytes := l.currentStorageBytes + if resource = .storage then delta else 0 }

abbrev Limits := Table LimitRow LimitRow.organizationId

/-- `usage_limits_current_nonnegative_check` -/
def LimitRow.nonnegative (l : LimitRow) : Bool :=
  0 ≤ l.currentSeats ∧ 0 ≤ l.currentProjects ∧ 0 ≤ l.currentTasks ∧ 0 ≤ l.currentStorageBytes

def applyOrganizationUsageDelta (limits : Limits) (organizationId : Uuid) (resource : Resource)
    (delta : ℤ) : Except UsageError Limits :=
  if delta = 0 then .ok limits
  else if resource = .seats then throw (.database "Unsupported usage resource seats")
  else
    match limits.find? organizationId with
    | none => throw (.notConfigured organizationId)
    | some before =>
      let row := before.add resource delta
      if !row.nonnegative then throw (.database "usage_limits_current_nonnegative_check")
      else if row.current resource > row.configured resource then
        throw (.limitExceeded resource (row.current resource) (row.configured resource))
      else .ok (limits.put row)

/-- `GROUP BY organization_id ORDER BY organization_id` -/
def grouped (changes : List (Uuid × ℤ)) : List (Uuid × ℤ) :=
  ((changes.map Prod.fst).dedup.insertionSort (· ≤ ·)).map fun organizationId =>
    (organizationId, ((changes.filter fun c => c.1 = organizationId).map Prod.snd).sum)

section Counted

variable {ρ : Type} [CountedRow ρ] (resource : Resource) (limits : Limits)

/-- The active rows of a transition table with what they count for. -/
def countRows (sign : ℤ) (rows : List ρ) : List (Uuid × ℤ) :=
  (rows.filter fun r => CountedRow.active r).map fun r =>
    (TenantRow.organizationId r, sign * (CountedRow.size r : ℤ))

def applyChanges (changes : List (Uuid × ℤ)) : Except UsageError Limits :=
  changes.foldlM (fun limits c => applyOrganizationUsageDelta limits c.1 resource c.2) limits

/-- `enforce_project_usage_insert` and its siblings for tasks and attachments -/
def enforceInsert (new : List ρ) : Except UsageError Limits :=
  applyChanges resource limits (grouped (countRows 1 new))

/-- `enforce_project_usage_delete` and its siblings -/
def enforceDelete (old : List ρ) : Except UsageError Limits :=
  applyChanges resource limits (grouped (countRows (-1) old))

/-- `enforce_project_usage_update` and its siblings -/
def enforceUpdate (old new : List ρ) : Except UsageError Limits :=
  applyChanges resource limits
    ((grouped (countRows 1 new ++ countRows (-1) old)).filter fun c => c.2 ≠ 0)

/-- The trigger for the kind of statement. -/
def enforce (w : Write ρ) (old new : List ρ) : Except UsageError Limits :=
  match w with
  | .insert _ => enforceInsert resource limits new
  | .delete _ => enforceDelete resource limits old
  | .update _ => enforceUpdate resource limits old new

end Counted

/-! ### Seats -/

/-- The policy `memberships_select`. -/
def Session.sees (session : Session) (m : MembershipRow) : Bool :=
  session.tenantMatches true m || some m.userId = session.actorId

/-- The distinct users with an active membership among the rows. -/
def activeUsers (rows : List MembershipRow) (organizationId : Uuid) : ℕ :=
  ((rows.filter fun m => m.organizationId = organizationId ∧ m.status = some "active").map
    MembershipRow.userId).dedup.length

/-- The count runs as the invoker: it sees what the session sees. -/
def refreshMembershipUsageLimit (session : Session) (rows : List MembershipRow) (limits : Limits)
    (organizationId : Uuid) : Except UsageError Limits :=
  match limits.find? organizationId with
  | none => throw (.notConfigured organizationId)
  | some before =>
    let currentUsage : ℤ := activeUsers (rows.filter session.sees) organizationId
    let row := { before with currentSeats := currentUsage }
    if currentUsage > row.maxSeats then
      throw (.limitExceeded .seats currentUsage row.maxSeats)
    else .ok (limits.put row)

/-- One row that was inserted, deleted or updated, by its old and new contents. -/
def enforceMembershipUsageLimit (session : Session) (rows : List MembershipRow) (limits : Limits) :
    Option MembershipRow × Option MembershipRow → Except UsageError Limits
  | (none, some new) => refreshMembershipUsageLimit session rows limits new.organizationId
  | (some old, none) => refreshMembershipUsageLimit session rows limits old.organizationId
  | (some old, some new) =>
    if old.organizationId = new.organizationId then
      refreshMembershipUsageLimit session rows limits new.organizationId
    else if old.organizationId < new.organizationId then do
      let limits ← refreshMembershipUsageLimit session rows limits old.organizationId
      refreshMembershipUsageLimit session rows limits new.organizationId
    else do
      let limits ← refreshMembershipUsageLimit session rows limits new.organizationId
      refreshMembershipUsageLimit session rows limits old.organizationId
  | (none, none) => .ok limits

/-- The rows of a statement, one event each. -/
def Write.events {ρ : Type} (w : Write ρ) (old new : List ρ) : List (Option ρ × Option ρ) :=
  match w with
  | .insert _ => new.map fun r => (none, some r)
  | .delete _ => old.map fun r => (some r, none)
  | .update _ => (old.zip new).map fun r => (some r.1, some r.2)

/-- The two unique indexes on user, organization and workspace. -/
def checkMemberships (rows : List MembershipRow) : Except UsageError Unit :=
  if (rows.map fun m => (m.userId, m.organizationId, m.workspaceId)).Nodup then .ok ()
  else .error (.database "memberships_user_org_workspace_unique")

/-! ### Statements and their triggers -/

inductive Statement where
  | projects (w : Write ProjectRow)
  | tasks (w : Write TaskRow)
  | attachments (w : Write AttachmentRow)
  | memberships (w : Write MembershipRow)

/-- The tables after the rows are written, before any trigger, and what the trigger does to the
limits. -/
def Statement.written (s : Store) (session : Session) :
    Statement → Except UsageError (Store × Except UsageError Limits)
  | .projects w => do
    let (table, old, new) ← w.run session false s.projects
    return ({ s with projects := table }, enforce .projects s.limits w old new)
  | .tasks w => do
    let (table, old, new) ← w.run session false s.tasks
    return ({ s with tasks := table }, enforce .tasks s.limits w old new)
  | .attachments w => do
    let (table, old, new) ← w.run session false s.attachments
    return ({ s with attachments := table }, enforce .storage s.limits w old new)
  | .memberships w => do
    let (table, old, new) ← w.run session true s.memberships
    checkMemberships table.rows
    return ({ s with memberships := table },
      (w.events old new).foldlM (enforceMembershipUsageLimit session table.rows) s.limits)

def Statement.exec (s : Store) (session : Session) (st : Statement) : Except UsageError Store := do
  let (s', limits) ← st.written s session
  return { s' with limits := ← limits }

/-! ### Plans and subscriptions -/

def validateSubscriptionPlanAndSeats (s : Store) (row : SubscriptionRow) : Except UsageError Unit :=
  match s.plans.find? row.planId with
  | none => throw (.database "Subscription plan does not exist")
  | some plan =>
    if row.endedAt = none ∧ plan.isActive = false then
      throw (.database "Cannot activate a subscription on an inactive plan")
    else if row.seats < plan.minSeats ∨ row.seats > plan.maxSeats then
      throw (.database "Subscription seats are outside the plan")
    else .ok ()

/-- The limits of a plan for an organization; the counters stay, or start at zero. -/
def projectLimits (limits : Limits) (organizationId : Uuid) (plan : PlanRow) (seats : ℤ) : Limits :=
  let row := (limits.find? organizationId).getD
    { organizationId, maxSeats := 0, maxProjects := 0, maxTasks := 0, maxStorageMb := 0 }
  limits.upsert { row with
    organizationId
    maxSeats := seats
    maxProjects := plan.maxProjects
    maxTasks := plan.maxTasks
    maxStorageMb := plan.maxStorageMb }

def syncCurrentSubscriptionProjection (s : Store) (row : SubscriptionRow) : Except UsageError Store :=
  if row.endedAt.isSome then
    match s.plans.rows.find? fun p => p.key = .free ∧ p.isActive = true with
    | none => throw (.database "An active free plan is required when a subscription ends")
    | some plan =>
      .ok { s with limits := projectLimits s.limits row.organizationId plan plan.maxSeats }
  else
    match s.plans.find? row.planId with
    | none => throw (.database "subscriptions_plan_id_fkey")
    | some plan => .ok { s with limits := projectLimits s.limits row.organizationId plan row.seats }

/-- `subscriptions_organization_current_unique` -/
def checkCurrent (rows : List SubscriptionRow) : Except UsageError Unit :=
  if ((rows.filter fun r => r.endedAt = none).map SubscriptionRow.organizationId).Nodup then .ok ()
  else .error (.database "subscriptions_organization_current_unique")

/-- A subscription is inserted or its plan, seats or end are updated. -/
def writeSubscription (s : Store) (row : SubscriptionRow) : Except UsageError Store := do
  validateSubscriptionPlanAndSeats s row
  let subscriptions := s.subscriptions.upsert row
  checkCurrent subscriptions.rows
  syncCurrentSubscriptionProjection { s with subscriptions } row

def createDefaultOrganizationSubscription (s : Store) (organizationId subscriptionId : Uuid)
    (plan : OrgPlan) (seats : ℤ) : Except UsageError Store :=
  match s.plans.rows.find? fun p => p.key = plan ∧ p.isActive = true with
  | none => throw (.database "No active subscription plan exists for organization plan")
  | some selected =>
    writeSubscription s {
      id := subscriptionId
      organizationId
      planId := selected.id
      seats := max selected.minSeats (min seats selected.maxSeats) }

def guardSubscriptionPlanChanges (s : Store) (old new : PlanRow) : Except UsageError Unit :=
  if new.key ≠ old.key ∧ s.subscriptions.rows.any fun r => r.planId = old.id then
    throw (.database "Cannot change the key of a subscription plan that is in use")
  else if s.subscriptions.rows.any fun r =>
      r.planId = old.id ∧ r.endedAt = none ∧ (r.seats < new.minSeats ∨ r.seats > new.maxSeats) then
    throw (.database "Plan seat limits conflict with a current subscription")
  else .ok ()

def syncSubscriptionPlanUsageLimits (s : Store) (plan : PlanRow) : Limits :=
  s.limits.update
    (fun l => s.subscriptions.rows.any fun r =>
      r.organizationId = l.organizationId ∧ r.planId = plan.id ∧ r.endedAt = none)
    (fun l => { l with
      maxProjects := plan.maxProjects, maxTasks := plan.maxTasks, maxStorageMb := plan.maxStorageMb })
    fun _ => rfl

def updatePlan (s : Store) (plan : PlanRow) : Except UsageError Store :=
  match s.plans.find? plan.id with
  | none => .ok s
  | some old => do
    guardSubscriptionPlanChanges s old plan
    return { s with plans := s.plans.put plan, limits := syncSubscriptionPlanUsageLimits s plan }

/-! ### Runs -/

inductive Request where
  | createOrganization (organizationId subscriptionId : Uuid) (plan : OrgPlan) (seats : ℤ)
  | writeSubscription (row : SubscriptionRow)
  | updatePlan (plan : PlanRow)
  | statement (session : Session) (st : Statement)

def step (request : Request) (s : Store) : Except UsageError Store :=
  match request with
  | .createOrganization organizationId subscriptionId plan seats =>
    createDefaultOrganizationSubscription s organizationId subscriptionId plan seats
  | .writeSubscription row => writeSubscription s row
  | .updatePlan plan => updatePlan s plan
  | .statement session st => st.exec s session

/-- A catalogue of plans and nothing else. -/
def initial (plans : Table PlanRow PlanRow.id) : Store where
  plans := plans
  subscriptions := .empty
  limits := .empty
  projects := .empty
  tasks := .empty
  attachments := .empty
  memberships := .empty

def after (plans : Table PlanRow PlanRow.id) (requests : List Request) : Store :=
  Runs.run step (initial plans) requests

end CalmBoard.Usage
