import Mathlib.Data.List.Sort
import CalmBoard.Lib.Overrides

/-!
# CalmBoard.Authorization.Decision — the permissions of a member in a scope

* `resolve`: the roles bound in the scope, and the overrides that apply to it.
* `held_project`: a permission in a project, by the permission without the project.
-/

namespace CalmBoard.Authorization

open Overrides

/-! ### The tables -/

inductive ScopeLevel where
  | organization | workspace | project
  deriving DecidableEq

structure AuthorizationScope where
  organizationId : String
  workspaceId : Option String := none
  projectId : Option String := none

structure MembershipRow where
  id : String
  userId : String
  organizationId : String
  workspaceId : Option String := none
  active : Bool := true

/-- The columns that say for what a row of a membership applies. -/
structure Assignment where
  organizationId : String
  membershipId : String
  scope : ScopeLevel
  workspaceId : Option String := none
  projectId : Option String := none

structure RoleRow where
  id : String
  key : String
  deleted : Bool := false

/-- `membership_role_bindings` -/
structure RoleBindingRow extends Assignment where
  roleId : String

structure RolePermissionRow where
  roleId : String
  permissionKey : String

/-- `membership_permission_overrides` -/
structure OverrideRow extends Assignment where
  permissionKey : String
  allow : Bool

structure Tables where
  memberships : List MembershipRow
  roles : List RoleRow
  bindings : List RoleBindingRow
  rolePermissions : List RolePermissionRow
  overrides : List OverrideRow

structure AuthorizationDecision where
  member : Bool
  allowed : Bool
  membershipId : Option String := none
  roles : List String
  permissions : List String

/-! ### Resolution -/

/-- The row is one of the project. -/
def ofProject (workspaceId projectId : String) (r : Assignment) : Bool :=
  r.scope = .project && r.workspaceId = some workspaceId && r.projectId = some projectId

def applicableScope (scope : AuthorizationScope) (r : Assignment) : Bool :=
  (r.scope = .organization && r.workspaceId.isNone && r.projectId.isNone) ||
  (scope.workspaceId.any fun workspaceId =>
    r.scope = .workspace && r.workspaceId = some workspaceId && r.projectId.isNone) ||
  scope.workspaceId.any fun workspaceId =>
    scope.projectId.any fun projectId => ofProject workspaceId projectId r

def scopeSpecificity : ScopeLevel → ℕ
  | .project => 3
  | .workspace => 2
  | .organization => 1

variable (T : Tables)

/-- The membership that counts: one of the workspace before one of the organization. -/
def membershipIn (userId : String) (scope : AuthorizationScope) : Option MembershipRow :=
  let candidates := T.memberships.filter fun m =>
    m.userId = userId && m.organizationId = scope.organizationId && m.active &&
      (m.workspaceId.isNone || scope.workspaceId.isSome && m.workspaceId = scope.workspaceId)
  (candidates.find? fun m => m.workspaceId.isSome).or candidates.head?

def applies (membershipId : String) (scope : AuthorizationScope) (r : Assignment) : Bool :=
  r.membershipId = membershipId && r.organizationId = scope.organizationId && applicableScope scope r

/-- The role, unless it is deleted. -/
def roleOf (b : RoleBindingRow) : Option RoleRow :=
  T.roles.find? fun role => role.id = b.roleId && !role.deleted

def bindingsIn (membershipId : String) (scope : AuthorizationScope) : List RoleBindingRow :=
  T.bindings.filter fun b => applies membershipId scope b.toAssignment && (roleOf T b).isSome

/-- What the roles grant. -/
def grantedPermissions (membershipId : String) (scope : AuthorizationScope) : List String :=
  let roleIds := (bindingsIn T membershipId scope).map RoleBindingRow.roleId
  ((T.rolePermissions.filter fun p => roleIds.contains p.roleId).map
    RolePermissionRow.permissionKey).eraseDups

def OverrideRow.rule (o : OverrideRow) : Rule String :=
  { key := o.permissionKey, allow := o.allow, rank := scopeSpecificity o.scope }

def rulesIn (membershipId : String) (scope : AuthorizationScope) : List (Rule String) :=
  (T.overrides.filter fun o => applies membershipId scope o.toAssignment).map OverrideRow.rule

def permissionsIn (membershipId : String) (scope : AuthorizationScope) : List String :=
  overridden (grantedPermissions T membershipId scope) (rulesIn T membershipId scope)

def resolve (userId : String) (scope : AuthorizationScope) (requiredPermission : Option String := none) :
    AuthorizationDecision :=
  match membershipIn T userId scope with
  | none => { member := false, allowed := false, roles := [], permissions := [] }
  | some m =>
    let permissions := permissionsIn T m.id scope
    { member := true
      -- an empty name requires nothing
      allowed := requiredPermission.all fun p => p.isEmpty || permissions.contains p
      membershipId := some m.id
      roles := ((bindingsIn T m.id scope).filterMap fun b => (roleOf T b).map RoleRow.key).eraseDups
      permissions := permissions.insertionSort (· ≤ ·) }

/-! ### A permission in a project -/

variable {membershipId : String}

section Project

variable (organizationId workspaceId : String)

/-- The scope of the workspace, or of one of its projects. -/
def scopeOf (projectId : Option String) : AuthorizationScope :=
  { organizationId, workspaceId := some workspaceId, projectId }

/-- The member has the permission. -/
def Held (userId : String) (projectId : Option String) (permission : String) : Prop :=
  permission ∈ (resolve T userId (scopeOf organizationId workspaceId projectId)).permissions

instance (userId : String) (projectId : Option String) (permission : String) :
    Decidable (Held T organizationId workspaceId userId projectId permission) := by
  unfold Held
  infer_instance

def OfProject (membershipId projectId : String) (r : Assignment) : Prop :=
  r.membershipId = membershipId ∧ r.organizationId = organizationId ∧
    ofProject workspaceId projectId r = true

def Overrides (membershipId projectId permission : String) (o : OverrideRow) : Prop :=
  OfProject organizationId workspaceId membershipId projectId o.toAssignment ∧
    o.permissionKey = permission

def RoleGrants (membershipId projectId permission : String) : Prop :=
  ∃ b ∈ T.bindings, OfProject organizationId workspaceId membershipId projectId b.toAssignment ∧
    (roleOf T b).isSome ∧
    ∃ p ∈ T.rolePermissions, p.roleId = b.roleId ∧ p.permissionKey = permission

variable {T organizationId workspaceId}

theorem held_iff {userId permission : String} {projectId : Option String} {m : MembershipRow}
    (hm : membershipIn T userId (scopeOf organizationId workspaceId none) = some m) :
    Held T organizationId workspaceId userId projectId permission ↔
      permission ∈ permissionsIn T m.id (scopeOf organizationId workspaceId projectId) := by
  -- the membership does not depend on the project
  have hm' : membershipIn T userId (scopeOf organizationId workspaceId projectId) = some m := hm
  simp only [Held, resolve, hm', List.mem_insertionSort]

theorem applies_project {projectId : String} {r : Assignment} :
    applies membershipId (scopeOf organizationId workspaceId (some projectId)) r = true ↔
      applies membershipId (scopeOf organizationId workspaceId none) r = true ∨
        OfProject organizationId workspaceId membershipId projectId r := by
  have hscope : applicableScope (scopeOf organizationId workspaceId (some projectId)) r =
      (applicableScope (scopeOf organizationId workspaceId none) r ||
        ofProject workspaceId projectId r) := by
    simp [applicableScope, scopeOf]
  have horganization : ∀ p, (scopeOf organizationId workspaceId p).organizationId = organizationId :=
    fun _ => rfl
  simp only [applies, hscope, horganization, OfProject, Bool.and_eq_true, Bool.or_eq_true,
    decide_eq_true_eq]
  rw [and_or_left, and_assoc (c := ofProject workspaceId projectId r = true)]

theorem mem_grantedPermissions {permission : String} {scope : AuthorizationScope} :
    permission ∈ grantedPermissions T membershipId scope ↔
      ∃ b ∈ T.bindings, applies membershipId scope b.toAssignment = true ∧ (roleOf T b).isSome ∧
        ∃ p ∈ T.rolePermissions, p.roleId = b.roleId ∧ p.permissionKey = permission := by
  simp only [grantedPermissions, bindingsIn, List.mem_eraseDups, List.mem_map, List.mem_filter,
    List.contains_iff_mem, Bool.and_eq_true]
  constructor
  · rintro ⟨p, ⟨hp, b, ⟨hb, happ, hrole⟩, hid⟩, hkey⟩
    exact ⟨b, hb, happ, hrole, p, hp, hid.symm, hkey⟩
  · rintro ⟨b, hb, happ, hrole, p, hp, hid, hkey⟩
    exact ⟨p, ⟨hp, b, ⟨hb, happ, hrole⟩, hid.symm⟩, hkey⟩

theorem mem_rulesIn {scope : AuthorizationScope} {r : Rule String} :
    r ∈ rulesIn T membershipId scope ↔
      ∃ o ∈ T.overrides, applies membershipId scope o.toAssignment = true ∧ o.rule = r := by
  simp [rulesIn, and_assoc]

theorem scopeSpecificity_le (scope : ScopeLevel) : scopeSpecificity scope ≤ 3 := by
  cases scope <;> decide

theorem rank_eq_iff {projectId : String} {o : OverrideRow}
    (h : applies membershipId (scopeOf organizationId workspaceId (some projectId)) o.toAssignment =
      true) :
    o.rule.rank = 3 ↔ OfProject organizationId workspaceId membershipId projectId o.toAssignment := by
  constructor
  · intro hrank
    rcases applies_project.mp h with hwide | hproject
    · -- what applies to the workspace is no row of a project
      simp only [applies, scopeOf, applicableScope, Option.any_some, Option.any_none, Bool.or_false,
        Bool.and_eq_true, Bool.or_eq_true, decide_eq_true_eq] at hwide
      rcases hwide.2 with hscope | hscope <;>
        simp [OverrideRow.rule, scopeSpecificity, hscope.1.1] at hrank
    · exact hproject
  · rintro ⟨-, -, hproject⟩
    simp only [ofProject, Bool.and_eq_true, decide_eq_true_eq] at hproject
    simp [OverrideRow.rule, scopeSpecificity, hproject.1.1]

theorem mem_permissionsIn_overridden {projectId permission : String}
    (h : ∃ o ∈ T.overrides, Overrides organizationId workspaceId membershipId projectId permission o) :
    permission ∈ permissionsIn T membershipId
        (scopeOf organizationId workspaceId (some projectId)) ↔
      ∀ o ∈ T.overrides, Overrides organizationId workspaceId membershipId projectId permission o →
        o.allow = true := by
  have happ : ∀ o : OverrideRow,
      OfProject organizationId workspaceId membershipId projectId o.toAssignment →
      applies membershipId (scopeOf organizationId workspaceId (some projectId)) o.toAssignment =
        true := fun o ho => applies_project.mpr (.inr ho)
  unfold permissionsIn
  rw [mem_overridden_top (n := 3)]
  · constructor
    · intro hall o ho hover
      exact hall o.rule (mem_rulesIn.mpr ⟨o, ho, happ o hover.1, rfl⟩) hover.2
        ((rank_eq_iff (happ o hover.1)).mpr hover.1)
    · intro hall r hr hkey hrank
      obtain ⟨o, ho, happ, rfl⟩ := mem_rulesIn.mp hr
      exact hall o ho ⟨(rank_eq_iff happ).mp hrank, hkey⟩
  · intro r hr
    obtain ⟨o, -, -, rfl⟩ := mem_rulesIn.mp hr
    exact scopeSpecificity_le o.scope
  · obtain ⟨o, ho, hover⟩ := h
    exact ⟨o.rule, mem_rulesIn.mpr ⟨o, ho, happ o hover.1, rfl⟩, hover.2,
      (rank_eq_iff (happ o hover.1)).mpr hover.1⟩

/-- A rule of the organization or of the workspace about the permission. -/
def WiderRule (T : Tables) (organizationId workspaceId membershipId permission : String) : Prop :=
  ∃ r ∈ rulesIn T membershipId (scopeOf organizationId workspaceId none), r.key = permission

theorem mem_permissionsIn_free {projectId permission : String}
    (h : ∀ o ∈ T.overrides,
      ¬ Overrides organizationId workspaceId membershipId projectId permission o) :
    permission ∈ permissionsIn T membershipId
        (scopeOf organizationId workspaceId (some projectId)) ↔
      permission ∈ permissionsIn T membershipId (scopeOf organizationId workspaceId none) ∨
        ¬ WiderRule T organizationId workspaceId membershipId permission ∧
          RoleGrants T organizationId workspaceId membershipId projectId permission := by
  have hrules : (rulesIn T membershipId (scopeOf organizationId workspaceId (some projectId))).filter
        (fun r => r.key = permission) =
      (rulesIn T membershipId (scopeOf organizationId workspaceId none)).filter
        fun r => r.key = permission := by
    simp only [rulesIn, List.filter_map, List.filter_filter]
    congr 1
    refine List.filter_congr fun o ho => ?_
    rw [Bool.eq_iff_iff]
    simp only [Function.comp_apply, Bool.and_eq_true, decide_eq_true_eq, applies_project]
    constructor
    · rintro ⟨hkey, happ | happ⟩
      · exact ⟨hkey, happ⟩
      · exact absurd ⟨happ, hkey⟩ (h o ho)
    · exact fun ⟨hkey, happ⟩ => ⟨hkey, .inl happ⟩
  have hgranted : permission ∈ grantedPermissions T membershipId
        (scopeOf organizationId workspaceId (some projectId)) ↔
      permission ∈ grantedPermissions T membershipId (scopeOf organizationId workspaceId none) ∨
        RoleGrants T organizationId workspaceId membershipId projectId permission := by
    simp only [mem_grantedPermissions, applies_project, RoleGrants]
    constructor
    · rintro ⟨b, hb, happ | happ, hrest⟩
      · exact .inl ⟨b, hb, happ, hrest⟩
      · exact .inr ⟨b, hb, happ, hrest⟩
    · rintro (⟨b, hb, happ, hrest⟩ | ⟨b, hb, happ, hrest⟩)
      · exact ⟨b, hb, .inl happ, hrest⟩
      · exact ⟨b, hb, .inr happ, hrest⟩
  unfold permissionsIn
  rw [mem_overridden, mem_overridden, find?_strongest_filter, hrules, ← find?_strongest_filter]
  obtain ⟨hnone, hfree⟩ | ⟨c, hc, hkey, hdec⟩ :=
    find?_strongest (rulesIn T membershipId (scopeOf organizationId workspaceId none)) permission
  · have hwider : ¬ WiderRule T organizationId workspaceId membershipId permission := by
      rintro ⟨r, hr, hkey⟩
      exact hfree r hr hkey
    rw [hnone]
    simp only [hgranted, hwider, not_false_iff, true_and]
  · have hwider : WiderRule T organizationId workspaceId membershipId permission :=
      ⟨c, hdec.mem, hkey⟩
    rw [hc]
    simp only [hwider, not_true, false_and, or_false]

theorem held_project {T : Tables} {organizationId workspaceId userId permission projectId : String}
    {m : MembershipRow} (hm : membershipIn T userId (scopeOf organizationId workspaceId none) = some m) :
    Held T organizationId workspaceId userId (some projectId) permission ↔
      (∀ o ∈ T.overrides, Overrides organizationId workspaceId m.id projectId permission o →
        o.allow = true) ∧
      (Held T organizationId workspaceId userId none permission ∨
        (∃ o ∈ T.overrides, Overrides organizationId workspaceId m.id projectId permission o) ∨
        ¬ WiderRule T organizationId workspaceId m.id permission ∧
          RoleGrants T organizationId workspaceId m.id projectId permission) := by
  rw [held_iff hm, held_iff hm]
  by_cases hover : ∃ o ∈ T.overrides, Overrides organizationId workspaceId m.id projectId permission o
  · rw [mem_permissionsIn_overridden hover]
    constructor
    · exact fun hall => ⟨hall, .inr (.inl hover)⟩
    · exact fun h => h.1
  · have hfree : ∀ o ∈ T.overrides,
        ¬ Overrides organizationId workspaceId m.id projectId permission o :=
      fun o ho ho' => hover ⟨o, ho, ho'⟩
    rw [mem_permissionsIn_free hfree]
    constructor
    · rintro (hheld | hrole)
      · exact ⟨fun o ho ho' => absurd ho' (hfree o ho), .inl hheld⟩
      · exact ⟨fun o ho ho' => absurd ho' (hfree o ho), .inr (.inr hrole)⟩
    · rintro ⟨-, hheld | hex | hrole⟩
      · exact .inl hheld
      · exact absurd hex hover
      · exact .inr hrole

end Project

end CalmBoard.Authorization
