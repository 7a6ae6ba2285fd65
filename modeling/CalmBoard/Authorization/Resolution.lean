import CalmBoard.Authorization.Decision

/-!
# CalmBoard.Authorization.Resolution — what decides about one permission

* `Granted`: the most specific level with an override about the permission decides, and there a
  denial; without an override the roles do.
* `Reordered`: the rows of the tables in another order.
* `resolve_decides`: `resolve` grants exactly what is `Granted`, in whatever order the rows come.
-/

namespace CalmBoard.Authorization

open Overrides

/-! ### The specification -/

section Specification

variable (T : Tables) (membershipId : String) (scope : AuthorizationScope) (permission : String)

/-- An override about the permission that applies. -/
def Mentions (o : OverrideRow) : Prop :=
  o ∈ T.overrides ∧ applies membershipId scope o.toAssignment = true ∧ o.permissionKey = permission

/-- The most specific level with an override about the permission. -/
def MostSpecific (level : ScopeLevel) : Prop :=
  (∃ o, Mentions T membershipId scope permission o ∧ o.scope = level) ∧
    ∀ o, Mentions T membershipId scope permission o →
      scopeSpecificity o.scope ≤ scopeSpecificity level

/-- A role that is bound where it applies, and not deleted, grants the permission. -/
def RoleGives : Prop :=
  ∃ b ∈ T.bindings, applies membershipId scope b.toAssignment = true ∧
    (∃ role ∈ T.roles, role.id = b.roleId ∧ role.deleted = false) ∧
    ∃ p ∈ T.rolePermissions, p.roleId = b.roleId ∧ p.permissionKey = permission

def Granted : Prop :=
  (∃ level, MostSpecific T membershipId scope permission level ∧
    ∀ o, Mentions T membershipId scope permission o → o.scope = level → o.allow = true) ∨
  (∀ o, ¬ Mentions T membershipId scope permission o) ∧ RoleGives T membershipId scope permission

end Specification

/-- The primary key of the roles and the two unique indexes of the memberships. -/
structure Tables.Keyed (T : Tables) : Prop where
  roles : ∀ r ∈ T.roles, ∀ r' ∈ T.roles, r.id = r'.id → r = r'
  memberships : ∀ m ∈ T.memberships, ∀ m' ∈ T.memberships, m.userId = m'.userId →
    m.organizationId = m'.organizationId → m.workspaceId = m'.workspaceId → m = m'

/-- The rows in another order. -/
structure Tables.Reordered (T T' : Tables) : Prop where
  memberships : T.memberships.Perm T'.memberships
  roles : T.roles.Perm T'.roles
  bindings : T.bindings.Perm T'.bindings
  rolePermissions : T.rolePermissions.Perm T'.rolePermissions
  overrides : T.overrides.Perm T'.overrides

/-- The same decision; the roles are listed as their rows came. -/
structure AuthorizationDecision.Same (d d' : AuthorizationDecision) : Prop where
  member : d.member = d'.member
  allowed : d.allowed = d'.allowed
  membershipId : d.membershipId = d'.membershipId
  roles : d.roles.Perm d'.roles
  permissions : d.permissions = d'.permissions

variable {T T' : Tables} {userId membershipId permission : String} {scope : AuthorizationScope}

/-! ### What decides -/

variable {m : MembershipRow}

theorem scopeSpecificity_injective : Function.Injective scopeSpecificity := by
  intro a b h
  cases a <;> cases b <;> first | rfl | cases h

theorem roleOf_isSome {b : RoleBindingRow} :
    (roleOf T b).isSome = true ↔ ∃ role ∈ T.roles, role.id = b.roleId ∧ role.deleted = false := by
  simp only [roleOf, List.find?_isSome, Bool.and_eq_true, decide_eq_true_eq, Bool.not_eq_true']

theorem mem_granted_iff : permission ∈ grantedPermissions T membershipId scope ↔
    RoleGives T membershipId scope permission := by
  simp only [mem_grantedPermissions, roleOf_isSome, RoleGives]

theorem exists_rule_iff {Q : Rule String → Prop} :
    (∃ r ∈ rulesIn T membershipId scope, r.key = permission ∧ Q r) ↔
      ∃ o, Mentions T membershipId scope permission o ∧ Q o.rule := by
  constructor
  · rintro ⟨r, hr, hkey, hq⟩
    obtain ⟨o, ho, happ, rfl⟩ := mem_rulesIn.mp hr
    exact ⟨o, ⟨ho, happ, hkey⟩, hq⟩
  · rintro ⟨o, ⟨ho, happ, hkey⟩, hq⟩
    exact ⟨o.rule, mem_rulesIn.mpr ⟨o, ho, happ, rfl⟩, hkey, hq⟩

theorem forall_rule_iff {Q : Rule String → Prop} :
    (∀ r ∈ rulesIn T membershipId scope, r.key = permission → Q r) ↔
      ∀ o, Mentions T membershipId scope permission o → Q o.rule := by
  constructor
  · rintro h o ⟨ho, happ, hkey⟩
    exact h o.rule (mem_rulesIn.mpr ⟨o, ho, happ, rfl⟩) hkey
  · intro h r hr hkey
    obtain ⟨o, ho, happ, rfl⟩ := mem_rulesIn.mp hr
    exact h o ⟨ho, happ, hkey⟩

theorem mem_permissionsIn_iff : permission ∈ permissionsIn T membershipId scope ↔
    Granted T membershipId scope permission := by
  unfold permissionsIn
  rw [mem_overridden_levels, mem_granted_iff, Granted]
  refine or_congr ?_ (and_congr_left fun _ => forall_rule_iff (Q := fun _ => False))
  constructor
  · rintro ⟨n, hsome, htop, hallow⟩
    obtain ⟨o, ho, rfl⟩ := exists_rule_iff.mp hsome
    refine ⟨o.scope, ⟨⟨o, ho, rfl⟩, forall_rule_iff.mp htop⟩, fun o' ho' hlevel => ?_⟩
    exact forall_rule_iff.mp hallow o' ho' (congrArg scopeSpecificity hlevel)
  · rintro ⟨level, ⟨⟨o, ho, rfl⟩, htop⟩, hallow⟩
    refine ⟨scopeSpecificity o.scope, exists_rule_iff.mpr ⟨o, ho, rfl⟩, forall_rule_iff.mpr htop,
      forall_rule_iff.mpr fun o' ho' hrank => ?_⟩
    exact hallow o' ho' (scopeSpecificity_injective hrank)

theorem mem_resolve (hm : membershipIn T userId scope = some m) {required : Option String} :
    permission ∈ (resolve T userId scope required).permissions ↔
      Granted T m.id scope permission := by
  simp only [resolve, hm, List.mem_insertionSort, mem_permissionsIn_iff]

/-! ### The order of the rows -/

/-- A membership that could count. -/
def Candidate (T : Tables) (userId : String) (scope : AuthorizationScope) (m : MembershipRow) : Prop :=
  m ∈ T.memberships ∧ m.userId = userId ∧ m.organizationId = scope.organizationId ∧
    m.active = true ∧ (m.workspaceId = none ∨ scope.workspaceId.isSome = true ∧
      m.workspaceId = scope.workspaceId)

theorem Candidate.eq (hT : T.Keyed) {m' : MembershipRow} (h : Candidate T userId scope m)
    (h' : Candidate T userId scope m') (hsame : m.workspaceId.isSome = m'.workspaceId.isSome) :
    m = m' := by
  obtain ⟨hmem, huser, horganization, -, hworkspace⟩ := h
  obtain ⟨hmem', huser', horganization', -, hworkspace'⟩ := h'
  refine hT.memberships m hmem m' hmem' (huser.trans huser'.symm)
    (horganization.trans horganization'.symm) ?_
  rcases hworkspace with hnone | ⟨hscope, hws⟩ <;> rcases hworkspace' with hnone' | ⟨hscope', hws'⟩
  · rw [hnone, hnone']
  · rw [hnone, hws', hscope'] at hsame
    cases hsame
  · rw [hnone', hws, hscope] at hsame
    cases hsame
  · rw [hws, hws']

theorem membershipIn_eq_some (hT : T.Keyed) :
    membershipIn T userId scope = some m ↔ Candidate T userId scope m ∧
      (m.workspaceId.isSome = true ∨ ∀ m', Candidate T userId scope m' → m'.workspaceId = none) := by
  have hmem : ∀ m', m' ∈ T.memberships.filter (fun m => m.userId = userId &&
      m.organizationId = scope.organizationId && m.active &&
        (m.workspaceId.isNone || scope.workspaceId.isSome && m.workspaceId = scope.workspaceId)) ↔
      Candidate T userId scope m' := by
    intro m'
    simp [Candidate, and_assoc]
  unfold membershipIn
  generalize T.memberships.filter _ = candidates at hmem
  simp only [Option.or_eq_some_iff]
  constructor
  · rintro (hfind | ⟨hnone, hhead⟩)
    · exact ⟨(hmem m).mp (List.mem_of_find?_eq_some hfind), .inl (by simpa using List.find?_some hfind)⟩
    · refine ⟨(hmem m).mp (List.mem_of_head? hhead), .inr fun m' hm' => ?_⟩
      have hno := List.find?_eq_none.mp hnone m' ((hmem m').mpr hm')
      simpa using hno
  · rintro ⟨hm, hsome | hnone⟩
    · left
      have hfound : (candidates.find? fun m => m.workspaceId.isSome).isSome = true :=
        List.find?_isSome.mpr ⟨m, (hmem m).mpr hm, hsome⟩
      obtain ⟨m', hm'⟩ := Option.isSome_iff_exists.mp hfound
      have hcandidate := (hmem m').mp (List.mem_of_find?_eq_some hm')
      have hsome' : m'.workspaceId.isSome = true := by simpa using List.find?_some hm'
      rw [hm', hcandidate.eq hT hm (hsome'.trans hsome.symm)]
    · right
      refine ⟨List.find?_eq_none.mpr fun m' hm' => ?_, ?_⟩
      · rw [hnone m' ((hmem m').mp hm')]
        simp
      · cases hcandidates : candidates with
        | nil =>
          have := (hmem m).mpr hm
          rw [hcandidates] at this
          cases this
        | cons m' rest =>
          have hm' : Candidate T userId scope m' := (hmem m').mp (hcandidates ▸ List.mem_cons_self)
          rw [List.head?_cons, hm'.eq hT hm]
          rw [hnone m' hm', hnone m hm]

theorem Tables.Reordered.candidate (h : T.Reordered T') :
    Candidate T' userId scope m ↔ Candidate T userId scope m := by
  simp only [Candidate, h.memberships.mem_iff]

theorem Tables.Reordered.keyed (h : T.Reordered T') (hT : T.Keyed) : T'.Keyed where
  roles r hr r' hr' := hT.roles r (h.roles.mem_iff.mpr hr) r' (h.roles.mem_iff.mpr hr')
  memberships m hm m' hm' :=
    hT.memberships m (h.memberships.mem_iff.mpr hm) m' (h.memberships.mem_iff.mpr hm')

theorem Tables.Reordered.membershipIn (h : T.Reordered T') (hT : T.Keyed) :
    membershipIn T' userId scope = membershipIn T userId scope := by
  ext m
  rw [membershipIn_eq_some hT, membershipIn_eq_some (h.keyed hT)]
  simp only [h.candidate]

theorem Tables.Reordered.granted (h : T.Reordered T') :
    Granted T' membershipId scope permission ↔ Granted T membershipId scope permission := by
  simp only [Granted, MostSpecific, Mentions, RoleGives, h.overrides.mem_iff, h.bindings.mem_iff,
    h.roles.mem_iff, h.rolePermissions.mem_iff]

theorem roleOf_eq_some (hT : T.Keyed) {b : RoleBindingRow} {role : RoleRow} :
    roleOf T b = some role ↔ role ∈ T.roles ∧ role.id = b.roleId ∧ role.deleted = false := by
  constructor
  · intro h
    have hrole := List.find?_some h
    simp only [Bool.and_eq_true, decide_eq_true_eq, Bool.not_eq_true'] at hrole
    exact ⟨List.mem_of_find?_eq_some h, hrole.1, hrole.2⟩
  · rintro ⟨hmem, hid, hdeleted⟩
    obtain ⟨role', hrole'⟩ := Option.isSome_iff_exists.mp
      (roleOf_isSome.mpr ⟨role, hmem, hid, hdeleted⟩)
    have hkey := List.find?_some hrole'
    simp only [Bool.and_eq_true, decide_eq_true_eq] at hkey
    rw [hrole', hT.roles role' (List.mem_of_find?_eq_some hrole') role hmem (hkey.1.trans hid.symm)]

theorem Tables.Reordered.roleOf (h : T.Reordered T') (hT : T.Keyed) (b : RoleBindingRow) :
    roleOf T' b = roleOf T b := by
  ext role
  rw [roleOf_eq_some hT, roleOf_eq_some (h.keyed hT), h.roles.mem_iff]

theorem Tables.Reordered.bindingsIn (h : T.Reordered T') (hT : T.Keyed) :
    (bindingsIn T membershipId scope).Perm (bindingsIn T' membershipId scope) := by
  simp only [Authorization.bindingsIn, h.roleOf hT]
  exact h.bindings.filter _

theorem permissionsIn_nodup : (permissionsIn T membershipId scope).Nodup :=
  nodup_overridden (eraseDups_nodup _) _

theorem Tables.Reordered.permissionsIn (h : T.Reordered T') :
    (permissionsIn T membershipId scope).Perm (permissionsIn T' membershipId scope) := by
  refine (List.perm_ext_iff_of_nodup permissionsIn_nodup permissionsIn_nodup).mpr fun p => ?_
  rw [mem_permissionsIn_iff, mem_permissionsIn_iff, h.granted]

theorem resolve_reordered (h : T.Reordered T') (hT : T.Keyed) (userId : String)
    (scope : AuthorizationScope) (required : Option String) :
    (resolve T userId scope required).Same (resolve T' userId scope required) := by
  cases hm : membershipIn T userId scope with
  | none =>
    have hm' := h.membershipIn hT ▸ hm
    simp only [resolve, hm, hm']
    exact ⟨rfl, rfl, rfl, .refl _, rfl⟩
  | some m =>
    have hm' := h.membershipIn hT ▸ hm
    have hpermissions : (permissionsIn T m.id scope).Perm (permissionsIn T' m.id scope) :=
      h.permissionsIn
    simp only [resolve, hm, hm']
    refine ⟨rfl, ?_, rfl, ?_, ?_⟩
    · simp only [List.contains_eq_mem, hpermissions.mem_iff]
    · simp only [h.roleOf hT]
      exact eraseDups_perm ((h.bindingsIn hT).filterMap _)
    · have hsorted : ((permissionsIn T m.id scope).insertionSort (· ≤ ·)).Perm
          ((permissionsIn T' m.id scope).insertionSort (· ≤ ·)) :=
        ((List.perm_insertionSort _ _).trans hpermissions).trans (List.perm_insertionSort _ _).symm
      exact hsorted.eq_of_pairwise (fun a b _ _ hab hba => String.le_antisymm hab hba)
        (List.pairwise_insertionSort _ _) (List.pairwise_insertionSort _ _)

/-- **Permission resolution**: a member has a permission if the most specific level with an
applicable override about it has no denial, or without such an override if an applicable role that
is not deleted grants it; the order of the rows does not matter. -/
theorem resolve_decides {T : Tables} (hT : T.Keyed) {userId : String} {scope : AuthorizationScope}
    {m : MembershipRow} (hm : membershipIn T userId scope = some m) (permission : String) :
    (∀ required, permission ∈ (resolve T userId scope required).permissions ↔
      Granted T m.id scope permission) ∧
    (permission ≠ "" → ((resolve T userId scope (some permission)).allowed = true ↔
      Granted T m.id scope permission)) ∧
    ∀ T', T.Reordered T' → ∀ required,
      (resolve T userId scope required).Same (resolve T' userId scope required) := by
  refine ⟨fun required => mem_resolve hm, fun hne => ?_, fun T' h required => ?_⟩
  · rw [← mem_permissionsIn_iff]
    simp [resolve, hm, hne]
  · exact resolve_reordered h hT userId scope required

/-- Editors may delete boards; in the workspace `w` that is denied to one of them. -/
def deniedOnce : Tables where
  memberships := [{ id := "m", userId := "u", organizationId := "o" }]
  roles := [{ id := "r", key := "editor" }]
  bindings := [{ organizationId := "o", membershipId := "m", scope := .organization, roleId := "r" }]
  rolePermissions := [{ roleId := "r", permissionKey := "board.delete" }]
  overrides := [{ organizationId := "o", membershipId := "m", scope := .workspace
                  workspaceId := some "w", permissionKey := "board.delete", allow := false }]

theorem resolve_deniedOnce :
    "board.delete" ∉ (resolve deniedOnce "u" (scopeOf "o" "w" none) none).permissions ∧
      ¬ Granted deniedOnce "m" (scopeOf "o" "w" none) "board.delete" := by
  have hkeyed : deniedOnce.Keyed := by
    refine ⟨fun r hr r' hr' _ => ?_, fun m hm m' hm' _ _ _ => ?_⟩
    · rw [List.mem_singleton.mp hr, List.mem_singleton.mp hr']
    · rw [List.mem_singleton.mp hm, List.mem_singleton.mp hm']
  have hm : membershipIn deniedOnce "u" (scopeOf "o" "w" none) =
      some { id := "m", userId := "u", organizationId := "o" } := rfl
  have hdecides := (resolve_decides hkeyed hm "board.delete").1 none
  have hdenied : "board.delete" ∉ (resolve deniedOnce "u" (scopeOf "o" "w" none) none).permissions := by
    decide
  exact ⟨hdenied, fun h => hdenied (hdecides.mpr h)⟩

end CalmBoard.Authorization
