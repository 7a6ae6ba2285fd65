import CalmBoard.Authorization.Decision
import CalmBoard.Lib.Fallible
import CalmBoard.Values

/-!
# CalmBoard.Authorization.Imports — the scope in which a request is judged

* `explicitRequestScope`, `trustedProjectId`: the tenant and the project a request names.
* `admits`: the tenant guard and the permission guard of a route.
* `import_grants`: what an import of tasks allows that creating them one by one does not.
-/

namespace CalmBoard.Authorization

open Text Fallible

inductive HttpError where
  | badRequest (message : String)
  | forbidden (message : String)
  | notFound (message : String)
  deriving DecidableEq

/-! ### The scope a request names -/

/-- A request with its parsed body, query and route parameters. -/
structure ScopeRequest where
  url : String
  body : JsValue := .undefined
  query : JsValue := .object []
  params : JsValue := .object []

structure RequestResourceIds where
  taskIds : List String
  sprintIds : List String
  checklistItemIds : List String
  approvalRequestIds : List String
  commentIds : List String

structure ExplicitRequestScope where
  organizationId : Option String
  workspaceId : Option String
  projectId : Option String
  resources : RequestResourceIds

def record : JsValue → JsObject
  | .object o => o
  | _ => []

/-- `o[key]` -/
def field (o : JsObject) (key : String) : JsValue := (o.get? key).getD .undefined

def identifier : JsValue → Option String
  | .string s => if trim s = "" then none else some (trim s)
  | _ => none

def identifiers (values : List JsValue) : List String := (values.filterMap identifier).eraseDups

def matchingScopeIdentifier (name : String) (values : List JsValue) :
    Except HttpError (Option String) :=
  let unique := identifiers values
  if 1 < unique.length then .error (.badRequest s!"Conflicting {name} values") else .ok unique.head?

/-- The segments of the path, the first of them empty. -/
def pathSegments (url : String) : List (List Char) :=
  (url.toList.takeWhile (· ≠ '?')).splitOn '/'

/-- `^\/name\/[^/]+(?:\/|$)` -/
def namesOne (name : String) (url : String) : Bool :=
  match pathSegments url with
  | [] :: n :: id :: _ => n = name.toList && id ≠ []
  | _ => false

/-- `^\/name(?:\/|$)` -/
def isUnder (name : String) (url : String) : Bool :=
  match pathSegments url with
  | [] :: n :: _ => n = name.toList
  | _ => false

/-- `^\/(?:api\/)?comments(?:\/|$)` -/
def isCommentPath (url : String) : Bool :=
  match pathSegments url with
  | [] :: n :: m :: _ => n = "comments".toList || n = "api".toList && m = "comments".toList
  | [] :: n :: _ => n = "comments".toList
  | _ => false

def orUndefined (c : Bool) (v : JsValue) : JsValue := if c then v else .undefined

def explicitRequestScope (request : ScopeRequest) : Except HttpError ExplicitRequestScope := do
  let body := record request.body
  let query := record request.query
  let params := record request.params
  let workspacePathId := orUndefined (namesOne "workspaces" request.url) (field params "id")
  let projectPathId := orUndefined (namesOne "projects" request.url) (field params "id")
  let taskPathId := orUndefined (namesOne "tasks" request.url) (field params "id")
  let taskBodyId := orUndefined (isUnder "tasks" request.url) (field body "id")
  let incompleteDestination := record (field body "incompleteTaskDestination")
  let organizationId ← matchingScopeIdentifier "organizationId"
    [field params "organizationId", field body "organizationId", field query "organizationId"]
  let workspaceId ← matchingScopeIdentifier "workspaceId"
    [field params "workspaceId", workspacePathId, field body "workspaceId", field query "workspaceId"]
  let projectId ← matchingScopeIdentifier "projectId"
    [field params "projectId", projectPathId, field body "projectId", field query "projectId"]
  return {
    organizationId, workspaceId, projectId
    resources := {
      taskIds := identifiers [field params "taskId", taskPathId, taskBodyId, field body "taskId",
        field query "taskId"]
      sprintIds := identifiers [field params "sprintId", field body "sprintId", field query "sprintId",
        field body "targetSprintId", field body "expectedFromSprintId",
        field incompleteDestination "sprintId"]
      checklistItemIds := identifiers [field params "itemId"]
      approvalRequestIds := identifiers [field params "approvalRequestId"]
      commentIds := if isCommentPath request.url then
          identifiers [field params "commentId", field body "id", field query "id",
            field body "parentId"]
        else [] } }

/-! ### The project of the resources -/

/-- A row that belongs to a project; a comment is deleted with its task. -/
structure ResourceRow where
  id : String
  organizationId : String
  workspaceId : String
  projectId : String
  deleted : Bool := false

structure Resources where
  tasks : List ResourceRow := []
  comments : List ResourceRow := []
  sprints : List ResourceRow := []
  checklistItems : List ResourceRow := []
  approvalRequests : List ResourceRow := []

/-- The projects of the rows with these ids, if every one is there. -/
def collect (table : List ResourceRow) (organizationId workspaceId : String) (ids : List String) :
    Except HttpError (List String) :=
  let rows := table.filter fun r => ids.contains r.id && r.organizationId = organizationId &&
    r.workspaceId = workspaceId && !r.deleted
  if ids ≠ [] ∧ rows.length ≠ ids.length then .error (.notFound "Resource not found")
  else .ok (rows.map ResourceRow.projectId)

def RequestResourceIds.count (ids : RequestResourceIds) : ℕ :=
  ids.taskIds.length + ids.sprintIds.length + ids.checklistItemIds.length +
    ids.approvalRequestIds.length + ids.commentIds.length

def trustedProjectId (R : Resources) (organizationId : String) (workspaceId : Option String)
    (ids : RequestResourceIds) : Except HttpError (Option String) :=
  if ids.count = 0 then .ok none
  else
    match workspaceId with
    | none => .error (.badRequest "workspaceId is required for scoped resources")
    | some workspaceId => do
      let ofTasks ← collect R.tasks organizationId workspaceId ids.taskIds
      let ofComments ← collect R.comments organizationId workspaceId ids.commentIds
      let ofSprints ← collect R.sprints organizationId workspaceId ids.sprintIds
      let ofItems ← collect R.checklistItems organizationId workspaceId ids.checklistItemIds
      let ofApprovals ← collect R.approvalRequests organizationId workspaceId ids.approvalRequestIds
      match (ofTasks ++ ofComments ++ ofSprints ++ ofItems ++ ofApprovals).eraseDups with
      | [projectId] => return some projectId
      | _ => throw (.notFound "Nested resources do not belong to the same project")

/-! ### The guards -/

/-- The fields of a body that name the user are set to the user of the session. -/
def bindActor (userId : String) (o : JsObject) : JsObject :=
  ["userId", "authorId", "createdBy", "savedById"].foldl
    (fun o key => if (o.get? key).isSome then o.set key (.string userId) else o)
    (o.set "actorId" (.string userId))

def bindQuery (userId : String) (o : JsObject) : JsObject :=
  let o := o.set "actorId" (.string userId)
  if (o.get? "userId").isSome then o.set "userId" (.string userId) else o

/-- `record` of a value that is no object is a new object, and what is set there is lost. -/
def onObject (f : JsObject → JsObject) : JsValue → JsValue
  | .object o => .object (f o)
  | v => v

def ScopeRequest.bind (userId : String) (request : ScopeRequest) : ScopeRequest :=
  { request with
    body := onObject (bindActor userId) request.body
    query := onObject (bindQuery userId) request.query }

/-- The scope in which `TenantGuard` judges the request; none without an organization. -/
def tenantScope (R : Resources) (userId : String) (request : ScopeRequest) :
    Except HttpError (Option AuthorizationScope) := do
  let explicitScope ← explicitRequestScope (request.bind userId)
  if explicitScope.workspaceId.isSome ∧ explicitScope.organizationId.isNone then
    throw (.badRequest "organizationId is required with workspaceId")
  if explicitScope.projectId.isSome ∧ explicitScope.workspaceId.isNone then
    throw (.badRequest "workspaceId is required with projectId")
  match explicitScope.organizationId with
  | none => return none
  | some organizationId =>
    let trusted ← trustedProjectId R organizationId explicitScope.workspaceId explicitScope.resources
    if explicitScope.projectId.isSome ∧ trusted.isSome ∧ explicitScope.projectId ≠ trusted then
      throw (.forbidden "Resource does not belong to the requested project")
    return some { organizationId, workspaceId := explicitScope.workspaceId
                  projectId := explicitScope.projectId.or trusted }

/-- `TenantGuard.canActivate`: the decision it leaves in the request. -/
def tenantGuard (T : Tables) (R : Resources) (userId : String) (request : ScopeRequest) :
    Except HttpError (Option AuthorizationDecision) := do
  match ← tenantScope R userId request with
  | none => return none
  | some scope =>
    let decision := resolve T userId scope
    if decision.member then return some decision
    else throw (.forbidden "The authenticated user is not a member of this tenant")

/-- `PermissionGuard.canActivate` of a route that requires a permission -/
def permissionGuard (permission : String) (decision : Option AuthorizationDecision) :
    Except HttpError Unit :=
  if decision.any fun d => d.permissions.contains permission then .ok ()
  else .error (.forbidden s!"Permission '{permission}' is required")

/-- Both guards of a route that requires `tasks.create`. -/
def admits (T : Tables) (R : Resources) (userId : String) (request : ScopeRequest) :
    Except HttpError Unit := do
  permissionGuard "tasks.create" (← tenantGuard T R userId request)

/-! ### What the guards look at -/

variable {userId : String} {values : List JsValue}

theorem get?_set (o : JsObject) (key key' : String) (v : JsValue) :
    (o.set key v).get? key' = if key = key' then some v else o.get? key' := by
  unfold JsObject.set JsObject.get?
  by_cases hany : (o.any fun p => p.1 = key) = true
  · rw [if_pos hany, List.find?_map]
    have hfst : (fun p : String × JsValue => decide (p.1 = key')) ∘
        (fun p => if p.1 = key then (key, v) else p) = fun p => decide (p.1 = key') := by
      funext p
      by_cases hp : p.1 = key <;> simp [hp]
    rw [hfst]
    cases hfind : o.find? fun p => p.1 = key' with
    | none =>
      have hne : key ≠ key' := by
        rintro rfl
        rw [List.find?_eq_none] at hfind
        obtain ⟨p, hp, hpk⟩ := List.any_eq_true.mp hany
        exact hfind p hp hpk
      simp [hne]
    | some p =>
      have hp : p.1 = key' := by simpa using List.find?_some hfind
      by_cases hk : key = key'
      · simp [hk, hp]
      · have hpk : p.1 ≠ key := fun h => hk (h.symm.trans hp)
        simp [hk, hpk]
  · have hnone : o.find? (fun p => p.1 = key) = none := by
      rw [List.find?_eq_none]
      intro p hp hpk
      exact hany (List.any_eq_true.mpr ⟨p, hp, hpk⟩)
    rw [if_neg hany, List.find?_append]
    by_cases hk : key = key'
    · subst hk
      simp [hnone]
    · simp [hk]

theorem get?_set_ne {o : JsObject} {key key' : String} {v : JsValue} (h : key ≠ key') :
    (o.set key v).get? key' = o.get? key' := by
  rw [get?_set, if_neg h]

theorem field_bindActor {key : String} (o : JsObject)
    (hk : key ∉ ["actorId", "userId", "authorId", "createdBy", "savedById"]) :
    field (bindActor userId o) key = field o key := by
  have hite : ∀ (o : JsObject) (k : String), k ≠ key →
      (if (o.get? k).isSome then o.set k (.string userId) else o).get? key = o.get? key := by
    intro o k hne
    split
    · exact get?_set_ne hne
    · rfl
  simp only [List.mem_cons, List.not_mem_nil, or_false, not_or] at hk
  simp only [field, bindActor, List.foldl_cons, List.foldl_nil]
  rw [hite _ _ (Ne.symm hk.2.2.2.2), hite _ _ (Ne.symm hk.2.2.2.1), hite _ _ (Ne.symm hk.2.2.1),
    hite _ _ (Ne.symm hk.2.1), get?_set_ne (Ne.symm hk.1)]

theorem field_bindQuery {key : String} (o : JsObject) (ha : "actorId" ≠ key) (hu : "userId" ≠ key) :
    field (bindQuery userId o) key = field o key := by
  simp only [field, bindQuery]
  split
  · rw [get?_set_ne hu, get?_set_ne ha]
  · rw [get?_set_ne ha]

theorem mem_identifiers {x : String} :
    x ∈ identifiers values ↔ ∃ v ∈ values, identifier v = some x := by
  simp [identifiers, List.mem_eraseDups]

theorem identifier_string {s : String} (h : trim s ≠ "") : identifier (.string s) = some (trim s) :=
  if_neg h

theorem matchingScopeIdentifier_toList {name : String} {r : Option String}
    (h : values.filterMap identifier = r.toList) : matchingScopeIdentifier name values = .ok r := by
  have hids : identifiers values = r.toList := by
    rw [identifiers, h]
    cases r with
    | none => rfl
    | some x => rw [Option.toList_some, List.eraseDups_cons, List.filter_nil, List.eraseDups_nil]
  have hhead : r.toList.head? = r := by
    cases r <;> rfl
  have hlen : ¬ 1 < r.toList.length := by
    cases r <;> simp
  simp only [matchingScopeIdentifier, hids, hhead, if_neg hlen]

theorem matchingScopeIdentifier_ok {name : String} {r : Option String} {v : JsValue} {x : String}
    (h : matchingScopeIdentifier name values = .ok r) (hv : v ∈ values)
    (hx : identifier v = some x) : r = some x := by
  unfold matchingScopeIdentifier at h
  simp only at h
  split at h
  · cases h
  · next hlen =>
    have hmem := mem_identifiers.mpr ⟨v, hv, hx⟩
    cases hids : identifiers values with
    | nil => rw [hids] at hmem; cases hmem
    | cons y rest =>
      rw [hids] at hlen hmem h
      have hrest : rest = [] := by
        rw [← List.length_eq_zero_iff]
        rw [List.length_cons] at hlen
        omega
      subst hrest
      rw [List.mem_singleton] at hmem
      rw [hmem]
      exact (Except.ok.inj h).symm

theorem admits_iff {T : Tables} {R : Resources} {request : ScopeRequest} :
    admits T R userId request = .ok () ↔ ∃ scope, tenantScope R userId request = .ok (some scope) ∧
      "tasks.create" ∈ (resolve T userId scope).permissions := by
  unfold admits tenantGuard
  cases hscope : tenantScope R userId request with
  | error e => simp [Bind.bind, Except.bind]
  | ok scope =>
    cases scope with
    | none => simp [Bind.bind, Except.bind, permissionGuard, pure, Except.pure]
    | some scope =>
      have hmember : "tasks.create" ∈ (resolve T userId scope).permissions →
          (resolve T userId scope).member = true := by
        unfold resolve
        split
        · intro h
          cases h
        · exact fun _ => rfl
      by_cases hheld : "tasks.create" ∈ (resolve T userId scope).permissions
      · simp [Bind.bind, Except.bind, permissionGuard, pure, Except.pure, hmember hheld, hheld]
      · by_cases hm : (resolve T userId scope).member = true <;>
          simp [Bind.bind, Except.bind, permissionGuard, pure, Except.pure, throw, throwThe,
            MonadExceptOf.throw, hm, hheld]

/-! ### Tasks one by one, and in a list -/

/-- The fields of a task, without those of its context. -/
def taskFields : List String :=
  ["projectId", "title", "sectionId", "parentId", "description", "status", "priority", "assigneeId",
    "assigneeIds", "followerIds", "reporterId", "startDate", "dueDate", "timezone", "estimatedHours",
    "loggedHours", "progress", "order", "tags", "customFields", "storyPoints", "delayReason",
    "reminders", "recurrence", "isRecurring", "isMilestone"]

/-- An element of `taskImportSchema`, with a project. -/
structure TaskElement where
  fields : JsObject
  projectId : String
  known : ∀ p ∈ fields, p.1 ∈ taskFields
  names : fields.get? "projectId" = some (.string projectId)
  filled : trim projectId ≠ ""

/-- The body of an import, as `taskImportSchema` accepts it. -/
structure TaskImport where
  organizationId : String
  workspaceId : String
  tasks : List TaskElement
  organizationFilled : trim organizationId ≠ ""
  workspaceFilled : trim workspaceId ≠ ""

/-- `POST /tasks/import` -/
def TaskImport.request (i : TaskImport) (query : JsObject := []) : ScopeRequest where
  url := "/tasks/import"
  body := .object [("organizationId", .string i.organizationId),
    ("workspaceId", .string i.workspaceId), ("tasks", .array (i.tasks.map fun t => .object t.fields))]
  query := .object query

/-- `POST /tasks` with one of the tasks -/
def TaskImport.create (i : TaskImport) (t : TaskElement) : ScopeRequest where
  url := "/tasks"
  body := .object (("organizationId", .string i.organizationId) ::
    ("workspaceId", .string i.workspaceId) :: t.fields)

theorem field_unknown (t : TaskElement) (key : String) (hk : key ∉ taskFields) :
    t.fields.get? key = none := by
  unfold JsObject.get?
  rw [Option.map_eq_none_iff, List.find?_eq_none]
  intro p hp hpk
  rw [decide_eq_true_eq] at hpk
  exact hk (hpk ▸ t.known p hp)

theorem field_create (userId : String) (i : TaskImport) (t : TaskElement) (key : String)
    (hk : key ∉ ["actorId", "userId", "authorId", "createdBy", "savedById"]) :
    field (record ((i.create t).bind userId).body) key =
      if key = "organizationId" then .string i.organizationId
      else if key = "workspaceId" then .string i.workspaceId
      else (t.fields.get? key).getD .undefined := by
  have hbind : field (record ((i.create t).bind userId).body) key =
      field (("organizationId", .string i.organizationId) ::
        ("workspaceId", .string i.workspaceId) :: t.fields) key := field_bindActor _ hk
  rw [hbind]
  by_cases ho : key = "organizationId"
  · simp [field, JsObject.get?, ho]
  · by_cases hw : key = "workspaceId"
    · simp [field, JsObject.get?, hw]
    · have ho' : "organizationId" ≠ key := fun h => ho h.symm
      have hw' : "workspaceId" ≠ key := fun h => hw h.symm
      simp [field, JsObject.get?, ho, hw, ho', hw']

theorem explicitRequestScope_create (userId : String) (i : TaskImport) (t : TaskElement) :
    explicitRequestScope ((i.create t).bind userId) = .ok {
      organizationId := some (trim i.organizationId), workspaceId := some (trim i.workspaceId)
      projectId := some (trim t.projectId), resources := ⟨[], [], [], [], []⟩ } := by
  have hbody := field_create userId i t
  have hunknown := field_unknown t
  -- an empty query names nothing
  have hquery : ∀ key, "actorId" ≠ key → "userId" ≠ key →
      field (record ((i.create t).bind userId).query) key = .undefined :=
    fun key ha hu => field_bindQuery [] ha hu
  have hparams : ∀ key, field (record ((i.create t).bind userId).params) key = .undefined :=
    fun _ => rfl
  have hurl : ((i.create t).bind userId).url = "/tasks" := rfl
  obtain ⟨hp₁, hp₂, hp₃, hp₄, hp₅⟩ : namesOne "workspaces" "/tasks" = false ∧
      namesOne "projects" "/tasks" = false ∧ namesOne "tasks" "/tasks" = false ∧
      isUnder "tasks" "/tasks" = true ∧ isCommentPath "/tasks" = false := by
    decide
  simp only [explicitRequestScope, hurl, hparams, hp₁, hp₂, hp₃, hp₄, hp₅]
  rw [hbody "organizationId" (by decide), hbody "workspaceId" (by decide),
    hbody "projectId" (by decide), hbody "id" (by decide), hbody "taskId" (by decide),
    hbody "sprintId" (by decide), hbody "targetSprintId" (by decide),
    hbody "expectedFromSprintId" (by decide), hbody "incompleteTaskDestination" (by decide)]
  rw [hunknown "id" (by decide), hunknown "taskId" (by decide), hunknown "sprintId" (by decide),
    hunknown "targetSprintId" (by decide), hunknown "expectedFromSprintId" (by decide),
    hunknown "incompleteTaskDestination" (by decide), t.names]
  rw [hquery "organizationId" (by decide) (by decide), hquery "workspaceId" (by decide) (by decide),
    hquery "projectId" (by decide) (by decide), hquery "taskId" (by decide) (by decide),
    hquery "sprintId" (by decide) (by decide)]
  have hnone : identifier .undefined = none := rfl
  have horganization := identifier_string i.organizationFilled
  have hworkspace := identifier_string i.workspaceFilled
  have hproject := identifier_string t.filled
  rw [matchingScopeIdentifier_toList (r := some (trim i.organizationId)),
    matchingScopeIdentifier_toList (r := some (trim i.workspaceId)),
    matchingScopeIdentifier_toList (r := some (trim t.projectId))]
  · rfl
  · simp [orUndefined, hnone, hproject]
  · simp [orUndefined, hnone, hworkspace]
  · simp [hnone, horganization]

theorem tenantScope_create (R : Resources) (userId : String) (i : TaskImport) (t : TaskElement) :
    tenantScope R userId (i.create t) = .ok (some (scopeOf (trim i.organizationId)
      (trim i.workspaceId) (some (trim t.projectId)))) := by
  simp [tenantScope, explicitRequestScope_create, trustedProjectId, RequestResourceIds.count, scopeOf,
    Bind.bind, Except.bind, pure, Except.pure]

/-- The project that the query of an import names, or that of the resources it names. -/
def TaskImport.queryProject (R : Resources) (i : TaskImport) (query : JsObject) : Option String :=
  let resources : RequestResourceIds :=
    { taskIds := identifiers [field query "taskId"], sprintIds := identifiers [field query "sprintId"]
      checklistItemIds := [], approvalRequestIds := [], commentIds := [] }
  (identifier (field query "projectId")).or
    ((trustedProjectId R (trim i.organizationId) (some (trim i.workspaceId)) resources).toOption.join)

theorem explicitRequestScope_import {i : TaskImport} {query : JsObject} {e : ExplicitRequestScope}
    (h : explicitRequestScope ((i.request query).bind userId) = .ok e) :
    e = { organizationId := some (trim i.organizationId), workspaceId := some (trim i.workspaceId)
          projectId := identifier (field query "projectId")
          resources := ⟨identifiers [field query "taskId"], identifiers [field query "sprintId"],
            [], [], []⟩ } := by
  have hbody : ∀ key, key ∉ ["actorId", "userId", "authorId", "createdBy", "savedById"] →
      field (record ((i.request query).bind userId).body) key =
        if key = "organizationId" then .string i.organizationId
        else if key = "workspaceId" then .string i.workspaceId
        else if key = "tasks" then .array (i.tasks.map fun t => .object t.fields) else .undefined := by
    intro key hk
    refine (field_bindActor _ hk).trans ?_
    simp only [field, JsObject.get?, List.find?_cons, List.find?_nil, eq_comm (a := key)]
    by_cases ho : "organizationId" = key
    · simp [ho]
    · by_cases hw : "workspaceId" = key
      · simp [ho, hw]
      · by_cases ht : "tasks" = key <;> simp [ho, hw, ht]
  have hquery : ∀ key, "actorId" ≠ key → "userId" ≠ key →
      field (record ((i.request query).bind userId).query) key = field query key :=
    fun key ha hu => field_bindQuery query ha hu
  have hparams : ∀ key, field (record ((i.request query).bind userId).params) key = .undefined :=
    fun _ => rfl
  have hurl : ((i.request query).bind userId).url = "/tasks/import" := rfl
  obtain ⟨hp₁, hp₂, hp₃, hp₄, hp₅⟩ : namesOne "workspaces" "/tasks/import" = false ∧
      namesOne "projects" "/tasks/import" = false ∧ namesOne "tasks" "/tasks/import" = true ∧
      isUnder "tasks" "/tasks/import" = true ∧ isCommentPath "/tasks/import" = false := by
    decide
  simp only [explicitRequestScope, hurl, hparams, hp₁, hp₂, hp₃, hp₄, hp₅] at h
  rw [hbody "organizationId" (by decide), hbody "workspaceId" (by decide),
    hbody "projectId" (by decide), hbody "id" (by decide), hbody "taskId" (by decide),
    hbody "sprintId" (by decide), hbody "targetSprintId" (by decide),
    hbody "expectedFromSprintId" (by decide), hbody "incompleteTaskDestination" (by decide)] at h
  rw [hquery "organizationId" (by decide) (by decide), hquery "workspaceId" (by decide) (by decide),
    hquery "projectId" (by decide) (by decide), hquery "taskId" (by decide) (by decide),
    hquery "sprintId" (by decide) (by decide)] at h
  obtain ⟨o, ho, h⟩ := bind_ok.mp h
  obtain ⟨w, hw, h⟩ := bind_ok.mp h
  obtain ⟨p, hp, h⟩ := bind_ok.mp h
  have hnone : identifier .undefined = none := rfl
  have ho' := matchingScopeIdentifier_ok (v := .string i.organizationId) ho (by simp)
    (identifier_string i.organizationFilled)
  have hw' := matchingScopeIdentifier_ok (v := .string i.workspaceId) hw (by simp [orUndefined])
    (identifier_string i.workspaceFilled)
  have hp' : p = identifier (field query "projectId") := by
    have hvalues : ([JsValue.undefined, .undefined, .undefined, field query "projectId"].filterMap
        identifier) = (identifier (field query "projectId")).toList := by
      cases hid : identifier (field query "projectId") <;> simp [hnone, hid]
    exact Except.ok.inj (hp.symm.trans (matchingScopeIdentifier_toList hvalues))
  rw [← pure_ok.mp h, ho', hw', hp']
  rfl

theorem tenantScope_import {R : Resources} {i : TaskImport} {query : JsObject}
    {scope : AuthorizationScope} (h : tenantScope R userId (i.request query) = .ok (some scope)) :
    scope = scopeOf (trim i.organizationId) (trim i.workspaceId) (i.queryProject R query) := by
  unfold tenantScope at h
  obtain ⟨e, he, h⟩ := bind_ok.mp h
  obtain rfl := explicitRequestScope_import he
  simp only [Option.isSome_some, Option.isNone_some, Bool.false_eq_true, and_false,
    if_false] at h
  obtain ⟨trusted, htrusted, h⟩ := bind_ok.mp h
  have hproject : i.queryProject R query = (identifier (field query "projectId")).or trusted := by
    simp [TaskImport.queryProject, htrusted, Except.toOption]
  rw [hproject]
  split at h
  · cases h
  · exact (Option.some.inj (pure_ok.mp h)).symm

/-- The rules of the project of a task let the member create it there, who may import it. -/
def AllowsCreate (T : Tables) (organizationId workspaceId userId : String) (m : MembershipRow)
    (named : Option String) (projectId : String) : Prop :=
  (∀ o ∈ T.overrides, Overrides organizationId workspaceId m.id projectId "tasks.create" o →
    o.allow = true) ∧
  (named = none ∨ Held T organizationId workspaceId userId none "tasks.create" ∨
    (∃ o ∈ T.overrides, Overrides organizationId workspaceId m.id projectId "tasks.create" o) ∨
    ¬ WiderRule T organizationId workspaceId m.id "tasks.create" ∧
      RoleGrants T organizationId workspaceId m.id projectId "tasks.create")

/-- What an import of the tasks allows is allowed one by one where the rules of their projects say
so; an import without a project is judged in the workspace. -/
theorem import_grants (T : Tables) (R : Resources) (userId : String) (i : TaskImport)
    (query : JsObject) (hadm : admits T R userId (i.request query) = .ok ()) :
    ∃ m, membershipIn T userId (scopeOf (trim i.organizationId) (trim i.workspaceId) none) = some m ∧
      ((∀ t ∈ i.tasks, admits T R userId (i.create t) = .ok ()) ↔
        ∀ t ∈ i.tasks, AllowsCreate T (trim i.organizationId) (trim i.workspaceId) userId m
          (i.queryProject R query) (trim t.projectId)) := by
  obtain ⟨scope, hscope, hheld⟩ := admits_iff.mp hadm
  obtain rfl := tenantScope_import hscope
  change Held T _ _ userId (i.queryProject R query) "tasks.create" at hheld
  obtain ⟨m, hm⟩ : ∃ m, membershipIn T userId
      (scopeOf (trim i.organizationId) (trim i.workspaceId) none) = some m := by
    cases hm : membershipIn T userId (scopeOf (trim i.organizationId) (trim i.workspaceId) none) with
    | some m => exact ⟨m, rfl⟩
    | none =>
      have hm' : membershipIn T userId (scopeOf (trim i.organizationId) (trim i.workspaceId)
          (i.queryProject R query)) = none := hm
      simp [Held, resolve, hm'] at hheld
  refine ⟨m, hm, forall₂_congr fun t _ => ?_⟩
  have hcreate : admits T R userId (i.create t) = .ok () ↔ Held T (trim i.organizationId)
      (trim i.workspaceId) userId (some (trim t.projectId)) "tasks.create" := by
    rw [admits_iff, tenantScope_create]
    constructor
    · rintro ⟨scope, hscope, hheld⟩
      obtain rfl := Option.some.inj (Except.ok.inj hscope)
      exact hheld
    · exact fun hheld => ⟨_, rfl, hheld⟩
  rw [hcreate, held_project hm, AllowsCreate]
  constructor
  · exact fun h => ⟨h.1, .inr h.2⟩
  · rintro ⟨hall, hnone | hrest⟩
    · exact ⟨hall, .inl (hnone ▸ hheld)⟩
    · exact ⟨hall, hrest⟩

def sampleElement (projectId : String) (hfilled : trim projectId ≠ "") : TaskElement where
  fields := [("projectId", .string projectId), ("title", .string "Plan")]
  projectId := projectId
  known := by
    intro p hp
    have hkey : p.1 = "projectId" ∨ p.1 = "title" := by
      rcases List.mem_cons.mp hp with rfl | hp
      · exact .inl rfl
      · rw [List.mem_singleton.mp hp]
        exact .inr rfl
    rcases hkey with hkey | hkey <;> rw [hkey] <;> decide
  names := rfl
  filled := hfilled

/-- One task in each of two projects. -/
def sampleImport : TaskImport where
  organizationId := "o"
  workspaceId := "w"
  tasks := [sampleElement "p" (by decide), sampleElement "q" (by decide)]
  organizationFilled := by decide
  workspaceFilled := by decide

/-- A member whose role in the workspace grants the permission, and an override in the project. -/
def sampleTables (allow : Bool) : Tables where
  memberships := [{ id := "m", userId := "u", organizationId := "o", workspaceId := some "w" }]
  roles := [{ id := "r", key := "workspace.member" }]
  bindings := [{ organizationId := "o", membershipId := "m", scope := .workspace
                 workspaceId := some "w", roleId := "r" }]
  rolePermissions := [{ roleId := "r", permissionKey := "tasks.create" }]
  overrides := [{ organizationId := "o", membershipId := "m", scope := .project
                  workspaceId := some "w", projectId := some "p", permissionKey := "tasks.create"
                  allow }]

theorem import_grants_sample : ∃ m, membershipIn (sampleTables true) "u"
      (scopeOf (trim "o") (trim "w") none) = some m ∧
    ((∀ t ∈ sampleImport.tasks, admits (sampleTables true) {} "u" (sampleImport.create t) = .ok ()) ↔
      ∀ t ∈ sampleImport.tasks, AllowsCreate (sampleTables true) (trim "o") (trim "w") "u" m
        (sampleImport.queryProject {} []) (trim t.projectId)) :=
  import_grants (sampleTables true) {} "u" sampleImport [] (by decide)

/-- The override denies the permission in `p`: the import is admitted, its first task alone is not. -/
theorem import_denied_alone :
    admits (sampleTables false) {} "u" sampleImport.request = .ok () ∧
    ∃ t ∈ sampleImport.tasks, admits (sampleTables false) {} "u" (sampleImport.create t) =
      .error (.forbidden "Permission 'tasks.create' is required") :=
  ⟨by decide, _, List.mem_cons_self, by decide⟩

end CalmBoard.Authorization
