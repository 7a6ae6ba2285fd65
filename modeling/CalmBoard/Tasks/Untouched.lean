import CalmBoard.Tasks.Writer

/-!
# CalmBoard.Tasks.Untouched — updates that mention no people, against the membership table

An update that names no assignee, follower or reporter writes none of them.  Its check still looks
up the assignees the task already has.

* `writeUpdate_withMembers`: the writes do not read the membership table.
* `edits_ignore_members_iff`: when an update comes to the same with every membership table.
-/

namespace CalmBoard

/-- The database with another membership table. -/
def Db.withMembers (db : Db) (members : List Uuid) : Db := { db with members }

namespace Tasks

open Text Fallible

/-! ### The writes -/

/-- A write that does not read the membership table. -/
def Unread (f : Db → Except RepoError Db) : Prop :=
  ∀ db m, f (db.withMembers m) = (f db).map (·.withMembers m)

section Unread

variable {rt : Runtime} {db : Db} {m : List Uuid} {taskId : Uuid}

theorem bind_withMembers {x y : Except RepoError Db} {f : Db → Except RepoError Db}
    (h : y = x.map (·.withMembers m)) (hf : Unread f) :
    (y >>= f) = (x >>= f).map (·.withMembers m) := by
  subst h
  cases x with
  | error e => rfl
  | ok db => exact hf db m

theorem foldlM_withMembers {α : Type} {f : Db → α → Except RepoError Db}
    (h : ∀ a, Unread fun db => f db a) : ∀ l : List α, Unread fun db => l.foldlM f db
  | [], _, _ => rfl
  | a :: l, db, m => by
    simp only [List.foldlM_cons]
    exact bind_withMembers (h a db m) (foldlM_withMembers h l)

theorem insertRecurrence_withMembers (rule : TaskRecurrenceRow) :
    Unread fun db => insertRecurrence rt db rule := by
  intro db m
  show insertRecurrence rt (db.withMembers m) rule = (insertRecurrence rt db rule).map _
  unfold insertRecurrence
  rw [show hasRecurrenceRule (db.withMembers m) = hasRecurrenceRule db from rfl]
  split_ifs <;> rfl

theorem closeRecurrence_withMembers (d : Timestamptz) :
    closeRecurrence (db.withMembers m) taskId d = (closeRecurrence db taskId d).withMembers m := by
  unfold closeRecurrence
  rw [show hasRecurrenceRule (db.withMembers m) = hasRecurrenceRule db from rfl]
  split_ifs <;> rfl

theorem syncRecurrenceRule_withMembers (old new : TaskRow) :
    Unread fun db => syncRecurrenceRule rt db old new := by
  intro db m
  show syncRecurrenceRule rt (db.withMembers m) old new = (syncRecurrenceRule rt db old new).map _
  unfold syncRecurrenceRule
  rw [show hasRecurrenceRule (db.withMembers m) = hasRecurrenceRule db from rfl]
  split_ifs
  · rfl
  · rfl
  · exact insertRecurrence_withMembers _ db m
  · exact congrArg Except.ok (closeRecurrence_withMembers _)
  · rfl

theorem writeRecurrence_withMembers (o : Option (Option NormalizedRecurrence)) :
    Unread fun db => writeRecurrence rt db taskId o := by
  intro db m
  match o with
  | none => rfl
  | some none => exact congrArg Except.ok (closeRecurrence_withMembers _)
  | some (some r) =>
    show (recurrenceRow taskId r >>= fun rule => _) = Except.map _ (recurrenceRow taskId r >>= fun rule => _)
    cases recurrenceRow taskId r with
    | error e => rfl
    | ok rule =>
      show insertRecurrence rt (closeRecurrence (db.withMembers m) taskId db.newDate) rule = _
      rw [closeRecurrence_withMembers]
      exact insertRecurrence_withMembers rule _ m

theorem insertDependency_withMembers (k : Deps.DependencyKey) :
    Unread fun db => Deps.insertDependency taskId db k := by
  intro db m
  show Deps.insertDependency taskId (db.withMembers m) k = (Deps.insertDependency taskId db k).map _
  unfold Deps.insertDependency
  simp only [Db.withMembers]
  split
  · rfl
  · rfl
  · split <;> rfl

theorem writeDependencies_withMembers (links : Option (List Deps.DependencyLink)) :
    Unread fun db => writeDependencies db taskId links := by
  intro db m
  cases links with
  | none => rfl
  | some links =>
    show Deps.replaceTaskDependencies (db.withMembers m) taskId links =
      (Deps.replaceTaskDependencies db taskId links).map _
    have hinsert : ∀ dependencies (keys : List Deps.DependencyKey),
        keys.foldlM (Deps.insertDependency taskId) { db.withMembers m with dependencies } =
          (keys.foldlM (Deps.insertDependency taskId) { db with dependencies }).map
            (·.withMembers m) :=
      fun dependencies keys =>
        foldlM_withMembers insertDependency_withMembers keys { db with dependencies } m
    unfold Deps.replaceTaskDependencies
    rw [show (db.withMembers m).dependencies = db.dependencies from rfl]
    cases Deps.desiredKeys taskId links with
    | error e => rfl
    | ok desired =>
      simp only [Except.bind, Bind.bind]
      split
      · rfl
      · cases Deps.assertNoDependencyCycle (Deps.proposedEdges taskId db.dependencies.rows
          (db.dependencies.rows.filter fun d => d.active && d.dependentTaskId = taskId) desired) with
        | error e => rfl
        | ok _ => exact hinsert _ _

theorem recordTaskChange_withMembers (before after : TaskRow) :
    Sprints.recordTaskChange (db.withMembers m) before after =
      (Sprints.recordTaskChange db before after).withMembers m := by
  have happend : ∀ (projectId sprintId taskId : Uuid) (now : Timestamptz)
      (evs : List Sprints.AnalyticsEventPayload) (db : Db),
      Sprints.appendSprintAnalyticsEvents (db.withMembers m) projectId sprintId taskId now evs =
        (Sprints.appendSprintAnalyticsEvents db projectId sprintId taskId now evs).withMembers m := by
    intro projectId sprintId taskId now evs
    induction evs with
    | nil => exact fun _ => rfl
    | cons e evs ih => exact fun db => ih (Sprints.appendSprintAnalyticsEvent db _ _ _ _ e)
  unfold Sprints.recordTaskChange
  cases after.sprintId with
  | none => rfl
  | some sprintId =>
    simp only
    rw [show Sprints.isActiveSprint (db.withMembers m) = Sprints.isActiveSprint db from rfl]
    split
    · exact happend _ _ _ _ _ _
    · rfl

theorem Unread.bind {f g : Db → Except RepoError Db} (hf : Unread f) (hg : Unread g) :
    Unread fun db => f db >>= g :=
  fun db m => bind_withMembers (hf db m) hg

end Unread

/-! ### Updates without people -/

/-- The update names no assignee, follower or reporter. -/
structure UpdateTaskInput.LeavesPeople (input : UpdateTaskInput) : Prop where
  assignment : input.toTaskAssignmentInput = {}
  followerIds : input.followerIds = none
  reporterId : input.reporterId = none

/-- The assignees an update without people resolves: those the task has. -/
def HydratedTask.currentIds (before : HydratedTask) : List Uuid :=
  if before.assigneeIds ≠ [] then before.assigneeIds else before.row.assigneeId.toList

section Update

variable {rt : Runtime} {db : Db} {m : List Uuid} {taskId : Uuid} {input : UpdateTaskInput}
  {before : HydratedTask} {plan : UpdatePlan}

theorem resolveTaskAssignmentUpdate_empty {a : ResolvedTaskAssignmentUpdate}
    (h : resolveTaskAssignmentUpdate before.row.assigneeId before.assigneeIds {} = .ok a) :
    a.assigneeIds = before.currentIds ∧ a.addedAssigneeIds = [] ∧ a.changed = false ∧
      a.hasAssigneeMutation = false := by
  simp only [resolveTaskAssignmentUpdate, bind_ok, pure_ok, targetAssignment] at h
  obtain ⟨target, htarget, _, -, rfl⟩ := h
  cases htarget
  refine ⟨rfl, ?_, rfl, rfl⟩
  exact List.filter_eq_nil_iff.mpr fun id hid => by simpa using hid

theorem planUpdate_people (h : input.LeavesPeople)
    (hplan : planUpdate rt db taskId input = .ok plan) :
    plan.resolved.assignment.addedAssigneeIds = [] ∧ plan.resolved.assignment.changed = false ∧
      plan.updates.assigneeId = none ∧ plan.updates.reporterId = none := by
  obtain ⟨-, -, hresolved, hupdates⟩ := planUpdate_ok hplan
  simp only [resolveUpdate, bind_ok, pure_ok, h.assignment] at hresolved
  obtain ⟨state, -, a, ha, hr⟩ := hresolved
  obtain ⟨-, hadded, hchanged, hmutation⟩ := resolveTaskAssignmentUpdate_empty ha
  rw [hupdates, ← hr]
  refine ⟨hadded, hchanged, ?_, h.reporterId⟩
  show (if a.hasAssigneeMutation = true ∧ _ then _ else input.assigneeId) = none
  rw [hmutation, if_neg (fun hm => Bool.false_ne_true hm.1)]
  exact congrArg TaskAssignmentInput.assigneeId h.assignment

theorem writeTaskRow_withMembers (hlead : plan.updates.assigneeId = none)
    (hreporter : plan.updates.reporterId = none) (after : TaskRow) :
    Unread fun db => writeTaskRow rt db plan after := by
  intro db m
  show writeTaskRow rt (db.withMembers m) plan after = (writeTaskRow rt db plan after).map _
  unfold writeTaskRow
  rw [hlead, hreporter]
  exact syncRecurrenceRule_withMembers plan.before.row after { db with tasks := db.tasks.put after } m

theorem writeFollowers_withMembers {a : ResolvedTaskAssignmentUpdate}
    (hadded : a.addedAssigneeIds = []) : Unread fun db => writeFollowers db before a none := by
  intro db m
  show writeFollowers (db.withMembers m) before a none = (writeFollowers db before a none).map _
  have hnobody : ∀ db taskId, ensureWatchers db taskId a.addedAssigneeIds = .ok db := by
    intro db taskId
    rw [hadded]
    rfl
  simp only [writeFollowers, hnobody, Bind.bind, Except.bind]
  cases a.assigneeId with
  | none => rfl
  | some lead =>
    simp only
    split_ifs <;> rfl

/-- **The writes of an update without people** do not read the membership table. -/
theorem writeUpdate_withMembers (h : input.LeavesPeople)
    (hplan : planUpdate rt db taskId input = .ok plan) :
    writeUpdate rt (db.withMembers m) input plan =
      (writeUpdate rt db input plan).map (·.withMembers m) := by
  obtain ⟨hadded, hchanged, hlead, hreporter⟩ := planUpdate_people h hplan
  have hdemoted : ∀ (db : Db) taskId lead,
      demoteLead db taskId plan.resolved.assignment lead = db := by
    intro db taskId lead
    unfold demoteLead
    rw [if_neg fun hc => Bool.false_ne_true (hchanged.symm.trans hc.1)]
  have hassignees : ∀ (db : Db) taskId,
      writeAssignees db taskId plan.resolved.assignment = db := by
    intro db taskId
    unfold writeAssignees
    rw [if_neg fun hc => Bool.false_ne_true (hchanged.symm.trans hc)]
  have hrecorded : ∀ after : TaskRow, Unread fun db =>
      pure (Sprints.recordTaskChange db plan.before.row after) :=
    fun after db m => congrArg Except.ok (recordTaskChange_withMembers _ _)
  have hreminders : ∀ (db : Db) (m : List Uuid) taskId, writeReminders (db.withMembers m) taskId
      plan.reminders = (writeReminders db taskId plan.reminders).withMembers m := by
    intro db m taskId
    cases plan.reminders <;> rfl
  have hrecurred : ∀ (after : TaskRow) o, Unread fun db =>
      writeRecurrence rt (writeReminders db plan.before.row.id plan.reminders) plan.before.row.id o
        >>= fun db => pure (Sprints.recordTaskChange db plan.before.row after) := by
    intro after o db m
    show (writeRecurrence rt (writeReminders (db.withMembers m) _ _) _ o >>= _) = _
    rw [hreminders]
    exact (writeRecurrence_withMembers o).bind (hrecorded after) _ m
  have hrest : ∀ after o, Unread fun db => writeTaskRow rt db plan after >>= fun db =>
      writeFollowers db plan.before plan.resolved.assignment none >>= fun db =>
        writeDependencies db plan.before.row.id plan.dependencies >>= fun db =>
          writeRecurrence rt (writeReminders db plan.before.row.id plan.reminders)
            plan.before.row.id o >>= fun db =>
              pure (Sprints.recordTaskChange db plan.before.row after) := fun after o =>
    (writeTaskRow_withMembers hlead hreporter after).bind
      ((writeFollowers_withMembers hadded).bind
        ((writeDependencies_withMembers plan.dependencies).bind (hrecurred after o)))
  simp only [writeUpdate, hdemoted, hassignees, h.followerIds]
  split
  · rfl
  · rw [show (db.withMembers m).newDate = db.newDate from rfl]
    cases updateColumns db.newDate plan.updates plan.customFields plan.before.row with
    | error e => rfl
    | ok after => exact hrest after _ db m

theorem parentChainFrom_withMembers : ∀ (fuel : ℕ) (ancestors : List Uuid) (current : Option Uuid),
    parentChainFrom (db.withMembers m) fuel ancestors current =
      parentChainFrom db fuel ancestors current
  | 0, _, none | 0, _, some _ | _ + 1, _, none => rfl
  | fuel + 1, ancestors, some current => by
    simp only [parentChainFrom, parentChainFrom_withMembers fuel]
    rfl

theorem checkNewParent_withMembers (projectId : Uuid) (parentId : Option Uuid) :
    checkNewParent (db.withMembers m) taskId projectId parentId =
      checkNewParent db taskId projectId parentId := by
  cases parentId with
  | none => rfl
  | some parentId =>
    simp only [checkNewParent, requireParent, parentChain, parentChainFrom_withMembers]
    rfl

theorem validateUpdateInput_withMembers (h : input.LeavesPeople) :
    validateUpdateInput rt (db.withMembers m) before input =
      (do
        checkNewParent db before.row.id before.row.projectId input.parentId.join
        checkSection db before.row.projectId input.sectionId.join
        let _ ← resolveUpdateFields rt db before input
        let _ ← resolveUpdate rt db before input
        requireActiveMembers (db.withMembers m) before.currentIds) := by
  have hr : ∀ r, resolveUpdate rt db before input = .ok r →
      r.assignment.assigneeIds ++ input.followerIds.getD [] ++ input.reporterId.join.toList =
        before.currentIds := by
    intro r hr
    simp only [resolveUpdate, bind_ok, pure_ok, h.assignment] at hr
    obtain ⟨state, -, a, ha, rfl⟩ := hr
    rw [(resolveTaskAssignmentUpdate_empty ha).1, h.followerIds, h.reporterId]
    simp
  unfold validateUpdateInput
  rw [checkNewParent_withMembers,
    show checkSection (db.withMembers m) = checkSection db from rfl,
    show resolveUpdateFields rt (db.withMembers m) = resolveUpdateFields rt db from rfl,
    show resolveUpdate rt (db.withMembers m) = resolveUpdate rt db from rfl]
  cases hresolved : resolveUpdate rt db before input with
  | error e => rfl
  | ok r =>
    simp only [Bind.bind, Except.bind, hr r hresolved]

/-- The current assignees of a task that is not deleted. -/
def currentAssignees (db : Db) (taskId : Uuid) : List Uuid :=
  match getById db taskId with
  | .ok before => before.currentIds
  | .error _ => []

theorem planUpdate_withMembers {m' : List Uuid} (h : input.LeavesPeople)
    (hm : ∀ u ∈ currentAssignees db taskId, u ∈ m) (hm' : ∀ u ∈ currentAssignees db taskId, u ∈ m') :
    planUpdate rt (db.withMembers m) taskId input = planUpdate rt (db.withMembers m') taskId input := by
  unfold planUpdate
  rw [show getById (db.withMembers m) taskId = getById db taskId from rfl,
    show getById (db.withMembers m') taskId = getById db taskId from rfl]
  unfold currentAssignees at hm hm'
  cases hbefore : getById db taskId with
  | error e => rfl
  | ok before =>
    rw [hbefore] at hm hm'
    have hvalid : ∀ m : List Uuid, (∀ u ∈ before.currentIds, u ∈ m) →
        requireActiveMembers (db.withMembers m) before.currentIds = .ok () := by
      intro m hm
      exact if_pos (List.all_eq_true.mpr fun u hu => decide_eq_true (hm u hu))
    simp only [Bind.bind, Except.bind, validateUpdateInput_withMembers h, hvalid m hm, hvalid m' hm']
    rfl

/-- **Every current assignee is looked up.** -/
theorem planUpdate_members (h : input.LeavesPeople)
    (hplan : planUpdate rt (db.withMembers m) taskId input = .ok plan) :
    ∀ u ∈ currentAssignees db taskId, u ∈ m := by
  simp only [planUpdate, bind_ok] at hplan
  obtain ⟨before, hbefore, _, -, _, hvalid, -⟩ := hplan
  have hread : getById db taskId = .ok before := hbefore
  rw [validateUpdateInput_withMembers h] at hvalid
  simp only [bind_ok] at hvalid
  obtain ⟨_, -, _, -, _, -, _, -, hactive⟩ := hvalid
  unfold currentAssignees
  rw [hread]
  unfold requireActiveMembers at hactive
  split at hactive
  · next hall => exact fun u hu => of_decide_eq_true (List.all_eq_true.mp hall u hu)
  · cases hactive

/-- What an update comes to: the row of its task, where it is accepted. -/
def outcome (rt : Runtime) (db : Db) (taskId : Uuid) (input : UpdateTaskInput) :
    Option (Option TaskRow) :=
  match update rt db taskId input with
  | .ok db' => some (db'.tasks.find? taskId)
  | .error _ => none

theorem outcome_withMembers {m' : List Uuid} (h : input.LeavesPeople)
    (hm : ∀ u ∈ currentAssignees db taskId, u ∈ m) (hm' : ∀ u ∈ currentAssignees db taskId, u ∈ m') :
    outcome rt (db.withMembers m) taskId input = outcome rt (db.withMembers m') taskId input := by
  have hupdate : update rt (db.withMembers m') taskId input =
      (update rt (db.withMembers m) taskId input).map (·.withMembers m') := by
    unfold update
    rw [planUpdate_withMembers h hm' hm]
    cases hplan : planUpdate rt (db.withMembers m) taskId input with
    | error e => rfl
    | ok plan =>
      have hagain : (db.withMembers m).withMembers m' = db.withMembers m' := rfl
      have hwrite : writeUpdate rt ((db.withMembers m).withMembers m') input plan =
          (writeUpdate rt (db.withMembers m) input plan).map (·.withMembers m') :=
        writeUpdate_withMembers h hplan
      rw [hagain] at hwrite
      simp only [Bind.bind, Except.bind]
      split
      · rw [hwrite]
        cases writeUpdate rt (db.withMembers m) input plan <;> rfl
      · rfl
  unfold outcome
  rw [hupdate]
  cases update rt (db.withMembers m) taskId input <;> rfl

/-- **An update without people** comes to the same with every membership table exactly when its task
has no assignees, or when it is refused also while all of them are active members. -/
theorem edits_ignore_members_iff (h : input.LeavesPeople) :
    (∀ m m', outcome rt (db.withMembers m) taskId input =
      outcome rt (db.withMembers m') taskId input) ↔
      currentAssignees db taskId = [] ∨
        outcome rt (db.withMembers (currentAssignees db taskId)) taskId input = none := by
  constructor
  · intro hsame
    refine (List.eq_nil_or_concat' (currentAssignees db taskId)).imp_right fun ⟨l, u, hu⟩ => ?_
    rw [hsame _ []]
    unfold outcome
    cases hupdate : update rt (db.withMembers []) taskId input with
    | error e => rfl
    | ok db' =>
      obtain ⟨plan, hplan, -⟩ := update_ok hupdate
      have hmem := planUpdate_members h hplan u (by simp [hu])
      cases hmem
  · rintro (hnil | hrefused) m m'
    · exact outcome_withMembers h (by simp [hnil]) (by simp [hnil])
    · have hnone : ∀ m, outcome rt (db.withMembers m) taskId input = none := by
        intro m
        cases hupdate : update rt (db.withMembers m) taskId input with
        | error e =>
          unfold outcome
          rw [hupdate]
        | ok db' =>
          obtain ⟨plan, hplan, -⟩ := update_ok hupdate
          rw [← hrefused]
          exact outcome_withMembers h (planUpdate_members h hplan) fun _ hu => hu
      rw [hnone, hnone]

end Update

/-! ### A task with an assignee and one without -/

/-- A task that is assigned to one of two members. -/
def assignedTask : Db :=
  after utcRuntime { smallSetup with members := [1, 2] }
    [.createTask { projectId := 7, title := "a", assigneeId := some (some 2) }]

/-- Renaming a task without assignees. -/
theorem edits_ignore_members_unassigned :
    (outcome utcRuntime oneTask 100
      { title := some "b", expectedVersion := some (.fin 1) }).isSome = true ∧
      ∀ m m', outcome utcRuntime (oneTask.withMembers m) 100
          { title := some "b", expectedVersion := some (.fin 1) } =
        outcome utcRuntime (oneTask.withMembers m') 100
          { title := some "b", expectedVersion := some (.fin 1) } :=
  ⟨by decide +kernel, (edits_ignore_members_iff ⟨rfl, rfl, rfl⟩).mpr (Or.inl (by decide +kernel))⟩

/-- Renaming the assigned task is refused once its assignee is no member any more. -/
theorem rename_needs_assignee :
    ¬ ∀ m m', outcome utcRuntime (assignedTask.withMembers m) 100
          { title := some "b", expectedVersion := some (.fin 1) } =
        outcome utcRuntime (assignedTask.withMembers m') 100
          { title := some "b", expectedVersion := some (.fin 1) } :=
  fun h => absurd (congrArg Option.isSome (h [1, 2] [1])) (by decide +kernel)

end Tasks

end CalmBoard
