import CalmBoard.Tasks.Writer

/-!
# CalmBoard.Tasks.LinkDetails — type and lag of a dependency under a list of serials

An update that lists its dependencies by their serials asks for links of the default type without
lag.  What it replaces are the links with their types and lags; whether it replaces anything is
decided by the serials and by the rest of the request.

* `keys_replaceTaskDependencies`: the links after a replacement are those that were asked for.
* `link_details_iff`: when the links of an accepted update keep their details, and when they depend
  on the rest of the request.
-/

namespace CalmBoard.Tasks

open Text Fallible
open Deps (DependencyKey DependencyLink TaskIdentifier)

/-- Blocking task, type and lag of the active links of a task. -/
def linkKeys (db : Db) (taskId : Uuid) : List DependencyKey :=
  (db.dependencies.rows.filter fun d => d.active && d.dependentTaskId = taskId).map
    Deps.TaskDependencyRow.key

/-- What a serial asks for: finish to start, without lag. -/
def plainKey (blockingTaskId : Uuid) : DependencyKey := (blockingTaskId, .finishToStart, 0)

variable {desired : List DependencyKey}

section Replace

variable {db db' : Db} {taskId : Uuid} {links : List DependencyLink} {k : DependencyKey}

theorem linkKeys_insertDependency (h : Deps.insertDependency taskId db k = .ok db') :
    linkKeys db' taskId = linkKeys db taskId ++ [k] := by
  simp only [Deps.insertDependency] at h
  split at h
  · cases h
  · cases h
  · split at h
    · cases h
    · next dependencies hins =>
      cases h
      unfold linkKeys
      rw [(Table.insert?_eq_some hins).2, List.filter_append, List.map_append]
      congr 1
      simp [TaskDependencyRow.active, Deps.TaskDependencyRow.key]

theorem linkKeys_insert : ∀ {keys : List DependencyKey} {db : Db},
    keys.foldlM (Deps.insertDependency taskId) db = .ok db' →
      linkKeys db' taskId = linkKeys db taskId ++ keys
  | [], db, h => by
    rw [List.foldlM_nil, pure_ok] at h
    rw [h, List.append_nil]
  | k :: keys, db, h => by
    rw [List.foldlM_cons, bind_ok] at h
    obtain ⟨mid, hmid, h⟩ := h
    rw [linkKeys_insert h, linkKeys_insertDependency hmid, List.append_assoc]
    rfl

theorem mem_desiredKeys (h : Deps.desiredKeys taskId links = .ok desired) :
    k ∈ desired ↔ k ∈ links.map DependencyLink.key := by
  simp only [Deps.desiredKeys, bind_ok, pure_ok] at h
  obtain ⟨_, -, rfl⟩ := h
  simp

theorem isNoOp_iff {current : List TaskDependencyRow} (h : Deps.isNoOp current desired = true) :
    k ∈ current.map Deps.TaskDependencyRow.key ↔ k ∈ desired := by
  unfold Deps.isNoOp at h
  rw [Bool.and_eq_true, List.all_eq_true, List.all_eq_true] at h
  constructor
  · intro hk
    obtain ⟨d, hd, rfl⟩ := List.mem_map.mp hk
    exact of_decide_eq_true (h.1 d hd)
  · exact fun hk => of_decide_eq_true (h.2 k hk)

theorem mem_linkKeys_closed (d : Timestamptz)
    (dependencies : Table TaskDependencyRow TaskDependencyRow.id)
    (hdependencies : dependencies = db.dependencies.update
      (fun r => r.id ∈ (Deps.planReplace (db.dependencies.rows.filter fun r =>
        r.active && r.dependentTaskId = taskId) desired).toRemove)
      (fun r => { r with deletedAt := some d }) fun _ => rfl) :
    k ∈ linkKeys { db with dependencies } taskId ↔ k ∈ linkKeys db taskId ∧ k ∈ desired := by
  set current := db.dependencies.rows.filter fun r => r.active && r.dependentTaskId = taskId
    with hcurrent
  have hremoved : ∀ r ∈ current, r.id ∈ (Deps.planReplace current desired).toRemove ↔
      Deps.TaskDependencyRow.key r ∉ desired := by
    intro r hr
    unfold Deps.planReplace
    rw [List.mem_map]
    constructor
    · rintro ⟨s, hs, hid⟩
      obtain ⟨hs, hkey⟩ := List.mem_filter.mp hs
      have hsame := Table.eq_of_mem (List.mem_of_mem_filter hs) (List.mem_of_mem_filter hr) hid
      rw [← hsame]
      simpa using hkey
    · exact fun hkey => ⟨r, List.mem_filter.mpr ⟨hr, by simpa using hkey⟩, rfl⟩
  unfold linkKeys
  rw [List.mem_map, ← hcurrent, List.mem_map]
  subst hdependencies
  constructor
  · rintro ⟨s, hs, rfl⟩
    obtain ⟨hs, hactive⟩ := List.mem_filter.mp hs
    obtain ⟨r, hr, rfl⟩ := List.mem_map.mp hs
    by_cases hid : r.id ∈ (Deps.planReplace current desired).toRemove
    · simp [hid, TaskDependencyRow.active] at hactive
    · simp only [hid, decide_false, Bool.false_eq_true, if_false] at hactive ⊢
      have hmem : r ∈ current := List.mem_filter.mpr ⟨hr, hactive⟩
      exact ⟨⟨r, hmem, rfl⟩, not_not.mp fun hkey => hid ((hremoved r hmem).mpr hkey)⟩
  · rintro ⟨⟨r, hr, rfl⟩, hdesired⟩
    have hid : r.id ∉ (Deps.planReplace current desired).toRemove :=
      fun hid => (hremoved r hr).mp hid hdesired
    obtain ⟨hrow, hactive⟩ := List.mem_filter.mp hr
    refine ⟨r, List.mem_filter.mpr ⟨?_, hactive⟩, rfl⟩
    rw [Table.rows_update]
    exact List.mem_map.mpr ⟨r, hrow, if_neg (by simpa using hid)⟩

/-- **Replacement**: the active links are those that were asked for. -/
theorem keys_replaceTaskDependencies
    (h : Deps.replaceTaskDependencies db taskId links = .ok db') :
    k ∈ linkKeys db' taskId ↔ k ∈ links.map DependencyLink.key := by
  simp only [Deps.replaceTaskDependencies, bind_ok] at h
  obtain ⟨desired, hdesired, h⟩ := h
  rw [← mem_desiredKeys hdesired]
  split at h
  · next hsame =>
    rw [← pure_ok.mp h]
    exact isNoOp_iff hsame
  · rw [bind_ok] at h
    obtain ⟨_, -, h⟩ := h
    rw [linkKeys_insert h, List.mem_append, mem_linkKeys_closed db.newDate _ rfl]
    unfold Deps.planReplace
    rw [List.mem_filter, decide_eq_true_eq]
    show k ∈ linkKeys db taskId ∧ k ∈ desired ∨ k ∈ desired ∧ k ∉ linkKeys db taskId ↔ k ∈ desired
    tauto

end Replace

/-! ### Lists of serials -/

theorem key_of_texts {tasks : Table TaskRow TaskRow.id} {taskId : Option Uuid}
    {texts : List TaskIdentifier} {links : List DependencyLink}
    (h : Deps.validateTaskDependenciesInput tasks taskId (texts.map .text) = .ok links) :
    ∀ l ∈ links, l.key = plainKey l.blockingTaskId := by
  simp only [Deps.validateTaskDependenciesInput, bind_ok, pure_ok] at h
  obtain ⟨read, hread, resolved, hresolved, found, hfound, rfl⟩ := h
  intro l hl
  rw [List.mem_reverse, List.mem_dedup, List.mem_reverse] at hl
  obtain ⟨⟨task, type, lag⟩, htask, hlink⟩ := mem_mapM_ok hfound hl
  obtain ⟨item, hitem, hitemTask⟩ := mem_mapM_ok hresolved htask
  obtain ⟨o, ho, hsome⟩ := List.mem_filterMap.mp hitem
  obtain rfl : o = some item := hsome
  obtain ⟨text, htext, hreadItem⟩ := mem_mapM_ok hread ho
  obtain ⟨t, -, rfl⟩ := List.mem_map.mp htext
  have hplain : item.2 = (.finishToStart, 0) := by
    cases t <;> cases hreadItem <;> rfl
  have hdetails : (type, lag) = (.finishToStart, 0) := by
    split at hitemTask
    · cases hitemTask
    · exact (congrArg Prod.snd (Except.ok.inj hitemTask)).symm.trans hplain
  split at hlink
  · cases hlink
  · cases hlink
    exact congrArg (Prod.mk task.id) hdetails

def UpdateTaskInput.rawDependencies (input : UpdateTaskInput) : Option (List Deps.DependencyItem) :=
  input.dependencies.or (input.metadata.bind TaskMetadata.dependencies)

def listed (db : Db) (taskId : Uuid) (texts : List TaskIdentifier) : List Uuid :=
  match Deps.validateTaskDependenciesInput db.tasks (some taskId) (texts.map .text) with
  | .ok links => links.map DependencyLink.blockingTaskId
  | .error _ => []

/-- The request changes something of the task. -/
def changes (rt : Runtime) (db : Db) (taskId : Uuid) (input : UpdateTaskInput) : Bool :=
  match planUpdate rt db taskId input with
  | .ok plan => plan.hasAnyChange
  | .error _ => false

section Update

variable {rt : Runtime} {db db' : Db} {taskId : Uuid} {texts : List TaskIdentifier}
  {input : UpdateTaskInput} {k : DependencyKey}

theorem dependencies_insertRecurrence {rule : TaskRecurrenceRow}
    (h : insertRecurrence rt db rule = .ok db') : db'.dependencies = db.dependencies := by
  simp only [insertRecurrence, throw_bind, guard_ok, pure_ok] at h
  obtain ⟨-, -, -, -, rfl⟩ := h
  rfl

theorem dependencies_closeRecurrence (d : Timestamptz) :
    (closeRecurrence db taskId d).dependencies = db.dependencies := by
  unfold closeRecurrence
  split <;> rfl

theorem dependencies_writeRecurrence {o : Option (Option NormalizedRecurrence)}
    (h : writeRecurrence rt db taskId o = .ok db') : db'.dependencies = db.dependencies := by
  match o with
  | none =>
    cases h
    rfl
  | some none =>
    cases h
    exact dependencies_closeRecurrence _
  | some (some r) =>
    simp only [writeRecurrence, bind_ok] at h
    obtain ⟨rule, -, h⟩ := h
    rw [dependencies_insertRecurrence h, dependencies_closeRecurrence]

theorem dependencies_of_bare (h : db'.bare = db.bare) : db'.dependencies = db.dependencies :=
  show db'.bare.dependencies = db.bare.dependencies from congrArg Db.dependencies h

theorem linkKeys_congr (h : db'.dependencies = db.dependencies) :
    linkKeys db' taskId = linkKeys db taskId := by
  unfold linkKeys
  rw [h]

/-- **The links after an accepted update** with a list of texts: the old ones where nothing changes,
those of the list otherwise. -/
theorem linkKeys_update (hgiven : input.rawDependencies = some (texts.map .text))
    (h : update rt db taskId input = .ok db') :
    if changes rt db taskId input then
      (k ∈ linkKeys db' taskId ↔ k ∈ (listed db taskId texts).map plainKey)
    else linkKeys db' taskId = linkKeys db taskId := by
  obtain ⟨plan, hplan, hwrite⟩ := update_ok h
  have hchanges : changes rt db taskId input = plan.hasAnyChange := by
    unfold changes
    rw [hplan]
  rw [hchanges]
  rcases hwrite with ⟨hsame, rfl⟩ | ⟨hchange, hwrite⟩
  · rw [hsame]
    exact rfl
  rw [hchange, if_pos rfl]
  obtain ⟨after, written, synced, peopled, linked, reminded, recurred, -, -, hwritten, hsynced,
    hpeopled, hlinked, hreminded, hrecurred, hrecord⟩ := writeUpdate_steps hwrite
  have hid : plan.before.row.id = taskId := by
    obtain ⟨-, hfind, -⟩ := getById_ok (planUpdate_ok hplan).1
    exact Table.key_of_find? hfind
  obtain ⟨links, hlinks, hplanned⟩ : ∃ links, Deps.validateTaskDependenciesInput db.tasks
      (some taskId) (texts.map .text) = .ok links ∧ plan.dependencies = some links := by
    simp only [planUpdate, bind_ok, pure_ok] at hplan
    obtain ⟨before, -, _, -, _, -, _, -, dependencies, hdependencies, _, -, _, -, rfl⟩ := hplan
    rw [show input.dependencies.or _ = _ from hgiven] at hdependencies
    obtain ⟨links, hlinks, rfl⟩ := map_ok.mp hdependencies
    exact ⟨links, hid ▸ hlinks, rfl⟩
  rw [hplanned, hid] at hlinked
  obtain ⟨events, hevents⟩ := Sprints.recordTaskChange_eq recurred plan.before.row after
  have hlast : db'.dependencies = linked.dependencies := by
    rw [← hrecord, hevents, ← dependencies_of_bare hreminded, ← dependencies_writeRecurrence hrecurred]
  rw [linkKeys_congr hlast, keys_replaceTaskDependencies hlinked]
  unfold listed
  rw [hlinks, List.map_map]
  exact Eq.to_iff (congrArg (k ∈ ·) (List.map_congr_left (key_of_texts hlinks)))

/-- **Details of links.**  For a list of texts, the links to the tasks it names keep type and lag
exactly when the request changes nothing or all of them are plain; and two requests with the same
list leave the same links exactly when both or none of them change something, or the links are those
of the list already. -/
theorem link_details_iff {i j : UpdateTaskInput} {dbi dbj : Db}
    (hi : i.rawDependencies = some (texts.map .text))
    (hj : j.rawDependencies = some (texts.map .text))
    (hupdate : update rt db taskId i = .ok dbi) (hupdate' : update rt db taskId j = .ok dbj) :
    ((∀ k ∈ linkKeys db taskId, k.1 ∈ listed db taskId texts → k ∈ linkKeys dbi taskId) ↔
      changes rt db taskId i = false ∨
        ∀ k ∈ linkKeys db taskId, k.1 ∈ listed db taskId texts → k = plainKey k.1) ∧
    ((∀ k, k ∈ linkKeys dbi taskId ↔ k ∈ linkKeys dbj taskId) ↔
      changes rt db taskId i = changes rt db taskId j ∨
        ∀ k, k ∈ linkKeys db taskId ↔ k ∈ (listed db taskId texts).map plainKey) := by
  have hkeys := fun k => linkKeys_update (k := k) hi hupdate
  have hkeys' := fun k => linkKeys_update (k := k) hj hupdate'
  have hplain : ∀ k, k ∈ (listed db taskId texts).map plainKey ↔
      k.1 ∈ listed db taskId texts ∧ k = plainKey k.1 := by
    intro k
    rw [List.mem_map]
    constructor
    · rintro ⟨u, hu, rfl⟩
      exact ⟨hu, rfl⟩
    · exact fun hk => ⟨k.1, hk.1, hk.2.symm⟩
  constructor
  · cases hc : changes rt db taskId i with
    | false =>
      simp only [hc, Bool.false_eq_true, if_false] at hkeys
      refine iff_of_true (fun k hk _ => ?_) (Or.inl rfl)
      rw [hkeys k]
      exact hk
    | true =>
      simp only [hc, if_true] at hkeys
      simp only [hkeys, hplain, Bool.true_eq_false, false_or]
      exact forall₂_congr fun k _ => forall_congr' fun hk => and_iff_right hk
  · cases hc : changes rt db taskId i with
    | false =>
      simp only [hc, Bool.false_eq_true, if_false] at hkeys
      cases hc' : changes rt db taskId j with
      | false =>
        simp only [hc', Bool.false_eq_true, if_false] at hkeys'
        exact iff_of_true (fun k => by rw [hkeys k, hkeys' k]) (Or.inl rfl)
      | true =>
        simp only [hc', if_true] at hkeys'
        simp only [hkeys', hkeys (0, .finishToStart, 0), Bool.false_eq_true, false_or]
    | true =>
      simp only [hc, if_true] at hkeys
      cases hc' : changes rt db taskId j with
      | false =>
        simp only [hc', Bool.false_eq_true, if_false] at hkeys'
        simp only [hkeys, hkeys' (0, .finishToStart, 0), Bool.true_eq_false, false_or]
        exact forall_congr' fun k => ⟨Iff.symm, Iff.symm⟩
      | true =>
        simp only [hc', if_true] at hkeys'
        exact iff_of_true (fun k => by rw [hkeys k, hkeys' k]) (Or.inl rfl)

end Update

/-! ### Two links -/

/-- Two tasks, the second linked to the first with a type and a lag. -/
def linkedTasks (type : TaskDependencyType) (lag : ℤ) : Db :=
  after utcRuntime smallSetup
    [.createTask { projectId := 7, title := "a" },
      .createTask
        { projectId := 7, title := "b"
          dependencies := some [.descriptor none (some (.serial "TASK-1041")) (some type)
            (some (.fin lag))] }]

/-- Renaming the second task, with its dependencies as serials. -/
def renameLinked : UpdateTaskInput :=
  { title := some "c"
    metadata := some { dependencies := some [.text (.serial "TASK-1041")] }
    expectedVersion := some (.fin 1) }

/-- Giving it points instead. -/
def weighLinked : UpdateTaskInput :=
  { renameLinked with title := none, storyPoints := some (some (.fin 3)) }

/-- Renaming the task and giving it points leave the same links, where the link is plain also those
it had. -/
theorem link_details_plain :
    ∃ dbi dbj, update utcRuntime (linkedTasks .finishToStart 0) 101 renameLinked = .ok dbi ∧
      update utcRuntime (linkedTasks .finishToStart 0) 101 weighLinked = .ok dbj ∧
      (∀ k ∈ linkKeys (linkedTasks .finishToStart 0) 101,
        k.1 ∈ listed (linkedTasks .finishToStart 0) 101 [.serial "TASK-1041"] →
          k ∈ linkKeys dbi 101) ∧
      ∀ k, k ∈ linkKeys dbi 101 ↔ k ∈ linkKeys dbj 101 := by
  obtain ⟨dbi, hi, -⟩ := exists_ok (p := fun _ => true)
    (x := update utcRuntime (linkedTasks .finishToStart 0) 101 renameLinked) (by decide +kernel)
  obtain ⟨dbj, hj, -⟩ := exists_ok (p := fun _ => true)
    (x := update utcRuntime (linkedTasks .finishToStart 0) 101 weighLinked) (by decide +kernel)
  have hrename : renameLinked.rawDependencies =
      some (([.serial "TASK-1041"] : List TaskIdentifier).map .text) := rfl
  have hweigh : weighLinked.rawDependencies =
      some (([.serial "TASK-1041"] : List TaskIdentifier).map .text) := rfl
  obtain ⟨hkeeps, hsame⟩ := link_details_iff hrename hweigh hi hj
  exact ⟨dbi, dbj, hi, hj, hkeeps.mpr (Or.inr (by decide)),
    hsame.mpr (Or.inl (by decide))⟩

/-- Renaming a task makes its link to start with lag a plain one. -/
theorem rename_resets_link :
    ¬ ∀ db', update utcRuntime (linkedTasks .startToStart 90) 101 renameLinked = .ok db' →
      ∀ k ∈ linkKeys (linkedTasks .startToStart 90) 101,
        k.1 ∈ listed (linkedTasks .startToStart 90) 101 [.serial "TASK-1041"] →
          k ∈ linkKeys db' 101 := by
  decide +kernel

end CalmBoard.Tasks
