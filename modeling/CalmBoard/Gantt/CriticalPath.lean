import CalmBoard.Lib.Schedules
import CalmBoard.Schema
import Mathlib.Algebra.Order.Field.Basic
import Mathlib.Tactic.Linarith
import Mathlib.Tactic.NormNum

/-!
# CalmBoard.Gantt.CriticalPath — the critical path of a Gantt chart

* `TaskGanttModel`: the tasks with dates, and the dependencies between them.
* `dependencyStartOffset`: how long after the blocking task the dependent one can start.
* `calculateCriticalPath`: earliest and latest starts, floats, critical tasks and links.
* `WellFormed`: distinct bars, and links between bars.
* `Optimal`: what the critical path method promises.
* `calculateCriticalPath_optimal`: it is kept for every chart whose links have no cycle.

Times are exact numbers of minutes, dates are kept as the times they are read as.
-/

namespace CalmBoard.Gantt

section Computed

open Kahn Schedules

def minuteMs : ℚ := 60000

def floatEpsilonMinutes : ℚ := 1 / 1000

/-! ### The chart -/

/-- An empty text is an invalid date. -/
structure Task where
  id : Uuid
  startDate : Option JsDate := none
  dueDate : Option JsDate := none
  deriving DecidableEq

structure TaskGanttBar where
  task : Task
  deriving DecidableEq

structure TaskGanttLink where
  blockingTaskId : Uuid
  dependentTaskId : Uuid
  type : TaskDependencyType
  lagMinutes : ℚ
  deriving DecidableEq

structure TaskGanttModel where
  bars : List TaskGanttBar
  links : List TaskGanttLink
  missingDependencySerials : List String := []
  unrenderedDependencyCount : ℕ := 0

def TaskGanttModel.taskIds (model : TaskGanttModel) : List Uuid := model.bars.map fun bar => bar.task.id

/-- The map from the bars' ids; of bars with one id the last one counts. -/
def TaskGanttModel.taskById (model : TaskGanttModel) (id : Uuid) : Option Task :=
  (model.bars.reverse.find? fun bar => bar.task.id = id).map TaskGanttBar.task

def TaskGanttModel.graph (model : TaskGanttModel) : Kahn.Graph Uuid TaskGanttLink :=
  { nodes := model.taskIds, edges := model.links, source := TaskGanttLink.blockingTaskId
    target := TaskGanttLink.dependentTaskId }

/-! ### Durations and offsets -/

def taskDurationMinutes (startDate dueDate : Option JsDate) : ℚ :=
  match startDate, dueDate with
  | some (.time start), some (.time finish) => if finish < start then 0 else (finish - start) / minuteMs
  | _, _ => 0

def dependencyStartOffset (link : TaskGanttLink) (blockingDuration dependentDuration : ℚ) : ℚ :=
  match link.type with
  | .finishToStart => blockingDuration + link.lagMinutes
  | .startToStart => link.lagMinutes
  | .finishToFinish => blockingDuration + link.lagMinutes - dependentDuration
  | .startToFinish => link.lagMinutes - dependentDuration

namespace TaskGanttModel

variable (model : TaskGanttModel)

/-- `durationByTask.get(taskId) ?? 0` -/
def duration (taskId : Uuid) : ℚ :=
  ((model.taskById taskId).map fun task => taskDurationMinutes task.startDate task.dueDate).getD 0

def offset (link : TaskGanttLink) : ℚ :=
  dependencyStartOffset link (model.duration link.blockingTaskId) (model.duration link.dependentTaskId)

def topologicalOrder : List Uuid := model.graph.order

/-- `earliestStart.get(taskId) ?? 0`, after the loop. -/
def earliestStart : Uuid → ℚ := forward model.graph model.offset model.topologicalOrder fun _ => 0

def projectDurationMinutes : ℚ :=
  (model.taskIds.map fun taskId => model.earliestStart taskId + model.duration taskId).foldl max 0

/-- `latestStart.get(taskId) ?? 0`, after the loop. -/
def latestStart : Uuid → ℚ :=
  backward model.graph model.offset model.topologicalOrder fun taskId =>
    if taskId ∈ model.taskIds then model.projectDurationMinutes - model.duration taskId else 0

end TaskGanttModel

/-! ### The result -/

structure CriticalPathMetric where
  taskId : Uuid
  durationMinutes : ℚ
  earliestStartMinutes : ℚ
  earliestFinishMinutes : ℚ
  latestStartMinutes : ℚ
  latestFinishMinutes : ℚ
  totalFloatMinutes : ℚ
  isCritical : Bool
  deriving DecidableEq

structure CriticalPath where
  projectDurationMinutes : ℚ
  metrics : List CriticalPathMetric
  criticalTaskIds : List Uuid
  criticalLinks : List TaskGanttLink
  deriving DecidableEq

/-- Without a computed path the other fields are null or empty. -/
inductive CriticalPathResult where
  | computed (path : CriticalPath)
  | noScheduledTasks
  | incompleteDependencies
  | cyclicDependencies
  deriving DecidableEq

namespace TaskGanttModel

variable (model : TaskGanttModel)

/-- Only bars have a latest start; every task of the order is one where the links lead to bars. -/
def metric (taskId : Uuid) : CriticalPathMetric :=
  let durationMinutes := model.duration taskId
  let earliestStartMinutes := model.earliestStart taskId
  let latestStartMinutes :=
    if taskId ∈ model.taskIds then model.latestStart taskId else earliestStartMinutes
  let totalFloatMinutes := max 0 (latestStartMinutes - earliestStartMinutes)
  { taskId, durationMinutes, earliestStartMinutes
    earliestFinishMinutes := earliestStartMinutes + durationMinutes
    latestStartMinutes
    latestFinishMinutes := latestStartMinutes + durationMinutes
    totalFloatMinutes
    isCritical := totalFloatMinutes ≤ floatEpsilonMinutes }

def metrics : List CriticalPathMetric := model.topologicalOrder.map model.metric

def criticalTaskIds : List Uuid :=
  (model.metrics.filter CriticalPathMetric.isCritical).map CriticalPathMetric.taskId

def criticalLinks : List TaskGanttLink :=
  model.links.filter fun link =>
    link.blockingTaskId ∈ model.criticalTaskIds && link.dependentTaskId ∈ model.criticalTaskIds &&
      |model.earliestStart link.dependentTaskId -
        (model.earliestStart link.blockingTaskId + model.offset link)| ≤ floatEpsilonMinutes

end TaskGanttModel

def calculateCriticalPath (model : TaskGanttModel) : CriticalPathResult :=
  if model.bars = [] then .noScheduledTasks
  else if model.missingDependencySerials ≠ [] ∨ model.unrenderedDependencyCount ≠ 0 then
    .incompleteDependencies
  else if model.topologicalOrder.length ≠ model.taskIds.length then .cyclicDependencies
  else
    .computed
      { projectDurationMinutes := model.projectDurationMinutes, metrics := model.metrics
        criticalTaskIds := model.criticalTaskIds, criticalLinks := model.criticalLinks }

end Computed

section Promised

open Kahn Schedules Relation

structure TaskGanttModel.WellFormed (model : TaskGanttModel) : Prop where
  nodup : model.taskIds.Nodup
  ends : ∀ link ∈ model.links,
    link.blockingTaskId ∈ model.taskIds ∧ link.dependentTaskId ∈ model.taskIds

def TaskGanttModel.Complete (model : TaskGanttModel) : Prop :=
  model.missingDependencySerials = [] ∧ model.unrenderedDependencyCount = 0

/-- From zero to the end of the last task. -/
structure HasLength (model : TaskGanttModel) (start : Uuid → ℚ) (length : ℚ) : Prop where
  finish_le : ∀ taskId ∈ model.taskIds, start taskId + model.duration taskId ≤ length
  attained : ∃ taskId ∈ model.taskIds, start taskId + model.duration taskId = length

def CriticalStep (path : CriticalPath) (a b : Uuid) : Prop :=
  ∃ link ∈ path.criticalLinks, link.blockingTaskId = a ∧ link.dependentTaskId = b

structure Optimal (model : TaskGanttModel) (path : CriticalPath) (earliest latest : Uuid → ℚ) :
    Prop where
  tasks : (path.metrics.map CriticalPathMetric.taskId).Perm model.taskIds
  times : ∀ metric ∈ path.metrics, metric.durationMinutes = model.duration metric.taskId ∧
    metric.earliestStartMinutes = earliest metric.taskId ∧
    metric.latestStartMinutes = latest metric.taskId ∧
    metric.totalFloatMinutes = latest metric.taskId - earliest metric.taskId
  least : Least model.graph model.offset (fun _ => 0) earliest
  length : HasLength model earliest path.projectDurationMinutes
  greatest : Greatest model.graph model.offset
    (fun taskId => path.projectDurationMinutes - model.duration taskId) latest
  latest_length : HasLength model latest path.projectDurationMinutes
  le : ∀ taskId ∈ model.taskIds, earliest taskId ≤ latest taskId
  critical : path.criticalTaskIds ≠ []
  chain : ∀ metric ∈ path.metrics, metric.totalFloatMinutes = 0 →
    ∃ first ∈ model.taskIds, ∃ last ∈ model.taskIds, earliest first = 0 ∧
      ReflTransGen (CriticalStep path) first metric.taskId ∧
      ReflTransGen (CriticalStep path) metric.taskId last ∧
      earliest last + model.duration last = path.projectDurationMinutes

/-! ### Durations -/

theorem taskDurationMinutes_nonneg (startDate dueDate : Option JsDate) :
    0 ≤ taskDurationMinutes startDate dueDate := by
  unfold taskDurationMinutes
  split
  · rename_i start finish
    split
    · exact le_rfl
    · rename_i h
      have hle : (start : ℚ) ≤ finish := by exact_mod_cast not_lt.mp h
      exact div_nonneg (sub_nonneg.mpr hle) (by decide)
  · exact le_rfl

variable {model : TaskGanttModel}

theorem duration_nonneg (taskId : Uuid) : 0 ≤ model.duration taskId := by
  unfold TaskGanttModel.duration
  cases model.taskById taskId with
  | none => exact le_rfl
  | some task => exact taskDurationMinutes_nonneg _ _

/-- `Math.max` of a list and a first value. -/
theorem foldl_max_isGreatest : ∀ (values : List ℚ) (first : ℚ),
    IsGreatest {x | x = first ∨ x ∈ values} (values.foldl max first)
  | [], first => ⟨Or.inl rfl, fun x hx => (hx.resolve_right List.not_mem_nil).le⟩
  | value :: values, first => by
    obtain ⟨hmem, hle⟩ := foldl_max_isGreatest values (max first value)
    rw [List.foldl_cons]
    refine ⟨?_, ?_⟩
    · rcases hmem with hmem | hmem
      · rcases max_choice first value with h | h
        · exact Or.inl (hmem.trans h)
        · exact Or.inr (List.mem_cons.mpr (Or.inl (hmem.trans h)))
      · exact Or.inr (List.mem_cons_of_mem value hmem)
    · intro x hx
      have hfirst := hle (Or.inl rfl)
      rcases hx with rfl | hx
      · exact (le_max_left _ _).trans hfirst
      · rcases List.mem_cons.mp hx with rfl | hx
        · exact (le_max_right _ _).trans hfirst
        · exact hle (Or.inr hx)

/-! ### The schedules -/

theorem closed_graph (h : model.WellFormed) : model.graph.Closed :=
  ⟨h.nodup, fun link hlink => (h.ends link hlink).1, fun link hlink => (h.ends link hlink).2⟩

/-- What is known once the order has every task. -/
structure Ordered (model : TaskGanttModel) : Prop where
  wellFormed : model.WellFormed
  bars : model.bars ≠ []
  length : model.topologicalOrder.length = model.taskIds.length

theorem Ordered.perm (h : Ordered model) : model.topologicalOrder.Perm model.taskIds :=
  order_perm (closed_graph h.wellFormed) h.length

theorem Ordered.acyclic (h : Ordered model) : Digraph.Acyclic model.graph.Edge :=
  (order_complete_iff (closed_graph h.wellFormed)).mp h.length

theorem Ordered.least (h : Ordered model) :
    Least model.graph model.offset (fun _ => 0) model.earliestStart :=
  forward_least (closed_graph h.wellFormed) (sorted_order (closed_graph h.wellFormed))
    fun _ ha => h.perm.mem_iff.mpr ha

theorem finish_le_projectDuration {taskId : Uuid} (hmem : taskId ∈ model.taskIds) :
    model.earliestStart taskId + model.duration taskId ≤ model.projectDurationMinutes :=
  (foldl_max_isGreatest _ 0).2 (Or.inr (List.mem_map.mpr ⟨taskId, hmem, rfl⟩))

theorem Ordered.hasLength (h : Ordered model) :
    HasLength model model.earliestStart model.projectDurationMinutes := by
  refine ⟨fun taskId hmem => finish_le_projectDuration hmem, ?_⟩
  rcases (foldl_max_isGreatest (model.taskIds.map fun taskId =>
    model.earliestStart taskId + model.duration taskId) 0).1 with hzero | hmem
  · obtain ⟨bar, hbar⟩ := List.exists_mem_of_ne_nil _ h.bars
    have hmem : bar.task.id ∈ model.taskIds := List.mem_map.mpr ⟨bar, hbar, rfl⟩
    have hle := finish_le_projectDuration hmem
    have hstart := h.least.bound _ hmem
    have hduration : 0 ≤ model.duration bar.task.id := duration_nonneg _
    have hlength : model.projectDurationMinutes = 0 := hzero
    exact ⟨_, hmem, le_antisymm hle (by linarith)⟩
  · obtain ⟨taskId, hmem, hfinish⟩ := List.mem_map.mp hmem
    exact ⟨taskId, hmem, hfinish⟩

theorem Ordered.greatest (h : Ordered model) :
    Greatest model.graph model.offset
      (fun taskId => model.projectDurationMinutes - model.duration taskId) model.latestStart := by
  have hgreatest : Greatest model.graph model.offset
      (fun taskId =>
        if taskId ∈ model.taskIds then model.projectDurationMinutes - model.duration taskId else 0)
      model.latestStart :=
    backward_greatest (closed_graph h.wellFormed) (sorted_order (closed_graph h.wellFormed))
      fun _ ha => h.perm.mem_iff.mpr ha
  refine ⟨?_, hgreatest.satisfies, ?_⟩
  · intro taskId hmem
    exact (hgreatest.bound taskId hmem).trans (if_pos (show taskId ∈ model.taskIds from hmem)).le
  · intro t hbound
    refine hgreatest.ge t fun taskId hmem => (hbound taskId hmem).trans ?_
    exact (if_pos (show taskId ∈ model.taskIds from hmem)).ge

theorem Ordered.le (h : Ordered model) :
    ∀ taskId ∈ model.taskIds, model.earliestStart taskId ≤ model.latestStart taskId :=
  h.least.le_greatest h.greatest fun _ hmem => le_sub_iff_add_le.mpr (finish_le_projectDuration hmem)

theorem Ordered.latest_hasLength (h : Ordered model) :
    HasLength model model.latestStart model.projectDurationMinutes := by
  have hbound : ∀ taskId ∈ model.taskIds,
      model.latestStart taskId + model.duration taskId ≤ model.projectDurationMinutes :=
    fun taskId hmem => le_sub_iff_add_le.mp (h.greatest.bound taskId hmem)
  obtain ⟨taskId, hmem, hfinish⟩ := h.hasLength.attained
  refine ⟨hbound, taskId, hmem, le_antisymm (hbound taskId hmem) ?_⟩
  have hle := h.le taskId hmem
  linarith

/-! ### Critical tasks and links -/

theorem floatEpsilon_nonneg : 0 ≤ floatEpsilonMinutes := by norm_num [floatEpsilonMinutes]

theorem totalFloat_eq (h : Ordered model) {taskId : Uuid} (hmem : taskId ∈ model.taskIds) :
    (model.metric taskId).totalFloatMinutes =
      model.latestStart taskId - model.earliestStart taskId := by
  simp only [TaskGanttModel.metric, if_pos hmem]
  exact max_eq_right (sub_nonneg.mpr (h.le taskId hmem))

theorem mem_criticalTaskIds (h : Ordered model) {taskId : Uuid} (hmem : taskId ∈ model.taskIds)
    (heq : model.earliestStart taskId = model.latestStart taskId) :
    taskId ∈ model.criticalTaskIds := by
  have hfloat : (model.metric taskId).totalFloatMinutes = 0 := by
    rw [totalFloat_eq h hmem, heq, sub_self]
  have hcritical : (model.metric taskId).isCritical = true := by
    show decide ((model.metric taskId).totalFloatMinutes ≤ floatEpsilonMinutes) = true
    rw [hfloat]
    exact decide_eq_true floatEpsilon_nonneg
  refine List.mem_map.mpr ⟨model.metric taskId, List.mem_filter.mpr ⟨?_, hcritical⟩, rfl⟩
  exact List.mem_map.mpr ⟨taskId, h.perm.mem_iff.mpr hmem, rfl⟩

theorem mem_criticalLinks (h : Ordered model) {a b : Uuid}
    (hrigid : Rigid model.graph model.offset model.earliestStart model.latestStart a b) :
    ∃ link ∈ model.criticalLinks, link.blockingTaskId = a ∧ link.dependentTaskId = b := by
  obtain ⟨link, hlink, hsource, htarget, htight, ha, hb⟩ := hrigid
  obtain ⟨hblocking, hdependent⟩ := h.wellFormed.ends link hlink
  have hsource' : link.blockingTaskId = a := hsource
  have htarget' : link.dependentTaskId = b := htarget
  have hclose : model.earliestStart link.dependentTaskId -
      (model.earliestStart link.blockingTaskId + model.offset link) = 0 :=
    sub_eq_zero.mpr htight.symm
  refine ⟨link, List.mem_filter.mpr ⟨hlink, ?_⟩, hsource', htarget'⟩
  rw [hclose, abs_zero, Bool.and_eq_true, Bool.and_eq_true, decide_eq_true_eq, decide_eq_true_eq]
  exact ⟨⟨mem_criticalTaskIds h hblocking (hsource' ▸ ha),
    mem_criticalTaskIds h hdependent (htarget' ▸ hb)⟩, decide_eq_true floatEpsilon_nonneg⟩

/-! ### The result -/

theorem Ordered.optimal (h : Ordered model) :
    Optimal model
      { projectDurationMinutes := model.projectDurationMinutes, metrics := model.metrics
        criticalTaskIds := model.criticalTaskIds, criticalLinks := model.criticalLinks }
      model.earliestStart model.latestStart := by
  have hmetric : ∀ metric ∈ model.metrics, ∃ taskId ∈ model.taskIds, model.metric taskId = metric := by
    intro metric hmem
    obtain ⟨taskId, htask, rfl⟩ := List.mem_map.mp hmem
    exact ⟨taskId, h.perm.mem_iff.mp htask, rfl⟩
  have hclosed := closed_graph h.wellFormed
  refine ⟨?_, ?_, h.least, h.hasLength, h.greatest, h.latest_hasLength, h.le, ?_, ?_⟩
  · have hids : model.metrics.map CriticalPathMetric.taskId = model.topologicalOrder := by
      rw [TaskGanttModel.metrics, List.map_map]
      exact List.map_id _
    rw [hids]
    exact h.perm
  · intro metric hmem
    obtain ⟨taskId, htask, rfl⟩ := hmetric metric hmem
    exact ⟨rfl, rfl, if_pos htask, totalFloat_eq h htask⟩
  · -- a task at the end of the project
    obtain ⟨taskId, hmem, hfinish⟩ := h.hasLength.attained
    have hupper := h.greatest.bound taskId hmem
    have hle := h.le taskId hmem
    exact List.ne_nil_of_mem (mem_criticalTaskIds h hmem (le_antisymm hle (by linarith)))
  · intro metric hmem hfloat
    obtain ⟨taskId, htask, rfl⟩ := hmetric metric hmem
    rw [totalFloat_eq h htask] at hfloat
    have heq := (sub_eq_zero.mp hfloat).symm
    obtain ⟨first, hfirst, hzero, hback⟩ :=
      h.least.chain_back hclosed h.acyclic h.greatest.satisfies h.le htask heq
    obtain ⟨last, hlast, hend, hlasteq, hon⟩ :=
      h.greatest.chain_on hclosed h.acyclic h.least.satisfies h.le htask heq
    refine ⟨first, hfirst, last, hlast, hzero, ?_, ?_, ?_⟩
    · exact ReflTransGen.mono (fun a b hab => mem_criticalLinks h hab) _ _ hback
    · exact ReflTransGen.mono (fun a b hab => mem_criticalLinks h hab) _ _ hon
    · rw [hlasteq, hend, sub_add_cancel]

theorem calculateCriticalPath_computed_iff (model : TaskGanttModel) (path : CriticalPath) :
    calculateCriticalPath model = .computed path ↔
      model.bars ≠ [] ∧ model.Complete ∧ model.topologicalOrder.length = model.taskIds.length ∧
        path = { projectDurationMinutes := model.projectDurationMinutes, metrics := model.metrics
                 criticalTaskIds := model.criticalTaskIds, criticalLinks := model.criticalLinks } := by
  unfold calculateCriticalPath TaskGanttModel.Complete
  split_ifs with hbars hmissing hlength
  · simp [hbars]
  · simp only [false_iff]
    rintro ⟨-, ⟨hserials, hcount⟩, -⟩
    exact hmissing.elim (fun h => h hserials) fun h => h hcount
  · simp [hlength]
  · simp only [not_or, not_not] at hmissing hlength
    simp only [CriticalPathResult.computed.injEq, ne_eq, hbars, not_false_eq_true, hmissing, and_self,
      hlength, true_and]
    exact eq_comm

/-- **The critical path method**: with all dependencies in the chart the answer is that they are cyclic
exactly when the links have a cycle, and a computed path has the least and the greatest schedule. -/
theorem calculateCriticalPath_optimal (model : TaskGanttModel) (h : model.WellFormed) :
    (model.Complete → (calculateCriticalPath model = .cyclicDependencies ↔
      ∃ taskId, TransGen model.graph.Edge taskId taskId)) ∧
    ((∃ path, calculateCriticalPath model = .computed path) ↔
      model.bars ≠ [] ∧ model.Complete ∧ ¬ ∃ taskId, TransGen model.graph.Edge taskId taskId) ∧
    ∀ path, calculateCriticalPath model = .computed path →
      ∃ earliest latest, Optimal model path earliest latest := by
  have hlength : model.topologicalOrder.length = model.taskIds.length ↔
      ¬ ∃ taskId, TransGen model.graph.Edge taskId taskId := by
    rw [not_exists]
    exact order_complete_iff (closed_graph h)
  refine ⟨?_, ?_, ?_⟩
  · rintro ⟨hserials, hcount⟩
    unfold calculateCriticalPath
    split_ifs with hbars hmissing hcyclic
    · simp only [false_iff]
      rintro ⟨taskId, hcycle⟩
      obtain ⟨b, ⟨link, hlink, -⟩, -⟩ := TransGen.head'_iff.mp hcycle
      have hmem := (h.ends link hlink).1
      rw [TaskGanttModel.taskIds, hbars] at hmem
      cases hmem
    · exact absurd hmissing (by simp [hserials, hcount])
    · simpa only [true_iff, not_not] using mt hlength.mpr hcyclic
    · simpa only [reduceCtorEq, false_iff] using hlength.mp (not_not.mp hcyclic)
  · simp only [calculateCriticalPath_computed_iff, hlength]
    constructor
    · rintro ⟨path, hbars, hcomplete, hacyclic, -⟩
      exact ⟨hbars, hcomplete, hacyclic⟩
    · rintro ⟨hbars, hcomplete, hacyclic⟩
      exact ⟨_, hbars, hcomplete, hacyclic, rfl⟩
  · intro path hpath
    obtain ⟨hbars, -, horder, rfl⟩ := (calculateCriticalPath_computed_iff model path).mp hpath
    exact ⟨_, _, (Ordered.mk h hbars horder).optimal⟩

/-! Two tasks of one and of two days, the second may overlap the first by half a day; a third is free. -/

def pairBar (id : Uuid) (days : ℤ) : TaskGanttBar :=
  ⟨{ id, startDate := some (.time 0), dueDate := some (.time (days * 86400000)) }⟩

def pairLink : TaskGanttLink := ⟨1, 2, .finishToStart, -720⟩

def pairChart : TaskGanttModel := { bars := [pairBar 1 1, pairBar 2 2, pairBar 3 1], links := [pairLink] }

theorem pairChart_optimal :
    ∃ path, calculateCriticalPath pairChart = .computed path ∧ path.projectDurationMinutes = 3600 ∧
      path.criticalTaskIds = [1, 2] ∧ path.criticalLinks = [pairLink] ∧
      ∃ earliest latest, Optimal pairChart path earliest latest := by
  have h := calculateCriticalPath_optimal pairChart ⟨by decide, by decide⟩
  have hacyclic : ¬ ∃ taskId, TransGen pairChart.graph.Edge taskId taskId :=
    fun hcycle => absurd ((h.1 ⟨rfl, rfl⟩).mpr hcycle) (by decide +kernel)
  obtain ⟨path, hpath⟩ := h.2.1.mpr ⟨by decide, ⟨rfl, rfl⟩, hacyclic⟩
  have hfields := ((calculateCriticalPath_computed_iff pairChart path).mp hpath).2.2.2
  refine ⟨path, hpath, ?_, ?_, ?_, h.2.2 path hpath⟩
  · rw [hfields]
    decide +kernel
  · rw [hfields]
    decide +kernel
  · rw [hfields]
    decide +kernel

end Promised

end CalmBoard.Gantt
