import CalmBoard.Gantt.CriticalPath
import Mathlib.Tactic.FieldSimp

/-!
# CalmBoard.Gantt.Conflicts — dependencies that the dates of the tasks break

* `detectScheduleConflicts`: the comparison of instants.
* `linkConflict_none_iff`: it is the constraint of the critical path.
* `detectScheduleConflicts_nil_iff`: there are no conflicts exactly when the dates are a schedule of
  the chart, and the project then takes at least as long as the critical path.
* `projectDurationIn`: the length of the critical path with numbers that are rounded.
* `rounded_span`: in doubles three tasks in a row take less time than their critical path.
-/

namespace CalmBoard.Gantt

open Kahn Schedules

/-! ### The comparison of instants -/

def time (value : Option JsDate) : Option ℤ :=
  match value with
  | some (.time ms) => some ms
  | _ => none

structure ScheduleConflict where
  blockingTaskId : Uuid
  dependentTaskId : Uuid
  violationMinutes : ℚ
  type : TaskDependencyType

def required (link : TaskGanttLink) (blockingStart blockingFinish : ℤ) : ℚ :=
  let lag := link.lagMinutes * minuteMs
  match link.type with
  | .finishToStart => blockingFinish + lag
  | .startToStart => blockingStart + lag
  | .finishToFinish => blockingFinish + lag
  | .startToFinish => blockingStart + lag

def actual (link : TaskGanttLink) (dependentStart dependentFinish : ℤ) : ℚ :=
  if link.type = .finishToFinish ∨ link.type = .startToFinish then dependentFinish else dependentStart

/-- One round of the loop. -/
def linkConflict (model : TaskGanttModel) (link : TaskGanttLink) : Option ScheduleConflict := do
  let blocking ← model.taskById link.blockingTaskId
  let dependent ← model.taskById link.dependentTaskId
  let blockingStart ← time (blocking.startDate.or blocking.dueDate)
  let blockingFinish ← time (blocking.dueDate.or blocking.startDate)
  let dependentStart ← time (dependent.startDate.or dependent.dueDate)
  let dependentFinish ← time (dependent.dueDate.or dependent.startDate)
  let required := required link blockingStart blockingFinish
  let actual := actual link dependentStart dependentFinish
  if actual < required then
    some
      { blockingTaskId := blocking.id, dependentTaskId := dependent.id
        violationMinutes := (required - actual) / minuteMs, type := link.type }
  else none

def detectScheduleConflicts (model : TaskGanttModel) : List ScheduleConflict :=
  model.links.filterMap (linkConflict model)

/-! ### The dates of a task -/

variable {task : Task}

/-- Start and due date in order, or one of them alone. -/
def Dated (task : Task) : Prop :=
  (∃ start due, task.startDate = some (.time start) ∧ task.dueDate = some (.time due) ∧ start ≤ due) ∨
  (∃ start, task.startDate = some (.time start) ∧ task.dueDate = none) ∨
  ∃ due, task.startDate = none ∧ task.dueDate = some (.time due)

def Task.startMinutes (task : Task) : ℚ := ((time (task.startDate.or task.dueDate)).getD 0 : ℤ) / minuteMs

def Task.finishMinutes (task : Task) : ℚ := ((time (task.dueDate.or task.startDate)).getD 0 : ℤ) / minuteMs

theorem minuteMs_pos : 0 < minuteMs := by norm_num [minuteMs]

theorem Dated.times (h : Dated task) :
    ∃ start finish, time (task.startDate.or task.dueDate) = some start ∧
      time (task.dueDate.or task.startDate) = some finish ∧
      (finish : ℚ) = start + taskDurationMinutes task.startDate task.dueDate * minuteMs := by
  rcases h with ⟨start, due, hs, hd, hle⟩ | ⟨start, hs, hd⟩ | ⟨due, hs, hd⟩
  · refine ⟨start, due, by rw [hs]; rfl, by rw [hd]; rfl, ?_⟩
    rw [hs, hd, taskDurationMinutes]
    simp only [if_neg (not_lt.mpr hle)]
    rw [div_mul_cancel₀ _ minuteMs_pos.ne']
    ring
  · refine ⟨start, start, by rw [hs]; rfl, by rw [hs, hd]; rfl, ?_⟩
    simp [hs, hd, taskDurationMinutes]
  · refine ⟨due, due, by rw [hs, hd]; rfl, by rw [hd]; rfl, ?_⟩
    simp [hs, hd, taskDurationMinutes]

theorem Dated.finish_eq (h : Dated task) :
    task.finishMinutes = task.startMinutes + taskDurationMinutes task.startDate task.dueDate := by
  obtain ⟨start, finish, hs, hf, heq⟩ := h.times
  rw [Task.finishMinutes, Task.startMinutes, hs, hf]
  simp only [Option.getD_some]
  rw [heq, add_div, mul_div_cancel_right₀ _ minuteMs_pos.ne']

/-! ### One link -/

variable {model : TaskGanttModel} {taskId : Uuid}

theorem taskById_mem (h : model.taskById taskId = some task) :
    ∃ bar ∈ model.bars, bar.task = task ∧ bar.task.id = taskId := by
  obtain ⟨bar, hfind, rfl⟩ := Option.map_eq_some_iff.mp h
  have hid := List.find?_some hfind
  exact ⟨bar, List.mem_reverse.mp (List.mem_of_find?_eq_some hfind), rfl, of_decide_eq_true hid⟩

theorem exists_taskById (h : taskId ∈ model.taskIds) :
    ∃ task, model.taskById taskId = some task := by
  obtain ⟨bar, hbar, hid⟩ := List.mem_map.mp h
  have hsome : (model.bars.reverse.find? fun bar => bar.task.id = taskId).isSome = true :=
    List.find?_isSome.mpr ⟨bar, List.mem_reverse.mpr hbar, decide_eq_true hid⟩
  obtain ⟨found, hfound⟩ := Option.isSome_iff_exists.mp hsome
  exact ⟨found.task, by rw [TaskGanttModel.taskById, hfound, Option.map_some]⟩

theorem duration_of_taskById (h : model.taskById taskId = some task) :
    model.duration taskId = taskDurationMinutes task.startDate task.dueDate := by
  rw [TaskGanttModel.duration, h, Option.map_some, Option.getD_some]

theorem linkConflict_none_iff {link : TaskGanttLink} {blocking dependent : Task}
    (hblocking : model.taskById link.blockingTaskId = some blocking)
    (hdependent : model.taskById link.dependentTaskId = some dependent) (hb : Dated blocking)
    (hd : Dated dependent) :
    linkConflict model link = none ↔
      blocking.startMinutes + model.offset link ≤ dependent.startMinutes := by
  obtain ⟨bs, bf, hbs, hbf, hbeq⟩ := hb.times
  obtain ⟨ds, df, hds, hdf, hdeq⟩ := hd.times
  have hpos := minuteMs_pos
  have hconflict : linkConflict model link = none ↔ required link bs bf ≤ actual link ds df := by
    simp only [linkConflict, hblocking, hdependent, hbs, hbf, hds, hdf, Option.bind_eq_bind,
      Option.bind_some]
    split_ifs with h
    · simp only [false_iff]
      exact not_le.mpr h
    · simp only [true_iff]
      exact not_lt.mp h
  rw [hconflict, Task.startMinutes, Task.startMinutes, hbs, hds, TaskGanttModel.offset,
    duration_of_taskById hblocking, duration_of_taskById hdependent]
  simp only [Option.getD_some]
  generalize taskDurationMinutes blocking.startDate blocking.dueDate = blockingDuration at hbeq ⊢
  generalize taskDurationMinutes dependent.startDate dependent.dueDate = dependentDuration at hdeq ⊢
  rw [le_div_iff₀ hpos, add_mul, div_mul_cancel₀ _ hpos.ne']
  unfold required actual dependencyStartOffset
  cases link.type with
  | finishToStart => simp [hbeq, add_mul, add_assoc]
  | startToStart => simp
  | finishToFinish =>
    simp [hbeq, hdeq]
    constructor
    · intro h
      linarith
    · intro h
      linarith
  | startToFinish =>
    simp [hdeq]
    constructor
    · intro h
      linarith
    · intro h
      linarith

/-! ### All links -/

/-- The dates keep the constraint of every link between bars. -/
def Meets (model : TaskGanttModel) : Prop :=
  ∀ link ∈ model.links, ∀ blocking dependent, model.taskById link.blockingTaskId = some blocking →
    model.taskById link.dependentTaskId = some dependent →
      blocking.startMinutes + model.offset link ≤ dependent.startMinutes

theorem linkConflict_of_missing {link : TaskGanttLink}
    (h : model.taskById link.blockingTaskId = none ∨ model.taskById link.dependentTaskId = none) :
    linkConflict model link = none := by
  unfold linkConflict
  rcases h with h | h
  · rw [h]
    rfl
  · cases model.taskById link.blockingTaskId with
    | none => rfl
    | some blocking =>
      rw [h]
      rfl

theorem conflicts_nil_iff_meets (hdated : ∀ bar ∈ model.bars, Dated bar.task) :
    detectScheduleConflicts model = [] ↔ Meets model := by
  have hall : ∀ {taskId : Uuid} {task : Task}, model.taskById taskId = some task → Dated task := by
    intro taskId task h
    obtain ⟨bar, hbar, rfl, -⟩ := taskById_mem h
    exact hdated bar hbar
  rw [detectScheduleConflicts, List.filterMap_eq_nil_iff]
  constructor
  · intro h link hlink blocking dependent hblocking hdependent
    exact (linkConflict_none_iff hblocking hdependent (hall hblocking) (hall hdependent)).mp
      (h link hlink)
  · intro h link hlink
    cases hblocking : model.taskById link.blockingTaskId with
    | none => exact linkConflict_of_missing (Or.inl hblocking)
    | some blocking =>
      cases hdependent : model.taskById link.dependentTaskId with
      | none => exact linkConflict_of_missing (Or.inr hdependent)
      | some dependent =>
        exact (linkConflict_none_iff hblocking hdependent (hall hblocking) (hall hdependent)).mpr
          (h link hlink blocking dependent hblocking hdependent)

theorem earliestStart_le (hmeets : Meets model) {first : ℚ}
    (hfirst : ∀ bar ∈ model.bars, first ≤ bar.task.startMinutes)
    (htask : model.taskById taskId = some task) :
    model.earliestStart taskId ≤ task.startMinutes - first := by
  have hmem : taskId ∈ model.taskIds := by
    obtain ⟨bar, hbar, -, hid⟩ := taskById_mem htask
    exact List.mem_map.mpr ⟨bar, hbar, hid⟩
  let dates : Uuid → ℚ := fun taskId => ((model.taskById taskId).map Task.startMinutes).getD 0 - first
  have hdates : ∀ {taskId : Uuid} {task : Task}, model.taskById taskId = some task →
      dates taskId = task.startMinutes - first := by
    intro taskId task h
    simp only [dates, h, Option.map_some, Option.getD_some]
  have hle : ∀ taskId ∈ model.taskIds, model.earliestStart taskId ≤ dates taskId := by
    refine forward_le (P := (· ∈ model.taskIds)) (fun a ha => ha) ?_ model.topologicalOrder ?_
    · intro link hlink hsource htarget
      obtain ⟨blocking, hblocking⟩ := exists_taskById hsource
      obtain ⟨dependent, hdependent⟩ := exists_taskById htarget
      rw [hdates hblocking, hdates hdependent]
      have h := hmeets link hlink blocking dependent hblocking hdependent
      linarith
    · intro a ha
      obtain ⟨task, htask⟩ := exists_taskById ha
      obtain ⟨bar, hbar, rfl, -⟩ := taskById_mem htask
      rw [hdates htask]
      have h := hfirst bar hbar
      linarith
  rw [← hdates htask]
  exact hle taskId hmem

/-- **Conflicts**: there are none exactly when the dates keep the constraints of the critical path; then
the dates span at least its length. -/
theorem detectScheduleConflicts_nil_iff (model : TaskGanttModel)
    (hdated : ∀ bar ∈ model.bars, Dated bar.task) :
    (detectScheduleConflicts model = [] ↔ Meets model) ∧
    (detectScheduleConflicts model = [] →
      ∀ path, calculateCriticalPath model = .computed path → ∀ first last,
        IsLeast {x | ∃ bar ∈ model.bars, bar.task.startMinutes = x} first →
        IsGreatest {x | ∃ bar ∈ model.bars, bar.task.finishMinutes = x} last →
          path.projectDurationMinutes ≤ last - first) := by
  refine ⟨conflicts_nil_iff_meets hdated, fun hnone path hpath first last hfirst hlast => ?_⟩
  have hmeets := (conflicts_nil_iff_meets hdated).mp hnone
  obtain ⟨hbars, -, -, rfl⟩ := (calculateCriticalPath_computed_iff model path).mp hpath
  have hstart : ∀ bar ∈ model.bars, first ≤ bar.task.startMinutes := fun bar hbar =>
    hfirst.2 ⟨bar, hbar, rfl⟩
  have hfinish : ∀ bar ∈ model.bars, bar.task.finishMinutes ≤ last := fun bar hbar =>
    hlast.2 ⟨bar, hbar, rfl⟩
  rcases (foldl_max_isGreatest (model.taskIds.map fun taskId =>
    model.earliestStart taskId + model.duration taskId) 0).1 with hzero | hmem
  · obtain ⟨bar, hbar⟩ := List.exists_mem_of_ne_nil _ hbars
    have hduration := taskDurationMinutes_nonneg bar.task.startDate bar.task.dueDate
    have heq := (hdated bar hbar).finish_eq
    have h₁ := hstart bar hbar
    have h₂ := hfinish bar hbar
    show model.projectDurationMinutes ≤ _
    rw [TaskGanttModel.projectDurationMinutes, hzero]
    linarith
  · obtain ⟨taskId, htask, hvalue⟩ := List.mem_map.mp hmem
    obtain ⟨task, htask⟩ := exists_taskById htask
    obtain ⟨bar, hbar, rfl, -⟩ := taskById_mem htask
    have hearliest := earliestStart_le hmeets hstart htask
    have heq := (hdated bar hbar).finish_eq
    have hlate := hfinish bar hbar
    show model.projectDurationMinutes ≤ _
    rw [TaskGanttModel.projectDurationMinutes, ← hvalue, duration_of_taskById htask]
    linarith

/-! The tasks of one and of two days start together, as their link asks for. -/

def sideBySide : TaskGanttModel := { pairChart with links := [⟨1, 2, .startToStart, 0⟩] }

theorem sideBySide_span :
    Meets sideBySide ∧ ∃ path, calculateCriticalPath sideBySide = .computed path ∧
      path.projectDurationMinutes ≤ 2880 - 0 := by
  have hdated : ∀ bar ∈ sideBySide.bars, Dated bar.task := by
    intro bar hbar
    rcases List.mem_cons.mp hbar with rfl | hbar
    · exact Or.inl ⟨0, 86400000, rfl, rfl, by decide⟩
    · rcases List.mem_cons.mp hbar with rfl | hbar
      · exact Or.inl ⟨0, 172800000, rfl, rfl, by decide⟩
      · rw [List.mem_singleton.mp hbar]
        exact Or.inl ⟨0, 86400000, rfl, rfl, by decide⟩
  have h := detectScheduleConflicts_nil_iff sideBySide hdated
  have hnone : detectScheduleConflicts sideBySide = [] := by decide +kernel
  have hpath := (calculateCriticalPath_computed_iff sideBySide _).mpr
    ⟨by decide, ⟨rfl, rfl⟩, by decide +kernel, rfl⟩
  have hstarts : ∀ bar ∈ sideBySide.bars, 0 ≤ bar.task.startMinutes := by decide +kernel
  have hfinishes : ∀ bar ∈ sideBySide.bars, bar.task.finishMinutes ≤ 2880 := by decide +kernel
  refine ⟨h.1.mp hnone, _, hpath, h.2 hnone _ hpath 0 2880 ⟨?_, ?_⟩ ⟨?_, ?_⟩⟩
  · exact ⟨pairBar 1 1, by decide, by decide +kernel⟩
  · rintro x ⟨bar, hbar, rfl⟩
    exact hstarts bar hbar
  · exact ⟨pairBar 2 2, by decide, by decide +kernel⟩
  · rintro x ⟨bar, hbar, rfl⟩
    exact hfinishes bar hbar

/-! ### Rounded numbers

`number` is what becomes of a rational, and every operation is that of the type.  The comparison of instants
rounds nothing: they are whole milliseconds, and a lag of whole minutes is too. -/

section Numbers

variable {K : Type} [Add K] [Sub K] [Div K] [Max K] (number : ℚ → K) (model : TaskGanttModel)

def durationIn (task : Task) : K :=
  match task.startDate, task.dueDate with
  | some (.time start), some (.time finish) =>
    if finish < start then number 0 else (number finish - number start) / number minuteMs
  | _, _ => number 0

def offsetIn (link : TaskGanttLink) (blockingDuration dependentDuration : K) : K :=
  match link.type with
  | .finishToStart => blockingDuration + number link.lagMinutes
  | .startToStart => number link.lagMinutes
  | .finishToFinish => blockingDuration + number link.lagMinutes - dependentDuration
  | .startToFinish => number link.lagMinutes - dependentDuration

def taskDurationIn (taskId : Uuid) : K :=
  ((model.taskById taskId).map (durationIn number)).getD (number 0)

def earliestStartIn : Uuid → K :=
  model.topologicalOrder.foldl (fun earliest taskId => (model.graph.outgoing taskId).foldl
    (fun updated link => Function.update updated link.dependentTaskId
      (max (updated link.dependentTaskId) (earliest taskId + offsetIn number link
        (taskDurationIn number model link.blockingTaskId)
        (taskDurationIn number model link.dependentTaskId)))) earliest) fun _ => number 0

/-- Which result there is depends on no number. -/
def projectDurationIn : Option K :=
  match calculateCriticalPath model with
  | .computed _ => some ((model.taskIds.map fun taskId =>
      earliestStartIn number model taskId + taskDurationIn number model taskId).foldl max (number 0))
  | _ => none

end Numbers

/-- Where no number is rounded it is the length from above. -/
theorem projectDurationIn_exact (model : TaskGanttModel) (length : ℚ) :
    projectDurationIn id model = some length ↔
      ∃ path, calculateCriticalPath model = .computed path ∧ path.projectDurationMinutes = length := by
  unfold projectDurationIn
  cases hresult : calculateCriticalPath model with
  | computed path =>
    obtain ⟨-, -, -, rfl⟩ := (calculateCriticalPath_computed_iff model path).mp hresult
    simp only [Option.some.injEq, CriticalPathResult.computed.injEq, exists_eq_left']
    rfl
  | noScheduledTasks => simp
  | incompleteDependencies => simp
  | cyclicDependencies => simp

/-- The double next to a number, for numerators and denominators that are doubles. -/
def double (q : ℚ) : Float := Float.ofInt q.num / Float.ofNat q.den

/-! Three tasks of six seconds: the sum of three tenths of a minute, rounded, is more than `0.3`. -/

def secondsBar (id : Uuid) (start : ℤ) : TaskGanttBar :=
  ⟨{ id, startDate := some (.time start), dueDate := some (.time (start + 6000)) }⟩

def secondsChart : TaskGanttModel :=
  { bars := [secondsBar 1 0, secondsBar 2 6000, secondsBar 3 12000]
    links := [⟨1, 2, .finishToStart, 0⟩, ⟨2, 3, .finishToStart, 0⟩] }

theorem rounded_span : ¬ ∀ (model : TaskGanttModel) (first last : ℤ) (length : Float),
    (∀ bar ∈ model.bars, Dated bar.task) → detectScheduleConflicts model = [] →
      projectDurationIn double model = some length →
        IsLeast {ms | ∃ bar ∈ model.bars, time (bar.task.startDate.or bar.task.dueDate) = some ms}
          first →
        IsGreatest {ms | ∃ bar ∈ model.bars, time (bar.task.dueDate.or bar.task.startDate) = some ms}
          last →
            length ≤ (double last - double first) / double minuteMs := by
  intro h
  have hbars : ∀ {P : TaskGanttBar → Prop}, P (secondsBar 1 0) → P (secondsBar 2 6000) →
      P (secondsBar 3 12000) → ∀ bar ∈ secondsChart.bars, P bar := by
    intro P h₁ h₂ h₃ bar hbar
    simp only [secondsChart, List.mem_cons, List.not_mem_nil, or_false] at hbar
    rcases hbar with rfl | rfl | rfl
    · exact h₁
    · exact h₂
    · exact h₃
  have hdated : ∀ id start, Dated (secondsBar id start).task := fun id start =>
    Or.inl ⟨start, start + 6000, rfl, rfl, by omega⟩
  obtain ⟨length, hlength⟩ := Option.isSome_iff_exists.mp
    (show (projectDurationIn double secondsChart).isSome = true by decide +kernel)
  have hlong : ∀ length ∈ projectDurationIn double secondsChart,
      ¬ length ≤ (double (18000 : ℤ) - double (0 : ℤ)) / double minuteMs := by
    decide +kernel
  refine hlong length hlength (h secondsChart 0 18000 length ?_ (by decide +kernel) hlength
    ⟨⟨secondsBar 1 0, by decide, rfl⟩, ?_⟩ ⟨⟨secondsBar 3 12000, by decide, rfl⟩, ?_⟩)
  · exact hbars (hdated _ _) (hdated _ _) (hdated _ _)
  · have hstarts := hbars (P := fun bar => ∀ ms ∈ time (bar.task.startDate.or bar.task.dueDate), 0 ≤ ms)
      (by decide) (by decide) (by decide)
    exact fun ms ⟨bar, hbar, hms⟩ => hstarts bar hbar ms hms
  · have hfinishes := hbars
      (P := fun bar => ∀ ms ∈ time (bar.task.dueDate.or bar.task.startDate), ms ≤ 18000)
      (by decide) (by decide) (by decide)
    exact fun ms ⟨bar, hbar, hms⟩ => hfinishes bar hbar ms hms

end CalmBoard.Gantt
