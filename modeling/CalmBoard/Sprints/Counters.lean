import CalmBoard.Sprints.Timeline
import CalmBoard.Tasks.Rows
import Mathlib.Algebra.Group.Int.Defs
import Mathlib.Algebra.Group.Prod
import Mathlib.Algebra.Group.TransferInstance
import Mathlib.Tactic.Set

/-!
# CalmBoard.Sprints.Counters — counters add up

The six counters form a group under addition.  The counters of a sprint are the sum of the counters
of its tasks, and every recorded event adds the difference of the counters of one task.

* `countTasks_eq`, `applyEvent_eq`: the counters of the source as sums.
* `replays_derived`: the effect of the events of a change is what its task changed.
* `Sound`: counters that pass `invariantCheck`.
* `CheckedTask`: a task with the story points that the table accepts.
* `eventRows`: the rows of a change, in the order they are appended.
* `metrics_exact`: they lead from the counters of the tasks before to those after.
-/

namespace CalmBoard

def SprintCounters.equiv : SprintCounters ≃ ℤ × ℤ × ℤ × ℤ × ℤ × ℤ where
  toFun c := (c.scopeTaskCount, c.scopeStoryPoints, c.completedTaskCount, c.completedStoryPoints,
    c.remainingTaskCount, c.remainingStoryPoints)
  invFun t := ⟨t.1, t.2.1, t.2.2.1, t.2.2.2.1, t.2.2.2.2.1, t.2.2.2.2.2⟩
  left_inv _ := rfl
  right_inv _ := rfl

instance : AddCommGroup SprintCounters := SprintCounters.equiv.addCommGroup

attribute [ext] SprintCounters

theorem SprintCounters.add_def (a b : SprintCounters) : a + b =
    ⟨a.scopeTaskCount + b.scopeTaskCount, a.scopeStoryPoints + b.scopeStoryPoints,
      a.completedTaskCount + b.completedTaskCount, a.completedStoryPoints + b.completedStoryPoints,
      a.remainingTaskCount + b.remainingTaskCount,
      a.remainingStoryPoints + b.remainingStoryPoints⟩ := rfl

theorem SprintCounters.zero_def : (0 : SprintCounters) = ⟨0, 0, 0, 0, 0, 0⟩ := rfl

namespace Sprints

/-! ### Counters of tasks -/

def TaskAnalyticsState.counters (t : TaskAnalyticsState) : SprintCounters :=
  if isTaskCompletedStatus t.status then ⟨1, points t.storyPoints, 1, points t.storyPoints, 0, 0⟩
  else ⟨1, points t.storyPoints, 0, 0, 1, points t.storyPoints⟩

theorem countTasks_cons (t : TaskAnalyticsState) (tasks : List TaskAnalyticsState) :
    countTasks (t :: tasks) = t.counters + countTasks tasks := by
  cases hdone : isTaskCompletedStatus t.status with
  | true =>
    rw [TaskAnalyticsState.counters, if_pos hdone, SprintCounters.add_def]
    ext <;> simp [countTasks, hdone] <;> ring
  | false =>
    rw [TaskAnalyticsState.counters, if_neg (by simp [hdone]), SprintCounters.add_def]
    ext <;> simp [countTasks, hdone] <;> ring

theorem countTasks_eq (tasks : List TaskAnalyticsState) :
    countTasks tasks = (tasks.map TaskAnalyticsState.counters).sum := by
  induction tasks with
  | nil => rfl
  | cons t tasks ih => rw [countTasks_cons, ih, List.map_cons, List.sum_cons]

/-! ### Effects of events -/

/-- What an event says, without its place in the table. -/
def payload (e : SprintEventRow) : AnalyticsEventPayload :=
  { eventType := e.eventType, storyPointsAtEvent := e.storyPointsAtEvent
    isCompletedAtEvent := e.isCompletedAtEvent, oldStoryPoints := e.oldStoryPoints
    newStoryPoints := e.newStoryPoints }

def AnalyticsEventPayload.effect (e : AnalyticsEventPayload) : SprintCounters :=
  applyEvent 0 (e.row 0 0 0 0 ⟨0⟩)

theorem applyEvent_eq (c : SprintCounters) (ev : SprintEventRow) :
    applyEvent c ev = c + (payload ev).effect := by
  rw [SprintCounters.add_def]
  unfold AnalyticsEventPayload.effect
  rw [SprintCounters.zero_def]
  cases htype : ev.eventType <;> cases hdone : ev.isCompletedAtEvent <;>
    ext <;> simp [applyEvent, payload, AnalyticsEventPayload.row, htype, hdone] <;> ring

/-! ### Counters that pass the check -/

structure Sound (c : SprintCounters) : Prop where
  tasks : c.scopeTaskCount = c.completedTaskCount + c.remainingTaskCount
  points : c.scopeStoryPoints = c.completedStoryPoints + c.remainingStoryPoints
  completedTasks : 0 ≤ c.completedTaskCount
  remainingTasks : 0 ≤ c.remainingTaskCount
  completedPoints : 0 ≤ c.completedStoryPoints
  remainingPoints : 0 ≤ c.remainingStoryPoints

theorem invariantCheck_of_sound {c : SprintCounters} (h : Sound c) : invariantCheck c = .ok () := by
  obtain ⟨htasks, hpoints, h₁, h₂, h₃, h₄⟩ := h
  unfold invariantCheck
  rw [if_neg (not_not.mpr htasks), if_neg (not_not.mpr hpoints), if_neg (by omega)]

theorem Sound.zero : Sound 0 := by
  constructor <;> simp [SprintCounters.zero_def]

theorem Sound.add {a b : SprintCounters} (ha : Sound a) (hb : Sound b) : Sound (a + b) := by
  obtain ⟨a₁, a₂, a₃, a₄, a₅, a₆⟩ := ha
  obtain ⟨b₁, b₂, b₃, b₄, b₅, b₆⟩ := hb
  rw [SprintCounters.add_def]
  constructor <;> simp only <;> omega

theorem Sound.sum {l : List SprintCounters} (h : ∀ c ∈ l, Sound c) : Sound l.sum := by
  induction l with
  | nil => exact Sound.zero
  | cons c l ih =>
    rw [List.sum_cons]
    exact (h c List.mem_cons_self).add (ih fun d hd => h d (List.mem_cons_of_mem c hd))

theorem sound_counters {t : TaskAnalyticsState} (h : ∀ p, t.storyPoints = some p → 0 ≤ p) :
    Sound t.counters := by
  have hp : 0 ≤ points t.storyPoints := by
    cases hsp : t.storyPoints with
    | none => exact le_rfl
    | some p => exact h p hsp
  unfold TaskAnalyticsState.counters
  split <;> constructor <;> simp [hp]

/-! ### Replaying -/

/-- Events lead from one set of counters to another, and all counters on the way are sound. -/
inductive Replays : SprintCounters → List AnalyticsEventPayload → SprintCounters → Prop
  | nil (c : SprintCounters) : Replays c [] c
  | cons {c c' : SprintCounters} {e : AnalyticsEventPayload} {es : List AnalyticsEventPayload}
      (hsound : Sound (c + e.effect)) (rest : Replays (c + e.effect) es c') :
    Replays c (e :: es) c'

theorem Replays.append {c c' c'' : SprintCounters} {es es' : List AnalyticsEventPayload}
    (h : Replays c es c') (h' : Replays c' es' c'') : Replays c (es ++ es') c'' := by
  induction h with
  | nil => exact h'
  | cons hsound _ ih => exact .cons hsound (ih h')

theorem Replays.single {c c' : SprintCounters} {e : AnalyticsEventPayload} (he : c + e.effect = c')
    (hsound : Sound c') : Replays c [e] c' := by
  subst he
  exact .cons hsound (.nil _)

theorem effect_pointsChanged (old : TaskAnalyticsState) (new : Option ℤ) (rest : SprintCounters) :
    rest + old.counters + AnalyticsEventPayload.effect
      { eventType := .storyPointsChanged, storyPointsAtEvent := new
        isCompletedAtEvent := isTaskCompletedStatus old.status, oldStoryPoints := old.storyPoints
        newStoryPoints := new } =
    rest + TaskAnalyticsState.counters { old with storyPoints := new } := by
  unfold AnalyticsEventPayload.effect TaskAnalyticsState.counters
  cases hdone : isTaskCompletedStatus old.status <;>
    ext <;> simp [SprintCounters.add_def, SprintCounters.zero_def, applyEvent,
      AnalyticsEventPayload.row]

theorem effect_completed {old new : TaskAnalyticsState} (rest : SprintCounters)
    (hpoints : old.storyPoints = new.storyPoints) (hold : isTaskCompletedStatus old.status = false)
    (hnew : isTaskCompletedStatus new.status = true) :
    rest + old.counters + AnalyticsEventPayload.effect
      { eventType := .taskCompleted, storyPointsAtEvent := new.storyPoints
        isCompletedAtEvent := true } = rest + new.counters := by
  unfold AnalyticsEventPayload.effect TaskAnalyticsState.counters
  rw [if_pos hnew, if_neg (by simp [hold]), hpoints]
  ext <;> simp [SprintCounters.add_def, SprintCounters.zero_def, applyEvent,
    AnalyticsEventPayload.row]

theorem effect_reopened {old new : TaskAnalyticsState} (rest : SprintCounters)
    (hpoints : old.storyPoints = new.storyPoints) (hold : isTaskCompletedStatus old.status = true)
    (hnew : isTaskCompletedStatus new.status = false) :
    rest + old.counters + AnalyticsEventPayload.effect
      { eventType := .taskReopened, storyPointsAtEvent := new.storyPoints
        isCompletedAtEvent := false } = rest + new.counters := by
  unfold AnalyticsEventPayload.effect TaskAnalyticsState.counters
  rw [if_pos hold, if_neg (by simp [hnew]), hpoints]
  ext <;> simp [SprintCounters.add_def, SprintCounters.zero_def, applyEvent,
    AnalyticsEventPayload.row]

theorem counters_congr (old new : TaskAnalyticsState) (hpoints : old.storyPoints = new.storyPoints)
    (hdone : isTaskCompletedStatus old.status = isTaskCompletedStatus new.status) :
    old.counters = new.counters := by
  unfold TaskAnalyticsState.counters
  rw [hpoints, hdone]

/-- **Derived events** replay the change of their task. -/
theorem replays_derived {before after : TaskAnalyticsState} {rest : SprintCounters}
    (hrest : Sound rest) (hafter : ∀ p, after.storyPoints = some p → 0 ≤ p) :
    Replays (rest + before.counters) (deriveSprintTaskAnalyticsEvents before after)
      (rest + after.counters) := by
  -- the points change first
  set mid : TaskAnalyticsState := { before with storyPoints := after.storyPoints } with hmid
  have hpoints : Replays (rest + before.counters)
      (if before.storyPoints ≠ after.storyPoints then
        [{ eventType := .storyPointsChanged, storyPointsAtEvent := after.storyPoints
           isCompletedAtEvent := isTaskCompletedStatus before.status
           oldStoryPoints := before.storyPoints, newStoryPoints := after.storyPoints }]
      else []) (rest + mid.counters) := by
    by_cases hsp : before.storyPoints = after.storyPoints
    · rw [if_neg (not_not.mpr hsp), counters_congr before mid hsp rfl]
      exact .nil _
    · rw [if_pos hsp]
      exact .single (effect_pointsChanged before after.storyPoints rest)
        (hrest.add (sound_counters (t := mid) hafter))
  unfold deriveSprintTaskAnalyticsEvents
  refine hpoints.append ?_
  have hsound : Sound (rest + after.counters) := hrest.add (sound_counters hafter)
  have hsame : isTaskCompletedStatus mid.status = isTaskCompletedStatus before.status := rfl
  cases hold : isTaskCompletedStatus before.status with
  | false =>
    cases hnew : isTaskCompletedStatus after.status with
    | false =>
      rw [counters_congr mid after rfl (by rw [hsame, hold, hnew])]
      exact .nil _
    | true => exact .single (effect_completed rest rfl (hsame.trans hold) hnew) hsound
  | true =>
    cases hnew : isTaskCompletedStatus after.status with
    | false => exact .single (effect_reopened rest rfl (hsame.trans hold) hnew) hsound
    | true =>
      rw [counters_congr mid after rfl (by rw [hsame, hold, hnew])]
      exact .nil _

end Sprints

end CalmBoard

namespace CalmBoard.Sprints

/-- A task of a sprint, with `tasks_story_points_check`. -/
structure CheckedTask extends TaskAnalyticsState where
  check : ∀ p, storyPoints = some p → 0 ≤ p

/-- A row of the table. -/
def CheckedTask.ofRow (row : TaskRow) (h : Tasks.checkTaskRow row = .ok ()) : CheckedTask where
  toTaskAnalyticsState := analyticsState row
  check p hp := by
    simp only [Tasks.checkTaskRow, Fallible.throw_bind, Fallible.guard_ok] at h
    have hpoints : row.storyPoints = some p := hp
    have hcheck := h.2.2.2.1
    rw [hpoints, Option.any_some, decide_eq_true_eq] at hcheck
    exact not_lt.mp hcheck

def states (tasks : List CheckedTask) : List TaskAnalyticsState :=
  tasks.map CheckedTask.toTaskAnalyticsState

def eventRows (eventSequence : ℕ) (projectId sprintId taskId : Uuid) (occurredAt : Timestamptz)
    (events : List AnalyticsEventPayload) : List SprintEventRow :=
  events.mapIdx fun i e => e.row (eventSequence + i) projectId sprintId taskId occurredAt

theorem payload_eventRows (eventSequence : ℕ) (projectId sprintId taskId : Uuid)
    (occurredAt : Timestamptz) (events : List AnalyticsEventPayload) :
    (eventRows eventSequence projectId sprintId taskId occurredAt events).map payload = events := by
  unfold eventRows
  ext i : 1
  rw [List.getElem?_map, List.getElem?_mapIdx]
  cases events[i]? with
  | none => rfl
  | some e => rfl

theorem Replays.fold {c c' : SprintCounters} {events : List AnalyticsEventPayload}
    (h : Replays c events c') {rows : List SprintEventRow} (hrows : rows.map payload = events) :
    rows.foldl applyEvent c = c' ∧
      (Sound c → ∀ n, Sound ((rows.take n).foldl applyEvent c)) := by
  induction h generalizing rows with
  | nil c =>
    rw [List.map_eq_nil_iff] at hrows
    subst hrows
    refine ⟨rfl, fun hc n => ?_⟩
    rw [List.take_nil]
    exact hc
  | @cons c c' e es hsound _ ih =>
    obtain ⟨row, rest, rfl, rfl, hrest⟩ := List.map_eq_cons_iff.mp hrows
    obtain ⟨hfold, hsame⟩ := ih hrest
    rw [List.foldl_cons, applyEvent_eq]
    refine ⟨hfold, fun hc n => ?_⟩
    cases n with
    | zero => exact hc
    | succ n =>
      rw [List.take_succ_cons, List.foldl_cons, applyEvent_eq]
      exact hsame hsound n

theorem countTasks_middle (others others' : List CheckedTask) (t : CheckedTask) :
    countTasks (states (others ++ t :: others')) =
      countTasks (states (others ++ others')) + t.counters := by
  unfold states
  rw [countTasks_eq, countTasks_eq, List.map_append, List.map_append, List.map_append, List.map_append,
    List.sum_append, List.sum_append, List.map_cons, List.map_cons, List.sum_cons, add_comm t.counters,
    ← add_assoc]

theorem sound_countTasks (tasks : List CheckedTask) : Sound (countTasks (states tasks)) := by
  rw [countTasks_eq]
  refine Sound.sum fun c hc => ?_
  obtain ⟨t, ht, rfl⟩ := List.mem_map.mp hc
  obtain ⟨task, -, rfl⟩ := List.mem_map.mp ht
  exact sound_counters task.check

/-- **Metrics**: the events of a change of one task lead from the counters of the old tasks to those of
the new ones, and all counters on the way pass the check. -/
theorem metrics_exact (others others' : List CheckedTask) (before after : CheckedTask)
    (eventSequence : ℕ) (projectId sprintId taskId : Uuid) (occurredAt : Timestamptz) :
    let events := eventRows eventSequence projectId sprintId taskId occurredAt
      (deriveSprintTaskAnalyticsEvents before.toTaskAnalyticsState after.toTaskAnalyticsState)
    let old := countTasks (states (others ++ before :: others'))
    events.foldl applyEvent old = countTasks (states (others ++ after :: others')) ∧
      ∀ n, invariantCheck ((events.take n).foldl applyEvent old) = .ok () := by
  intro events old
  have hreplays : Replays old (deriveSprintTaskAnalyticsEvents before.toTaskAnalyticsState
      after.toTaskAnalyticsState) (countTasks (states (others ++ after :: others'))) := by
    show Replays (countTasks (states (others ++ before :: others'))) _ _
    rw [countTasks_middle, countTasks_middle]
    exact replays_derived (sound_countTasks _) after.check
  obtain ⟨hfold, hsame⟩ := hreplays.fold (payload_eventRows eventSequence projectId sprintId taskId
    occurredAt _)
  exact ⟨hfold, fun n => invariantCheck_of_sound (hsame (sound_countTasks _) n)⟩

def pointedRow (storyPoints : Option ℤ) (status : TaskStatus) : TaskRow :=
  { id := 100, projectId := 7, serial := "TASK-1041", title := "a", storyPoints, status
    createdAt := ⟨0⟩, updatedAt := ⟨0⟩ }

/-- Beside a done task of five points another one is reopened, now with three points. -/
theorem metrics_exact_reopened :
    let old := CheckedTask.ofRow (pointedRow (some 5) .done) rfl
    let before := CheckedTask.ofRow (pointedRow none .done) rfl
    let after := CheckedTask.ofRow (pointedRow (some 3) .todo) rfl
    (eventRows 1 7 8 100 ⟨0⟩ (deriveSprintTaskAnalyticsEvents before.toTaskAnalyticsState
      after.toTaskAnalyticsState)).foldl applyEvent (countTasks (states [old, before])) =
        ⟨2, 8, 1, 5, 1, 3⟩ :=
  (metrics_exact [CheckedTask.ofRow (pointedRow (some 5) .done) rfl] [] _ _ 1 7 8 100 ⟨0⟩).1

end CalmBoard.Sprints
