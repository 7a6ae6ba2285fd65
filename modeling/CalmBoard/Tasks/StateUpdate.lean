import CalmBoard.System

/-!
# CalmBoard.Tasks.StateUpdate — updates that leave the recurrence alone

* `Valid`: a state whose fields are valid, each on its own.
* `resolve_plain_ok`, `resolve_plain_total`: an update of a task that does not recur.
* `update_succeeds_iff`: an update without a word on the recurrence does what it should exactly for
  tasks that do not recur, and for input that is refused anyway.
-/

namespace CalmBoard.Tasks

open Text Fallible

variable {rt : Runtime} {now : JsDate} {current : TaskStateCurrent} {input : TaskStateInput}

/-! ### Valid states -/

def ValidProgress (progress : Number) : Prop := ∃ n, progress.toInt? = some n ∧ 0 ≤ n ∧ n ≤ 100

def ValidDates (startDate dueDate : Option JsDate) : Prop :=
  startDate ≠ some .invalid ∧ dueDate ≠ some .invalid ∧
    ∀ s d, startDate = some (.time s) → dueDate = some (.time d) → s ≤ d

def ValidMilestone (isMilestone : Bool) (startDate dueDate : Option JsDate) : Prop :=
  isMilestone = true → ∃ t, startDate = some (.time t) ∧ dueDate = some (.time t)

def ValidTimezone (rt : Runtime) (timezone : String) : Prop :=
  trim timezone ≠ "" ∧ utf16Length (trim timezone) ≤ 100 ∧ rt.validZone (trim timezone) = true

/-- A state whose fields are valid, each on its own; the statuses and the priorities are valid by
their type.  A stored time zone may be empty. -/
structure Valid (rt : Runtime) (state : CanonicalTaskState) : Prop where
  progress : ValidProgress state.progress
  dates : ValidDates state.startDate state.dueDate
  milestone : ValidMilestone state.isMilestone state.startDate state.dueDate
  timezone : state.timezone = "" ∨ ValidTimezone rt state.timezone

theorem assertValidTaskProgress_iff {progress : Number} :
    assertValidTaskProgress progress = .ok () ↔ ValidProgress progress := by
  unfold assertValidTaskProgress ValidProgress
  cases progress.toInt? with
  | none => simp
  | some n =>
    simp only [Option.some.injEq, exists_eq_left']
    split <;> simp <;> omega

theorem assertValidTaskDates_iff {startDate dueDate : Option JsDate} :
    assertValidTaskDates startDate dueDate = .ok () ↔ ValidDates startDate dueDate := by
  unfold assertValidTaskDates ValidDates
  by_cases hs : startDate = some .invalid
  · simp [hs]
  by_cases hd : dueDate = some .invalid
  · simp [hs, hd]
  rw [if_neg hs, if_neg hd]
  simp only [ne_eq, hs, hd, not_false_eq_true, true_and]
  split
  · next s d =>
    split
    · next h => simp [h]
    · next h =>
      simp
      omega
  · next h =>
    refine iff_of_true rfl fun s d hs hd => absurd hd fun hd => h s d hs hd

theorem assertValidMilestone_iff {isMilestone : Bool} {startDate dueDate : Option JsDate} :
    assertValidMilestone isMilestone startDate dueDate = .ok () ↔
      ValidMilestone isMilestone startDate dueDate := by
  unfold assertValidMilestone ValidMilestone
  cases isMilestone with
  | false => simp
  | true =>
    simp only [if_true, forall_const]
    split
    · next s d =>
      split
      · next h => simp [h]
      · next h =>
        simp [Ne.symm h]
    · next h =>
      simp only [reduceCtorEq, false_iff]
      rintro ⟨t, hs, hd⟩
      exact h t t hs hd

theorem assertValidTimezone_iff {timezone field : String} :
    assertValidTimezone rt timezone field = .ok () ↔ ValidTimezone rt timezone := by
  unfold assertValidTimezone ValidTimezone
  simp only
  by_cases hblank : trim timezone = ""
  · simp [hblank]
  by_cases hlong : utf16Length (trim timezone) > 100
  · simp [hblank, hlong]
  by_cases hzone : rt.validZone (trim timezone) = true
  · simp [hblank, hlong, hzone]; omega
  · simp [hblank, hlong, hzone]

theorem assertCanonicalTimezone_iff {timezone : String} :
    assertCanonicalTimezone rt timezone = .ok () ↔ timezone = "" ∨ ValidTimezone rt timezone := by
  unfold assertCanonicalTimezone
  by_cases h : timezone = ""
  · simp [h]
  · rw [if_neg h, assertValidTimezone_iff]
    simp [h]

/-! ### The merged state -/

def TaskStateCurrent.state (current : TaskStateCurrent) : CanonicalTaskState where
  status := current.status
  priority := current.priority
  progress := .fin current.progress
  startDate := current.startDate
  dueDate := current.dueDate
  timezone := current.timezone
  isMilestone := current.isMilestone
  isRecurring := current.isRecurring

/-- The current state with the fields of the input in it. -/
def mergedState (current : TaskStateCurrent) (input : TaskStateInput) : CanonicalTaskState where
  status := input.status.getD current.status
  priority := input.priority.getD current.priority
  progress := resolveProgress current input
  startDate := input.startDate.getD current.startDate
  dueDate := input.dueDate.getD current.dueDate
  timezone := resolvedTimezone current.timezone input.timezone
  isMilestone := input.isMilestone.getD current.isMilestone
  isRecurring := current.isRecurring

/-- A stored task: its fields are valid, and its progress is full when it is done. -/
structure TaskStateCurrent.Canonical (rt : Runtime) (current : TaskStateCurrent) : Prop where
  valid : Valid rt current.state
  done : current.status = .done → current.progress = 100

theorem resolveTimezone_iff {z : String} {timezone : Option String} :
    (resolveTimezone rt z timezone = .ok (resolvedTimezone z timezone) ∧
      assertCanonicalTimezone rt (resolvedTimezone z timezone) = .ok ()) ↔
    (resolvedTimezone z timezone = "" ∨ ValidTimezone rt (resolvedTimezone z timezone)) := by
  rw [assertCanonicalTimezone_iff]
  cases timezone with
  | none => simp [resolveTimezone, resolvedTimezone]
  | some tz =>
    by_cases hblank : trim tz = ""
    · simp [resolveTimezone, resolvedTimezone, hblank]
    · have hresolved : resolvedTimezone z (some tz) = trim tz := if_neg hblank
      have hresolve : resolveTimezone rt z (some tz) =
          (fun _ => trim tz) <$> assertValidTimezone rt (trim tz) "timezone" := if_neg hblank
      rw [hresolved, hresolve, map_ok, and_iff_right_iff_imp]
      intro hvalid
      exact ⟨(), assertValidTimezone_iff.mpr (hvalid.resolve_left hblank), rfl⟩

theorem done_of_merged : (mergedState current input).status = .done →
    (mergedState current input).progress = .fin 100 := by
  intro hdone
  show resolveProgress current input = .fin 100
  unfold resolveProgress
  exact if_pos hdone

theorem assert_merged_iff {recurrence : RecurrenceView} :
    assertCanonicalTaskState rt (mergedState current input) recurrence = .ok () ↔
      (ValidProgress (mergedState current input).progress ∧
        ValidDates (mergedState current input).startDate (mergedState current input).dueDate ∧
        ValidMilestone (mergedState current input).isMilestone (mergedState current input).startDate
          (mergedState current input).dueDate ∧
        assertCanonicalTimezone rt (mergedState current input).timezone = .ok ()) ∧
      assertCanonicalRecurrence rt current.isRecurring recurrence = .ok () := by
  unfold assertCanonicalTaskState
  rw [then_ok, then_ok, then_ok, then_ok, assertValidTaskProgress_iff, assertValidTaskDates_iff,
    assertValidMilestone_iff, and_assoc, and_assoc, and_assoc]
  refine and_congr_right fun _ => and_congr_right fun _ => and_congr_right fun _ =>
    and_congr_right fun _ => ?_
  refine guard_ok.trans ⟨fun h => h.2, fun h => ⟨?_, h⟩⟩
  rintro ⟨hdone, hprogress⟩
  exact hprogress (done_of_merged hdone)

theorem resolveRecurrence_plain {dueDate : Option JsDate} (hrecurrence : input.recurrence = none)
    (hrecurring : input.isRecurring = none) :
    resolveRecurrence rt now current input dueDate = .ok (current.isRecurring, none) := by
  unfold resolveRecurrence
  rw [hrecurrence, hrecurring]

theorem assertCanonicalRecurrence_plain {isRecurring : Bool} :
    assertCanonicalRecurrence rt isRecurring (.ofUpdated isRecurring none) = .ok () ↔
      isRecurring = false := by
  cases isRecurring with
  | false => simp [RecurrenceView.ofUpdated, assertCanonicalRecurrence]
  | true => simp [RecurrenceView.ofUpdated, assertCanonicalRecurrence]

theorem assertRecurrenceFlag_plain (hrecurring : input.isRecurring = none) :
    assertRecurrenceFlag input = .ok () := by
  unfold assertRecurrenceFlag
  rw [if_neg]
  rintro ⟨h, -⟩
  rw [hrecurring] at h
  cases h

theorem resolve_plain_ok {r : ResolvedTaskStateUpdate} (hrecurrence : input.recurrence = none)
    (hrecurring : input.isRecurring = none) (h : resolveTaskStateUpdate rt now current input = .ok r) :
    Valid rt (mergedState current input) ∧ current.isRecurring = false ∧
      r.state = mergedState current input ∧
      (r.hasStateChange = false ↔ mergedState current input = current.state) := by
  simp only [resolveTaskStateUpdate, bind_ok, pure_ok, assertRecurrenceFlag_plain hrecurring,
    resolveRecurrence_plain hrecurrence hrecurring] at h
  obtain ⟨timezone, htimezone, -, -, -, -, -, -, x, hx, u, hcanonical, rfl⟩ := h
  cases hx
  obtain rfl := resolveTimezone_ok htimezone
  obtain ⟨⟨hprogress, hdates, hmilestone, hzone⟩, hrule⟩ := assert_merged_iff.mp hcanonical
  refine ⟨⟨hprogress, hdates, hmilestone, assertCanonicalTimezone_iff.mp hzone⟩,
    assertCanonicalRecurrence_plain.mp hrule, rfl, ?_⟩
  simp [mergedState, TaskStateCurrent.state, hrecurring, and_assoc]

theorem resolve_plain_total (hrecurrence : input.recurrence = none)
    (hrecurring : input.isRecurring = none) (hvalid : Valid rt (mergedState current input))
    (hcurrent : current.isRecurring = false) :
    ∃ r, resolveTaskStateUpdate rt now current input = .ok r := by
  obtain ⟨hresolve, hzone⟩ := resolveTimezone_iff.mpr hvalid.timezone
  have hcanonical : assertCanonicalTaskState rt (mergedState current input)
      (.ofUpdated current.isRecurring none) = .ok () :=
    assert_merged_iff.mpr ⟨⟨hvalid.progress, hvalid.dates, hvalid.milestone, hzone⟩,
      assertCanonicalRecurrence_plain.mpr hcurrent⟩
  simp only [resolveTaskStateUpdate, bind_ok, pure_ok]
  exact ⟨_, _, hresolve, (), assertValidMilestone_iff.mpr hvalid.milestone, (),
    assertValidTaskProgress_iff.mpr hvalid.progress, (), assertRecurrenceFlag_plain hrecurring, _,
    resolveRecurrence_plain hrecurrence hrecurring, (), hcanonical, rfl⟩

/-! ### Updates that leave the recurrence alone -/

/-- What an update without a word on the recurrence should do: it is refused exactly when a field of
the merged state is invalid, else it keeps `isRecurring` and reports a change exactly when there is
one; and an empty update of a canonical state changes nothing. -/
def UpdatesPlainly (rt : Runtime) (now : JsDate) (current : TaskStateCurrent)
    (input : TaskStateInput) : Prop :=
  ((∃ e, resolveTaskStateUpdate rt now current input = .error e) ↔
    ¬Valid rt (mergedState current input)) ∧
  (∀ r, resolveTaskStateUpdate rt now current input = .ok r →
    r.state.isRecurring = current.isRecurring ∧
      (r.hasStateChange = false ↔ mergedState current input = current.state)) ∧
  (current.Canonical rt → input = {} →
    ∃ r, resolveTaskStateUpdate rt now current input = .ok r ∧ r.hasStateChange = false)

theorem merged_empty (h : current.Canonical rt) : mergedState current {} = current.state := by
  have hprogress : resolveProgress current {} = .fin current.progress := by
    by_cases hdone : current.status = .done
    · rw [h.done hdone]
      exact if_pos hdone
    · simp [resolveProgress, hdone]
  unfold mergedState TaskStateCurrent.state
  rw [hprogress]
  rfl

/-- **Update without a word on the recurrence**: the synthesised rule of a recurring task does not
pass its own check, so every such update of a recurring task is refused. -/
theorem update_succeeds_iff (rt : Runtime) (now : JsDate) (current : TaskStateCurrent)
    (input : TaskStateInput) (hrecurrence : input.recurrence = none)
    (hrecurring : input.isRecurring = none) :
    UpdatesPlainly rt now current input ↔
      current.isRecurring = false ∨ ¬Valid rt (mergedState current input) := by
  constructor
  · rintro ⟨herror, -, -⟩
    by_contra hno
    simp only [not_or, not_not, Bool.not_eq_false] at hno
    cases hr : resolveTaskStateUpdate rt now current input with
    | error e => exact herror.mp ⟨e, hr⟩ hno.2
    | ok r =>
      have hplain := (resolve_plain_ok hrecurrence hrecurring hr).2.1
      rw [hno.1] at hplain
      cases hplain
  · intro hcase
    refine ⟨⟨?_, ?_⟩, ?_, ?_⟩
    · rintro ⟨e, he⟩ hvalid
      have htotal : ∃ r, resolveTaskStateUpdate rt now current input = .ok r :=
        resolve_plain_total hrecurrence hrecurring hvalid (hcase.resolve_right (not_not.mpr hvalid))
      obtain ⟨r, hr⟩ := htotal
      rw [hr] at he
      cases he
    · intro hinvalid
      cases hr : resolveTaskStateUpdate rt now current input with
      | error e => exact ⟨e, rfl⟩
      | ok r => exact absurd (resolve_plain_ok hrecurrence hrecurring hr).1 hinvalid
    · intro r hr
      obtain ⟨-, -, hstate, hchange⟩ := resolve_plain_ok hrecurrence hrecurring hr
      exact ⟨by rw [hstate]; rfl, hchange⟩
    · rintro hcanonical rfl
      have hmerged := merged_empty hcanonical
      have hvalid : Valid rt (mergedState current {}) := hmerged ▸ hcanonical.valid
      have htotal : ∃ r, resolveTaskStateUpdate rt now current {} = .ok r :=
        resolve_plain_total rfl rfl hvalid (hcase.resolve_right (not_not.mpr hvalid))
      obtain ⟨r, hr⟩ := htotal
      exact ⟨r, hr, (resolve_plain_ok rfl rfl hr).2.2.2.mpr hmerged⟩

/-- A task without dates. -/
def undated (isRecurring : Bool) : TaskStateCurrent where
  status := .todo
  priority := .medium
  progress := 0
  startDate := none
  dueDate := none
  timezone := "UTC"
  isMilestone := false
  isRecurring := isRecurring

theorem validTimezone_utc : ValidTimezone utcRuntime "UTC" :=
  ⟨by decide, by decide, by decide⟩

theorem canonical_undated (isRecurring : Bool) : (undated isRecurring).Canonical utcRuntime where
  valid :=
    { progress := ⟨0, rfl, le_rfl, by decide⟩
      dates := ⟨by nofun, by nofun, by nofun⟩
      milestone := by nofun
      timezone := Or.inr validTimezone_utc }
  done := by nofun

/-- Finishing a task that has started, with a due date. -/
def finishing : TaskStateInput where
  status := some .done
  priority := some .urgent
  dueDate := some (some (.time 172800000))
  timezone := some " UTC "

/-- A task that does not recur can be finished; one that does refuses too much progress. -/
theorem update_succeeds_undated :
    UpdatesPlainly utcRuntime (.time 0)
      { undated false with status := .inProgress, progress := 40, startDate := some (.time 86400000) }
      finishing ∧
    UpdatesPlainly utcRuntime (.time 0) (undated true) { progress := some (.fin 101) } := by
  refine ⟨(update_succeeds_iff utcRuntime (.time 0) _ finishing rfl rfl).mpr (Or.inl rfl),
    (update_succeeds_iff utcRuntime (.time 0) (undated true) _ rfl rfl).mpr (Or.inr fun hvalid => ?_)⟩
  obtain ⟨n, hn, -, hle⟩ := hvalid.progress
  cases hn
  exact absurd hle (by decide)

/-- A task that recurs does not. -/
theorem recurring_task_refuses_update : ¬UpdatesPlainly utcRuntime (.time 0) (undated true) {} := by
  rintro ⟨-, -, hempty⟩
  obtain ⟨r, hr, -⟩ := hempty (canonical_undated true) rfl
  have hrecurring : (undated true).isRecurring = false := (resolve_plain_ok rfl rfl hr).2.1
  cases hrecurring

end CalmBoard.Tasks
