import CalmBoard.Tasks.Writer
import CalmBoard.Tasks.Triggers

/-!
# CalmBoard.Tasks.Recurrence — the recurrence flag and its rule

A task that recurs has one active rule, and the rule is the one its last creation or update asked
for.

* `Carries`: a rule has the fields of a recurrence that was supplied.
* `noted`: requests, together with the recurrence that was last supplied for each task.
* `recurrence_agrees`: flag and rule agree after every run, and the triggers between them end.
-/

namespace CalmBoard.Tasks

open Text Fallible

/-! ### What is supplied -/

variable {taskId : Uuid} {rule : TaskRecurrenceRow}

/-- The recurrence a new task is given. -/
def TaskStateInput.createdRecurrence (input : TaskStateInput) : Option TaskRecurrenceInput :=
  input.recurrence.join.or
    (if input.isRecurring = some (some true) then some weeklyRecurrence else none)

/-- What an update says of the recurrence: nothing, that it ends, or a new one. -/
def TaskStateInput.updatedRecurrence (input : TaskStateInput) :
    Option (Option TaskRecurrenceInput) :=
  match input.recurrence, input.isRecurring with
  | some r, _ => some r
  | none, some (some false) => some none
  | none, some _ => some (some weeklyRecurrence)
  | none, none => none

/-- A rule with the fields of a supplied recurrence; what is left out has its default. -/
structure Carries (rule : TaskRecurrenceRow) (r : TaskRecurrenceInput) : Prop where
  frequency : rule.frequency = r.frequency
  interval : r.interval.getD (.fin 1) = .fin rule.interval
  timezone : rule.timezone = resolvedTimezone "UTC" r.timezone
  weekdays : (rule.weekdays.map fun d : ℤ => Number.fin d).Perm (r.weekdays.getD [])
  monthDay : r.monthDay = rule.monthDay.map fun d : ℤ => .fin d
  startsAt : ∀ d, r.startsAt = some d → rule.startsAt.toDate = d
  endsAt : r.endsAt = rule.endsAt.map Timestamptz.toDate
  maxOccurrences : r.maxOccurrences = rule.maxOccurrences.map fun k : ℤ => .fin k
  nextOccurrenceAt : rule.nextOccurrenceAt = rule.startsAt
  status : rule.status = r.status.getD .active

theorem optionalInteger_ok {n : Option Number} {low : ℤ} {high : Option ℤ} {message : String}
    {k : Option ℤ} (h : optionalInteger n low high message = .ok k) :
    n = k.map fun k : ℤ => .fin k := by
  cases n with
  | none =>
    cases h
    rfl
  | some n =>
    simp only [optionalInteger] at h
    split at h
    · next m hm =>
      split at h
      · cases h
      · cases h
        rw [Number.eq_of_toInt? hm, Option.map_some]
    · cases h

theorem timezone_supplied (timezone : Option String) :
    (if (timezone.map trim).getD "" ≠ "" then (timezone.map trim).getD "" else "UTC") =
      resolvedTimezone "UTC" timezone := by
  cases timezone with
  | none => rfl
  | some tz =>
    simp only [Option.map_some, Option.getD_some, resolvedTimezone]
    by_cases htz : trim tz = ""
    · rw [if_pos htz, if_neg (not_not.mpr htz)]
    · rw [if_neg htz, if_pos htz]

theorem int4_inj {k m : ℤ} (h : int4 (.fin k) = .ok m) : m = k := by
  have := Number.fin.inj (int4_ok h)
  exact_mod_cast this.symm

/-- **The stored rule** of a recurrence that was accepted. -/
theorem carries_of_normalized {rt : Runtime} {r : TaskRecurrenceInput} {start : JsDate}
    {n : NormalizedRecurrence} (hn : normalizeTaskRecurrence rt r start = .ok n)
    (hrow : recurrenceRow taskId n = .ok rule) :
    Carries rule r ∧ rule.taskId = taskId ∧ rule.deletedAt = none := by
  have hchecked := rest_ok hn
  simp only [throw_bind, guard_ok, bind_ok, pure_ok] at hchecked
  obtain ⟨-, days, hdays, interval, hinterval, monthDay, hmonthDay, maxOccurrences, hmax, -, rfl⟩ :=
    hchecked
  simp only [recurrenceRow, bind_ok, pure_ok] at hrow
  obtain ⟨storedInterval, hstored, startsAt, hstart, endsAt, hends, storedMax, hstoredMax, rfl⟩ :=
    hrow
  have hdays' : List.Forall₂ (fun a (d : ℤ) => a = Number.fin d) (r.weekdays.getD []) days := by
    refine mapM_ok (fun a d h => ?_) hdays
    split at h
    · next k hk =>
      split at h
      · cases h
      · cases h
        exact Number.eq_of_toInt? hk
    · cases h
  have hmap : r.weekdays.getD [] = days.map fun d : ℤ => Number.fin d := by
    clear hdays hn
    generalize r.weekdays.getD [] = given at hdays'
    induction hdays' with
    | nil => rfl
    | cons h _ ih => rw [List.map_cons, h, ih]
  refine ⟨?_, rfl, rfl⟩
  exact
    { frequency := rfl
      interval := by
        rw [optionalInteger_ok hinterval, int4_inj hstored]
        cases interval <;> rfl
      timezone := timezone_supplied r.timezone
      weekdays := by
        rw [hmap]
        exact (List.perm_insertionSort (· ≤ ·) days).map _
      monthDay := optionalInteger_ok hmonthDay
      startsAt := fun d hd => by
        rw [hd] at hstart
        exact timestamp_ok hstart
      endsAt := by
        cases he : r.endsAt with
        | none =>
          rw [he] at hends
          cases hends
          rfl
        | some d =>
          rw [he] at hends
          obtain ⟨t, ht, rfl⟩ := map_ok.mp hends
          exact congrArg some (timestamp_ok ht).symm
      maxOccurrences := by
        rw [optionalInteger_ok hmax]
        cases maxOccurrences with
        | none =>
          cases hstoredMax
          rfl
        | some k =>
          obtain ⟨m, hm, rfl⟩ := map_ok.mp hstoredMax
          rw [int4_inj hm]
      nextOccurrenceAt := rfl
      status := rfl }

/-! ### What the resolvers ask for -/

section Resolvers

variable {rt : Runtime} {now : JsDate}

/-- A normalized recurrence comes from a supplied one. -/
def Normalizes (rt : Runtime) (n : NormalizedRecurrence) (r : TaskRecurrenceInput) : Prop :=
  ∃ start, normalizeTaskRecurrence rt r start = .ok n

theorem resolveTaskStateCreation_recurrence {input : TaskStateInput} {state : CanonicalTaskState}
    (h : resolveTaskStateCreation rt now input = .ok state) :
    ∃ o, state.recurrence = some o ∧ state.isRecurring = o.isSome ∧
      Option.Rel (Normalizes rt) o input.createdRecurrence := by
  simp only [resolveTaskStateCreation, bind_ok, pure_ok] at h
  obtain ⟨_, -, _, -, _, -, _, -, _, -, o, ho, _, -, rfl⟩ := h
  refine ⟨o, rfl, rfl, ?_⟩
  unfold createRecurrence at ho
  unfold TaskStateInput.createdRecurrence
  split at ho
  · next r _ hr =>
    obtain ⟨n, hn, rfl⟩ := map_ok.mp ho
    rw [hr]
    exact .some ⟨_, hn⟩
  · next hr hflag =>
    obtain ⟨n, hn, rfl⟩ := map_ok.mp ho
    rw [hr, hflag]
    exact .some ⟨_, hn⟩
  · next hr hflag =>
    cases ho
    rw [hr, if_neg hflag]
    exact .none

/-- An accepted update of a task that recurs says something of the recurrence; one that says nothing
leaves a task alone that does not recur. -/
theorem resolveTaskStateUpdate_recurrence {current : TaskStateCurrent} {input : TaskStateInput}
    {r : ResolvedTaskStateUpdate} (h : resolveTaskStateUpdate rt now current input = .ok r) :
    input.updatedRecurrence = none ∧ input.isRecurring = none ∧ r.recurrenceChanged = false ∨
      ∃ o given, r.state.recurrence = some o ∧ r.state.isRecurring = o.isSome ∧
        r.recurrenceChanged = true ∧ r.hasStateChange = true ∧
        input.updatedRecurrence = some given ∧ Option.Rel (Normalizes rt) o given := by
  simp only [resolveTaskStateUpdate, bind_ok, pure_ok] at h
  obtain ⟨_, -, _, -, _, -, _, -, ⟨isRecurring, recurrence⟩, hr, _, hcanonical, rfl⟩ := h
  have hview : assertCanonicalRecurrence rt isRecurring (.ofUpdated isRecurring recurrence) =
      .ok () := by
    simp only [assertCanonicalTaskState, bind_ok, throw_bind, guard_ok] at hcanonical
    obtain ⟨-, -, -, -, -, -, ⟨⟩, -, -, hview⟩ := hcanonical
    exact hview
  unfold resolveRecurrence at hr
  unfold TaskStateInput.updatedRecurrence
  split at hr
  · next hgiven =>
    cases hr
    exact Or.inr ⟨none, none, rfl, rfl, by simp, by simp, by rw [hgiven], .none⟩
  · next _ given hgiven =>
    obtain ⟨n, hn, hpair⟩ := map_ok.mp hr
    cases hpair
    exact Or.inr ⟨some n, some given, rfl, rfl, by simp, by simp, by rw [hgiven],
      .some ⟨_, hn⟩⟩
  · next hnone hflag =>
    cases hr
    exact Or.inr ⟨none, none, rfl, rfl, by simp, by simp, by rw [hnone, hflag], .none⟩
  · next flag hfalse hnone hflag =>
    split at hr
    · next hcurrent =>
      cases hr
      cases hview
    · obtain ⟨n, hn, hpair⟩ := map_ok.mp hr
      cases hpair
      refine Or.inr ⟨some n, some weeklyRecurrence, rfl, rfl, by simp, by simp, ?_, .some ⟨_, hn⟩⟩
      rw [hnone, hflag]
      split
      · next h => cases h
      · next h => exact absurd (Option.some.inj h) hfalse
      · rfl
      · next h => cases h
  · next hnone hflag =>
    cases hr
    exact Or.inl ⟨by rw [hnone, hflag], hflag, by simp [hflag]⟩

end Resolvers

/-! ### The flag and the rules of a task -/

section View

variable {rt : Runtime} {db db' : Db} {k : Uuid}

def flag (db : Db) (taskId : Uuid) : Option (Option Bool) :=
  (findActive db taskId).map TaskRow.isRecurring

/-- Flag and rules of a task. -/
def schedule (db : Db) (taskId : Uuid) : Option (Option Bool) × List TaskRecurrenceRow :=
  (flag db taskId, activeRules db taskId)

theorem schedule_congr (htasks : db'.tasks = db.tasks)
    (hrules : db'.recurrenceRules = db.recurrenceRules) : schedule db' = schedule db := by
  funext k
  unfold schedule flag findActive activeRules
  rw [htasks, hrules]

theorem schedule_of_bare (h : db'.bare = db.bare) : schedule db' = schedule db :=
  show schedule db'.bare = schedule db.bare from congrArg schedule h

theorem schedule_of_unlinked (h : db'.unlinked = db.unlinked) : schedule db' = schedule db :=
  show schedule db'.unlinked = schedule db.unlinked from congrArg schedule h

theorem flag_setRecurring (b : Bool) (j : Uuid) :
    flag (setRecurring db k b) j =
      if j = k then (flag db j).map fun _ => some b else flag db j := by
  unfold flag findActive setRecurring
  rw [Table.find?_update]
  cases hfind : db.tasks.find? j with
  | none => simp
  | some t =>
    obtain rfl : t.id = j := Table.key_of_find? hfind
    by_cases hk : t.id = k
    · rw [Option.map_some, if_pos (by simp [hk]), if_pos hk, Option.filter_some, Option.filter_some]
      show Option.map _ (if t.active = true then _ else _) = _
      split <;> rfl
    · simp [hk]

theorem activeRules_setRecurring (b : Bool) (j : Uuid) :
    activeRules (setRecurring db k b) j = activeRules db j := rfl

theorem activeRules_closeRecurrence (d : Timestamptz) (j : Uuid) :
    activeRules (closeRecurrence db k d) j = if j = k then [] else activeRules db j := by
  unfold closeRecurrence
  cases hrule : hasRecurrenceRule db k with
  | false =>
    rw [if_neg Bool.false_ne_true]
    split
    · next hj => exact hj ▸ activeRules_eq_nil.mpr hrule
    · rfl
  | true =>
    rw [if_pos rfl, activeRules_setRecurring]
    unfold activeRules
    rw [List.filter_map]
    by_cases hj : j = k
    · subst hj
      rw [if_pos rfl, List.map_eq_nil_iff, List.filter_eq_nil_iff]
      intro r _
      simp only [Function.comp_apply]
      split
      · simp
      · next hr => exact hr
    · rw [if_neg hj]
      have hsame : ∀ r : TaskRecurrenceRow, (r.taskId = j && r.deletedAt.isNone) = true →
          ¬(r.taskId = k && r.deletedAt.isNone) = true := by
        intro r hr hk
        simp only [Bool.and_eq_true, decide_eq_true_eq] at hr hk
        exact hj (hr.1.symm.trans hk.1)
      have hfilter : ∀ r ∈ db.recurrenceRules,
          ((fun r : TaskRecurrenceRow => decide (r.taskId = j) && r.deletedAt.isNone) ∘ fun r =>
            if r.taskId = k && r.deletedAt.isNone then { r with deletedAt := some d } else r) r =
              (decide (r.taskId = j) && r.deletedAt.isNone) := by
        intro r _
        simp only [Function.comp_apply]
        split
        · next hr =>
          simp only [Bool.and_eq_true, decide_eq_true_eq] at hr
          have hne : r.taskId ≠ j := fun he => hj (he.symm.trans hr.1)
          simp [hne]
        · rfl
      rw [List.filter_congr hfilter]
      conv_rhs => rw [← List.map_id (List.filter _ db.recurrenceRules)]
      refine List.map_congr_left fun r hr => ?_
      rw [if_neg (hsame r (List.mem_filter.mp hr).2)]
      rfl

theorem flag_closeRecurrence (d : Timestamptz) (j : Uuid) :
    flag (closeRecurrence db k d) j =
      if j = k ∧ activeRules db k ≠ [] then (flag db j).map fun _ => some false
      else flag db j := by
  unfold closeRecurrence
  cases hrule : hasRecurrenceRule db k with
  | false =>
    rw [if_neg (fun h : j = k ∧ activeRules db k ≠ [] => h.2 (activeRules_eq_nil.mpr hrule))]
    rfl
  | true =>
    have hne := hasRecurrenceRule_iff.mp hrule
    rw [if_pos rfl, flag_setRecurring]
    simp only [hne, ne_eq, not_false_eq_true, and_true]
    rfl

theorem insertRecurrence_ok (h : insertRecurrence rt db rule = .ok db')
    (hactive : rule.deletedAt = none) (j : Uuid) :
    schedule db' j = if j = rule.taskId then ((flag db j).map fun _ => some true, [rule])
      else schedule db j := by
  simp only [insertRecurrence, throw_bind, guard_ok, pure_ok] at h
  obtain ⟨-, -, -, hnone, rfl⟩ := h
  have hnil := activeRules_eq_nil.mpr (Bool.not_eq_true _ ▸ hnone)
  unfold schedule
  rw [flag_setRecurring, activeRules_setRecurring]
  by_cases hj : j = rule.taskId
  · subst hj
    rw [if_pos rfl, if_pos rfl]
    have hrules : activeRules { db with recurrenceRules := db.recurrenceRules ++ [rule] }
        rule.taskId = activeRules db rule.taskId ++ [rule] := by
      simp [activeRules, hactive]
    rw [hrules, hnil]
    rfl
  · rw [if_neg hj, if_neg hj]
    have hrules : activeRules { db with recurrenceRules := db.recurrenceRules ++ [rule] } j =
        activeRules db j := by
      simp [activeRules, Ne.symm hj]
    rw [hrules]
    rfl

def owners (db : Db) : List Uuid := db.recurrenceRules.map TaskRecurrenceRow.taskId

theorem owners_of_bare (h : db'.bare = db.bare) : owners db' = owners db :=
  show owners db'.bare = owners db.bare from congrArg owners h

theorem owners_of_unlinked (h : db'.unlinked = db.unlinked) : owners db' = owners db :=
  show owners db'.unlinked = owners db.unlinked from congrArg owners h

theorem owners_closeRecurrence (d : Timestamptz) : owners (closeRecurrence db k d) = owners db := by
  unfold closeRecurrence
  split
  · show List.map _ (List.map _ db.recurrenceRules) = _
    rw [List.map_map]
    refine List.map_congr_left fun r _ => ?_
    simp only [Function.comp_apply]
    split <;> rfl
  · rfl

theorem owners_insertRecurrence (h : insertRecurrence rt db rule = .ok db') :
    owners db' = owners db ++ [rule.taskId] := by
  simp only [insertRecurrence, throw_bind, guard_ok, pure_ok] at h
  obtain ⟨-, -, -, -, rfl⟩ := h
  exact List.map_append

theorem owners_syncRecurrenceRule {old new : TaskRow}
    (h : syncRecurrenceRule rt db old new = .ok db') : owners db' ⊆ owners db ++ [new.id] := by
  unfold syncRecurrenceRule at h
  split at h
  · cases h
    exact List.subset_append_left _ _
  · split at h
    · split at h
      · cases h
        exact List.subset_append_left _ _
      · exact fun j hj => owners_insertRecurrence h ▸ hj
    · split at h
      · cases h
        rw [owners_closeRecurrence]
        exact List.subset_append_left _ _
      · cases h
        exact List.subset_append_left _ _

theorem owners_writeRecurrence {o : Option (Option NormalizedRecurrence)}
    (h : writeRecurrence rt db k o = .ok db') : owners db' ⊆ owners db ++ [k] := by
  match o with
  | none =>
    cases h
    exact List.subset_append_left _ _
  | some none =>
    cases h
    rw [owners_closeRecurrence]
    exact List.subset_append_left _ _
  | some (some r) =>
    simp only [writeRecurrence, bind_ok] at h
    obtain ⟨rule, hrow, h⟩ := h
    have hid : rule.taskId = k := by
      simp only [recurrenceRow, bind_ok, pure_ok] at hrow
      obtain ⟨_, -, _, -, _, -, _, -, rfl⟩ := hrow
      rfl
    rw [owners_insertRecurrence h, owners_closeRecurrence, hid]
    exact (List.Perm.refl _).subset

theorem schedule_put {row old : TaskRow} (hfind : db.tasks.find? row.id = some old)
    (hdeleted : row.deletedAt = old.deletedAt) (j : Uuid) :
    schedule { db with tasks := db.tasks.put row } j =
      if j = row.id then ((flag db j).map fun _ => row.isRecurring, activeRules db j)
      else schedule db j := by
  unfold schedule flag findActive
  rw [Table.find?_put hfind]
  by_cases hj : j = row.id
  · subst hj
    have hactive : row.active = old.active := by
      unfold TaskRow.active
      rw [hdeleted]
    rw [if_pos rfl, if_pos rfl, hfind, Option.filter_some, Option.filter_some, hactive]
    split <;> rfl
  · rw [if_neg hj, if_neg (Ne.symm hj)]
    rfl

/-- The trigger on `is_recurring` leaves the flag it was fired for. -/
theorem syncRecurrenceRule_schedule {old new : TaskRow}
    (h : syncRecurrenceRule rt db old new = .ok db') {b : Bool} (hnew : new.isRecurring = some b)
    (hflag : flag db new.id = some (some b)) :
    flag db' new.id = some (some b) ∧ ∀ j, j ≠ new.id → schedule db' j = schedule db j := by
  unfold syncRecurrenceRule at h
  split at h
  · cases h
    exact ⟨hflag, fun _ _ => rfl⟩
  · split at h
    · next htrue =>
      obtain rfl : true = b := Option.some.inj (htrue.symm.trans hnew)
      split at h
      · cases h
        exact ⟨hflag, fun _ _ => rfl⟩
      · have hins := insertRecurrence_ok h rfl
        refine ⟨?_, fun j hj => (hins j).trans (if_neg hj)⟩
        have hself := congrArg Prod.fst ((hins new.id).trans (if_pos rfl))
        exact hself.trans (by rw [hflag]; rfl)
    · next htrue =>
      split at h
      · cases h
        refine ⟨?_, fun j hj => ?_⟩
        · have hfalse : b = false := by
            cases b with
            | true => exact absurd hnew htrue
            | false => rfl
          rw [flag_closeRecurrence, hflag, hfalse]
          split <;> rfl
        · unfold schedule
          rw [flag_closeRecurrence, activeRules_closeRecurrence, if_neg fun he => hj he.1, if_neg hj]
      · cases h
        exact ⟨hflag, fun _ _ => rfl⟩

end View

/-! ### Agreement -/

variable {input : UpdateTaskInput}

/-- Flag and rules of a task against the recurrence that was last supplied for it. -/
inductive Matches :
    Option (Option Bool) × List TaskRecurrenceRow → Option TaskRecurrenceInput → Prop
  | deleted (rules : List TaskRecurrenceRow) (r : Option TaskRecurrenceInput) :
    Matches (none, rules) r
  | off : Matches (some (some false), []) none
  | on {rule : TaskRecurrenceRow} {r : TaskRecurrenceInput} (h : Carries rule r) :
    Matches (some (some true), [rule]) (some r)

abbrev Supplied := Uuid → Option TaskRecurrenceInput

/-- Rules belong to tasks, and every task matches what was supplied for it. -/
structure Agrees (db : Db) (last : Supplied) : Prop where
  owned : ∀ k ∈ owners db, (db.tasks.find? k).isSome
  matched : ∀ k, Matches (schedule db k) (last k)

section Agreement

variable {rt : Runtime} {db db' : Db} {k : Uuid} {last : Supplied}

theorem writeRecurrence_schedule {o : Option NormalizedRecurrence}
    {given : Option TaskRecurrenceInput} (h : writeRecurrence rt db k (some o) = .ok db')
    (hrel : Option.Rel (Normalizes rt) o given) (hflag : flag db k = some (some o.isSome)) :
    Matches (schedule db' k) given ∧ ∀ j, j ≠ k → schedule db' j = schedule db j := by
  have hclosed : ∀ d j, j ≠ k → schedule (closeRecurrence db k d) j = schedule db j := by
    intro d j hj
    unfold schedule
    rw [flag_closeRecurrence, activeRules_closeRecurrence, if_neg fun he => hj he.1, if_neg hj]
  cases hrel with
  | none =>
    cases h
    refine ⟨?_, hclosed _⟩
    have hself : schedule (closeRecurrence db k db.newDate) k = (some (some false), []) := by
      unfold schedule
      rw [flag_closeRecurrence, activeRules_closeRecurrence, if_pos rfl, hflag]
      split <;> rfl
    rw [hself]
    exact .off
  | some hnormal =>
    obtain ⟨start, hnormal⟩ := hnormal
    simp only [writeRecurrence, bind_ok] at h
    obtain ⟨rule, hrow, h⟩ := h
    obtain ⟨hcarries, hid, hactive⟩ := carries_of_normalized hnormal hrow
    have hins := insertRecurrence_ok h hactive
    refine ⟨?_, fun j hj => (hins j).trans ((if_neg fun he => hj (he.trans hid)).trans
      (hclosed _ j hj))⟩
    rw [hins k, if_pos hid.symm, flag_closeRecurrence, hflag]
    split
    · exact .on hcarries
    · exact .on hcarries

theorem isSome_of_core (h : db'.core = db.core) (j : Uuid) :
    (db'.tasks.find? j).isSome = (db.tasks.find? j).isSome := by
  have hfind := congrArg (fun d : Db => (d.tasks.find? j).isSome) h
  simpa only [core_find?, Option.isSome_map] using hfind

/-- Schedules are left alone, except those of tasks that are deleted. -/
structure Kept (db db' : Db) : Prop where
  owners : owners db' = owners db
  ids : ∀ j, (db'.tasks.find? j).isSome = (db.tasks.find? j).isSome
  schedule : ∀ j f, flag db' j = some f → schedule db' j = schedule db j

theorem Kept.refl : Kept db db := ⟨rfl, fun _ => rfl, fun _ _ _ => rfl⟩

theorem Kept.trans {db'' : Db} (h : Kept db db') (h' : Kept db' db'') : Kept db db'' where
  owners := h'.owners.trans h.owners
  ids j := (h'.ids j).trans (h.ids j)
  schedule j f hf := by
    have hnext := h'.schedule j f hf
    have hflag : flag db' j = some f := (congrArg Prod.fst hnext).symm.trans hf
    rw [hnext, h.schedule j f hflag]

theorem Kept.of_same (htasks : db'.tasks = db.tasks)
    (hrules : db'.recurrenceRules = db.recurrenceRules) : Kept db db' where
  owners := congrArg (List.map TaskRecurrenceRow.taskId) hrules
  ids j := by rw [htasks]
  schedule j _ _ := congrFun (schedule_congr htasks hrules) j

theorem Agrees.kept (h : Agrees db last) (hkept : Kept db db') : Agrees db' last where
  owned j hj := by
    rw [hkept.owners] at hj
    rw [hkept.ids]
    exact h.owned j hj
  matched j := by
    cases hflag : flag db' j with
    | none =>
      have hdeleted : schedule db' j = (none, activeRules db' j) := by
        unfold schedule
        rw [hflag]
      rw [hdeleted]
      exact .deleted _ _
    | some f =>
      rw [hkept.schedule j f hflag]
      exact h.matched j

/-! ### The operations -/

theorem update_owners (h : update rt db taskId input = .ok db') :
    owners db' ⊆ owners db ++ [taskId] := by
  obtain ⟨plan, hplan, ⟨-, rfl⟩ | ⟨-, hwrite⟩⟩ := update_ok h
  · exact List.subset_append_left _ _
  obtain ⟨after, written, synced, peopled, linked, reminded, recurred, -, hafter, hwritten, hsynced,
    hpeopled, hlinked, hreminded, hrecurred, hrecord⟩ := writeUpdate_steps hwrite
  obtain ⟨-, hfind, -⟩ := getById_ok (planUpdate_ok hplan).1
  have hid : plan.before.row.id = taskId := Table.key_of_find? hfind
  have hidAfter : after.id = taskId := (updateColumns_ok hafter).id.trans hid
  have hsync := owners_syncRecurrenceRule hsynced
  rw [owners_of_bare hwritten, hidAfter] at hsync
  obtain ⟨events, hevents⟩ := Sprints.recordTaskChange_eq recurred plan.before.row after
  intro j hj
  rw [← hrecord, hevents] at hj
  have hreached := owners_writeRecurrence hrecurred hj
  rw [owners_of_bare hreminded, owners_of_unlinked (unlinked_writeDependencies hlinked),
    owners_of_bare hpeopled, hid] at hreached
  rcases List.mem_append.mp hreached with hj | hj
  · exact hsync hj
  · exact List.mem_append_right _ hj

theorem update_isSome (h : update rt db taskId input = .ok db') (j : Uuid) :
    (db'.tasks.find? j).isSome = (db.tasks.find? j).isSome := by
  obtain ⟨plan, hplan, ⟨-, rfl⟩ | ⟨-, hwrite⟩⟩ := update_ok h
  · rfl
  obtain ⟨after, written, -, hafter, hcore, hrecord⟩ := writeUpdate_ok hwrite
  obtain ⟨-, hfind, -⟩ := getById_ok (planUpdate_ok hplan).1
  have hid : after.id = taskId := (updateColumns_ok hafter).id.trans (Table.key_of_find? hfind)
  rw [← hrecord, find?_recordTaskChange, isSome_of_core hcore]
  show ((db.tasks.put after).find? j).isSome = _
  rw [Table.find?_put (hid ▸ hfind), hid]
  split
  · next hj =>
    rw [← hj, hfind]
    rfl
  · rfl

/-- **Update**: schedules stay as they are, or the task gets what the input says. -/
theorem update_schedule (h : update rt db taskId input = .ok db') :
    input.toTaskStateInput.updatedRecurrence = none ∧ schedule db' = schedule db ∨
      ∃ given, input.toTaskStateInput.updatedRecurrence = some given ∧
        Matches (schedule db' taskId) given ∧ ∀ j, j ≠ taskId → schedule db' j = schedule db j := by
  obtain ⟨plan, hplan, hwrite⟩ := update_ok h
  obtain ⟨hbefore, -, hresolved, hupdates⟩ := planUpdate_ok hplan
  obtain ⟨-, hfind, hactive⟩ := getById_ok hbefore
  simp only [resolveUpdate, bind_ok, pure_ok] at hresolved
  obtain ⟨state, hstate, assignment, -, hr⟩ := hresolved
  have hs : plan.resolved.state = state := hr ▸ rfl
  rw [← hs] at hstate
  have hsaid := resolveTaskStateUpdate_recurrence hstate
  rcases hwrite with ⟨hsame, rfl⟩ | ⟨-, hwrite⟩
  · obtain ⟨hnone, -, -⟩ | ⟨o, given, -, -, -, hchange, -⟩ := hsaid
    · exact Or.inl ⟨hnone, rfl⟩
    · rw [planUpdate_change hplan hchange] at hsame
      cases hsame
  obtain ⟨after, written, synced, peopled, linked, reminded, recurred, -, hafter, hwritten, hsynced,
    hpeopled, hlinked, hreminded, hrecurred, hrecord⟩ := writeUpdate_steps hwrite
  have hw := updateColumns_ok hafter
  have hid : plan.before.row.id = taskId := Table.key_of_find? hfind
  have hidAfter : after.id = taskId := hw.id.trans hid
  -- the schedules once the row is written, and those of the last writes
  have hput : ∀ j, schedule written j = if j = taskId then
      ((flag db j).map fun _ => after.isRecurring, activeRules db j) else schedule db j := by
    intro j
    have hold : db.tasks.find? after.id = some plan.before.row := hidAfter ▸ hfind
    rw [schedule_of_bare hwritten, schedule_put hold hw.deletedAt, hidAfter]
  have hflag : flag db taskId = some plan.before.row.isRecurring := by
    unfold flag findActive
    rw [hfind, Option.filter_some, if_pos hactive, Option.map_some]
  have hmiddle : schedule reminded = schedule synced := by
    rw [schedule_of_bare hreminded, schedule_of_unlinked (unlinked_writeDependencies hlinked),
      schedule_of_bare hpeopled]
  have hlast : schedule db' = schedule recurred := by
    obtain ⟨events, hevents⟩ := Sprints.recordTaskChange_eq recurred plan.before.row after
    rw [← hrecord, hevents]
    rfl
  rw [hlast]
  obtain ⟨hnone, hflagInput, hunchanged⟩ | ⟨o, given, hrecurrence, hisRecurring, hchanged, -, hgiven,
    hrel⟩ := hsaid
  · have hsameFlag : after.isRecurring = plan.before.row.isRecurring := by
      rw [hw.isRecurring, hupdates]
      simp only [taskUpdates, hunchanged, hflagInput]
      rfl
    have hsyncedSame : synced = written := by
      unfold syncRecurrenceRule at hsynced
      rw [if_pos hsameFlag.symm] at hsynced
      exact (Except.ok.inj hsynced).symm
    have hrecurredSame : recurred = reminded := by
      rw [if_neg (by simp [hunchanged])] at hrecurred
      exact (Except.ok.inj hrecurred).symm
    refine Or.inl ⟨hnone, ?_⟩
    rw [hrecurredSame, hmiddle, hsyncedSame]
    funext j
    rw [hput]
    split
    · next hj =>
      unfold schedule
      rw [hj, hflag, hsameFlag]
      rfl
    · rfl
  · have hnew : after.isRecurring = some o.isSome := by
      rw [hw.isRecurring, hupdates]
      simp only [taskUpdates, hchanged, hisRecurring]
      rfl
    have hflagWritten : flag written after.id = some (some o.isSome) := by
      have hself := congrArg Prod.fst (hput taskId)
      rw [if_pos rfl, hflag, hnew] at hself
      rw [hidAfter]
      exact hself
    obtain ⟨hflagSynced, hothersSynced⟩ := syncRecurrenceRule_schedule hsynced hnew hflagWritten
    rw [hchanged, if_pos rfl, hrecurrence, hid] at hrecurred
    have hflagReminded : flag reminded taskId = some (some o.isSome) := by
      rw [← hidAfter, ← hflagSynced]
      exact congrArg Prod.fst (congrFun hmiddle after.id)
    obtain ⟨hself, hothers⟩ := writeRecurrence_schedule hrecurred hrel hflagReminded
    refine Or.inr ⟨given, hgiven, hself, fun j hj => ?_⟩
    rw [hothers j hj, hmiddle, hothersSynced j fun he => hj (he.trans hidAfter), hput, if_neg hj]

theorem Agrees.write (h : Agrees db last) {given : Option TaskRecurrenceInput}
    (howners : owners db' ⊆ owners db ++ [k])
    (hids : ∀ j, (db.tasks.find? j).isSome ∨ j = k → (db'.tasks.find? j).isSome)
    (hself : Matches (schedule db' k) given)
    (hothers : ∀ j, j ≠ k → schedule db' j = schedule db j) :
    Agrees db' (Function.update last k given) where
  owned j hj := hids j ((List.mem_append.mp (howners hj)).imp (h.owned j) List.mem_singleton.mp)
  matched j := by
    by_cases hj : j = k
    · rw [hj, Function.update_self]
      exact hself
    · rw [Function.update_of_ne hj, hothers j hj]
      exact h.matched j

theorem Agrees.update (h : Agrees db last) (hupdate : update rt db taskId input = .ok db') :
    Agrees db' (Function.update last taskId
      (input.toTaskStateInput.updatedRecurrence.getD (last taskId))) := by
  have hids : ∀ j, (db.tasks.find? j).isSome ∨ j = taskId → (db'.tasks.find? j).isSome := by
    intro j hj
    rw [update_isSome hupdate]
    rcases hj with hj | rfl
    · exact hj
    · obtain ⟨plan, hplan, -⟩ := update_ok hupdate
      rw [(getById_ok (planUpdate_ok hplan).1).2.1]
      rfl
  obtain ⟨hnone, hsame⟩ | ⟨given, hgiven, hself, hothers⟩ := update_schedule hupdate
  · rw [hnone, Option.getD_none]
    refine h.write (update_owners hupdate) hids ?_ fun j _ => congrFun hsame j
    rw [hsame]
    exact h.matched taskId
  · rw [hgiven, Option.getD_some]
    exact h.write (update_owners hupdate) hids hself hothers

/-- **Create**: the new task gets the recurrence it is given. -/
theorem Agrees.create (h : Agrees db last) {input : CreateTaskInput}
    (hcreate : create rt db input = .ok db') :
    Agrees db' (Function.update last (db.uuids db.uuidCount)
      input.toTaskStateInput.createdRecurrence) := by
  obtain ⟨_, state, lead, links, row, tasks, inserted, recurred, -, hstate, hrow, htasks, hinserted,
    hrecurred, hlinked⟩ := create_steps hcreate
  obtain ⟨o, ho, hflagState, hrel⟩ := resolveTaskStateCreation_recurrence hstate
  obtain ⟨hid, hflagRow, hdeleted⟩ : row.id = db.uuids db.uuidCount ∧
      row.isRecurring = some o.isSome ∧ row.deletedAt = none := by
    simp only [createRow, bind_ok, pure_ok] at hrow
    obtain ⟨_, -, _, -, _, -, _, -, _, -, _, -, _, -, _, -, rfl⟩ := hrow
    exact ⟨rfl, congrArg some hflagState, rfl⟩
  rw [← hid]
  have hfresh : db.tasks.find? row.id = none := (Table.insert?_eq_some htasks).1
  have hfind : ∀ j, tasks.find? j = if row.id = j then some row else db.tasks.find? j :=
    Table.find?_insert? htasks
  have hids : ∀ j, (db.tasks.find? j).isSome ∨ j = row.id → (db'.tasks.find? j).isSome := by
    intro j hj
    have hcore : db'.core = ({ db with
        tasks, uuidCount := db.uuidCount + 1, serialNext := db.serialNext + 1 } : Db).core := by
      rw [core_of_unlinked (unlinked_writeCreatedDependencies hlinked),
        core_writeCreatedRecurrence hrecurred, core_of_bare hinserted]
    rw [isSome_of_core hcore]
    show (tasks.find? j).isSome = true
    rw [hfind]
    split
    · rfl
    · next hne => exact hj.resolve_right (Ne.symm hne)
  have hothersInserted : ∀ j, j ≠ row.id → schedule inserted j = schedule db j := by
    intro j hj
    rw [schedule_of_bare hinserted]
    unfold schedule flag findActive
    simp only [hfind, if_neg (Ne.symm hj)]
    rfl
  have hselfInserted : schedule inserted row.id = (some (some o.isSome), []) := by
    have hrules : activeRules db row.id = [] := by
      refine List.filter_eq_nil_iff.mpr fun r hr hsel => ?_
      simp only [Bool.and_eq_true, decide_eq_true_eq] at hsel
      have howned := h.owned r.taskId (List.mem_map_of_mem hr)
      rw [hsel.1, hfresh] at howned
      cases howned
    have hactive : row.active = true := by
      unfold TaskRow.active
      rw [hdeleted]
      rfl
    rw [schedule_of_bare hinserted]
    unfold schedule flag findActive
    simp only [hfind, if_true, Option.filter_some, hactive, Option.map_some, hflagRow]
    exact congrArg _ hrules
  have hlast : schedule db' = schedule recurred :=
    schedule_of_unlinked (unlinked_writeCreatedDependencies hlinked)
  have hownersLast : owners db' = owners recurred :=
    owners_of_unlinked (unlinked_writeCreatedDependencies hlinked)
  rw [ho, Option.join_some] at hrecurred
  generalize input.toTaskStateInput.createdRecurrence = given at hrel ⊢
  cases hrel with
  | none =>
    cases hrecurred
    refine h.write ?_ hids ?_ fun j hj => (congrFun hlast j).trans (hothersInserted j hj)
    · rw [hownersLast, owners_of_bare hinserted]
      exact List.subset_append_left _ _
    · rw [hlast, hselfInserted]
      exact .off
  | some hnormal =>
    obtain ⟨start, hnormal⟩ := hnormal
    simp only [writeCreatedRecurrence, bind_ok] at hrecurred
    obtain ⟨rule, hrule, hrecurred⟩ := hrecurred
    obtain ⟨hcarries, hruleId, hruleActive⟩ := carries_of_normalized hnormal hrule
    have hins := insertRecurrence_ok hrecurred hruleActive
    refine h.write ?_ hids ?_ fun j hj => ?_
    · rw [hownersLast, owners_insertRecurrence hrecurred, owners_of_bare hinserted, hruleId]
      exact fun _ hj => hj
    · have hflagInserted : flag inserted row.id = some (some true) := congrArg Prod.fst hselfInserted
      rw [hlast, hins, if_pos hruleId.symm, hflagInserted]
      exact .on hcarries
    · rw [hlast, hins, if_neg fun he => hj (he.trans hruleId)]
      exact hothersInserted j hj

theorem schedule_put_same {row old : TaskRow} (hfind : db.tasks.find? row.id = some old)
    (hdeleted : row.deletedAt = old.deletedAt) (hflag : row.isRecurring = old.isRecurring) :
    schedule { db with tasks := db.tasks.put row } = schedule db := by
  funext j
  rw [schedule_put hfind hdeleted]
  split
  · next hj =>
    unfold schedule flag findActive
    rw [hj, hfind, hflag, Option.filter_some]
    split <;> rfl
  · rfl

theorem movedColumns_kept {now : Timestamptz} {row new : TaskRow} {status : TaskStatus}
    {order : Number} {complete : Bool} (h : movedColumns now row status order complete = .ok new) :
    new.id = row.id ∧ new.deletedAt = row.deletedAt ∧ new.isRecurring = row.isRecurring := by
  simp only [movedColumns, bind_ok, pure_ok] at h
  obtain ⟨_, -, ⟨⟩, -, rfl⟩ := h
  exact ⟨rfl, rfl, rfl⟩

theorem Kept.put {row new : TaskRow} {status : TaskStatus} {order : Number} {complete : Bool}
    (hfind : findActive db k = some row)
    (hnew : movedColumns db.newDate row status order complete = .ok new) :
    Kept db { db with tasks := db.tasks.put new } := by
  obtain ⟨hid, hdeleted, hflag⟩ := movedColumns_kept hnew
  obtain ⟨hfound, -⟩ := findActive_ok hfind
  have hold : db.tasks.find? new.id = some row := by
    rw [hid, Table.key_of_find? hfound]
    exact hfound
  refine ⟨rfl, fun j => ?_, fun j _ _ => congrFun (schedule_put_same hold hdeleted hflag) j⟩
  show ((db.tasks.put new).find? j).isSome = _
  rw [Table.find?_put hold]
  split
  · next hj =>
    rw [← hj, hold]
    rfl
  · rfl

theorem kept_recordTaskChange (before after : TaskRow) :
    Kept db (Sprints.recordTaskChange db before after) := by
  obtain ⟨events, hevents⟩ := Sprints.recordTaskChange_eq db before after
  rw [hevents]
  exact .of_same rfl rfl

theorem kept_move {input : MoveTaskInput} (h : move db rt taskId input = .ok db') :
    Kept db db' := by
  simp only [move, bind_ok, throw_bind, guard_ok] at h
  obtain ⟨targetIndex, -, _, -, before, hbefore, -, -, -, h⟩ := h
  obtain ⟨-, hfind, hactive⟩ := getById_ok hbefore
  split at h
  · simp only [moveByAnchors, bind_ok, pure_ok] at h
    obtain ⟨order, -, -, -, moved, hmoved, rfl⟩ := h
    exact (Kept.put (Option.filter_eq_some_iff.mpr ⟨hfind, hactive⟩) hmoved).trans
      (kept_recordTaskChange _ _)
  · simp only [moveByIndex, bind_ok] at h
    obtain ⟨-, -, placed, hplaced, h⟩ := h
    have hmoved : Kept db placed := by
      refine foldlM_ok hplaced .refl fun s place t _ hs ht => ?_
      unfold placeTask at ht
      split at ht
      · cases ht
        exact hs
      · next row hrow =>
        simp only [bind_ok, pure_ok] at ht
        obtain ⟨new, hnew, rfl⟩ := ht
        exact hs.trans (.put hrow hnew)
    split at h
    · cases h
    · rw [← pure_ok.mp h]
      exact hmoved.trans (kept_recordTaskChange _ _)

theorem kept_closeDeletedTask (d : Timestamptz) (row : TaskRow) (hdeleted : flag db row.id = none) :
    Kept db (closeDeletedTask d db row) ∧
      ∀ j, flag (closeDeletedTask d db row) j = flag db j := by
  have hids := isSome_of_core (core_closeDeletedTask db d row)
  unfold closeDeletedTask at hids ⊢
  set closed := closeReminders (closeDependencies db row.id d) row.id d with hclosed
  have hbare := bare_syncParticipants (closeRecurrence closed row.id d) none
    { row with deletedAt := some d, sprintId := none }
  have hsame : schedule closed = schedule db := rfl
  have hschedule := schedule_of_bare hbare
  have hflag : ∀ j, flag (closeRecurrence closed row.id d) j = flag db j := by
    intro j
    rw [flag_closeRecurrence]
    split
    · next hj =>
      rw [hj.1]
      exact (congrArg (Option.map _) hdeleted).trans hdeleted.symm
    · rfl
  refine ⟨⟨?_, hids, fun j f hj => ?_⟩, fun j => ?_⟩
  · rw [owners_of_bare hbare, owners_closeRecurrence]
    rfl
  · rw [hschedule]
    have hne : j ≠ row.id := by
      rintro rfl
      have hnone := (congrArg Prod.fst (congrFun hschedule row.id)).trans (hflag row.id)
      rw [hdeleted] at hnone
      exact absurd (hj.symm.trans hnone) (by simp)
    unfold schedule
    rw [hflag, activeRules_closeRecurrence, if_neg hne]
    rfl
  · exact (congrArg Prod.fst (congrFun hschedule j)).trans (hflag j)

def markDeleted (d : Timestamptz) (t : TaskRow) : TaskRow :=
  { t with deletedAt := some d, updatedAt := d, sprintId := none }

theorem kept_deleteTasks (p : TaskRow → Bool) : Kept db (deleteTasks db p) := by
  unfold deleteTasks
  set marked : Db := { db with
    tasks := db.tasks.update (fun t => t.active && p t) (markDeleted db.newDate) fun _ => rfl }
    with hmarked
  have hfind : ∀ j, marked.tasks.find? j = (db.tasks.find? j).map fun t =>
      if t.active && p t then markDeleted db.newDate t else t :=
    fun j => Table.find?_update db.tasks (fun t => t.active && p t) (markDeleted db.newDate)
      (fun _ => rfl) j
  have hmark : Kept db marked := by
    refine ⟨rfl, fun j => by rw [hfind, Option.isSome_map], fun j f hf => ?_⟩
    unfold schedule
    refine Prod.ext ?_ rfl
    show flag marked j = flag db j
    unfold flag findActive at hf ⊢
    rw [hfind] at hf ⊢
    cases hrow : db.tasks.find? j with
    | none => rfl
    | some t =>
      rw [hrow, Option.map_some] at hf
      rw [Option.map_some]
      by_cases hsel : (t.active && p t) = true
      · rw [if_pos hsel] at hf
        cases hf
      · rw [if_neg hsel]
  -- the rows that are marked have no flag any more, and no trigger gives one back
  have hloop : Kept db (List.foldl (closeDeletedTask db.newDate) marked
        (db.tasks.rows.filter fun t => t.active && p t)) ∧
      ∀ j, flag (List.foldl (closeDeletedTask db.newDate) marked
        (db.tasks.rows.filter fun t => t.active && p t)) j = flag marked j := by
    refine List.foldlRecOn (motive := fun s => Kept db s ∧ ∀ j, flag s j = flag marked j) _ _
      ⟨hmark, fun _ => rfl⟩ fun s hs t ht => ?_
    obtain ⟨hmem, hsel⟩ := List.mem_filter.mp ht
    have hnone : flag s t.id = none := by
      rw [hs.2]
      unfold flag findActive
      rw [hfind, Table.find?_of_mem hmem, Option.map_some, if_pos hsel]
      rfl
    obtain ⟨hkept, hflag⟩ := kept_closeDeletedTask db.newDate t hnone
    exact ⟨hs.1.trans hkept, fun j => (hflag j).trans (hs.2 j)⟩
  exact hloop.1

theorem kept_softDelete (h : softDelete db taskId = .ok db') : Kept db db' := by
  simp only [softDelete, bind_ok] at h
  obtain ⟨before, -, h⟩ := h
  have hself : Kept db (deleteTasks db fun t => t.id = taskId) := kept_deleteTasks _
  have hdeleted := hself.trans
    (kept_deleteTasks fun t => t.parentId = some taskId)
  split at h
  · cases h
    exact hdeleted
  · split at h
    · cases h
      exact hdeleted.trans (.of_same rfl rfl)
    · cases h
      exact hdeleted.trans (.of_same rfl rfl)

theorem kept_ofSprint {r : Request} (hr : r.ofSprint = true) (h : step rt r db = .ok db') :
    Kept db db' := by
  have hplain := Sprints.plain_step hr h
  have hfind := plain_find? hplain
  have hrules : db'.recurrenceRules = db.recurrenceRules :=
    show db'.plain.recurrenceRules = db.plain.recurrenceRules from
      congrArg Db.recurrenceRules hplain
  refine ⟨congrArg (List.map TaskRecurrenceRow.taskId) hrules, fun j => ?_, fun j f _ => ?_⟩
  · have hj := congrArg Option.isSome (hfind j)
    rwa [Option.isSome_map, Option.isSome_map] at hj
  · have hactive : ∀ d : Db, flag d j =
        (((d.tasks.find? j).map TaskRow.unpointed).filter TaskRow.active).map
          TaskRow.isRecurring := by
      intro d
      unfold flag findActive
      cases d.tasks.find? j with
      | none => rfl
      | some t =>
        rw [Option.map_some, Option.filter_some, Option.filter_some]
        show _ = Option.map _ (if t.active = true then _ else _)
        split <;> rfl
    unfold schedule activeRules
    rw [hactive, hactive, hfind, hrules]

end Agreement

/-! ### Runs -/

/-- A request, and what it supplies. -/
def noted (rt : Runtime) (r : Request) (s : Db × Supplied) : Except RepoError (Db × Supplied) :=
  (step rt r s.1).map fun db => (db, match r with
    | .createTask input => Function.update s.2 (s.1.uuids s.1.uuidCount)
        input.toTaskStateInput.createdRecurrence
    | .updateTask taskId input => Function.update s.2 taskId
        (input.toTaskStateInput.updatedRecurrence.getD (s.2 taskId))
    | _ => s.2)

/-- The database after a sequence of requests, and what they supplied. -/
def notedAfter (rt : Runtime) (setup : Setup) (requests : List Request) : Db × Supplied :=
  Runs.run (noted rt) (initial setup, fun _ => none) requests

theorem notedAfter_fst (rt : Runtime) (setup : Setup) (requests : List Request) :
    (notedAfter rt setup requests).1 = after rt setup requests := by
  have hrun : ∀ (requests : List Request) (s : Db × Supplied),
      (Runs.run (noted rt) s requests).1 = Runs.run (step rt) s.1 requests := by
    intro requests
    induction requests with
    | nil => exact fun _ => rfl
    | cons r requests ih =>
      intro s
      have hexec : (Runs.exec (noted rt) s r).1 = Runs.exec (step rt) s.1 r := by
        unfold Runs.exec noted
        cases step rt r s.1 <;> rfl
      rw [Runs.run, List.foldl_cons, Runs.run, List.foldl_cons, ← hexec]
      exact ih _
  exact hrun requests _

theorem agrees_step {rt : Runtime} {db db' : Db} {last last' : Supplied} {r : Request}
    (h : Agrees db last) (hstep : noted rt r (db, last) = .ok (db', last')) : Agrees db' last' := by
  obtain ⟨_, hok, heq⟩ := map_ok.mp hstep
  cases heq
  cases r with
  | createTask input => exact h.create hok
  | updateTask taskId input => exact h.update hok
  | moveTask taskId input => exact h.kept (kept_move hok)
  | softDeleteTask taskId => exact h.kept (kept_softDelete hok)
  | elapse micros serials uuids =>
    cases hok
    exact h.kept (.of_same rfl rfl)
  | _ => exact h.kept (kept_ofSprint rfl hok)

theorem agrees_after (rt : Runtime) (setup : Setup) (requests : List Request) :
    Agrees (notedAfter rt setup requests).1 (notedAfter rt setup requests).2 := by
  refine Runs.run_invariant (I := fun s : Db × Supplied => Agrees s.1 s.2)
    (fun s r s' hs hok => agrees_step hs hok) requests _ ⟨fun k hk => ?_, fun k => ?_⟩
  · cases hk
  · exact .deleted _ _

/-- **Recurrence**: after every run a task that is not deleted has its flag set exactly when it has
one active rule, and the rule is the one last supplied; and the triggers that keep flag and rules
together end, with what the writes of the repository leave. -/
theorem recurrence_agrees (rt : Runtime) (setup : Setup) (requests : List Request) :
    (∀ t ∈ (after rt setup requests).tasks.rows, t.active = true →
      (t.isRecurring = some true ↔
        (activeRules (after rt setup requests) t.id).length = 1) ∧
      ((activeRules (after rt setup requests) t.id).length ≤ 1) ∧
      (∀ rule ∈ activeRules (after rt setup requests) t.id,
        ∃ r, (notedAfter rt setup requests).2 t.id = some r ∧ Carries rule r) ∧
      (t.isRecurring = some true ↔ ((notedAfter rt setup requests).2 t.id).isSome)) ∧
    ∀ (fuel : ℕ) (db : Db) (taskId : Uuid) (rule : TaskRecurrenceRow) (deletedAt : Timestamptz)
      (old new : TaskRow),
      insertRule (fire rt (fuel + 2)) rt db { rule with deletedAt := none } =
        ended (insertRecurrence rt db { rule with deletedAt := none }) ∧
      closeRules (fire rt (fuel + 2)) db taskId deletedAt =
        ended (.ok (closeRecurrence db taskId deletedAt)) ∧
      afterUpdate rt (fuel + 3) db old new = ended (syncRecurrenceRule rt db old new) := by
  refine ⟨fun t ht hactive => ?_, fun fuel db taskId rule deletedAt old new =>
    ⟨insertRule_eq fuel rfl, closeRules_eq fuel deletedAt, afterUpdate_eq fuel old new⟩⟩
  have hmatched := (agrees_after rt setup requests).matched t.id
  rw [notedAfter_fst] at hmatched
  have hflag : flag (after rt setup requests) t.id = some t.isRecurring := by
    unfold flag findActive
    rw [Table.find?_of_mem ht, Option.filter_some, if_pos hactive, Option.map_some]
  unfold schedule at hmatched
  rw [hflag] at hmatched
  generalize t.isRecurring = recurring at hmatched ⊢
  generalize activeRules (after rt setup requests) t.id = rules at hmatched ⊢
  generalize (notedAfter rt setup requests).2 t.id = last at hmatched ⊢
  cases hmatched with
  | off => simp
  | on hcarries =>
    refine ⟨by simp, by simp, fun rule hrule => ?_, by simp⟩
    rw [List.mem_singleton.mp hrule]
    exact ⟨_, rfl, hcarries⟩

/-- A task that is to recur gets a weekly rule. -/
theorem recurrence_agrees_weekly :
    let db := after utcRuntime smallSetup
      [.createTask { projectId := 7, title := "a", isRecurring := some (some true) }]
    (∃ t ∈ db.tasks.rows, t.active = true ∧ t.isRecurring = some true) ∧
      ∀ t ∈ db.tasks.rows, t.active = true → t.isRecurring = some true →
        (activeRules db t.id).length = 1 :=
  ⟨by decide, fun t ht hactive hflag =>
    ((recurrence_agrees _ _ _).1 t ht hactive).1.mp hflag⟩

end CalmBoard.Tasks
