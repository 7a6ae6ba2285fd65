import CalmBoard.Tasks.Rows

/-!
# CalmBoard.Tasks.Triggers — the triggers between the recurrence flag and the rules

`is_recurring` of a task and its active recurrence rule follow each other through two triggers, each
of which writes the table that fires the other one.  Here they run as they are, to a depth that
`fuel` bounds.

* `fire`: the two trigger functions; `setFlag`, `insertRule`, `closeRules`: the statements that fire
  them.
* `fire_flag`, `insertRule_eq`, `closeRules_eq`, `afterUpdate_eq`: they end within three levels,
  with what `Rows` writes at once.
-/

namespace CalmBoard.Tasks

/-- A run of triggers: it may not end within its fuel, and it may raise. -/
abbrev Triggered := ExceptT RepoError Option Db

/-- A run that has ended. -/
def ended (x : Except RepoError Db) : Triggered := ExceptT.mk (some x)

/-- `sync_task_recurrence_rule` for a task row, `sync_task_recurrence_flag` for the task of a rule. -/
inductive Trigger where
  | rule (old new : TaskRow)
  | flag (taskId : Uuid)

/-! ### Statements -/

section Statements

variable (fire : Trigger → Db → Triggered)

/-- `UPDATE tasks SET is_recurring = …`; `tasks_sync_recurrence_rule` fires when the value changes. -/
def setFlag (db : Db) (taskId : Uuid) (b : Bool) : Triggered :=
  match db.tasks.find? taskId with
  | none => ended (.ok db)
  | some old =>
    if old.isRecurring = some b then ended (.ok (setRecurring db taskId b))
    else
      fire (.rule old { old with isRecurring := some b, updatedAt := db.now })
        (setRecurring db taskId b)

/-- `INSERT INTO task_recurrence_rules`, with the checks `insertRecurrence` makes. -/
def insertRule (rt : Runtime) (db : Db) (rule : TaskRecurrenceRow) : Triggered := do
  if !rt.pgZone rule.timezone then throw (.database "Task recurrence timezone is invalid")
  if rule.nextOccurrenceAt < rule.startsAt ∨ rule.endsAt.any (· < rule.nextOccurrenceAt) then
    throw (.database "Task recurrence next occurrence is outside its schedule")
  if ¬ rule.weekdays.Nodup then throw (.database "Task recurrence weekdays must be unique")
  if hasRecurrenceRule db rule.taskId then
    throw (.database "task_recurrence_rules_task_active_unique")
  fire (.flag rule.taskId) { db with recurrenceRules := db.recurrenceRules ++ [rule] }

def activeRules (db : Db) (taskId : Uuid) : List TaskRecurrenceRow :=
  db.recurrenceRules.filter fun r => r.taskId = taskId && r.deletedAt.isNone

/-- `UPDATE task_recurrence_rules SET deleted_at = …` for the active rules of a task; each closed row
fires `task_recurrence_rules_sync_task_flag`. -/
def closeRules (db : Db) (taskId : Uuid) (deletedAt : Timestamptz) : Triggered :=
  (activeRules db taskId).foldlM (fun db _ => fire (.flag taskId) db)
    { db with recurrenceRules := db.recurrenceRules.map fun r =>
        if r.taskId = taskId && r.deletedAt.isNone then { r with deletedAt := some deletedAt }
        else r }

end Statements

/-- The two trigger functions; each level of one firing the other uses one unit of `fuel`. -/
def fire (rt : Runtime) : ℕ → Trigger → Db → Triggered
  | 0, _, _ => ExceptT.mk none
  | fuel + 1, .rule old new, db =>
    if new.isRecurring = some true then
      if hasRecurrenceRule db new.id then ended (.ok db)
      else
        let startsAt := ((new.dueDate.or new.startDate).getD new.createdAt)
        insertRule (fire rt fuel) rt db { taskId := new.id, startsAt, nextOccurrenceAt := startsAt }
    else if old.isRecurring = some true then closeRules (fire rt fuel) db new.id db.now
    else ended (.ok db)
  | fuel + 1, .flag taskId, db => setFlag (fire rt fuel) db taskId (hasRecurrenceRule db taskId)

/-- `UPDATE tasks`, after the row is written. -/
def afterUpdate (rt : Runtime) (fuel : ℕ) (db : Db) (old new : TaskRow) : Triggered :=
  if old.isRecurring = new.isRecurring then ended (.ok db) else fire rt fuel (.rule old new) db

/-! ### They end -/

section Ended

variable {rt : Runtime} {db : Db} {taskId : Uuid}

theorem hasRecurrenceRule_iff :
    hasRecurrenceRule db taskId = true ↔ activeRules db taskId ≠ [] := by
  unfold hasRecurrenceRule activeRules
  rw [List.any_eq_true, Ne, List.filter_eq_nil_iff]
  simp only [not_forall, not_not, exists_prop]

theorem activeRules_eq_nil : activeRules db taskId = [] ↔ hasRecurrenceRule db taskId = false := by
  rw [← Bool.not_eq_true, hasRecurrenceRule_iff, not_not]

theorem ended_bind {x : Except RepoError Db} {f : Db → Triggered} :
    (ended x >>= f) = match x with
      | .ok db => f db
      | .error e => ended (.error e) := by
  cases x <;> rfl

@[simp] theorem hasRecurrenceRule_setRecurring (k : Uuid) (b : Bool) :
    hasRecurrenceRule (setRecurring db k b) taskId = hasRecurrenceRule db taskId := rfl

theorem setRecurring_of_none (h : db.tasks.find? taskId = none) (b : Bool) :
    setRecurring db taskId b = db := by
  have htasks : db.tasks.update (fun t => t.id = taskId)
      (fun t => { t with isRecurring := some b, updatedAt := db.now }) (fun _ => rfl) =
        db.tasks := by
    apply Table.ext_rows
    rw [Table.rows_update]
    conv_rhs => rw [← List.map_id db.tasks.rows]
    refine List.map_congr_left fun t ht => ?_
    have hne : ¬decide (t.id = taskId) = true := by
      rw [decide_eq_true_eq]
      exact Table.find?_eq_none_iff.mp h t ht
    rw [if_neg hne]
    rfl
  unfold setRecurring
  rw [htasks]

theorem setRecurring_twice (b : Bool) :
    setRecurring (setRecurring db taskId b) taskId b = setRecurring db taskId b := by
  have htasks : (setRecurring (setRecurring db taskId b) taskId b).tasks =
      (setRecurring db taskId b).tasks := by
    apply Table.ext_rows
    simp only [setRecurring, Table.rows_update, List.map_map]
    refine List.map_congr_left fun t _ => ?_
    by_cases ht : t.id = taskId
    · simp [ht]
    · simp [ht]
  unfold setRecurring at htasks ⊢
  simp only at htasks
  simp only [htasks]

theorem closeRules_none (f : Trigger → Db → Triggered) (h : hasRecurrenceRule db taskId = false)
    (deletedAt : Timestamptz) : closeRules f db taskId deletedAt = ended (.ok db) := by
  have hnil := activeRules_eq_nil.mpr h
  have hrules : (db.recurrenceRules.map fun r =>
      if r.taskId = taskId && r.deletedAt.isNone then { r with deletedAt := some deletedAt }
      else r) = db.recurrenceRules := by
    conv_rhs => rw [← List.map_id db.recurrenceRules]
    refine List.map_congr_left fun r hr => ?_
    rw [if_neg (List.filter_eq_nil_iff.mp hnil r hr)]
    rfl
  unfold closeRules
  rw [hnil, hrules]
  rfl

/-- **The flag trigger** sets the flag; what it fires finds nothing left to do. -/
theorem fire_flag (fuel : ℕ) : fire rt (fuel + 2) (.flag taskId) db =
    ended (.ok (setRecurring db taskId (hasRecurrenceRule db taskId))) := by
  rw [fire]
  unfold setFlag
  cases hfind : db.tasks.find? taskId with
  | none => rw [setRecurring_of_none hfind]
  | some old =>
    simp only
    split
    · rfl
    · obtain rfl : old.id = taskId := Table.key_of_find? hfind
      rw [fire]
      cases hrule : hasRecurrenceRule db old.id with
      | true => simp [hrule]
      | false =>
        simp only [Option.some.injEq, Bool.false_eq_true, if_false]
        split
        · exact closeRules_none _ (by simpa using hrule) _
        · rfl

/-- **An inserted rule** leaves what `insertRecurrence` leaves. -/
theorem insertRule_eq (fuel : ℕ) {rule : TaskRecurrenceRow} (hactive : rule.deletedAt = none) :
    insertRule (fire rt (fuel + 2)) rt db rule = ended (insertRecurrence rt db rule) := by
  have hhas : hasRecurrenceRule { db with recurrenceRules := db.recurrenceRules ++ [rule] }
      rule.taskId = true := by
    simp [hasRecurrenceRule, hactive]
  unfold insertRule insertRecurrence
  rw [fire_flag, hhas]
  by_cases hzone : (!rt.pgZone rule.timezone) = true
  · rw [if_pos hzone, if_pos hzone]
    rfl
  rw [if_neg hzone, if_neg hzone]
  by_cases hnext : rule.nextOccurrenceAt < rule.startsAt ∨
      rule.endsAt.any (· < rule.nextOccurrenceAt) = true
  · simp only [if_pos hnext]
    rfl
  simp only [if_neg hnext]
  by_cases hdays : ¬rule.weekdays.Nodup
  · simp only [if_pos hdays]
    rfl
  simp only [if_neg hdays]
  by_cases hrule : hasRecurrenceRule db rule.taskId = true
  · simp only [if_pos hrule]
    rfl
  simp only [if_neg hrule]
  rfl

/-- **Closed rules** leave what `closeRecurrence` leaves. -/
theorem closeRules_eq (fuel : ℕ) (deletedAt : Timestamptz) :
    closeRules (fire rt (fuel + 2)) db taskId deletedAt =
      ended (.ok (closeRecurrence db taskId deletedAt)) := by
  unfold closeRecurrence
  cases hrule : hasRecurrenceRule db taskId with
  | false => exact closeRules_none _ hrule deletedAt
  | true =>
    unfold closeRules
    set closed : Db := { db with recurrenceRules := db.recurrenceRules.map fun r =>
      if r.taskId = taskId && r.deletedAt.isNone then { r with deletedAt := some deletedAt }
      else r } with hclosed
    have hnone : hasRecurrenceRule closed taskId = false := by
      rw [hclosed]
      simp only [hasRecurrenceRule, List.any_map, List.any_eq_false, Function.comp_apply]
      intro r _
      by_cases hr : (r.taskId = taskId && r.deletedAt.isNone) = true
      · rw [if_pos hr]
        simp
      · rwa [if_neg hr]
    -- every closed row sets the flag once more
    have hloop : ∀ (rules : List TaskRecurrenceRow) (db : Db), hasRecurrenceRule db taskId = false →
        rules ≠ [] → rules.foldlM (fun db _ => fire rt (fuel + 2) (.flag taskId) db) db =
          ended (.ok (setRecurring db taskId false)) := by
      intro rules
      induction rules with
      | nil => exact fun _ _ h => absurd rfl h
      | cons r rules ih =>
        intro db hdb _
        rw [List.foldlM_cons, fire_flag, hdb, ended_bind]
        cases rules with
        | nil => rfl
        | cons s rules =>
          have hset : hasRecurrenceRule (setRecurring db taskId false) taskId = false := hdb
          exact (ih _ hset (List.cons_ne_nil s rules)).trans (by rw [setRecurring_twice])
    rw [if_pos rfl]
    exact hloop _ closed hnone (hasRecurrenceRule_iff.mp hrule)

/-- **A written task** leaves what `syncRecurrenceRule` leaves. -/
theorem afterUpdate_eq (fuel : ℕ) (old new : TaskRow) :
    afterUpdate rt (fuel + 3) db old new = ended (syncRecurrenceRule rt db old new) := by
  unfold afterUpdate syncRecurrenceRule
  split
  · rfl
  · rw [fire]
    split
    · split
      · rfl
      · exact insertRule_eq fuel rfl
    · split
      · exact closeRules_eq fuel _
      · rfl

end Ended

end CalmBoard.Tasks
