import CalmBoard.Workload.Capacity
import Mathlib.Algebra.BigOperators.Group.Multiset.Basic

/-!
# CalmBoard.Workload.Allocation — the minutes that are allocated in a week

* `Task.scheduledIn`: the tasks that count.
* `allocated_eq`: what the loop over the tasks allocates to a user.
* `sum_allocated`: what it allocates to all users of a list.
* `calculateWeeklyWorkload_ok`: the capacity and the allocation of a week.
-/

namespace CalmBoard.Workload

open Calendar (truthy weekday)
open Tasks (getTaskAssigneeIds)

namespace Task

/-- The task is still to be done. -/
def isActive (task : Task) : Bool :=
  (truthy task.deletedAt).isNone ∧ task.status ∉ ["done", "canceled", "cancelled"]

/-- An active task with dates that meet the week. -/
def scheduledIn (weekStart weekEnd : List Char) (task : Task) : Bool :=
  task.isActive && (taskRange task).any fun range => range.first ≤ weekEnd ∧ weekStart ≤ range.last

/-- The estimate of a task; a missing one is 0. -/
def hours (task : Task) : ℚ :=
  match task.estimatedHours with
  | some (.fin hours) => max 0 hours
  | _ => 0

def assignees (task : Task) : List Uuid := getTaskAssigneeIds task.assignment

/-- Those of the assignees that are users of the list. -/
def listed (users : List User) (task : Task) : List Uuid :=
  task.assignees.filter fun id => id ∈ users.map User.id

/-- The part of the assignees that they are. -/
def listedPart (users : List User) (task : Task) : ℚ :=
  (task.listed users).length / task.assignees.length

/-- What a task gives to each of its assignees. -/
def share (task : Task) : ℚ := 60 * task.hours / task.assignees.length

end Task

variable {task : Task} {tasks : List Task} {users : List User} {userId : Uuid}
  {weekStart weekEnd : List Char} {totals : TaskTotals}

/-! ### The loop over the tasks -/

theorem nodup_assignees (task : Task) : task.assignees.Nodup := nodup_distinct _

theorem share_of_estimate (raw : ℚ) (ids : List Uuid) :
    max 0 ((if raw ≤ 0 then 0 else if ids = [] then 0 else raw / ids.length) * 60) =
      60 * max 0 raw / ids.length := by
  by_cases hraw : raw ≤ 0
  · rw [if_pos hraw, max_eq_left hraw, zero_mul, mul_zero, zero_div]
    exact max_self 0
  · have hpos := (not_le.mp hraw).le
    have hshare : (if ids = [] then 0 else raw / ids.length) = raw / ids.length := by
      split
      · next hnone => rw [hnone, List.length_nil, Nat.cast_zero, div_zero]
      · rfl
    have hnonneg : 0 ≤ raw / ids.length * 60 :=
      mul_nonneg (div_nonneg hpos (Nat.cast_nonneg _)) (by norm_num)
    rw [if_neg hraw, hshare, max_eq_right hpos, max_eq_right hnonneg, div_mul_eq_mul_div, mul_comm raw]

theorem share_eq (task : Task) : max 0 (getTaskEffortShare task * 60) = task.share := by
  unfold getTaskEffortShare Task.share Task.hours Task.assignees
  have hzero := share_of_estimate 0 (getTaskAssigneeIds task.assignment)
  rw [max_self] at hzero
  cases task.estimatedHours with
  | none => exact hzero
  | some number =>
    cases number with
    | fin raw => exact share_of_estimate raw (getTaskAssigneeIds task.assignment)
    | nan => exact hzero
    | negInf => exact hzero
    | posInf => exact hzero

theorem allocate_minutes {taskId : Uuid} {minutes : ℚ} {allocated : Uuid → Allocation} {ids : List Uuid}
    (h : ids.Nodup) : ((ids.foldl (allocate taskId minutes) allocated) userId).minutes =
      (allocated userId).minutes + if userId ∈ ids then minutes else 0 := by
  induction ids generalizing allocated with
  | nil => simp
  | cons id ids ih =>
    obtain ⟨hid, h⟩ := List.nodup_cons.mp h
    rw [List.foldl_cons, ih h]
    unfold allocate
    by_cases heq : userId = id
    · subst heq
      rw [Function.update_self, if_neg hid, if_pos List.mem_cons_self, add_zero]
      rfl
    · rw [Function.update_of_ne heq]
      simp [heq]

theorem isActive_iff : task.isActive = true ↔ ¬(truthy task.deletedAt).isSome = true ∧
    ¬(task.status = "done" ∨ task.status = "canceled" ∨ task.status = "cancelled") := by
  unfold Task.isActive
  rw [decide_eq_true_iff, Option.isNone_iff_eq_none, ← Option.not_isSome_iff_eq_none]
  simp

theorem scheduledIn_iff : task.scheduledIn weekStart weekEnd = true ↔ task.isActive = true ∧
    ∃ range, taskRange task = some range ∧ ¬(weekEnd < range.first ∨ range.last < weekStart) := by
  unfold Task.scheduledIn
  rw [Bool.and_eq_true, Option.any_eq_true]
  refine and_congr_right fun _ => exists_congr fun range => and_congr_right fun _ => ?_
  rw [decide_eq_true_iff, not_or, not_lt, not_lt]

/-- **One round** of the loop gives every assignee of a task that counts its share. -/
theorem addTask_minutes : ((addTask weekStart weekEnd totals task).allocatedByUser userId).minutes =
    (totals.allocatedByUser userId).minutes +
      if task.scheduledIn weekStart weekEnd then
        if userId ∈ task.assignees then task.share else 0 else 0 := by
  have hskip : ¬task.scheduledIn weekStart weekEnd = true →
      (totals.allocatedByUser userId).minutes = (totals.allocatedByUser userId).minutes +
        if task.scheduledIn weekStart weekEnd then
          if userId ∈ task.assignees then task.share else 0 else 0 := by
    intro hoff
    rw [if_neg hoff, add_zero]
  unfold addTask
  split
  · next hdeleted =>
    exact hskip fun h => (isActive_iff.mp (scheduledIn_iff.mp h).1).1 hdeleted
  split
  · next hstatus =>
    exact hskip fun h => (isActive_iff.mp (scheduledIn_iff.mp h).1).2 hstatus
  next hdeleted hstatus =>
  split
  · next hrange =>
    refine hskip fun h => ?_
    obtain ⟨-, range, hsome, -⟩ := scheduledIn_iff.mp h
    cases hrange.symm.trans hsome
  next range hrange =>
  split
  · next hout =>
    refine hskip fun h => ?_
    obtain ⟨-, range, hsome, hin⟩ := scheduledIn_iff.mp h
    cases hrange.symm.trans hsome
    exact hin hout
  next hin =>
  have hon := scheduledIn_iff.mpr ⟨isActive_iff.mpr ⟨hdeleted, hstatus⟩, range, hrange, hin⟩
  dsimp only
  rw [if_pos hon]
  split
  · next hnone =>
    have hno : userId ∉ task.assignees := by
      unfold Task.assignees
      rw [hnone]
      exact List.not_mem_nil
    rw [if_neg hno, add_zero]
  · rw [share_eq]
    exact allocate_minutes (nodup_assignees task)

/-- **The loop** gives a user the shares of the tasks. -/
theorem allocated_eq :
    ((tasks.foldl (addTask weekStart weekEnd) totals).allocatedByUser userId).minutes =
      (totals.allocatedByUser userId).minutes +
        ((tasks.filter (Task.scheduledIn weekStart weekEnd)).map fun task =>
          if userId ∈ task.assignees then task.share else 0).sum := by
  induction tasks generalizing totals with
  | nil => simp
  | cons task tasks ih =>
    rw [List.foldl_cons, ih, addTask_minutes]
    cases hscheduled : task.scheduledIn weekStart weekEnd with
    | true =>
      rw [List.filter_cons_of_pos hscheduled, List.map_cons, List.sum_cons, ← add_assoc, if_pos rfl]
    | false =>
      rw [List.filter_cons_of_neg (by simp [hscheduled]), if_neg Bool.false_ne_true, add_zero]

/-! ### All users -/

theorem length_listed (husers : (users.map User.id).Nodup) :
    ((users.filter fun user => user.id ∈ task.assignees).length) = (task.listed users).length := by
  have hperm : ((users.map User.id).filter fun id => id ∈ task.assignees).Perm (task.listed users) := by
    refine (List.perm_ext_iff_of_nodup (husers.filter _) ((nodup_assignees task).filter _)).mpr ?_
    intro id
    simp only [List.mem_filter, decide_eq_true_iff]
    exact and_comm
  have hlength := hperm.length_eq
  rw [List.filter_map, List.length_map] at hlength
  exact hlength

theorem sum_share (husers : (users.map User.id).Nodup) :
    (users.map fun user => if user.id ∈ task.assignees then task.share else 0).sum =
      ((task.listed users).length : ℚ) * task.share := by
  have hothers : ∀ user ∈ users, decide (user.id ∈ task.assignees) = false →
      (if user.id ∈ task.assignees then task.share else 0) = 0 :=
    fun user _ hother => if_neg (of_decide_eq_false hother)
  rw [← Capped.sum_filter hothers, ← length_listed husers, ← nsmul_eq_mul, ← List.sum_replicate,
    ← List.map_const']
  refine congrArg List.sum (List.map_congr_left fun user huser => ?_)
  rw [if_pos (of_decide_eq_true (List.mem_filter.mp huser).2)]

/-- **All users** together have, of every task, the shares of the assignees that are among them. -/
theorem sum_allocated (husers : (users.map User.id).Nodup) :
    (users.map fun user =>
        ((tasks.foldl (addTask weekStart weekEnd) .start).allocatedByUser user.id).minutes).sum =
      ((tasks.filter (Task.scheduledIn weekStart weekEnd)).map fun task =>
        ((task.listed users).length : ℚ) * task.share).sum := by
  have hshares : ∀ user : User,
      ((tasks.foldl (addTask weekStart weekEnd) .start).allocatedByUser user.id).minutes =
        ((tasks.filter (Task.scheduledIn weekStart weekEnd)).map fun task =>
          if user.id ∈ task.assignees then task.share else 0).sum :=
    fun user => allocated_eq.trans (zero_add _)
  have hswap := Multiset.sum_map_sum_map (users : Multiset User)
    (tasks.filter (Task.scheduledIn weekStart weekEnd) : Multiset Task)
    (f := fun user task => if user.id ∈ task.assignees then task.share else 0)
  simp only [Multiset.map_coe, Multiset.sum_coe] at hswap
  simp only [hshares, hswap, sum_share husers]

/-! ### The analysis -/

structure WeeklyCapacity (input : WorkloadInput) (workload : WeeklyWorkload) : Prop where
  users : workload.rows.map WorkloadRow.user = input.users
  rows : ∃ monday, IsoWeek input.weekStart monday ∧ workload.weekStart = dayKey monday ∧
    workload.weekEnd = dayKey (monday + 6) ∧
    ∀ row ∈ workload.rows,
      RowCapacity (capacityOf input.capacities row.user) input.timeOff monday row
  /-- the order of the time off does not matter -/
  order : ∀ timeOff, timeOff.Perm input.timeOff →
    calculateWeeklyWorkload { input with timeOff } = .ok workload
  /-- a task counts as far as its assignees are users of the list -/
  allocated : (workload.rows.map WorkloadRow.allocatedMinutes).sum =
    ((input.tasks.filter (Task.scheduledIn workload.weekStart workload.weekEnd)).map fun task =>
      60 * task.hours * task.listedPart input.users).sum

theorem map_of_forall₂ {α β γ : Type} {f : α → γ} {g : β → γ} {l : List α} {l' : List β}
    (h : List.Forall₂ (fun a b => g b = f a) l l') : l'.map g = l.map f := by
  induction h with
  | nil => rfl
  | cons hhead _ ih => rw [List.map_cons, List.map_cons, hhead, ih]

/-- **The weekly workload**: time off and capacity day by day, and the minutes of the tasks. -/
theorem calculateWeeklyWorkload_ok (input : WorkloadInput) (workload : WeeklyWorkload)
    (htimeOff : ∀ entry ∈ input.timeOff, entry.Accepted) (husers : (input.users.map User.id).Nodup)
    (h : calculateWeeklyWorkload input = .ok workload) : WeeklyCapacity input workload := by
  have hrun := h
  unfold calculateWeeklyWorkload at h
  simp only [Fallible.bind_ok, Fallible.pure_ok] at h
  obtain ⟨weekStart, hstart, weekEnd, hend, rows, hrows, rfl⟩ := h
  obtain ⟨monday, hweek, rfl, rfl⟩ := isoWeek_of_ok hstart hend
  have hall := Fallible.mapM_ok (P := fun (user : User) (row : WorkloadRow) => row.user = user ∧
    row.allocatedMinutes = ((input.tasks.foldl (addTask (dayKey monday) (dayKey (monday + 6)))
      .start).allocatedByUser user.id).minutes)
    (fun user row hrow =>
      ⟨(workloadRow_ok hweek htimeOff hrow).1, (workloadRow_ok hweek htimeOff hrow).2.1⟩) hrows
  refine ⟨?_, ⟨monday, hweek, rfl, rfl, fun row hrow => ?_⟩, fun timeOff hperm => ?_, ?_⟩
  · exact (map_of_forall₂ (hall.imp fun user row hrow => hrow.1)).trans (List.map_id' _)
  · obtain ⟨user, -, hok⟩ := Fallible.mem_mapM_ok hrows hrow
    obtain ⟨rfl, -, hcapacity⟩ := workloadRow_ok hweek htimeOff hok
    exact hcapacity
  · have hcomm : ∀ allocated, workloadRow input.capacities timeOff (startOfIsoWeek input.weekStart)
        allocated = workloadRow input.capacities input.timeOff (startOfIsoWeek input.weekStart)
        allocated :=
      fun allocated => funext fun user => workloadRow_comm hweek hperm htimeOff
    rw [← hrun]
    unfold calculateWeeklyWorkload
    simp only [hcomm]
  · have hminutes := map_of_forall₂ (hall.imp fun user row hrow => hrow.2)
    dsimp only
    rw [hminutes, sum_allocated husers]
    refine congrArg List.sum (List.map_congr_left fun task _ => ?_)
    exact mul_div_left_comm _ _ _

/-- A holiday and four hours off in the week of 2026-07-27, and a task that users 1 and 2 share. -/
def sharedWeek : WorkloadInput where
  tasks := [⟨1, ⟨some 1, [2]⟩, "todo", none, some "2026-07-30T00:00:00Z", some (.fin 8), none⟩]
  users := [⟨1⟩, ⟨2⟩]
  capacities := [⟨1, 2400, 62⟩]
  timeOff :=
    [⟨none, .approved, "2026-07-27".toList, "2026-07-27".toList, none⟩,
      ⟨some 1, .approved, "2026-07-28".toList, "2026-07-28".toList, some 240⟩]
  weekStart := .time (20663 * 86400000)

theorem sharedWeek_accepted : ∀ entry ∈ sharedWeek.timeOff, entry.Accepted := by
  intro entry hentry
  rcases List.mem_cons.mp hentry with rfl | hentry
  · obtain ⟨input, hparse, hinput⟩ := Fallible.exists_ok
      (x := parseWorkloadTimeOffInput [("kind", .string "public_holiday"),
        ("startsOn", .string "2026-07-27"), ("endsOn", .string "2026-07-27")])
      (p := fun input => input.startsOn = "2026-07-27".toList ∧ input.endsOn = "2026-07-27".toList ∧
        input.minutesPerDay = none) (by decide)
    obtain ⟨hstart, hend, hminutes⟩ := of_decide_eq_true hinput
    exact ⟨_, input, hparse, hstart.symm, hend.symm, hminutes.symm⟩
  · obtain rfl := List.mem_singleton.mp hentry
    obtain ⟨input, hparse, hinput⟩ := Fallible.exists_ok
      (x := parseWorkloadTimeOffInput [("kind", .string "personal"), ("userId", .string "1"),
        ("startsOn", .string "2026-07-28"), ("endsOn", .string "2026-07-28"),
        ("minutesPerDay", .number (.fin 240))])
      (p := fun input => input.startsOn = "2026-07-28".toList ∧ input.endsOn = "2026-07-28".toList ∧
        input.minutesPerDay = some 240) (by decide)
    obtain ⟨hstart, hend, hminutes⟩ := of_decide_eq_true hinput
    exact ⟨_, input, hparse, hstart.symm, hend.symm, hminutes.symm⟩

theorem sharedWeek_capacity : ∃ workload, calculateWeeklyWorkload sharedWeek = .ok workload ∧
    workload.rows.map WorkloadRow.effectiveCapacityMinutes = [1680, 1920] ∧
    workload.rows.map WorkloadRow.allocatedMinutes = [240, 240] ∧
    WeeklyCapacity sharedWeek workload := by
  obtain ⟨workload, hrun, hrows⟩ := Fallible.exists_ok (x := calculateWeeklyWorkload sharedWeek)
    (p := fun workload =>
      workload.rows.map WorkloadRow.effectiveCapacityMinutes = [1680, 1920] ∧
        workload.rows.map WorkloadRow.allocatedMinutes = [240, 240]) (by decide +kernel)
  obtain ⟨heffective, hallocated⟩ := of_decide_eq_true hrows
  exact ⟨workload, hrun, heffective, hallocated,
    calculateWeeklyWorkload_ok sharedWeek workload sharedWeek_accepted (by decide) hrun⟩

/-- User 1 has no workday and shares a task with somebody who is not on the list. -/
def idleWeek : WorkloadInput :=
  { sharedWeek with users := [⟨1⟩], capacities := [⟨1, 2400, 0⟩], timeOff := [] }

/-- The accepted capacity stays although there are no workdays, and half of the task counts although
one of its assignees is not a user of the list. -/
theorem idleWeek_capacity :
    (∃ input, parseWorkloadCapacityInput
        [("weeklyMinutes", .number (.fin 2400)), ("workdayMask", .number (.fin 0))] "1" = .ok input ∧
      input = ⟨"1", 2400, 0⟩) ∧
    ∃ workload, calculateWeeklyWorkload idleWeek = .ok workload ∧
      (∃ monday, IsoWeek idleWeek.weekStart monday ∧ ∃ row ∈ workload.rows,
        row.effectiveCapacityMinutes ≠
          availableMinutes (capacityOf idleWeek.capacities row.user) idleWeek.timeOff row.user monday) ∧
      (workload.rows.map WorkloadRow.allocatedMinutes).sum ≠
        ((idleWeek.tasks.filter fun task => task.scheduledIn workload.weekStart workload.weekEnd ∧
          task.listed idleWeek.users = task.assignees).map fun task => 60 * task.hours).sum := by
  refine ⟨⟨_, by decide, rfl⟩, ?_⟩
  obtain ⟨workload, hrun, hfacts⟩ := Fallible.exists_ok (x := calculateWeeklyWorkload idleWeek)
    (p := fun workload =>
      (∃ row ∈ workload.rows, row.effectiveCapacityMinutes ≠
        availableMinutes (capacityOf idleWeek.capacities row.user) idleWeek.timeOff row.user 20661) ∧
      (workload.rows.map WorkloadRow.allocatedMinutes).sum ≠
        ((idleWeek.tasks.filter fun task => task.scheduledIn workload.weekStart workload.weekEnd ∧
          task.listed idleWeek.users = task.assignees).map fun task => 60 * task.hours).sum)
    (by decide +kernel)
  obtain ⟨hrow, hallocated⟩ := of_decide_eq_true hfacts
  refine ⟨workload, hrun, ⟨20661, ⟨?_, ?_, ?_⟩, hrow⟩, hallocated⟩
  · decide
  · decide
  · decide

end CalmBoard.Workload
