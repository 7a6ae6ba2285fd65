import CalmBoard.Workload.Validation
import CalmBoard.Calendar.Covered
import CalmBoard.Tasks.AssignmentDomain
import Mathlib.Data.Rat.Floor

/-!
# CalmBoard.Workload.Analysis — the weekly workload of the web client

* `startOfIsoWeek`, `addUtcDays`, `isoDate`: the days of the week.
* `getTaskEffortShare`, `addTask`: the minutes that are allocated to the assignees of the tasks.
* `reduceDay`, `reduceEntry`: what the time off takes from the days of a user.
* `calculateWeeklyWorkload`: a row for every user, and the totals.

Minutes and hours are exact, and an empty text is a missing one.
-/

namespace CalmBoard.Workload

open Calendar (truthy timeClip dateUTC startOfDay makeDay weekday)
open IsoDate (msPerDay toISOString)
open Tasks (ClientTask getTaskAssigneeIds)

/-! ### What the client has -/

structure User where
  id : Uuid

/-- A row of `workload_capacities`; both columns are integers. -/
structure WorkloadCapacity where
  userId : Uuid
  weeklyMinutes : ℤ
  workdayMask : ℤ

inductive WorkloadTimeOffStatus where
  | requested | approved | rejected
  deriving DecidableEq

structure WorkloadTimeOff where
  userId : Option Uuid
  status : WorkloadTimeOffStatus
  startsOn : List Char
  endsOn : List Char
  minutesPerDay : Option ℤ

structure Task where
  id : Uuid
  assignment : ClientTask
  status : String
  startDate : Option String
  dueDate : Option String
  estimatedHours : Option Number
  deletedAt : Option String

/-! ### Days -/

/-- A `Date` with a new time value. -/
def ofTime (t : ℤ) : JsDate :=
  match timeClip t with
  | some t => .time t
  | none => .invalid

/-- Throws a `RangeError` for an invalid date. -/
def isoDate : JsDate → Except Unit (List Char)
  | .time t => .ok ((toISOString t).take 10)
  | .invalid => .error ()

/-- Days before the first or after the last of the month run on. -/
def setUTCDate (t day : ℤ) : JsDate :=
  let date := Civil.civilFromDays (t / msPerDay)
  ofTime (makeDay date.year date.month day * msPerDay + t % msPerDay)

def startOfIsoWeek : JsDate → JsDate
  | .invalid => .invalid
  | .time value =>
    match dateUTC (startOfDay (value / msPerDay)) with
    | none => .invalid
    | some date =>
      let day := weekday (date / msPerDay)
      let dayOfMonth : ℤ := (Civil.civilFromDays (date / msPerDay)).day
      setUTCDate date (dayOfMonth - if day = 0 then 6 else day - 1)

def addUtcDays (value : JsDate) (days : ℤ) : JsDate :=
  match value with
  | .invalid => .invalid
  | .time t => ofTime (t + days * msPerDay)

/-- A date that is not valid has no weekday, and a shift by that is a shift by 0. -/
def getUTCDay : JsDate → ℕ
  | .time t => (weekday (t / msPerDay)).toNat
  | .invalid => 0

/-- `(mask & (1 << day)) !== 0` -/
def isWorkday (mask : ℤ) (day : ℕ) : Bool := mask / 2 ^ day % 2 ≠ 0

def workdays (mask : ℤ) : List ℕ := (List.range 7).filter (isWorkday mask)

/-! ### Tasks -/

structure DateRange where
  first : List Char
  last : List Char

def taskRange (task : Task) : Option DateRange :=
  let first := ((truthy task.startDate).or task.dueDate).map fun text => text.toList.take 10
  let last := ((truthy task.dueDate).or task.startDate).map fun text => text.toList.take 10
  match first, last with
  | some first, some last =>
    if first = [] ∨ last = [] then none
    else if first ≤ last then some ⟨first, last⟩ else some ⟨last, first⟩
  | _, _ => none

def getTaskEffortShare (task : Task) : ℚ :=
  let rawEstimated := match task.estimatedHours with
    | some (.fin hours) => hours
    | _ => 0
  if rawEstimated ≤ 0 then 0
  else
    let assignees := getTaskAssigneeIds task.assignment
    if assignees = [] then 0 else rawEstimated / assignees.length

structure Allocation where
  taskIds : List Uuid
  minutes : ℚ

def Allocation.add (allocation : Allocation) (taskId : Uuid) (minutes : ℚ) : Allocation where
  taskIds := allocation.taskIds ++ [taskId]
  minutes := allocation.minutes + minutes

structure TaskTotals where
  allocatedByUser : Uuid → Allocation
  unscheduledTaskCount : ℕ

/-- No task yet. -/
def TaskTotals.start : TaskTotals where
  allocatedByUser _ := ⟨[], 0⟩
  unscheduledTaskCount := 0

def allocate (taskId : Uuid) (minutesPerAssignee : ℚ) (allocated : Uuid → Allocation)
    (userId : Uuid) : Uuid → Allocation :=
  Function.update allocated userId ((allocated userId).add taskId minutesPerAssignee)

/-- One round of the loop over the tasks. -/
def addTask (weekStart weekEnd : List Char) (totals : TaskTotals) (task : Task) : TaskTotals :=
  if (truthy task.deletedAt).isSome then totals
  else if task.status = "done" ∨ task.status = "canceled" ∨ task.status = "cancelled" then totals
  else
    match taskRange task with
    | none => { totals with unscheduledTaskCount := totals.unscheduledTaskCount + 1 }
    | some range =>
      if weekEnd < range.first ∨ range.last < weekStart then totals
      else
        let assignees := getTaskAssigneeIds task.assignment
        if assignees = [] then totals
        else
          let minutesPerAssignee := max 0 (getTaskEffortShare task * 60)
          { totals with
            allocatedByUser :=
              assignees.foldl (allocate task.id minutesPerAssignee) totals.allocatedByUser }

/-! ### Time off -/

/-- What is taken from the days, in the order in which the days came. -/
abbrev Reductions := List (List Char × ℚ)

def Reductions.get? (reductions : Reductions) (key : List Char) : Option ℚ :=
  (reductions.find? fun p => p.1 = key).map Prod.snd

/-- One round of the loop over the days of the week. -/
def reduceDay (weekStartDate : JsDate) (workdayMask : ℤ) (dailyCapacity : ℚ)
    (entry : WorkloadTimeOff) (reductions : Reductions) (dayIndex : ℕ) : Except Unit Reductions := do
  let date := addUtcDays weekStartDate dayIndex
  let key ← isoDate date
  if key < entry.startsOn ∨ entry.endsOn < key ∨ isWorkday workdayMask (getUTCDay date) = false then
    pure reductions
  else
    let reduction := min dailyCapacity (entry.minutesPerDay.elim dailyCapacity fun m => (m : ℚ))
    let reduced := min dailyCapacity ((reductions.get? key).getD 0 + reduction)
    pure (Keyed.put Prod.fst reductions (key, reduced))

/-- One round of the loop over the time off. -/
def reduceEntry (weekStartDate : JsDate) (workdayMask : ℤ) (dailyCapacity : ℚ) (user : User)
    (reductions : Reductions) (entry : WorkloadTimeOff) : Except Unit Reductions :=
  if entry.status ≠ .approved ∨ (entry.userId ≠ none ∧ entry.userId ≠ some user.id) then
    pure reductions
  else
    (List.range 7).foldlM (reduceDay weekStartDate workdayMask dailyCapacity entry) reductions

/-! ### Rows -/

inductive WorkloadLevel where
  | available | full | overloaded | unavailable

structure WorkloadRow where
  user : User
  taskIds : List Uuid
  taskCount : ℕ
  allocatedMinutes : ℚ
  configuredCapacityMinutes : ℚ
  effectiveCapacityMinutes : ℚ
  timeOffMinutes : ℚ
  timeOffDays : ℕ
  utilizationPercent : ℤ
  level : WorkloadLevel

def defaultWeeklyCapacityMinutes : ℤ := 40 * 60

def defaultWorkdayMask : ℤ := 62

/-- Of several capacities of a user the last one counts. -/
def capacityOf (capacities : List WorkloadCapacity) (user : User) : Option WorkloadCapacity :=
  (capacities.foldl (Keyed.put WorkloadCapacity.userId) []).find? fun capacity =>
    capacity.userId = user.id

def configuredCapacity (capacity : Option WorkloadCapacity) : ℚ :=
  max 0 (match capacity with
    | some capacity => capacity.weeklyMinutes
    | none => defaultWeeklyCapacityMinutes)

def workdayMaskOf (capacity : Option WorkloadCapacity) : ℤ :=
  match capacity with
  | some capacity => if 0 ≤ capacity.workdayMask then capacity.workdayMask else defaultWorkdayMask
  | none => defaultWorkdayMask

def dailyCapacityOf (capacity : Option WorkloadCapacity) : ℚ :=
  let selectedWorkdays := workdays (workdayMaskOf capacity)
  if selectedWorkdays = [] then 0 else configuredCapacity capacity / selectedWorkdays.length

/-- `Math.round` -/
def mathRound (x : ℚ) : ℤ := ⌊x + 1 / 2⌋

def utilization (minutes effective : ℚ) : ℤ :=
  if 0 < effective then max 0 (mathRound (minutes / effective * 100))
  else if 0 < minutes then 100 else 0

def levelOf (minutes effective : ℚ) : WorkloadLevel :=
  if effective = 0 then .unavailable
  else if effective < minutes then .overloaded
  else if 70 ≤ utilization minutes effective then .full
  else .available

def workloadRow (capacities : List WorkloadCapacity) (timeOff : List WorkloadTimeOff)
    (weekStartDate : JsDate) (allocatedByUser : Uuid → Allocation) (user : User) :
    Except Unit WorkloadRow := do
  let capacity := capacityOf capacities user
  let configuredCapacityMinutes := configuredCapacity capacity
  let reductions ← timeOff.foldlM
    (reduceEntry weekStartDate (workdayMaskOf capacity) (dailyCapacityOf capacity) user) []
  let timeOffMinutes := (reductions.map Prod.snd).sum
  let effectiveCapacityMinutes := max 0 (configuredCapacityMinutes - timeOffMinutes)
  let allocation := allocatedByUser user.id
  pure
    { user
      taskIds := allocation.taskIds
      taskCount := allocation.taskIds.length
      allocatedMinutes := allocation.minutes
      configuredCapacityMinutes
      effectiveCapacityMinutes
      timeOffMinutes
      timeOffDays := reductions.length
      utilizationPercent := utilization allocation.minutes effectiveCapacityMinutes
      level := levelOf allocation.minutes effectiveCapacityMinutes }

structure WeeklyWorkload where
  weekStart : List Char
  weekEnd : List Char
  rows : List WorkloadRow
  unscheduledTaskCount : ℕ
  totalAllocatedMinutes : ℚ
  totalEffectiveCapacityMinutes : ℚ

structure WorkloadInput where
  tasks : List Task
  users : List User
  capacities : List WorkloadCapacity
  timeOff : List WorkloadTimeOff
  weekStart : JsDate

def calculateWeeklyWorkload (input : WorkloadInput) : Except Unit WeeklyWorkload := do
  let weekStartDate := startOfIsoWeek input.weekStart
  let weekStart ← isoDate weekStartDate
  let weekEnd ← isoDate (addUtcDays weekStartDate 6)
  let totals := input.tasks.foldl (addTask weekStart weekEnd) .start
  let rows ← input.users.mapM
    (workloadRow input.capacities input.timeOff weekStartDate totals.allocatedByUser)
  pure
    { weekStart
      weekEnd
      rows
      unscheduledTaskCount := totals.unscheduledTaskCount
      totalAllocatedMinutes := (rows.map WorkloadRow.allocatedMinutes).sum
      totalEffectiveCapacityMinutes := (rows.map WorkloadRow.effectiveCapacityMinutes).sum }

end CalmBoard.Workload
