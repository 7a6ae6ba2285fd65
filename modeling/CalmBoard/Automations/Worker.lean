import CalmBoard.Automations.Rules
import CalmBoard.Lib.Sessions

/-!
# CalmBoard.Automations.Worker — processing automation events

* `claimBatch`, `gateOpen`, `loadRule`, `closeEvent`, `releaseEvent`: the statements of the worker.
* `commitRule`: what the transaction of a rule leaves behind.
* `move`: runs of `processAutomationEvents`, statement by statement, beside the requests of users.
-/

namespace CalmBoard.Automations

open Queue Sessions

inductive RunStatus where
  | running | success | failed | skipped
  deriving DecidableEq

/-- `automation_runs` -/
structure RunRow where
  eventId : Uuid
  ruleId : Uuid
  status : RunStatus
  attempt : ℕ
  claimToken : Uuid

def RunRow.key (r : RunRow) : Uuid × Uuid := (r.eventId, r.ruleId)

/-- The effects of a rule for an event, as its transaction has committed them. -/
structure Applied where
  eventId : Uuid
  ruleId : Uuid
  effects : Effects

def Applied.pair (x : Applied) : Uuid × Uuid := (x.eventId, x.ruleId)

structure Store where
  events : Table EventRow EventRow.id
  runs : Table RunRow RunRow.key
  rules : Table RuleRow RuleRow.id
  tasks : Table TaskRow TaskRow.id
  comments : List CommentRow
  notifications : List NotificationRow
  applied : List Applied

def Store.empty : Store :=
  { events := Table.empty, runs := Table.empty, rules := Table.empty, tasks := Table.empty
    comments := [], notifications := [], applied := [] }

structure AutomationEventOptions where
  batchSize : ℕ := 25
  claimTimeoutMinutes : ℕ := 15

def AutomationEventOptions.timeout (options : AutomationEventOptions) : ℤ :=
  options.claimTimeoutMinutes * 60000

/-! ### Statuses -/

/-- `AutomationEventStatus` -/
inductive EventStatus where
  | pending | processing | sent | skipped | dead
  deriving DecidableEq

def EventStatus.label : EventStatus → String
  | .pending => "pending"
  | .processing => "processing"
  | .sent => "sent"
  | .skipped => "skipped"
  | .dead => "dead"

def allowedTransitions : EventStatus → List EventStatus
  | .pending => [.processing]
  | .processing => [.sent, .skipped, .dead, .pending]
  | .sent | .skipped | .dead => []

def assertValidEventTransition (source target : EventStatus) : Except String Unit :=
  if (allowedTransitions source).contains target then .ok ()
  else .error s!"Invalid automation event state transition from '{source.label}' to '{target.label}'"

def Closed.status : Closed → EventStatus
  | .sent => .sent
  | .skipped => .skipped

def EventStatus.ofLease : Status Uuid Closed → EventStatus
  | .pending => .pending
  | .processing .. => .processing
  | .closed outcome => outcome.status
  | .dead => .dead

def EventRow.status (e : EventRow) : EventStatus := .ofLease e.lease.status

/-! ### Claims -/

/-- `order by available_at, created_at, id` -/
def dueOrder (a b : EventRow) : Bool :=
  decide (toLex (a.lease.availableAt, toLex (a.createdAt, a.id)) ≤
    toLex (b.lease.availableAt, toLex (b.createdAt, b.id)))

/-- The ids of the events a run claims, less those it finds locked. -/
def claimBatch (options : AutomationEventOptions) (now : ℤ) (skipped : List Uuid) (s : Store) :
    List Uuid :=
  (batch EventRow.lease dueOrder s.events.rows options.timeout now options.batchSize
    fun e => skipped.contains e.id).map EventRow.id

def EventRow.withLease (e : EventRow) (f : Lease Uuid Closed → Lease Uuid Closed) : EventRow :=
  { e with lease := f e.lease }

@[simp] theorem EventRow.withLease_id (e : EventRow) (f : Lease Uuid Closed → Lease Uuid Closed) :
    (e.withLease f).id = e.id := rfl

def commitClaim (ids : List Uuid) (now : ℤ) (token : Uuid → Uuid) (s : Store) : Store :=
  { s with
    events := s.events.update (fun e => ids.contains e.id)
      (fun e => e.withLease (claim now (token e.id))) fun e => e.withLease_id _ }

/-- What the claim returns for a row. -/
def candidateOf (token : Uuid → Uuid) (e : EventRow) : Candidate :=
  { id := e.id, organizationId := e.organizationId, workspaceId := e.workspaceId
    taskId := e.taskId, trigger := e.trigger, actorId := e.actorId, current := e.current
    depth := e.depth, attempt := e.lease.attempts + 1, maxAttempts := e.lease.maxAttempts
    claimToken := token e.id }

def candidates (ids : List Uuid) (token : Uuid → Uuid) (s : Store) : List Candidate :=
  ids.filterMap fun id => (s.events.find? id).map (candidateOf token)

/-- The event is still claimed for this candidate. -/
def claimCheck (c : Candidate) (s : Store) : Bool :=
  (s.events.find? c.id).any fun e => owned c.claimToken e.lease

/-- `where id = $1 and status = 'processing' and claim_token = $2` -/
def updateClaimed (c : Candidate) (f : Lease Uuid Closed → Lease Uuid Closed) (s : Store) : Store :=
  { s with
    events := s.events.update (fun e => e.id = c.id && owned c.claimToken e.lease)
      (fun e => e.withLease f) fun e => e.withLease_id f }

/-- The row after `completeEvent`. -/
def closeEvent (c : Candidate) (outcome : Closed) (s : Store) : Store :=
  updateClaimed c (finish outcome) s

def backoffSeconds (attempt : ℕ) : ℤ := min 3600 (5 * 2 ^ (attempt - 1))

def releaseEvent (c : Candidate) (now : ℤ) (s : Store) : Store :=
  updateClaimed c (release now (backoffSeconds c.attempt * 1000)) s

/-! ### Rules -/

def MAX_AUTOMATION_DEPTH : ℕ := 5

/-- The rules of an event: `order by created_at, id`. -/
def rulesFor (c : Candidate) (s : Store) : List Uuid :=
  ((s.rules.rows.filter fun r => r.organizationId = c.organizationId &&
    r.workspaceId = c.workspaceId && r.trigger = c.trigger && r.enabled && !r.deleted).mergeSort
    fun a b => decide (toLex (a.createdAt, a.id) ≤ toLex (b.createdAt, b.id))).map RuleRow.id

/-- The upsert of the run returns a row. -/
def gateOpen (c : Candidate) (ruleId : Uuid) (s : Store) : Bool :=
  match s.runs.find? (c.id, ruleId) with
  | none => true
  | some r => r.status ≠ .success && r.status ≠ .skipped &&
      (r.status ≠ .running || r.attempt < c.attempt)

/-- The rule and the task, if the rule is enabled and has the trigger of the event. -/
def loadRule (c : Candidate) (ruleId : Uuid) (s : Store) : Option (RuleRow × TaskRow) := do
  let rule ← (s.rules.find? ruleId).filter fun r => r.organizationId = c.organizationId &&
    r.workspaceId = c.workspaceId && !r.deleted && r.enabled && r.trigger = c.trigger
  let task ← (s.tasks.find? c.taskId).filter fun t => t.organizationId = rule.organizationId &&
    t.workspaceId = rule.workspaceId && !t.deleted
  return (rule, task)

/-- The run at the end of its transaction. -/
def runRow (c : Candidate) (ruleId : Uuid) (status : RunStatus) : RunRow :=
  { eventId := c.id, ruleId, status, attempt := c.attempt, claimToken := c.claimToken }

def commitRun (c : Candidate) (ruleId : Uuid) (status : RunStatus) (s : Store) : Store :=
  { s with runs := s.runs.upsert (runRow c ruleId status) }

/-- New events, under the unique indexes of their ids and deduplication keys. -/
def insertEvents? : List EventRow → Table EventRow EventRow.id → Option (Table EventRow EventRow.id)
  | [], events => some events
  | e :: rest, events =>
    if events.rows.any fun x => x.deduplicationKey = e.deduplicationKey then none
    else (events.insert? e).bind (insertEvents? rest)

def TaskRow.changed (state : TaskState) (t : TaskRow) : TaskRow :=
  { t with state, version := t.version + 1 }

@[simp] theorem TaskRow.changed_id (state : TaskState) (t : TaskRow) : (t.changed state).id = t.id :=
  rfl

def RuleRow.counted (r : RuleRow) : RuleRow := { r with runs := r.runs + 1 }

@[simp] theorem RuleRow.counted_id (r : RuleRow) : r.counted.id = r.id := rfl

/-- Whether `runs` of the rule grows. -/
def Applied.counts (x : Applied) : Bool := !x.effects.noop && x.effects.genuine

/-- Everything that the transaction of a rule has written; `none` where a unique index refuses an
event. -/
def commitRule (c : Candidate) (ruleId : Uuid) (effects : Effects) (s : Store) : Option Store := do
  let applied : Applied := { eventId := c.id, ruleId, effects }
  let events ← insertEvents? effects.events s.events
  return {
    events
    runs := s.runs.upsert (runRow c ruleId (if effects.noop then .skipped else .success))
    rules := s.rules.update (fun r => r.id = ruleId && applied.counts) RuleRow.counted
      RuleRow.counted_id
    tasks := match effects.task with
      | some state => s.tasks.update (fun t => t.id = c.taskId) (TaskRow.changed state)
          (TaskRow.changed_id state)
      | none => s.tasks
    comments := s.comments ++ effects.comment.toList
    notifications := s.notifications ++ effects.notifications
    applied := s.applied ++ [applied] }

def RunRow.fail (r : RunRow) : RunRow := { r with status := .failed }

@[simp] theorem RunRow.fail_key (r : RunRow) : r.fail.key = r.key := rfl

/-- After an error of its transaction: the run, if it is still there as running. -/
def failRun (c : Candidate) (ruleId : Uuid) (s : Store) : Store :=
  { s with
    runs := s.runs.update (fun r => r.key = (c.id, ruleId) && r.claimToken = c.claimToken &&
      r.status = .running) RunRow.fail RunRow.fail_key }

/-! ### Requests of users -/

/-- What users change, and the events of the day; the context of a request has no automation. -/
inductive Change where
  | saveRule (rule : RuleRow)
  | saveTask (context : Context) (task : TaskRow) (triggers : List Trigger)
    (ids : Trigger → Uuid) (now : ℤ)
  | saveComment (context : Context) (task : TaskRow) (comment : CommentRow) (ids : Trigger → Uuid)
    (now : ℤ)
  | enqueueDaily (date : String) (ids : Uuid → Uuid) (now : ℤ)

def Context.ofRequest (context : Context) : Context := { context with automation := none }

def dailyEvent (date : String) (task : TaskRow) (id : Uuid) (now : ℤ) : EventRow :=
  newEvent { organizationId := task.organizationId, workspaceId := task.workspaceId
             actorId := none, automation := none }
    task .scheduleDaily s!"schedule-daily/{date}/task/{task.id}" id now

/-- The tasks that have an enabled daily rule. -/
def dailyTasks (s : Store) : List TaskRow :=
  s.tasks.rows.filter fun t => !t.deleted && s.rules.rows.any fun r =>
    r.organizationId = t.organizationId && r.workspaceId = t.workspaceId &&
      r.trigger = .scheduleDaily && r.enabled && !r.deleted

/-- `on conflict (deduplication_key) do nothing` -/
def dailyEvents (date : String) (ids : Uuid → Uuid) (now : ℤ) (s : Store) : List EventRow :=
  ((dailyTasks s).map fun t => dailyEvent date t (ids t.id) now).filter
    fun e => !s.events.rows.any fun x => x.deduplicationKey = e.deduplicationKey

/-- The number of runs is not changed by a request. -/
def savedRule (rule : RuleRow) (s : Store) : RuleRow :=
  { rule with runs := ((s.rules.find? rule.id).map RuleRow.runs).getD 0 }

def commitChange (change : Change) (s : Store) : Option Store :=
  match change with
  | .saveRule rule => some { s with rules := s.rules.upsert (savedRule rule s) }
  | .saveTask context task triggers ids now =>
    (insertEvents? (taskEvents context.ofRequest task triggers ids now) s.events).map fun events =>
      { s with events, tasks := s.tasks.upsert task }
  | .saveComment context task comment ids now =>
    (insertEvents? (commentEvent context.ofRequest task comment ids now) s.events).map fun events =>
      { s with events, comments := s.comments ++ [comment] }
  | .enqueueDaily date ids now =>
    (insertEvents? (dailyEvents date ids now s) s.events).map fun events => { s with events }

/-! ### Runs of the worker -/

/-- The event that a run is working on, the rules that are left, whether one has failed, and the
events that are left. -/
structure Job where
  c : Candidate
  rules : List Uuid
  failed : Bool := false
  rest : List Candidate

inductive Call where
  | process (options : AutomationEventOptions)
  | change (change : Change)

inductive Local where
  | called (call : Call)
  /-- the statement that claims has locked its rows -/
  | claiming (ids : List Uuid) (now : ℤ) (token : Uuid → Uuid)
  | working (rest : List Candidate)
  | handling (job : Job)
  /-- in the transaction of a rule, the event is locked and still claimed -/
  | fenced (job : Job) (ruleId : Uuid)
  /-- its run is written as running -/
  | gated (job : Job) (ruleId : Uuid)
  /-- its run is written as skipped -/
  | skipping (job : Job) (ruleId : Uuid)
  /-- the rule and the task are locked too, and the conditions match -/
  | loaded (job : Job) (rule : RuleRow) (task : TaskRow)
  /-- every statement of the transaction has run -/
  | written (job : Job) (ruleId : Uuid) (effects : Effects)
  /-- the transaction has been rolled back -/
  | errored (job : Job) (ruleId : Uuid)
  | completing (c : Candidate) (outcome : Closed) (rest : List Candidate)
  /-- the event that is completed is locked -/
  | closing (c : Candidate) (outcome : Closed) (rest : List Candidate)
  | failed (c : Candidate) (rest : List Candidate)
  /-- the event that is given back is locked -/
  | releasing (c : Candidate) (rest : List Candidate)
  /-- a request has locked what it changes -/
  | changing (change : Change)
  | stopped

inductive Lock where
  | event (id : Uuid)
  | rule (id : Uuid)
  | task (id : Uuid)
  deriving DecidableEq

def Change.locks : Change → List Lock
  | .saveRule rule => [.rule rule.id]
  | .saveTask _ task _ _ _ => [.task task.id]
  | .saveComment .. | .enqueueDaily .. => []

def Local.locks : Local → List Lock
  | .claiming ids _ _ => ids.map .event
  | .fenced job _ | .gated job _ | .skipping job _ => [.event job.c.id]
  | .loaded job rule task => [.event job.c.id, .rule rule.id, .task task.id]
  | .written job ruleId _ => [.event job.c.id, .rule ruleId, .task job.c.taskId]
  | .closing c _ _ | .releasing c _ => [.event c.id]
  | .changing change => change.locks
  | _ => []

inductive Action where
  | claim (now : ℤ) (skipped : List Uuid) (token : Uuid → Uuid)
  | next (io : Io)
  | fail
  | crash

/-- The first statement for an event. -/
def startEvent (c : Candidate) (rest : List Candidate) (s : Store) : Local :=
  if MAX_AUTOMATION_DEPTH ≤ c.depth then .completing c .skipped rest
  else
    match rulesFor c s with
    | [] => .completing c .skipped rest
    | rules => .handling { c, rules, rest }

/-- The next rule of an event, or its end. -/
def nextRule (job : Job) (s : Store) : Local :=
  match job.rules with
  | [] => if job.failed then .failed job.c job.rest else .completing job.c .sent job.rest
  | ruleId :: rules =>
    -- an expired claim ends the work on the event
    if claimCheck job.c s then .fenced { job with rules } ruleId else .failed job.c job.rest

/-- The rule and the task of a run that has passed the gate. -/
def openRule (texts : Texts) (job : Job) (ruleId : Uuid) (s : Store) : Local :=
  match loadRule job.c ruleId s with
  | none => .skipping job ruleId
  | some (rule, task) =>
    if matchesConditions texts rule.conditions job.c.current then .loaded job rule task
    else .skipping job ruleId

def applyRule (texts : Texts) (io : Io) (job : Job) (rule : RuleRow) (task : TaskRow) (s : Store) :
    Local :=
  match perform texts io job.c rule task s.comments s.notifications with
  | .ok effects => .written job rule.id effects
  | .error _ => .errored job rule.id

/-- The first half of `completeEvent`: an event that is no longer claimed is an error. -/
def completeEvent (c : Candidate) (outcome : Closed) (rest : List Candidate) (s : Store) : Local :=
  match assertValidEventTransition .processing outcome.status with
  | .error _ => .failed c rest
  | .ok () => if claimCheck c s then .closing c outcome rest else .failed c rest

/-- The first half of `releaseEvent`. -/
def giveBack (c : Candidate) (rest : List Candidate) (s : Store) : Local :=
  match assertValidEventTransition .processing
      (if c.maxAttempts ≤ c.attempt then .dead else .pending) with
  | .error _ => .stopped
  | .ok () => if claimCheck c s then .releasing c rest else .working rest

/-- The next statement of a run that has claimed its events. -/
def proceed (texts : Texts) (io : Io) (s : Store) : Local → Option (Store × Local)
  | .claiming ids now token =>
    some (commitClaim ids now token s, .working (candidates ids token s))
  | .working [] => some (s, .stopped)
  | .working (c :: rest) => some (s, startEvent c rest s)
  | .handling job => some (s, nextRule job s)
  | .fenced job ruleId =>
    some (s, if gateOpen job.c ruleId s then .gated job ruleId else .handling job)
  | .gated job ruleId => some (s, openRule texts job ruleId s)
  | .skipping job ruleId => some (commitRun job.c ruleId .skipped s, .handling job)
  | .loaded job rule task => some (s, applyRule texts io job rule task s)
  | .written job ruleId effects =>
    match commitRule job.c ruleId effects s with
    | some s' => some (s', .handling job)
    | none => some (s, .errored job ruleId)
  | .errored job ruleId => some (failRun job.c ruleId s, .handling { job with failed := true })
  | .completing c outcome rest => some (s, completeEvent c outcome rest s)
  | .closing c outcome rest => some (closeEvent c outcome s, .working rest)
  | .failed c rest => some (s, giveBack c rest s)
  | .releasing c rest => some (releaseEvent c io.now s, .working rest)
  | .called (.change change) => some (s, .changing change)
  | .changing change => (commitChange change s).map fun s' => (s', .stopped)
  | .called (.process _) | .stopped => none

/-- An error before the next rule has its turn. -/
def failNext (job : Job) : Local :=
  match job.rules with
  | [] => .failed job.c job.rest
  | ruleId :: rules => .errored { job with rules } ruleId

/-- An error of the statement: the transaction of a rule is rolled back, and the next rule has its
turn; other errors give the event back; an error there ends the run. -/
def fail : Local → Local
  | .working (c :: rest) | .completing c _ rest | .closing c _ rest => .failed c rest
  | .handling job => failNext job
  | .fenced job ruleId | .gated job ruleId | .skipping job ruleId | .written job ruleId _ =>
    .errored job ruleId
  | .loaded job rule _ => .errored job rule.id
  | .errored job _ => .handling { job with failed := true }
  | _ => .stopped

def move (texts : Texts) (a : Action) (s : Store) (l : Local) : Option (Store × Local) :=
  match a, l with
  | _, .stopped => none
  | .crash, _ => some (s, .stopped)
  | .fail, l => some (s, fail l)
  | .claim now skipped token, .called (.process options) =>
    some (s, .claiming (claimBatch options now skipped s) now token)
  | .next io, l => proceed texts io s l
  | _, _ => none

def program (texts : Texts) : Program Call Store Local Lock Action where
  start := .called
  locks := Local.locks
  conflict k k' := k = k'
  move := move texts
  conflict_symm k k' := by simp [eq_comm]
  start_locks _ := rfl

end CalmBoard.Automations
