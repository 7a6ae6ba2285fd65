import CalmBoard.Idempotency.Request
import CalmBoard.Lib.Table
import CalmBoard.Lib.Sessions

/-!
# CalmBoard.Idempotency.Repository — `execute`, statement by statement

`db` is the pool, so every statement commits by itself; inside a tenant transaction the statements
of a call come into view together at its commit, which is one of the orders here.

* `KeyRow`: a row of `idempotency_keys`; its state carries the response of a completed call.
* `Local`: where a call is, with the variables it has read.
* `move`: one statement of `execute` or `purgeExpired`.
-/

namespace CalmBoard.Idempotency

/-- `status`, with the columns `idempotency_keys_state_check` ties to it. -/
inductive KeyState where
  | processing
  | failed
  | completed (responseStatusCode : ℤ) (responseBody : Option Unknown) (completedAt : Timestamptz)

/-- `idempotency_keys` -/
structure KeyRow where
  id : Uuid
  organizationId : Uuid
  workspaceId : Option Uuid := none
  actorId : Option Uuid := none
  key : String
  scope : String
  requestHash : String
  state : KeyState := .processing
  lockToken : Uuid
  attempts : ℤ := 1
  lockedAt : Timestamptz
  expiresAt : Timestamptz
  createdAt : Timestamptz

/-- The columns of `idempotency_keys_organization_scope_key_unique`. -/
structure KeyName where
  organizationId : Uuid
  scope : String
  key : String
  deriving DecidableEq

def KeyRow.name (row : KeyRow) : KeyName := ⟨row.organizationId, row.scope, row.key⟩

def KeyState.isProcessing : KeyState → Bool
  | .processing => true
  | _ => false

def KeyState.isFailed : KeyState → Bool
  | .failed => true
  | _ => false

def KeyState.isCompleted : KeyState → Bool
  | .completed .. => true
  | _ => false

/-- The response a row keeps. -/
def KeyState.response : KeyState → Option (ℤ × Option Unknown)
  | .completed responseStatusCode responseBody _ => some (responseStatusCode, responseBody)
  | _ => none

/-- The rows, and how many ids were drawn. -/
structure Store where
  keys : Table KeyRow KeyRow.id
  drawn : ℕ := 0

/-- The context of a repository; `rowSecurity` where the policies apply to the database role. -/
structure Context where
  organizationId : Uuid
  workspaceId : Option Uuid := none
  actorId : Option Uuid := none
  rowSecurity : Bool := true

/-- The policy `tenant_isolation`. -/
def Context.sees (context : Context) (row : KeyRow) : Bool :=
  !context.rowSecurity || (row.organizationId = context.organizationId &&
    (context.workspaceId.isNone || row.workspaceId = context.workspaceId || row.workspaceId.isNone))

structure Input where
  context : Context
  key : String
  scope : String
  request : Unknown
  ttlMs : Option Number := none
  staleLockMs : Option Number := none

inductive Call where
  | execute (input : Input)
  | purgeExpired (context : Context) (now : ℤ)

/-- The arguments of a call after their checks. -/
structure Prepared where
  input : Input
  key : String
  scope : String
  requestHash : String
  ttlMs : ℤ
  staleLockMs : ℤ

def Prepared.context (p : Prepared) : Context := p.input.context

def Prepared.name (p : Prepared) : KeyName := ⟨p.context.organizationId, p.scope, p.key⟩

/-- `Number.isSafeInteger(value) && value > 0` -/
def positiveSafeInteger (n : Number) : Option ℤ :=
  n.toInt?.filter fun k => 0 < k ∧ k ≤ 9007199254740991

def defaultTtlMs : ℤ := 24 * 60 * 60 * 1000

def defaultStaleLockMs : ℤ := 2 * 60 * 1000

variable (env : Env)

def prepare (input : Input) : Except RepoError Prepared := do
  let key ← normalizeKey input.key
  let scope ← normalizeScope env input.scope
  let requestHash ← hashIdempotencyRequest env input.request
  match positiveSafeInteger (input.ttlMs.getD (.fin defaultTtlMs)),
      positiveSafeInteger (input.staleLockMs.getD (.fin defaultStaleLockMs)) with
  | some ttlMs, some staleLockMs => return { input, key, scope, requestHash, ttlMs, staleLockMs }
  | _, _ => throw (.conflict "idempotency timing configuration is invalid")

/-- `IdempotencyKeyReuseError` -/
def keyReuse : RepoError := .conflict "idempotency key was already used with a different request"

/-- `IdempotencyRequestInProgressError` -/
def inProgress : RepoError :=
  .conflict "an identical request with this idempotency key is still processing"

/-- `new Date(ms)` as a query parameter. -/
def dateParam (ms : ℤ) : Except RepoError Timestamptz :=
  if |ms| ≤ 8640000000000000 then .ok (.ofMillis ms) else .error (.error "Invalid time value")

/-- What an operation resolves to. -/
structure OperationResult where
  body : Unknown
  statusCode : Option Number := none

/-- Where a call is. -/
inductive Local where
  | start (call : Call)
  /-- the insert met a row -/
  | lookup (p : Prepared) (now : ℤ)
  /-- before the delete of an expired row -/
  | expired (p : Prepared) (existing : KeyRow) (now : ℤ)
  /-- before the update that takes the lock over -/
  | takeover (p : Prepared) (existing : KeyRow) (now : ℤ)
  /-- `input.operation()` runs -/
  | running (p : Prepared) (owned : KeyRow)
  /-- before the update that completes -/
  | completing (p : Prepared) (owned : KeyRow) (body : Unknown) (statusCode : ℤ)
      (responseBody : Unknown)
  /-- in the `catch` block -/
  | failing (p : Prepared) (owned : KeyRow) (e : RepoError)
  /-- returned the response of `existing` -/
  | replayed (p : Prepared) (existing : KeyRow)
  /-- returned the result of its operation -/
  | executed (p : Prepared) (owned : KeyRow) (body : Unknown) (statusCode : ℤ)
      (responseBody : Unknown)
  | purged
  | thrown (e : RepoError)

/-- What a session does next: its next statement, with its clock and that of the database; the end
of its operation; or its statement fails. -/
inductive Action where
  | next (now : ℤ) (dbNow : Timestamptz)
  | operation (outcome : Except RepoError OperationResult)
  | abort (e : RepoError)

/-! ### Statements -/

def isHash (s : String) : Bool :=
  s.toList.length = 64 && s.toList.all fun ch => ('0' ≤ ch && ch ≤ '9') || ('a' ≤ ch && ch ≤ 'f')

/-- The check constraints of the table. -/
def KeyRow.checks (row : KeyRow) : Bool :=
  8 ≤ row.key.toList.length && row.key.toList.length ≤ 255 && matchesScope row.scope &&
    isHash row.requestHash && 0 < row.attempts && row.attempts ≤ 2147483647 &&
    row.createdAt < row.expiresAt &&
    row.state.response.all fun r => 100 ≤ r.1 && r.1 ≤ 599

/-- `insert … on conflict do nothing` -/
def insert (p : Prepared) (now : ℤ) (dbNow : Timestamptz) (s : Store) : Store × Local :=
  match dateParam (now + p.ttlMs) with
  | .error e => (s, .thrown e)
  | .ok expiresAt =>
    let s' := { s with drawn := s.drawn + 2 }
    let row : KeyRow :=
      { id := env.uuid (s.drawn + 1), organizationId := p.context.organizationId
        workspaceId := p.context.workspaceId, actorId := p.context.actorId
        key := p.key, scope := p.scope, requestHash := p.requestHash
        lockToken := env.uuid s.drawn, lockedAt := .ofMillis now, expiresAt, createdAt := dbNow }
    if row.checks then
      if s.keys.rows.any fun r => r.name = p.name then (s', .lookup p now)
      else
        match s.keys.insert? row with
        | none => (s', .thrown (.database "idempotency_keys_pkey"))
        | some keys => ({ s' with keys }, .running p row)
    else (s', .thrown (.database "check constraint"))

/-- The row of the key, where the session sees it. -/
def Prepared.selects (p : Prepared) (row : KeyRow) : Bool := row.name = p.name && p.context.sees row

/-- `select … limit 1` with the checks that follow it. -/
def select (p : Prepared) (now : ℤ) (s : Store) : Local :=
  match s.keys.rows.find? p.selects with
  | none => .thrown inProgress
  | some existing =>
    if existing.expiresAt.millis ≤ now then .expired p existing now
    else if existing.requestHash ≠ p.requestHash then .thrown keyReuse
    else if existing.state.isCompleted then .replayed p existing
    else .takeover p existing now

/-- `delete … where id = … and expires_at <= now`, then `this.execute(input)`. -/
def deleteExpired (p : Prepared) (existing : KeyRow) (now : ℤ) (s : Store) : Store × Local :=
  let deletes (row : KeyRow) : Bool :=
    row.id = existing.id && row.expiresAt ≤ .ofMillis now && p.context.sees row
  if s.keys.rows.any deletes then
    ({ s with keys := s.keys.remove deletes }, .start (.execute p.input))
  else (s, .thrown inProgress)

/-- The update that takes the lock over; the trigger refuses a completed row. -/
def takeOver (p : Prepared) (existing : KeyRow) (now : ℤ) (s : Store) : Store × Local :=
  match dateParam (now - p.staleLockMs), dateParam (now + p.ttlMs) with
  | .ok staleBefore, .ok expiresAt =>
    let s' := { s with drawn := s.drawn + 1 }
    let claims (row : KeyRow) : Bool :=
      row.id = existing.id && row.lockToken = existing.lockToken &&
        (row.state.isFailed || row.lockedAt ≤ staleBefore) && p.context.sees row
    match s.keys.rows.find? claims with
    | none => (s', .thrown inProgress)
    | some row =>
      if row.state.isCompleted then
        (s', .thrown (.database "A completed idempotency result is immutable"))
      else if existing.attempts + 1 < row.attempts then
        (s', .thrown (.database "Idempotency attempts cannot decrease"))
      else
        let claimed := { row with
          state := .processing, lockToken := env.uuid s.drawn, attempts := existing.attempts + 1
          lockedAt := .ofMillis now, expiresAt }
        if claimed.checks then ({ s' with keys := s'.keys.put claimed }, .running p claimed)
        else (s', .thrown (.database "check constraint"))
  | .error e, _ => (s, .thrown e)
  | _, .error e => (s, .thrown e)

/-- What follows the operation in the `try` block. -/
def respond (p : Prepared) (owned : KeyRow) (result : OperationResult) : Local :=
  match (result.statusCode.getD (.fin 200)).toInt?.filter fun code => 100 ≤ code ∧ code ≤ 599 with
  | none => .failing p owned (.conflict "idempotent response status code is invalid")
  | some statusCode =>
    match normalizeJsonResponse result.body with
    | .error e => .failing p owned e
    | .ok responseBody => .completing p owned result.body statusCode responseBody

/-- The row a session still owns. -/
def Prepared.owns (p : Prepared) (owned row : KeyRow) : Bool :=
  row.id = owned.id && row.lockToken = owned.lockToken && row.state.isProcessing &&
    p.context.sees row

/-- `null` is written as `NULL`. -/
def toColumn : Unknown → Option Unknown
  | .null => none
  | value => some value

/-- The update that completes. -/
def complete (p : Prepared) (owned : KeyRow) (body : Unknown) (statusCode : ℤ)
    (responseBody : Unknown) (now : ℤ) (s : Store) : Store × Local :=
  match s.keys.rows.find? (p.owns owned) with
  | none => (s, .failing p owned inProgress)
  | some row =>
    ({ s with keys := s.keys.put { row with
        state := .completed statusCode (toColumn responseBody) (.ofMillis now) } },
      .executed p owned body statusCode responseBody)

/-- The update of the `catch` block. -/
def markFailed (p : Prepared) (owned : KeyRow) (e : RepoError) (s : Store) : Store × Local :=
  match s.keys.rows.find? (p.owns owned) with
  | none => (s, .thrown e)
  | some row => ({ s with keys := s.keys.put { row with state := .failed } }, .thrown e)

def begin (call : Call) (now : ℤ) (dbNow : Timestamptz) (s : Store) : Store × Local :=
  match call with
  | .execute input =>
    match prepare env input with
    | .error e => (s, .thrown e)
    | .ok p => insert env p now dbNow s
  | .purgeExpired context now =>
    ({ s with keys := s.keys.remove fun row =>
        row.expiresAt ≤ .ofMillis now && context.sees row }, .purged)

/-- The local state after a statement has failed. -/
def Local.fails (e : RepoError) : Local → Local
  | .completing p owned .. => .failing p owned e
  | .failing _ _ e' => .thrown e'
  | _ => .thrown e

def move (a : Action) (s : Store) (l : Local) : Option (Store × Local) :=
  match l, a with
  | .replayed .., _ | .executed .., _ | .purged, _ | .thrown _, _ => none
  | .running p owned, .operation (.ok result) => some (s, respond p owned result)
  | .running p owned, .operation (.error e) => some (s, .failing p owned e)
  | .running .., _ => none
  | l, .abort e => some (s, l.fails e)
  | .start call, .next now dbNow => some (begin env call now dbNow s)
  | .lookup p now, .next .. => some (s, select p now s)
  | .expired p existing now, .next .. => some (deleteExpired p existing now s)
  | .takeover p existing now, .next .. => some (takeOver env p existing now s)
  | .completing p owned body statusCode responseBody, .next now _ =>
    some (complete p owned body statusCode responseBody now s)
  | .failing p owned e, .next .. => some (markFailed p owned e s)
  | _, .operation _ => none

def program : Sessions.Program Call Store Local Empty Action where
  start := .start
  locks _ := []
  conflict _ _ := false
  move := move env
  conflict_symm _ _ := rfl
  start_locks _ := rfl

/-! ### Results -/

/-- What `execute` resolves to. -/
structure Outcome where
  body : Unknown
  statusCode : ℤ
  replayed : Bool

/-- A `jsonb` column as the driver reads it. -/
def fromColumn : Option Unknown → Unknown
  | none => .null
  | some value => env.jsonb value

def Local.outcome : Local → Option Outcome
  | .replayed _ existing =>
    existing.state.response.map fun r =>
      { body := fromColumn env r.2, statusCode := r.1, replayed := true }
  | .executed _ _ body statusCode _ => some { body, statusCode, replayed := false }
  | _ => none

def Local.returnedFor : Local → Option KeyName
  | .replayed p _ | .executed p .. => some p.name
  | _ => none

end CalmBoard.Idempotency
