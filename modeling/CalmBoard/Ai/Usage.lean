import CalmBoard.Values
import CalmBoard.Lib.Table
import CalmBoard.Lib.Runs

/-!
# CalmBoard.Ai.Usage — monthly quotas of AI requests and tokens

`reserve`, `complete` and `fail` are one SQL statement each, so that calls of any number of clients
take effect one after the other.  The limits of an organization stay as they are configured.

* `PeriodRow`, `EventRow`: the counters of a month and the requests they count.
* `reservePeriod`, `finalize`: what the parts of a statement write.
* `reserve`, `complete`, `fail`: a call and what it leaves behind.
-/

namespace CalmBoard.Ai

inductive EventStatus where
  | pending | completed | failed
  deriving DecidableEq

/-- `usage_limits`: the two columns for AI usage. -/
structure UsageLimits where
  maxAiRequestsPerMonth : ℤ
  maxAiTokensPerMonth : ℤ

/-- Organization and first day of the month: the unique key of a period. -/
abbrev PeriodKey := Uuid × Civil.Date

/-- `ai_usage_periods` -/
structure PeriodRow where
  organizationId : Uuid
  periodStart : Civil.Date
  requestCount : ℤ := 0
  reservedTokens : ℤ := 0
  inputTokens : ℤ := 0
  outputTokens : ℤ := 0
  estimatedCostMicrousd : ℤ := 0
  updatedAt : Timestamptz

def PeriodRow.key (p : PeriodRow) : PeriodKey := (p.organizationId, p.periodStart)

/-- `ai_usage_events` -/
structure EventRow where
  id : Uuid
  organizationId : Uuid
  workspaceId : Uuid
  actorId : Uuid
  periodStart : Civil.Date
  action : String
  status : EventStatus := .pending
  provider : Option String := none
  model : Option String := none
  reservedTokens : ℤ
  inputTokens : ℤ := 0
  outputTokens : ℤ := 0
  estimatedCostMicrousd : ℤ := 0
  failureCode : Option String := none
  createdAt : Timestamptz
  completedAt : Option Timestamptz := none

def EventRow.period (e : EventRow) : PeriodKey := (e.organizationId, e.periodStart)

structure Store where
  limits : Uuid → Option UsageLimits
  periods : Table PeriodRow PeriodRow.key
  events : Table EventRow EventRow.id

/-- The tenant context of a client. -/
structure Context where
  organizationId : Uuid
  workspaceId : Uuid
  actorId : Uuid

inductive UsageLimitResource where
  | requests | tokens

inductive UsageError where
  /-- `AIUsageLimitExceededError` -/
  | limitExceeded (resource : UsageLimitResource) (current limit : ℤ)
  /-- a plain `Error` -/
  | error (message : String)
  /-- a statement PostgreSQL refuses -/
  | database (reason : String)

structure Reservation where
  id : Uuid
  periodStart : Civil.Date
  reservedTokens : ℤ

/-! ### Checks -/

/-- `Number.MAX_SAFE_INTEGER` -/
def maxSafeInteger : ℤ := 9007199254740991

def finiteNonnegativeInteger (value : Number) (name : String) : Except UsageError ℤ :=
  match value.toInt? with
  | some n =>
    if 0 ≤ n ∧ n ≤ maxSafeInteger then .ok n
    else .error (.error (name ++ " must be a non-negative safe integer"))
  | none => .error (.error (name ++ " must be a non-negative safe integer"))

/-- A counter that is read back. -/
def numeric (value : ℤ) : Except UsageError ℤ :=
  if 0 ≤ value ∧ value ≤ maxSafeInteger then .ok value
  else .error (.error "AI usage counter is outside the safe range")

/-- A `bigint` expression. -/
def int8 (value : ℤ) : Except UsageError ℤ :=
  if -9223372036854775808 ≤ value ∧ value ≤ 9223372036854775807 then .ok value
  else .error (.database "bigint out of range")

/-- `/^[a-z_]{2,32}$/` -/
def validAction (action : String) : Bool :=
  action.toList.all (fun ch => ('a' ≤ ch && ch ≤ 'z') || ch == '_') &&
    2 ≤ action.toList.length && action.toList.length ≤ 32

/-- `toLowerCase` as far as its result can be one of `a-z`: the capital letters and the Kelvin
sign. -/
def lowerCase (ch : Char) : Char :=
  if 'A' ≤ ch ∧ ch ≤ 'Z' then Char.ofNat (ch.toNat + 32)
  else if ch.toNat = 0x212A then 'k' else ch

def normalizeFailureCode (failureCode : String) : String :=
  String.ofList ((Text.trim failureCode).toList.map lowerCase)

/-- `/^[a-z0-9_]{2,80}$/` -/
def validFailureCode (code : String) : Bool :=
  code.toList.all (fun ch => ('a' ≤ ch && ch ≤ 'z') || ('0' ≤ ch && ch ≤ '9') || ch == '_') &&
    2 ≤ code.toList.length && code.toList.length ≤ 80

/-! ### Reserving -/

/-- `date_trunc('month', timezone('UTC', now()))::date` -/
def periodStart (now : Timestamptz) : Civil.Date := { IsoDate.utcDate now.millis with day := 1 }

/-- `reserved_period`: the row that is written, if the guards of the insert and of the conflict let
one be written. -/
def reservePeriod (limits : UsageLimits) (key : PeriodKey) (existing : Option PeriodRow)
    (reservedTokens : ℤ) (now : Timestamptz) : Except UsageError (Option PeriodRow) :=
  if 1 ≤ limits.maxAiRequestsPerMonth ∧ reservedTokens ≤ limits.maxAiTokensPerMonth then
    match existing with
    | none =>
      return some {
        organizationId := key.1
        periodStart := key.2
        requestCount := 1
        reservedTokens
        updatedAt := now }
    | some period => do
      let requestCount ← int8 (period.requestCount + 1)
      if requestCount > limits.maxAiRequestsPerMonth then return none
      else
        let tokens ← int8
          (period.inputTokens + period.outputTokens + period.reservedTokens + reservedTokens)
        if tokens > limits.maxAiTokensPerMonth then return none
        else
          return some { period with
            requestCount
            reservedTokens := period.reservedTokens + reservedTokens
            updatedAt := now }
  else return none

/-- `created_event` -/
def newEvent (tenant : Context) (now : Timestamptz) (eventId : Uuid) (action : String)
    (reservedTokens : ℤ) : EventRow where
  id := eventId
  organizationId := tenant.organizationId
  workspaceId := tenant.workspaceId
  actorId := tenant.actorId
  periodStart := periodStart now
  action := action
  reservedTokens := reservedTokens
  createdAt := now

/-- Why no row was reserved, read off the counters before the statement. -/
def limitError (limits : UsageLimits) (existing : Option PeriodRow) : Except UsageError UsageError := do
  let requestCount ← numeric (existing.elim 0 PeriodRow.requestCount)
  let maxRequests ← numeric limits.maxAiRequestsPerMonth
  if requestCount + 1 > maxRequests then return .limitExceeded .requests requestCount maxRequests
  else
    let used ← numeric (existing.elim 0 fun p => p.inputTokens + p.outputTokens)
    let reserved ← numeric (existing.elim 0 PeriodRow.reservedTokens)
    return .limitExceeded .tokens (used + reserved) (← numeric limits.maxAiTokensPerMonth)

def reserve (s : Store) (tenant : Context) (now : Timestamptz) (eventId : Uuid) (action : String)
    (reservedTokensInput : Number) : Except UsageError (Store × Reservation) := do
  let reservedTokens ← finiteNonnegativeInteger reservedTokensInput "reservedTokens"
  if reservedTokens = 0 then throw (.error "reservedTokens must be greater than zero")
  if !validAction action then throw (.error "AI action is invalid")
  match s.limits tenant.organizationId with
  | none => throw (.error "AI usage limits are not configured for this organization")
  | some limits =>
    let key : PeriodKey := (tenant.organizationId, periodStart now)
    let existing := s.periods.find? key
    let _ ← int8 (existing.elim 0 fun p => p.inputTokens + p.outputTokens)
    match ← reservePeriod limits key existing reservedTokens now with
    | none => throw (← limitError limits existing)
    | some period =>
      match s.events.insert? (newEvent tenant now eventId action reservedTokens) with
      | none => throw (.database "ai_usage_events_pkey")
      | some events =>
        return ({ s with periods := s.periods.upsert period, events },
          { id := eventId, periodStart := periodStart now, reservedTokens })

/-! ### Finalizing -/

structure Usage where
  inputTokens : ℤ := 0
  outputTokens : ℤ := 0
  estimatedCostMicrousd : ℤ := 0

/-- `updated_period`: the reserved tokens of the event are released, its usage is added. -/
def settlePeriod (period : PeriodRow) (event : EventRow) (usage : Usage) (now : Timestamptz) :
    Except UsageError PeriodRow := do
  return { period with
    reservedTokens := max 0 (← int8 (period.reservedTokens - event.reservedTokens))
    inputTokens := ← int8 (period.inputTokens + usage.inputTokens)
    outputTokens := ← int8 (period.outputTokens + usage.outputTokens)
    estimatedCostMicrousd := ← int8 (period.estimatedCostMicrousd + usage.estimatedCostMicrousd)
    updatedAt := now }

/-- The statement behind `complete` and `fail`: `finalize` sets the columns of the event.  The
result tells whether a period was updated. -/
def finalizeEvent (s : Store) (tenant : Context) (now : Timestamptz) (reservationId : Uuid)
    (finalize : EventRow → EventRow) (usage : Usage) : Except UsageError (Store × Bool) :=
  match s.events.find? reservationId with
  | none => return (s, false)
  | some event =>
    if event.organizationId = tenant.organizationId ∧ event.status = .pending then
      let events := s.events.put (finalize event)
      match s.periods.find? (tenant.organizationId, event.periodStart) with
      | none => return ({ s with events }, false)
      | some period => do
        let period ← settlePeriod period event usage now
        return ({ s with events, periods := s.periods.put period }, true)
    else return (s, false)

/-- The columns `complete` sets. -/
def completeEvent (provider model : String) (usage : Usage) (now : Timestamptz)
    (event : EventRow) : EventRow :=
  { event with
    status := .completed, provider := some (Text.trim provider), model := some (Text.trim model)
    inputTokens := usage.inputTokens, outputTokens := usage.outputTokens
    estimatedCostMicrousd := usage.estimatedCostMicrousd, completedAt := some now }

/-- The columns `fail` sets. -/
def failEvent (failureCode : String) (now : Timestamptz) (event : EventRow) : EventRow :=
  { event with status := .failed, failureCode := some failureCode, completedAt := some now }

structure UsageInput where
  inputTokens : Number
  outputTokens : Number
  estimatedCostMicrousd : Number

/-- The statement of `complete` after the checks of its arguments. -/
def complete (s : Store) (tenant : Context) (now : Timestamptz) (reservation : Reservation)
    (usage : UsageInput) (provider model : String) : Except UsageError (Store × Bool) := do
  let inputTokens ← finiteNonnegativeInteger usage.inputTokens "inputTokens"
  let outputTokens ← finiteNonnegativeInteger usage.outputTokens "outputTokens"
  let estimatedCostMicrousd ←
    finiteNonnegativeInteger usage.estimatedCostMicrousd "estimatedCostMicrousd"
  if Text.trim provider = "" ∨ Text.utf16Length provider > 50 then
    throw (.error "AI provider is invalid")
  if Text.trim model = "" ∨ Text.utf16Length model > 160 then throw (.error "AI model is invalid")
  let usage : Usage := { inputTokens, outputTokens, estimatedCostMicrousd }
  finalizeEvent s tenant now reservation.id (completeEvent provider model usage now) usage

/-- The statement of `fail` after the check of the code. -/
def fail (s : Store) (tenant : Context) (now : Timestamptz) (reservation : Reservation)
    (failureCode : String) : Except UsageError (Store × Bool) := do
  let code := normalizeFailureCode failureCode
  if !validFailureCode code then throw (.error "AI failure code is invalid")
  finalizeEvent s tenant now reservation.id (failEvent code now) {}

/-! ### Calls -/

inductive Call where
  | reserve (tenant : Context) (now : Timestamptz) (eventId : Uuid) (action : String)
      (reservedTokens : Number)
  | complete (tenant : Context) (now : Timestamptz) (reservation : Reservation)
      (usage : UsageInput) (provider model : String)
  | fail (tenant : Context) (now : Timestamptz) (reservation : Reservation) (failureCode : String)

/-- The end of `reserve`. -/
def reserved (s : Store) : Except UsageError (Store × Reservation) →
    Store × Except UsageError (Option Reservation)
  | .ok (s', reservation) => (s', .ok (some reservation))
  | .error e => (s, .error e)

/-- The end of `complete` and `fail`: a statement stays executed when the call throws because
nothing was finalized. -/
def finalized (s : Store) (message : String) : Except UsageError (Store × Bool) →
    Store × Except UsageError (Option Reservation)
  | .ok (s', true) => (s', .ok none)
  | .ok (s', false) => (s', .error (.error message))
  | .error e => (s, .error e)

/-- A call: the store it leaves and its result. -/
def call (s : Store) : Call → Store × Except UsageError (Option Reservation)
  | .reserve tenant now eventId action reservedTokens =>
    reserved s (reserve s tenant now eventId action reservedTokens)
  | .complete tenant now reservation usage provider model =>
    finalized s "AI usage reservation could not be completed"
      (complete s tenant now reservation usage provider model)
  | .fail tenant now reservation failureCode =>
    finalized s "AI usage reservation could not be failed"
      (fail s tenant now reservation failureCode)

/-- The store after a sequence of calls, before which nothing was reserved. -/
def after (limits : Uuid → Option UsageLimits) (calls : List Call) : Store :=
  calls.foldl (fun s c => (call s c).1) { limits, periods := .empty, events := .empty }

end CalmBoard.Ai
