import CalmBoard.Values
import CalmBoard.Lib.Sessions
import CalmBoard.Lib.Table

/-!
# CalmBoard.Billing.Subscriptions — provider events and the subscription of an organization

* `Env.accepts`: the constraints and triggers of `subscriptions`.
* `operation`: what `applyStripeEvent` makes of an event.
* `updatedSubscription`, `applyLifecycleEvent`: the two repository methods.
* `deliver`: an event handled alone.
* `move`: events handled statement by statement; `updateSubscription` reads the current subscription
  without a lock, `applyLifecycleEvent` locks it.
-/

namespace CalmBoard.Billing

open Sessions

inductive BillingPlan where
  | free | starter | team | business | enterprise
  deriving DecidableEq

inductive BillingInterval where
  | monthly | yearly
  deriving DecidableEq

inductive SubscriptionStatus where
  | trialing | active | pastDue | gracePeriod | paused | canceled | incomplete
  deriving DecidableEq

structure SubscriptionPlan where
  key : BillingPlan
  isActive : Bool := true
  minSeats : ℕ
  maxSeats : ℕ

/-- `subscriptions`; times are in milliseconds. -/
structure Subscription where
  id : Uuid
  plan : BillingPlan
  status : SubscriptionStatus := .active
  billingInterval : BillingInterval := .monthly
  seats : ℕ := 1
  provider : String := "internal"
  providerCustomerId : Option String := none
  providerSubscriptionId : Option String := none
  providerEventCreatedAt : Option ℤ := none
  currentPeriodStart : ℤ
  currentPeriodEnd : ℤ
  trialEndsAt : Option ℤ := none
  gracePeriodEndsAt : Option ℤ := none
  cancelAtPeriodEnd : Bool := false
  canceledAt : Option ℤ := none
  endedAt : Option ℤ := none
  deriving DecidableEq

inductive EventType where
  | checkoutSessionCompleted | subscriptionUpdated | invoicePaymentFailed | invoicePaymentSucceeded
  | invoicePaid | subscriptionDeleted | other
  deriving DecidableEq

/-- What is read of an event of the organization; times are in seconds, `seats` is
`Number(metadata.seats ?? 1)`. -/
structure StripeEvent where
  type : EventType
  created : Option ℕ
  customer : Option String := none
  subscription : Option String := none
  status : Option String := none
  planId : Option String := none
  billingInterval : Option String := none
  seats : Number := .fin 1
  canceledAt : Option ℕ := none
  endedAt : Option ℕ := none
  currentPeriodStart : Option ℕ := none
  currentPeriodEnd : Option ℕ := none
  trialEnd : Option ℕ := none
  cancelAtPeriodEnd : Bool := false
  deriving DecidableEq

/-- What no event changes: the plans, whether the organization is deleted, the provider
subscriptions of other organizations, and `STRIPE_GRACE_PERIOD_DAYS`. -/
structure Env where
  plans : Table SubscriptionPlan SubscriptionPlan.key
  organizationDeleted : Bool := false
  elsewhere : List (String × String) := []
  gracePeriodDays : ℕ := 7

/-- The subscriptions of the organization, those that have ended with the last one first, and the
events that have been handled.  There is one current subscription at most. -/
structure Store where
  current : Option Subscription
  ended : List Subscription
  handled : List StripeEvent

/-! ### Rows -/

/-- `validate_subscription_plan_and_seats` -/
def Env.validPlanAndSeats (env : Env) (r : Subscription) : Bool :=
  (env.plans.find? r.plan).any fun p =>
    (r.endedAt.isSome || p.isActive) && p.minSeats ≤ r.seats && r.seats ≤ p.maxSeats

/-- `sync_current_subscription_projection` needs the free plan. -/
def Env.hasFreePlan (env : Env) : Bool := (env.plans.find? .free).any SubscriptionPlan.isActive

/-- The check constraints. -/
def Subscription.checks (r : Subscription) : Bool :=
  0 < r.seats && r.currentPeriodStart < r.currentPeriodEnd &&
    (r.status != .trialing || r.trialEndsAt.isSome) &&
    (r.status != .gracePeriod || r.gracePeriodEndsAt.isSome) &&
    (r.status != .canceled || (r.canceledAt.isSome && r.endedAt.isSome))

/-- `subscriptions_provider_subscription_unique` -/
def Env.providerFree (env : Env) (others : List Subscription) (r : Subscription) : Bool :=
  match r.providerSubscriptionId with
  | none => true
  | some x =>
    !env.elsewhere.contains (r.provider, x) &&
      others.all fun o => o.provider ≠ r.provider || o.providerSubscriptionId ≠ some x

/-- A row can be written beside the others. -/
def Env.accepts (env : Env) (others : List Subscription) (r : Subscription) : Bool :=
  env.validPlanAndSeats r && (r.endedAt.isNone || env.hasFreePlan) && r.checks &&
    env.providerFree others r

/-- Write the current subscription, which may end. -/
def Store.replaceCurrent (env : Env) (r : Subscription) (s : Store) : Option Store :=
  if env.accepts s.ended r then
    some (if r.endedAt.isSome then { s with current := none, ended := r :: s.ended }
          else { s with current := some r })
  else none

/-- Write the subscription with the given id, current or not; `f` keeps `ended_at`. -/
def Store.replace (env : Env) (id : Uuid) (f : Subscription → Subscription) (s : Store) :
    Option Store :=
  match s.current.filter fun r => r.id = id with
  | some r => s.replaceCurrent env (f r)
  | none =>
    match s.ended.find? fun r => r.id = id with
    | none => some s
    | some r =>
      if env.accepts (s.current.toList ++ s.ended.filter fun x => x.id ≠ id) (f r) then
        some { s with ended := s.ended.map fun x => if x.id = id then f x else x }
      else none

def Store.insert (env : Env) (r : Subscription) (s : Store) : Option Store :=
  if s.current.isNone && env.accepts s.ended r then some { s with current := some r } else none

/-! ### `updateSubscription` -/

/-- The start of the month, or of the next one. -/
def monthStart (year : ℤ) (month : ℕ) : ℤ :=
  if month ≤ 12 then Civil.daysFromCivil ⟨year, month, 1⟩ else Civil.daysFromCivil ⟨year + 1, 1, 1⟩

/-- `setUTCFullYear` and `setUTCMonth` carry days over that the month does not have. -/
def nextPeriod (start : ℤ) (interval : BillingInterval) : ℤ :=
  let t := IsoDate.utcDate start
  let first := match interval with
    | .yearly => monthStart (t.year + 1) t.month
    | .monthly => monthStart t.year (t.month + 1)
  (first + (t.day - 1)) * IsoDate.msPerDay + start % IsoDate.msPerDay

structure UpdateOptions where
  billingInterval : Option BillingInterval := none
  status : Option SubscriptionStatus := none
  provider : Option String := none
  providerCustomerId : Option String := none
  providerSubscriptionId : Option String := none
  providerEventCreatedAt : Option ℤ := none
  currentPeriodStart : Option ℤ := none
  currentPeriodEnd : Option ℤ := none
  trialEndsAt : Option ℤ := none
  gracePeriodEndsAt : Option (Option ℤ) := none
  cancelAtPeriodEnd : Option Bool := none

/-- The plan, where it is on sale and has that many seats. -/
def Env.selectPlan (env : Env) (plan : BillingPlan) (seats : ℕ) : Bool :=
  !env.organizationDeleted && 0 < seats &&
    (env.plans.find? plan).any fun p => p.isActive && p.minSeats ≤ seats && seats ≤ p.maxSeats

/-- The row has seen a newer event. -/
def stale (current : Option Subscription) (createdAt : Option ℤ) : Bool :=
  (current.bind Subscription.providerEventCreatedAt).any fun t => createdAt.any fun t' => t' < t

/-- `values`, and what a new row has besides. -/
def updatedSubscription (plan : BillingPlan) (seats : ℕ) (o : UpdateOptions)
    (current : Option Subscription) (id : Uuid) (now : ℤ) : Subscription :=
  let billingInterval :=
    (o.billingInterval <|> current.map Subscription.billingInterval).getD .monthly
  let periodStart :=
    (o.currentPeriodStart <|> current.map Subscription.currentPeriodStart).getD now
  { id, plan, seats, billingInterval
    status := o.status.getD .active
    provider := (o.provider <|> current.map Subscription.provider).getD "internal"
    providerCustomerId := o.providerCustomerId <|> current.bind Subscription.providerCustomerId
    providerSubscriptionId :=
      o.providerSubscriptionId <|> current.bind Subscription.providerSubscriptionId
    providerEventCreatedAt :=
      o.providerEventCreatedAt <|> current.bind Subscription.providerEventCreatedAt
    currentPeriodStart := periodStart
    currentPeriodEnd :=
      (o.currentPeriodEnd <|> current.map Subscription.currentPeriodEnd).getD
        (nextPeriod periodStart billingInterval)
    trialEndsAt := o.trialEndsAt <|> current.bind Subscription.trialEndsAt
    gracePeriodEndsAt := o.gracePeriodEndsAt.getD (current.bind Subscription.gracePeriodEndsAt)
    cancelAtPeriodEnd :=
      (o.cancelAtPeriodEnd <|> current.map Subscription.cancelAtPeriodEnd).getD false }

def Subscription.set (values r : Subscription) : Subscription :=
  { values with id := r.id, canceledAt := r.canceledAt, endedAt := r.endedAt }

/-- The write of `updateSubscription`, with the subscription that was read as the current one. -/
def writeUpdate (env : Env) (plan : BillingPlan) (seats : ℕ) (o : UpdateOptions)
    (current : Option Subscription) (id : Uuid) (now : ℤ) (s : Store) : Option Store :=
  let values := updatedSubscription plan seats o current id now
  match current with
  | some r => s.replace env r.id values.set
  | none => s.insert env values

/-! ### `applyLifecycleEvent` -/

structure LifecycleEvent where
  status : SubscriptionStatus
  providerEventCreatedAt : ℤ
  providerCustomerId : Option String
  providerSubscriptionId : Option String
  gracePeriodEndsAt : Option ℤ := none
  canceledAt : Option ℤ := none
  endedAt : Option ℤ := none

/-- Both are given and they differ. -/
def differs (a b : Option String) : Bool := a.isSome && b.isSome && a != b

def Subscription.lifecycle (input : LifecycleEvent) (r : Subscription) : Subscription :=
  let canceled := input.status = .canceled
  { r with
    status := input.status
    providerCustomerId := input.providerCustomerId <|> r.providerCustomerId
    providerSubscriptionId := input.providerSubscriptionId <|> r.providerSubscriptionId
    providerEventCreatedAt := some input.providerEventCreatedAt
    gracePeriodEndsAt := if input.status = .gracePeriod then input.gracePeriodEndsAt else none
    cancelAtPeriodEnd := if canceled then false else r.cancelAtPeriodEnd
    canceledAt :=
      if canceled then some (input.canceledAt.getD input.providerEventCreatedAt) else none
    endedAt :=
      if canceled then
        some ((input.endedAt <|> input.canceledAt).getD input.providerEventCreatedAt)
      else none }

/-- `none` where the event is refused. -/
def applyLifecycleEvent (env : Env) (input : LifecycleEvent) (s : Store) : Option Store :=
  match s.current with
  | none => some s
  | some r =>
    if differs input.providerSubscriptionId r.providerSubscriptionId ||
        differs input.providerCustomerId r.providerCustomerId then none
    else if stale (some r) (some input.providerEventCreatedAt) then some s
    else s.replaceCurrent env (r.lifecycle input)

/-! ### `applyStripeEvent` -/

def dateFromUnixSeconds (seconds : Option ℕ) : Option ℤ :=
  (seconds.filter fun n => 0 < n).map fun n => (n : ℤ) * 1000

def parseBillingPlan : Option String → Option BillingPlan
  | some "free" => some .free
  | some "starter" => some .starter
  | some "team" => some .team
  | some "business" => some .business
  | some "enterprise" => some .enterprise
  | _ => none

def parseBillingInterval : Option String → Option BillingInterval
  | none => some .monthly
  | some "monthly" => some .monthly
  | some "yearly" => some .yearly
  | some _ => none

def maxSafeInteger : ℕ := 9007199254740991

/-- `Math.max(1, Math.round(seats) || 1)`, where it is a safe integer. -/
def seatCount : Number → Option ℕ
  | .nan => some 1
  | .negInf => some 1
  | .posInf => none
  | .fin q =>
    let n := (q + 1 / 2).floor.toNat
    if n ≤ maxSafeInteger then some (max 1 n) else none

/-- The status that `customer.subscription.updated` and a checkout set. -/
def subscriptionStatus : Option String → SubscriptionStatus
  | some "trialing" => .trialing
  | some "paused" => .paused
  | some "incomplete" => .incomplete
  | some "past_due" => .gracePeriod
  | _ => .active

/-- The provider has ended the subscription. -/
def endingStatus : Option String → Bool
  | some "canceled" | some "unpaid" | some "incomplete_expired" => true
  | _ => false

def Env.gracePeriodEnd (env : Env) (eventCreatedAt : ℤ) : ℤ :=
  eventCreatedAt + env.gracePeriodDays * 24 * 60 * 60 * 1000

def stripeEventCreatedAt (now : ℤ) (e : StripeEvent) : ℤ := (dateFromUnixSeconds e.created).getD now

inductive Operation where
  | update (plan : BillingPlan) (seats : ℕ) (options : UpdateOptions)
  /-- `invoice`: an invoice is created afterwards -/
  | lifecycle (input : LifecycleEvent) (invoice : Bool)
  | ignored
  | rejected

def lifecycleOf (status : SubscriptionStatus) (gracePeriodEndsAt : Option ℤ) (now : ℤ)
    (e : StripeEvent) : LifecycleEvent :=
  { status
    providerEventCreatedAt := stripeEventCreatedAt now e
    providerCustomerId := e.customer
    providerSubscriptionId := e.subscription
    gracePeriodEndsAt
    canceledAt := if status = .canceled then dateFromUnixSeconds e.canceledAt else none
    endedAt := if status = .canceled then dateFromUnixSeconds e.endedAt else none }

def optionsOf (env : Env) (billingInterval : BillingInterval) (now : ℤ) (e : StripeEvent) :
    UpdateOptions :=
  let status := subscriptionStatus e.status
  let createdAt := stripeEventCreatedAt now e
  { billingInterval := some billingInterval
    status := some status
    provider := some "stripe"
    providerCustomerId := e.customer
    providerSubscriptionId := e.subscription
    providerEventCreatedAt := some createdAt
    currentPeriodStart := dateFromUnixSeconds e.currentPeriodStart
    currentPeriodEnd := dateFromUnixSeconds e.currentPeriodEnd
    trialEndsAt := if status = .trialing then dateFromUnixSeconds e.trialEnd else none
    gracePeriodEndsAt :=
      some (if status = .gracePeriod then some (env.gracePeriodEnd createdAt) else none)
    cancelAtPeriodEnd := some e.cancelAtPeriodEnd }

/-- A checkout, or an update that does not end the subscription. -/
def updateOperation (env : Env) (now : ℤ) (e : StripeEvent) : Operation :=
  match parseBillingPlan e.planId, parseBillingInterval e.billingInterval, seatCount e.seats with
  | some plan, some billingInterval, some seats =>
    .update plan seats (optionsOf env billingInterval now e)
  | _, _, _ => .rejected

def operation (env : Env) (now : ℤ) (e : StripeEvent) : Operation :=
  match e.type with
  | .checkoutSessionCompleted => updateOperation env now e
  | .subscriptionUpdated =>
    if endingStatus e.status then .lifecycle (lifecycleOf .canceled none now e) false
    else updateOperation env now e
  | .invoicePaymentFailed =>
    .lifecycle (lifecycleOf .gracePeriod (some (env.gracePeriodEnd (stripeEventCreatedAt now e)))
      now e) true
  | .invoicePaymentSucceeded | .invoicePaid => .lifecycle (lifecycleOf .active none now e) true
  | .subscriptionDeleted => .lifecycle (lifecycleOf .canceled none now e) false
  | .other => .ignored

/-- The result of a lifecycle event and of the invoice after it, which needs the organization. -/
def lifecycleResult (env : Env) (input : LifecycleEvent) (invoice : Bool) (s : Store) :
    Option Store :=
  if invoice && env.organizationDeleted then none else applyLifecycleEvent env input s

/-- The event has been handled; an error has undone what it did. -/
def Store.finish (e : StripeEvent) (result : Option Store) (s : Store) : Store :=
  { result.getD s with handled := s.handled ++ [e] }

/-- The id and the time for what is written. -/
structure Io where
  id : Uuid := 0
  now : ℤ := 0

/-- An event handled alone. -/
def deliver (env : Env) (io : Io) (e : StripeEvent) (s : Store) : Store :=
  match operation env io.now e with
  | .ignored | .rejected => s.finish e none
  | .lifecycle input invoice => s.finish e (lifecycleResult env input invoice s)
  | .update plan seats o =>
    if !env.selectPlan plan seats || stale s.current o.providerEventCreatedAt then s.finish e none
    else s.finish e (writeUpdate env plan seats o s.current io.id io.now s)

/-! ### Statements -/

/-- Where the handling of an event is. -/
inductive Local where
  | called (e : StripeEvent)
  /-- the current subscription has been read -/
  | writing (e : StripeEvent) (plan : BillingPlan) (seats : ℕ) (o : UpdateOptions)
    (current : Option Subscription)
  /-- the write has run -/
  | holding (e : StripeEvent) (plan : BillingPlan) (seats : ℕ) (o : UpdateOptions)
    (current : Option Subscription)
  /-- the current subscription is locked -/
  | locked (e : StripeEvent) (input : LifecycleEvent) (invoice : Bool) (id : Uuid)
  | stopped

inductive Lock where
  | row (id : Uuid)
  /-- `subscriptions_organization_current_unique` -/
  | current
  deriving DecidableEq

def Local.locks : Local → List Lock
  | .holding _ _ _ _ (some r) => [.row r.id]
  | .holding _ _ _ _ none => [.current]
  | .locked _ _ _ id => [.row id]
  | _ => []

inductive Action where
  | next (io : Io)
  | crash

/-- The first statements. -/
def start (env : Env) (io : Io) (e : StripeEvent) (s : Store) : Store × Local :=
  match operation env io.now e with
  | .ignored | .rejected => (s.finish e none, .stopped)
  | .lifecycle input invoice =>
    match s.current with
    | none => (s.finish e (lifecycleResult env input invoice s), .stopped)
    | some r => (s, .locked e input invoice r.id)
  | .update plan seats o =>
    if !env.selectPlan plan seats || stale s.current o.providerEventCreatedAt then
      (s.finish e none, .stopped)
    else (s, .writing e plan seats o s.current)

def proceed (env : Env) (io : Io) (s : Store) : Local → Option (Store × Local)
  | .called e => some (start env io e s)
  | .writing e plan seats o current => some (s, .holding e plan seats o current)
  | .holding e plan seats o current =>
    some (s.finish e (writeUpdate env plan seats o current io.id io.now s), .stopped)
  -- its row is locked, so the current subscription is the one that was read
  | .locked e input invoice _ => some (s.finish e (lifecycleResult env input invoice s), .stopped)
  | .stopped => none

def move (env : Env) (a : Action) (s : Store) (l : Local) : Option (Store × Local) :=
  match a with
  | .crash => some (s, .stopped)
  | .next io => proceed env io s l

def program (env : Env) : Program StripeEvent Store Local Lock Action where
  start := .called
  locks := Local.locks
  conflict k k' := k = k'
  move := move env
  conflict_symm k k' := by simp [eq_comm]
  start_locks _ := rfl

end CalmBoard.Billing
