import CalmBoard.Billing.Late

/-!
# CalmBoard.Billing.Delivery — delivered events and the life of the subscription

* `effectOf`: what an event does, whatever the state.
* `Shows`: the rows show a state of the subscription.
* `deliver_shows`: an event handled alone does to the rows what it does to the state.
* `outcome_eq`: rows that show the same state have the same outcome.
-/

namespace CalmBoard.Billing

open Replay Civil

/-! ### Periods -/

theorem monthStart_eq {year : ℤ} {month : ℕ} (h : month ≤ 12) :
    monthStart year month =
      daysBeforeYear year + daysBeforeMonth (isLeap year) month - epochOffset := by
  unfold monthStart
  rw [if_pos h]
  unfold daysFromCivil
  simp

theorem monthStart_thirteen (year : ℤ) :
    monthStart year 13 =
      daysBeforeYear year + daysBeforeMonth (isLeap year) 13 - epochOffset := by
  unfold monthStart
  rw [if_neg (by omega)]
  unfold daysFromCivil
  rw [daysBeforeYear_succ]
  have h0 : daysBeforeMonth (isLeap (year + 1)) 1 = 0 := rfl
  simp only [h0]
  omega

theorem lt_nextPeriod (start : ℤ) (interval : BillingInterval) :
    start < nextPeriod start interval := by
  obtain ⟨hm, hm', heq, -, -⟩ := civilFromDays_spec (start / IsoDate.msPerDay)
  unfold nextPeriod IsoDate.utcDate
  generalize civilFromDays (start / IsoDate.msPerDay) = t at *
  have hsplit : start / IsoDate.msPerDay * IsoDate.msPerDay + start % IsoDate.msPerDay = start :=
    Int.ediv_mul_add_emod start IsoDate.msPerDay
  have hmonth : daysBeforeMonth (isLeap t.year) t.month < daysBeforeMonth (isLeap t.year) (t.month + 1) :=
    daysBeforeMonth_succ _ hm hm'
  have hlater : ∀ first : ℤ, daysBeforeYear t.year + daysBeforeMonth (isLeap t.year) t.month -
      epochOffset < first → start < (first + (t.day - 1)) * IsoDate.msPerDay + start % IsoDate.msPerDay := by
    intro first hfirst
    have hday : start / IsoDate.msPerDay + 1 ≤ first + (t.day - 1) := by omega
    have hmul := Int.mul_le_mul_of_nonneg_right hday (show 0 ≤ IsoDate.msPerDay by decide)
    have hpos : (0 : ℤ) < IsoDate.msPerDay := by decide
    rw [Int.add_mul, Int.one_mul] at hmul
    omega
  cases interval with
  | monthly =>
    refine hlater _ ?_
    show _ < monthStart t.year (t.month + 1)
    by_cases h12 : t.month + 1 ≤ 12
    · rw [monthStart_eq h12]
      omega
    · have h13 : t.month = 12 := by omega
      rw [h13] at hmonth ⊢
      change _ < daysBeforeMonth (isLeap t.year) 13 at hmonth
      show _ < monthStart t.year 13
      rw [monthStart_thirteen]
      omega
  | yearly =>
    refine hlater _ ?_
    show _ < monthStart (t.year + 1) t.month
    rw [monthStart_eq hm', daysBeforeYear_succ]
    have hlast := daysBeforeMonth_mono (isLeap t.year) (show 1 ≤ t.month + 1 by omega)
      (show t.month + 1 ≤ 13 by omega) le_rfl
    have hfirst := daysBeforeMonth_mono (isLeap (t.year + 1)) (le_refl 1) hm (by omega)
    have h0 : daysBeforeMonth (isLeap (t.year + 1)) 1 = 0 := rfl
    omega

/-! ### Events -/

def StripeEvent.time (e : StripeEvent) : ℤ := stripeEventCreatedAt 0 e

/-- The given period is one. -/
def UpdateOptions.wellTimed (o : UpdateOptions) : Bool :=
  match o.currentPeriodStart, o.currentPeriodEnd with
  | some start, some stop => start < stop
  | _, _ => true

/-- What an event does to the subscription, if it may be applied. -/
def effectOf (env : Env) (e : StripeEvent) : Effect :=
  match operation env 0 e with
  | .ignored | .rejected => .nothing
  | .update plan seats o =>
    if env.selectPlan plan seats && o.wellTimed then .update (o.status.getD .active) plan seats
    else .nothing
  | .lifecycle input invoice =>
    if invoice && env.organizationDeleted then .nothing
    else if input.status = .canceled then if env.hasFreePlan then .cancel else .nothing
    else .status input.status

/-- An event of the subscription `x` of the customer `c`: it has a time, and brings both ends of a
period or none, and the end of a trial. -/
structure OneSubscription (x c : String) (e : StripeEvent) : Prop where
  created : (dateFromUnixSeconds e.created).isSome = true
  subscription : e.subscription = some x
  customer : e.customer = none ∨ e.customer = some c
  period : (dateFromUnixSeconds e.currentPeriodStart).isSome =
    (dateFromUnixSeconds e.currentPeriodEnd).isSome
  trial : subscriptionStatus e.status = .trialing → (dateFromUnixSeconds e.trialEnd).isSome = true

variable {env : Env} {x c : String} {e : StripeEvent} {now : ℤ}

theorem createdAt_eq (h : (dateFromUnixSeconds e.created).isSome = true) (now : ℤ) :
    stripeEventCreatedAt now e = e.time := by
  obtain ⟨t, ht⟩ := Option.isSome_iff_exists.mp h
  unfold StripeEvent.time stripeEventCreatedAt
  rw [ht]
  rfl

theorem operation_now (h : (dateFromUnixSeconds e.created).isSome = true) (now : ℤ) :
    operation env now e = operation env 0 e := by
  unfold operation updateOperation lifecycleOf optionsOf
  simp only [createdAt_eq h]

inductive Kind (env : Env) (e : StripeEvent) : Operation → Prop
  | ignored : Kind env e .ignored
  | rejected : Kind env e .rejected
  | update (plan : BillingPlan) (seats : ℕ) (interval : BillingInterval) :
    Kind env e (.update plan seats (optionsOf env interval 0 e))
  | cancel : Kind env e (.lifecycle (lifecycleOf .canceled none 0 e) false)
  | failed (until_ : ℤ) : Kind env e (.lifecycle (lifecycleOf .gracePeriod (some until_) 0 e) true)
  | paid : Kind env e (.lifecycle (lifecycleOf .active none 0 e) true)

theorem updateOperation_kind (env : Env) (e : StripeEvent) : Kind env e (updateOperation env 0 e) := by
  unfold updateOperation
  split
  · next plan interval seats _ _ _ => exact .update plan seats interval
  · exact .rejected

theorem operation_kind (env : Env) (e : StripeEvent) : Kind env e (operation env 0 e) := by
  unfold operation
  cases e.type with
  | checkoutSessionCompleted => exact updateOperation_kind env e
  | subscriptionUpdated =>
    show Kind env e (if endingStatus e.status then _ else _)
    split
    · exact .cancel
    · exact updateOperation_kind env e
  | invoicePaymentFailed => exact .failed _
  | invoicePaymentSucceeded | invoicePaid => exact .paid
  | subscriptionDeleted => exact .cancel
  | other => exact .ignored

/-! ### Rows that show a state -/

/-- The current row shows `q`; the rows that have ended are of other subscriptions, or were ended
before the provider had this one. -/
structure ShowsCurrent (env : Env) (x c : String) (s : Store) (q : Row) (r : Subscription) : Prop where
  current : s.current = some r
  status : r.status = q.status
  plan : r.plan = q.plan
  seats : r.seats = q.seats
  seen : r.providerEventCreatedAt = q.seen
  open_ : r.endedAt = none
  valid : env.validPlanAndSeats r = true
  checks : r.checks = true
  subscription : r.providerSubscriptionId = none ∨ r.providerSubscriptionId = some x
  customer : r.providerCustomerId = none ∨ r.providerCustomerId = some c
  provider : q.provided = true → r.provider = "stripe"
  unprovided : q.provided = false →
    r.provider ≠ "stripe" ∧ ∀ o ∈ s.ended, o.providerSubscriptionId ≠ some x
  apart : ∀ o ∈ s.ended, o.providerSubscriptionId = some x → o.provider ≠ "stripe"

structure ShowsEnded (x : String) (s : Store) (plan : BillingPlan) (seats : ℕ) (provided : Bool)
    (r : Subscription) (rest : List Subscription) : Prop where
  current : s.current = none
  ended : s.ended = r :: rest
  status : r.status = .canceled
  plan : r.plan = plan
  seats : r.seats = seats
  subscription : r.providerSubscriptionId = some x
  provider : provided = true ↔ r.provider = "stripe"
  apart : ∀ o ∈ rest, o.providerSubscriptionId = some x → o.provider ≠ "stripe"

/-- The rows show the state of the subscription `x`; `ended` are the rows that had ended before. -/
inductive Shows (env : Env) (x c : String) (ended : List Subscription) (s : Store) : State → Prop
  | absent (hcurrent : s.current = none) (hended : s.ended = ended) : Shows env x c ended s .absent
  | current (q : Row) (r : Subscription) (h : ShowsCurrent env x c s q r) :
    Shows env x c ended s (.current q)
  | ended (plan : BillingPlan) (seats : ℕ) (provided : Bool) (r : Subscription)
    (rest : List Subscription) (h : ShowsEnded x s plan seats provided r rest) :
    Shows env x c ended s (.ended plan seats provided)

/-- Whether the subscription is current, its status, plan and seats. -/
structure Outcome where
  current : Bool
  status : SubscriptionStatus
  plan : BillingPlan
  seats : ℕ
  deriving DecidableEq

def Store.outcome (s : Store) : Option Outcome :=
  match s.current with
  | some r => some ⟨true, r.status, r.plan, r.seats⟩
  | none => s.ended.head?.map fun r => ⟨false, r.status, r.plan, r.seats⟩

theorem outcome_eq {ended : List Subscription} {s s' : Store} {a : State}
    (h : Shows env x c ended s a) (h' : Shows env x c ended s' a) : s.outcome = s'.outcome := by
  cases h with
  | absent hcurrent hended =>
    cases h' with
    | absent hcurrent' hended' =>
      unfold Store.outcome
      rw [hcurrent, hcurrent', hended, hended']
  | current q r h =>
    cases h' with
    | current q r' h' =>
      unfold Store.outcome
      rw [h.current, h'.current]
      show some (Outcome.mk true r.status r.plan r.seats) = some ⟨true, r'.status, r'.plan, r'.seats⟩
      rw [h.status, h.plan, h.seats, h'.status, h'.plan, h'.seats]
  | ended plan seats provided r rest h =>
    cases h' with
    | ended _ _ _ r' rest' h' =>
      unfold Store.outcome
      rw [h.current, h'.current, h.ended, h'.ended]
      show some (Outcome.mk false r.status r.plan r.seats) = some ⟨false, r'.status, r'.plan, r'.seats⟩
      rw [h.status, h.plan, h.seats, h'.status, h'.plan, h'.seats]

/-! ### Written rows -/

variable {plan : BillingPlan} {seats : ℕ} {interval : BillingInterval} {id : Uuid}
  {others : List Subscription} {r : Subscription} {current : Option Subscription} {s : Store}

/-- No other organization has the subscription. -/
def Env.Own (env : Env) (x : String) : Prop := ∀ p ∈ env.elsewhere, p.2 ≠ x

theorem providerFree_iff (hown : env.Own x) (hsub : r.providerSubscriptionId = some x) :
    env.providerFree others r = true ↔
      ∀ o ∈ others, o.providerSubscriptionId = some x → o.provider ≠ r.provider := by
  have helsewhere : env.elsewhere.contains (r.provider, x) = false := by
    rw [Bool.eq_false_iff, Ne, List.contains_iff_mem]
    exact fun hmem => hown _ hmem rfl
  unfold Env.providerFree
  simp only [hsub, helsewhere, Bool.not_false, Bool.true_and, List.all_eq_true, Bool.or_eq_true,
    decide_eq_true_eq]
  constructor
  · intro h o ho hx
    rcases h o ho with h | h
    · exact h
    · exact absurd hx h
  · intro h o ho
    by_cases hx : o.providerSubscriptionId = some x
    · exact Or.inl (h o ho hx)
    · exact Or.inr hx

theorem accepts_iff (hown : env.Own x) (hsub : r.providerSubscriptionId = some x) :
    env.accepts others r = true ↔ env.validPlanAndSeats r = true ∧
      (r.endedAt = none ∨ env.hasFreePlan = true) ∧ r.checks = true ∧
      ∀ o ∈ others, o.providerSubscriptionId = some x → o.provider ≠ r.provider := by
  unfold Env.accepts
  rw [Bool.and_eq_true, Bool.and_eq_true, Bool.and_eq_true, Bool.or_eq_true,
    providerFree_iff hown hsub, Option.isNone_iff_eq_none, and_assoc, and_assoc]

theorem period_updated (plan : BillingPlan) (seats : ℕ) (id : Uuid) (now : ℤ)
    (h : OneSubscription x c e)
    (hcurrent : ∀ r, current = some r → r.currentPeriodStart < r.currentPeriodEnd) :
    (updatedSubscription plan seats (optionsOf env interval 0 e) current id now).currentPeriodStart <
        (updatedSubscription plan seats (optionsOf env interval 0 e) current id now).currentPeriodEnd ↔
      (optionsOf env interval 0 e).wellTimed = true := by
  have hperiod := h.period
  unfold UpdateOptions.wellTimed updatedSubscription optionsOf
  dsimp only
  cases hstart : dateFromUnixSeconds e.currentPeriodStart with
  | some a =>
    cases hstop : dateFromUnixSeconds e.currentPeriodEnd with
    | some b => simp
    | none =>
      rw [hstart, hstop] at hperiod
      cases hperiod
  | none =>
    cases hstop : dateFromUnixSeconds e.currentPeriodEnd with
    | some b =>
      rw [hstart, hstop] at hperiod
      cases hperiod
    | none =>
      cases current with
      | none => simpa using lt_nextPeriod now interval
      | some r => simpa using hcurrent r rfl

theorem subscriptionStatus_ne_canceled (status : Option String) :
    subscriptionStatus status ≠ .canceled := by
  unfold subscriptionStatus
  split <;> simp

theorem status_updated :
    (updatedSubscription plan seats (optionsOf env interval 0 e) current id now).status =
      subscriptionStatus e.status := rfl

theorem subscription_orElse (h : OneSubscription x c e) (old : Option String) :
    (e.subscription <|> old) = some x := by
  rw [h.subscription]
  rfl

theorem customer_orElse (h : OneSubscription x c e) {old : Option String}
    (hold : old = none ∨ old = some c) :
    (e.customer <|> old) = none ∨ (e.customer <|> old) = some c := by
  rcases h.customer with hc | hc
  · rw [hc]
    exact hold
  · rw [hc]
    exact Or.inr rfl

theorem checks_updated (h : OneSubscription x c e) (hseats : 0 < seats)
    (hcurrent : ∀ r, current = some r → r.currentPeriodStart < r.currentPeriodEnd) :
    (updatedSubscription plan seats (optionsOf env interval 0 e) current id now).checks = true ↔
      (optionsOf env interval 0 e).wellTimed = true := by
  rw [← period_updated plan seats id now h hcurrent]
  have htrial : subscriptionStatus e.status = .trialing →
      (updatedSubscription plan seats (optionsOf env interval 0 e) current id
        now).trialEndsAt.isSome = true := by
    intro hs
    obtain ⟨t, ht⟩ := Option.isSome_iff_exists.mp (h.trial hs)
    show ((if subscriptionStatus e.status = .trialing then dateFromUnixSeconds e.trialEnd
      else none) <|> _).isSome = true
    rw [if_pos hs, ht]
    rfl
  have hgrace : subscriptionStatus e.status = .gracePeriod →
      (updatedSubscription plan seats (optionsOf env interval 0 e) current id
        now).gracePeriodEndsAt.isSome = true := by
    intro hs
    show (if subscriptionStatus e.status = .gracePeriod then some _ else none).isSome = true
    rw [if_pos hs]
    rfl
  have hseats' : (updatedSubscription plan seats (optionsOf env interval 0 e) current id
      now).seats = seats := rfl
  unfold Subscription.checks
  simp only [Bool.and_eq_true, Bool.or_eq_true, bne_iff_ne, decide_eq_true_eq, status_updated,
    hseats', ne_eq]
  constructor
  · intro hall
    exact hall.1.1.1.2
  · intro hperiod
    refine ⟨⟨⟨⟨hseats, hperiod⟩, ?_⟩, ?_⟩, Or.inl (subscriptionStatus_ne_canceled _)⟩
    · exact (em _).elim (fun hs => Or.inr (htrial hs)) Or.inl
    · exact (em _).elim (fun hs => Or.inr (hgrace hs)) Or.inl

theorem checks_set (hs : r.status ≠ .canceled) (r' : Subscription) : (r.set r').checks = r.checks := by
  have hno : (r.status != .canceled) = true := bne_iff_ne.mpr hs
  unfold Subscription.checks Subscription.set
  simp [hno]

theorem valid_of_selectPlan (h : env.selectPlan plan seats = true) (hplan : r.plan = plan)
    (hseats : r.seats = seats) : env.validPlanAndSeats r = true := by
  unfold Env.selectPlan at h
  obtain ⟨-, h⟩ := (Bool.and_eq_true _ _).mp h
  obtain ⟨p, hp, h⟩ := (Option.any_eq_true _ _).mp h
  unfold Env.validPlanAndSeats
  rw [hplan, hp, hseats]
  simp only [Bool.and_eq_true, decide_eq_true_eq] at h
  simp [h.1.1, h.1.2, h.2]

theorem pos_of_selectPlan (h : env.selectPlan plan seats = true) : 0 < seats := by
  unfold Env.selectPlan at h
  simp only [Bool.and_eq_true, decide_eq_true_eq] at h
  exact h.1.2

/-! ### Delivery -/

variable {ended : List Subscription} {q : Row} {a : State}

theorem shows_congr {s' : Store} (h : Shows env x c ended s a) (hcurrent : s'.current = s.current)
    (hended : s'.ended = s.ended) : Shows env x c ended s' a := by
  cases h with
  | absent hc he => exact .absent (hcurrent.trans hc) (hended.trans he)
  | current q r h =>
    exact .current q r
      { h with
        current := hcurrent.trans h.current
        unprovided := fun hq => hended ▸ h.unprovided hq
        apart := hended ▸ h.apart }
  | ended plan seats provided r rest h =>
    exact .ended plan seats provided r rest
      { h with
        current := hcurrent.trans h.current
        ended := hended.trans h.ended }

theorem shows_refused (h : Shows env x c ended s a) : Shows env x c ended (s.finish e none) a :=
  shows_congr h rfl rfl

theorem shows_accepted {s' : Store} (h : Shows env x c ended s' a) :
    Shows env x c ended (s.finish e (some s')) a := shows_congr h rfl rfl

theorem stale_eq (h : ShowsCurrent env x c s q r) (t : ℤ) : stale (some r) (some t) = q.stale t := by
  unfold stale Row.stale
  rw [← h.seen]
  rfl

theorem showsCurrent_update {r' : Subscription}
    (hselect : env.selectPlan plan seats = true) (hopen : r'.endedAt = none)
    (hvalues : r'.status = subscriptionStatus e.status ∧ r'.plan = plan ∧ r'.seats = seats ∧
      r'.provider = "stripe" ∧ r'.providerEventCreatedAt = some e.time ∧
      r'.providerSubscriptionId = some x)
    (hcustomer : r'.providerCustomerId = none ∨ r'.providerCustomerId = some c)
    (hchecks : r'.checks = true) (hcurrent : s.current = some r')
    (hapart : ∀ o ∈ s.ended, o.providerSubscriptionId = some x → o.provider ≠ "stripe") :
    ShowsCurrent env x c s ⟨subscriptionStatus e.status, plan, seats, some e.time, true⟩ r' := by
  obtain ⟨hstatus, hplan, hseats, hprovider, hseen, hsub⟩ := hvalues
  exact
    { current := hcurrent, status := hstatus, plan := hplan, seats := hseats, seen := hseen
      open_ := hopen, valid := valid_of_selectPlan hselect hplan hseats, checks := hchecks
      subscription := Or.inr hsub, customer := hcustomer, provider := fun _ => hprovider
      unprovided := fun h => (by cases h), apart := hapart }

theorem period_of_checks (h : r.checks = true) : r.currentPeriodStart < r.currentPeriodEnd := by
  unfold Subscription.checks at h
  simp only [Bool.and_eq_true, decide_eq_true_eq] at h
  exact h.1.1.1.2

/-- The result of an update: the row shows it, unless its period is none. -/
def Updated (env : Env) (x c : String) (interval : BillingInterval) (plan : BillingPlan) (seats : ℕ)
    (e : StripeEvent) (result : Option Store) : Prop :=
  (optionsOf env interval 0 e).wellTimed = false ∧ result = none ∨
    (optionsOf env interval 0 e).wellTimed = true ∧ ∃ s', result = some s' ∧
      ∃ r', ShowsCurrent env x c s' ⟨subscriptionStatus e.status, plan, seats, some e.time, true⟩ r'

theorem update_current (hown : env.Own x) (he : OneSubscription x c e)
    (hselect : env.selectPlan plan seats = true) (h : ShowsCurrent env x c s q r) :
    Updated env x c interval plan seats e
      (writeUpdate env plan seats (optionsOf env interval 0 e) (some r) id now s) := by
  have hfilter : s.current.filter (fun r' => r'.id = r.id) = some r := by
    rw [h.current]
    simp
  let r' := (updatedSubscription plan seats (optionsOf env interval 0 e) (some r) id now).set r
  have hwrite : writeUpdate env plan seats (optionsOf env interval 0 e) (some r) id now s =
      s.replaceCurrent env r' := by
    show s.replace env r.id _ = _
    unfold Store.replace
    rw [hfilter]
  have hopen : r'.endedAt = none := h.open_
  have hsub : r'.providerSubscriptionId = some x := subscription_orElse he _
  have hchecks : r'.checks = true ↔ (optionsOf env interval 0 e).wellTimed = true := by
    have hset : r'.checks = _ := checks_set (subscriptionStatus_ne_canceled e.status) r
    rw [hset]
    exact checks_updated he (pos_of_selectPlan hselect)
      fun y hy => (by cases hy; exact period_of_checks h.checks)
  have haccepts : env.accepts s.ended r' = true ↔ (optionsOf env interval 0 e).wellTimed = true := by
    rw [accepts_iff hown hsub, hchecks]
    constructor
    · exact fun hall => hall.2.2.1
    · exact fun htimed => ⟨valid_of_selectPlan hselect rfl rfl, Or.inl hopen, htimed, h.apart⟩
  rw [hwrite]
  unfold Store.replaceCurrent
  rw [hopen]
  cases htimed : (optionsOf env interval 0 e).wellTimed with
  | false =>
    left
    rw [htimed] at haccepts
    exact ⟨htimed, if_neg (haccepts.not.mpr Bool.false_ne_true)⟩
  | true =>
    right
    rw [htimed] at haccepts hchecks
    refine ⟨htimed, _, if_pos (haccepts.mpr rfl), r', ?_⟩
    refine showsCurrent_update hselect hopen ⟨rfl, rfl, rfl, rfl, rfl, hsub⟩ ?_
      (hchecks.mpr rfl) rfl h.apart
    exact customer_orElse he h.customer

theorem update_insert (hown : env.Own x) (he : OneSubscription x c e)
    (hselect : env.selectPlan plan seats = true) (hcurrent : s.current = none)
    (hapart : ∀ o ∈ s.ended, o.providerSubscriptionId = some x → o.provider ≠ "stripe") :
    Updated env x c interval plan seats e
      (writeUpdate env plan seats (optionsOf env interval 0 e) none id now s) := by
  let r' := updatedSubscription plan seats (optionsOf env interval 0 e) none id now
  have hsub : r'.providerSubscriptionId = some x := subscription_orElse he _
  have hchecks : r'.checks = true ↔ (optionsOf env interval 0 e).wellTimed = true :=
    checks_updated he (pos_of_selectPlan hselect) fun y hy => (by cases hy)
  have haccepts : env.accepts s.ended r' = true ↔ (optionsOf env interval 0 e).wellTimed = true := by
    rw [accepts_iff hown hsub, hchecks]
    constructor
    · exact fun hall => hall.2.2.1
    · exact fun htimed => ⟨valid_of_selectPlan hselect rfl rfl, Or.inl rfl, htimed, hapart⟩
  show Updated env x c interval plan seats e (s.insert env r')
  unfold Store.insert
  rw [hcurrent, Option.isNone_none, Bool.true_and]
  cases htimed : (optionsOf env interval 0 e).wellTimed with
  | false =>
    left
    rw [htimed] at haccepts
    exact ⟨htimed, if_neg (haccepts.not.mpr Bool.false_ne_true)⟩
  | true =>
    right
    rw [htimed] at haccepts hchecks
    refine ⟨htimed, _, if_pos (haccepts.mpr rfl), r', ?_⟩
    exact showsCurrent_update hselect rfl ⟨rfl, rfl, rfl, rfl, rfl, hsub⟩
      (customer_orElse he (Or.inl rfl)) (hchecks.mpr rfl) rfl hapart

theorem update_refused (hown : env.Own x) (he : OneSubscription x c e) (hcurrent : s.current = none)
    (hmem : r ∈ s.ended) (hsub : r.providerSubscriptionId = some x) (hprovider : r.provider = "stripe") :
    writeUpdate env plan seats (optionsOf env interval 0 e) none id now s = none := by
  let r' := updatedSubscription plan seats (optionsOf env interval 0 e) none id now
  have hsub' : r'.providerSubscriptionId = some x := subscription_orElse he _
  show s.insert env r' = none
  unfold Store.insert
  rw [hcurrent, Option.isNone_none, Bool.true_and]
  refine if_neg fun haccepts => ?_
  exact ((accepts_iff hown hsub').mp haccepts).2.2.2 r hmem hsub hprovider

theorem update_shows (hown : env.Own x) (he : OneSubscription x c e)
    (hselect : env.selectPlan plan seats = true) (hs : Shows env x c ended s a)
    (hended : ∀ o ∈ ended, o.providerSubscriptionId ≠ some x) :
    Shows env x c ended
      (if stale s.current (some e.time) then s.finish e none
        else s.finish e (writeUpdate env plan seats (optionsOf env interval 0 e) s.current id now s))
      (a.apply e.time (if (optionsOf env interval 0 e).wellTimed then
        .update (subscriptionStatus e.status) plan seats else .nothing)) := by
  have hnew : ∀ v, Updated env x c interval plan seats e v →
      a.apply e.time (.update (subscriptionStatus e.status) plan seats) =
        .current ⟨subscriptionStatus e.status, plan, seats, some e.time, true⟩ →
      Shows env x c ended (s.finish e v)
        (a.apply e.time (if (optionsOf env interval 0 e).wellTimed then
          .update (subscriptionStatus e.status) plan seats else .nothing)) := by
    rintro v (⟨htimed, rfl⟩ | ⟨htimed, s', rfl, r', hr'⟩) happly
    · rw [htimed, if_neg Bool.false_ne_true, apply_nothing]
      exact shows_refused hs
    · rw [htimed, if_pos rfl, happly]
      exact shows_accepted (.current _ r' hr')
  cases hs with
  | absent hcurrent hrows =>
    rw [hcurrent, if_neg (by simp [stale])]
    refine hnew _ (update_insert hown he hselect hcurrent ?_) rfl
    rw [hrows]
    exact fun o ho hx => absurd hx (hended o ho)
  | current q r h =>
    rw [h.current, stale_eq h]
    cases hstale : q.stale e.time with
    | true =>
      rw [if_pos rfl]
      have hsame : ∀ y, (State.current q).apply e.time y = .current q := fun y => if_pos hstale
      rw [hsame]
      exact shows_refused (.current q r h)
    | false =>
      rw [if_neg Bool.false_ne_true]
      refine hnew _ (update_current hown he hselect h) ?_
      show (if q.stale e.time = true then _ else _) = _
      rw [hstale, if_neg Bool.false_ne_true]
      rfl
  | ended plan' seats' provided r rest h =>
    rw [h.current, if_neg (by simp [stale])]
    cases provided with
    | true =>
      rw [update_refused hown he h.current (h.ended ▸ List.mem_cons_self) h.subscription
        (h.provider.mp rfl)]
      have hsame : ∀ y, (State.ended plan' seats' true).apply e.time y =
          .ended plan' seats' true := fun y => by cases y <;> rfl
      rw [hsame]
      exact shows_refused (.ended plan' seats' true r rest h)
    | false =>
      refine hnew _ (update_insert hown he hselect h.current ?_) rfl
      rw [h.ended]
      intro o ho hx hstripe
      rcases List.mem_cons.mp ho with rfl | ho
      · cases h.provider.mpr hstripe
      · exact h.apart o ho hx hstripe

/-! ### Lifecycle events -/

variable {input : LifecycleEvent}

theorem differs_eq_false {a b : String} {l r : Option String} (hl : l = none ∨ l = some a)
    (hr : r = none ∨ r = some b) (hab : a = b) : differs l r = false := by
  unfold differs
  rcases hl with rfl | rfl
  · rfl
  · rcases hr with rfl | rfl
    · rfl
    · rw [hab]
      simp

/-- The lifecycle events that the service makes of an event. -/
structure OfEvent (e : StripeEvent) (input : LifecycleEvent) : Prop where
  createdAt : input.providerEventCreatedAt = e.time
  customer : input.providerCustomerId = e.customer
  subscription : input.providerSubscriptionId = e.subscription
  status : input.status = .canceled ∨ input.status = .active ∨
    input.status = .gracePeriod ∧ input.gracePeriodEndsAt.isSome = true

theorem checks_lifecycle (hinput : OfEvent e input) (h : r.checks = true) :
    (r.lifecycle input).checks = true := by
  unfold Subscription.checks at h ⊢
  simp only [Bool.and_eq_true] at h
  rcases hinput.status with hs | hs | ⟨hs, hgrace⟩
  · simp [Subscription.lifecycle, hs, h.1.1.1.1, h.1.1.1.2]
  · simp [Subscription.lifecycle, hs, h.1.1.1.1, h.1.1.1.2]
  · simp [Subscription.lifecycle, hs, h.1.1.1.1, h.1.1.1.2, hgrace]

theorem valid_lifecycle (h : env.validPlanAndSeats r = true) (hopen : r.endedAt = none) :
    env.validPlanAndSeats (r.lifecycle input) = true := by
  unfold Env.validPlanAndSeats at h ⊢
  obtain ⟨p, hp, h⟩ := (Option.any_eq_true _ _).mp h
  rw [hopen] at h
  simp only [Option.isSome_none, Bool.false_or, Bool.and_eq_true, decide_eq_true_eq] at h
  show (env.plans.find? r.plan).any _ = true
  rw [hp]
  simp [Subscription.lifecycle, h.1.1, h.1.2, h.2]

theorem endedAt_lifecycle : (r.lifecycle input).endedAt = none ↔ input.status ≠ .canceled := by
  unfold Subscription.lifecycle
  by_cases hs : input.status = .canceled
  · simp [hs]
  · simp [hs]

theorem accepts_lifecycle (hown : env.Own x) (he : OneSubscription x c e) (hinput : OfEvent e input)
    (h : ShowsCurrent env x c s q r) :
    env.accepts s.ended (r.lifecycle input) = true ↔
      (input.status ≠ .canceled ∨ env.hasFreePlan = true) := by
  have hsub : (r.lifecycle input).providerSubscriptionId = some x := by
    show (input.providerSubscriptionId <|> _) = some x
    rw [hinput.subscription]
    exact subscription_orElse he _
  rw [accepts_iff hown hsub, endedAt_lifecycle]
  constructor
  · exact fun hall => hall.2.1
  · intro hfree
    refine ⟨valid_lifecycle h.valid h.open_, hfree, checks_lifecycle hinput h.checks, ?_⟩
    intro o ho hx
    show o.provider ≠ r.provider
    cases hq : q.provided with
    | true =>
      rw [h.provider hq]
      exact h.apart o ho hx
    | false => exact absurd hx ((h.unprovided hq).2 o ho)

theorem shows_status (he : OneSubscription x c e) (hinput : OfEvent e input)
    (hstatus : input.status ≠ .canceled) (h : ShowsCurrent env x c s q r) :
    ShowsCurrent env x c { s with current := some (r.lifecycle input) }
      { q with status := input.status, seen := some e.time } (r.lifecycle input) where
  current := rfl
  status := rfl
  plan := h.plan
  seats := h.seats
  seen := congrArg some hinput.createdAt
  open_ := endedAt_lifecycle.mpr hstatus
  valid := valid_lifecycle h.valid h.open_
  checks := checks_lifecycle hinput h.checks
  subscription := by
    show (input.providerSubscriptionId <|> _) = none ∨ (input.providerSubscriptionId <|> _) = some x
    rw [hinput.subscription, subscription_orElse he]
    exact Or.inr rfl
  customer := by
    show (input.providerCustomerId <|> _) = none ∨ (input.providerCustomerId <|> _) = some c
    rw [hinput.customer]
    exact customer_orElse he h.customer
  provider := h.provider
  unprovided := h.unprovided
  apart := h.apart

theorem shows_cancel (he : OneSubscription x c e) (hinput : OfEvent e input)
    (hstatus : input.status = .canceled) (h : ShowsCurrent env x c s q r) :
    ShowsEnded x { s with current := none, ended := r.lifecycle input :: s.ended } q.plan q.seats
      q.provided (r.lifecycle input) s.ended where
  current := rfl
  ended := rfl
  status := hstatus
  plan := h.plan
  seats := h.seats
  subscription := by
    show (input.providerSubscriptionId <|> _) = some x
    rw [hinput.subscription]
    exact subscription_orElse he _
  provider := by
    show q.provided = true ↔ r.provider = "stripe"
    constructor
    · exact h.provider
    · intro hstripe
      by_contra hq
      exact (h.unprovided (Bool.eq_false_of_not_eq_true hq)).1 hstripe
  apart := h.apart

theorem lifecycle_shows {invoice : Bool} (hown : env.Own x) (he : OneSubscription x c e)
    (hinput : OfEvent e input) (hs : Shows env x c ended s a) :
    Shows env x c ended (s.finish e (lifecycleResult env input invoice s))
      (a.apply e.time (if invoice && env.organizationDeleted then .nothing
        else if input.status = .canceled then if env.hasFreePlan then .cancel else .nothing
        else .status input.status)) := by
  unfold lifecycleResult
  split
  · rw [apply_nothing]
    exact shows_refused hs
  · unfold applyLifecycleEvent
    cases hs with
    | absent hcurrent hrows =>
      rw [hcurrent]
      have hsame : ∀ y : Effect, y.isUpdate = false → State.absent.apply e.time y = .absent := by
        intro y hy
        cases y with
        | update => cases hy
        | nothing | status | cancel => rfl
      rw [hsame _ (by split_ifs <;> rfl)]
      exact shows_accepted (.absent hcurrent hrows)
    | ended plan seats provided r rest h =>
      rw [h.current]
      have hsame : ∀ y : Effect, y.isUpdate = false →
          (State.ended plan seats provided).apply e.time y = .ended plan seats provided := by
        intro y hy
        cases y with
        | update => cases hy
        | nothing | status | cancel => rfl
      rw [hsame _ (by split_ifs <;> rfl)]
      exact shows_accepted (.ended plan seats provided r rest h)
    | current q r h =>
      rw [h.current]
      have hsub : differs input.providerSubscriptionId r.providerSubscriptionId = false :=
        differs_eq_false (Or.inr (hinput.subscription.trans he.subscription)) h.subscription rfl
      have hcust : differs input.providerCustomerId r.providerCustomerId = false :=
        differs_eq_false (hinput.customer ▸ he.customer) h.customer rfl
      dsimp only
      rw [hsub, hcust, Bool.or_false, if_neg Bool.false_ne_true, hinput.createdAt, stale_eq h]
      show Shows env x c ended _ (if q.stale e.time = true then State.current q else q.apply e.time _)
      split
      · exact shows_accepted (.current q r h)
      · have haccepts := accepts_lifecycle hown he hinput h
        unfold Store.replaceCurrent
        by_cases hcanceled : input.status = .canceled
        · have hended : (r.lifecycle input).endedAt.isSome = true := by
            rw [Option.isSome_iff_ne_none, Ne, endedAt_lifecycle]
            exact fun hno => hno hcanceled
          rw [hended, if_pos rfl, if_pos hcanceled]
          by_cases hfree : env.hasFreePlan = true
          · rw [if_pos (haccepts.mpr (Or.inr hfree)), if_pos hfree]
            exact shows_accepted (.ended _ _ _ _ _ (shows_cancel he hinput hcanceled h))
          · rw [if_neg fun hall => (haccepts.mp hall).elim (fun hno => hno hcanceled) hfree,
              if_neg hfree]
            exact shows_refused (.current q r h)
        · have hopen : (r.lifecycle input).endedAt = none := endedAt_lifecycle.mpr hcanceled
          rw [if_pos (haccepts.mpr (Or.inl hcanceled)), hopen, if_neg hcanceled]
          exact shows_accepted (.current _ _ (shows_status he hinput hcanceled h))

/-- **Delivery**: an event handled alone does to the rows what it does to the state. -/
theorem deliver_shows (hown : env.Own x) (he : OneSubscription x c e)
    (hended : ∀ o ∈ ended, o.providerSubscriptionId ≠ some x) (io : Io)
    (hs : Shows env x c ended s a) :
    Shows env x c ended (deliver env io e s) (step StripeEvent.time (effectOf env) e a) := by
  unfold deliver step effectOf
  rw [operation_now he.created]
  have hkind := operation_kind env e
  generalize operation env 0 e = op at hkind
  cases hkind with
  | ignored | rejected =>
    rw [apply_nothing]
    exact shows_refused hs
  | cancel => exact lifecycle_shows hown he ⟨rfl, rfl, rfl, Or.inl rfl⟩ hs
  | failed until_ =>
    exact lifecycle_shows hown he ⟨rfl, rfl, rfl, Or.inr (Or.inr ⟨rfl, rfl⟩)⟩ hs
  | paid => exact lifecycle_shows hown he ⟨rfl, rfl, rfl, Or.inr (Or.inl rfl)⟩ hs
  | update plan seats interval =>
    dsimp only
    cases hselect : env.selectPlan plan seats with
    | false =>
      rw [Bool.false_and, if_neg Bool.false_ne_true, apply_nothing, Bool.not_false, Bool.true_or,
        if_pos rfl]
      exact shows_refused hs
    | true =>
      rw [Bool.true_and, Bool.not_true, Bool.false_or]
      exact update_shows hown he hselect hs hended

end CalmBoard.Billing
