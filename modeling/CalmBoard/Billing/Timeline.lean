import CalmBoard.Billing.Subscriptions

/-!
# CalmBoard.Billing.Timeline — the life of one provider subscription

What events do to a subscription, without rows: an update sets its status, plan and seats, a
payment its status, and a cancellation ends it.

* `State.apply`: an event with its time.
* `apply_update`, `open_apply`, `provided_apply`, `keeps_apply`: what an event can change.
* `Done`: an event that has had its effect leaves the state alone.
-/

namespace CalmBoard.Billing

inductive Effect where
  | nothing
  | status (status : SubscriptionStatus)
  | cancel
  | update (status : SubscriptionStatus) (plan : BillingPlan) (seats : ℕ)
  deriving DecidableEq

/-- A current subscription; `seen` is the time of its last event, `provided` says that an update has
given it to the provider. -/
structure Row where
  status : SubscriptionStatus
  plan : BillingPlan
  seats : ℕ
  seen : Option ℤ
  provided : Bool
  deriving DecidableEq

inductive State where
  | absent
  | current (r : Row)
  | ended (plan : BillingPlan) (seats : ℕ) (provided : Bool)
  deriving DecidableEq

/-- The row has seen an event after `t`. -/
def Row.stale (r : Row) (t : ℤ) : Bool := r.seen.any fun t' => t < t'

/-- An event on a current subscription that has seen nothing newer. -/
def Row.apply (t : ℤ) (r : Row) : Effect → State
  | .nothing => .current r
  | .status st => .current { r with status := st, seen := some t }
  | .cancel => .ended r.plan r.seats r.provided
  | .update st plan seats => .current ⟨st, plan, seats, some t, true⟩

/-- An event where there is no current subscription; an update starts one, unless the provider's
subscription has ended. -/
def Effect.start (t : ℤ) (s : State) (provided : Bool) : Effect → State
  | .update st plan seats => if provided then s else .current ⟨st, plan, seats, some t, true⟩
  | _ => s

def State.apply (t : ℤ) (x : Effect) : State → State
  | .absent => x.start t .absent false
  | .current r => if r.stale t then .current r else r.apply t x
  | .ended plan seats provided => x.start t (.ended plan seats provided) provided

def State.provided : State → Bool
  | .absent => false
  | .current r => r.provided
  | .ended _ _ provided => provided

/-- Nothing has been seen from the time `t` on. -/
def State.Before (t : ℤ) : State → Prop
  | .current r => ∀ t', r.seen = some t' → t' < t
  | _ => True

def Effect.isUpdate : Effect → Bool
  | .update .. => true
  | _ => false

variable {s : State} {x y : Effect} {t u : ℤ} {r : Row}

@[simp] theorem apply_nothing : s.apply t .nothing = s := by
  cases s with
  | absent | ended => rfl
  | current r =>
    show (if r.stale t then State.current r else State.current r) = _
    exact ite_self _

theorem not_stale (h : (State.current r).Before t) : r.stale t = false := by
  unfold Row.stale
  rw [Option.any_eq_false]
  intro t' ht'
  have := h t' ht'
  rw [decide_eq_false_iff_not]
  omega

theorem apply_current (h : (State.current r).Before t) :
    (State.current r).apply t x = r.apply t x := by
  show (if r.stale t then State.current r else r.apply t x) = _
  rw [not_stale h, if_neg Bool.false_ne_true]

theorem before_apply (h : s.Before t) (htu : t < u) : (s.apply t x).Before u := by
  have hmono : s.Before u := by
    cases s with
    | absent | ended => trivial
    | current r => exact fun t' ht' => (h t' ht').trans htu
  have hstart : ∀ s' provided, State.Before u s' → (x.start t s' provided).Before u := by
    intro s' provided hs'
    cases x with
    | update st plan seats =>
      show State.Before u (if provided = true then s' else _)
      split
      · exact hs'
      · rintro t' ⟨⟩
        exact htu
    | nothing | status | cancel => exact hs'
  cases s with
  | absent => exact hstart _ _ trivial
  | ended plan seats provided => exact hstart _ _ trivial
  | current r =>
    rw [apply_current h]
    cases x with
    | nothing => exact hmono
    | status st =>
      rintro t' ⟨⟩
      exact htu
    | cancel => trivial
    | update st plan seats =>
      rintro t' ⟨⟩
      exact htu

theorem provided_apply (h : s.provided = true) : (s.apply t x).provided = true := by
  cases s with
  | absent => cases h
  | ended plan seats provided =>
    obtain rfl : provided = true := h
    cases x <;> rfl
  | current r =>
    show (if r.stale t then State.current r else r.apply t x).provided = true
    split
    · exact h
    · cases x with
      | nothing | status | cancel => exact h
      | update => rfl

theorem provided_apply_iff (hx : x.isUpdate = false) : (s.apply t x).provided = s.provided := by
  cases s with
  | absent | ended =>
    cases x with
    | update => cases hx
    | nothing | status | cancel => rfl
  | current r =>
    show (if r.stale t then State.current r else r.apply t x).provided = r.provided
    split
    · rfl
    · cases x with
      | update => cases hx
      | nothing | status | cancel => rfl

/-! ### What an event can change -/

variable {plan : BillingPlan}

theorem apply_agree {r r' : Row} (hplan : r.plan = r'.plan) (hseats : r.seats = r'.seats)
    (hprovided : r.provided = r'.provided) (hr : (State.current r).Before t)
    (hr' : (State.current r').Before t) (hx : x ≠ .nothing) :
    (State.current r).apply t x = (State.current r').apply t x := by
  rw [apply_current hr, apply_current hr']
  cases x with
  | nothing => exact absurd rfl hx
  | status st =>
    show State.current { r with status := st, seen := some t } =
      State.current { r' with status := st, seen := some t }
    rw [hplan, hseats, hprovided]
  | cancel =>
    show State.ended r.plan r.seats r.provided = State.ended r'.plan r'.seats r'.provided
    rw [hplan, hseats, hprovided]
  | update st plan seats => rfl

/-- An update is heard. -/
def State.Open : State → Prop
  | .ended _ _ provided => provided = false
  | _ => True

theorem apply_update (ho : s.Open) (h : s.Before t) (st : SubscriptionStatus) (plan : BillingPlan)
    (seats : ℕ) : s.apply t (.update st plan seats) = .current ⟨st, plan, seats, some t, true⟩ := by
  cases s with
  | absent => rfl
  | current r => exact apply_current h
  | ended plan' seats' provided =>
    obtain rfl : provided = false := ho
    rfl

theorem open_apply (ho : s.Open) (h : s.Before t) (hx : x ≠ .cancel) : (s.apply t x).Open := by
  cases x with
  | nothing => rwa [apply_nothing]
  | cancel => exact absurd rfl hx
  | update st plan seats =>
    rw [apply_update ho h]
    trivial
  | status st =>
    cases s with
    | absent => trivial
    | ended plan seats provided => exact ho
    | current r =>
      rw [apply_current h]
      trivial

theorem open_of_unprovided (h : s.provided = false) : s.Open := by
  cases s with
  | absent | current => trivial
  | ended plan seats provided => exact h

/-- The last update has set the plan and the seats, unless the subscription has ended. -/
def State.Holds (plan : BillingPlan) (seats : ℕ) : State → Prop
  | .absent => False
  | .current r => r.plan = plan ∧ r.seats = seats ∧ r.provided = true
  | .ended _ _ provided => provided = true

theorem holds_update {st : SubscriptionStatus} {seats : ℕ} (h : s.Before t) :
    (s.apply t (.update st plan seats)).Holds plan seats := by
  by_cases ho : s.Open
  · rw [apply_update ho h]
    exact ⟨rfl, rfl, rfl⟩
  · cases s with
    | absent | current => exact absurd trivial ho
    | ended plan' seats' provided =>
      obtain rfl : provided = true := by simpa [State.Open] using ho
      exact rfl

theorem holds_apply {seats : ℕ} (h : s.Holds plan seats) (hx : x.isUpdate = false) :
    (s.apply t x).Holds plan seats := by
  cases s with
  | absent => cases h
  | ended plan' seats' provided =>
    obtain rfl : provided = true := h
    cases x <;> exact rfl
  | current r =>
    show State.Holds plan seats (if r.stale t then State.current r else r.apply t x)
    split
    · exact h
    · cases x with
      | update => cases hx
      | nothing | status => exact h
      | cancel => exact h.2.2

theorem provided_update (h : s.Before t) (hx : x.isUpdate = true) : (s.apply t x).provided = true := by
  cases x with
  | nothing | status | cancel => cases hx
  | update st plan seats =>
    have hholds : (s.apply t (.update st plan seats)).Holds plan seats := holds_update h
    cases hs : s.apply t (.update st plan seats) with
    | absent =>
      rw [hs] at hholds
      cases hholds
    | current r =>
      rw [hs] at hholds
      exact hholds.2.2
    | ended plan' seats' provided =>
      rw [hs] at hholds
      exact hholds

/-- The provider's subscription has ended. -/
def State.Over (s : State) : Prop := ∃ plan seats, s = .ended plan seats true

theorem over_cancel (h : s.Before t) (hp : s.provided = true) : (s.apply t .cancel).Over := by
  cases s with
  | absent => cases hp
  | current r =>
    rw [apply_current h]
    exact ⟨r.plan, r.seats, congrArg _ hp⟩
  | ended plan seats provided =>
    obtain rfl : provided = true := hp
    exact ⟨plan, seats, rfl⟩

/-- The row is current, or was cancelled as it is. -/
def State.Keeps (r : Row) : State → Prop
  | .absent => False
  | .current r' => r'.plan = r.plan ∧ r'.seats = r.seats ∧ r'.provided = r.provided
  | .ended plan seats provided => plan = r.plan ∧ seats = r.seats ∧ provided = r.provided

theorem keeps_apply {r : Row} (h : s.Keeps r) (hx : x.isUpdate = false) : (s.apply t x).Keeps r := by
  cases x with
  | update => cases hx
  | nothing => rwa [apply_nothing]
  | status st =>
    cases s with
    | absent | ended => exact h
    | current r' =>
      show State.Keeps r (if r'.stale t then _ else _)
      split
      · exact h
      · exact h
  | cancel =>
    cases s with
    | absent | ended => exact h
    | current r' =>
      show State.Keeps r (if r'.stale t then _ else _)
      split
      · exact h
      · exact h

theorem keeps_cancel {r : Row} (h : s.Keeps r) (hs : s.Before t) :
    s.apply t .cancel = .ended r.plan r.seats r.provided := by
  cases s with
  | absent => cases h
  | current r' =>
    obtain ⟨hplan, hseats, hprovided⟩ := h
    rw [apply_current hs, ← hplan, ← hseats, ← hprovided]
    rfl
  | ended plan seats provided =>
    obtain ⟨rfl, rfl, rfl⟩ := h
    rfl

def State.isCurrent : State → Bool
  | .current _ => true
  | _ => false

theorem isCurrent_cancel (h : s.Before t) : (s.apply t .cancel).isCurrent = false := by
  cases s with
  | absent | ended => rfl
  | current r =>
    rw [apply_current h]
    rfl

theorem isCurrent_apply (h : s.isCurrent = false) (hx : x.isUpdate = false) :
    (s.apply t x).isCurrent = false := by
  cases s with
  | current r => cases h
  | absent | ended =>
    cases x with
    | update => cases hx
    | nothing | status | cancel => rfl

/-! ### Events that have had their effect -/

/-- The event changes nothing, and an update has been heard. -/
def Done (t : ℤ) (x : Effect) (s : State) : Prop :=
  s.apply t x = s ∧ (x.isUpdate = true → s.provided = true)

theorem done_stale (h : r.stale t = true) (hp : x.isUpdate = true → r.provided = true) :
    Done t x (.current r) := ⟨if_pos h, hp⟩

theorem done_ended {seats : ℕ} {provided : Bool} (hp : x.isUpdate = true → provided = true) :
    Done t x (.ended plan seats provided) := by
  refine ⟨?_, hp⟩
  cases x with
  | update =>
    obtain rfl := hp rfl
    rfl
  | nothing | status | cancel => rfl

theorem done_apply (h : s.Before t) : Done t x (s.apply t x) := by
  have hseen : ∀ r : Row, r.seen = some t → ¬ r.stale t = true := by
    intro r hr
    unfold Row.stale
    rw [hr]
    simp
  have hstart : ∀ st plan seats, Done t (.update st plan seats)
      (.current ⟨st, plan, seats, some t, true⟩) := by
    intro st plan seats
    refine ⟨?_, fun _ => rfl⟩
    show (if Row.stale _ t = true then _ else _) = _
    rw [if_neg (hseen _ rfl)]
    rfl
  cases s with
  | absent =>
    cases x with
    | update st plan seats => exact hstart st plan seats
    | nothing | status | cancel => exact ⟨rfl, fun h => (by cases h)⟩
  | ended plan seats provided =>
    cases x with
    | update st plan' seats' =>
      cases provided with
      | true => exact done_ended fun _ => rfl
      | false => exact hstart st plan' seats'
    | nothing | status | cancel => exact done_ended fun h => (by cases h)
  | current r =>
    rw [apply_current h]
    cases x with
    | nothing => exact ⟨apply_nothing, fun h => (by cases h)⟩
    | status st =>
      refine ⟨?_, fun h => (by cases h)⟩
      show (if Row.stale _ t = true then _ else _) = _
      rw [if_neg (hseen _ rfl)]
      rfl
    | cancel => exact done_ended fun h => (by cases h)
    | update st plan seats => exact hstart st plan seats

theorem done_keeps (h : Done t x s) (htu : t < u) : Done t x (s.apply u y) := by
  have hstale : ∀ r : Row, r.seen = some u → r.stale t = true := by
    intro r hr
    unfold Row.stale
    rw [hr]
    simpa using htu
  have hstart : ∀ s' provided, s'.provided = provided → Done t x s' →
      Done t x (y.start u s' provided) := by
    intro s' provided hs' hdone
    cases y with
    | update st plan seats =>
      show Done t x (if provided = true then s' else _)
      split
      · exact hdone
      · exact done_stale (hstale _ rfl) fun _ => rfl
    | nothing | status | cancel => exact hdone
  cases s with
  | absent => exact hstart _ _ rfl h
  | ended plan seats provided => exact hstart _ _ rfl h
  | current r =>
    show Done t x (if r.stale u then State.current r else r.apply u y)
    split
    · exact h
    · cases y with
      | nothing => exact h
      | status st => exact done_stale (hstale _ rfl) h.2
      | cancel => exact done_ended h.2
      | update st plan seats => exact done_stale (hstale _ rfl) fun _ => rfl

end CalmBoard.Billing
