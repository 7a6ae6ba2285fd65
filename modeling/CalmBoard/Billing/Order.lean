import CalmBoard.Billing.Delivery

/-!
# CalmBoard.Billing.Order — events in any order

* `proceed_delivers`: a statement leaves the subscription alone or delivers an event, if the row that
  was read is still the current one.
* `order_independent`: where that holds and every event is harmless when it is handled, the outcome
  is that of the handled events once each in the order of their times.
* `out_of_order`: three runs that end elsewhere.
-/

namespace CalmBoard.Billing

open Replay Sessions

/-- Before the first event of the subscription: the organization has the row it was created with, or
none, and rows of other subscriptions that have ended. -/
structure Fresh (env : Env) (x : String) (s : Store) : Prop where
  handled : s.handled = []
  open_ : ∀ r, s.current = some r → r.endedAt = none
  internal : ∀ r, s.current = some r → r.provider ≠ "stripe" ∧ r.providerCustomerId = none ∧
    r.providerSubscriptionId = none ∧ r.providerEventCreatedAt = none
  valid : ∀ r, s.current = some r → env.validPlanAndSeats r = true ∧ r.checks = true
  ended : ∀ r ∈ s.ended, r.providerSubscriptionId ≠ some x

def Store.state (s : Store) : State :=
  match s.current with
  | none => .absent
  | some r => .current ⟨r.status, r.plan, r.seats, none, false⟩

variable {env : Env} {x c : String} {E : List StripeEvent} {init s s' : Store} {l l' : Local} {io : Io}
  {e : StripeEvent}

theorem shows_state (h : Fresh env x s) : Shows env x c s.ended s s.state := by
  unfold Store.state
  cases hcurrent : s.current with
  | none => exact .absent hcurrent rfl
  | some r =>
    obtain ⟨hprovider, hcustomer, hsub, hseen⟩ := h.internal r hcurrent
    obtain ⟨hvalid, hchecks⟩ := h.valid r hcurrent
    exact .current _ r
      { current := hcurrent, status := rfl, plan := rfl, seats := rfl, seen := hseen
        open_ := h.open_ r hcurrent, valid := hvalid, checks := hchecks
        subscription := Or.inl hsub, customer := Or.inl hcustomer
        provider := fun hq => (by cases hq)
        unprovided := fun _ => ⟨hprovider, h.ended⟩
        apart := fun o ho hx => absurd hx (h.ended o ho) }

theorem before_state (t : ℤ) : s.state.Before t := by
  unfold Store.state
  cases s.current with
  | none => trivial
  | some r =>
    intro t' ht'
    cases ht'

theorem provided_state : s.state.provided = false := by
  unfold Store.state
  cases s.current <;> rfl

/-! ### Statements -/

def Local.isStopped : Local → Bool
  | .stopped => true
  | _ => false

/-- The event that the next statement is the last one of. -/
def Local.handles (env : Env) (io : Io) (s : Store) : Local → Option StripeEvent
  | .called e => if (start env io e s).2.isStopped then some e else none
  | .holding e _ _ _ _ | .locked e _ _ _ => some e
  | _ => none

/-- What was read as the current subscription still is. -/
def Local.Reads (s : Store) : Local → Prop
  | .holding _ _ _ _ current => s.current = current
  | _ => True

instance (s : Store) : ∀ l : Local, Decidable (l.Reads s)
  | .holding _ _ _ _ current => inferInstanceAs (Decidable (s.current = current))
  | .called _ | .writing .. | .locked .. | .stopped => .isTrue trivial

/-- The local state comes from an event of the list. -/
def Local.Of (env : Env) (E : List StripeEvent) : Local → Prop
  | .called e => e ∈ E
  | .writing e plan seats o current | .holding e plan seats o current =>
    e ∈ E ∧ operation env 0 e = .update plan seats o ∧ env.selectPlan plan seats = true ∧
      stale current o.providerEventCreatedAt = false
  | .locked e input invoice _ => e ∈ E ∧ operation env 0 e = .lifecycle input invoice
  | .stopped => True

theorem start_delivers (he : e ∈ E) (hcreated : (dateFromUnixSeconds e.created).isSome = true) :
    (start env io e s).2.Of env E ∧
      ((start env io e s).1 = s ∧ (start env io e s).2.isStopped = false ∨
        (start env io e s).1 = deliver env io e s ∧ (start env io e s).2.isStopped = true) := by
  unfold start deliver
  rw [operation_now hcreated]
  cases hop : operation env 0 e with
  | ignored | rejected => exact ⟨trivial, Or.inr ⟨rfl, rfl⟩⟩
  | lifecycle input invoice =>
    dsimp only
    cases hcurrent : s.current with
    | none => exact ⟨trivial, Or.inr ⟨rfl, rfl⟩⟩
    | some r => exact ⟨⟨he, hop⟩, Or.inl ⟨rfl, rfl⟩⟩
  | update plan seats o =>
    dsimp only
    split
    · exact ⟨trivial, Or.inr ⟨rfl, rfl⟩⟩
    · next hgoes =>
      rw [Bool.or_eq_true, not_or, Bool.not_eq_true', Bool.not_eq_false, Bool.not_eq_true] at hgoes
      exact ⟨⟨he, hop, hgoes.1, hgoes.2⟩, Or.inl ⟨rfl, rfl⟩⟩

theorem proceed_delivers (hE : ∀ e ∈ E, (dateFromUnixSeconds e.created).isSome = true)
    (hl : l.Of env E) (hreads : l.Reads s) (h : proceed env io s l = some (s', l')) :
    l'.Of env E ∧ (s' = s ∨ ∃ e ∈ E, l.handles env io s = some e ∧ s' = deliver env io e s) := by
  cases l with
  | called e =>
    have hstart : start env io e s = (s', l') := Option.some.inj h
    have hcases := @start_delivers env E s io e hl (hE e hl)
    rw [hstart] at hcases
    obtain ⟨hof, ⟨rfl, -⟩ | ⟨rfl, hstops⟩⟩ := hcases
    · exact ⟨hof, Or.inl rfl⟩
    · refine ⟨hof, Or.inr ⟨e, hl, ?_, rfl⟩⟩
      show (if (start env io e s).2.isStopped = true then some e else none) = some e
      rw [hstart, if_pos hstops]
  | writing e plan seats o current =>
    cases h
    exact ⟨hl, Or.inl rfl⟩
  | holding e plan seats o current =>
    cases h
    obtain ⟨he, hop, hselect, hstale⟩ := hl
    obtain rfl : s.current = current := hreads
    refine ⟨trivial, Or.inr ⟨e, he, rfl, ?_⟩⟩
    unfold deliver
    rw [operation_now (hE e he), hop]
    dsimp only
    rw [hselect, hstale]
    rfl
  | locked e input invoice id =>
    cases h
    obtain ⟨he, hop⟩ := hl
    refine ⟨trivial, Or.inr ⟨e, he, rfl, ?_⟩⟩
    unfold deliver
    rw [operation_now (hE e he), hop]
  | stopped => cases h

/-! ### Runs -/

/-- The event that ends with the statement is harmless now, and what was read as the current
subscription still is. -/
def Unhurried (env : Env) (init : Store) (s : Store) (l : Local) : Action → Prop
  | .crash => True
  | .next io => l.Reads s ∧ ∀ e, l.handles env io s = some e →
      Harmless StripeEvent.time (effectOf env) init.state s.handled e

instance (env : Env) (init s : Store) (l : Local) : ∀ a, Decidable (Unhurried env init s l a)
  | .crash => .isTrue trivial
  | .next _ => inferInstanceAs (Decidable (_ ∧ ∀ _, _ → _))

/-- Only events of the list are delivered, and each is handled unhurried. -/
def Careful (env : Env) (init : Store) (E : List StripeEvent) (w : World Store Local) :
    Event StripeEvent Action → Prop
  | .enter e => e ∈ E
  | .act i a => w.Meets (Unhurried env init) (.act i a : Event StripeEvent Action)

instance (env : Env) (init : Store) (E : List StripeEvent) (w : World Store Local) :
    ∀ ev, Decidable (Careful env init E w ev)
  | .enter e => inferInstanceAs (Decidable (e ∈ E))
  | .act i a => inferInstanceAs (Decidable (w.Meets (Unhurried env init) (.act i a : Event StripeEvent Action)))

theorem harmless_congr {a : State} {D D' : List StripeEvent} (hD : ∀ d, d ∈ D ↔ d ∈ D') :
    Harmless StripeEvent.time (effectOf env) a D e ↔
      Harmless StripeEvent.time (effectOf env) a D' e := by
  unfold Harmless MayBeLate Overwritten Repeats Closed EndsAnyway Unheard
  simp only [hD]

/-- The rows show the state that the handled events lead to in order. -/
structure InOrder (env : Env) (x c : String) (E : List StripeEvent) (init : Store)
    (w : World Store Local) : Prop where
  locals : ∀ (i : ℕ) (l : Local), w.sessions[i]? = some l → l.Of env E
  handled : ∀ e ∈ w.store.handled, e ∈ E
  shows_ : Shows env x c init.ended w.store
    (replay (step StripeEvent.time (effectOf env)) init.state
      (ordered StripeEvent.time w.store.handled))

theorem handled_deliver : (deliver env io e s).handled = s.handled ++ [e] := by
  unfold deliver
  split
  · rfl
  · rfl
  · rfl
  · split <;> rfl

variable {w w' : World Store Local} {ev : Event StripeEvent Action}

theorem InOrder.step (hown : env.Own x) (hE : ∀ e ∈ E, OneSubscription x c e)
    (hdistinct : ∀ a ∈ E, ∀ b ∈ E, a.time = b.time → a = b) (hinit : Fresh env x init)
    (h : InOrder env x c E init w) (hg : Careful env init E w ev)
    (hok : Sessions.step (program env) ev w = .ok w') : InOrder env x c E init w' := by
  cases ev with
  | enter call =>
    cases hok
    refine ⟨fun i l hl => ?_, h.handled, h.shows_⟩
    rcases getElem?_enter hl with hl | ⟨-, rfl⟩
    · exact h.locals i l hl
    · exact hg
  | act k a =>
    obtain ⟨l, l', s, hl, hmove, -, rfl⟩ := step_act hok
    have hguard : Unhurried env init w.store l a := by
      change w.Meets (Unhurried env init) (.act k a : Event StripeEvent Action) at hg
      unfold World.Meets at hg
      simpa only [hl] using hg
    have hlocals : Local.Of env E l' → ∀ (i : ℕ) (m : Local),
        (w.sessions.set k l')[i]? = some m → m.Of env E := by
      intro hof i m hm
      rcases getElem?_act hm with ⟨-, hm⟩ | ⟨-, rfl⟩
      · exact h.locals i m hm
      · exact hof
    cases a with
    | crash =>
      cases hmove
      exact ⟨hlocals trivial, h.handled, h.shows_⟩
    | next io =>
      have hproceed : proceed env io w.store l = some (s, l') := hmove
      obtain ⟨hof, rfl | ⟨e, he, hhandles, rfl⟩⟩ :=
        proceed_delivers (fun e he => (hE e he).created) (h.locals k l hl) hguard.1 hproceed
      · exact ⟨hlocals hof, h.handled, h.shows_⟩
      · have hmem : ∀ d, d ∈ w.store.handled ↔ d ∈ ordered StripeEvent.time w.store.handled :=
          fun d => mem_ordered.symm
        have hincreasing : Increasing StripeEvent.time
            (ordered StripeEvent.time w.store.handled) :=
          increasing_ordered fun a ha b hb => hdistinct a (h.handled a ha) b (h.handled b hb)
        refine ⟨hlocals hof, fun d hd => ?_, ?_⟩
        · rw [handled_deliver, List.mem_append, List.mem_singleton] at hd
          rcases hd with hd | rfl
          · exact h.handled d hd
          · exact he
        · show Shows env x c init.ended (deliver env io e w.store) _
          rw [handled_deliver, ordered_concat, ← step_insertOnce before_state provided_state
            hincreasing (fun d hd => hdistinct d (h.handled d ((hmem d).mpr hd)) e he)
            ((harmless_congr hmem).mp (hguard.2 e hhandles))]
          exact deliver_shows hown (hE e he) hinit.ended io h.shows_

theorem inOrder_closed (hinit : Fresh env x init) :
    InOrder env x c E init (World.closed init) := by
  refine ⟨fun _ _ hl => (by cases hl), fun e he => ?_, ?_⟩
  · rw [show (World.closed init : World Store Local).store.handled = [] from hinit.handled] at he
    cases he
  · show Shows env x c init.ended init (replay _ _ (ordered _ init.handled))
    rw [hinit.handled]
    exact shows_state hinit

theorem replay_shows (hown : env.Own x) (hinit : Fresh env x init) {D : List StripeEvent}
    (hD : ∀ e ∈ D, OneSubscription x c e) :
    Shows env x c init.ended (replay (deliver env {}) init D)
      (replay (step StripeEvent.time (effectOf env)) init.state D) := by
  induction D using List.reverseRecOn with
  | nil => exact shows_state hinit
  | append_singleton D e ih =>
    rw [replay_append, replay_append]
    exact deliver_shows hown (hD e (List.mem_append_right _ List.mem_cons_self)) hinit.ended {}
      (ih fun d hd => hD d (List.mem_append_left _ hd))

/-- **Order of events**: for events of one subscription with times of their own, delivered in any
order, any number of times and interleaved: where each is harmless among those handled before it,
and no update writes over a row that has changed since it was read, the outcome at any time is that
of the handled events applied once each in the order of their times. -/
theorem order_independent (env : Env) (x c : String) (E : List StripeEvent) (init : Store)
    (hown : env.Own x) (hE : ∀ e ∈ E, OneSubscription x c e)
    (hdistinct : ∀ a ∈ E, ∀ b ∈ E, a.time = b.time → a = b) (hinit : Fresh env x init)
    (events : List (Event StripeEvent Action))
    (hg : Runs.Guarded (Sessions.step (program env)) (Careful env init E) (World.closed init)
      events) :
    (run (program env) (World.closed init) events).store.outcome =
      (replay (deliver env {}) init (ordered StripeEvent.time
        (run (program env) (World.closed init) events).store.handled)).outcome := by
  have hw : InOrder env x c E init (run (program env) (World.closed init) events) :=
    Runs.run_induction
      (fun _ _ _ hw hmeets hok => hw.step hown hE hdistinct hinit hmeets hok) events _
      (inOrder_closed hinit) hg
  refine outcome_eq hw.shows_ (replay_shows hown hinit fun e he => ?_)
  exact hE e (hw.handled e (mem_ordered.mp he))

/-! An organization on the free plan takes out the team plan, changes to the business plan, pays, and
ends the subscription. -/

def sampleEnv : Env where
  plans := ⟨[{ key := .free, minSeats := 1, maxSeats := 3 },
    { key := .team, minSeats := 1, maxSeats := 25 },
    { key := .business, minSeats := 1, maxSeats := 100 }], by decide⟩

def sampleStore : Store where
  current := some { id := 1, plan := .free, currentPeriodStart := 0, currentPeriodEnd := 1000 }
  ended := []
  handled := []

def sampleEvent (type : EventType) (created : ℕ) (planId : String) (seats : ℕ) : StripeEvent where
  type
  created := some created
  customer := some "cus"
  subscription := some "sub"
  planId := some planId
  seats := .fin seats

def checkout : StripeEvent := sampleEvent .checkoutSessionCompleted 100 "team" 5
def change : StripeEvent := sampleEvent .subscriptionUpdated 200 "business" 10
def payment : StripeEvent := sampleEvent .invoicePaid 300 "business" 10
def cancellation : StripeEvent := sampleEvent .subscriptionDeleted 400 "business" 10

/-- An event is delivered in the given session and handled to the end. -/
def handle (i : ℕ) (e : StripeEvent) : List (Event StripeEvent Action) :=
  .enter e :: List.replicate 3 (.act i (.next {}))

/-- The outcome of a run, and that of its events in order. -/
def outcomes (events : List (Event StripeEvent Action)) : Option Outcome × Option Outcome :=
  let s := (run (program sampleEnv) (World.closed sampleStore) events).store
  (s.outcome, (replay (deliver sampleEnv {}) sampleStore (ordered StripeEvent.time s.handled)).outcome)

theorem out_of_order :
    -- the change comes after the payment
    outcomes (handle 0 checkout ++ handle 1 payment ++ handle 2 change) =
      (some ⟨true, .active, .team, 5⟩, some ⟨true, .active, .business, 10⟩) ∧
    -- the checkout comes after the cancellation
    outcomes (handle 0 cancellation ++ handle 1 checkout) =
      (some ⟨true, .active, .team, 5⟩, some ⟨false, .canceled, .team, 5⟩) ∧
    -- the cancellation commits while the change is written
    outcomes (handle 0 checkout ++ [.enter change, .act 1 (.next {})] ++ handle 2 cancellation ++
        List.replicate 2 (.act 1 (.next {}))) =
      (some ⟨false, .active, .business, 10⟩, some ⟨false, .canceled, .business, 10⟩) := by
  decide +kernel

/-- The change comes after a later change, the payment after the cancellation, and the checkout
twice. -/
def sampleEvents : List (Event StripeEvent Action) :=
  handle 0 checkout ++ handle 1 (sampleEvent .subscriptionUpdated 250 "team" 7) ++ handle 2 change ++
    handle 3 cancellation ++ handle 4 payment ++ handle 5 checkout

theorem order_independent_sample :
    (run (program sampleEnv) (World.closed sampleStore) sampleEvents).store.outcome =
      (replay (deliver sampleEnv {}) sampleStore (ordered StripeEvent.time
        (run (program sampleEnv) (World.closed sampleStore) sampleEvents).store.handled)).outcome := by
  refine order_independent sampleEnv "sub" "cus"
    [checkout, change, sampleEvent .subscriptionUpdated 250 "team" 7, payment, cancellation]
    sampleStore ?_ ?_ (by decide +kernel) ?_ sampleEvents (by decide +kernel)
  · intro p hp
    cases hp
  · intro e he
    simp only [List.mem_cons, List.not_mem_nil, or_false] at he
    rcases he with rfl | rfl | rfl | rfl | rfl <;> exact ⟨rfl, rfl, Or.inr rfl, rfl, by decide⟩
  · exact
      { handled := rfl
        open_ := by rintro r ⟨⟩; rfl
        internal := by rintro r ⟨⟩; decide
        valid := by rintro r ⟨⟩; decide
        ended := fun r hr => (by cases hr) }

end CalmBoard.Billing
