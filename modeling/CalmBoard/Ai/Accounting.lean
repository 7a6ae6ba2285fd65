import CalmBoard.Ai.Usage
import CalmBoard.Lib.Fallible
import Mathlib.Algebra.Order.BigOperators.Group.List
import Mathlib.Algebra.Order.Group.Int

/-!
# CalmBoard.Ai.Accounting — the counters of a month and its events

A call writes an event and the counters of its period in one statement.  The counters are sums over
the events: what a call adds to a sum, it adds to the counter.

* `balanced_call`: every call keeps the counters equal to the sums.
* `settled_stays`: an event that is no longer pending is never written again.
* `reserve_within_limits`: a reservation leaves the period within the limits.
* `accounts_balance`: all of it, after every sequence of calls.
-/

namespace CalmBoard.Ai

open Fallible

variable {s s' : Store} {key : PeriodKey} {e old : EventRow} {period : PeriodRow}

/-! ### Sums -/

/-- A counter of a period; a period without a row counts nothing. -/
def counter (s : Store) (field : PeriodRow → ℤ) (key : PeriodKey) : ℤ :=
  (s.periods.find? key).elim 0 field

def booked (s : Store) (w : EventRow → ℤ) (key : PeriodKey) : ℤ :=
  (s.events.rows.map fun e => if e.period = key then w e else 0).sum

/-- A column that counts for the events of one status. -/
def EventRow.weighIf (status : EventStatus) (column : EventRow → ℤ) (e : EventRow) : ℤ :=
  if e.status = status then column e else 0

variable {field : PeriodRow → ℤ} {w : EventRow → ℤ} {before : PeriodRow}

theorem booked_insert (w : EventRow → ℤ) (key : PeriodKey)
    (h : s.events.insert? e = some s'.events) :
    booked s' w key = booked s w key + if e.period = key then w e else 0 := by
  unfold booked
  rw [(Table.insert?_eq_some h).2, List.map_append, List.sum_append, List.map_singleton,
    List.sum_singleton]

theorem booked_put (w : EventRow → ℤ) (key : PeriodKey) (hold : s.events.find? e.id = some old)
    (hperiod : e.period = old.period) (h : s'.events = s.events.put e) :
    booked s' w key = booked s w key + if old.period = key then w e - w old else 0 := by
  unfold booked
  rw [h, Table.sum_put _ hold, hperiod]
  split
  · ring
  · ring

theorem counter_upsert (field : PeriodRow → ℤ) (key : PeriodKey)
    (h : s'.periods = s.periods.upsert period) :
    counter s' field key = if period.key = key then field period else counter s field key := by
  unfold counter
  rw [h, Table.find?_upsert]
  split <;> rfl

theorem counter_put (field : PeriodRow → ℤ) (key : PeriodKey)
    (hfind : s.periods.find? period.key = some before) (h : s'.periods = s.periods.put period) :
    counter s' field key = if period.key = key then field period else counter s field key := by
  unfold counter
  rw [h, Table.find?_put hfind]
  split <;> rfl

theorem balance_insert (hbalance : ∀ key, counter s field key = booked s w key)
    (hevents : s.events.insert? e = some s'.events) (hperiods : s'.periods = s.periods.upsert period)
    (hkey : period.key = e.period) (hfield : field period = counter s field e.period + w e) :
    ∀ key, counter s' field key = booked s' w key := by
  intro key
  rw [counter_upsert field key hperiods, booked_insert w key hevents, hkey]
  by_cases he : e.period = key
  · rw [if_pos he, if_pos he, hfield, hbalance, he]
  · rw [if_neg he, if_neg he, hbalance, add_zero]

theorem balance_put (hbalance : ∀ key, counter s field key = booked s w key)
    (hold : s.events.find? e.id = some old) (hperiod : e.period = old.period)
    (hevents : s'.events = s.events.put e) (hfind : s.periods.find? period.key = some before)
    (hperiods : s'.periods = s.periods.put period) (hkey : period.key = old.period)
    (hfield : field period = field before + (w e - w old)) :
    ∀ key, counter s' field key = booked s' w key := by
  intro key
  rw [counter_put field key hfind hperiods, booked_put w key hold hperiod hevents, hkey]
  by_cases he : old.period = key
  · have hbefore : counter s field key = field before := by
      rw [counter, ← he, ← hkey, hfind]
      rfl
    rw [if_pos he, if_pos he, hfield, ← hbalance, hbefore]
  · rw [if_neg he, if_neg he, hbalance, add_zero]

/-! ### The invariant -/

/-- The counters are the sums over the events of their period. -/
structure Balanced (s : Store) : Prop where
  requests : ∀ key, counter s PeriodRow.requestCount key = booked s (fun _ => 1) key
  reserved : ∀ key, counter s PeriodRow.reservedTokens key =
    booked s (EventRow.weighIf .pending EventRow.reservedTokens) key
  input : ∀ key, counter s PeriodRow.inputTokens key =
    booked s (EventRow.weighIf .completed EventRow.inputTokens) key
  output : ∀ key, counter s PeriodRow.outputTokens key =
    booked s (EventRow.weighIf .completed EventRow.outputTokens) key
  cost : ∀ key, counter s PeriodRow.estimatedCostMicrousd key =
    booked s (EventRow.weighIf .completed EventRow.estimatedCostMicrousd) key
  has_period : ∀ e ∈ s.events.rows, ∃ p, s.periods.find? e.period = some p
  nonneg : ∀ e ∈ s.events.rows, 0 ≤ e.reservedTokens

theorem Balanced.covers (h : Balanced s) (he : e ∈ s.events.rows) (hpending : e.status = .pending)
    (hfind : s.periods.find? e.period = some period) : e.reservedTokens ≤ period.reservedTokens := by
  have hsum : period.reservedTokens =
      booked s (EventRow.weighIf .pending EventRow.reservedTokens) e.period := by
    rw [← h.reserved, counter, hfind]
    rfl
  rw [hsum, booked]
  refine List.single_le_sum (fun x hx => ?_) _ (List.mem_map.mpr ⟨e, he, ?_⟩)
  · obtain ⟨f, hf, rfl⟩ := List.mem_map.mp hx
    have hnonneg := h.nonneg f hf
    unfold EventRow.weighIf
    split_ifs
    · exact hnonneg
    · exact le_rfl
    · exact le_rfl
  · rw [if_pos rfl, EventRow.weighIf, if_pos hpending]

/-! ### What a reservation writes -/

variable {now : Timestamptz} {tenant : Context}

theorem int8_ok {a b : ℤ} (h : int8 a = .ok b) : b = a := by
  unfold int8 at h
  split at h
  · cases h
    rfl
  · cases h

/-- The row of a period after a reservation, against the counters before it. -/
structure Reserves (limits : UsageLimits) (s : Store) (key : PeriodKey) (reservedTokens : ℤ)
    (period : PeriodRow) : Prop where
  key_eq : period.key = key
  requests : period.requestCount = counter s PeriodRow.requestCount key + 1
  reserved : period.reservedTokens = counter s PeriodRow.reservedTokens key + reservedTokens
  input : period.inputTokens = counter s PeriodRow.inputTokens key
  output : period.outputTokens = counter s PeriodRow.outputTokens key
  cost : period.estimatedCostMicrousd = counter s PeriodRow.estimatedCostMicrousd key
  requests_le : period.requestCount ≤ limits.maxAiRequestsPerMonth
  tokens_le : period.inputTokens + period.outputTokens + period.reservedTokens ≤
    limits.maxAiTokensPerMonth

theorem reservePeriod_ok {limits : UsageLimits} {n : ℤ}
    (h : reservePeriod limits key (s.periods.find? key) n now = .ok (some period)) :
    Reserves limits s key n period := by
  unfold reservePeriod at h
  split at h
  · next hguard =>
    cases hfind : s.periods.find? key with
    | none =>
      have hnone : ∀ field, counter s field key = 0 := by
        intro field
        rw [counter, hfind]
        rfl
      simp only [hfind, pure_ok, Option.some.injEq] at h
      subst h
      refine ⟨rfl, ?_, ?_, (hnone _).symm, (hnone _).symm, (hnone _).symm, hguard.1, ?_⟩
      · rw [hnone]
        rfl
      · rw [hnone, zero_add]
      · simpa using hguard.2
    | some before =>
      have hsome : ∀ field, counter s field key = field before := by
        intro field
        rw [counter, hfind]
        rfl
      simp only [hfind] at h
      obtain ⟨count, hcount, h⟩ := bind_ok.mp h
      obtain rfl := int8_ok hcount
      split at h
      · simp at h
      obtain ⟨tokens, htokens, h⟩ := bind_ok.mp h
      obtain rfl := int8_ok htokens
      split at h
      · simp at h
      simp only [pure_ok, Option.some.injEq] at h
      subst h
      have hkey : before.key = key := Table.key_of_find? hfind
      refine ⟨hkey, ?_, ?_, (hsome PeriodRow.inputTokens).symm,
        (hsome PeriodRow.outputTokens).symm, (hsome PeriodRow.estimatedCostMicrousd).symm, ?_, ?_⟩
      · rw [hsome]
      · rw [hsome]
      · show before.requestCount + 1 ≤ _
        omega
      · show before.inputTokens + before.outputTokens + (before.reservedTokens + n) ≤ _
        omega
  · simp at h

theorem reserve_ok {eventId : Uuid} {action : String} {tokens : Number} {r : Reservation}
    (h : reserve s tenant now eventId action tokens = .ok (s', r)) :
    ∃ limits n period, s.limits tenant.organizationId = some limits ∧ 0 < n ∧
      r.periodStart = periodStart now ∧
      Reserves limits s (tenant.organizationId, periodStart now) n period ∧
      s.events.insert? (newEvent tenant now eventId action n) = some s'.events ∧
      s'.periods = s.periods.upsert period ∧ s'.limits = s.limits := by
  unfold reserve at h
  obtain ⟨n, hn, h⟩ := bind_ok.mp h
  obtain ⟨hzero, h⟩ := guard_ok.mp h
  obtain ⟨-, h⟩ := guard_ok.mp h
  have hpos : 0 < n := by
    unfold finiteNonnegativeInteger at hn
    split at hn
    · split at hn
      · cases hn
        omega
      · cases hn
    · cases hn
  cases hlimits : s.limits tenant.organizationId with
  | none => simp [hlimits] at h
  | some limits =>
    simp only [hlimits] at h
    obtain ⟨_, -, h⟩ := bind_ok.mp h
    obtain ⟨reserved, hreserved, h⟩ := bind_ok.mp h
    cases reserved with
    | none =>
      obtain ⟨_, -, h⟩ := bind_ok.mp h
      cases h
    | some period =>
      cases hevents : s.events.insert? (newEvent tenant now eventId action n) with
      | none => simp [hevents] at h
      | some events =>
        simp only [hevents, pure_ok] at h
        cases h
        exact ⟨limits, n, period, rfl, hpos, rfl, reservePeriod_ok hreserved, hevents, rfl, rfl⟩

theorem balanced_reserve {eventId : Uuid} {action : String} {tokens : Number} {r : Reservation}
    (hs : Balanced s) (h : reserve s tenant now eventId action tokens = .ok (s', r)) :
    Balanced s' := by
  obtain ⟨limits, n, period, -, hpos, -, hperiod, hevents, hperiods, -⟩ := reserve_ok h
  have hkey : period.key = (newEvent tenant now eventId action n).period := hperiod.key_eq
  refine ⟨balance_insert hs.requests hevents hperiods hkey hperiod.requests,
    balance_insert hs.reserved hevents hperiods hkey hperiod.reserved,
    balance_insert hs.input hevents hperiods hkey ?_,
    balance_insert hs.output hevents hperiods hkey ?_,
    balance_insert hs.cost hevents hperiods hkey ?_, ?_, ?_⟩
  -- a pending event adds nothing to the used tokens and the cost
  · exact hperiod.input.trans (add_zero _).symm
  · exact hperiod.output.trans (add_zero _).symm
  · exact hperiod.cost.trans (add_zero _).symm
  · intro e he
    rw [(Table.insert?_eq_some hevents).2, List.mem_append, List.mem_singleton] at he
    rw [hperiods, Table.find?_upsert]
    by_cases hk : period.key = e.period
    · exact ⟨period, if_pos hk⟩
    · rw [if_neg hk]
      rcases he with he | rfl
      · exact hs.has_period e he
      · exact absurd hkey hk
  · intro e he
    rw [(Table.insert?_eq_some hevents).2, List.mem_append, List.mem_singleton] at he
    rcases he with he | rfl
    · exact hs.nonneg e he
    · exact hpos.le

/-! ### What finalizing writes -/

variable {done : Bool}

/-- `finalize` ends an event and books its usage. -/
structure Finalizes (finalize : EventRow → EventRow) (usage : Usage) : Prop where
  id : ∀ e, (finalize e).id = e.id
  period : ∀ e, (finalize e).period = e.period
  reservedTokens : ∀ e, (finalize e).reservedTokens = e.reservedTokens
  settled : ∀ e, (finalize e).status ≠ .pending
  input : ∀ e, (finalize e).weighIf .completed EventRow.inputTokens = usage.inputTokens
  output : ∀ e, (finalize e).weighIf .completed EventRow.outputTokens = usage.outputTokens
  cost : ∀ e, (finalize e).weighIf .completed EventRow.estimatedCostMicrousd =
    usage.estimatedCostMicrousd

theorem completeEvent_finalizes (provider model : String) (usage : Usage) (now : Timestamptz) :
    Finalizes (completeEvent provider model usage now) usage := by
  refine ⟨fun e => rfl, fun e => rfl, fun e => rfl, fun e => ?_, fun e => rfl, fun e => rfl,
    fun e => rfl⟩
  simp [completeEvent]

theorem failEvent_finalizes (failureCode : String) (now : Timestamptz) :
    Finalizes (failEvent failureCode now) {} := by
  refine ⟨fun e => rfl, fun e => rfl, fun e => rfl, fun e => ?_, fun e => rfl, fun e => rfl,
    fun e => rfl⟩
  simp [failEvent]

theorem settlePeriod_ok {usage : Usage} (h : settlePeriod before old usage now = .ok period) :
    period.key = before.key ∧ period.requestCount = before.requestCount ∧
      period.reservedTokens = max 0 (before.reservedTokens - old.reservedTokens) ∧
      period.inputTokens = before.inputTokens + usage.inputTokens ∧
      period.outputTokens = before.outputTokens + usage.outputTokens ∧
      period.estimatedCostMicrousd = before.estimatedCostMicrousd + usage.estimatedCostMicrousd := by
  unfold settlePeriod at h
  obtain ⟨reserved, hreserved, h⟩ := bind_ok.mp h
  obtain ⟨input, hinput, h⟩ := bind_ok.mp h
  obtain ⟨output, houtput, h⟩ := bind_ok.mp h
  obtain ⟨cost, hcost, h⟩ := bind_ok.mp h
  obtain rfl := int8_ok hreserved
  obtain rfl := int8_ok hinput
  obtain rfl := int8_ok houtput
  obtain rfl := int8_ok hcost
  rw [← pure_ok.mp h]
  exact ⟨rfl, rfl, rfl, rfl, rfl, rfl⟩

theorem finalizeEvent_ok {id : Uuid} {finalize : EventRow → EventRow} {usage : Usage}
    (hs : Balanced s) (h : finalizeEvent s tenant now id finalize usage = .ok (s', done)) :
    s' = s ∨ ∃ old before period, s.events.find? id = some old ∧ old.status = .pending ∧
      s.periods.find? old.period = some before ∧ settlePeriod before old usage now = .ok period ∧
      s'.events = s.events.put (finalize old) ∧ s'.periods = s.periods.put period ∧
      s'.limits = s.limits := by
  unfold finalizeEvent at h
  cases hold : s.events.find? id with
  | none =>
    simp only [hold, pure_ok] at h
    cases h
    exact Or.inl rfl
  | some old =>
    simp only [hold] at h
    split at h
    · next hguard =>
      obtain ⟨before, hbefore⟩ := hs.has_period old (Table.mem_of_find? hold)
      have hkey : (tenant.organizationId, old.periodStart) = old.period := by
        rw [← hguard.1]
        rfl
      simp only [hkey, hbefore] at h
      obtain ⟨period, hperiod, h⟩ := bind_ok.mp h
      cases pure_ok.mp h
      exact Or.inr ⟨old, before, period, rfl, hguard.2, hbefore, hperiod, rfl, rfl, rfl⟩
    · cases pure_ok.mp h
      exact Or.inl rfl

theorem balanced_finalizeEvent {id : Uuid} {finalize : EventRow → EventRow} {usage : Usage}
    (hs : Balanced s) (hfinalize : Finalizes finalize usage)
    (h : finalizeEvent s tenant now id finalize usage = .ok (s', done)) : Balanced s' := by
  rcases finalizeEvent_ok hs h with rfl | ⟨old, before, period, hold, hpending, hbefore, hsettle,
    hevents, hperiods, -⟩
  · exact hs
  obtain ⟨hkey, hrequests, hreserved, hinput, houtput, hcost⟩ := settlePeriod_ok hsettle
  have hmem : old ∈ s.events.rows := Table.mem_of_find? hold
  have hold' : s.events.find? (finalize old).id = some old := by
    rw [hfinalize.id, Table.key_of_find? hold]
    exact hold
  have hbeforeKey : before.key = old.period := Table.key_of_find? hbefore
  have hperiod : s.periods.find? period.key = some before := by
    rw [hkey, hbeforeKey]
    exact hbefore
  have hput := fun {field w} (hbalance : ∀ key, counter s field key = booked s w key) =>
    balance_put hbalance hold' (hfinalize.period old) hevents hperiod hperiods
      (hkey.trans hbeforeKey)
  -- a pending event weighs its reserved tokens and nothing else
  have hweighs : ∀ column, old.weighIf .completed column = 0 := by
    intro column
    rw [EventRow.weighIf, hpending, if_neg (by decide)]
  have hcovers := hs.covers hmem hpending hbefore
  refine ⟨hput hs.requests ?_, hput hs.reserved ?_, hput hs.input ?_, hput hs.output ?_,
    hput hs.cost ?_, ?_, ?_⟩
  · rw [hrequests]
    ring
  · rw [hreserved, EventRow.weighIf, EventRow.weighIf, if_neg (hfinalize.settled old),
      if_pos hpending]
    omega
  · rw [hinput, hfinalize.input, hweighs, sub_zero]
  · rw [houtput, hfinalize.output, hweighs, sub_zero]
  · rw [hcost, hfinalize.cost, hweighs, sub_zero]
  · intro e he
    obtain ⟨p, hp⟩ : ∃ p, s.periods.find? e.period = some p := by
      rw [hevents] at he
      rcases Table.mem_put he with rfl | he
      · exact ⟨before, by rw [hfinalize.period]; exact hbefore⟩
      · exact hs.has_period e he
    rw [hperiods, Table.find?_put hperiod]
    by_cases hk : period.key = e.period
    · exact ⟨period, if_pos hk⟩
    · exact ⟨p, by rw [if_neg hk, hp]⟩
  · intro e he
    rw [hevents] at he
    rcases Table.mem_put he with rfl | he
    · rw [hfinalize.reservedTokens]
      exact hs.nonneg old hmem
    · exact hs.nonneg e he

/-! ### One call -/

theorem complete_ok {reservation : Reservation} {usage : UsageInput} {provider model : String}
    (h : complete s tenant now reservation usage provider model = .ok (s', done)) :
    ∃ used : Usage, finalizeEvent s tenant now reservation.id
      (completeEvent provider model used now) used = .ok (s', done) := by
  unfold complete at h
  obtain ⟨_, -, h⟩ := bind_ok.mp h
  obtain ⟨_, -, h⟩ := bind_ok.mp h
  obtain ⟨_, -, h⟩ := bind_ok.mp h
  obtain ⟨-, h⟩ := guard_ok.mp h
  obtain ⟨-, h⟩ := guard_ok.mp h
  exact ⟨_, h⟩

theorem fail_ok {reservation : Reservation} {failureCode : String}
    (h : fail s tenant now reservation failureCode = .ok (s', done)) :
    finalizeEvent s tenant now reservation.id (failEvent (normalizeFailureCode failureCode) now) {} =
      .ok (s', done) := by
  unfold fail at h
  obtain ⟨-, h⟩ := guard_ok.mp h
  exact h

theorem finalized_fst (s : Store) (message : String) (r : Except UsageError (Store × Bool)) :
    (finalized s message r).1 = s ∨ ∃ done, r = .ok ((finalized s message r).1, done) := by
  rcases r with e | ⟨s', _ | _⟩
  · exact Or.inl rfl
  · exact Or.inr ⟨false, rfl⟩
  · exact Or.inr ⟨true, rfl⟩

theorem call_cases (s : Store) (c : Call) : (call s c).1 = s ∨
    (∃ tenant now eventId action tokens r,
      reserve s tenant now eventId action tokens = .ok ((call s c).1, r)) ∨
    ∃ tenant now id finalize usage done, Finalizes finalize usage ∧
      finalizeEvent s tenant now id finalize usage = .ok ((call s c).1, done) := by
  cases c with
  | reserve tenant now eventId action tokens =>
    rw [call]
    cases h : reserve s tenant now eventId action tokens with
    | error e => exact Or.inl rfl
    | ok r => exact Or.inr (Or.inl ⟨tenant, now, eventId, action, tokens, r.2, h⟩)
  | complete tenant now reservation usage provider model =>
    rw [call]
    rcases finalized_fst s _ (complete s tenant now reservation usage provider model) with
      hsame | ⟨done, h⟩
    · exact Or.inl hsame
    · obtain ⟨used, hused⟩ := complete_ok h
      exact Or.inr (Or.inr ⟨tenant, now, reservation.id, _, used, done,
        completeEvent_finalizes provider model used now, hused⟩)
  | fail tenant now reservation failureCode =>
    rw [call]
    rcases finalized_fst s _ (fail s tenant now reservation failureCode) with hsame | ⟨done, h⟩
    · exact Or.inl hsame
    · exact Or.inr (Or.inr ⟨tenant, now, reservation.id, _, {}, done,
        failEvent_finalizes (normalizeFailureCode failureCode) now, fail_ok h⟩)

theorem balanced_call (hs : Balanced s) (c : Call) : Balanced (call s c).1 := by
  rcases call_cases s c with h | ⟨tenant, now, eventId, action, tokens, r, h⟩ |
    ⟨tenant, now, id, finalize, usage, done, hfinalize, h⟩
  · rw [h]
    exact hs
  · exact balanced_reserve hs h
  · exact balanced_finalizeEvent hs hfinalize h

theorem settled_stays (hs : Balanced s) (c : Call) (he : e ∈ s.events.rows)
    (hsettled : e.status ≠ .pending) : e ∈ (call s c).1.events.rows := by
  rcases call_cases s c with h | ⟨tenant, now, eventId, action, tokens, r, h⟩ |
    ⟨tenant, now, id, finalize, usage, done, hfinalize, h⟩
  · rw [h]
    exact he
  · obtain ⟨_, _, _, -, -, -, -, hevents, -⟩ := reserve_ok h
    rw [(Table.insert?_eq_some hevents).2]
    exact List.mem_append_left _ he
  · rcases finalizeEvent_ok hs h with h | ⟨old, _, _, hold, hpending, -, -, hevents, -⟩
    · rw [h]
      exact he
    · have hne : e.id ≠ (finalize old).id := by
        intro hid
        rw [hfinalize.id] at hid
        have hsame : e = old := Table.eq_of_mem he (Table.mem_of_find? hold) hid
        exact hsettled (hsame ▸ hpending)
      rw [hevents, Table.rows_put]
      exact List.mem_map.mpr ⟨e, he, if_neg hne⟩

theorem limits_call (hs : Balanced s) (c : Call) : (call s c).1.limits = s.limits := by
  rcases call_cases s c with h | ⟨tenant, now, eventId, action, tokens, r, h⟩ |
    ⟨tenant, now, id, finalize, usage, done, -, h⟩
  · rw [h]
  · obtain ⟨_, _, _, -, -, -, -, -, -, hlimits⟩ := reserve_ok h
    exact hlimits
  · rcases finalizeEvent_ok hs h with h | ⟨_, _, _, -, -, -, -, -, -, hlimits⟩
    · rw [h]
    · exact hlimits

theorem reserve_within_limits {eventId : Uuid} {action : String} {tokens : Number} {r : Reservation}
    (h : reserve s tenant now eventId action tokens = .ok (s', r)) :
    ∃ limits p, s.limits tenant.organizationId = some limits ∧
      s'.periods.find? (tenant.organizationId, r.periodStart) = some p ∧
      p.requestCount ≤ limits.maxAiRequestsPerMonth ∧
      p.inputTokens + p.outputTokens + p.reservedTokens ≤ limits.maxAiTokensPerMonth := by
  obtain ⟨limits, n, p, hlimits, -, hstart, hp, -, hperiods, -⟩ := reserve_ok h
  refine ⟨limits, p, hlimits, ?_, hp.requests_le, hp.tokens_le⟩
  rw [hperiods, Table.find?_upsert, hstart, if_pos hp.key_eq]

/-! ### Every sequence of calls -/

theorem balanced_after (limits : Uuid → Option UsageLimits) (calls : List Call) :
    Balanced (after limits calls) := by
  unfold after
  refine List.foldlRecOn calls _ ?_ fun s hs c _ => balanced_call hs c
  exact ⟨fun _ => rfl, fun _ => rfl, fun _ => rfl, fun _ => rfl, fun _ => rfl,
    fun _ he => absurd he List.not_mem_nil, fun _ he => absurd he List.not_mem_nil⟩

theorem limits_after (limits : Uuid → Option UsageLimits) (calls : List Call) :
    (after limits calls).limits = limits := by
  induction calls using List.reverseRecOn with
  | nil => rfl
  | append_singleton calls c ih =>
    have hstep : after limits (calls ++ [c]) = (call (after limits calls) c).1 := by
      rw [after, List.foldl_concat]
      rfl
    rw [hstep, limits_call (balanced_after limits calls), ih]

theorem settled_after (limits : Uuid → Option UsageLimits) (calls more : List Call)
    (he : e ∈ (after limits calls).events.rows) (hsettled : e.status ≠ .pending) :
    e ∈ (after limits (calls ++ more)).events.rows := by
  induction more using List.reverseRecOn with
  | nil =>
    rw [List.append_nil]
    exact he
  | append_singleton more c ih =>
    have hstep : after limits (calls ++ (more ++ [c])) = (call (after limits (calls ++ more)) c).1 := by
      rw [← List.append_assoc, after, List.foldl_concat]
      rfl
    rw [hstep]
    exact settled_stays (balanced_after limits (calls ++ more)) c ih hsettled

def Store.eventsOf (s : Store) (key : PeriodKey) : List EventRow :=
  s.events.rows.filter fun e => e.period = key

def Store.eventsWith (s : Store) (key : PeriodKey) (status : EventStatus) : List EventRow :=
  (s.eventsOf key).filter fun e => e.status = status

theorem booked_one (s : Store) (key : PeriodKey) :
    booked s (fun _ => 1) key = (s.eventsOf key).length := by
  rw [booked, ← Table.sum_filter, Store.eventsOf]
  simp

theorem booked_weighIf (s : Store) (key : PeriodKey) (status : EventStatus)
    (column : EventRow → ℤ) :
    booked s (EventRow.weighIf status column) key = ((s.eventsWith key status).map column).sum := by
  rw [Store.eventsWith, Table.sum_filter (s.eventsOf key) (fun e => e.status = status)]
  exact (Table.sum_filter s.events.rows (fun e => e.period = key)
    (EventRow.weighIf status column)).symm

/-- **AI accounting**: after every sequence of calls, under the limits as configured,

* the counters of a period are the sums over its events, and a month without a row has no events;
* releasing the tokens of a pending event does not take the counter below zero;
* an event that has left `pending` keeps its row for ever;
* a reservation that succeeds leaves its month within the limits. -/
theorem accounts_balance (limits : Uuid → Option UsageLimits) (calls : List Call) :
    let s := after limits calls
    (∀ key p, s.periods.find? key = some p →
      p.reservedTokens = ((s.eventsWith key .pending).map EventRow.reservedTokens).sum ∧
      p.requestCount = (s.eventsOf key).length ∧
      p.inputTokens = ((s.eventsWith key .completed).map EventRow.inputTokens).sum ∧
      p.outputTokens = ((s.eventsWith key .completed).map EventRow.outputTokens).sum ∧
      p.estimatedCostMicrousd =
        ((s.eventsWith key .completed).map EventRow.estimatedCostMicrousd).sum) ∧
    (∀ key, s.periods.find? key = none → s.eventsOf key = []) ∧
    (∀ e ∈ s.events.rows, e.status = .pending → ∃ p, s.periods.find? e.period = some p ∧
      max 0 (p.reservedTokens - e.reservedTokens) = p.reservedTokens - e.reservedTokens) ∧
    (∀ e ∈ s.events.rows, e.status ≠ .pending →
      ∀ more, e ∈ (after limits (calls ++ more)).events.rows) ∧
    ∀ tenant now eventId action tokens s' r,
      reserve s tenant now eventId action tokens = .ok (s', r) →
        ∃ l p, limits tenant.organizationId = some l ∧
          s'.periods.find? (tenant.organizationId, r.periodStart) = some p ∧
          p.requestCount ≤ l.maxAiRequestsPerMonth ∧
          p.inputTokens + p.outputTokens + p.reservedTokens ≤ l.maxAiTokensPerMonth := by
  intro s
  have hs : Balanced s := balanced_after limits calls
  have hlimits : s.limits = limits := limits_after limits calls
  refine ⟨fun key p hp => ?_, fun key hnone => ?_, fun e he hpending => ?_, ?_, ?_⟩
  · have hcounter : ∀ field, counter s field key = field p := by
      intro field
      rw [counter, hp]
      rfl
    rw [← booked_weighIf, ← booked_weighIf, ← booked_weighIf, ← booked_weighIf, ← booked_one,
      ← hs.reserved, ← hs.requests, ← hs.input, ← hs.output, ← hs.cost]
    exact ⟨(hcounter _).symm, (hcounter _).symm, (hcounter _).symm, (hcounter _).symm,
      (hcounter _).symm⟩
  · refine List.filter_eq_nil_iff.mpr fun e he hkey => ?_
    obtain ⟨p, hp⟩ := hs.has_period e he
    rw [of_decide_eq_true hkey, hnone] at hp
    cases hp
  · obtain ⟨p, hp⟩ := hs.has_period e he
    have hcovers := hs.covers he hpending hp
    exact ⟨p, hp, max_eq_right (by omega)⟩
  · intro e he hsettled more
    exact settled_after limits calls more he hsettled
  · intro tenant now eventId action tokens s' r h
    obtain ⟨l, p, hl, hfind, hwithin⟩ := reserve_within_limits h
    exact ⟨l, p, hlimits ▸ hl, hfind, hwithin⟩

end CalmBoard.Ai
