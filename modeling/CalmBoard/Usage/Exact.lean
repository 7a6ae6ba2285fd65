import CalmBoard.Usage.Deltas

/-!
# CalmBoard.Usage.Exact — the counters of concurrent transactions

Counters are moved by differences, so they stay exact whatever other transactions do; seats are
counted, under the lock of the limits.

* `Tx`: what a running transaction has done to its organization.
* `Tx.write`, `Tx.usage`, `Tx.seats`: its statements and their triggers.
* `usage_counters_exact`: after every interleaving the counters are what the tables hold, seats where
  the sessions that count them see everyone.
-/

namespace CalmBoard.Usage

open Fallible Requests

/-- The counters of some resources are what the tables hold. -/
def Exact (P : Resource → Prop) (s : Store) : Prop :=
  ∀ o l, s.limits.find? o = some l → ∀ r, P r → l.current r = s.usage o r

/-- Where the use of an organization has grown, it is within the configured limit. -/
def GrowsWithin (P : Resource → Prop) (s s' : Store) : Prop :=
  ∀ o r, P r → s.usage o r < s'.usage o r →
    ∃ l, s'.limits.find? o = some l ∧ s'.usage o r ≤ l.configured r

variable {P : Resource → Prop} {s s' : Store} {session : Session} {o : Uuid} {r : Resource}
  {pending pending' : List Trigger} {ks ks' locks : List Lock} {vs ws : List Effect} {e : Effect}

/-! ### A running transaction -/

/-- The transaction has changed memberships. -/
def Touched (ws : List Effect) : Prop := ∃ e ∈ ws, membershipPart.keys e ≠ []

/-- The seats have been counted, and nobody else can change them. -/
def SeatsCounted (P : Resource → Prop) (s : Store) (o : Uuid) (ks : List Lock) (ws : List Effect) :
    Prop :=
  .limits o ∈ ks ∧ ∃ l, (seen s ws).limits.find? o = some l ∧
    (P .seats → l.currentSeats = (seen s ws).usage o .seats) ∧ l.currentSeats ≤ l.maxSeats

/-- What a running transaction has done to its organization, and what it has locked for it. -/
structure Tx (P : Resource → Prop) (s : Store) (session : Session) (pending : List Trigger)
    (ks : List Lock) (ws : List Effect) : Prop where
  covered : Covered Effect.locks ks ws
  agree : ∀ o, o ≠ session.organizationId → Agree o s (seen s ws)
  own : ∀ e ∈ ws, ∀ o ∈ limitPart.keys e, o = session.organizationId
  triggers : ∀ t ∈ pending, t.organizationId = session.organizationId
  moved : ∀ r, r ≠ .seats → (seen s ws).usage session.organizationId r =
    s.usage session.organizationId r + deltas session.organizationId r ws + waiting r pending
  within : ∀ r d, .usage session.organizationId r d ∈ ws →
    ∃ l, (seen s ws).limits.find? session.organizationId = some l ∧ l.current r ≤ l.configured r
  seats : Touched ws → .seats session.organizationId ∈ pending ∨
    SeatsCounted P s session.organizationId ks ws
  counts : (∃ o n, .seats o n ∈ ws) ∨ (∃ o, .seats o ∈ pending) → Touched ws

theorem tx_nil (P : Resource → Prop) (s : Store) (session : Session) : Tx P s session [] [] [] where
  covered := covered_nil _ _
  agree o _ := .refl o s
  own e he := by cases he
  triggers t ht := by cases ht
  moved r _ := by simp [deltas, waiting, seen]
  within r d h := by cases h
  seats := by rintro ⟨e, he, -⟩; cases he
  counts := by
    rintro (⟨o, n, h⟩ | ⟨o, h⟩)
    · cases h
    · cases h

theorem seen_append (s : Store) (ws : List Effect) (e : Effect) :
    seen s (ws ++ [e]) = e.apply (seen s ws) := view_append s ws [e]

theorem deltas_append (o : Uuid) (r : Resource) (ws : List Effect) (e : Effect) :
    deltas o r (ws ++ [e]) = deltas o r ws + e.delta o r := by
  simp [deltas]

theorem touched_append (ws : List Effect) (e : Effect) :
    Touched (ws ++ [e]) ↔ Touched ws ∨ membershipPart.keys e ≠ [] := by
  simp [Touched, or_and_right, exists_or]

theorem limits_of_rows (h : limitPart.keys e = []) (s : Store) (o : Uuid) :
    (e.apply s).limits.find? o = s.limits.find? o :=
  limitPart.acts.frame e s o (by rw [h]; exact List.not_mem_nil)

theorem seats_of_keys (h : ∀ e ∈ ws, membershipPart.keys e = []) (s : Store) (o : Uuid) :
    (seen s ws).usage o .seats = s.usage o .seats :=
  congrArg Nat.cast (activeUsers_congr fun k =>
    congrArg _ (membershipPart.find?_seen h s k))

/-! ### Commits -/

theorem Tx.exact (hs : Exact P s) (h : Tx P s session [] ks ws) : Exact P (seen s ws) := by
  intro o l hl r hr
  by_cases ho : o = session.organizationId
  · subst ho
    by_cases hseats : r = .seats
    · subst hseats
      by_cases htouched : Touched ws
      · rcases h.seats htouched with hp | ⟨-, l', hl', hcount, -⟩
        · cases hp
        · rw [hl] at hl'
          cases hl'
          exact hcount hr
      · have hno : ∀ e ∈ ws, ∀ o n, e ≠ .seats o n := by
          rintro e he o n rfl
          exact htouched (h.counts (Or.inl ⟨o, n, he⟩))
        have hkeys : ∀ e ∈ ws, membershipPart.keys e = [] := by
          intro e he
          by_contra hne
          exact htouched ⟨e, he, hne⟩
        obtain ⟨l₀, hl₀, hcurrent⟩ := currentSeats_seen hno hl
        rw [seats_of_keys hkeys]
        exact hcurrent.trans (hs _ l₀ hl₀ .seats hr)
    · obtain ⟨l₀, hl₀, hcurrent⟩ := current_seen hseats hl
      rw [hcurrent, hs _ l₀ hl₀ r hr, h.moved r hseats]
      exact (add_zero _).symm
  · have hfind : (seen s ws).limits.find? o = s.limits.find? o :=
      limitPart.acts.frame_all s fun e he hk => ho (h.own e he o hk)
    rw [(h.agree o ho).usage r]
    exact hs o l (hfind ▸ hl) r hr

theorem exists_usage (h : deltas o r ws ≠ 0) : ∃ d, .usage o r d ∈ ws := by
  by_contra hno
  refine h (List.sum_eq_zero fun x hx => ?_)
  obtain ⟨e, he, rfl⟩ := List.mem_map.mp hx
  cases e with
  | usage o' r' d =>
    refine if_neg fun heq => hno ⟨d, ?_⟩
    rw [← heq.1, ← heq.2]
    exact he
  | _ => rfl

theorem Tx.grows (hs : Exact P s) (h : Tx P s session [] ks ws) : GrowsWithin P s (seen s ws) := by
  intro o r hr hgrows
  by_cases ho : o = session.organizationId
  · subst ho
    by_cases hseats : r = .seats
    · subst hseats
      have htouched : Touched ws := by
        by_contra hno
        have hkeys : ∀ e ∈ ws, membershipPart.keys e = [] := by
          intro e he
          by_contra hne
          exact hno ⟨e, he, hne⟩
        rw [seats_of_keys hkeys] at hgrows
        exact lt_irrefl _ hgrows
      rcases h.seats htouched with hp | ⟨-, l, hl, hcount, hwithin⟩
      · cases hp
      · exact ⟨l, hl, (hcount hr).symm.trans_le hwithin⟩
    · have hmoved := h.moved r hseats
      have hdeltas : deltas session.organizationId r ws ≠ 0 := by
        intro hzero
        rw [hmoved, hzero] at hgrows
        simp [waiting] at hgrows
      obtain ⟨d, hd⟩ := exists_usage hdeltas
      obtain ⟨l, hl, hwithin⟩ := h.within r d hd
      exact ⟨l, hl, (h.exact hs _ l hl r hr).symm.trans_le hwithin⟩
  · rw [(h.agree o ho).usage r] at hgrows
    exact absurd hgrows (lt_irrefl _)

/-! ### Statements -/

/-- What the rows of a statement are to the rest of its transaction. -/
structure RowWrite (s : Store) (session : Session) (e : Effect) (pending : List Trigger) : Prop where
  rows : limitPart.keys e = []
  agree : ∀ o, o ≠ session.organizationId → Agree o s (e.apply s)
  triggers : ∀ t ∈ pending, t.organizationId = session.organizationId
  moved : ∀ r, r ≠ .seats → (e.apply s).usage session.organizationId r =
    s.usage session.organizationId r + waiting r pending
  seats : membershipPart.keys e ≠ [] ↔ .seats session.organizationId ∈ pending

/-! ### The rows of a statement -/

variable {w : Write MembershipRow}

theorem waiting_changes (r r' : Resource) (changes : List (Uuid × ℤ)) :
    waiting r (changes.map fun c => .usage c.1 r' c.2) =
      if r' = r then (changes.map Prod.snd).sum else 0 := by
  unfold waiting
  rw [List.map_map]
  by_cases hr : r' = r
  · rw [if_pos hr]
    exact congrArg List.sum (List.map_congr_left fun c _ => if_pos hr)
  · rw [if_neg hr]
    refine List.sum_eq_zero fun x hx => ?_
    obtain ⟨c, -, rfl⟩ := List.mem_map.mp hx
    exact if_neg hr

theorem rowWrite_counted {ρ : Type} [CountedRow ρ] {T T' : Rows ρ} {w : Write ρ} {old new : List ρ}
    {resource : Resource} (hrun : w.run session false T = .ok (T', old, new))
    (hrows : limitPart.keys e = []) (hkeys : membershipPart.keys e = [])
    (hagree : ∀ o, SameOf o T T' → Agree o s (e.apply s))
    (husage : ∀ o r, r ≠ .seats → (e.apply s).usage o r = s.usage o r +
      if resource = r then used T'.rows o - used T.rows o else 0) :
    RowWrite s session e ((w.changes old new).map fun c => .usage c.1 resource c.2) where
  rows := hrows
  agree o ho := hagree o (sameOf_run hrun ho)
  triggers t ht := by
    obtain ⟨c, hc, rfl⟩ := List.mem_map.mp ht
    exact changes_tenant hrun c hc
  moved r hr := by
    rw [husage _ r hr, waiting_changes, used_run hrun, if_pos rfl, sum_changes hrun,
      add_sub_cancel_left]
  seats := by
    rw [hkeys]
    simp

theorem refreshed_run {T T' : Rows MembershipRow} {old new : List MembershipRow}
    (h : w.run session true T = .ok (T', old, new)) :
    ∀ x ∈ w.events old new, refreshed x = [session.organizationId] := by
  have htenant : ∀ m ∈ old ++ new, m.organizationId = session.organizationId := run_tenant h
  intro x hx
  cases w with
  | insert rows =>
    obtain ⟨m, hm, rfl⟩ := List.mem_map.mp hx
    rw [refreshed, htenant m (List.mem_append_right _ hm)]
  | delete ids =>
    obtain ⟨m, hm, rfl⟩ := List.mem_map.mp hx
    rw [refreshed, htenant m (List.mem_append_left _ hm)]
  | update rows =>
    obtain ⟨⟨m, m'⟩, hm, rfl⟩ := List.mem_map.mp hx
    obtain ⟨hold, hnew⟩ := List.of_mem_zip hm
    have hm : m.organizationId = session.organizationId := htenant m (List.mem_append_left _ hold)
    have hm' : m'.organizationId = session.organizationId := htenant m' (List.mem_append_right _ hnew)
    rw [refreshed, hm, hm', if_pos rfl]

theorem events_nil {T T' : Rows MembershipRow} {old new : List MembershipRow}
    (h : w.run session true T = .ok (T', old, new)) :
    w.events old new = [] ↔ (w.found old new).ids = [] := by
  cases w with
  | insert rows => simp [Write.events, Write.found, Write.ids]
  | delete ids => simp [Write.events, Write.found, Write.ids]
  | update rows =>
    obtain ⟨_, -, h⟩ := bind_ok.mp h
    cases pure_ok.mp h
    simp [Write.events, Write.found, Write.ids]

theorem rowWrite_memberships {T' : Rows MembershipRow} {old new : List MembershipRow}
    (hrun : w.run session true s.memberships = .ok (T', old, new)) :
    RowWrite s session (.memberships (w.found old new))
      (((w.events old new).flatMap refreshed).map .seats) where
  rows := rfl
  agree o ho := ⟨fun _ => rfl, fun _ => rfl, fun _ => rfl, by
    show SameOf o s.memberships ((w.found old new).apply s.memberships)
    rw [apply_found hrun]
    exact sameOf_run hrun ho⟩
  triggers t ht := by
    obtain ⟨o, ho, rfl⟩ := List.mem_map.mp ht
    obtain ⟨x, hx, ho⟩ := List.mem_flatMap.mp ho
    rw [refreshed_run hrun x hx] at ho
    exact List.mem_singleton.mp ho
  moved r hr := by
    have hnone : waiting r (((w.events old new).flatMap refreshed).map .seats) = 0 := by
      refine List.sum_eq_zero fun x hx => ?_
      obtain ⟨t, ht, rfl⟩ := List.mem_map.mp hx
      obtain ⟨o, -, rfl⟩ := List.mem_map.mp ht
      rfl
    rw [hnone, add_zero]
    cases r with
    | seats => exact absurd rfl hr
    | _ => rfl
  seats := by
    have hkeys : membershipPart.keys (.memberships (w.found old new)) = (w.found old new).ids := rfl
    rw [hkeys, ← not_iff_not, not_not, ← events_nil hrun]
    constructor
    · intro h
      rw [h]
      exact List.not_mem_nil
    · intro hno
      refine List.eq_nil_iff_forall_not_mem.mpr fun x hx => hno ?_
      refine List.mem_map_of_mem (List.mem_flatMap.mpr ⟨x, hx, ?_⟩)
      rw [refreshed_run hrun x hx]
      exact List.mem_singleton_self _

theorem rowWrite_of_statement {st : Statement}
    (h : rowStatement s session st = .ok (e, locks, pending)) :
    RowWrite s session e pending ∧ ∀ k ∈ e.locks, k ∈ locks := by
  cases st with
  | projects w =>
    obtain ⟨⟨T', old, new⟩, hrun, h⟩ := bind_ok.mp h
    cases pure_ok.mp h
    refine ⟨rowWrite_counted hrun rfl rfl (fun o ho => ⟨?_, fun _ => rfl, fun _ => rfl, fun _ => rfl⟩)
      fun o r hr => ?_, fun k hk => hk⟩
    · show SameOf o s.projects ((w.found old new).apply s.projects)
      rw [apply_found hrun]
      exact ho
    · cases r with
      | seats => exact absurd rfl hr
      | projects =>
        show used ((w.found old new).apply s.projects).rows o = used s.projects.rows o + _
        rw [apply_found hrun, if_pos rfl, add_sub_cancel]
      | tasks | storage => exact (add_zero _).symm
  | tasks w =>
    obtain ⟨⟨T', old, new⟩, hrun, h⟩ := bind_ok.mp h
    cases pure_ok.mp h
    refine ⟨rowWrite_counted hrun rfl rfl (fun o ho => ⟨fun _ => rfl, ?_, fun _ => rfl, fun _ => rfl⟩)
      fun o r hr => ?_, fun k hk => hk⟩
    · show SameOf o s.tasks ((w.found old new).apply s.tasks)
      rw [apply_found hrun]
      exact ho
    · cases r with
      | seats => exact absurd rfl hr
      | tasks =>
        show used ((w.found old new).apply s.tasks).rows o = used s.tasks.rows o + _
        rw [apply_found hrun, if_pos rfl, add_sub_cancel]
      | projects | storage => exact (add_zero _).symm
  | attachments w =>
    obtain ⟨⟨T', old, new⟩, hrun, h⟩ := bind_ok.mp h
    cases pure_ok.mp h
    refine ⟨rowWrite_counted hrun rfl rfl (fun o ho => ⟨fun _ => rfl, fun _ => rfl, ?_, fun _ => rfl⟩)
      fun o r hr => ?_, fun k hk => hk⟩
    · show SameOf o s.attachments ((w.found old new).apply s.attachments)
      rw [apply_found hrun]
      exact ho
    · cases r with
      | seats => exact absurd rfl hr
      | storage =>
        show used ((w.found old new).apply s.attachments).rows o = used s.attachments.rows o + _
        rw [apply_found hrun, if_pos rfl, add_sub_cancel]
      | projects | tasks => exact (add_zero _).symm
  | memberships w =>
    obtain ⟨⟨T', old, new⟩, hrun, h⟩ := bind_ok.mp h
    obtain ⟨_, -, h⟩ := bind_ok.mp h
    cases pure_ok.mp h
    exact ⟨rowWrite_memberships hrun, fun k hk => List.mem_append_left _ hk⟩

theorem delta_of_rows (h : limitPart.keys e = []) (o : Uuid) (r : Resource) : e.delta o r = 0 := by
  cases e with
  | usage o' r' d => cases h
  | _ => rfl

theorem Tx.write (h : Tx P s session [] ks ws) (he : RowWrite (seen s ws) session e pending)
    (hlocks : ∀ k ∈ e.locks, k ∈ locks) :
    Tx P s session pending (ks ++ locks) (ws ++ [e]) where
  covered := h.covered.append (covered_singleton hlocks)
  agree o ho := by
    rw [seen_append]
    exact (h.agree o ho).trans (he.agree o ho)
  own e' he' o ho := by
    rcases List.mem_append.mp he' with he' | he'
    · exact h.own e' he' o ho
    · rw [List.mem_singleton.mp he', he.rows] at ho
      cases ho
  triggers := he.triggers
  moved r hr := by
    rw [seen_append, he.moved r hr, h.moved r hr, deltas_append, delta_of_rows he.rows]
    simp [waiting]
  within r d hmem := by
    rcases List.mem_append.mp hmem with hmem | hmem
    · obtain ⟨l, hl, hwithin⟩ := h.within r d hmem
      refine ⟨l, ?_, hwithin⟩
      rw [seen_append, limits_of_rows he.rows]
      exact hl
    · have hrows := he.rows
      rw [← List.mem_singleton.mp hmem] at hrows
      cases hrows
  seats htouched := by
    by_cases hkeys : membershipPart.keys e = []
    · right
      have hearlier : Touched ws :=
        ((touched_append ws e).mp htouched).resolve_right fun hne => hne hkeys
      rcases h.seats hearlier with hp | ⟨hlock, l, hl, hcount, hwithin⟩
      · cases hp
      refine ⟨List.mem_append_left _ hlock, l, ?_, fun hP => ?_, hwithin⟩
      · rw [seen_append, limits_of_rows he.rows]
        exact hl
      · have hone : ∀ e' ∈ [e], membershipPart.keys e' = [] := by simpa using hkeys
        rw [hcount hP, seen_append]
        exact (seats_of_keys hone _ _).symm
    · exact Or.inl (he.seats.mp hkeys)
  counts hcounts := by
    rw [touched_append]
    rcases hcounts with ⟨o, n, hmem⟩ | ⟨o, hp⟩
    · rcases List.mem_append.mp hmem with hmem | hmem
      · exact Or.inl (h.counts (Or.inl ⟨o, n, hmem⟩))
      · have hrows := he.rows
        rw [← List.mem_singleton.mp hmem] at hrows
        cases hrows
    · have ho : o = session.organizationId := he.triggers _ hp
      exact Or.inr (he.seats.mpr (ho ▸ hp))

/-! ### Triggers -/

theorem applyDelta_within {limits limits' : Limits} {delta : ℤ}
    (h : applyOrganizationUsageDelta limits o r delta = .ok limits') (hdelta : delta ≠ 0) :
    r ≠ .seats ∧ ∃ l, limits.find? o = some l ∧
      (l.add r delta).current r ≤ (l.add r delta).configured r := by
  unfold applyOrganizationUsageDelta at h
  rw [if_neg hdelta] at h
  obtain ⟨hr, h⟩ := guard_ok.mp h
  cases hfind : limits.find? o with
  | none => simp [hfind] at h
  | some l =>
    simp only [hfind] at h
    obtain ⟨-, h⟩ := guard_ok.mp h
    obtain ⟨hover, -⟩ := guard_ok.mp h
    exact ⟨hr, l, rfl, not_lt.mp hover⟩

theorem Tx.usage {delta : ℤ} (h : Tx P s session (.usage o r delta :: pending) ks ws)
    {limits : Limits}
    (hok : applyOrganizationUsageDelta (seen s ws).limits o r delta = .ok limits)
    (hdelta : delta ≠ 0) :
    Tx P s session pending (ks ++ [.limits o]) (ws ++ [.usage o r delta]) := by
  obtain rfl : o = session.organizationId := h.triggers _ List.mem_cons_self
  obtain ⟨hr, l, hl, hover⟩ := applyDelta_within hok hdelta
  have hkey : l.organizationId = session.organizationId := Table.key_of_find? hl
  have hfind : (seen s (ws ++ [.usage session.organizationId r delta])).limits.find?
      session.organizationId = some (l.add r delta) := by
    rw [seen_append, find?_limits, hl, Option.map_some, Effect.onLimits, if_pos hkey]
  have htouched : Touched (ws ++ [.usage session.organizationId r delta]) → Touched ws := fun ht =>
    ((touched_append ws _).mp ht).resolve_right fun hne => hne rfl
  have husage : ∀ o r', (seen s (ws ++ [.usage session.organizationId r delta])).usage o r' =
      (seen s ws).usage o r' := by
    intro o r'
    rw [seen_append]
    cases r' <;> rfl
  refine {
    covered := h.covered.append (covered_singleton fun k hk => hk)
    agree := fun o ho => ?_
    own := fun e he o ho => ?_
    triggers := fun t ht => h.triggers t (List.mem_cons_of_mem _ ht)
    moved := fun r' hr' => ?_
    within := fun r' d hmem => ?_
    seats := fun ht => ?_
    counts := fun hcounts => ?_ }
  · rw [seen_append]
    exact (h.agree o ho).trans ⟨fun _ => rfl, fun _ => rfl, fun _ => rfl, fun _ => rfl⟩
  · rcases List.mem_append.mp he with he | he
    · exact h.own e he o ho
    · rw [List.mem_singleton.mp he] at ho
      exact List.mem_singleton.mp ho
  · rw [husage, h.moved r' hr', deltas_append]
    simp only [waiting, List.map_cons, List.sum_cons, Trigger.delta, Effect.delta, true_and]
    ring
  · by_cases hsame : r' = r
    · exact ⟨_, hfind, hsame ▸ hover⟩
    · rcases List.mem_append.mp hmem with hmem | hmem
      · obtain ⟨l', hl', hwithin⟩ := h.within r' d hmem
        rw [hl] at hl'
        cases hl'
        refine ⟨_, hfind, ?_⟩
        rw [configured_add]
        by_cases hseats : r' = .seats
        · subst hseats
          exact hwithin
        · rw [current_add l r r' delta hseats, if_neg hsame, add_zero]
          exact hwithin
      · cases List.mem_singleton.mp hmem
        exact absurd rfl hsame
  · rcases h.seats (htouched ht) with hp | ⟨hlock, l', hl', hcount, hwithin⟩
    · rcases List.mem_cons.mp hp with hp | hp
      · cases hp
      · exact Or.inl hp
    · rw [hl] at hl'
      cases hl'
      refine Or.inr ⟨List.mem_append_left _ hlock, _, hfind, fun hP => ?_, hwithin⟩
      rw [husage]
      exact hcount hP
  · rw [touched_append]
    left
    rcases hcounts with ⟨o, n, hmem⟩ | ⟨o, hp⟩
    · rcases List.mem_append.mp hmem with hmem | hmem
      · exact h.counts (Or.inl ⟨o, n, hmem⟩)
      · cases List.mem_singleton.mp hmem
    · exact h.counts (Or.inr ⟨o, List.mem_cons_of_mem _ hp⟩)

theorem Tx.usage_zero (h : Tx P s session (.usage o r 0 :: pending) ks ws) :
    Tx P s session pending ks ws where
  covered := h.covered
  agree := h.agree
  own := h.own
  triggers t ht := h.triggers t (List.mem_cons_of_mem _ ht)
  moved r' hr' := by
    rw [h.moved r' hr']
    simp [waiting, Trigger.delta]
  within := h.within
  seats ht := by
    rcases h.seats ht with hp | hcounted
    · rcases List.mem_cons.mp hp with hp | hp
      · cases hp
      · exact Or.inl hp
    · exact Or.inr hcounted
  counts hcounts := h.counts (hcounts.imp_right fun ⟨o, hp⟩ => ⟨o, List.mem_cons_of_mem _ hp⟩)

theorem refresh_within {rows : List MembershipRow} {limits limits' : Limits}
    (h : refreshMembershipUsageLimit session rows limits o = .ok limits') :
    ∃ l, limits.find? o = some l ∧
      (activeUsers (rows.filter session.sees) o : ℤ) ≤ l.maxSeats := by
  unfold refreshMembershipUsageLimit at h
  cases hfind : limits.find? o with
  | none => simp [hfind] at h
  | some before =>
    simp only [hfind] at h
    obtain ⟨hover, -⟩ := guard_ok.mp h
    exact ⟨before, rfl, not_lt.mp hover⟩

theorem Tx.seats_counted {limits : Limits} {n : ℕ}
    (h : Tx P s session (.seats o :: pending) ks ws)
    (hn : n = activeUsers ((seen s ws).memberships.rows.filter session.sees) o)
    (hok : refreshMembershipUsageLimit session (seen s ws).memberships.rows (seen s ws).limits o =
      .ok limits)
    (hall : P .seats → (n : ℤ) = (seen s ws).usage o .seats) :
    Tx P s session pending (ks ++ [.limits o]) (ws ++ [.seats o n]) := by
  obtain rfl : o = session.organizationId := h.triggers _ List.mem_cons_self
  obtain ⟨l, hl, hover⟩ := refresh_within hok
  rw [← hn] at hover
  have hkey : l.organizationId = session.organizationId := Table.key_of_find? hl
  have hfind : (seen s (ws ++ [.seats session.organizationId n])).limits.find?
      session.organizationId = some { l with currentSeats := n } := by
    rw [seen_append, find?_limits, hl, Option.map_some, Effect.onLimits, if_pos hkey]
  have husage : ∀ o r', (seen s (ws ++ [.seats session.organizationId n])).usage o r' =
      (seen s ws).usage o r' := by
    intro o r'
    rw [seen_append]
    cases r' <;> rfl
  refine {
    covered := h.covered.append (covered_singleton fun k hk => hk)
    agree := fun o ho => ?_
    own := fun e he o ho => ?_
    triggers := fun t ht => h.triggers t (List.mem_cons_of_mem _ ht)
    moved := fun r' hr' => ?_
    within := fun r' d hmem => ?_
    seats := fun _ => ?_
    counts := fun _ => ?_ }
  · rw [seen_append]
    exact (h.agree o ho).trans ⟨fun _ => rfl, fun _ => rfl, fun _ => rfl, fun _ => rfl⟩
  · rcases List.mem_append.mp he with he | he
    · exact h.own e he o ho
    · rw [List.mem_singleton.mp he] at ho
      exact List.mem_singleton.mp ho
  · rw [husage, h.moved r' hr', deltas_append]
    simp [waiting, Trigger.delta, Effect.delta]
  · rcases List.mem_append.mp hmem with hmem | hmem
    · obtain ⟨l', hl', hwithin⟩ := h.within r' d hmem
      rw [hl] at hl'
      cases hl'
      refine ⟨_, hfind, ?_⟩
      cases r' with
      | seats => exact hover
      | projects | tasks | storage => exact hwithin
    · cases List.mem_singleton.mp hmem
  · refine Or.inr ⟨List.mem_append_right _ (List.mem_singleton_self _), _, hfind, fun hP => ?_, hover⟩
    rw [husage]
    exact hall hP
  · rw [touched_append]
    exact Or.inl (h.counts (Or.inr ⟨_, List.mem_cons_self⟩))

/-! ### Other transactions -/

/-- What others may rely on: the limits of an organization are locked where its memberships change. -/
structure Committed (s : Store) (ks : List Lock) (ws : List Effect) : Prop where
  covered : Covered Effect.locks ks ws
  memberships : ∀ o, .limits o ∉ ks → SameOf o s.memberships (seen s ws).memberships

theorem Tx.committed (h : Tx P s session [] ks ws) : Committed s ks ws where
  covered := h.covered
  memberships o ho := by
    by_cases hown : o = session.organizationId
    · have hkeys : ∀ e ∈ ws, membershipPart.keys e = [] := by
        intro e he
        by_contra hne
        rcases h.seats ⟨e, he, hne⟩ with hp | ⟨hlock, -⟩
        · cases hp
        · exact ho (hown ▸ hlock)
      exact fun k => congrArg _ (membershipPart.find?_seen hkeys s k)
    · exact (h.agree o hown).memberships

theorem limits_below (hvs : Covered Effect.locks ks vs) (happart : script.Apart ks ks')
    (ho : .limits o ∈ ks') (s : Store) :
    (seen (seen s vs) ws).limits.find? o = (seen s ws).limits.find? o := by
  refine limitPart.acts.congr_all ws (limitPart.acts.frame_all s fun e he hk => ?_)
  have hlock : .limits o ∈ ks := hvs e he _ (limitPart.locks e o hk)
  exact happart.not_mem (decide_eq_true rfl) hlock ho

theorem Tx.other (h : Tx P s session pending ks' ws) (hc : Committed s ks vs)
    (hapart : script.Apart ks ks') : Tx P (seen s vs) session pending ks' ws where
  covered := h.covered
  agree o ho := (h.agree o ho).exchange (separate hc.covered h.covered hapart)
  own := h.own
  triggers := h.triggers
  moved r hr := by
    have hmoved := h.moved r hr
    have hexchange := usage_exchange (separate hc.covered h.covered hapart) s
      session.organizationId hr
    linarith
  within r d hmem := by
    obtain ⟨l, hl, hwithin⟩ := h.within r d hmem
    have hlock : .limits session.organizationId ∈ ks' :=
      h.covered _ hmem _ (List.mem_singleton_self _)
    exact ⟨l, (limits_below hc.covered hapart hlock s).trans hl, hwithin⟩
  seats ht := by
    rcases h.seats ht with hp | ⟨hlock, l, hl, hcount, hwithin⟩
    · exact Or.inl hp
    · refine Or.inr ⟨hlock, l, (limits_below hc.covered hapart hlock s).trans hl, fun hP => ?_, hwithin⟩
      have hfree : .limits session.organizationId ∉ ks := fun hk =>
        hapart.not_mem (decide_eq_true rfl) hk hlock
      have hsame := membershipPart.below
        (separate hc.covered h.covered hapart).memberships (hc.memberships _ hfree)
      exact (hcount hP).trans (congrArg Nat.cast (activeUsers_congr hsame).symm)
  counts := h.counts

/-! ### Runs -/

/-- What a running transaction knows. -/
def Known (P : Resource → Prop) (s : Store) : Point → List Lock → List Effect → Prop
  | .tenant session written pending, ks, ws => written = ws ∧ Tx P s session pending ks ws
  | .plan .., ks, ws => ks = [] ∧ ws = []
  | .planned, ks, ws => ∃ o maxSeats maxProjects maxTasks maxStorageMb, ks = [.limits o] ∧
      ws = [.configure o maxSeats maxProjects maxTasks maxStorageMb]

theorem exact_configure {o : Uuid} {a b c d : ℤ} (hs : Exact P s) :
    Exact P (seen s [.configure o a b c d]) := by
  intro o' l hl r hr
  have hfind : (seen s [.configure o a b c d]).limits.find? o' =
      (s.limits.find? o').map (Effect.configure o a b c d).onLimits :=
    find?_limits (.configure o a b c d) s o'
  rw [hfind] at hl
  obtain ⟨l₀, hl₀, rfl⟩ := Option.map_eq_some_iff.mp hl
  have hcurrent : ((Effect.configure o a b c d).onLimits l₀).current r = l₀.current r := by
    simp only [Effect.onLimits]
    split <;> cases r <;> rfl
  rw [hcurrent, hs o' l₀ hl₀ r hr]
  cases r <;> rfl

theorem committed_configure {o : Uuid} {a b c d : ℤ} :
    Committed s [.limits o] [.configure o a b c d] where
  covered := covered_singleton fun _ hk => hk
  memberships _ _ _ := rfl

theorem statement_ne_commit (i : Input) (p p' : Point) (s : Store) :
    script.statement i p s ≠ .commit p' := by
  intro h
  cases p with
  | tenant session written pending =>
    have h : tenantStatement session written i s pending = .commit p' := h
    unfold tenantStatement at h
    split at h
    · split at h <;> cases h
    · split at h
      · cases h
      · cases h
      · split at h <;> cases h
  | plan | planned => cases h

theorem commit_cases {i : Input} {p : Point} (hk : Known P s p ks ws)
    (hc : script.Commits i p s ws) :
    (∃ session, Tx P s session [] ks ws) ∨
      ∃ o a b c d, ks = [.limits o] ∧ ws = [.configure o a b c d] := by
  cases p with
  | tenant session written pending =>
    left
    obtain ⟨rfl, h⟩ := hk
    cases pending with
    | nil => exact ⟨session, h⟩
    | cons t pending =>
      have hstatement : script.statement i (.tenant session written (t :: pending))
          (script.view s written) = tenantStatement session written i (script.view s written)
            (t :: pending) := rfl
      unfold Script.Commits at hc
      rw [hstatement, tenantStatement] at hc
      split at hc
      · rcases hc with ⟨_, hc⟩ | ⟨_, hc⟩ <;> cases hc
      · rcases hc with ⟨_, hc⟩ | ⟨_, hc⟩ <;> cases hc
  | plan o a b c d => rcases hc with ⟨_, hc⟩ | ⟨_, hc⟩ <;> cases hc
  | planned => exact Or.inr hk

theorem exact_commit {i : Input} {p : Point} (hs : Exact P s) (hk : Known P s p ks ws)
    (hc : script.Commits i p s ws) : Exact P (seen s ws) := by
  rcases commit_cases hk hc with ⟨session, h⟩ | ⟨o, a, b, c, d, rfl, rfl⟩
  · exact h.exact hs
  · exact exact_configure hs

theorem committed_of_commits {i : Input} {p : Point} (hk : Known P s p ks ws)
    (hc : script.Commits i p s ws) : Committed s ks ws := by
  rcases commit_cases hk hc with ⟨session, h⟩ | ⟨o, a, b, c, d, rfl, rfl⟩
  · exact h.committed
  · exact committed_configure

theorem known_next {i : Input} {p p' : Point} (hk : Known P s p ks ws)
    (hg : P .seats → CountsAll s i p) {effects : List Effect}
    (h : script.statement i p (seen s ws) = .next p' ks' effects) :
    Known P s p' (ks ++ ks') (ws ++ effects) := by
  cases p with
  | tenant session written pending =>
    obtain ⟨rfl, htx⟩ := hk
    cases pending with
    | nil =>
      have h : tenantStatement session written i (seen s written) [] = .next p' ks' effects := h
      simp only [tenantStatement] at h
      split at h
      · cases h
      · cases h
      · split at h
        · cases h
        · next hrows =>
          cases h
          obtain ⟨he, hlocks⟩ := rowWrite_of_statement hrows
          exact ⟨rfl, htx.write he hlocks⟩
    | cons t pending =>
      have h : tenantStatement session written i (seen s written) (t :: pending) =
        .next p' ks' effects := h
      simp only [tenantStatement] at h
      split at h
      · cases h
      · next htrigger =>
        cases h
        refine ⟨rfl, ?_⟩
        cases t with
        | usage o r delta =>
          obtain ⟨limits, hlimits, heffects⟩ := bind_ok.mp htrigger
          cases pure_ok.mp heffects
          by_cases hzero : delta = 0
          · subst hzero
            simpa using htx.usage_zero
          · rw [if_neg hzero]
            exact htx.usage hlimits hzero
        | seats o =>
          obtain ⟨limits, hlimits, heffects⟩ := bind_ok.mp htrigger
          cases pure_ok.mp heffects
          exact htx.seats_counted rfl hlimits fun hP => congrArg Nat.cast (hg hP)
  | plan o a b c d =>
    obtain ⟨rfl, rfl⟩ := hk
    cases h
    exact ⟨o, a, b, c, d, rfl, rfl⟩
  | planned => cases h

theorem usage_laws (P : Resource → Prop) (guard : Store → Input → Point → Prop)
    (hguard : ∀ s i p, guard s i p → P .seats → CountsAll s i p) :
    Laws script guard (Exact P) (Known P) fun _ _ => True where
  first s call _ := by
    cases call with
    | tenant session => exact ⟨rfl, tx_nil P s session⟩
    | plan => exact ⟨rfl, rfl⟩
  next s i p ks ws p' ks' effects _ hk hg h := known_next hk (hguard s i p hg) h
  commit s i p ks ws p' _ _ _ h := absurd h (statement_ne_commit i p p' (script.view s ws))
  finish s i p ks ws r hs hk _ h := ⟨exact_commit hs hk (Or.inr ⟨r, h⟩), trivial⟩
  fail _ _ _ _ _ _ _ _ _ _ := trivial
  other s i p ks ws q ks' ws' _ hk hc hk' hapart := by
    have hcommitted := committed_of_commits hk hc
    cases q with
    | tenant session written pending => exact ⟨hk'.1, hk'.2.other hcommitted hapart⟩
    | plan | planned => exact hk'
  kept _ _ _ _ _ _ _ _ _ _ := trivial

theorem growsWithin_step {w w' : World} {event : Event}
    (hw : w.Holds script.program (Exact P) (Local.Knows (Known P) fun _ _ => True))
    (hok : Sessions.step script.program event w = .ok w') : GrowsWithin P w.store w'.store := by
  rcases committed_of_step hw hok with hsame | ⟨i, p, ks, ws, hstore, hknown, hcommits, -⟩
  · intro o r _ hgrows
    rw [hsame] at hgrows
    exact absurd hgrows (lt_irrefl _)
  · rw [hstore]
    rcases commit_cases hknown hcommits with ⟨session, htx⟩ | ⟨o, a, b, c, d, rfl, rfl⟩
    · exact htx.grows hw.store
    · intro o' r _ hgrows
      refine absurd hgrows (not_lt_of_ge (le_of_eq ?_))
      cases r <;> rfl

theorem exact_backfill (P : Resource → Prop) (start : Store) : Exact P (backfill start) := by
  intro o l hl r _
  unfold backfill at hl
  rw [Table.find?_update] at hl
  obtain ⟨l₀, hl₀, rfl⟩ := Option.map_eq_some_iff.mp hl
  obtain rfl : l₀.organizationId = o := Table.key_of_find? hl₀
  cases r <;> rfl

theorem exact_of_held {start : Store} {events : List Event}
    (hheld : (worldAfter start events).Holds script.program (Exact P)
      (Local.Knows (Known P) fun _ _ => True)) :
    Exact P (worldAfter start events).store ∧ ∀ event,
      GrowsWithin P (worldAfter start events).store (worldAfter start (events ++ [event])).store := by
  refine ⟨hheld.store, fun event => ?_⟩
  have hlast : worldAfter start (events ++ [event]) =
      Runs.exec (Sessions.step script.program) (worldAfter start events) event :=
    Sessions.run_concat _ events event
  rw [hlast, Runs.exec]
  cases hok : Sessions.step script.program event (worldAfter start events) with
  | ok w' => exact growsWithin_step hheld hok
  | error u => exact fun o r _ hgrows => absurd hgrows (lt_irrefl _)

/-- **Usage counters are exact**: projects, tasks and storage after every interleaving of statements,
seats where the sessions that count them see all active members; and no growth beyond a limit is
committed. -/
theorem usage_counters_exact (start : Store) (events : List Event) :
    (Exact (· ≠ .seats) (worldAfter start events).store ∧ ∀ event,
      GrowsWithin (· ≠ .seats) (worldAfter start events).store
        (worldAfter start (events ++ [event])).store) ∧
    (Runs.Guarded (Sessions.step script.program) (Sessions.World.Meets (atStatement CountsAll))
        (Sessions.World.closed (backfill start)) events →
      Exact (fun _ => True) (worldAfter start events).store ∧ ∀ event,
        GrowsWithin (fun _ => True) (worldAfter start events).store
          (worldAfter start (events ++ [event])).store) := by
  constructor
  · have hlaws := usage_laws (· ≠ .seats) (fun _ _ _ => True) fun _ _ _ _ h => absurd rfl h
    exact exact_of_held (Sessions.run_always (rules_always hlaws) events
      (Sessions.World.holds_closed (exact_backfill _ start)))
  · intro hg
    have hlaws := usage_laws (fun _ => True) CountsAll fun _ _ _ h _ => h
    exact exact_of_held (Sessions.run_rules (rules_of_laws hlaws) events
      (Sessions.World.holds_closed (exact_backfill _ start)) hg)

/-- Two members of an organization with two seats, each in a workspace of its own. -/
def twoWorkspaces : Store where
  plans := .empty
  subscriptions := .empty
  limits := ⟨[{ organizationId := 1
                maxSeats := 2
                maxProjects := 2
                maxTasks := 3
                maxStorageMb := 1 }], by decide⟩
  projects := .empty
  tasks := .empty
  attachments := .empty
  memberships := ⟨[
    { id := 11, userId := 1, organizationId := 1, workspaceId := some 10 },
    { id := 12, userId := 2, organizationId := 1, workspaceId := some 20 }], by decide⟩

def acts (session : ℕ) (inputs : List Input) : List Event :=
  inputs.map fun i => .act session (.statement i)

/-- Two sessions of the whole organization, statement by statement in turns. -/
def inTurns : List Event :=
  [.enter (.tenant { organizationId := 1 }), .enter (.tenant { organizationId := 1 })] ++
    acts 0 [.statement (.tasks (.insert [
      { id := 1, organizationId := 1, workspaceId := 10 },
      { id := 2, organizationId := 1, workspaceId := 20, deletedAt := some ⟨5⟩ }]))] ++
    acts 1 [.statement (.memberships (.delete [12]))] ++
    acts 0 [.commit] ++ acts 1 [.commit] ++ acts 0 [.commit] ++
    acts 1 [.statement (.tasks (.update [
      { id := 1, organizationId := 1, workspaceId := 10, deletedAt := some ⟨6⟩ },
      { id := 2, organizationId := 1, workspaceId := 20 }])), .commit]

theorem usage_counters_exact_turns :
    ((worldAfter twoWorkspaces inTurns).store.limits.rows.map fun l =>
      (l.currentSeats, l.currentTasks)) = [(1, 1)] ∧
    Exact (fun _ => True) (worldAfter twoWorkspaces inTurns).store ∧
    (∀ event, GrowsWithin (fun _ => True) (worldAfter twoWorkspaces inTurns).store
      (worldAfter twoWorkspaces (inTurns ++ [event])).store) :=
  ⟨by decide, (usage_counters_exact twoWorkspaces inTurns).2 (by decide)⟩

/-- A session of one workspace writes a membership there. -/
def ofOneWorkspace (w : Write MembershipRow) : List Event :=
  .enter (.tenant { organizationId := 1, workspaceId := some 10 }) ::
    acts 0 [.statement (.memberships w), .commit, .commit]

/-- The membership of the one workspace is updated. -/
def afterUpdate : Store :=
  (worldAfter twoWorkspaces (ofOneWorkspace (.update
    [{ id := 11, userId := 1, organizationId := 1, workspaceId := some 10 }]))).store

/-- A third user becomes a member of the one workspace. -/
def afterInsert : Store :=
  (worldAfter twoWorkspaces (ofOneWorkspace (.insert
    [{ id := 13, userId := 3, organizationId := 1, workspaceId := some 10 }]))).store

/-- The member of the other workspace is not counted: one seat in use instead of two, and a third
user on two seats. -/
theorem usage_counts_one_workspace :
    ((afterUpdate.limits.find? 1).map LimitRow.currentSeats = some 1 ∧
      afterUpdate.usage 1 .seats = 2 ∧ ¬ Exact (fun _ => True) afterUpdate) ∧
    ((afterInsert.limits.find? 1).map LimitRow.maxSeats = some 2 ∧
      afterInsert.usage 1 .seats = 3 ∧
      ¬ GrowsWithin (fun _ => True) (backfill twoWorkspaces) afterInsert) := by
  have hcurrent : (afterUpdate.limits.find? 1).map LimitRow.currentSeats = some 1 := by
    decide
  have hused : afterUpdate.usage 1 .seats = 2 := by decide
  have hmax : (afterInsert.limits.find? 1).map LimitRow.maxSeats = some 2 := by decide
  have hgrown : afterInsert.usage 1 .seats = 3 := by decide
  refine ⟨⟨hcurrent, hused, fun h => ?_⟩, hmax, hgrown, fun h => ?_⟩
  · obtain ⟨l, hl, hseats⟩ := Option.map_eq_some_iff.mp hcurrent
    have hexact : l.currentSeats = afterUpdate.usage 1 .seats := h 1 l hl .seats trivial
    rw [hseats, hused] at hexact
    cases hexact
  · obtain ⟨l, hl, hwithin⟩ := h 1 .seats trivial (by decide)
    rw [hl, Option.map_some, Option.some.injEq] at hmax
    have hover : (3 : ℤ) ≤ 2 := by
      rw [← hgrown, ← hmax]
      exact hwithin
    exact absurd hover (by decide)

end CalmBoard.Usage
