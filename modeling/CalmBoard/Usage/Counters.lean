import CalmBoard.Usage.Limits
import CalmBoard.Lib.Fallible
import Mathlib.Data.List.Dedup
import Mathlib.Algebra.Order.BigOperators.Group.List
import Mathlib.Algebra.Order.Group.Int

/-!
# CalmBoard.Usage.Counters — the counters follow the tables

A statement writes its rows and its trigger applies one change to the counter of its organization.

* `run_sum`, `used_run`: a statement moves a sum over the table by its new rows less its old rows.
* `enforce_eq`: the three triggers of a table apply just that.
* `counted_step`, `counted_after`: after every request the counters are what the tables hold.
-/

namespace CalmBoard.Usage

open Fallible

/-! ### Statements on a table -/

section Write

variable {ρ : Type} [TenantRow ρ] {session : Session} {allow : Bool} {T T' : Rows ρ}
  {w : Write ρ} {old new : List ρ}

theorem checkRows_ok {rows : List ρ} (h : checkRows session allow rows = .ok ()) :
    ∀ r ∈ rows, session.tenantMatches allow r = true := by
  unfold checkRows at h
  split at h
  · next hall => exact List.all_eq_true.mp hall
  · cases h

theorem insertRows_ok : ∀ {rows : List ρ} {T T' : Rows ρ},
    rows.foldlM insertRow T = .ok T' → T'.rows = T.rows ++ rows
  | [], T, T', h => by
    rw [List.foldlM_nil, pure_ok] at h
    rw [h, List.append_nil]
  | r :: rows, T, T', h => by
    rw [List.foldlM_cons, bind_ok] at h
    obtain ⟨U, hU, h⟩ := h
    unfold insertRow at hU
    cases hins : T.insert? r with
    | none => simp [hins] at hU
    | some V =>
      simp only [hins, Except.ok.injEq] at hU
      subst hU
      rw [insertRows_ok h, (Table.insert?_eq_some hins).2, List.append_assoc]
      rfl

theorem run_sum (v : ρ → ℤ) (h : w.run session allow T = .ok (T', old, new)) :
    (T'.rows.map v).sum = (T.rows.map v).sum + (new.map v).sum - (old.map v).sum := by
  cases w with
  | insert rows =>
    obtain ⟨_, -, h⟩ := bind_ok.mp h
    obtain ⟨U, hU, h⟩ := bind_ok.mp h
    cases pure_ok.mp h
    rw [insertRows_ok hU, List.map_append, List.sum_append, List.map_nil, List.sum_nil, sub_zero]
  | delete ids =>
    cases pure_ok.mp h
    have hsplit := List.sum_map_filter_add_sum_map_filter_not
      (fun r => TenantRow.id r ∈ ids ∧ session.tenantMatches allow r = true) v T.rows
    rw [Table.rows_remove, ← hsplit, List.map_nil, List.sum_nil, add_zero]
    simp
  | update rows =>
    obtain ⟨_, -, h⟩ := bind_ok.mp h
    cases pure_ok.mp h
    rw [Table.rows_update, Table.sum_replaced]

theorem run_tenant (h : w.run session allow T = .ok (T', old, new)) :
    ∀ r ∈ old ++ new, TenantRow.organizationId r = session.organizationId := by
  have hmatch : ∀ r : ρ, session.tenantMatches allow r = true →
      TenantRow.organizationId r = session.organizationId := by
    intro r hr
    unfold Session.tenantMatches at hr
    exact (of_decide_eq_true hr).1
  cases w with
  | insert rows =>
    obtain ⟨_, hcheck, h⟩ := bind_ok.mp h
    obtain ⟨U, hU, h⟩ := bind_ok.mp h
    cases pure_ok.mp h
    intro r hr
    exact hmatch r (checkRows_ok hcheck r hr)
  | delete ids =>
    cases pure_ok.mp h
    intro r hr
    rw [List.append_nil] at hr
    exact hmatch r (of_decide_eq_true (List.mem_filter.mp hr).2).2
  | update rows =>
    obtain ⟨_, hcheck, h⟩ := bind_ok.mp h
    cases pure_ok.mp h
    intro r hr
    rcases List.mem_append.mp hr with hr | hr
    · exact hmatch r (of_decide_eq_true (List.mem_filter.mp hr).2).2
    · exact hmatch r (checkRows_ok hcheck r hr)

end Write

/-! ### Grouping -/

variable {changes : List (Uuid × ℤ)}

theorem grouped_const {o : Uuid} (hne : changes ≠ []) (h : ∀ c ∈ changes, c.1 = o) :
    grouped changes = [(o, (changes.map Prod.snd).sum)] := by
  have hkeys : changes.map Prod.fst = List.replicate changes.length o := by
    rw [← List.length_map (f := Prod.fst)]
    refine List.eq_replicate_of_mem fun k hk => ?_
    obtain ⟨c, hc, rfl⟩ := List.mem_map.mp hk
    exact h c hc
  have hall : (changes.filter fun c => c.1 = o) = changes :=
    List.filter_eq_self.mpr fun c hc => by simpa using h c hc
  have hlen : changes.length ≠ 0 := fun h0 => hne (List.length_eq_zero_iff.mp h0)
  rw [grouped, hkeys, List.replicate_dedup hlen]
  show [(o, ((changes.filter fun c => c.1 = o).map Prod.snd).sum)] = _
  rw [hall]

/-! ### The triggers of a statement -/

section Counted

variable {ρ : Type} [CountedRow ρ] {session : Session} {allow : Bool} {T T' : Rows ρ}
  {w : Write ρ} {old new : List ρ} {resource : Resource} {limits limits' : Limits} {o : Uuid}

def weight (r : ρ) : ℤ := if CountedRow.active r then (CountedRow.size r : ℤ) else 0

theorem weight_nonneg (r : ρ) : 0 ≤ weight r := by
  unfold weight
  split
  · exact Int.natCast_nonneg _
  · exact le_rfl

theorem sum_countRows (sign : ℤ) (rows : List ρ) :
    ((countRows sign rows).map Prod.snd).sum = sign * (rows.map weight).sum := by
  induction rows with
  | nil => simp [countRows]
  | cons r rows ih =>
    unfold countRows at ih ⊢
    by_cases hr : CountedRow.active r = true
    · rw [List.filter_cons_of_pos hr, List.map_cons, List.map_cons, List.sum_cons, ih, List.map_cons,
        List.sum_cons, weight, if_pos hr, mul_add]
    · rw [List.filter_cons_of_neg hr, ih, List.map_cons, List.sum_cons, weight, if_neg hr, zero_add]

theorem countRows_tenant {sign : ℤ} {rows : List ρ}
    (h : ∀ r ∈ rows, TenantRow.organizationId r = o) : ∀ c ∈ countRows sign rows, c.1 = o := by
  intro c hc
  obtain ⟨r, hr, rfl⟩ := List.mem_map.mp hc
  exact h r (List.mem_filter.mp hr).1

theorem applyChanges_grouped (h : ∀ c ∈ changes, c.1 = o) :
    applyChanges resource limits (grouped changes) =
      applyOrganizationUsageDelta limits o resource (changes.map Prod.snd).sum := by
  by_cases hne : changes = []
  · subst hne
    rfl
  · rw [grouped_const hne h, applyChanges, List.foldlM_cons]
    cases applyOrganizationUsageDelta limits o resource (changes.map Prod.snd).sum with
    | error e => rfl
    | ok limits' => rfl

theorem applyChanges_having (h : ∀ c ∈ changes, c.1 = o) :
    applyChanges resource limits ((grouped changes).filter fun c => c.2 ≠ 0) =
      applyOrganizationUsageDelta limits o resource (changes.map Prod.snd).sum := by
  by_cases hne : changes = []
  · subst hne
    rfl
  · by_cases hzero : (changes.map Prod.snd).sum = 0
    · rw [grouped_const hne h, hzero, applyOrganizationUsageDelta, if_pos rfl]
      rfl
    · rw [← applyChanges_grouped h, grouped_const hne h]
      congr 1
      exact List.filter_cons_of_pos (by simpa using hzero)

/-- What a statement counts, before its trigger groups it. -/
def Write.counted (w : Write ρ) (old new : List ρ) : List (Uuid × ℤ) :=
  match w with
  | .insert _ => countRows 1 new
  | .delete _ => countRows (-1) old
  | .update _ => countRows 1 new ++ countRows (-1) old

theorem counted_tenant (h : w.run session allow T = .ok (T', old, new)) :
    ∀ c ∈ w.counted old new, c.1 = session.organizationId := by
  have hnew : ∀ c ∈ countRows 1 new, c.1 = session.organizationId :=
    countRows_tenant fun r hr => run_tenant h r (List.mem_append_right _ hr)
  have hold : ∀ c ∈ countRows (-1) old, c.1 = session.organizationId :=
    countRows_tenant fun r hr => run_tenant h r (List.mem_append_left _ hr)
  cases w with
  | insert rows => exact hnew
  | delete ids => exact hold
  | update rows => exact fun c hc => (List.mem_append.mp hc).elim (hnew c) (hold c)

theorem sum_counted (h : w.run session allow T = .ok (T', old, new)) :
    ((w.counted old new).map Prod.snd).sum = (new.map weight).sum - (old.map weight).sum := by
  cases w with
  | insert rows =>
    obtain ⟨_, -, h⟩ := bind_ok.mp h
    obtain ⟨U, -, h⟩ := bind_ok.mp h
    cases pure_ok.mp h
    rw [Write.counted, sum_countRows, one_mul, List.map_nil, List.sum_nil, sub_zero]
  | delete ids =>
    cases pure_ok.mp h
    rw [Write.counted, sum_countRows, neg_one_mul, List.map_nil, List.sum_nil, zero_sub]
  | update rows =>
    rw [Write.counted, List.map_append, List.sum_append, sum_countRows, sum_countRows, one_mul,
      neg_one_mul, sub_eq_add_neg]

theorem enforce_eq (h : w.run session allow T = .ok (T', old, new)) :
    enforce resource limits w old new =
      applyOrganizationUsageDelta limits session.organizationId resource
        ((new.map weight).sum - (old.map weight).sum) := by
  have htenant := counted_tenant h
  rw [← sum_counted h]
  cases w with
  | insert rows => exact applyChanges_grouped htenant
  | delete ids => exact applyChanges_grouped htenant
  | update rows => exact applyChanges_having htenant

/-- The use an organization makes of a table. -/
def used (rows : List ρ) (o : Uuid) : ℤ :=
  (rows.map fun r => if TenantRow.organizationId r = o then weight r else 0).sum

theorem used_nonneg (rows : List ρ) (o : Uuid) : 0 ≤ used rows o := by
  refine List.sum_nonneg fun x hx => ?_
  obtain ⟨r, -, rfl⟩ := List.mem_map.mp hx
  split
  · exact weight_nonneg r
  · exact le_rfl

theorem used_run (h : w.run session allow T = .ok (T', old, new)) (o : Uuid) :
    used T'.rows o = used T.rows o +
      if session.organizationId = o then (new.map weight).sum - (old.map weight).sum else 0 := by
  have htenant := run_tenant h
  have hsum : ∀ rows : List ρ, (∀ r ∈ rows, TenantRow.organizationId r = session.organizationId) →
      used rows o = if session.organizationId = o then (rows.map weight).sum else 0 := by
    intro rows hrows
    unfold used
    split
    · next ho =>
      exact congrArg List.sum (List.map_congr_left fun r hr => if_pos ((hrows r hr).trans ho))
    · next ho =>
      refine List.sum_eq_zero fun x hx => ?_
      obtain ⟨r, hr, rfl⟩ := List.mem_map.mp hx
      exact if_neg fun he => ho ((hrows r hr).symm.trans he)
  have hnew := hsum new fun r hr => htenant r (List.mem_append_right _ hr)
  have hold := hsum old fun r hr => htenant r (List.mem_append_left _ hr)
  have hrun : used T'.rows o = used T.rows o + used new o - used old o := run_sum _ h
  rw [hrun, hnew, hold]
  split <;> ring

end Counted

/-! ### Counters -/

section Limits

variable {limits limits' : Limits} {o : Uuid} {resource : Resource} {delta : ℤ} {l : LimitRow}

/-- A counter of an organization; one without a row counts nothing. -/
def counter (limits : Limits) (resource : Resource) (o : Uuid) : ℤ :=
  (limits.find? o).elim 0 fun l => l.current resource

theorem current_add (l : LimitRow) (resource r : Resource) (delta : ℤ) (hr : r ≠ .seats) :
    (l.add resource delta).current r = l.current r + if r = resource then delta else 0 := by
  cases r with
  | seats => exact absurd rfl hr
  | projects => cases resource <;> rfl
  | tasks => cases resource <;> rfl
  | storage => cases resource <;> rfl

theorem configured_add (l : LimitRow) (resource r : Resource) (delta : ℤ) :
    (l.add resource delta).configured r = l.configured r := by
  cases r <;> rfl

theorem applyDelta_ok
    (h : applyOrganizationUsageDelta limits o resource delta = .ok limits') :
    (delta = 0 ∧ limits' = limits) ∨ ∃ before, limits.find? o = some before ∧
      resource ≠ .seats ∧ limits' = limits.put (before.add resource delta) := by
  unfold applyOrganizationUsageDelta at h
  split at h
  · next hzero =>
    cases h
    exact Or.inl ⟨hzero, rfl⟩
  split at h
  · cases h
  next hresource =>
  cases hfind : limits.find? o with
  | none => simp [hfind] at h
  | some before =>
    simp only [hfind] at h
    obtain ⟨-, h⟩ := guard_ok.mp h
    obtain ⟨-, h⟩ := guard_ok.mp h
    cases h
    exact Or.inr ⟨before, rfl, hresource, rfl⟩

theorem applyDelta_exceeds (hresource : resource ≠ .seats)
    (hnonneg : ∀ l, limits.find? o = some l → (l.add resource delta).nonnegative = true) :
    (∃ r c m, applyOrganizationUsageDelta limits o resource delta = .error (.limitExceeded r c m)) ↔
      delta ≠ 0 ∧ ∃ l, limits.find? o = some l ∧ l.configured resource < l.current resource + delta := by
  unfold applyOrganizationUsageDelta
  by_cases hzero : delta = 0
  · rw [if_pos hzero]
    simp [hzero]
  rw [if_neg hzero, if_neg hresource]
  cases hfind : limits.find? o with
  | none => simp [throw, throwThe, MonadExceptOf.throw]
  | some l =>
    have hrow : (l.add resource delta).current resource = l.current resource + delta := by
      rw [current_add l resource resource delta hresource, if_pos rfl]
    simp only [hnonneg l hfind, hrow, configured_add, Bool.not_true, Bool.false_eq_true, if_false]
    by_cases hover : l.configured resource < l.current resource + delta
    · simp [hover, hzero, throw, throwThe, MonadExceptOf.throw]
    · simp [hover]

end Limits

/-! ### The invariant -/

/-- What an organization uses. -/
def Store.usage (s : Store) (o : Uuid) : Resource → ℤ
  | .seats => activeUsers s.memberships.rows o
  | .projects => used s.projects.rows o
  | .tasks => used s.tasks.rows o
  | .storage => used s.attachments.rows o

/-- The counters are what the tables hold. -/
structure Counted (s : Store) : Prop where
  counters : ∀ o resource, resource ≠ .seats → counter s.limits resource o = s.usage o resource
  seats : ∀ o l, s.limits.find? o = some l → 0 ≤ l.currentSeats

variable {s s' : Store} {session : Session}

theorem usage_nonneg (s : Store) (o : Uuid) (resource : Resource) : 0 ≤ s.usage o resource := by
  cases resource with
  | seats => exact Int.natCast_nonneg _
  | projects => exact used_nonneg _ _
  | tasks => exact used_nonneg _ _
  | storage => exact used_nonneg _ _

theorem Counted.current (hs : Counted s) {o : Uuid} {l : LimitRow} (hl : s.limits.find? o = some l)
    {resource : Resource} (hr : resource ≠ .seats) : l.current resource = s.usage o resource := by
  rw [← hs.counters o resource hr, counter, hl]
  rfl

theorem Counted.nonnegative_add (hs : Counted s) {o : Uuid} {resource : Resource} {delta : ℤ}
    (hdelta : 0 ≤ s.usage o resource + delta) (l : LimitRow) (hl : s.limits.find? o = some l) :
    (l.add resource delta).nonnegative = true := by
  have hcurrent : ∀ r, r ≠ .seats → 0 ≤ (l.add resource delta).current r := by
    intro r hr
    rw [current_add l resource r delta hr, hs.current hl hr]
    split
    · next he => exact he ▸ hdelta
    · exact (usage_nonneg s o r).trans_eq (add_zero _).symm
  have hseats : 0 ≤ (l.add resource delta).currentSeats := hs.seats o l hl
  exact decide_eq_true ⟨hseats, hcurrent .projects (by decide), hcurrent .tasks (by decide),
    hcurrent .storage (by decide)⟩

theorem counter_put {limits : Limits} {row before : LimitRow}
    (hfind : limits.find? row.organizationId = some before) {resource : Resource}
    (hrow : row.current resource = before.current resource) (o : Uuid) :
    counter (limits.put row) resource o = counter limits resource o := by
  unfold counter
  rw [Table.find?_put hfind]
  by_cases ho : row.organizationId = o
  · rw [if_pos ho, ← ho, hfind]
    exact hrow
  · rw [if_neg ho]

theorem counted_statement (resource : Resource) {delta : ℤ} (hs : Counted s)
    (husage : ∀ o r, r ≠ .seats → s'.usage o r = s.usage o r +
      if session.organizationId = o ∧ r = resource then delta else 0)
    (hlimits : applyOrganizationUsageDelta s.limits session.organizationId resource delta =
      .ok s'.limits) : Counted s' := by
  rcases applyDelta_ok hlimits with ⟨hzero, hsame⟩ | ⟨before, hbefore, -, hput⟩
  · refine ⟨fun o r hr => ?_, fun o l hl => hs.seats o l (hsame ▸ hl)⟩
    rw [hsame, hs.counters o r hr, husage o r hr, hzero, ite_self, add_zero]
  have horg : before.organizationId = session.organizationId := Table.key_of_find? hbefore
  have hfind : s.limits.find? (before.add resource delta).organizationId = some before := by
    show s.limits.find? before.organizationId = some before
    rw [horg, hbefore]
  refine ⟨fun o r hr => ?_, fun o l hl => ?_⟩
  · rw [husage o r hr, ← hs.counters o r hr, hput, counter, Table.find?_put hfind]
    by_cases ho : session.organizationId = o
    · have hkey : (before.add resource delta).organizationId = o := horg.trans ho
      rw [if_pos hkey, counter, ← ho, hbefore]
      show (before.add resource delta).current r = before.current r + _
      rw [current_add before resource r delta hr]
      simp
    · have hkey : (before.add resource delta).organizationId ≠ o := fun h => ho (horg.symm.trans h)
      rw [if_neg hkey, if_neg fun h => ho h.1, add_zero]
      rfl
  · rw [hput, Table.find?_put hfind] at hl
    by_cases ho : (before.add resource delta).organizationId = o
    · rw [if_pos ho] at hl
      cases hl
      exact hs.seats _ before hbefore
    · rw [if_neg ho] at hl
      exact hs.seats o l hl

/-- The limits after seats were refreshed: the counters stay. -/
structure SeatsOnly (limits limits' : Limits) : Prop where
  counters : ∀ o resource, resource ≠ .seats → counter limits' resource o = counter limits resource o
  seats : (∀ o l, limits.find? o = some l → 0 ≤ l.currentSeats) →
    ∀ o l, limits'.find? o = some l → 0 ≤ l.currentSeats

theorem SeatsOnly.refl (limits : Limits) : SeatsOnly limits limits := ⟨fun _ _ _ => rfl, fun h => h⟩

theorem SeatsOnly.trans {L M N : Limits} (h : SeatsOnly L M) (h' : SeatsOnly M N) : SeatsOnly L N :=
  ⟨fun o r hr => (h'.counters o r hr).trans (h.counters o r hr), fun hl => h'.seats (h.seats hl)⟩

theorem refresh_ok {rows : List MembershipRow} {limits limits' : Limits} {o : Uuid}
    (h : refreshMembershipUsageLimit session rows limits o = .ok limits') :
    SeatsOnly limits limits' := by
  unfold refreshMembershipUsageLimit at h
  cases hfind : limits.find? o with
  | none => simp [hfind] at h
  | some before =>
    simp only [hfind] at h
    obtain ⟨-, h⟩ := guard_ok.mp h
    cases h
    have hkey : before.organizationId = o := Table.key_of_find? hfind
    refine ⟨fun p r hr => @counter_put _ _ before (by rw [← hfind, ← hkey]) r ?_ p,
      fun hl p l hp => ?_⟩
    · cases r with
      | seats => exact absurd rfl hr
      | projects => rfl
      | tasks => rfl
      | storage => rfl
    · rw [Table.find?_put (s := before) (by rw [← hfind, ← hkey])] at hp
      by_cases hop : before.organizationId = p
      · rw [if_pos hop] at hp
        cases hp
        exact Int.natCast_nonneg _
      · rw [if_neg hop] at hp
        exact hl p l hp

theorem enforceMembership_ok {rows : List MembershipRow} {limits limits' : Limits}
    {e : Option MembershipRow × Option MembershipRow}
    (h : enforceMembershipUsageLimit session rows limits e = .ok limits') :
    SeatsOnly limits limits' := by
  rcases e with ⟨_ | old, _ | new⟩
  · cases h
    exact .refl limits
  · exact refresh_ok h
  · exact refresh_ok h
  · simp only [enforceMembershipUsageLimit] at h
    split at h
    · exact refresh_ok h
    · split at h
      · obtain ⟨M, hM, h⟩ := bind_ok.mp h
        exact (refresh_ok hM).trans (refresh_ok h)
      · obtain ⟨M, hM, h⟩ := bind_ok.mp h
        exact (refresh_ok hM).trans (refresh_ok h)

theorem counted_exec {st : Statement} (hs : Counted s) (h : st.exec s session = .ok s') :
    Counted s' := by
  obtain ⟨⟨t, checked⟩, hwritten, h⟩ := bind_ok.mp h
  obtain ⟨limits, hlimits, h⟩ := bind_ok.mp h
  cases pure_ok.mp h
  cases st with
  | projects w =>
    obtain ⟨⟨table, old, new⟩, hrun, hwritten⟩ := bind_ok.mp hwritten
    cases pure_ok.mp hwritten
    refine counted_statement .projects hs (fun o r hr => ?_)
      ((enforce_eq hrun).symm.trans hlimits)
    cases r with
    | seats => exact absurd rfl hr
    | projects => exact (used_run hrun o).trans (by simp [Store.usage])
    | _ => simp [Store.usage]
  | tasks w =>
    obtain ⟨⟨table, old, new⟩, hrun, hwritten⟩ := bind_ok.mp hwritten
    cases pure_ok.mp hwritten
    refine counted_statement .tasks hs (fun o r hr => ?_)
      ((enforce_eq hrun).symm.trans hlimits)
    cases r with
    | seats => exact absurd rfl hr
    | tasks => exact (used_run hrun o).trans (by simp [Store.usage])
    | _ => simp [Store.usage]
  | attachments w =>
    obtain ⟨⟨table, old, new⟩, hrun, hwritten⟩ := bind_ok.mp hwritten
    cases pure_ok.mp hwritten
    refine counted_statement .storage hs (fun o r hr => ?_)
      ((enforce_eq hrun).symm.trans hlimits)
    cases r with
    | seats => exact absurd rfl hr
    | storage => exact (used_run hrun o).trans (by simp [Store.usage])
    | _ => simp [Store.usage]
  | memberships w =>
    obtain ⟨⟨table, old, new⟩, hrun, hwritten⟩ := bind_ok.mp hwritten
    obtain ⟨_, -, hwritten⟩ := bind_ok.mp hwritten
    cases pure_ok.mp hwritten
    have hseats : SeatsOnly s.limits limits := by
      refine foldlM_ok (I := SeatsOnly s.limits) hlimits (.refl _) ?_
      intro L e M _ hL hM
      exact hL.trans (enforceMembership_ok hM)
    refine ⟨fun o r hr => ?_, hseats.seats hs.seats⟩
    rw [hseats.counters o r hr, hs.counters o r hr]
    cases r with
    | seats => exact absurd rfl hr
    | projects => rfl
    | tasks => rfl
    | storage => rfl

theorem counter_projectLimits (limits : Limits) (o : Uuid) (plan : PlanRow) (seats : ℤ)
    (resource : Resource) (p : Uuid) :
    counter (projectLimits limits o plan seats) resource p = counter limits resource p := by
  unfold counter projectLimits
  rw [Table.find?_upsert]
  by_cases hp : o = p
  · subst hp
    rw [if_pos rfl]
    cases limits.find? o with
    | none => cases resource <;> rfl
    | some l => cases resource <;> rfl
  · rw [if_neg hp]

theorem counted_projectLimits (hs : Counted s) (o : Uuid) (plan : PlanRow) (seats : ℤ) :
    Counted { s with limits := projectLimits s.limits o plan seats } := by
  refine ⟨fun p r hr => (counter_projectLimits s.limits o plan seats r p).trans (hs.counters p r hr),
    fun p l hl => ?_⟩
  unfold projectLimits at hl
  rw [Table.find?_upsert] at hl
  by_cases hp : o = p
  · rw [if_pos hp] at hl
    cases hl
    cases hfind : s.limits.find? o with
    | none => exact le_rfl
    | some before => exact hs.seats o before hfind
  · rw [if_neg hp] at hl
    exact hs.seats p l hl

theorem counted_writeSubscription {row : SubscriptionRow} (hs : Counted s)
    (h : writeSubscription s row = .ok s') : Counted s' := by
  obtain ⟨_, -, h⟩ := bind_ok.mp h
  obtain ⟨_, -, h⟩ := bind_ok.mp h
  have hsub : Counted { s with subscriptions := s.subscriptions.upsert row } :=
    ⟨hs.counters, hs.seats⟩
  unfold syncCurrentSubscriptionProjection at h
  split at h
  · split at h
    · cases h
    · cases h
      exact counted_projectLimits hsub _ _ _
  · split at h
    · cases h
    · cases h
      exact counted_projectLimits hsub _ _ _

theorem counted_updatePlan {plan : PlanRow} (hs : Counted s) (h : updatePlan s plan = .ok s') :
    Counted s' := by
  unfold updatePlan at h
  split at h
  · cases h
    exact hs
  · obtain ⟨_, -, h⟩ := bind_ok.mp h
    cases pure_ok.mp h
    refine ⟨fun o r hr => ?_, fun o l hl => ?_⟩
    · refine Eq.trans ?_ (hs.counters o r hr)
      unfold counter syncSubscriptionPlanUsageLimits
      rw [Table.find?_update]
      cases s.limits.find? o with
      | none => rfl
      | some l =>
        simp only [Option.map_some, Option.elim_some]
        split
        · cases r <;> rfl
        · rfl
    · unfold syncSubscriptionPlanUsageLimits at hl
      rw [Table.find?_update] at hl
      obtain ⟨before, hbefore, rfl⟩ := Option.map_eq_some_iff.mp hl
      split
      · exact hs.seats o before hbefore
      · exact hs.seats o before hbefore

theorem counted_step {request : Request} (hs : Counted s) (h : step request s = .ok s') :
    Counted s' := by
  cases request with
  | createOrganization organizationId subscriptionId plan seats =>
    have h : createDefaultOrganizationSubscription s organizationId subscriptionId plan seats =
        .ok s' := h
    unfold createDefaultOrganizationSubscription at h
    split at h
    · cases h
    · exact counted_writeSubscription hs h
  | writeSubscription row => exact counted_writeSubscription hs h
  | updatePlan plan => exact counted_updatePlan hs h
  | statement session st => exact counted_exec hs h

theorem counted_after (plans : Table PlanRow PlanRow.id) (requests : List Request) :
    Counted (after plans requests) := by
  refine Runs.run_invariant (fun _ _ _ => counted_step) requests _ ⟨fun o r hr => ?_, fun o l hl => ?_⟩
  · cases r with
    | seats => exact absurd rfl hr
    | projects => rfl
    | tasks => rfl
    | storage => rfl
  · cases hl

end CalmBoard.Usage
