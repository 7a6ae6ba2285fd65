import CalmBoard.Usage.Counters

/-!
# CalmBoard.Usage.Shrinking — what a lowered limit blocks

Every statement that changes a count is compared with the limit by the count it leaves, whether the
count went up or down; a statement on memberships is compared whatever it changes.

* `rejected_enforce`, `rejected_refresh`: when a trigger rejects.
* `shrinking_passes_iff`: a statement that does not grow usage passes exactly when what it leaves is
  within the limit, or is no other count.
* `downgrade_blocks_deletion`: after a downgrade a task cannot be deleted.
-/

namespace CalmBoard.Usage

open Fallible

variable {s s' : Store} {session : Session}

/-! ### Rejection -/

/-- A statement ends with `usage limit exceeded`. -/
def Rejected {α : Type} (r : Except UsageError α) : Prop :=
  ∃ resource current limit, r = .error (.limitExceeded resource current limit)

/-- A statement leaves an organization with no more of any resource than it had. -/
def DoesNotGrow (s : Store) (session : Session) (st : Statement) : Prop :=
  ∀ s' checked, st.written s session = .ok (s', checked) →
    ∀ o resource, s'.usage o resource ≤ s.usage o resource

/-- What a counted table holds for an organization before and after a statement: the same, or no
more than the limit. -/
def Within (limits : Limits) (o : Uuid) (resource : Resource) (before after : ℤ) : Prop :=
  after = before ∨ ∀ l, limits.find? o = some l → after ≤ l.configured resource

/-- What the rows of a statement leave is within the limit, or is no other count than before.
Memberships are counted as the session sees them, whatever was written of them. -/
def Fits (s : Store) (session : Session) : Statement → Prop
  | .projects w => ∀ table old new, w.run session false s.projects = .ok (table, old, new) →
      Within s.limits session.organizationId .projects (used s.projects.rows session.organizationId)
        (used table.rows session.organizationId)
  | .tasks w => ∀ table old new, w.run session false s.tasks = .ok (table, old, new) →
      Within s.limits session.organizationId .tasks (used s.tasks.rows session.organizationId)
        (used table.rows session.organizationId)
  | .attachments w => ∀ table old new, w.run session false s.attachments = .ok (table, old, new) →
      Within s.limits session.organizationId .storage (used s.attachments.rows session.organizationId)
        (used table.rows session.organizationId)
  | .memberships w => ∀ table old new, w.run session true s.memberships = .ok (table, old, new) →
      checkMemberships table.rows = .ok () → w.events old new = [] ∨
        ∀ l, s.limits.find? session.organizationId = some l →
          (activeUsers (table.rows.filter session.sees) session.organizationId : ℤ) ≤ l.maxSeats

theorem rejected_bind {α β : Type} {x : Except UsageError α} {f : α → Except UsageError β} :
    Rejected (x >>= f) ↔ Rejected x ∨ ∃ a, x = .ok a ∧ Rejected (f a) := by
  cases x with
  | error e => simp [Rejected, bind, Except.bind]
  | ok a => simp [Rejected, bind, Except.bind]

theorem not_rejected_pure {α : Type} (a : α) : ¬ Rejected (pure a : Except UsageError α) := by
  rintro ⟨_, _, _, h⟩
  cases h

theorem not_rejected_checkRows {ρ : Type} [TenantRow ρ] {allow : Bool} (rows : List ρ) :
    ¬ Rejected (checkRows session allow rows) := by
  rintro ⟨_, _, _, h⟩
  unfold checkRows at h
  split at h <;> cases h

theorem not_rejected_run {ρ : Type} [TenantRow ρ] {allow : Bool} {T : Rows ρ} {w : Write ρ} :
    ¬ Rejected (w.run session allow T) := by
  have hinsert : ∀ (rows : List ρ) (T : Rows ρ), ¬ Rejected (rows.foldlM insertRow T) := by
    intro rows
    induction rows with
    | nil => exact fun T => not_rejected_pure T
    | cons r rows ih =>
      intro T h
      rw [List.foldlM_cons] at h
      rcases rejected_bind.mp h with ⟨_, _, _, h⟩ | ⟨U, -, h⟩
      · unfold insertRow at h
        split at h <;> cases h
      · exact ih U h
  intro h
  cases w with
  | insert rows =>
    rcases rejected_bind.mp h with h | ⟨_, -, h⟩
    · exact not_rejected_checkRows rows h
    · rcases rejected_bind.mp h with h | ⟨_, -, h⟩
      · exact hinsert rows T h
      · exact not_rejected_pure _ h
  | delete ids => exact not_rejected_pure _ h
  | update rows =>
    rcases rejected_bind.mp h with h | ⟨_, -, h⟩
    · exact not_rejected_checkRows _ h
    · exact not_rejected_pure _ h

theorem rejected_enforce {ρ : Type} [CountedRow ρ] {allow : Bool} {T T' : Rows ρ} {w : Write ρ}
    {old new : List ρ} {resource : Resource} (hs : Counted s) (hresource : resource ≠ .seats)
    (husage : s.usage session.organizationId resource = used T.rows session.organizationId)
    (hrun : w.run session allow T = .ok (T', old, new)) :
    Rejected (enforce resource s.limits w old new) ↔
      ¬ Within s.limits session.organizationId resource (used T.rows session.organizationId)
        (used T'.rows session.organizationId) := by
  have hafter := used_run hrun session.organizationId
  rw [if_pos rfl] at hafter
  have hnonneg : 0 ≤ s.usage session.organizationId resource +
      ((new.map weight).sum - (old.map weight).sum) := by
    rw [husage, ← hafter]
    exact used_nonneg _ _
  rw [enforce_eq hrun, Rejected, applyDelta_exceeds hresource (hs.nonnegative_add hnonneg), Within,
    hafter]
  constructor
  · rintro ⟨hdelta, l, hl, hover⟩ hwithin
    rw [hs.current hl hresource, husage] at hover
    rcases hwithin with hsame | hle
    · exact hdelta (by omega)
    · exact absurd (hle l hl) (not_le.mpr hover)
  · intro hnot
    rw [not_or] at hnot
    obtain ⟨hdelta, hle⟩ := hnot
    push Not at hle
    obtain ⟨l, hl, hover⟩ := hle
    refine ⟨fun h0 => hdelta (by rw [h0, add_zero]), l, hl, ?_⟩
    rwa [hs.current hl hresource, husage]

/-! ### Seats -/

/-- The seats the session counts are more than the organization has. -/
def SeatsOver (session : Session) (rows : List MembershipRow) (limits : Limits) (o : Uuid) : Prop :=
  ∃ l, limits.find? o = some l ∧ l.maxSeats < activeUsers (rows.filter session.sees) o

theorem rejected_refresh {rows : List MembershipRow} {limits : Limits} {o : Uuid} :
    Rejected (refreshMembershipUsageLimit session rows limits o) ↔
      SeatsOver session rows limits o := by
  unfold refreshMembershipUsageLimit SeatsOver Rejected
  cases hfind : limits.find? o with
  | none => simp [throw, throwThe, MonadExceptOf.throw]
  | some l =>
    by_cases hover : l.maxSeats < activeUsers (rows.filter session.sees) o
    · simp [hover, throw, throwThe, MonadExceptOf.throw]
    · simp [hover]

theorem not_seatsOver_of_refresh {rows : List MembershipRow} {limits limits' : Limits} {o : Uuid}
    (h : refreshMembershipUsageLimit session rows limits o = .ok limits') :
    ¬ SeatsOver session rows limits o ∧ ¬ SeatsOver session rows limits' o := by
  have hok : ¬ SeatsOver session rows limits o := by
    rw [← rejected_refresh, h]
    rintro ⟨_, _, _, h⟩
    cases h
  refine ⟨hok, ?_⟩
  unfold refreshMembershipUsageLimit at h
  cases hfind : limits.find? o with
  | none => simp [hfind] at h
  | some before =>
    simp only [hfind] at h
    obtain ⟨-, h⟩ := guard_ok.mp h
    cases h
    have hkey : before.organizationId = o := Table.key_of_find? hfind
    rintro ⟨l, hl, hover⟩
    rw [Table.find?_put (s := before) (by rw [← hfind, ← hkey]), if_pos hkey] at hl
    cases hl
    exact hok ⟨before, hfind, hover⟩

theorem rejected_events {rows : List MembershipRow} {o : Uuid} :
    ∀ {events : List (Option MembershipRow × Option MembershipRow)} {limits : Limits},
      (∀ e ∈ events, ∀ L, enforceMembershipUsageLimit session rows L e =
        refreshMembershipUsageLimit session rows L o) →
      (Rejected (events.foldlM (enforceMembershipUsageLimit session rows) limits) ↔
        events ≠ [] ∧ SeatsOver session rows limits o)
  | [], limits, _ => by
    rw [List.foldlM_nil]
    exact iff_of_false (not_rejected_pure limits) fun h => h.1 rfl
  | e :: events, limits, hevents => by
    have ih := fun L => @rejected_events rows o events L
      fun f hf => hevents f (List.mem_cons_of_mem e hf)
    rw [List.foldlM_cons, hevents e List.mem_cons_self, rejected_bind, rejected_refresh]
    constructor
    · rintro (hover | ⟨L, hL, hrest⟩)
      · exact ⟨List.cons_ne_nil _ _, hover⟩
      · exact absurd ((ih L).mp hrest).2 (not_seatsOver_of_refresh hL).2
    · exact fun h => Or.inl h.2

theorem enforceMembership_tenant {w : Write MembershipRow} {old new : List MembershipRow} {o : Uuid}
    (htenant : ∀ r ∈ old ++ new, r.organizationId = o) :
    ∀ e ∈ w.events old new, ∀ rows L, enforceMembershipUsageLimit session rows L e =
      refreshMembershipUsageLimit session rows L o := by
  have hold : ∀ r ∈ old, r.organizationId = o := fun r hr => htenant r (List.mem_append_left _ hr)
  have hnew : ∀ r ∈ new, r.organizationId = o := fun r hr => htenant r (List.mem_append_right _ hr)
  intro e he rows L
  cases w with
  | insert _ =>
    obtain ⟨r, hr, rfl⟩ := List.mem_map.mp he
    rw [enforceMembershipUsageLimit, hnew r hr]
  | delete _ =>
    obtain ⟨r, hr, rfl⟩ := List.mem_map.mp he
    rw [enforceMembershipUsageLimit, hold r hr]
  | update _ =>
    obtain ⟨⟨a, b⟩, hab, rfl⟩ := List.mem_map.mp he
    have ha := hold a (List.of_mem_zip hab).1
    have hb := hnew b (List.of_mem_zip hab).2
    rw [enforceMembershipUsageLimit, ha, hb, if_pos rfl]

/-! ### The result -/

theorem rejected_exec {st : Statement} : Rejected (st.exec s session) ↔
    ∃ s' checked, st.written s session = .ok (s', checked) ∧ Rejected checked := by
  have hwritten : ¬ Rejected (st.written s session) := by
    intro h
    cases st with
    | memberships w =>
      rcases rejected_bind.mp h with h | ⟨_, -, h⟩
      · exact not_rejected_run h
      · rcases rejected_bind.mp h with ⟨_, _, _, h⟩ | ⟨_, -, h⟩
        · unfold checkMemberships at h
          split at h <;> cases h
        · exact not_rejected_pure _ h
    | _ w =>
      rcases rejected_bind.mp h with h | ⟨_, -, h⟩
      · exact not_rejected_run h
      · exact not_rejected_pure _ h
  unfold Statement.exec
  rw [rejected_bind, or_iff_right hwritten]
  constructor
  · rintro ⟨⟨s', checked⟩, hok, h⟩
    rcases rejected_bind.mp h with h | ⟨_, -, h⟩
    · exact ⟨s', checked, hok, h⟩
    · exact absurd h (not_rejected_pure _)
  · rintro ⟨s', checked, hok, h⟩
    exact ⟨(s', checked), hok, rejected_bind.mpr (Or.inl h)⟩

/-- A statement on a counted table passes when every way its rows can be written is within the
limit. -/
theorem passes_counted {ρ : Type} [CountedRow ρ] {T : Rows ρ} {w : Write ρ} {resource : Resource}
    (hs : Counted s) (hresource : resource ≠ .seats)
    (husage : s.usage session.organizationId resource = used T.rows session.organizationId)
    (put : Rows ρ → Store) :
    (¬ ∃ s' checked, (do
      let (table, old, new) ← w.run session false T
      return (put table, enforce resource s.limits w old new)) = .ok (s', checked) ∧
        Rejected checked) ↔
      ∀ table old new, w.run session false T = .ok (table, old, new) →
        Within s.limits session.organizationId resource (used T.rows session.organizationId)
          (used table.rows session.organizationId) := by
  constructor
  · intro h table old new hrun
    by_contra hnot
    exact h ⟨_, _, bind_ok.mpr ⟨_, hrun, rfl⟩, (rejected_enforce hs hresource husage hrun).mpr hnot⟩
  · rintro h ⟨s', checked, hwritten, hrejected⟩
    obtain ⟨⟨table, old, new⟩, hrun, hwritten⟩ := bind_ok.mp hwritten
    cases pure_ok.mp hwritten
    exact (rejected_enforce hs hresource husage hrun).mp hrejected (h table old new hrun)

theorem rejected_memberships {T T' : Rows MembershipRow} {w : Write MembershipRow}
    {old new : List MembershipRow} {limits : Limits}
    (hrun : w.run session true T = .ok (T', old, new)) :
    Rejected ((w.events old new).foldlM (enforceMembershipUsageLimit session T'.rows) limits) ↔
      w.events old new ≠ [] ∧ SeatsOver session T'.rows limits session.organizationId :=
  rejected_events fun e he L => enforceMembership_tenant (run_tenant hrun) e he T'.rows L

theorem not_rejected_iff_fits (hs : Counted s) (st : Statement) :
    ¬ Rejected (st.exec s session) ↔ Fits s session st := by
  rw [rejected_exec]
  cases st with
  | projects w => exact passes_counted hs (by decide) rfl fun table => { s with projects := table }
  | tasks w => exact passes_counted hs (by decide) rfl fun table => { s with tasks := table }
  | attachments w =>
    exact passes_counted hs (by decide) rfl fun table => { s with attachments := table }
  | memberships w =>
    constructor
    · intro h table old new hrun hcheck
      by_cases hempty : w.events old new = []
      · exact Or.inl hempty
      refine Or.inr fun l hl => ?_
      by_contra hover
      refine h ⟨_, _, bind_ok.mpr ⟨_, hrun, bind_ok.mpr ⟨(), hcheck, rfl⟩⟩, ?_⟩
      exact (rejected_memberships hrun).mpr ⟨hempty, l, hl, not_le.mp hover⟩
    · rintro h ⟨s', checked, hwritten, hrejected⟩
      obtain ⟨⟨table, old, new⟩, hrun, hwritten⟩ := bind_ok.mp hwritten
      obtain ⟨_, hcheck, hwritten⟩ := bind_ok.mp hwritten
      cases pure_ok.mp hwritten
      obtain ⟨hne, l, hl, hover⟩ := (rejected_memberships hrun).mp hrejected
      rcases h table old new hrun hcheck with hempty | hle
      · exact hne hempty
      · exact absurd (hle l hl) (not_le.mpr hover)

/-- **Rejection**: in every state that is reached a statement, also one that does not grow usage, passes
exactly when it changes no count or what it leaves is within the limit. -/
theorem shrinking_passes_iff (plans : Table PlanRow PlanRow.id) (requests : List Request)
    (session : Session) (st : Statement) :
    ¬ Rejected (st.exec (after plans requests) session) ↔ Fits (after plans requests) session st :=
  not_rejected_iff_fits (counted_after plans requests) st

/-! ### Statements that shrink -/

/-- A statement that deletes or soft-deletes. -/
def Write.Shrinks {ρ : Type} [CountedRow ρ] : Write ρ → Prop
  | .insert _ => False
  | .delete _ => True
  | .update rows => ∀ r ∈ rows, CountedRow.active r = false

theorem used_le_of_shrinks {ρ : Type} [CountedRow ρ] {allow : Bool} {T T' : Rows ρ} {w : Write ρ}
    {old new : List ρ} (hw : w.Shrinks) (hrun : w.run session allow T = .ok (T', old, new)) (o : Uuid) :
    used T'.rows o ≤ used T.rows o := by
  have hnew : (new.map weight).sum = 0 := by
    cases w with
    | insert rows => exact absurd hw id
    | delete ids =>
      cases pure_ok.mp hrun
      rfl
    | update rows =>
      obtain ⟨_, -, hrun⟩ := bind_ok.mp hrun
      cases pure_ok.mp hrun
      refine List.sum_eq_zero fun x hx => ?_
      obtain ⟨r, hr, rfl⟩ := List.mem_map.mp hx
      obtain ⟨q, hq, rfl⟩ := List.mem_map.mp hr
      obtain ⟨n, hn, hid⟩ := List.mem_map.mp (of_decide_eq_true (List.mem_filter.mp hq).2).1
      have hmem : replacement rows q ∈ rows := by
        unfold replacement
        cases hfind : rows.find? fun new => TenantRow.id new = TenantRow.id q with
        | none => exact absurd (List.find?_eq_none.mp hfind n hn) (by simpa using hid)
        | some m => exact List.mem_of_find?_eq_some hfind
      rw [weight, hw _ hmem]
      rfl
  have hold : 0 ≤ (old.map weight).sum := by
    refine List.sum_nonneg fun x hx => ?_
    obtain ⟨r, -, rfl⟩ := List.mem_map.mp hx
    exact weight_nonneg r
  rw [used_run hrun o, hnew]
  split <;> omega

theorem doesNotGrow_tasks {w : Write TaskRow} (hw : w.Shrinks) :
    DoesNotGrow s session (.tasks w) := by
  intro s' checked hwritten o resource
  obtain ⟨⟨table, old, new⟩, hrun, hwritten⟩ := bind_ok.mp hwritten
  cases pure_ok.mp hwritten
  cases resource with
  | tasks => exact used_le_of_shrinks hw hrun o
  | _ => exact le_rfl

/-! ### A downgrade -/

def teamPlan : PlanRow :=
  { id := 1, key := .team, maxSeats := 10, maxProjects := 10, maxTasks := 5, maxStorageMb := 10 }

/-- Three tasks, then a plan with room for one. -/
def downgrade : List Request :=
  [.createOrganization 50 60 .team 5,
    .statement { organizationId := 50 } (.tasks (.insert
      [⟨100, 50, 7, none⟩, ⟨101, 50, 7, none⟩, ⟨102, 50, 7, none⟩])),
    .updatePlan { teamPlan with maxTasks := 1 }]

def softDeleteOne : Statement := .tasks (.update [⟨100, 50, 7, some ⟨0⟩⟩])

theorem softDeleteOne_shrinks (s : Store) (session : Session) : DoesNotGrow s session softDeleteOne :=
  doesNotGrow_tasks fun r hr => by rw [List.mem_singleton.mp hr]; rfl

theorem shrinking_passes_iff_downgrade :
    ¬ Rejected (softDeleteOne.exec (after ⟨[teamPlan], by decide⟩ downgrade) { organizationId := 50 }) ↔
      Fits (after ⟨[teamPlan], by decide⟩ downgrade) { organizationId := 50 } softDeleteOne :=
  shrinking_passes_iff ⟨[teamPlan], by decide⟩ downgrade { organizationId := 50 } softDeleteOne

/-- After the downgrade a task cannot be deleted: two are left, and one is allowed. -/
theorem downgrade_blocks_deletion :
    ¬ ∀ (plans : Table PlanRow PlanRow.id) (requests : List Request) (session : Session)
      (st : Statement), DoesNotGrow (after plans requests) session st →
        ¬ Rejected (st.exec (after plans requests) session) := by
  intro h
  refine h ⟨[teamPlan], by decide⟩ downgrade { organizationId := 50 } softDeleteOne
    (softDeleteOne_shrinks _ _) ⟨.tasks, 2, 1, error?_eq_some.mp ?_⟩
  decide

end CalmBoard.Usage
