import CalmBoard.Usage.Transactions

/-!
# CalmBoard.Usage.Deltas — what a transaction adds

The difference a transaction makes to the use of an organization does not depend on transactions
that commit meanwhile: they hold the locks of other rows.

* `Part`, `usage_exchange`: the tables of the store, key by key.
* `Agree`, `sameOf_run`: the organizations a transaction leaves alone.
* `sum_changes`, `current_seen`: the changes of a statement, and the counters they go to.
-/

namespace CalmBoard.Usage

open Fallible Requests Keywise

/-! ### Reading tables key by key -/

section Keys

variable {ρ : Type} {o : Uuid}

/-- The row of an organization at a key. -/
def ofOrganization [TenantRow ρ] (o : Uuid) (x : Option ρ) : Option ρ :=
  x.filter fun r => TenantRow.organizationId r = o

theorem used_eq_sum [CountedRow ρ] (T : Rows ρ) {K : Finset Uuid}
    (hK : ∀ r ∈ T.rows, TenantRow.id r ∈ K) :
    used T.rows o = K.sum fun k => (ofOrganization o (T.find? k)).elim 0 weight := by
  have hrow : ∀ r ∈ T.rows, (if TenantRow.organizationId r = o then weight r else 0) =
      (ofOrganization o (T.find? (TenantRow.id r))).elim 0 weight := by
    intro r hr
    unfold ofOrganization
    rw [Table.find?_of_mem hr, Option.filter_some]
    simp only [decide_eq_true_eq]
    split <;> rfl
  have hlist : used T.rows o = ((T.rows.map TenantRow.id).map fun k =>
      (ofOrganization o (T.find? k)).elim 0 weight).sum := by
    unfold used
    rw [List.map_map]
    exact congrArg List.sum (List.map_congr_left hrow)
  rw [hlist, ← List.sum_toFinset _ T.nodup]
  refine Finset.sum_subset (fun k hk => ?_) fun k _ hk => ?_
  · obtain ⟨r, hr, rfl⟩ := List.mem_map.mp (List.mem_toFinset.mp hk)
    exact hK r hr
  · have hnone : T.find? k = none :=
      Table.find?_eq_none_iff.mpr fun r hr hid =>
        hk (List.mem_toFinset.mpr (hid ▸ List.mem_map_of_mem hr))
    rw [hnone]
    rfl

/-- The same rows of an organization in two tables. -/
def SameOf [TenantRow ρ] (o : Uuid) (T U : Rows ρ) : Prop :=
  ∀ k, ofOrganization o (U.find? k) = ofOrganization o (T.find? k)

theorem used_congr [CountedRow ρ] {T U : Rows ρ} (h : SameOf o T U) :
    used U.rows o = used T.rows o := by
  have hT : ∀ r ∈ T.rows, TenantRow.id r ∈
      (T.rows.map TenantRow.id).toFinset ∪ (U.rows.map TenantRow.id).toFinset := fun r hr =>
    Finset.mem_union_left _ (List.mem_toFinset.mpr (List.mem_map_of_mem hr))
  have hU : ∀ r ∈ U.rows, TenantRow.id r ∈
      (T.rows.map TenantRow.id).toFinset ∪ (U.rows.map TenantRow.id).toFinset := fun r hr =>
    Finset.mem_union_right _ (List.mem_toFinset.mpr (List.mem_map_of_mem hr))
  rw [used_eq_sum T hT, used_eq_sum U hU]
  exact Finset.sum_congr rfl fun k _ => by rw [h k]

theorem activeUsers_congr {T U : Rows MembershipRow} (h : SameOf o T U) :
    activeUsers U.rows o = activeUsers T.rows o := by
  have hmem : ∀ {T U : Rows MembershipRow}, SameOf o T U → ∀ m ∈ T.rows,
      m.organizationId = o → m ∈ U.rows := by
    intro T U h m hm ho
    have hk := h m.id
    have hT : ofOrganization o (T.find? m.id) = some m := by
      unfold ofOrganization
      rw [show T.find? m.id = some m from Table.find?_of_mem hm, Option.filter_some,
        if_pos (decide_eq_true (show TenantRow.organizationId m = o from ho))]
    rw [hT] at hk
    exact Table.mem_of_find? (Option.filter_eq_some_iff.mp hk).1
  have hback : SameOf o U T := fun k => (h k).symm
  unfold activeUsers
  refine List.Perm.length_eq ((List.perm_ext_iff_of_nodup (List.nodup_dedup _)
    (List.nodup_dedup _)).mpr fun u => ?_)
  simp only [List.mem_dedup, List.mem_map, List.mem_filter, decide_eq_true_eq]
  constructor
  · rintro ⟨m, ⟨hm, ho, hs⟩, rfl⟩
    exact ⟨m, ⟨hmem hback m hm ho, ho, hs⟩, rfl⟩
  · rintro ⟨m, ⟨hm, ho, hs⟩, rfl⟩
    exact ⟨m, ⟨hmem h m hm ho, ho, hs⟩, rfl⟩

end Keys

/-! ### The tables of a store -/

/-- A table of the store, and the rows an effect touches in it. -/
structure Part (ρ : Type) (key : ρ → Uuid) where
  table : Store → Table ρ key
  keys : Effect → List Uuid
  lock : Uuid → Lock
  acts : Acts (fun s => (table s).find?) Effect.apply keys
  locks : ∀ e, ∀ k ∈ keys e, lock k ∈ e.locks

def rowPart {ρ : Type} [TenantRow ρ] (table : Store → Rows ρ) (write : Effect → Option (Write ρ))
    (lock : Uuid → Lock)
    (happly : ∀ e s, table (e.apply s) = (write e).elim (table s) fun w => w.apply (table s))
    (hlocks : ∀ e w, write e = some w → e.locks = w.ids.map lock) : Part ρ TenantRow.id where
  table := table
  keys e := (write e).elim [] Write.ids
  lock := lock
  acts := {
    frame := fun e s k hk => by
      show (table (e.apply s)).find? k = (table s).find? k
      rw [happly]
      cases hw : write e with
      | none => rfl
      | some w =>
        rw [hw] at hk
        exact writes_act.frame w (table s) k hk
    congr := fun e s s' k h => by
      show (table (e.apply s)).find? k = (table (e.apply s')).find? k
      rw [happly, happly]
      cases hw : write e with
      | none => exact h
      | some w => exact writes_act.congr w (table s) (table s') k h }
  locks e k hk := by
    cases hw : write e with
    | none =>
      rw [hw] at hk
      cases hk
    | some w =>
      rw [hw] at hk
      rw [hlocks e w hw]
      exact List.mem_map_of_mem hk

def projectPart : Part ProjectRow TenantRow.id :=
  rowPart Store.projects (fun | .projects w => some w | _ => none) .project
    (fun e s => by cases e <;> rfl) fun e w h => by cases e <;> cases h; rfl

def taskPart : Part TaskRow TenantRow.id :=
  rowPart Store.tasks (fun | .tasks w => some w | _ => none) .task
    (fun e s => by cases e <;> rfl) fun e w h => by cases e <;> cases h; rfl

def attachmentPart : Part AttachmentRow TenantRow.id :=
  rowPart Store.attachments (fun | .attachments w => some w | _ => none) .attachment
    (fun e s => by cases e <;> rfl) fun e w h => by cases e <;> cases h; rfl

def membershipPart : Part MembershipRow TenantRow.id :=
  rowPart Store.memberships (fun | .memberships w => some w | _ => none) .membership
    (fun e s => by cases e <;> rfl) fun e w h => by cases e <;> cases h; rfl

theorem find?_limits (e : Effect) (s : Store) (o : Uuid) :
    (e.apply s).limits.find? o = (s.limits.find? o).map e.onLimits := by
  have hsame : s.limits.find? o = (s.limits.find? o).map fun l => l := Option.map_id'.symm
  have hset : (s.limits.update (fun _ => true) e.onLimits e.organizationId_onLimits).find? o =
      (s.limits.find? o).map e.onLimits := by
    rw [Table.find?_update]
    rfl
  cases e with
  | projects | tasks | attachments | memberships => exact hsame
  | usage | seats | configure => exact hset

def limitPart : Part LimitRow LimitRow.organizationId where
  table := Store.limits
  keys
    | .usage o _ _ | .seats o _ | .configure o .. => [o]
    | _ => []
  lock := .limits
  acts := {
    frame := fun e s o ho => by
      show (e.apply s).limits.find? o = s.limits.find? o
      rw [find?_limits]
      cases hfind : s.limits.find? o with
      | none => rfl
      | some l =>
        have hl : l.organizationId = o := Table.key_of_find? hfind
        cases e with
        | usage p r d | seats p n | configure p a b c d =>
          have hp : l.organizationId ≠ p := fun h => ho (by simp [← h, hl])
          rw [Option.map_some, Effect.onLimits, if_neg hp]
        | _ => rfl
    congr := fun e s s' o h => by
      show (e.apply s).limits.find? o = (e.apply s').limits.find? o
      rw [find?_limits, find?_limits]
      exact congrArg _ h }
  locks e o ho := by
    cases e with
    | usage p r d | seats p n | configure p a b c d =>
      rw [List.mem_singleton.mp ho]
      exact List.mem_singleton_self _
    | _ => cases ho

variable {s s' : Store} {o : Uuid} {ks ks' : List Lock} {vs ws : List Effect} {r : Resource}

/-- The store below the effects of a transaction. -/
abbrev seen (s : Store) (ws : List Effect) : Store := script.view s ws

section Part

variable {ρ : Type} {key : ρ → Uuid} (p : Part ρ key)

theorem Part.apart (hvs : Covered Effect.locks ks vs) (hws : Covered Effect.locks ks' ws)
    (h : script.Apart ks ks') : Keywise.Apart p.keys vs ws := by
  intro k
  by_cases hk : p.lock k ∈ ks
  · right
    intro e he hek
    exact h.not_mem (decide_eq_true rfl) hk (hws e he _ (p.locks e k hek))
  · left
    exact fun e he hek => hk (hvs e he _ (p.locks e k hek))

theorem Part.find?_seen (h : ∀ e ∈ ws, p.keys e = []) (s : Store) (k : Uuid) :
    (p.table (seen s ws)).find? k = (p.table s).find? k :=
  p.acts.frame_all s fun e he hk => by
    rw [h e he] at hk
    cases hk

end Part

section Rows

variable {ρ : Type} [TenantRow ρ] (p : Part ρ TenantRow.id)

theorem Part.exchange (hapart : Keywise.Apart p.keys vs ws)
    (h : SameOf o (p.table s) (p.table (seen s ws))) :
    SameOf o (p.table (seen s vs)) (p.table (seen (seen s vs) ws)) := by
  intro k
  rcases p.acts.exchange hapart s k with ⟨hboth, hfirst⟩ | ⟨hboth, -⟩
  · exact (congrArg _ hboth).trans ((h k).trans (congrArg _ hfirst.symm))
  · exact congrArg _ hboth

theorem Part.below (hapart : Keywise.Apart p.keys vs ws)
    (h : SameOf o (p.table s) (p.table (seen s vs))) :
    SameOf o (p.table (seen s ws)) (p.table (seen (seen s vs) ws)) := by
  intro k
  rcases p.acts.exchange hapart s k with ⟨hboth, -⟩ | ⟨hboth, hsecond⟩
  · exact congrArg _ hboth
  · exact (congrArg _ hboth).trans ((h k).trans (congrArg _ hsecond.symm))

end Rows

theorem Part.used_exchange {ρ : Type} [CountedRow ρ] (p : Part ρ TenantRow.id)
    (hapart : Keywise.Apart p.keys vs ws) (s : Store) (o : Uuid) :
    used (p.table (seen (seen s vs) ws)).rows o - used (p.table (seen s vs)).rows o =
      used (p.table (seen s ws)).rows o - used (p.table s).rows o := by
  set both := p.table (seen (seen s vs) ws) with hboth
  set first := p.table (seen s vs) with hfirst
  set second := p.table (seen s ws) with hsecond
  set T := p.table s with hT
  set K := ((both.rows ++ first.rows ++ second.rows ++ T.rows).map TenantRow.id).toFinset with hK
  have hmem : ∀ U : Rows ρ, (∀ r ∈ U.rows, r ∈ both.rows ++ first.rows ++ second.rows ++ T.rows) →
      ∀ r ∈ U.rows, TenantRow.id r ∈ K := fun U hU r hr =>
    List.mem_toFinset.mpr (List.mem_map_of_mem (hU r hr))
  rw [used_eq_sum both (hmem both fun r hr => by simp [hr]),
    used_eq_sum first (hmem first fun r hr => by simp [hr]),
    used_eq_sum second (hmem second fun r hr => by simp [hr]),
    used_eq_sum T (hmem T fun r hr => by simp [hr])]
  exact p.acts.sum_exchange hapart s (fun x => (ofOrganization o x).elim 0 weight) K

/-! ### Organizations -/

/-- The same rows of an organization in two stores. -/
structure Agree (o : Uuid) (s s' : Store) : Prop where
  projects : SameOf o s.projects s'.projects
  tasks : SameOf o s.tasks s'.tasks
  attachments : SameOf o s.attachments s'.attachments
  memberships : SameOf o s.memberships s'.memberships

theorem Agree.refl (o : Uuid) (s : Store) : Agree o s s :=
  ⟨fun _ => rfl, fun _ => rfl, fun _ => rfl, fun _ => rfl⟩

theorem Agree.trans {t : Store} (h : Agree o s s') (h' : Agree o s' t) : Agree o s t where
  projects k := (h'.projects k).trans (h.projects k)
  tasks k := (h'.tasks k).trans (h.tasks k)
  attachments k := (h'.attachments k).trans (h.attachments k)
  memberships k := (h'.memberships k).trans (h.memberships k)

theorem Agree.usage (h : Agree o s s') (r : Resource) : s'.usage o r = s.usage o r := by
  cases r with
  | seats => exact congrArg Nat.cast (activeUsers_congr h.memberships)
  | projects => exact used_congr h.projects
  | tasks => exact used_congr h.tasks
  | storage => exact used_congr h.attachments

/-- Two transactions that do not wait for each other touch no common row. -/
structure Separate (vs ws : List Effect) : Prop where
  projects : Keywise.Apart projectPart.keys vs ws
  tasks : Keywise.Apart taskPart.keys vs ws
  attachments : Keywise.Apart attachmentPart.keys vs ws
  memberships : Keywise.Apart membershipPart.keys vs ws
  limits : Keywise.Apart limitPart.keys vs ws

theorem separate (hvs : Covered Effect.locks ks vs) (hws : Covered Effect.locks ks' ws)
    (h : script.Apart ks ks') : Separate vs ws where
  projects := projectPart.apart hvs hws h
  tasks := taskPart.apart hvs hws h
  attachments := attachmentPart.apart hvs hws h
  memberships := membershipPart.apart hvs hws h
  limits := limitPart.apart hvs hws h

theorem Agree.exchange (hsep : Separate vs ws) (h : Agree o s (seen s ws)) :
    Agree o (seen s vs) (seen (seen s vs) ws) where
  projects := projectPart.exchange hsep.projects h.projects
  tasks := taskPart.exchange hsep.tasks h.tasks
  attachments := attachmentPart.exchange hsep.attachments h.attachments
  memberships := membershipPart.exchange hsep.memberships h.memberships

theorem usage_exchange (hsep : Separate vs ws) (s : Store) (o : Uuid) (hr : r ≠ .seats) :
    (seen (seen s vs) ws).usage o r - (seen s vs).usage o r = (seen s ws).usage o r - s.usage o r := by
  cases r with
  | seats => exact absurd rfl hr
  | projects => exact projectPart.used_exchange hsep.projects s o
  | tasks => exact taskPart.used_exchange hsep.tasks s o
  | storage => exact attachmentPart.used_exchange hsep.attachments s o

/-! ### Statements -/

section Statement

variable {ρ : Type} [TenantRow ρ] {session : Session} {allow : Bool} {T T' : Rows ρ}
  {w : Write ρ} {old new : List ρ}

theorem sameOf_of_mem {T U : Rows ρ}
    (h : ∀ r, TenantRow.organizationId r = o → (r ∈ U.rows ↔ r ∈ T.rows)) : SameOf o T U := by
  intro k
  ext r
  simp only [ofOrganization, Option.filter_eq_some_iff, decide_eq_true_eq, Table.find?_eq_some_iff]
  constructor
  · rintro ⟨⟨hr, hk⟩, ho⟩
    exact ⟨⟨(h r ho).mp hr, hk⟩, ho⟩
  · rintro ⟨⟨hr, hk⟩, ho⟩
    exact ⟨⟨(h r ho).mpr hr, hk⟩, ho⟩

theorem sameOf_run (h : w.run session allow T = .ok (T', old, new))
    (ho : o ≠ session.organizationId) : SameOf o T T' := by
  have htenant := run_tenant h
  refine sameOf_of_mem fun r hr => ?_
  have hother : r ∉ old ++ new := fun hmem => ho (hr.symm.trans (htenant r hmem))
  cases w with
  | insert rows =>
    obtain ⟨_, -, h⟩ := bind_ok.mp h
    obtain ⟨U, hU, h⟩ := bind_ok.mp h
    cases pure_ok.mp h
    rw [insertRows_ok hU, List.mem_append]
    exact or_iff_left hother
  | delete ids =>
    cases pure_ok.mp h
    rw [List.append_nil, List.mem_filter, not_and] at hother
    rw [Table.rows_remove, List.mem_filter]
    refine ⟨And.left, fun hmem => ⟨hmem, ?_⟩⟩
    rw [Bool.not_eq_true] at hother
    rw [hother hmem]
    rfl
  | update rows =>
    obtain ⟨_, -, h⟩ := bind_ok.mp h
    cases pure_ok.mp h
    rw [List.mem_append, not_or] at hother
    obtain ⟨hold, hnew⟩ := hother
    rw [Table.rows_update, List.mem_map]
    constructor
    · rintro ⟨s, hs, hsr⟩
      split at hsr
      · next hsel =>
        exact absurd (hsr ▸ List.mem_map_of_mem (List.mem_filter.mpr ⟨hs, hsel⟩)) hnew
      · exact hsr ▸ hs
    · intro hmem
      refine ⟨r, hmem, if_neg fun hsel => hold (List.mem_filter.mpr ⟨hmem, hsel⟩)⟩

end Statement

section Counted

variable {ρ : Type} [CountedRow ρ] {session : Session} {allow : Bool} {T T' : Rows ρ}
  {w : Write ρ} {old new : List ρ}

theorem mem_grouped {changes : List (Uuid × ℤ)} {c : Uuid × ℤ} (h : c ∈ grouped changes) :
    ∃ c' ∈ changes, c'.1 = c.1 := by
  obtain ⟨k, hk, rfl⟩ := List.mem_map.mp h
  rw [List.mem_insertionSort, List.mem_dedup] at hk
  obtain ⟨c', hc', rfl⟩ := List.mem_map.mp hk
  exact ⟨c', hc', rfl⟩

theorem sum_grouped {changes : List (Uuid × ℤ)} (h : ∀ c ∈ changes, c.1 = o) :
    ((grouped changes).map Prod.snd).sum = (changes.map Prod.snd).sum := by
  by_cases hne : changes = []
  · subst hne
    rfl
  · rw [grouped_const hne h]
    exact List.sum_singleton

theorem changes_tenant (h : w.run session allow T = .ok (T', old, new)) :
    ∀ c ∈ w.changes old new, c.1 = session.organizationId := by
  intro c hc
  have hgrouped : ∃ c' ∈ w.counted old new, c'.1 = c.1 := by
    cases w with
    | insert rows => exact mem_grouped hc
    | delete ids => exact mem_grouped hc
    | update rows => exact mem_grouped (List.mem_filter.mp hc).1
  obtain ⟨c', hc', hk⟩ := hgrouped
  exact hk ▸ counted_tenant h c' hc'

theorem sum_changes (h : w.run session allow T = .ok (T', old, new)) :
    ((w.changes old new).map Prod.snd).sum = (new.map weight).sum - (old.map weight).sum := by
  rw [← sum_counted h, ← sum_grouped (counted_tenant h)]
  cases w with
  | insert rows => rfl
  | delete ids => rfl
  | update rows =>
    rw [Write.changes, Table.sum_filter]
    refine congrArg List.sum (List.map_congr_left fun c _ => ?_)
    split
    · rfl
    · next hzero => exact (not_not.mp hzero).symm

end Counted

/-! ### Counters -/

/-- What an effect adds to a counter. -/
def Effect.delta (o : Uuid) (r : Resource) : Effect → ℤ
  | .usage o' r' d => if o' = o ∧ r' = r then d else 0
  | _ => 0

def deltas (o : Uuid) (r : Resource) (ws : List Effect) : ℤ := (ws.map (Effect.delta o r)).sum

/-- What a trigger is still to add. -/
def Trigger.delta (r : Resource) : Trigger → ℤ
  | .usage _ r' d => if r' = r then d else 0
  | .seats _ => 0

def waiting (r : Resource) (pending : List Trigger) : ℤ := (pending.map (Trigger.delta r)).sum

def Trigger.organizationId : Trigger → Uuid
  | .usage o _ _ | .seats o => o

theorem current_onLimits (e : Effect) (l : LimitRow) (hr : r ≠ .seats) :
    (e.onLimits l).current r = l.current r + e.delta l.organizationId r := by
  cases e with
  | usage o' r' d =>
    simp only [Effect.onLimits, Effect.delta]
    by_cases ho : l.organizationId = o'
    · rw [if_pos ho, current_add l r' r d hr]
      simp [ho, eq_comm]
    · rw [if_neg ho, if_neg fun h => ho h.1.symm, add_zero]
  | seats o' n =>
    simp only [Effect.onLimits, Effect.delta, add_zero]
    split
    · cases r with
      | seats => exact absurd rfl hr
      | _ => rfl
    · rfl
  | configure o' a b c d =>
    simp only [Effect.onLimits, Effect.delta, add_zero]
    split <;> cases r <;> rfl
  | projects | tasks | attachments | memberships => exact (add_zero _).symm

theorem current_seen (hr : r ≠ .seats) : ∀ {ws : List Effect} {s : Store} {l : LimitRow},
    (seen s ws).limits.find? o = some l →
      ∃ l₀, s.limits.find? o = some l₀ ∧ l.current r = l₀.current r + deltas o r ws
  | [], s, l, h => ⟨l, h, (add_zero _).symm⟩
  | e :: ws, s, l, h => by
    have hlater : (seen (e.apply s) ws).limits.find? o = some l := h
    obtain ⟨l₁, hl₁, hcurrent⟩ := current_seen hr hlater
    rw [find?_limits] at hl₁
    obtain ⟨l₀, hl₀, rfl⟩ := Option.map_eq_some_iff.mp hl₁
    have ho : l₀.organizationId = o := Table.key_of_find? hl₀
    refine ⟨l₀, hl₀, ?_⟩
    rw [hcurrent, current_onLimits e l₀ hr, ho, deltas, deltas, List.map_cons, List.sum_cons, add_assoc]

theorem currentSeats_seen : ∀ {ws : List Effect} {s : Store} {l : LimitRow},
    (∀ e ∈ ws, ∀ o n, e ≠ .seats o n) → (seen s ws).limits.find? o = some l →
      ∃ l₀, s.limits.find? o = some l₀ ∧ l.currentSeats = l₀.currentSeats
  | [], s, l, _, h => ⟨l, h, rfl⟩
  | e :: ws, s, l, hws, h => by
    have hlater : (seen (e.apply s) ws).limits.find? o = some l := h
    obtain ⟨l₁, hl₁, hcurrent⟩ :=
      currentSeats_seen (fun e' he' => hws e' (List.mem_cons_of_mem e he')) hlater
    rw [find?_limits] at hl₁
    obtain ⟨l₀, hl₀, rfl⟩ := Option.map_eq_some_iff.mp hl₁
    refine ⟨l₀, hl₀, hcurrent.trans ?_⟩
    have he := hws e List.mem_cons_self
    cases e with
    | seats o' n => exact absurd rfl (he o' n)
    | usage o' r' d | configure o' a b c d =>
      simp only [Effect.onLimits]
      split <;> rfl
    | projects | tasks | attachments | memberships => rfl

end CalmBoard.Usage
