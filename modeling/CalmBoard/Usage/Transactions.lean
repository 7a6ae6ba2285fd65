import CalmBoard.Usage.Counters
import CalmBoard.Lib.Requests
import CalmBoard.Lib.Keywise

/-!
# CalmBoard.Usage.Transactions — statements on counted tables, transaction by transaction

A transaction runs statements one after the other; its rows and the limits of its organization stay
locked to its end.  After the rows of a statement are written its triggers run, one by one; between
them other transactions go on.

* `Effect`: what a statement or a trigger writes.
* `rowStatement`, `runTrigger`: a statement and its triggers.
* `script`: the transactions, and changes of the limits.
-/

namespace CalmBoard.Usage

/-! ### Effects -/

section Write

variable {ρ : Type} [TenantRow ρ]

/-- The write of a statement, by the rows it found. -/
def Write.found (w : Write ρ) (old new : List ρ) : Write ρ :=
  match w with
  | .insert _ => .insert new
  | .delete _ => .delete (old.map TenantRow.id)
  | .update _ => .update new

/-- The table after a write whose rows are locked. -/
def Write.apply (w : Write ρ) (T : Rows ρ) : Rows ρ :=
  match w with
  | .insert rows => rows.foldl Table.upsert T
  | .delete ids => T.remove fun r => TenantRow.id r ∈ ids
  | .update rows =>
    T.update (fun r => TenantRow.id r ∈ rows.map TenantRow.id) (replacement rows)
      (id_replacement rows)

def Write.ids : Write ρ → List Uuid
  | .insert rows | .update rows => rows.map TenantRow.id
  | .delete ids => ids

/-- The changes the trigger of a statement loops over. -/
def Write.changes {ρ : Type} [CountedRow ρ] (w : Write ρ) (old new : List ρ) : List (Uuid × ℤ) :=
  match w with
  | .insert _ => grouped (countRows 1 new)
  | .delete _ => grouped (countRows (-1) old)
  | .update _ => (grouped (countRows 1 new ++ countRows (-1) old)).filter fun c => c.2 ≠ 0

end Write

inductive Effect where
  | projects (w : Write ProjectRow)
  | tasks (w : Write TaskRow)
  | attachments (w : Write AttachmentRow)
  | memberships (w : Write MembershipRow)
  /-- a change of one counter -/
  | usage (organizationId : Uuid) (resource : Resource) (delta : ℤ)
  /-- `SET current_seats = …` -/
  | seats (organizationId : Uuid) (currentSeats : ℤ)
  | configure (organizationId : Uuid) (maxSeats maxProjects maxTasks maxStorageMb : ℤ)

def Effect.onLimits (e : Effect) (l : LimitRow) : LimitRow :=
  match e with
  | .usage o resource delta => if l.organizationId = o then l.add resource delta else l
  | .seats o currentSeats => if l.organizationId = o then { l with currentSeats } else l
  | .configure o maxSeats maxProjects maxTasks maxStorageMb =>
    if l.organizationId = o then { l with maxSeats, maxProjects, maxTasks, maxStorageMb } else l
  | .projects _ | .tasks _ | .attachments _ | .memberships _ => l

theorem Effect.organizationId_onLimits (e : Effect) (l : LimitRow) :
    (e.onLimits l).organizationId = l.organizationId := by
  cases e <;> simp only [onLimits] <;> split <;> rfl

def Effect.apply (e : Effect) (s : Store) : Store :=
  let limits := s.limits.update (fun _ => true) e.onLimits e.organizationId_onLimits
  match e with
  | .projects w => { s with projects := w.apply s.projects }
  | .tasks w => { s with tasks := w.apply s.tasks }
  | .attachments w => { s with attachments := w.apply s.attachments }
  | .memberships w => { s with memberships := w.apply s.memberships }
  | .usage .. | .seats .. | .configure .. => { s with limits }

/-- A row, a unique key of `memberships`, or the limits of an organization. -/
inductive Lock where
  | project (id : Uuid)
  | task (id : Uuid)
  | attachment (id : Uuid)
  | membership (id : Uuid)
  | person (userId organizationId : Uuid) (workspaceId : Option Uuid)
  | limits (organizationId : Uuid)
  deriving DecidableEq

/-- What an effect has to hold. -/
def Effect.locks : Effect → List Lock
  | .projects w => w.ids.map .project
  | .tasks w => w.ids.map .task
  | .attachments w => w.ids.map .attachment
  | .memberships w => w.ids.map .membership
  | .usage o _ _ | .seats o _ | .configure o .. => [.limits o]

/-! ### Statements and triggers -/

inductive Trigger where
  | usage (organizationId : Uuid) (resource : Resource) (delta : ℤ)
  | seats (organizationId : Uuid)

/-- The organizations `enforce_membership_usage_limit` refreshes for a row, in their order. -/
def refreshed : Option MembershipRow × Option MembershipRow → List Uuid
  | (none, some new) => [new.organizationId]
  | (some old, none) => [old.organizationId]
  | (some old, some new) =>
    if old.organizationId = new.organizationId then [new.organizationId]
    else if old.organizationId < new.organizationId then [old.organizationId, new.organizationId]
    else [new.organizationId, old.organizationId]
  | (none, none) => []

def uniqueKey (m : MembershipRow) : Lock := .person m.userId m.organizationId m.workspaceId

/-- The rows of a statement: what is written, what is locked, and the triggers that follow. -/
def rowStatement (s : Store) (session : Session) :
    Statement → Except UsageError (Effect × List Lock × List Trigger)
  | .projects w => do
    let (_, old, new) ← w.run session false s.projects
    let effect := Effect.projects (w.found old new)
    return (effect, effect.locks, (w.changes old new).map fun c => .usage c.1 .projects c.2)
  | .tasks w => do
    let (_, old, new) ← w.run session false s.tasks
    let effect := Effect.tasks (w.found old new)
    return (effect, effect.locks, (w.changes old new).map fun c => .usage c.1 .tasks c.2)
  | .attachments w => do
    let (_, old, new) ← w.run session false s.attachments
    let effect := Effect.attachments (w.found old new)
    return (effect, effect.locks, (w.changes old new).map fun c => .usage c.1 .storage c.2)
  | .memberships w => do
    let (table, old, new) ← w.run session true s.memberships
    checkMemberships table.rows
    let effect := Effect.memberships (w.found old new)
    return (effect, effect.locks ++ (old ++ new).map uniqueKey,
      ((w.events old new).flatMap refreshed).map .seats)

/-- One call of `apply_organization_usage_delta` or `refresh_membership_usage_limit`. -/
def runTrigger (s : Store) (session : Session) : Trigger → Except UsageError (List Effect)
  | .usage o resource delta => do
    let _ ← applyOrganizationUsageDelta s.limits o resource delta
    return if delta = 0 then [] else [.usage o resource delta]
  | .seats o => do
    let _ ← refreshMembershipUsageLimit session s.memberships.rows s.limits o
    return [.seats o (activeUsers (s.memberships.rows.filter session.sees) o)]

/-! ### Transactions -/

inductive Input where
  | statement (st : Statement)
  | commit
  | rollback

inductive Call where
  | tenant (session : Session)
  /-- the projection of a plan or a subscription -/
  | plan (organizationId : Uuid) (maxSeats maxProjects maxTasks maxStorageMb : ℤ)

inductive Point where
  /-- A transaction of a session, what it has written, and the triggers of its last statement that
  are still to run. -/
  | tenant (session : Session) (written : List Effect) (pending : List Trigger)
  | plan (organizationId : Uuid) (maxSeats maxProjects maxTasks maxStorageMb : ℤ)
  | planned

abbrev Outcome : Type := Requests.Outcome Point Lock Effect (Except UsageError Unit)

def tenantStatement (session : Session) (written : List Effect) (input : Input) (s : Store) :
    List Trigger → Outcome
  | t :: pending =>
    match runTrigger s session t with
    | .error e => .fail (.error e)
    | .ok effects =>
      .next (.tenant session (written ++ effects) pending) (effects.flatMap Effect.locks) effects
  | [] =>
    match input with
    | .commit => .finish (.ok ())
    | .rollback => .fail (.ok ())
    | .statement st =>
      match rowStatement s session st with
      | .error e => .fail (.error e)
      | .ok (effect, locks, pending) =>
        .next (.tenant session (written ++ [effect]) pending) locks [effect]

def script : Requests.Script Call Store Input Point Lock Effect (Except UsageError Unit) where
  first
    | .tenant session => .tenant session [] []
    | .plan o maxSeats maxProjects maxTasks maxStorageMb =>
      .plan o maxSeats maxProjects maxTasks maxStorageMb
  apply := Effect.apply
  statement input point s :=
    match point with
    | .tenant session written pending => tenantStatement session written input s pending
    | .plan o maxSeats maxProjects maxTasks maxStorageMb =>
      .next .planned [.limits o] [.configure o maxSeats maxProjects maxTasks maxStorageMb]
    | .planned => .finish (.ok ())
  conflict k k' := k = k'
  conflict_symm _ _ := decide_eq_decide.mpr eq_comm

/-- The counters as the migration that adds them fills them in. -/
def backfill (s : Store) : Store :=
  { s with
    limits := s.limits.update (fun _ => true)
      (fun l => { l with
        currentSeats := activeUsers s.memberships.rows l.organizationId
        currentProjects := used s.projects.rows l.organizationId
        currentTasks := used s.tasks.rows l.organizationId
        currentStorageBytes := used s.attachments.rows l.organizationId })
      fun _ => rfl }

abbrev World : Type := Sessions.World Store (Requests.Local Point Lock Effect (Except UsageError Unit))

abbrev Event : Type := Sessions.Event Call (Requests.Action Input)

/-- The database after statements of any number of transactions, in any order. -/
def worldAfter (start : Store) (events : List Event) : World :=
  Sessions.run script.program ⟨backfill start, []⟩ events

/-- Whenever seats are counted, the session sees an active membership of every active user. -/
def CountsAll (s : Store) (_ : Input) : Point → Prop
  | .tenant session written (.seats o :: _) =>
    activeUsers ((script.view s written).memberships.rows.filter session.sees) o =
      activeUsers (script.view s written).memberships.rows o
  | _ => True

instance (s : Store) (input : Input) : DecidablePred (CountsAll s input) := fun p => by
  unfold CountsAll
  split <;> infer_instance

/-! ### Writes -/

section Write

variable {ρ : Type} [TenantRow ρ] {session : Session} {allow : Bool} {T T' : Rows ρ}
  {w : Write ρ} {old new : List ρ}

theorem insertRows_upsert : ∀ {rows : List ρ} {T T' : Rows ρ},
    rows.foldlM insertRow T = .ok T' → rows.foldl Table.upsert T = T'
  | [], T, T', h => by
    rw [List.foldlM_nil, Fallible.pure_ok] at h
    exact h
  | r :: rows, T, T', h => by
    rw [List.foldlM_cons, Fallible.bind_ok] at h
    obtain ⟨U, hU, h⟩ := h
    unfold insertRow at hU
    split at hU
    · next V hV =>
      cases hU
      rw [List.foldl_cons, Table.upsert, hV]
      exact insertRows_upsert h
    · cases hU

theorem replacement_of_mem {rows : List ρ} (hrows : (rows.map TenantRow.id).Nodup) {r : ρ}
    (hr : r ∈ rows) {s : ρ} (hs : TenantRow.id s = TenantRow.id r) : replacement rows s = r := by
  unfold replacement
  cases hfind : rows.find? fun new => TenantRow.id new = TenantRow.id s with
  | none =>
    have hno := List.find?_eq_none.mp hfind r hr
    simp [hs] at hno
  | some new =>
    have hid : TenantRow.id new = TenantRow.id s := by simpa using List.find?_some hfind
    exact List.inj_on_of_nodup_map hrows (List.mem_of_find?_eq_some hfind) hr (hid.trans hs)

/-- **A statement** leaves what its write leaves. -/
theorem apply_found (h : w.run session allow T = .ok (T', old, new)) :
    (w.found old new).apply T = T' := by
  cases w with
  | insert rows =>
    obtain ⟨_, -, h⟩ := Fallible.bind_ok.mp h
    obtain ⟨U, hU, h⟩ := Fallible.bind_ok.mp h
    cases Fallible.pure_ok.mp h
    exact insertRows_upsert hU
  | delete ids =>
    cases Fallible.pure_ok.mp h
    apply Table.ext_rows
    simp only [Write.found, Write.apply, Table.rows_remove]
    refine List.filter_congr fun r hr => ?_
    congr 1
    rw [decide_eq_decide, List.mem_map]
    constructor
    · rintro ⟨s, hs, hid⟩
      rw [← Table.eq_of_mem (List.mem_of_mem_filter hs) hr hid]
      exact of_decide_eq_true (List.mem_filter.mp hs).2
    · exact fun hsel => ⟨r, List.mem_filter.mpr ⟨hr, decide_eq_true hsel⟩, rfl⟩
  | update rows =>
    obtain ⟨_, -, h⟩ := Fallible.bind_ok.mp h
    cases Fallible.pure_ok.mp h
    apply Table.ext_rows
    simp only [Write.found, Write.apply, Table.rows_update]
    refine List.map_congr_left fun r hr => ?_
    set old := T.rows.filter fun r => decide (TenantRow.id r ∈ rows.map TenantRow.id ∧
      session.tenantMatches allow r = true) with hold
    have hids : (old.map (replacement rows)).map TenantRow.id = old.map TenantRow.id := by
      rw [List.map_map]
      exact List.map_congr_left fun s _ => id_replacement rows s
    have hnodup : ((old.map (replacement rows)).map TenantRow.id).Nodup := by
      rw [hids]
      exact T.nodup.sublist (List.filter_sublist.map _)
    by_cases hsel : r ∈ old
    · have hmem : TenantRow.id r ∈ (old.map (replacement rows)).map TenantRow.id := by
        rw [hids]
        exact List.mem_map_of_mem hsel
      rw [if_pos (decide_eq_true hmem), if_pos (List.mem_filter.mp hsel).2]
      exact replacement_of_mem hnodup (List.mem_map_of_mem hsel) (id_replacement rows r).symm
    · have hmem : TenantRow.id r ∉ (old.map (replacement rows)).map TenantRow.id := by
        rw [hids, List.mem_map]
        rintro ⟨s, hs, hid⟩
        exact hsel (Table.eq_of_mem (List.mem_of_mem_filter hs) hr hid ▸ hs)
      rw [if_neg (by simpa using hmem),
        if_neg fun hr' => hsel (List.mem_filter.mpr ⟨hr, hr'⟩)]

theorem find?_upserts : ∀ {rows : List ρ} {T U : Rows ρ} {k : Uuid}, T.find? k = U.find? k →
    (rows.foldl Table.upsert T).find? k = (rows.foldl Table.upsert U).find? k
  | [], _, _, _, h => h
  | r :: rows, T, U, k, h => by
    rw [List.foldl_cons, List.foldl_cons]
    refine find?_upserts ?_
    rw [Table.find?_upsert, Table.find?_upsert, h]

theorem writes_act : Keywise.Acts (fun T : Rows ρ => T.find?) Write.apply Write.ids where
  frame w T k hk := by
    cases w with
    | insert rows => exact Table.find?_foldl_upsert fun r hr he => hk (he ▸ List.mem_map_of_mem hr)
    | delete ids =>
      refine Table.find?_remove_of fun r hr => ?_
      simpa [hr, Write.ids] using hk
    | update rows =>
      show Table.find? (T.update _ _ (id_replacement rows)) k = _
      rw [Table.find?_update]
      cases hfind : T.find? k with
      | none => rfl
      | some r =>
        have hid : TenantRow.id r = k := Table.key_of_find? hfind
        have hsel : TenantRow.id r ∉ rows.map TenantRow.id := fun hsel => hk (hid ▸ hsel)
        rw [Option.map_some, if_neg (by simpa using hsel)]
  congr w T U k h := by
    cases w with
    | insert rows => exact find?_upserts h
    | delete ids =>
      by_cases hk : k ∈ ids
      · have hnone : ∀ T : Rows ρ, (T.remove fun r => TenantRow.id r ∈ ids).find? k = none := by
          intro T
          refine Table.find?_eq_none_iff.mpr fun r hr hid => ?_
          rw [Table.rows_remove] at hr
          have hsel := (List.mem_filter.mp hr).2
          simp [hid, hk] at hsel
        exact (hnone T).trans (hnone U).symm
      · have hkeep : ∀ T : Rows ρ, (T.remove fun r => TenantRow.id r ∈ ids).find? k = T.find? k :=
          fun T => Table.find?_remove_of fun r hr => by simpa [hr] using hk
        exact ((hkeep T).trans h).trans (hkeep U).symm
    | update rows =>
      show Table.find? (T.update _ _ (id_replacement rows)) k =
        Table.find? (U.update _ _ (id_replacement rows)) k
      rw [Table.find?_update, Table.find?_update]
      exact congrArg _ h

end Write

end CalmBoard.Usage
