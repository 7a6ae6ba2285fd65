import CalmBoard.Deps.Cycles
import CalmBoard.Tasks.LinkDetails

/-!
# CalmBoard.Deps.Replaced — what a replacement of dependencies leaves, and when it fails

The rows are told apart by blocking task, type and lag, while the unique index of the table looks
at blocking task and type only.

* `replaceDependencies`: `replaceTaskDependencies` with what it returns.
* `Stored`: what the index and the generated ids of the table guarantee.
* `Clashes`: two desired items differ in their lag only.
* `replaces_exactly_iff`: the replacement is exact if and only if no items clash, or there is a
  cycle.
-/

namespace CalmBoard.Deps

open Relation CalmBoard.Digraph Fallible
open Tasks (linkKeys mem_desiredKeys isNoOp_iff)

/-! ### The call -/

structure ReplaceReport where
  changed : Bool
  activeDependencies : List TaskDependencyRow

/-- `asc(createdAt), asc(id)` -/
def createdBefore (d e : TaskDependencyRow) : Bool :=
  decide (d.createdAt.micros < e.createdAt.micros) ||
    decide (d.createdAt.micros = e.createdAt.micros) && decide (d.id ≤ e.id)

def activeInto (db : Db) (dependentTaskId : Uuid) : List TaskDependencyRow :=
  db.dependencies.rows.filter fun d => d.active && d.dependentTaskId = dependentTaskId

theorem close_id (db : Db) (d : TaskDependencyRow) :
    ({ d with deletedAt := some db.newDate } : TaskDependencyRow).id = d.id := rfl

/-- The rows into the task that are not asked for are closed. -/
def removeUndesired (db : Db) (dependentTaskId : Uuid) (desired : List DependencyKey) : Db :=
  let plan := planReplace (activeInto db dependentTaskId) desired
  { db with
    dependencies := db.dependencies.update (fun d => d.id ∈ plan.toRemove)
      (fun d => { d with deletedAt := some db.newDate }) (close_id db) }

/-- `replaceTaskDependencies`, with what it returns. -/
def replaceDependencies (db : Db) (dependentTaskId : Uuid) (items : List DependencyLink) :
    Except RepoError (Db × ReplaceReport) := do
  let currentActive := (activeInto db dependentTaskId).mergeSort createdBefore
  let desired ← desiredKeys dependentTaskId items
  if isNoOp (activeInto db dependentTaskId) desired then
    return (db, { changed := false, activeDependencies := currentActive })
  assertNoDependencyCycle
    (proposedEdges dependentTaskId db.dependencies.rows (activeInto db dependentTaskId) desired)
  let plan := planReplace (activeInto db dependentTaskId) desired
  let after ← plan.toInsert.foldlM (insertDependency dependentTaskId)
    (removeUndesired db dependentTaskId desired)
  -- the rows that were inserted stand after those that were there
  let insertedRecords := after.dependencies.rows.drop db.dependencies.rows.length
  let retainedRecords := currentActive.filter fun d => d.id ∉ plan.toRemove
  return (after, { changed := true, activeDependencies := retainedRecords ++ insertedRecords })

/-- The database after the transaction of the call; a failure rolls it back. -/
def committed (db : Db) : Except RepoError (Db × ReplaceReport) → Db
  | .ok (after, _) => after
  | .error _ => db

/-! ### Exact replacements -/

section Exact

variable (db : Db) (t : Uuid) (items : List DependencyLink)

/-- The graph that is asked for: the edges into other tasks as they are, and the desired ones. -/
def Asked (a b : Uuid) : Prop :=
  (∃ d ∈ db.dependencies.rows, d.active = true ∧ d.dependentTaskId ≠ t ∧
    d.blockingTaskId = a ∧ d.dependentTaskId = b) ∨
  b = t ∧ ∃ l ∈ items, l.blockingTaskId = a

/-- The active edges into `t` are the desired ones. -/
def HasItems (db : Db) : Prop :=
  ∀ k, k ∈ linkKeys db t ↔ k ∈ items.map DependencyLink.key

structure Exact (r : Except RepoError (Db × ReplaceReport)) : Prop where
  asked : ∀ after report, r = .ok (after, report) → HasItems t items after
  others : ∀ after report, r = .ok (after, report) → ∀ d, d.dependentTaskId ≠ t →
    (d ∈ after.dependencies.rows ↔ d ∈ db.dependencies.rows)
  changed : ∀ after report, r = .ok (after, report) → (report.changed = false ↔ HasItems t items db)
  idle : ∀ after report, r = .ok (after, report) → report.changed = false → after = db
  cycle : ∀ e, r = .error e → ∃ a, TransGen (Asked db t items) a a
  failed : ∀ e, r = .error e → committed db r = db

end Exact

/-- Two items have one blocking task and one type, and not the same lag. -/
def Clashes (items : List DependencyLink) : Prop :=
  ∃ l ∈ items, ∃ m ∈ items,
    l.blockingTaskId = m.blockingTaskId ∧ l.type = m.type ∧ l.lagMinutes ≠ m.lagMinutes

/-- The unique index of the active rows, and ids that are drawn for the first time. -/
structure Stored (db : Db) : Prop where
  unique : ∀ d ∈ db.dependencies.rows, ∀ e ∈ db.dependencies.rows, d.active = true →
    e.active = true → d.blockingTaskId = e.blockingTaskId →
    d.dependentTaskId = e.dependentTaskId → d.type = e.type → d = e
  fresh : ∀ d ∈ db.dependencies.rows, ∀ n, db.uuidCount ≤ n → d.id ≠ db.uuids n
  drawn : Function.Injective db.uuids

variable {db db' : Db} {t : Uuid} {items : List DependencyLink} {k : DependencyKey}

/-- The database that a replacement leaves is that of `replaceTaskDependencies`. -/
theorem replaceDependencies_fst :
    (replaceDependencies db t items).map Prod.fst = replaceTaskDependencies db t items := by
  unfold replaceDependencies replaceTaskDependencies
  show Except.map _ (desiredKeys t items >>= _) = desiredKeys t items >>= _
  cases desiredKeys t items with
  | error => rfl
  | ok desired =>
    show Except.map _ (if isNoOp (activeInto db t) desired then _ else _) =
      if isNoOp (activeInto db t) desired then _ else _
    split
    · rfl
    · show Except.map _ (assertNoDependencyCycle (proposedEdges t _ (activeInto db t) desired) >>= _) =
        assertNoDependencyCycle (proposedEdges t _ (activeInto db t) desired) >>= _
      cases assertNoDependencyCycle
          (proposedEdges t db.dependencies.rows (activeInto db t) desired) with
      | error => rfl
      | ok =>
        show Except.map _ (List.foldlM (insertDependency t) (removeUndesired db t desired)
            (planReplace (activeInto db t) desired).toInsert >>= _) =
          List.foldlM (insertDependency t) (removeUndesired db t desired)
            (planReplace (activeInto db t) desired).toInsert
        cases List.foldlM (insertDependency t) (removeUndesired db t desired)
          (planReplace (activeInto db t) desired).toInsert <;> rfl

/-! ### One row -/

variable {tasks : Table TaskRow TaskRow.id}

def newRow (db : Db) (t : Uuid) (k : DependencyKey) : TaskDependencyRow :=
  { id := db.uuids db.uuidCount, blockingTaskId := k.1, dependentTaskId := t, type := k.2.1,
    lagMinutes := k.2.2, createdAt := db.now }

theorem insertDependency_ok (h : insertDependency t db k = .ok db') :
    validateTaskDependencyInsert db.tasks db.dependencies.rows (newRow db t k) = .ok () ∧
      ∃ dependencies, db.dependencies.insert? (newRow db t k) = some dependencies ∧
        db' = { db with dependencies, uuidCount := db.uuidCount + 1 } := by
  simp only [insertDependency] at h
  split at h
  · cases h
  · cases h
  · next hvalid =>
    split at h
    · cases h
    · next dependencies hinsert =>
      cases h
      exact ⟨hvalid, dependencies, hinsert, rfl⟩

/-- What the checks of the table ask of a new row. -/
structure Accepted (tasks : Table TaskRow TaskRow.id) (rows : List TaskDependencyRow)
    (new : TaskDependencyRow) : Prop where
  blocking : ∃ task, tasks.find? new.blockingTaskId = some task ∧ task.active = true
  dependent : ∃ task, tasks.find? new.dependentTaskId = some task ∧ task.active = true
  apart : new.blockingTaskId ≠ new.dependentTaskId
  acyclic : new.blockingTaskId ∉
    downstream (activeEdges (rows.filter fun d => d.id ≠ new.id)) new.dependentTaskId
  fresh : ∀ d ∈ rows, d.id ≠ new.id
  unique : ∀ d ∈ rows, d.active = true → d.blockingTaskId = new.blockingTaskId →
    d.dependentTaskId = new.dependentTaskId → d.type ≠ new.type

theorem validateTaskDependency_iff {rows : List TaskDependencyRow} {new : TaskDependencyRow}
    (hactive : new.active = true) :
    validateTaskDependency tasks rows new = .ok () ↔
      (∃ task, tasks.find? new.blockingTaskId = some task ∧ task.active = true) ∧
      (∃ task, tasks.find? new.dependentTaskId = some task ∧ task.active = true) ∧
      new.blockingTaskId ∉
        downstream (activeEdges (rows.filter fun d => d.id ≠ new.id)) new.dependentTaskId := by
  unfold validateTaskDependency
  cases tasks.find? new.blockingTaskId with
  | none => simp
  | some blocking =>
    cases tasks.find? new.dependentTaskId with
    | none => simp
    | some dependent =>
      cases hblocking : blocking.active <;> cases hdependent : dependent.active <;>
        simp [hactive, hblocking, hdependent]

theorem accepted_iff {rows : List TaskDependencyRow} {new : TaskDependencyRow}
    (hactive : new.active = true) :
    validateTaskDependencyInsert tasks rows new = .ok () ↔ Accepted tasks rows new := by
  unfold validateTaskDependencyInsert
  simp only [then_ok, validateTaskDependency_iff hactive, throw_bind, guard_ok, pure_ok, and_true,
    List.any_eq_true, not_exists, not_and, Bool.and_eq_true, decide_eq_true_eq]
  constructor
  · rintro ⟨⟨hblocking, hdependent, hacyclic⟩, hself, hkey, hunique⟩
    exact ⟨hblocking, hdependent, hself, hacyclic, hkey, fun d hd ha hb hdep htype =>
      hunique d hd ⟨⟨ha, hb⟩, hdep⟩ htype⟩
  · intro h
    exact ⟨⟨h.blocking, h.dependent, h.acyclic⟩, h.apart, h.fresh,
      fun d hd hrow => h.unique d hd hrow.1.1 hrow.1.2 hrow.2⟩

theorem Stored.insert (hstored : Stored db) (h : insertDependency t db k = .ok db') : Stored db' := by
  obtain ⟨hvalid, dependencies, hinsert, rfl⟩ := insertDependency_ok h
  have hrows := (Table.insert?_eq_some hinsert).2
  have haccepted := (accepted_iff rfl).mp hvalid
  refine ⟨?_, ?_, hstored.drawn⟩
  · intro d hd e he hactive hactive' hblocking hdependent htype
    rw [hrows] at hd he
    simp only [List.mem_append, List.mem_singleton] at hd he
    rcases hd with hd | rfl <;> rcases he with he | rfl
    · exact hstored.unique d hd e he hactive hactive' hblocking hdependent htype
    · exact absurd htype (haccepted.unique d hd hactive hblocking hdependent)
    · exact absurd htype.symm (haccepted.unique e he hactive' hblocking.symm hdependent.symm)
    · rfl
  · intro d hd n (hn : db.uuidCount + 1 ≤ n)
    rw [hrows] at hd
    rcases List.mem_append.mp hd with hd | hd
    · exact hstored.fresh d hd n (Nat.le_of_succ_le hn)
    · rw [List.mem_singleton.mp hd]
      intro hid
      have hcount := hstored.drawn hid
      omega

theorem insertDependency_total
    (h : Accepted db.tasks db.dependencies.rows (newRow db t k)) :
    ∃ db', insertDependency t db k = .ok db' := by
  have hvalid := (accepted_iff rfl).mpr h
  simp only [newRow] at hvalid
  simp only [insertDependency, hvalid]
  cases hinsert : db.dependencies.insert? (newRow db t k) with
  | none =>
    obtain ⟨d, hd⟩ := Table.insert?_eq_none hinsert
    obtain ⟨hmem, hid⟩ := Table.find?_eq_some_iff.mp hd
    exact absurd hid (h.fresh d hmem)
  | some dependencies =>
    simp only [newRow] at hinsert
    simp [hinsert]

/-! ### The rows -/

variable {d : TaskDependencyRow}

theorem mem_toRemove {desired : List DependencyKey} {r : TaskDependencyRow}
    (hr : r ∈ db.dependencies.rows) :
    r.id ∈ (planReplace (activeInto db t) desired).toRemove ↔
      (r.active = true ∧ r.dependentTaskId = t) ∧ TaskDependencyRow.key r ∉ desired := by
  unfold planReplace activeInto
  rw [List.mem_map]
  constructor
  · rintro ⟨s, hs, hid⟩
    simp only [List.mem_filter, Bool.and_eq_true, decide_eq_true_eq] at hs
    rw [← Table.eq_of_mem hs.1.1 hr hid]
    exact ⟨hs.1.2, hs.2⟩
  · intro h
    refine ⟨r, ?_, rfl⟩
    simp only [List.mem_filter, Bool.and_eq_true, decide_eq_true_eq]
    exact ⟨⟨hr, h.1⟩, h.2⟩

theorem rows_removeUndesired (desired : List DependencyKey) :
    (removeUndesired db t desired).dependencies.rows = db.dependencies.rows.map fun r =>
      if r.id ∈ (planReplace (activeInto db t) desired).toRemove then
        { r with deletedAt := some db.newDate } else r := by
  unfold removeUndesired
  simp only [Table.rows_update, decide_eq_true_eq]

/-- The active rows after the removal: those into `t` that are asked for, and all others. -/
theorem mem_removeUndesired {desired : List DependencyKey} (hactive : d.active = true) :
    d ∈ (removeUndesired db t desired).dependencies.rows ↔
      d ∈ db.dependencies.rows ∧ (d.dependentTaskId = t → TaskDependencyRow.key d ∈ desired) := by
  rw [rows_removeUndesired, List.mem_map]
  constructor
  · rintro ⟨r, hr, rfl⟩
    split at hactive
    · cases hactive
    · next hkeep =>
      rw [if_neg hkeep]
      rw [mem_toRemove hr, not_and_not_right] at hkeep
      exact ⟨hr, fun ht => hkeep ⟨hactive, ht⟩⟩
  · rintro ⟨hd, hkey⟩
    refine ⟨d, hd, if_neg ?_⟩
    rw [mem_toRemove hd]
    exact fun h => h.2 (hkey h.1.2)

theorem mem_removeUndesired_other {desired : List DependencyKey} (hother : d.dependentTaskId ≠ t) :
    d ∈ (removeUndesired db t desired).dependencies.rows ↔ d ∈ db.dependencies.rows := by
  rw [rows_removeUndesired, List.mem_map]
  constructor
  · rintro ⟨r, hr, rfl⟩
    split
    · next hclosed =>
      rw [if_pos hclosed] at hother
      exact absurd ((mem_toRemove hr).mp hclosed).1.2 hother
    · exact hr
  · intro hd
    refine ⟨d, hd, if_neg ?_⟩
    rw [mem_toRemove hd]
    exact fun h => hother h.1.2

theorem Stored.remove (hstored : Stored db) (desired : List DependencyKey) :
    Stored (removeUndesired db t desired) := by
  refine ⟨fun d hd e he hd' he' => ?_, fun d hd n hn => ?_, hstored.drawn⟩
  · exact hstored.unique d ((mem_removeUndesired hd').mp hd).1 e ((mem_removeUndesired he').mp he).1
      hd' he'
  · rw [rows_removeUndesired] at hd
    obtain ⟨r, hr, rfl⟩ := List.mem_map.mp hd
    split
    · exact hstored.fresh r hr n hn
    · exact hstored.fresh r hr n hn

theorem insertAll_ok {keys : List DependencyKey} (hstored : Stored db)
    (h : keys.foldlM (insertDependency t) db = .ok db') :
    Stored db' ∧ ∀ d, d.dependentTaskId ≠ t →
      (d ∈ db'.dependencies.rows ↔ d ∈ db.dependencies.rows) := by
  refine foldlM_ok (I := fun s => Stored s ∧ ∀ d, d.dependentTaskId ≠ t →
    (d ∈ s.dependencies.rows ↔ d ∈ db.dependencies.rows)) h ⟨hstored, fun _ _ => Iff.rfl⟩ ?_
  rintro s k s' - ⟨hs, hothers⟩ hstep
  refine ⟨hs.insert hstep, fun d hd => ?_⟩
  obtain ⟨-, dependencies, hinsert, rfl⟩ := insertDependency_ok hstep
  rw [(Table.insert?_eq_some hinsert).2, List.mem_append, List.mem_singleton, hothers d hd]
  exact or_iff_left fun hnew => hd (hnew ▸ rfl)

/-! ### The items -/

/-- An item of a list that was validated for `t`. -/
structure Valid (db : Db) (t : Uuid) (l : DependencyLink) : Prop where
  task : ∃ task, db.tasks.find? l.blockingTaskId = some task ∧ task.active = true
  apart : l.blockingTaskId ≠ t
  lag : minLagMinutes ≤ l.lagMinutes ∧ l.lagMinutes ≤ maxLagMinutes

theorem find?_of_identifier {identifier : TaskIdentifier} {task : TaskRow}
    (h : findByIdentifier tasks identifier = some task) :
    tasks.find? task.id = some task ∧ task.active = true := by
  cases identifier with
  | blank => cases h
  | uuid u canonical =>
    cases canonical with
    | false => cases h
    | true =>
      obtain ⟨hfind, hactive⟩ := Option.filter_eq_some_iff.mp h
      exact ⟨Table.find?_of_mem (Table.find?_eq_some_iff.mp hfind).1, hactive⟩
  | serial s =>
    have hactive := List.find?_some h
    rw [Bool.and_eq_true] at hactive
    exact ⟨Table.find?_of_mem (List.mem_of_find?_eq_some h), hactive.1⟩

theorem assertValidLagMinutes_ok {n : Option Number} {lag : ℤ} (h : assertValidLagMinutes n = .ok lag) :
    minLagMinutes ≤ lag ∧ lag ≤ maxLagMinutes := by
  cases n with
  | none =>
    cases h
    decide
  | some n =>
    simp only [assertValidLagMinutes] at h
    split at h
    · cases h
    · split at h
      · cases h
      · next hrange =>
        cases h
        rw [not_or, not_lt, not_lt] at hrange
        exact hrange

theorem readItem_ok {item : DependencyItem} {identifier : TaskIdentifier}
    {type : TaskDependencyType} {lag : ℤ} (h : readItem item = .ok (some (identifier, type, lag))) :
    minLagMinutes ≤ lag ∧ lag ≤ maxLagMinutes := by
  cases item with
  | text text =>
    cases text <;> cases h <;> decide
  | descriptor id serial type' lag' =>
    simp only [readItem] at h
    split at h
    · cases h
    · simp only [bind_ok, pure_ok] at h
      obtain ⟨lag'', hlag, heq⟩ := h
      cases heq
      exact assertValidLagMinutes_ok hlag

theorem valid_of_validated {raw : List DependencyItem}
    (h : validateTaskDependenciesInput db.tasks (some t) raw = .ok items) :
    ∀ l ∈ items, Valid db t l := by
  simp only [validateTaskDependenciesInput, bind_ok, pure_ok] at h
  obtain ⟨read, hread, resolved, hresolved, found, hfound, rfl⟩ := h
  intro l hl
  rw [List.mem_reverse, List.mem_dedup, List.mem_reverse] at hl
  obtain ⟨⟨task, type, lag⟩, htask, hlink⟩ := mem_mapM_ok hfound hl
  obtain ⟨⟨identifier, details⟩, hitem, hitemTask⟩ := mem_mapM_ok hresolved htask
  obtain ⟨o, ho, hsome⟩ := List.mem_filterMap.mp hitem
  obtain rfl : o = some (identifier, details) := hsome
  obtain ⟨raw, -, hreadItem⟩ := mem_mapM_ok hread ho
  split at hitemTask
  · cases hitemTask
  · next found hfind =>
    cases hitemTask
    have hlag := readItem_ok hreadItem
    obtain ⟨htask, hactive⟩ := find?_of_identifier hfind
    split at hlink
    · cases hlink
    · next hself =>
      cases hlink
      exact ⟨⟨_, htask, hactive⟩, fun heq => hself (congrArg some heq.symm), hlag⟩

theorem desiredKeys_total (hvalid : ∀ l ∈ items, Valid db t l) :
    ∃ desired, desiredKeys t items = .ok desired := by
  have hloop : (forIn items PUnit.unit (fun item _ => do
      assertNotSelfDependency item.blockingTaskId t
      discard (assertValidLagMinutes (some (.fin item.lagMinutes)))
      pure (ForInStep.yield PUnit.unit)) : Except RepoError PUnit) = .ok PUnit.unit := by
    refine forIn_total fun l hl => ?_
    have hvalid := hvalid l hl
    have hself : assertNotSelfDependency l.blockingTaskId t = .ok () := if_neg hvalid.apart
    have hlag : assertValidLagMinutes (some (.fin l.lagMinutes)) = .ok l.lagMinutes := by
      have hrange : ¬ (l.lagMinutes < minLagMinutes ∨ l.lagMinutes > maxLagMinutes) := by
        rw [not_or, not_lt, not_lt]
        exact hvalid.lag
      simp only [assertValidLagMinutes, Number.toInt?_intCast, if_neg hrange]
    simp only [hself, hlag]
    rfl
  unfold desiredKeys
  rw [hloop]
  exact ⟨_, rfl⟩

/-! ### The inserts -/

/-- The middle of the inserts: `keys` are still to come, and `G` is the graph that is asked for. -/
structure Pending (G : Uuid → Uuid → Prop) (t : Uuid) (desired keys : List DependencyKey) (db : Db) :
    Prop where
  stored : Stored db
  dependent : ∃ task, db.tasks.find? t = some task ∧ task.active = true
  blocking : ∀ k ∈ desired, ∃ task, db.tasks.find? k.1 = some task ∧ task.active = true
  edges : ∀ d ∈ db.dependencies.rows, d.active = true → G d.blockingTaskId d.dependentTaskId
  into : ∀ d ∈ db.dependencies.rows, d.active = true → d.dependentTaskId = t →
    TaskDependencyRow.key d ∈ desired ∧ TaskDependencyRow.key d ∉ keys

variable {G : Uuid → Uuid → Prop} {desired keys : List DependencyKey}

/-- Two keys of one blocking task and one type are one key. -/
def OneLag (desired : List DependencyKey) : Prop :=
  ∀ k ∈ desired, ∀ m ∈ desired, k.1 = m.1 → k.2.1 = m.2.1 → k = m

theorem Pending.accepted (h : Pending G t desired (k :: keys) db) (hG : Acyclic G)
    (hedge : ∀ k ∈ desired, G k.1 t) (hone : OneLag desired) (hk : k ∈ desired) :
    Accepted db.tasks db.dependencies.rows (newRow db t k) := by
  refine ⟨h.blocking k hk, h.dependent, fun hself => ?_, fun hdown => ?_, fun d hd => ?_,
    fun d hd hactive hblocking hdependent htype => ?_⟩
  · have hloop : G k.1 t := hedge k hk
    have heq : k.1 = t := hself
    rw [heq] at hloop
    exact hG t (TransGen.single hloop)
  · have hreach : ReflTransGen G t k.1 := by
      refine ReflTransGen.mono (fun a b hab => ?_) _ _ (mem_downstream_iff.mp hdown)
      obtain ⟨d, hd, heq⟩ := List.mem_map.mp hab
      obtain ⟨hd, hactive⟩ := List.mem_filter.mp hd
      cases heq
      exact h.edges d (List.mem_of_mem_filter hd) hactive
    exact hG t (TransGen.tail' hreach (hedge k hk))
  · exact h.stored.fresh d hd _ le_rfl
  · obtain ⟨hin, hout⟩ := h.into d hd hactive hdependent
    have heq : TaskDependencyRow.key d = k := hone _ hin k hk hblocking htype
    exact hout (heq ▸ List.mem_cons_self)

theorem Pending.insert (h : Pending G t desired (k :: keys) db) (hedge : ∀ k ∈ desired, G k.1 t)
    (hk : k ∈ desired) (hout : k ∉ keys) (hinsert : insertDependency t db k = .ok db') :
    Pending G t desired keys db' := by
  have hstored := h.stored.insert hinsert
  obtain ⟨-, dependencies, hrow, rfl⟩ := insertDependency_ok hinsert
  have hrows := (Table.insert?_eq_some hrow).2
  refine ⟨hstored, h.dependent, h.blocking, fun d hd hactive => ?_, fun d hd hactive ht => ?_⟩
  · rw [hrows, List.mem_append, List.mem_singleton] at hd
    rcases hd with hd | rfl
    · exact h.edges d hd hactive
    · exact hedge k hk
  · rw [hrows, List.mem_append, List.mem_singleton] at hd
    rcases hd with hd | rfl
    · obtain ⟨hin, hnot⟩ := h.into d hd hactive ht
      exact ⟨hin, fun hmem => hnot (List.mem_cons_of_mem _ hmem)⟩
    · exact ⟨hk, hout⟩

theorem Pending.total (h : Pending G t desired keys db) (hG : Acyclic G)
    (hedge : ∀ k ∈ desired, G k.1 t) (hone : OneLag desired) (hsub : ∀ k ∈ keys, k ∈ desired)
    (hnodup : keys.Nodup) : ∃ db', keys.foldlM (insertDependency t) db = .ok db' := by
  induction keys generalizing db with
  | nil => exact ⟨db, rfl⟩
  | cons k keys ih =>
    obtain ⟨hout, hnodup⟩ := List.nodup_cons.mp hnodup
    obtain ⟨hk, hsub⟩ := List.forall_mem_cons.mp hsub
    obtain ⟨mid, hmid⟩ := insertDependency_total (h.accepted hG hedge hone hk)
    obtain ⟨db', hdb'⟩ := ih (h.insert hedge hk hout hmid) hsub hnodup
    refine ⟨db', ?_⟩
    rw [List.foldlM_cons, hmid]
    exact hdb'

/-! ### The graph -/

theorem notMem_ids_activeInto (hd : d ∈ db.dependencies.rows) (hactive : d.active = true) :
    d.id ∉ (activeInto db t).map TaskDependencyRow.id ↔ d.dependentTaskId ≠ t := by
  rw [not_iff_not, List.mem_map]
  constructor
  · rintro ⟨e, he, hid⟩
    simp only [activeInto, List.mem_filter, Bool.and_eq_true, decide_eq_true_eq] at he
    rw [← Table.eq_of_mem he.1 hd hid]
    exact he.2.2
  · intro ht
    refine ⟨d, List.mem_filter.mpr ⟨hd, ?_⟩, rfl⟩
    rw [hactive, decide_eq_true ht]
    rfl

theorem blocks_proposed (hdesired : ∀ k, k ∈ desired ↔ k ∈ items.map DependencyLink.key) {a b : Uuid} :
    Blocks (proposedEdges t db.dependencies.rows (activeInto db t) desired) a b ↔
      Asked db t items a b := by
  unfold Blocks proposedEdges Asked
  rw [List.mem_append, List.mem_map, List.mem_map]
  refine or_congr ?_ ?_
  · constructor
    · rintro ⟨d, hd, heq⟩
      simp only [List.mem_filter, Bool.and_eq_true, decide_eq_true_eq] at hd
      cases heq
      exact ⟨d, hd.1, hd.2.1, (notMem_ids_activeInto hd.1 hd.2.1).mp hd.2.2, rfl, rfl⟩
    · rintro ⟨d, hd, hactive, hother, rfl, rfl⟩
      refine ⟨d, ?_, rfl⟩
      simp only [List.mem_filter, Bool.and_eq_true, decide_eq_true_eq]
      exact ⟨hd, hactive, (notMem_ids_activeInto hd hactive).mpr hother⟩
  · constructor
    · rintro ⟨k, hk, heq⟩
      cases heq
      obtain ⟨l, hl, rfl⟩ := List.mem_map.mp ((hdesired k).mp hk)
      exact ⟨rfl, l, hl, rfl⟩
    · rintro ⟨rfl, l, hl, rfl⟩
      exact ⟨l.key, (hdesired _).mpr (List.mem_map_of_mem hl), rfl⟩

theorem assertNoDependencyCycle_iff (hdesired : ∀ k, k ∈ desired ↔ k ∈ items.map DependencyLink.key) :
    assertNoDependencyCycle
      (proposedEdges t db.dependencies.rows (activeInto db t) desired) = .ok () ↔
      Acyclic (Asked db t items) := by
  have hsame : Blocks (proposedEdges t db.dependencies.rows (activeInto db t) desired) =
      Asked db t items := by
    funext a b
    exact propext (blocks_proposed hdesired)
  have hanswer := (detectDependencyCycle_returns
    (proposedEdges t db.dependencies.rows (activeInto db t) desired)).2
  rw [hsame] at hanswer
  unfold assertNoDependencyCycle
  cases hd : detectDependencyCycle
      (proposedEdges t db.dependencies.rows (activeInto db t) desired) with
  | some cycle =>
    rw [hd] at hanswer
    obtain ⟨a, ha⟩ := ClosedWalk.cycle hanswer
    exact ⟨fun h => (by cases h), fun h => absurd ha (h a)⟩
  | none =>
    rw [hd] at hanswer
    exact ⟨fun _ => hanswer, fun _ => rfl⟩

/-! ### Replacements -/

theorem isNoOp_same (hdesired : ∀ k, k ∈ desired ↔ k ∈ items.map DependencyLink.key) :
    isNoOp (activeInto db t) desired = true ↔ HasItems t items db := by
  constructor
  · intro h k
    rw [← hdesired k]
    exact isNoOp_iff h
  · intro h
    unfold isNoOp
    rw [Bool.and_eq_true, List.all_eq_true, List.all_eq_true]
    refine ⟨fun d hd => ?_, fun k hk => ?_⟩
    · exact decide_eq_true ((hdesired _).mpr ((h _).mp (List.mem_map_of_mem hd)))
    · exact decide_eq_true ((h k).mpr ((hdesired k).mp hk))

theorem desiredKeys_ok (h : desiredKeys t items = .ok desired) :
    (∀ k, k ∈ desired ↔ k ∈ items.map DependencyLink.key) ∧ desired.Nodup := by
  refine ⟨fun k => mem_desiredKeys h, ?_⟩
  simp only [desiredKeys, bind_ok, pure_ok] at h
  obtain ⟨_, -, rfl⟩ := h
  exact List.nodup_reverse.mpr (List.nodup_dedup _)

theorem replaceDependencies_ok {after : Db} {report : ReplaceReport} (hstored : Stored db)
    (h : replaceDependencies db t items = .ok (after, report)) :
    Stored after ∧ HasItems t items after ∧
      (∀ d, d.dependentTaskId ≠ t → (d ∈ after.dependencies.rows ↔ d ∈ db.dependencies.rows)) ∧
      (report.changed = false ↔ HasItems t items db) ∧ (report.changed = false → after = db) := by
  have hdb : replaceTaskDependencies db t items = .ok after := by
    rw [← replaceDependencies_fst, h]
    rfl
  have hkeys : HasItems t items after := fun k => Tasks.keys_replaceTaskDependencies hdb
  simp only [replaceDependencies, bind_ok] at h
  obtain ⟨desired, hdesired, h⟩ := h
  obtain ⟨hmem, -⟩ := desiredKeys_ok hdesired
  split at h
  · next hsame =>
    cases h
    exact ⟨hstored, hkeys, fun _ _ => Iff.rfl, ⟨fun _ => hkeys, fun _ => rfl⟩, fun _ => rfl⟩
  · next hdiffer =>
    rw [isNoOp_same hmem] at hdiffer
    simp only [bind_ok, pure_ok] at h
    obtain ⟨-, -, after', hfold, heq⟩ := h
    cases heq
    obtain ⟨hstored', hothers⟩ := insertAll_ok (hstored.remove desired) hfold
    exact ⟨hstored', hkeys, fun d hd => (hothers d hd).trans (mem_removeUndesired_other hd),
      ⟨fun h => (by cases h), fun h => absurd h hdiffer⟩, fun h => (by cases h)⟩

theorem pending_removeUndesired (hstored : Stored db)
    (ht : ∃ task, db.tasks.find? t = some task ∧ task.active = true)
    (hvalid : ∀ l ∈ items, Valid db t l)
    (hdesired : ∀ k, k ∈ desired ↔ k ∈ items.map DependencyLink.key) :
    Pending (Asked db t items) t desired (planReplace (activeInto db t) desired).toInsert
      (removeUndesired db t desired) := by
  refine ⟨hstored.remove desired, ht, fun k hk => ?_, fun d hd hactive => ?_,
    fun d hd hactive hinto => ?_⟩
  · obtain ⟨l, hl, rfl⟩ := List.mem_map.mp ((hdesired k).mp hk)
    exact (hvalid l hl).task
  · obtain ⟨hd, hkey⟩ := (mem_removeUndesired hactive).mp hd
    by_cases hinto : d.dependentTaskId = t
    · obtain ⟨l, hl, heq⟩ := List.mem_map.mp ((hdesired _).mp (hkey hinto))
      exact Or.inr ⟨hinto, l, hl, congrArg Prod.fst heq⟩
    · exact Or.inl ⟨d, hd, hactive, hinto, rfl, rfl⟩
  · obtain ⟨hd, hkey⟩ := (mem_removeUndesired hactive).mp hd
    refine ⟨hkey hinto, fun hmem => ?_⟩
    obtain ⟨-, hnew⟩ := List.mem_filter.mp hmem
    refine of_decide_eq_true hnew (List.mem_map_of_mem (List.mem_filter.mpr ⟨hd, ?_⟩))
    rw [hactive, decide_eq_true hinto]
    rfl

theorem oneLag_of_noClash (hclash : ¬ Clashes items)
    (hdesired : ∀ k, k ∈ desired ↔ k ∈ items.map DependencyLink.key) : OneLag desired := by
  intro k hk m hm hblocking htype
  obtain ⟨l, hl, rfl⟩ := List.mem_map.mp ((hdesired k).mp hk)
  obtain ⟨l', hl', rfl⟩ := List.mem_map.mp ((hdesired m).mp hm)
  have hlag : l.lagMinutes = l'.lagMinutes :=
    not_not.mp fun hne => hclash ⟨l, hl, l', hl', hblocking, htype, hne⟩
  exact Prod.ext hblocking (Prod.ext htype hlag)

theorem replaceDependencies_total (hstored : Stored db)
    (ht : ∃ task, db.tasks.find? t = some task ∧ task.active = true)
    (hvalid : ∀ l ∈ items, Valid db t l) (hclash : ¬ Clashes items)
    (hG : Acyclic (Asked db t items)) :
    ∃ r, replaceDependencies db t items = .ok r := by
  obtain ⟨desired, hdesired⟩ := desiredKeys_total hvalid
  obtain ⟨hmem, hnodup⟩ := desiredKeys_ok hdesired
  have hpending := pending_removeUndesired hstored ht hvalid hmem
  have hedge : ∀ k ∈ desired, Asked db t items k.1 t := fun k hk => by
    obtain ⟨l, hl, rfl⟩ := List.mem_map.mp ((hmem k).mp hk)
    exact Or.inr ⟨rfl, l, hl, rfl⟩
  obtain ⟨after, hafter⟩ := hpending.total hG hedge (oneLag_of_noClash hclash hmem)
    (fun k hk => List.mem_of_mem_filter hk) (hnodup.filter _)
  by_cases hsame : isNoOp (activeInto db t) desired = true
  · exact ⟨_, bind_ok.mpr ⟨desired, hdesired, if_pos hsame⟩⟩
  · have hsearch := (assertNoDependencyCycle_iff hmem).mpr hG
    exact ⟨_, bind_ok.mpr ⟨desired, hdesired, (if_neg hsame).trans
      (bind_ok.mpr ⟨(), hsearch, bind_ok.mpr ⟨after, hafter, rfl⟩⟩)⟩⟩

theorem not_hasItems_of_clash (hstored : Stored db) (hclash : Clashes items) : ¬ HasItems t items db := by
  obtain ⟨l, hl, m, hm, hblocking, htype, hlag⟩ := hclash
  intro h
  obtain ⟨d, hd, hdkey⟩ := List.mem_map.mp ((h l.key).mpr (List.mem_map_of_mem hl))
  obtain ⟨e, he, hekey⟩ := List.mem_map.mp ((h m.key).mpr (List.mem_map_of_mem hm))
  simp only [List.mem_filter, Bool.and_eq_true, decide_eq_true_eq] at hd he
  have hsame : d = e := by
    refine hstored.unique d hd.1 e he.1 hd.2.1 he.2.1 ?_ (hd.2.2.trans he.2.2.symm) ?_
    · exact (congrArg Prod.fst hdkey).trans (hblocking.trans (congrArg Prod.fst hekey).symm)
    · exact (congrArg (·.2.1) hdkey).trans (htype.trans (congrArg (·.2.1) hekey).symm)
  rw [hsame, hekey] at hdkey
  exact hlag (congrArg (·.2.2) hdkey).symm

/-- **Replacement**: it does what was asked for, and fails for a cycle only, if and only if no two
items differ in their lag only, or there is a cycle anyway. -/
theorem replaces_exactly_iff (hstored : Stored db)
    (ht : ∃ task, db.tasks.find? t = some task ∧ task.active = true) {raw : List DependencyItem}
    (hitems : validateTaskDependenciesInput db.tasks (some t) raw = .ok items) :
    Exact db t items (replaceDependencies db t items) ↔
      ¬ Clashes items ∨ ∃ a, TransGen (Asked db t items) a a := by
  constructor
  · intro h
    by_contra hnot
    obtain ⟨hclash, hcycle⟩ := not_or.mp hnot
    rw [not_not] at hclash
    cases hr : replaceDependencies db t items with
    | error e => exact hcycle (h.cycle e hr)
    | ok r =>
      obtain ⟨hstored', hkeys, -⟩ := replaceDependencies_ok hstored hr
      exact not_hasItems_of_clash hstored' hclash hkeys
  · intro hwhen
    refine ⟨fun after report h => ?_, fun after report h => ?_, fun after report h => ?_,
      fun after report h => ?_, fun e h => ?_, fun e h => ?_⟩
    · exact (replaceDependencies_ok hstored h).2.1
    · exact (replaceDependencies_ok hstored h).2.2.1
    · exact (replaceDependencies_ok hstored h).2.2.2.1
    · exact (replaceDependencies_ok hstored h).2.2.2.2
    · rcases hwhen with hclash | hcycle
      · by_contra hnone
        obtain ⟨r, hok⟩ := replaceDependencies_total hstored ht
          (valid_of_validated hitems) hclash fun a ha => hnone ⟨a, ha⟩
        rw [hok] at h
        cases h
      · exact hcycle
    · rw [h]
      rfl

/-! ### Two lags -/

/-- Two tasks without dependencies. -/
def twoTasks : Db :=
  after utcRuntime smallSetup
    [.createTask { projectId := 7, title := "a" }, .createTask { projectId := 7, title := "b" }]

/-- The first task blocks the second, with these lags. -/
def lagged (lags : List ℤ) : List DependencyLink :=
  lags.map fun lag => ⟨100, "TASK-1041", .finishToStart, lag⟩

def laggedItems (lags : List ℤ) : List DependencyItem :=
  lags.map fun lag => .descriptor none (some (.serial "TASK-1041")) none (some (.fin lag))

theorem stored_twoTasks : Stored twoTasks := by
  have hrows : twoTasks.dependencies.rows = [] := by decide
  refine ⟨?_, ?_, fun m n h => ?_⟩
  · rw [hrows]
    exact fun d hd => absurd hd List.not_mem_nil
  · rw [hrows]
    exact fun d hd => absurd hd List.not_mem_nil
  · exact Nat.add_right_cancel h

theorem blocker_twoTasks : ∃ task, twoTasks.tasks.find? 101 = some task ∧ task.active = true :=
  ⟨_, Option.get_mem (by decide), by decide⟩

/-- One item is stored as it was asked for. -/
theorem replaces_exactly_one :
    Exact twoTasks 101 (lagged [5]) (replaceDependencies twoTasks 101 (lagged [5])) := by
  have hitems : validateTaskDependenciesInput twoTasks.tasks (some 101) (laggedItems [5]) =
      .ok (lagged [5]) := by
    decide
  have hclash : ¬ Clashes (lagged [5]) := by
    rintro ⟨l, hl, m, hm, -, -, hlag⟩
    rw [List.mem_singleton.mp hl, List.mem_singleton.mp hm] at hlag
    exact hlag rfl
  exact (replaces_exactly_iff stored_twoTasks blocker_twoTasks hitems).mpr (Or.inl hclash)

/-- Two items that differ in their lag are validated, and the replacement fails without a cycle. -/
theorem replacement_clashes :
    validateTaskDependenciesInput twoTasks.tasks (some 101) (laggedItems [0, 5]) =
      .ok (lagged [0, 5]) ∧
    ¬ Exact twoTasks 101 (lagged [0, 5]) (replaceDependencies twoTasks 101 (lagged [0, 5])) := by
  refine ⟨by decide, fun h => ?_⟩
  have hrows : twoTasks.dependencies.rows = [] := by decide
  have hasked : ∀ a b, Asked twoTasks 101 (lagged [0, 5]) a b → a = 100 ∧ b = 101 := by
    rintro a b (⟨d, hd, -⟩ | ⟨hb, l, hl, rfl⟩)
    · rw [hrows] at hd
      exact absurd hd List.not_mem_nil
    · obtain ⟨lag, -, rfl⟩ := List.mem_map.mp hl
      exact ⟨rfl, hb⟩
  cases hr : replaceDependencies twoTasks 101 (lagged [0, 5]) with
  | ok r =>
    have hfails : (replaceDependencies twoTasks 101 (lagged [0, 5])).toOption.isNone = true := by
      decide
    rw [hr] at hfails
    cases hfails
  | error e =>
    -- the only edge leads from the first task to the second
    obtain ⟨a, ha⟩ := h.cycle e hr
    obtain ⟨b, hab, hba⟩ := TransGen.head'_iff.mp ha
    obtain ⟨rfl, rfl⟩ := hasked a b hab
    rcases hba.cases_head with heq | ⟨c, hbc, -⟩
    · cases heq
    · cases (hasked _ c hbc).1

end CalmBoard.Deps
