import CalmBoard.Lib.Sorting
import CalmBoard.Tasks.WipLimits

/-!
# CalmBoard.Tasks.Columns — columns in an order, and what a move by index makes of them

* `ColumnOrder`: an order of rows that goes by `order` first and tells tasks apart.
* `sortedIds`: a column in such an order.
* `Covers`: places for all tasks of some columns; writing them leaves each of these columns as the
  list of its places.
* `moveByIndex_columns`: the columns after a move by index, in every such order.
-/

namespace CalmBoard.Tasks

open Fallible

/-! ### Sorted columns -/

/-- An order of rows that goes by `order` first and tells tasks apart. -/
class ColumnOrder (r : TaskRow → TaskRow → Prop) : Prop extends Std.Total r, IsTrans TaskRow r where
  order_le : ∀ {a b}, r a b → a.order ≤ b.order
  of_lt : ∀ {a b}, a.order < b.order → r a b
  id_eq : ∀ {a b}, r a b → r b a → a.id = b.id

/-- A column in an order. -/
def sortedIds (r : TaskRow → TaskRow → Prop) [DecidableRel r] (db : Db) (projectId : Uuid)
    (status : TaskStatus) : List Uuid :=
  ((column db projectId status).insertionSort r).map TaskRow.id

variable {db db' : Db} {task : TaskRow} {projectId : Uuid} {status : TaskStatus}

def boardKey (t : TaskRow) : Number ×ₗ Timestamptz ×ₗ Uuid := toLex (t.order, toLex (t.createdAt, t.id))

theorem boardOrder_iff {a b : TaskRow} : boardOrder a b ↔ boardKey a ≤ boardKey b := by
  simp [boardOrder, boardKey, Prod.Lex.toLex_le_toLex]

instance : ColumnOrder boardOrder where
  total a b := by
    rw [boardOrder_iff, boardOrder_iff]
    exact le_total _ _
  trans a b c := by
    rw [boardOrder_iff, boardOrder_iff, boardOrder_iff]
    exact le_trans
  order_le h := h.elim le_of_lt fun h => h.1.le
  of_lt := Or.inl
  id_eq hab hba := by
    rw [boardOrder_iff] at hab hba
    have hkey := le_antisymm hab hba
    simp only [boardKey, EmbeddingLike.apply_eq_iff_eq, Prod.mk.injEq] at hkey
    exact hkey.2.2

/-! ### Columns -/

variable {row : TaskRow}

theorem fin_le_fin {p q : ℚ} : Number.fin p ≤ .fin q ↔ p ≤ q := by
  show Number.sqlKey (.fin p) ≤ Number.sqlKey (.fin q) ↔ p ≤ q
  simp [Number.sqlKey, Prod.Lex.toLex_le_toLex]

theorem mem_column_tasks (h : row ∈ column db projectId status) : row ∈ db.tasks.rows :=
  List.mem_of_mem_filter h

theorem nodup_column : (column db projectId status).Nodup :=
  db.tasks.nodup.of_map.filter _

theorem mem_column_iff : row ∈ column db projectId status ↔
    row ∈ db.tasks.rows ∧ row.deletedAt = none ∧ row.projectId = projectId ∧
      row.status = status ∧ row.parentId = none := by
  unfold column TaskRow.active
  simp only [List.mem_filter, Bool.and_eq_true, decide_eq_true_eq, Option.isNone_iff_eq_none, and_assoc]

section Sorted

variable {r : TaskRow → TaskRow → Prop} [DecidableRel r]

theorem nodup_sortedIds : (sortedIds r db projectId status).Nodup := by
  unfold sortedIds
  rw [((List.perm_insertionSort _ _).map TaskRow.id).nodup_iff]
  exact db.tasks.nodup.sublist (List.filter_sublist.map TaskRow.id)

theorem mem_sortedIds {k : Uuid} :
    k ∈ sortedIds r db projectId status ↔ k ∈ columnIds db projectId status :=
  ((List.perm_insertionSort _ _).map TaskRow.id).mem_iff

variable [ColumnOrder r]

theorem eq_sorted {l l' : List TaskRow} (hp : l'.Perm l) (hl : ∀ x ∈ l, x ∈ db.tasks.rows)
    (hsorted : l'.Pairwise r) : l' = l.insertionSort r := by
  refine @List.Perm.eq_of_pairwise TaskRow r _ _ (fun a b ha hb hab hba => ?_) hsorted
    (List.pairwise_insertionSort _ _) (hp.trans (List.perm_insertionSort _ _).symm)
  rw [List.mem_insertionSort] at hb
  exact Table.eq_of_mem (hl a (hp.mem_iff.mp ha)) (hl b hb) (ColumnOrder.id_eq hab hba)

theorem sort_of_perm {l l' : List TaskRow} (hp : l.Perm l') (hl : ∀ x ∈ l, x ∈ db.tasks.rows) :
    l.insertionSort r = l'.insertionSort r :=
  eq_sorted ((List.perm_insertionSort _ _).trans hp) (fun x hx => hl x (hp.mem_iff.mpr hx))
    (List.pairwise_insertionSort _ _)

theorem sortedIds_congr {projectId' : Uuid} {status' : TaskStatus}
    (h : ∀ row, row ∈ column db' projectId status ↔ row ∈ column db projectId' status') :
    sortedIds r db' projectId status = sortedIds r db projectId' status' := by
  unfold sortedIds
  rw [sort_of_perm ((List.perm_ext_iff_of_nodup nodup_column nodup_column).mpr h)
    fun x => mem_column_tasks]

/-- Without `task` the others are sorted as they were. -/
theorem sortedIds_filter (task : TaskRow) :
    (sortedIds r db projectId status).filter (fun k => k ≠ task.id) =
      (((column db projectId status).filter (·.id ≠ task.id)).insertionSort r).map TaskRow.id := by
  unfold sortedIds
  rw [List.filter_map]
  exact congrArg _ (eq_sorted ((List.perm_insertionSort _ _).filter _)
    (fun x hx => mem_column_tasks (List.mem_of_mem_filter hx))
    ((List.pairwise_insertionSort _ _).filter _))

theorem sortedIds_of_orders {ids : List Uuid} (hnodup : ids.Nodup)
    (hmem : ∀ k, k ∈ columnIds db projectId status ↔ k ∈ ids)
    (horder : ∀ row ∈ column db projectId status, row.order = .fin (ids.idxOf row.id)) :
    sortedIds r db projectId status = ids := by
  refine Positions.map_eq_of_positions hnodup nodup_sortedIds
    (fun k => mem_sortedIds.trans (hmem k)) ?_
  refine (List.pairwise_insertionSort r _).imp_of_mem fun {a b} ha hb hab => ?_
  rw [List.mem_insertionSort] at ha hb
  have hle : a.order ≤ b.order := ColumnOrder.order_le hab
  rw [horder a ha, horder b hb] at hle
  exact_mod_cast fin_le_fin.mp hle

end Sorted

/-! ### Rows that are written -/

/-- `new` is the row `old` in another place. -/
structure Placed (old new : TaskRow) (status : TaskStatus) (order : Number) : Prop where
  id : new.id = old.id
  projectId : new.projectId = old.projectId
  parentId : new.parentId = old.parentId
  deletedAt : new.deletedAt = old.deletedAt
  status : new.status = status
  order : new.order = order

theorem placed_of_moved {now : Timestamptz} {old new : TaskRow} {order : Number} {complete : Bool}
    (h : movedColumns now old status order complete = .ok new) : Placed old new status order := by
  simp only [movedColumns, bind_ok, pure_ok] at h
  obtain ⟨version, -, -, -, rfl⟩ := h
  exact ⟨rfl, rfl, rfl, rfl, rfl, rfl⟩

theorem placeTask_find {movedId : Uuid} {place : TaskStatus × ℕ × Uuid}
    (h : placeTask movedId db place = .ok db') :
    (∀ k, k ≠ place.2.2 → db'.tasks.find? k = db.tasks.find? k) ∧
      ∀ old, findActive db place.2.2 = some old →
        ∃ new, db'.tasks.find? place.2.2 = some new ∧ Placed old new place.1 (.fin place.2.1) := by
  unfold placeTask at h
  cases hf : findActive db place.2.2 with
  | none =>
    rw [hf] at h
    cases h
    exact ⟨fun _ _ => rfl, fun _ hold => by cases hold⟩
  | some old =>
    simp only [hf, bind_ok, pure_ok] at h
    obtain ⟨new, hnew, rfl⟩ := h
    have hplaced := placed_of_moved hnew
    have hid : new.id = place.2.2 := hplaced.id.trans (Table.key_of_find? (findActive_ok hf).1)
    have hfind : ∀ k, (db.tasks.put new).find? k = if new.id = k then some new else db.tasks.find? k :=
      Table.find?_put (hid ▸ (findActive_ok hf).1)
    refine ⟨fun k hk => ?_, fun old' hold => ?_⟩
    · show (db.tasks.put new).find? k = _
      rw [hfind, if_neg fun he => hk (he.symm.trans hid)]
    · cases hold
      exact ⟨new, (hfind _).trans (if_pos hid), hplaced⟩

theorem placeTasks_find {movedId : Uuid} {places : List (TaskStatus × ℕ × Uuid)}
    (hnodup : (places.map fun p => p.2.2).Nodup)
    (h : places.foldlM (placeTask movedId) db = .ok db') :
    (∀ k, (∀ p ∈ places, p.2.2 ≠ k) → db'.tasks.find? k = db.tasks.find? k) ∧
      ∀ p ∈ places, ∀ old, findActive db p.2.2 = some old →
        ∃ new, db'.tasks.find? p.2.2 = some new ∧ Placed old new p.1 (.fin p.2.1) := by
  induction places generalizing db with
  | nil =>
    cases h
    exact ⟨fun _ _ => rfl, fun _ hp => absurd hp List.not_mem_nil⟩
  | cons p places ih =>
    rw [List.foldlM_cons, bind_ok] at h
    obtain ⟨mid, hmid, h⟩ := h
    obtain ⟨hp, hnodup⟩ := List.nodup_cons.mp hnodup
    obtain ⟨hothers, hplaced⟩ := placeTask_find hmid
    obtain ⟨hrest, hrestPlaced⟩ := ih hnodup h
    have hne : ∀ q ∈ places, q.2.2 ≠ p.2.2 := fun q hq he => hp (List.mem_map.mpr ⟨q, hq, he⟩)
    refine ⟨fun k hk => ?_, List.forall_mem_cons.mpr ⟨fun old hold => ?_, fun q hq old hold => ?_⟩⟩
    · obtain ⟨hk, hks⟩ := List.forall_mem_cons.mp hk
      rw [hrest k hks, hothers k hk.symm]
    · rw [hrest _ hne]
      exact hplaced old hold
    · refine hrestPlaced q hq old ?_
      unfold findActive at hold ⊢
      rw [hothers _ (hne q hq)]
      exact hold
/-! ### Numbered columns -/

variable {p : TaskStatus × ℕ × Uuid}

section Index

variable {places : List (TaskStatus × ℕ × Uuid)} {ids : List Uuid}

theorem mem_columnPlaces :
    p ∈ columnPlaces status ids ↔ p.1 = status ∧ ids[p.2.1]? = some p.2.2 := by
  unfold columnPlaces
  rw [List.mem_map]
  constructor
  · rintro ⟨q, hq, rfl⟩
    exact ⟨rfl, List.mem_zipIdx_iff_getElem?.mp hq⟩
  · rintro ⟨rfl, h⟩
    exact ⟨(p.2.2, p.2.1), List.mem_zipIdx_iff_getElem?.mpr h, rfl⟩

/-- The places belong to active top-level tasks of a project, and the columns that `Affected` names
have no others. -/
structure Covers (db : Db) (projectId : Uuid) (Affected : TaskStatus → Prop)
    (places : List (TaskStatus × ℕ × Uuid)) : Prop where
  nodup : (places.map fun p => p.2.2).Nodup
  old : ∀ p ∈ places, ∃ old ∈ db.tasks.rows, old.id = p.2.2 ∧ old.deletedAt = none ∧
    old.projectId = projectId ∧ old.parentId = none ∧ Affected old.status
  place : ∀ p ∈ places, Affected p.1
  full : ∀ status, Affected status → ∀ k ∈ columnIds db projectId status, ∃ p ∈ places, p.2.2 = k

variable {Affected : TaskStatus → Prop} {movedId : Uuid} {r : TaskRow → TaskRow → Prop}
  [DecidableRel r] [ColumnOrder r]

theorem Covers.find (h : Covers db projectId Affected places)
    (hfold : places.foldlM (placeTask movedId) db = .ok db') (hp : p ∈ places) :
    ∃ new, db'.tasks.find? p.2.2 = some new ∧
      new ∈ column db' projectId p.1 ∧ new.order = .fin p.2.1 := by
  obtain ⟨old, hrow, hid, hactive, hproject, hparent, -⟩ := h.old p hp
  have hold : findActive db p.2.2 = some old := by
    rw [← hid]
    exact Option.filter_eq_some_iff.mpr ⟨Table.find?_of_mem hrow, Option.isNone_iff_eq_none.mpr hactive⟩
  obtain ⟨new, hnew, hplaced⟩ := (placeTasks_find h.nodup hfold).2 p hp old hold
  refine ⟨new, hnew, mem_column_iff.mpr ⟨Table.mem_of_find? hnew, ?_, ?_, hplaced.status, ?_⟩,
    hplaced.order⟩
  · rw [hplaced.deletedAt, hactive]
  · rw [hplaced.projectId, hproject]
  · rw [hplaced.parentId, hparent]

theorem Covers.same (h : Covers db projectId Affected places)
    (hfold : places.foldlM (placeTask movedId) db = .ok db')
    (hplace : ∀ p ∈ places, p.2.2 ≠ row.id) : row ∈ db'.tasks.rows ↔ row ∈ db.tasks.rows := by
  have hsame := (placeTasks_find h.nodup hfold).1 row.id hplace
  constructor
  · intro hrow
    rw [Table.find?_of_mem hrow] at hsame
    exact Table.mem_of_find? hsame.symm
  · intro hrow
    rw [Table.find?_of_mem hrow] at hsame
    exact Table.mem_of_find? hsame

theorem Covers.place_of_row (h : Covers db projectId Affected places)
    (hfold : places.foldlM (placeTask movedId) db = .ok db') (hstatus : Affected status)
    (hrow : row ∈ column db' projectId status) :
    ∃ p ∈ places, p.1 = status ∧ p.2.2 = row.id ∧ row.order = .fin p.2.1 := by
  have hin := mem_column_iff.mp hrow
  by_cases hplace : ∃ p ∈ places, p.2.2 = row.id
  · obtain ⟨p, hp, hid⟩ := hplace
    obtain ⟨new, hnew, hcolumn, horder⟩ := h.find hfold hp
    rw [hid, Table.find?_of_mem hin.1] at hnew
    cases hnew
    exact ⟨p, hp, (mem_column_iff.mp hcolumn).2.2.2.1.symm.trans hin.2.2.2.1, hid, horder⟩
  · -- it has not been written, so it was in the column before
    have hbefore : row ∈ column db projectId status := mem_column_iff.mpr
      ⟨(h.same hfold fun p hp he => hplace ⟨p, hp, he⟩).mp hin.1, hin.2⟩
    exact absurd (h.full status hstatus row.id (List.mem_map_of_mem hbefore)) hplace

theorem Covers.sorted_affected (h : Covers db projectId Affected places)
    (hfold : places.foldlM (placeTask movedId) db = .ok db') (hstatus : Affected status)
    (hnodup : ids.Nodup) (hids : ∀ p, p ∈ places ∧ p.1 = status ↔ p ∈ columnPlaces status ids) :
    sortedIds r db' projectId status = ids := by
  refine sortedIds_of_orders hnodup (fun k => ⟨fun hk => ?_, fun hk => ?_⟩) fun row hrow => ?_
  · obtain ⟨row, hrow, rfl⟩ := List.mem_map.mp hk
    obtain ⟨p, hp, hpstatus, hid, -⟩ := h.place_of_row hfold hstatus hrow
    have hposition := (mem_columnPlaces.mp ((hids p).mp ⟨hp, hpstatus⟩)).2
    rw [hid] at hposition
    exact List.mem_of_getElem? hposition
  · obtain ⟨i, hi⟩ := List.getElem?_of_mem hk
    obtain ⟨hp, -⟩ := (hids (status, i, k)).mpr (mem_columnPlaces.mpr ⟨rfl, hi⟩)
    obtain ⟨new, hnew, hcolumn, -⟩ := h.find hfold hp
    have hid : new.id = k := Table.key_of_find? hnew
    exact hid ▸ List.mem_map_of_mem hcolumn
  · obtain ⟨p, hp, hpstatus, hid, horder⟩ := h.place_of_row hfold hstatus hrow
    have hposition := (mem_columnPlaces.mp ((hids p).mp ⟨hp, hpstatus⟩)).2
    rw [hid] at hposition
    rw [horder, Positions.idxOf_of_getElem? hnodup hposition]

theorem Covers.sorted_other (h : Covers db projectId Affected places)
    (hfold : places.foldlM (placeTask movedId) db = .ok db') {projectId' : Uuid}
    (hother : projectId' = projectId → ¬ Affected status) :
    sortedIds r db' projectId' status = sortedIds r db projectId' status := by
  refine sortedIds_congr fun row => ?_
  rw [mem_column_iff, mem_column_iff]
  by_cases hplace : ∃ p ∈ places, p.2.2 = row.id
  · obtain ⟨p, hp, hid⟩ := hplace
    constructor
    · rintro ⟨hrow, -, hproject, hstatus, -⟩
      obtain ⟨new, hnew, hcolumn, -⟩ := h.find hfold hp
      rw [hid, Table.find?_of_mem hrow] at hnew
      cases hnew
      obtain ⟨-, -, hproject', hstatus', -⟩ := mem_column_iff.mp hcolumn
      exact absurd (hstatus ▸ hstatus' ▸ h.place p hp) (hother (hproject.symm.trans hproject'))
    · rintro ⟨hrow, -, hproject, hstatus, -⟩
      obtain ⟨old, hold, hid', -, hproject', -, haffected⟩ := h.old p hp
      obtain rfl := Table.eq_of_mem hold hrow (hid'.trans hid)
      exact absurd (hstatus ▸ haffected) (hother (hproject.symm.trans hproject'))
  · rw [h.same hfold fun p hp he => hplace ⟨p, hp, he⟩]
end Index

/-! ### A move by index -/

section ByIndex

variable {input : MoveTaskInput} {n : ℕ}

/-- The columns that a move by index renumbers. -/
def Renumbered (task : TaskRow) (input : MoveTaskInput) (status : TaskStatus) : Prop :=
  status = task.status ∨ status = input.status

theorem mem_withMoved {k : Uuid} : k ∈ withMoved db task input n ↔
    k = task.id ∨ k ∈ otherIds db task input.status := by
  unfold withMoved
  exact List.mem_insertIdx (min_le_right _ _)

theorem nodup_withMoved : (withMoved db task input n).Nodup := by
  have hperm : (withMoved db task input n).Perm (task.id :: otherIds db task input.status) :=
    List.perm_insertIdx _ _ (min_le_right _ _)
  rw [hperm.nodup_iff, List.nodup_cons]
  exact ⟨fun h => (mem_otherIds.mp h).2 rfl, nodup_otherIds task input.status⟩

theorem mem_finalPlaces_iff : p ∈ finalPlaces db task input n ↔
    p ∈ columnPlaces input.status (withMoved db task input n) ∨
      task.status ≠ input.status ∧ p ∈ columnPlaces task.status (otherIds db task task.status) := by
  simp only [finalPlaces]
  split
  · next h => exact ⟨Or.inl, fun hp => hp.elim (fun hp => hp) fun hp => absurd h hp.1⟩
  · next h =>
    rw [List.mem_append]
    exact ⟨fun hp => hp.elim (fun hp => Or.inr ⟨h, hp⟩) Or.inl,
      fun hp => hp.elim Or.inr fun hp => Or.inl hp.2⟩

theorem places_target :
    p ∈ finalPlaces db task input n ∧ p.1 = input.status ↔
      p ∈ columnPlaces input.status (withMoved db task input n) := by
  rw [mem_finalPlaces_iff]
  constructor
  · rintro ⟨hp | ⟨hne, hp⟩, hstatus⟩
    · exact hp
    · exact absurd ((mem_columnPlaces.mp hp).1.symm.trans hstatus) hne
  · exact fun hp => ⟨Or.inl hp, (mem_columnPlaces.mp hp).1⟩

theorem places_source (hne : task.status ≠ input.status) :
    p ∈ finalPlaces db task input n ∧ p.1 = task.status ↔
      p ∈ columnPlaces task.status (otherIds db task task.status) := by
  rw [mem_finalPlaces_iff]
  constructor
  · rintro ⟨hp | ⟨-, hp⟩, hstatus⟩
    · exact absurd (hstatus.symm.trans (mem_columnPlaces.mp hp).1) hne
    · exact hp
  · exact fun hp => ⟨Or.inr ⟨hne, hp⟩, (mem_columnPlaces.mp hp).1⟩

theorem covers_finalPlaces (htask : task ∈ db.tasks.rows) (hactive : task.active = true)
    (hroot : task.parentId = none) :
    Covers db task.projectId (Renumbered task input) (finalPlaces db task input n) := by
  have hother : ∀ status, Renumbered task input status → ∀ k ∈ otherIds db task status,
      ∃ old ∈ db.tasks.rows, old.id = k ∧ old.deletedAt = none ∧ old.projectId = task.projectId ∧
        old.parentId = none ∧ Renumbered task input old.status := by
    intro status hstatus k hk
    obtain ⟨old, hold, rfl⟩ := List.mem_map.mp (mem_otherIds.mp hk).1
    obtain ⟨hrow, hlive, hproject, hin, hparent⟩ := mem_column_iff.mp hold
    exact ⟨old, hrow, rfl, hlive, hproject, hparent, hin ▸ hstatus⟩
  refine ⟨nodup_finalPlaces task input n, fun p hp => ?_, fun p hp => ?_, fun status hstatus k hk => ?_⟩
  · rcases mem_finalPlaces_iff.mp hp with hp | ⟨-, hp⟩
    · rcases mem_withMoved.mp (List.mem_of_getElem? (mem_columnPlaces.mp hp).2) with hid | hid
      · exact ⟨task, htask, hid.symm, Option.isNone_iff_eq_none.mp hactive, rfl, hroot, Or.inl rfl⟩
      · exact hother _ (Or.inr rfl) _ hid
    · exact hother _ (Or.inl rfl) _ (List.mem_of_getElem? (mem_columnPlaces.mp hp).2)
  · rcases mem_finalPlaces_iff.mp hp with hp | ⟨-, hp⟩
    · exact Or.inr (mem_columnPlaces.mp hp).1
    · exact Or.inl (mem_columnPlaces.mp hp).1
  · -- the task stands in the target column, the others of a column in the list of its others
    have htarget : k ∈ withMoved db task input n → ∃ p ∈ finalPlaces db task input n, p.2.2 = k := by
      intro hmem
      obtain ⟨i, hi⟩ := List.getElem?_of_mem hmem
      exact ⟨(input.status, i, k), mem_finalPlaces_iff.mpr (Or.inl (mem_columnPlaces.mpr ⟨rfl, hi⟩)), rfl⟩
    by_cases hself : k = task.id
    · exact htarget (mem_withMoved.mpr (Or.inl hself))
    · have hmem : k ∈ otherIds db task status := mem_otherIds.mpr ⟨hk, hself⟩
      by_cases hsame : status = input.status
      · exact htarget (mem_withMoved.mpr (Or.inr (hsame ▸ hmem)))
      · obtain rfl : status = task.status := hstatus.resolve_right hsame
        obtain ⟨i, hi⟩ := List.getElem?_of_mem hmem
        exact ⟨(task.status, i, k),
          mem_finalPlaces_iff.mpr (Or.inr ⟨hsame, mem_columnPlaces.mpr ⟨rfl, hi⟩⟩), rfl⟩

theorem moveByIndex_rows (h : moveByIndex db task input n = .ok db') :
    ∃ placed, (finalPlaces db task input n).foldlM (placeTask task.id) db = .ok placed ∧
      db'.tasks = placed.tasks := by
  simp only [moveByIndex, bind_ok] at h
  obtain ⟨-, -, placed, hfold, h⟩ := h
  split at h
  · cases h
  · next moved hmoved =>
    cases h
    obtain ⟨events, hevents⟩ := Sprints.recordTaskChange_eq placed task moved
    exact ⟨placed, hfold, by rw [hevents]⟩

variable {r : TaskRow → TaskRow → Prop} [DecidableRel r]

theorem sortedIds_of_tasks (h : db'.tasks = db.tasks) :
    sortedIds r db' projectId status = sortedIds r db projectId status := by
  unfold sortedIds column
  rw [h]

/-- **Move by index**: the target column with the task in it, the column that the task leaves without
it, and the others as they were. -/
theorem moveByIndex_columns [ColumnOrder r] (htask : task ∈ db.tasks.rows) (hactive : task.active = true)
    (hroot : task.parentId = none) (h : moveByIndex db task input n = .ok db') :
    sortedIds r db' task.projectId input.status = withMoved db task input n ∧
      (task.status ≠ input.status →
        sortedIds r db' task.projectId task.status = otherIds db task task.status) ∧
      ∀ projectId status, (projectId = task.projectId → ¬ Renumbered task input status) →
        sortedIds r db' projectId status = sortedIds r db projectId status := by
  obtain ⟨placed, hfold, htasks⟩ := moveByIndex_rows h
  have hcovers : Covers db task.projectId (Renumbered task input) (finalPlaces db task input n) :=
    covers_finalPlaces htask hactive hroot
  refine ⟨?_, fun hne => ?_, fun projectId status hother => ?_⟩
  · rw [sortedIds_of_tasks htasks]
    exact hcovers.sorted_affected hfold (Or.inr rfl) nodup_withMoved fun p => places_target
  · rw [sortedIds_of_tasks htasks]
    exact hcovers.sorted_affected hfold (Or.inl rfl) (nodup_otherIds task task.status)
      fun p => places_source hne
  · rw [sortedIds_of_tasks htasks]
    exact hcovers.sorted_other hfold hother

end ByIndex

end CalmBoard.Tasks
