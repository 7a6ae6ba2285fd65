import CalmBoard.Tasks.Columns

/-!
# CalmBoard.Tasks.BoardMoves — what a move leaves of the order of the columns

A move by index renumbers the columns in the order of `boardOrder`, while a list shows tasks of one
order with the newest first.

* `shown`: a column as `list` shows it.
* `BoardMove`: nobody else moves, the others keep their places, and the task is where it was put.
* `Untied`: no two other tasks of a column have one order.
* `board_moves_iff`: a move is of this kind if and only if the columns that it renumbers are untied.
-/

namespace CalmBoard.Tasks

open Fallible

/-! ### Columns as they are listed -/

/-- `taskSort` for `sortBy: "order"`: `ORDER BY "order", created_at DESC, id DESC`. -/
def listOrder (a b : TaskRow) : Prop :=
  a.order < b.order ∨
    a.order = b.order ∧ (b.createdAt < a.createdAt ∨ a.createdAt = b.createdAt ∧ b.id ≤ a.id)

instance : DecidableRel listOrder := fun a b => by
  unfold listOrder
  infer_instance

/-- A column of the board as `list` shows it. -/
def shown (db : Db) (projectId : Uuid) (status : TaskStatus) : List Uuid :=
  ((column db projectId status).insertionSort listOrder).map TaskRow.id

def MoveTaskInput.anchored (input : MoveTaskInput) : Bool :=
  input.beforeTaskId.isSome || input.afterTaskId.isSome

/-- The tasks of a column without `task`, as they are listed. -/
def othersListed (db : Db) (task : TaskRow) (projectId : Uuid) (status : TaskStatus) : List Uuid :=
  (shown db projectId status).filter fun k => k ≠ task.id

structure BoardMove (db db' : Db) (task : TaskRow) (input : MoveTaskInput) : Prop where
  kept : ∀ projectId status k, k ≠ task.id →
    (k ∈ shown db' projectId status ↔ k ∈ shown db projectId status)
  once : ∀ projectId status, (shown db' projectId status).Nodup
  moved : ∀ projectId status, task.id ∈ shown db' projectId status ↔
    projectId = task.projectId ∧ status = input.status
  order : ∀ projectId status,
    othersListed db' task projectId status = othersListed db task projectId status
  index : input.anchored = false → ∀ n, requireTargetIndex input.targetIndex = .ok n →
    (shown db' task.projectId input.status)[min n
      (othersListed db task task.projectId input.status).length]? = some task.id
  between : input.anchored = true → ∀ b a, moveAnchors db task input = .ok (b, a) →
    (∀ id, input.beforeTaskId.join = some id → b.map TaskRow.id = some id) ∧
    (∀ id, input.afterTaskId.join = some id → a.map TaskRow.id = some id) ∧
    ∀ row ∈ db'.tasks.rows, row.id = task.id →
      (∀ x ∈ b, x.order < row.order) ∧ ∀ y ∈ a, row.order < y.order

/-- No two tasks of a column but `task` have the same order. -/
def Untied (db : Db) (task : TaskRow) (status : TaskStatus) : Prop :=
  ∀ x ∈ column db task.projectId status, ∀ y ∈ column db task.projectId status,
    x.id ≠ task.id → y.id ≠ task.id → x.order = y.order → x.id = y.id

instance (db : Db) (task : TaskRow) (status : TaskStatus) : Decidable (Untied db task status) :=
  inferInstanceAs (Decidable (∀ x ∈ column db task.projectId status,
    ∀ y ∈ column db task.projectId status, _ → _ → _ → _))

variable {rt : Runtime} {db db' : Db} {task : TaskRow} {projectId : Uuid} {status : TaskStatus}

/-! ### Listed columns -/

def listKey (t : TaskRow) : Number ×ₗ Timestamptzᵒᵈ ×ₗ Uuidᵒᵈ :=
  toLex (t.order, toLex (OrderDual.toDual t.createdAt, OrderDual.toDual t.id))

theorem listOrder_iff {a b : TaskRow} : listOrder a b ↔ listKey a ≤ listKey b := by
  simp [listOrder, listKey, Prod.Lex.toLex_le_toLex]

instance : ColumnOrder listOrder where
  total a b := by
    rw [listOrder_iff, listOrder_iff]
    exact le_total _ _
  trans a b c := by
    rw [listOrder_iff, listOrder_iff, listOrder_iff]
    exact le_trans
  order_le h := h.elim le_of_lt fun h => h.1.le
  of_lt := Or.inl
  id_eq hab hba := by
    rw [listOrder_iff] at hab hba
    have hkey := le_antisymm hab hba
    simp only [listKey, EmbeddingLike.apply_eq_iff_eq, Prod.mk.injEq] at hkey
    exact hkey.2.2

theorem nodup_listed : (shown db projectId status).Nodup :=
  nodup_sortedIds

theorem mem_listed {k : Uuid} : k ∈ shown db projectId status ↔ k ∈ columnIds db projectId status :=
  mem_sortedIds

/-- Without `task` the others are listed as they were. -/
theorem othersListed_eq (db : Db) (task : TaskRow) (projectId : Uuid) (status : TaskStatus) :
    othersListed db task projectId status =
      (((column db projectId status).filter (·.id ≠ task.id)).insertionSort listOrder).map
        TaskRow.id :=
  sortedIds_filter task

theorem rows_of_ids {l : List TaskRow} (h : ∀ r ∈ l, r ∈ db.tasks.rows) :
    (l.map TaskRow.id).filterMap db.tasks.find? = l := by
  rw [List.filterMap_map]
  exact (List.filterMap_congr fun r hr => Table.find?_of_mem (h r hr)).trans List.filterMap_some

theorem eq_of_orders {a b : TaskRow} (ha : a ∈ db.tasks.rows) (hb : b ∈ db.tasks.rows)
    (hboard : boardOrder a b) (hlist : listOrder a b) (horder : a.order = b.order) : a = b := by
  have hcreated := (hboard.resolve_left (by rw [horder]; exact lt_irrefl _)).2
  have hnewest := (hlist.resolve_left (by rw [horder]; exact lt_irrefl _)).2
  refine Table.eq_of_mem ha hb ?_
  rcases hcreated with hlt | ⟨heq, hle⟩
  · exact absurd hlt (hnewest.elim lt_asymm fun h => h.1 ▸ lt_irrefl _)
  · exact le_antisymm hle (hnewest.elim (fun h => absurd heq h.ne') fun h => h.2)

/-- The writer and the list agree on the others where no two of them have the same order. -/
theorem otherIds_eq_iff :
    otherIds db task status = othersListed db task task.projectId status ↔ Untied db task status := by
  rw [othersListed_eq]
  unfold otherIds
  set others := (column db task.projectId status).filter (·.id ≠ task.id) with hothers
  have hrow : ∀ r ∈ others, r ∈ db.tasks.rows := fun r hr => mem_column_tasks (List.mem_of_mem_filter hr)
  have hmem : ∀ r, r ∈ others ↔ r ∈ column db task.projectId status ∧ r.id ≠ task.id := by
    intro r
    rw [hothers, List.mem_filter, decide_eq_true_eq]
  constructor
  · intro h x hx y hy hxid hyid horder
    have hsame : others.insertionSort boardOrder = others.insertionSort listOrder := by
      rw [← rows_of_ids fun r hr => hrow r ((List.mem_insertionSort _).mp hr), h]
      exact rows_of_ids fun r hr => hrow r ((List.mem_insertionSort _).mp hr)
    have hlist := List.pairwise_insertionSort listOrder others
    rw [← hsame] at hlist
    have hdistinct : (others.insertionSort boardOrder).Pairwise fun a b => a.order = b.order → a = b :=
      ((List.pairwise_insertionSort boardOrder others).and hlist).imp_of_mem
        fun {a b} ha hb hab => eq_of_orders (hrow a ((List.mem_insertionSort _).mp ha))
          (hrow b ((List.mem_insertionSort _).mp hb)) hab.1 hab.2
    have hsymm : Std.Symm fun a b : TaskRow => a.order = b.order → a = b :=
      ⟨fun a b hab heq => (hab heq.symm).symm⟩
    refine congrArg TaskRow.id (hdistinct.forall_of_forall (fun _ _ _ => rfl) ?_ ?_ horder)
    · exact (List.mem_insertionSort _).mpr ((hmem x).mpr ⟨hx, hxid⟩)
    · exact (List.mem_insertionSort _).mpr ((hmem y).mpr ⟨hy, hyid⟩)
  · intro huntied
    refine congrArg _ (eq_sorted (List.perm_insertionSort _ _) hrow ?_)
    refine (List.pairwise_insertionSort boardOrder others).imp_of_mem fun {a b} ha hb hab => ?_
    rw [List.mem_insertionSort] at ha hb
    rcases hab with hlt | ⟨heq, -⟩
    · exact Or.inl hlt
    · obtain ⟨hac, hid⟩ := (hmem a).mp ha
      obtain ⟨hbc, hid'⟩ := (hmem b).mp hb
      rw [Table.eq_of_mem (hrow a ha) (hrow b hb) (huntied a hac b hbc hid hid' heq)]
      exact (Std.Total.total b b).elim (fun h => h) fun h => h

/-! ### A move by index -/

section ByIndex

variable {input : MoveTaskInput} {n : ℕ}

theorem filter_insertIdx {l : List Uuid} {a : Uuid} {i : ℕ} (ha : a ∉ l) (hi : i ≤ l.length) :
    ((l.insertIdx i a).filter fun b => b ≠ a) = l := by
  have hself : (l.filter fun b => b ≠ a) = l :=
    List.filter_eq_self.mpr fun b hb => decide_eq_true fun he => ha (he ▸ hb)
  have hsub := (List.sublist_insertIdx l i a).filter fun b => b ≠ a
  rw [hself] at hsub
  refine (hsub.eq_of_length ?_).symm
  rw [((List.perm_insertIdx a l hi).filter _).length_eq, List.filter_cons_of_neg (by simp), hself]
theorem moveByIndex_listed (htask : task ∈ db.tasks.rows) (hactive : task.active = true)
    (hroot : task.parentId = none) (h : moveByIndex db task input n = .ok db') :
    shown db' task.projectId input.status = withMoved db task input n ∧
      (task.status ≠ input.status →
        shown db' task.projectId task.status = otherIds db task task.status) ∧
      ∀ projectId status, (projectId = task.projectId → ¬ Renumbered task input status) →
        shown db' projectId status = shown db projectId status :=
  moveByIndex_columns htask hactive hroot h

theorem othersListed_index (htask : task ∈ db.tasks.rows) (hactive : task.active = true)
    (hroot : task.parentId = none) (h : moveByIndex db task input n = .ok db')
    (hstatus : Renumbered task input status) :
    othersListed db' task task.projectId status = otherIds db task status := by
  obtain ⟨htarget, hsource, -⟩ := moveByIndex_listed htask hactive hroot h
  unfold othersListed
  by_cases hsame : status = input.status
  · subst hsame
    rw [htarget]
    exact filter_insertIdx (fun hid => (mem_otherIds.mp hid).2 rfl) (min_le_right _ _)
  · obtain rfl : status = task.status := hstatus.resolve_right hsame
    rw [hsource hsame, List.filter_eq_self]
    exact fun k hk => decide_eq_true (mem_otherIds.mp hk).2

theorem mem_listed_task (htask : task ∈ db.tasks.rows) (hactive : task.active = true)
    (hroot : task.parentId = none) : task.id ∈ shown db projectId status ↔
      projectId = task.projectId ∧ status = task.status := by
  rw [mem_listed]
  unfold columnIds
  rw [List.mem_map]
  constructor
  · rintro ⟨row, hrow, hid⟩
    obtain ⟨hmem, -, hproject, hstatus, -⟩ := mem_column_iff.mp hrow
    obtain rfl := Table.eq_of_mem hmem htask hid
    exact ⟨hproject.symm, hstatus.symm⟩
  · rintro ⟨rfl, rfl⟩
    exact ⟨task, mem_column_iff.mpr ⟨htask, Option.isNone_iff_eq_none.mp hactive, rfl, rfl, hroot⟩, rfl⟩

theorem mem_othersListed {k : Uuid} : k ∈ othersListed db task projectId status ↔
    k ∈ shown db projectId status ∧ k ≠ task.id := by
  unfold othersListed
  rw [List.mem_filter, decide_eq_true_eq]

theorem kept_of_order
    (horder : othersListed db' task projectId status = othersListed db task projectId status)
    {k : Uuid} (hk : k ≠ task.id) :
    k ∈ shown db' projectId status ↔ k ∈ shown db projectId status := by
  have hiff : k ∈ othersListed db' task projectId status ↔
      k ∈ shown db' projectId status ∧ k ≠ task.id := mem_othersListed
  rw [horder, mem_othersListed, and_iff_left hk, and_iff_left hk] at hiff
  exact hiff.symm

/-- **Move by index**: the others keep their places if no two of them have the same order. -/
theorem boardMove_index_iff (htask : task ∈ db.tasks.rows) (hactive : task.active = true)
    (hroot : task.parentId = none) (hindex : requireTargetIndex input.targetIndex = .ok n)
    (hanchored : input.anchored = false) (h : moveByIndex db task input n = .ok db') :
    BoardMove db db' task input ↔ ∀ status, Renumbered task input status → Untied db task status := by
  obtain ⟨htarget, hsource, hother⟩ := moveByIndex_listed htask hactive hroot h
  have hothers : ∀ status, Renumbered task input status →
      othersListed db' task task.projectId status = otherIds db task status :=
    fun status => othersListed_index htask hactive hroot h
  constructor
  · intro hmove status hstatus
    rw [← otherIds_eq_iff, ← hothers status hstatus]
    exact hmove.order _ _
  · intro huntied
    have horder : ∀ projectId status,
        othersListed db' task projectId status = othersListed db task projectId status := by
      intro projectId status
      by_cases hcase : projectId = task.projectId ∧ Renumbered task input status
      · obtain ⟨rfl, hstatus⟩ := hcase
        rw [hothers status hstatus]
        exact otherIds_eq_iff.mpr (huntied status hstatus)
      · unfold othersListed
        rw [hother projectId status fun hp hs => hcase ⟨hp, hs⟩]
    refine ⟨fun projectId status k hk => ?_, fun _ _ => nodup_listed, fun projectId status => ?_,
      horder, fun _ m hm => ?_, fun hanchors => ?_⟩
    · exact kept_of_order (horder projectId status) hk
    · by_cases hcase : projectId = task.projectId ∧ Renumbered task input status
      · obtain ⟨rfl, hstatus⟩ := hcase
        by_cases hsame : status = input.status
        · subst hsame
          rw [htarget]
          exact ⟨fun _ => ⟨rfl, rfl⟩, fun _ => mem_withMoved.mpr (Or.inl rfl)⟩
        · obtain rfl : status = task.status := hstatus.resolve_right hsame
          rw [hsource hsame]
          exact ⟨fun hid => absurd rfl (mem_otherIds.mp hid).2, fun hid => absurd hid.2 hsame⟩
      · rw [hother projectId status fun hp hs => hcase ⟨hp, hs⟩, mem_listed_task htask hactive hroot]
        exact ⟨fun hid => absurd ⟨hid.1, Or.inl hid.2⟩ hcase,
          fun hid => absurd ⟨hid.1, Or.inr hid.2⟩ hcase⟩
    · rw [hindex] at hm
      cases hm
      rw [htarget, ← otherIds_eq_iff.mpr (huntied input.status (Or.inr rfl))]
      unfold withMoved
      rw [List.getElem?_insertIdx_self, if_pos (min_le_right _ _)]
    · rw [hanchored] at hanchors
      cases hanchors

end ByIndex

/-! ### A move between anchors -/

section ByAnchors

variable {input : MoveTaskInput}

theorem isFinite_of_add {a b : Number} (h : (a.add rt b).isFinite = true) : a.isFinite = true ∧
    b.isFinite = true := by
  cases a <;> cases b <;> simp_all [Number.add, Number.isFinite]

theorem isFinite_of_half {a : Number} (h : (a.half rt).isFinite = true) : a.isFinite = true := by
  cases a <;> simp_all [Number.half, Number.isFinite]

theorem isFinite_of_targetOrder {b a : Option TaskRow} (h : (targetOrder rt b a).isFinite = true) :
    (∀ x ∈ b, x.order.isFinite = true) ∧ ∀ y ∈ a, y.order.isFinite = true := by
  cases b with
  | none =>
    cases a with
    | none => simp
    | some a => simpa using (isFinite_of_add h).1
  | some b =>
    cases a with
    | none => simpa using (isFinite_of_add h).1
    | some a => simpa using isFinite_of_add (isFinite_of_half h)

theorem lt_of_not_jsLe {a b : Number} (ha : a.isFinite = true) (hb : b.isFinite = true)
    (h : jsLe a b = false) : b < a := by
  have hne : ∀ c : Number, c.isFinite = true → (c != .nan) = true := by
    intro c hc
    cases c <;> first | rfl | cases hc
  simp only [jsLe, Number.jsLt, Number.jsEq, hne a ha, hne b hb, Bool.true_and, Bool.or_eq_false_iff,
    decide_eq_false_iff_not, beq_eq_false_iff_ne] at h
  exact lt_of_le_of_ne (not_lt.mp h.1) (Ne.symm h.2)

theorem anchoredOrder_ok {order : Number} (h : anchoredOrder db rt task input = .ok order) :
    ∃ b a, moveAnchors db task input = .ok (b, a) ∧ (∀ x ∈ b, x.order < order) ∧
      ∀ y ∈ a, order < y.order := by
  simp only [anchoredOrder, bind_ok] at h
  obtain ⟨⟨b, a⟩, hanchors, h⟩ := h
  refine ⟨b, a, hanchors, ?_⟩
  have hchecked : ¬ (!(targetOrder rt b a).isFinite ||
      b.any (fun x => jsLe (targetOrder rt b a) x.order) ||
      a.any fun y => jsLe y.order (targetOrder rt b a)) = true ∧ targetOrder rt b a = order := by
    rcases b with - | b <;> rcases a with - | a <;>
      simp only [throw_bind, guard_ok, pure_ok] at h
    · exact h
    · exact h
    · exact h
    · exact h.2
  obtain ⟨hchecked, rfl⟩ := hchecked
  simp only [Bool.or_eq_true, not_or, Bool.not_eq_true, Bool.not_eq_false'] at hchecked
  obtain ⟨⟨hfinite, hbefore⟩, hafter⟩ := hchecked
  obtain ⟨hb, ha⟩ := isFinite_of_targetOrder hfinite
  constructor
  · rintro x rfl
    exact lt_of_not_jsLe hfinite (hb x rfl) hbefore
  · rintro y rfl
    exact lt_of_not_jsLe (ha y rfl) hfinite hafter

theorem moveAnchors_given {b a : Option TaskRow} (h : moveAnchors db task input = .ok (b, a)) :
    (∀ id, input.beforeTaskId.join = some id → b.map TaskRow.id = some id) ∧
      ∀ id, input.afterTaskId.join = some id → a.map TaskRow.id = some id := by
  simp only [moveAnchors, throw_bind, guard_ok, pure_ok, not_not] at h
  obtain ⟨-, hfound, h⟩ := h
  generalize input.beforeTaskId.join = beforeId at hfound h ⊢
  generalize input.afterTaskId.join = afterId at hfound h ⊢
  set requested := beforeId.toList ++ afterId.toList with hrequested
  set found := (column db task.projectId input.status).filter (·.id ∈ requested) with hf
  -- there are as many rows as names, so every name has a row
  have hperm : (found.map TaskRow.id).Perm requested := by
    have hnodup : (found.map TaskRow.id).Nodup :=
      db.tasks.nodup.sublist ((List.filter_sublist.trans List.filter_sublist).map TaskRow.id)
    have hsub : found.map TaskRow.id ⊆ requested := fun id hid => by
      obtain ⟨row, hrow, rfl⟩ := List.mem_map.mp hid
      exact of_decide_eq_true (List.mem_filter.mp hrow).2
    exact (hnodup.subperm hsub).perm_of_length_le (by rw [List.length_map, hfound])
  have hfind : ∀ id ∈ requested, ∃ row, found.find? (fun t => t.id = id) = some row ∧ row.id = id := by
    intro id hid
    obtain ⟨row, hrow, heq⟩ := List.mem_map.mp (hperm.mem_iff.mpr hid)
    have hsome : (found.find? fun t => t.id = id).isSome = true :=
      List.find?_isSome.mpr ⟨row, hrow, decide_eq_true heq⟩
    obtain ⟨row', hrow'⟩ := Option.isSome_iff_exists.mp hsome
    exact ⟨row', hrow', by simpa using List.find?_some hrow'⟩
  cases beforeId with
  | none =>
    cases afterId with
    | none => exact ⟨fun _ hid => (by cases hid), fun _ hid => (by cases hid)⟩
    | some i =>
      obtain ⟨row, hrow, rfl⟩ := hfind i (by simp [hrequested])
      simp only [Option.bind, hrow] at h
      cases h
      exact ⟨fun _ hid => (by cases hid), fun _ hid => hid⟩
  | some i =>
    obtain ⟨row, hrow, rfl⟩ := hfind i (by simp [hrequested])
    cases afterId with
    | none =>
      simp only [Option.bind, hrow] at h
      cases h
      exact ⟨fun _ hid => hid, fun _ hid => (by cases hid)⟩
    | some j =>
      obtain ⟨row', hrow', rfl⟩ := hfind j (by simp [hrequested])
      simp only [Option.bind, hrow, hrow'] at h
      cases h
      exact ⟨fun _ hid => hid, fun _ hid => hid⟩

theorem moveAnchors_mem {b a : Option TaskRow} (h : moveAnchors db task input = .ok (b, a)) :
    (∀ x ∈ b, x ∈ column db task.projectId input.status) ∧
      ∀ y ∈ a, y ∈ column db task.projectId input.status := by
  simp only [moveAnchors, throw_bind, guard_ok, pure_ok] at h
  obtain ⟨-, -, h⟩ := h
  have hrequested : ∀ {anchor : Option Uuid} {p : TaskRow → Bool} {x : TaskRow},
      (anchor.bind fun id => ((column db task.projectId input.status).filter p).find?
        (fun t => t.id = id)) = some x → x ∈ column db task.projectId input.status := by
    intro anchor p x hx
    obtain ⟨id, -, hfind⟩ := Option.bind_eq_some_iff.mp hx
    exact List.mem_of_mem_filter (List.mem_of_find?_eq_some hfind)
  have hother : ∀ {x : TaskRow}, x ∈ ((column db task.projectId input.status).filter
      (·.id ≠ task.id)).insertionSort anchorOrder → x ∈ column db task.projectId input.status :=
    fun hx => List.mem_of_mem_filter ((List.mem_insertionSort _).mp hx)
  split at h
  · next b' hb ha =>
    cases h
    refine ⟨fun x hx => ?_, fun y hy => hother (List.mem_of_find?_eq_some hy)⟩
    cases hx
    exact hrequested hb
  · next a' hb ha =>
    cases h
    refine ⟨fun x hx => hother (List.mem_reverse.mp (List.mem_of_find?_eq_some hx)), fun y hy => ?_⟩
    cases hy
    exact hrequested ha
  · cases h
    exact ⟨fun x hx => hrequested hx, fun y hy => hrequested hy⟩

/-- **Rows of a drop**: the task lies between the anchors, and no other row is written. -/
theorem moveByAnchors_rows (htask : task ∈ db.tasks.rows)
    (h : moveByAnchors db rt task input = .ok db') :
    ∃ b a order moved, moveAnchors db task input = .ok (b, a) ∧ (∀ x ∈ b, x.order < order) ∧
      (∀ y ∈ a, order < y.order) ∧ Placed task moved input.status order ∧
      moved ∈ db'.tasks.rows ∧
      ∀ row, row.id ≠ task.id → (row ∈ db'.tasks.rows ↔ row ∈ db.tasks.rows) := by
  simp only [moveByAnchors, bind_ok, pure_ok] at h
  obtain ⟨order, horder, -, -, moved, hmoved, hdb⟩ := h
  obtain ⟨b, a, hanchors, hbefore, hafter⟩ := anchoredOrder_ok horder
  have hplaced := placed_of_moved hmoved
  have htasks : db'.tasks = db.tasks.put moved := by
    obtain ⟨events, hevents⟩ := Sprints.recordTaskChange_eq
      { db with tasks := db.tasks.put moved } task moved
    rw [← hdb, hevents]
  have hfind : ∀ k, db'.tasks.find? k = if task.id = k then some moved else db.tasks.find? k := by
    have hold : db.tasks.find? moved.id = some task := hplaced.id ▸ Table.find?_of_mem htask
    rw [htasks, ← hplaced.id]
    exact Table.find?_put hold
  refine ⟨b, a, order, moved, hanchors, hbefore, hafter, hplaced,
    Table.mem_of_find? ((hfind task.id).trans (if_pos rfl)), fun row hrow => ?_⟩
  have hk := hfind row.id
  rw [if_neg hrow.symm] at hk
  constructor
  · intro hmem
    exact Table.mem_of_find? (hk.symm.trans (Table.find?_of_mem hmem))
  · intro hmem
    exact Table.mem_of_find? (hk.trans (Table.find?_of_mem hmem))

theorem others_perm
    (hsame : ∀ row, row.id ≠ task.id → (row ∈ db'.tasks.rows ↔ row ∈ db.tasks.rows)) :
    ((column db projectId status).filter (·.id ≠ task.id)).Perm
      ((column db' projectId status).filter (·.id ≠ task.id)) := by
  refine (List.perm_ext_iff_of_nodup (nodup_column.filter _) (nodup_column.filter _)).mpr
    fun row => ?_
  rw [List.mem_filter, List.mem_filter, decide_eq_true_eq, mem_column_iff, mem_column_iff]
  exact and_congr_left fun hrow => by rw [hsame row hrow]

/-- **Move between anchors**: the others stay as they are listed. -/
theorem boardMove_anchors (htask : task ∈ db.tasks.rows) (hactive : task.active = true)
    (hroot : task.parentId = none) (hanchored : input.anchored = true)
    (h : moveByAnchors db rt task input = .ok db') : BoardMove db db' task input := by
  obtain ⟨b, a, order, moved, hanchors, hbetween, hbetween', hplaced, hmoved, hsame⟩ :=
    moveByAnchors_rows htask h
  have horders : ∀ projectId status,
      othersListed db' task projectId status = othersListed db task projectId status := by
    intro projectId status
    rw [othersListed_eq, othersListed_eq, sort_of_perm (others_perm hsame) fun row hrow =>
      mem_column_tasks (List.mem_of_mem_filter hrow)]
  refine ⟨fun projectId status k hk => ?_, fun _ _ => nodup_listed, fun projectId status => ?_,
    horders, fun hnot => ?_, fun _ b' a' hgiven => ?_⟩
  · exact kept_of_order (horders projectId status) hk
  · have hlive : moved.active = true := by
      unfold TaskRow.active
      rw [hplaced.deletedAt]
      exact hactive
    rw [← hplaced.id, mem_listed_task hmoved hlive (hplaced.parentId.trans hroot),
      hplaced.projectId, hplaced.status]
  · rw [hanchored] at hnot
    cases hnot
  · rw [hanchors] at hgiven
    cases hgiven
    obtain ⟨hbefore, hafter⟩ := moveAnchors_given hanchors
    refine ⟨hbefore, hafter, fun row hrow hid => ?_⟩
    rw [Table.eq_of_mem hrow hmoved (hid.trans hplaced.id.symm), hplaced.order]
    exact ⟨hbetween, hbetween'⟩

end ByAnchors

/-! ### Moves -/

/-- **Moves**: the columns after an accepted move are those before it with the task in its new place,
if and only if it has anchors, or the others in the columns that it renumbers have different
orders. -/
theorem board_moves_iff {taskId : Uuid} {input : MoveTaskInput}
    (h : move db rt taskId input = .ok db') :
    ∃ task, findActive db taskId = some task ∧
      (BoardMove db db' task input ↔ (input.anchored = false →
        ∀ status, Renumbered task input status → Untied db task status)) := by
  have hok := h
  simp only [move, bind_ok, throw_bind, guard_ok] at h
  obtain ⟨n, hindex, version, -, before, hbefore, hroot, -, -, h⟩ := h
  obtain ⟨-, hfind, hactive⟩ := getById_ok hbefore
  have htask : before.row ∈ db.tasks.rows := Table.mem_of_find? hfind
  have hparent : before.row.parentId = none := by simpa using hroot
  refine ⟨before.row, Option.filter_eq_some_iff.mpr ⟨hfind, hactive⟩, ?_⟩
  split at h
  · next hanchored =>
    have hmove := boardMove_anchors htask hactive hparent hanchored h
    refine ⟨fun _ hnot => ?_, fun _ => hmove⟩
    rw [show input.anchored = true from hanchored] at hnot
    cases hnot
  · next hanchored =>
    have hnot : input.anchored = false := Bool.eq_false_iff.mpr hanchored
    rw [boardMove_index_iff htask hactive hparent hindex hnot h]
    exact ⟨fun huntied _ => huntied, fun huntied => huntied hnot⟩

/-! ### Three tasks -/

/-- Three tasks of one column, with the orders given. -/
def threeTasks (orders : List ℚ) : Db :=
  after utcRuntime smallSetup
    (orders.map fun order => .createTask { projectId := 7, title := "a", order := some (.fin order) })

/-- The last one goes to the top. -/
def toTop : MoveTaskInput where
  status := .todo
  targetIndex := .fin 0
  expectedVersion := .fin 1

/-- Tasks of different orders keep their places. -/
theorem board_moves_three :
    ∃ db', move (threeTasks [0, 1, 2]) utcRuntime 102 toTop = .ok db' ∧
      ∃ task, findActive (threeTasks [0, 1, 2]) 102 = some task ∧
        BoardMove (threeTasks [0, 1, 2]) db' task toTop := by
  obtain ⟨db', h, -⟩ := exists_ok (p := fun _ => true)
    (x := move (threeTasks [0, 1, 2]) utcRuntime 102 toTop) (by decide +kernel)
  obtain ⟨task, htask, hiff⟩ := board_moves_iff h
  have hall : (findActive (threeTasks [0, 1, 2]) 102).all (fun task =>
      decide (task.status = .todo ∧ Untied (threeTasks [0, 1, 2]) task .todo)) = true := by
    decide
  rw [htask] at hall
  obtain ⟨hstatus, huntied⟩ := of_decide_eq_true hall
  refine ⟨db', h, task, htask, hiff.mpr fun _ status hrenumbered => ?_⟩
  obtain rfl : status = .todo := hrenumbered.elim (fun he => he.trans hstatus) fun he => he
  exact huntied

/-- Two tasks of one order change places when a third one is moved. -/
theorem tied_tasks_swap :
    ¬ ∀ db', move (threeTasks [0, 0, 2]) utcRuntime 102 toTop = .ok db' →
      ∀ task, findActive (threeTasks [0, 0, 2]) 102 = some task →
        BoardMove (threeTasks [0, 0, 2]) db' task toTop := by
  intro hall
  obtain ⟨db', h, hlisted⟩ := exists_ok
    (p := fun db' => shown db' 7 .todo = [102, 100, 101])
    (x := move (threeTasks [0, 0, 2]) utcRuntime 102 toTop) (by decide +kernel)
  obtain ⟨task, htask⟩ : ∃ task, findActive (threeTasks [0, 0, 2]) 102 = some task :=
    Option.isSome_iff_exists.mp (by decide)
  have horder := (hall db' h task htask).order 7 .todo
  have hid : task.id = 102 := Table.key_of_find? (findActive_ok htask).1
  unfold othersListed at horder
  rw [of_decide_eq_true hlisted, hid] at horder
  revert horder
  decide

end CalmBoard.Tasks
