import CalmBoard.Schema
import CalmBoard.Lib.Keyset
import Mathlib.Data.String.Basic

/-!
# CalmBoard.Tasks.Paging — keyset paging of the task list

`listPage` fetches `limit + 1` rows in the order (sort column nulls last, id) and hands out a cursor
with the sort value and the id of the last row; the next page starts behind it.  The cursor carries
JavaScript values: a timestamp keeps its milliseconds only, a number that is not finite becomes
`null`.

* `taskPageCursorCondition`, `taskPageOrder`, `listPage`: the three queries of the repository.
* `followPages`: a client that follows `nextCursor` until it is `null`.
* `followPages_eq_walk`: following the pages is a keyset walk through the sorted matching rows.
* `pagingExact_iff`: the pages return every matching row once, in order, if and only if every page
  border is harmless (`BorderExact`).
-/

namespace CalmBoard.Tasks

open Keyset

/-! ### Sort columns -/

inductive TaskSortField where
  | order | createdAt | updatedAt | dueDate | priority | title | status | assigneeId
  | storyPoints | estimatedHours | loggedHours
  deriving DecidableEq

inductive TaskSortDirection where
  | asc | desc
  deriving DecidableEq

/-- The collation of the database: how it orders texts. -/
structure Collation where
  order : LinearOrder String

/-- The collation `C`: texts compare code point by code point. -/
def Collation.codepoint : Collation := ⟨inferInstance⟩

/-- A text, ordered by the collation `c`. -/
structure Collated (c : Collation) where
  text : String

instance (c : Collation) : LinearOrder (Collated c) :=
  @LinearOrder.lift' _ _ c.order Collated.text fun a b h => by cases a; cases b; cases h; rfl

/-- The SQL type of a sort column. -/
def ColType (c : Collation) : TaskSortField → Type
  | .order | .estimatedHours | .loggedHours => Number
  | .createdAt | .updatedAt | .dueDate => Timestamptz
  | .priority => TaskPriority
  | .title => Collated c
  | .status => TaskStatus
  | .assigneeId => Uuid
  | .storyPoints => ℤ

instance (c : Collation) : (f : TaskSortField) → LinearOrder (ColType c f)
  | .order | .estimatedHours | .loggedHours => inferInstanceAs (LinearOrder Number)
  | .createdAt | .updatedAt | .dueDate => inferInstanceAs (LinearOrder Timestamptz)
  | .priority => inferInstanceAs (LinearOrder TaskPriority)
  | .title => inferInstanceAs (LinearOrder (Collated c))
  | .status => inferInstanceAs (LinearOrder TaskStatus)
  | .assigneeId => inferInstanceAs (LinearOrder ℕ)
  | .storyPoints => inferInstanceAs (LinearOrder ℤ)

def taskPageColumn (c : Collation) : (f : TaskSortField) → TaskRow → Option (ColType c f)
  | .order, task => some task.order
  | .createdAt, task => some task.createdAt
  | .updatedAt, task => some task.updatedAt
  | .dueDate, task => task.dueDate
  | .priority, task => some task.priority
  | .title, task => some ⟨task.title⟩
  | .status, task => some task.status
  | .assigneeId, task => task.assigneeId
  | .storyPoints, task => task.storyPoints
  | .estimatedHours, task => task.estimatedHours
  | .loggedHours, task => some task.loggedHours

/-! ### Cursors -/

/-- What the JSON text of a cursor can carry for a column, `null` apart: a date is the text of its
time value, a number is finite. -/
def CursorKey : TaskSortField → Type
  | .order | .estimatedHours | .loggedHours => ℚ
  | .createdAt | .updatedAt | .dueDate => ℤ
  | .priority => TaskPriority
  | .title => String
  | .status => TaskStatus
  | .assigneeId => Uuid
  | .storyPoints => ℤ

structure PageSort where
  sortBy : TaskSortField
  sortDirection : TaskSortDirection

structure TaskCursor where
  version : ℕ
  sortBy : TaskSortField
  sortDirection : TaskSortDirection
  value : Option (CursorKey sortBy)
  id : Uuid

structure TaskPageFilters where
  sortBy : Option TaskSortField := none
  sortDirection : Option TaskSortDirection := none
  cursor : Option TaskCursor := none
  limit : Number

def pageSort (filters : TaskPageFilters) : PageSort where
  sortBy := filters.sortBy.getD .createdAt
  sortDirection := filters.sortDirection.getD .desc

/-- `JSON.stringify` writes a number that is not finite as `null`. -/
def jsonNumber : Number → Option ℚ
  | .fin q => some q
  | _ => none

/-- The sort value of a row as it stands in the JSON text of a cursor. -/
def taskSortValue (task : TaskRow) : (f : TaskSortField) → Option (CursorKey f)
  | .order => jsonNumber task.order
  | .createdAt => some task.createdAt.millis
  | .updatedAt => some task.updatedAt.millis
  | .dueDate => task.dueDate.map Timestamptz.millis
  | .priority => some task.priority
  | .title => some task.title
  | .status => some task.status
  | .assigneeId => task.assigneeId
  | .storyPoints => task.storyPoints
  | .estimatedHours => task.estimatedHours.bind jsonNumber
  | .loggedHours => jsonNumber task.loggedHours

def encodeTaskCursor (task : TaskRow) (filters : TaskPageFilters) : TaskCursor :=
  let sort := pageSort filters
  { version := 1
    sortBy := sort.sortBy
    sortDirection := sort.sortDirection
    value := taskSortValue task sort.sortBy
    id := task.id }

def decodeTaskCursor (cursor : TaskCursor) (filters : TaskPageFilters) :
    Except RepoError TaskCursor :=
  let expected := pageSort filters
  if cursor.version ≠ 1 ∨ cursor.sortBy ≠ expected.sortBy ∨
      cursor.sortDirection ≠ expected.sortDirection then
    .error (.conflict "Task cursor is invalid")
  else .ok cursor

/-- The query parameter made from a cursor value; `new Date(…)` for the timestamp columns. -/
def decodedValue (c : Collation) : (f : TaskSortField) → CursorKey f → ColType c f
  | .order, q => Number.fin q
  | .createdAt, ms => Timestamptz.ofMillis ms
  | .updatedAt, ms => Timestamptz.ofMillis ms
  | .dueDate, ms => Timestamptz.ofMillis ms
  | .priority, p => p
  | .title, s => (⟨s⟩ : Collated c)
  | .status, s => s
  | .assigneeId, u => u
  | .storyPoints, n => n
  | .estimatedHours, q => Number.fin q
  | .loggedHours, q => Number.fin q

def taskPageCursorCondition (c : Collation) (cursor : TaskCursor) (row : TaskRow) : Tri :=
  let column := taskPageColumn c cursor.sortBy row
  match cursor.value.map (decodedValue c cursor.sortBy), cursor.sortDirection with
  | none, .asc => Tri.and (Tri.isNull column) (some (row.id > cursor.id))
  | none, .desc => Tri.and (Tri.isNull column) (some (row.id < cursor.id))
  | some v, .asc =>
    Tri.disj [Tri.cmp (fun a b => decide (a > b)) column (some v), Tri.isNull column,
      Tri.and (Tri.cmp (fun a b => decide (a = b)) column (some v)) (some (row.id > cursor.id))]
  | some v, .desc =>
    Tri.disj [Tri.cmp (fun a b => decide (a < b)) column (some v), Tri.isNull column,
      Tri.and (Tri.cmp (fun a b => decide (a = b)) column (some v)) (some (row.id < cursor.id))]

/-! ### Pages -/

/-- `ORDER BY column asc|desc NULLS LAST, id asc|desc`. -/
def taskPageOrder (c : Collation) (sort : PageSort) (a b : TaskRow) : Prop :=
  match sort.sortDirection with
  | .asc =>
    position (taskPageColumn c sort.sortBy a) a.id ≤ position (taskPageColumn c sort.sortBy b) b.id
  | .desc =>
    position ((taskPageColumn c sort.sortBy a).map OrderDual.toDual) (OrderDual.toDual a.id) ≤
      position ((taskPageColumn c sort.sortBy b).map OrderDual.toDual) (OrderDual.toDual b.id)

instance (c : Collation) (sort : PageSort) : DecidableRel (taskPageOrder c sort) := fun a b =>
  match h : sort.sortDirection with
  | .asc => decidable_of_iff (position (taskPageColumn c sort.sortBy a) a.id ≤
      position (taskPageColumn c sort.sortBy b) b.id) (by unfold taskPageOrder; rw [h])
  | .desc => decidable_of_iff
      (position ((taskPageColumn c sort.sortBy a).map OrderDual.toDual) (OrderDual.toDual a.id) ≤
        position ((taskPageColumn c sort.sortBy b).map OrderDual.toDual) (OrderDual.toDual b.id))
      (by unfold taskPageOrder; rw [h])

structure TaskPage where
  items : List TaskRow
  nextCursor : Option TaskCursor
  total : ℕ

/-- The condition a cursor adds to the query of its page. -/
def cursorCondition (c : Collation) (filters : TaskPageFilters) :
    Except RepoError (TaskRow → Tri) :=
  match filters.cursor with
  | none => .ok fun _ => some true
  | some cursor => (decodeTaskCursor cursor filters).map (taskPageCursorCondition c)

/-- One page.  `conditions` is the rest of the `WHERE` clause, the filter. -/
def listPage (c : Collation) (tasks : Table TaskRow TaskRow.id) (conditions : TaskRow → Tri)
    (filters : TaskPageFilters) : Except RepoError TaskPage :=
  match filters.limit.toInt? with
  | none => .error (.conflict "Task page limit must be between 1 and 100")
  | some limit =>
    if limit < 1 ∨ limit > 100 then
      .error (.conflict "Task page limit must be between 1 and 100")
    else do
      let behindCursor ← cursorCondition c filters
      let rows := ((tasks.rows.filter fun row =>
        Tri.holds (Tri.and (conditions row) (behindCursor row))).insertionSort
          (taskPageOrder c (pageSort filters))).take (limit.toNat + 1)
      let total := (tasks.rows.filter fun row => Tri.holds (conditions row)).length
      let hasMore := decide (limit.toNat < rows.length)
      let pageRows := if hasMore then rows.take limit.toNat else rows
      .ok
        { items := pageRows
          nextCursor := if hasMore then pageRows.getLast?.map (encodeTaskCursor · filters) else none
          total := total }

/-- Read pages until one has no next cursor; `none` when `fuel` pages were not enough. -/
def followPages (c : Collation) (tasks : Table TaskRow TaskRow.id) (conditions : TaskRow → Tri)
    (filters : TaskPageFilters) : ℕ → Option TaskCursor → Except RepoError (Option (List TaskRow))
  | 0, _ => .ok none
  | fuel + 1, cursor => do
    let page ← listPage c tasks conditions { filters with cursor := cursor }
    match page.nextCursor with
    | none => .ok (some page.items)
    | some next =>
      let rest ← followPages c tasks conditions filters fuel (some next)
      .ok (rest.map (page.items ++ ·))

/-- The matching rows in page order. -/
def matchingRows (c : Collation) (tasks : Table TaskRow TaskRow.id) (conditions : TaskRow → Tri)
    (filters : TaskPageFilters) : List TaskRow :=
  (tasks.rows.filter fun row => Tri.holds (conditions row)).insertionSort
    (taskPageOrder c (pageSort filters))

/-- Following the pages ends and returns every matching row exactly once, in page order. -/
def PagingExact (c : Collation) (tasks : Table TaskRow TaskRow.id) (conditions : TaskRow → Tri)
    (filters : TaskPageFilters) : Prop :=
  ∃ fuel rows, followPages c tasks conditions filters fuel none = .ok (some rows) ∧
    rows.Perm (tasks.rows.filter fun row => Tri.holds (conditions row)) ∧
    rows.Pairwise (taskPageOrder c (pageSort filters))

/-! ### The page order -/

section Order

variable {c : Collation} {sort : PageSort}

theorem taskPageOrder_total (a b : TaskRow) : taskPageOrder c sort a b ∨ taskPageOrder c sort b a := by
  unfold taskPageOrder
  cases sort.sortDirection <;> exact le_total _ _

theorem taskPageOrder_trans {a b d : TaskRow} (h₁ : taskPageOrder c sort a b)
    (h₂ : taskPageOrder c sort b d) : taskPageOrder c sort a d := by
  unfold taskPageOrder at *
  cases hd : sort.sortDirection <;> rw [hd] at h₁ h₂ <;> exact le_trans h₁ h₂

theorem taskPageOrder_id {a b : TaskRow} (h₁ : taskPageOrder c sort a b)
    (h₂ : taskPageOrder c sort b a) : a.id = b.id := by
  unfold taskPageOrder at *
  cases hd : sort.sortDirection <;> rw [hd] at h₁ h₂
  · have h := congrArg (fun p => (ofLex p).2) (le_antisymm h₁ h₂)
    exact h
  · have h := congrArg (fun p => (ofLex p).2) (le_antisymm h₁ h₂)
    exact h

instance : Std.Total (taskPageOrder c sort) := ⟨taskPageOrder_total⟩

instance : IsTrans TaskRow (taskPageOrder c sort) := ⟨fun _ _ _ => taskPageOrder_trans⟩

end Order

section Follow

variable (c : Collation) (tasks : Table TaskRow TaskRow.id) (conditions : TaskRow → Tri)
variable (filters : TaskPageFilters)

theorem matchingRows_perm : (matchingRows c tasks conditions filters).Perm
    (tasks.rows.filter fun row => Tri.holds (conditions row)) :=
  List.perm_insertionSort _ _

theorem matchingRows_sorted :
    (matchingRows c tasks conditions filters).Pairwise (taskPageOrder c (pageSort filters)) :=
  List.pairwise_insertionSort _ _

theorem matchingRows_subset : ∀ r ∈ matchingRows c tasks conditions filters, r ∈ tasks.rows := by
  intro r hr
  exact List.mem_of_mem_filter ((matchingRows_perm c tasks conditions filters).mem_iff.mp hr)

theorem matchingRows_nodup : (matchingRows c tasks conditions filters).Nodup :=
  (matchingRows_perm c tasks conditions filters).nodup_iff.mpr (tasks.nodup.of_map.filter _)

theorem eq_of_perm_sorted {l₁ l₂ : List TaskRow} (hsub : ∀ r ∈ l₁, r ∈ tasks.rows)
    (hp : l₁.Perm l₂) (h₁ : l₁.Pairwise (taskPageOrder c (pageSort filters)))
    (h₂ : l₂.Pairwise (taskPageOrder c (pageSort filters))) : l₁ = l₂ := by
  refine List.Perm.eq_of_pairwise (fun a b ha hb hab hba => ?_) h₁ h₂ hp
  exact Table.eq_of_mem (hsub a ha) (hsub b (hp.mem_iff.mpr hb)) (taskPageOrder_id hab hba)

theorem page_query_eq (q : TaskRow → Tri) :
    (tasks.rows.filter fun row => Tri.holds (Tri.and (conditions row) (q row))).insertionSort
      (taskPageOrder c (pageSort filters)) =
    (matchingRows c tasks conditions filters).filter fun row => Tri.holds (q row) := by
  have hperm : ((matchingRows c tasks conditions filters).filter fun row => Tri.holds (q row)).Perm
      (tasks.rows.filter fun row => Tri.holds (Tri.and (conditions row) (q row))) := by
    have h := (matchingRows_perm c tasks conditions filters).filter fun row => Tri.holds (q row)
    rw [List.filter_filter] at h
    simpa only [Tri.holds_and, Bool.and_comm] using h
  refine eq_of_perm_sorted c tasks filters ?_ ?_ (List.pairwise_insertionSort _ _)
    ((matchingRows_sorted c tasks conditions filters).filter _)
  · intro r hr
    exact List.mem_of_mem_filter ((List.mem_insertionSort _).mp hr)
  · exact (List.perm_insertionSort _ _).trans hperm.symm

/-! ### Following the pages -/

/-- The rows a page with the cursor of `r` can return. -/
def selects (r row : TaskRow) : Bool :=
  Tri.holds (taskPageCursorCondition c (encodeTaskCursor r filters) row)

variable {limit : ℕ}

/-- **Page**: a page holds the first `limit` rows of its selection and the border's cursor. -/
theorem listPage_eq (h1 : 1 ≤ limit) (h100 : limit ≤ 100) (hl : filters.limit = .fin limit)
    {q : TaskRow → Tri} (hq : cursorCondition c filters = .ok q) :
    listPage c tasks conditions filters = .ok
      { items := ((matchingRows c tasks conditions filters).filter (Tri.holds ∘ q)).take limit
        nextCursor := (border limit ((matchingRows c tasks conditions filters).filter
          (Tri.holds ∘ q))).map (encodeTaskCursor · filters)
        total := (tasks.rows.filter fun row => Tri.holds (conditions row)).length } := by
  have hint : filters.limit.toInt? = some (limit : ℤ) := by
    rw [hl]
    exact_mod_cast Number.toInt?_intCast (limit : ℤ)
  have hrange : ¬ ((limit : ℤ) < 1 ∨ (limit : ℤ) > 100) := by omega
  unfold listPage
  rw [hint]
  simp only [hrange, if_false, hq, Int.toNat_natCast]
  simp only [bind, Except.bind, page_query_eq]
  change _ = Except.ok (TaskPage.mk _ _ _)
  generalize hS : (matchingRows c tasks conditions filters).filter (fun row => (q row).holds) = S
  have hS' : (matchingRows c tasks conditions filters).filter (Tri.holds ∘ q) = S := hS
  rw [hS']
  by_cases hmore : limit < S.length
  · have hlen : limit < (S.take (limit + 1)).length := by
      rw [List.length_take]
      omega
    have htake : (S.take (limit + 1)).take limit = S.take limit := by
      rw [List.take_take, Nat.min_eq_left (by omega)]
    have hlast : (S.take limit).getLast? = S[limit - 1]? := by
      rw [List.getLast?_eq_getElem?, List.length_take, Nat.min_eq_left hmore.le,
        List.getElem?_take_of_lt (by omega)]
    simp only [hlen, decide_true, if_true, htake, hlast, border_eq_some hmore]
  · have htake : S.take (limit + 1) = S.take limit := by
      rw [List.take_of_length_le (by omega), List.take_of_length_le (by omega)]
    have hlen : ¬ limit < (S.take limit).length := by
      rw [List.length_take]
      omega
    simp only [htake, hlen, decide_false, Bool.false_eq_true, if_false,
      border_eq_none (not_lt.mp hmore), Option.map_none]

theorem cursorCondition_encode (r : TaskRow) :
    cursorCondition c { filters with cursor := some (encodeTaskCursor r filters) } =
      .ok (taskPageCursorCondition c (encodeTaskCursor r filters)) := by
  simp [cursorCondition, decodeTaskCursor, encodeTaskCursor, pageSort, Except.map]

/-- **Following the pages** is the keyset walk through the matching rows. -/
theorem followPages_eq_walk (h1 : 1 ≤ limit) (h100 : limit ≤ 100) (hl : filters.limit = .fin limit) :
    ∀ (n : ℕ) (cursor : Option TaskCursor) (q : TaskRow → Tri),
      cursorCondition c { filters with cursor := cursor } = .ok q →
      followPages c tasks conditions filters n cursor =
        .ok (walk (matchingRows c tasks conditions filters) (selects c filters) limit n
          ((matchingRows c tasks conditions filters).filter (Tri.holds ∘ q))) := by
  intro n
  induction n with
  | zero => intros; rfl
  | succ n ih =>
    intro cursor q hq
    have hpage := listPage_eq c tasks conditions { filters with cursor := cursor } h1 h100 hl hq
    have hrows : matchingRows c tasks conditions { filters with cursor := cursor } =
        matchingRows c tasks conditions filters := rfl
    rw [hrows] at hpage
    unfold followPages walk
    rw [hpage]
    generalize (matchingRows c tasks conditions filters).filter (Tri.holds ∘ q) = S at hpage ⊢
    cases hb : border limit S with
    | none => rfl
    | some r =>
      have hnext := ih (some (encodeTaskCursor r filters)) _ (cursorCondition_encode c filters r)
      simp only [bind, Except.bind, Option.map_some]
      have henc : encodeTaskCursor r { filters with cursor := cursor } =
          encodeTaskCursor r filters := rfl
      rw [henc, hnext]
      rfl

theorem pagingExact_iff_walk (h1 : 1 ≤ limit) (h100 : limit ≤ 100)
    (hl : filters.limit = .fin limit) :
    PagingExact c tasks conditions filters ↔
      ∃ n, walk (matchingRows c tasks conditions filters) (selects c filters) limit n
        (matchingRows c tasks conditions filters) = some (matchingRows c tasks conditions filters) := by
  have hfirst : ∀ n, followPages c tasks conditions filters n none =
      .ok (walk (matchingRows c tasks conditions filters) (selects c filters) limit n
        (matchingRows c tasks conditions filters)) := by
    intro n
    have h := followPages_eq_walk c tasks conditions filters h1 h100 hl n none (fun _ => some true) rfl
    rwa [List.filter_eq_self.mpr (by simp)] at h
  constructor
  · rintro ⟨n, rows, hrows, hperm, hsorted⟩
    rw [hfirst n] at hrows
    have heq : rows = matchingRows c tasks conditions filters :=
      eq_of_perm_sorted c tasks filters
        (fun r hr => List.mem_of_mem_filter (hperm.mem_iff.mp hr))
        (hperm.trans (matchingRows_perm c tasks conditions filters).symm) hsorted
        (matchingRows_sorted c tasks conditions filters)
    rw [heq] at hrows
    exact ⟨n, by simpa using hrows⟩
  · rintro ⟨n, hn⟩
    exact ⟨n, _, by rw [hfirst n, hn], matchingRows_perm c tasks conditions filters,
      matchingRows_sorted c tasks conditions filters⟩

end Follow

/-! ### Page borders -/

variable {dir : TaskSortDirection}

section Border

open OrderDual

variable {K : Type*} [LinearOrder K]

/-- A row with key `k` and id `i` stands before one with key `next` and id `j`. -/
def Precedes (dir : TaskSortDirection) (k : Option K) (i : Uuid) (next : Option K) (j : Uuid) :
    Prop :=
  match dir with
  | .asc => position k i < position next j
  | .desc => position (k.map toDual) (toDual i) < position (next.map toDual) (toDual j)

/-- The cursor key `cur` of a row with key `k` and id `i` lies between it and the next row. -/
def Between (dir : TaskSortDirection) (k cur : Option K) (i : Uuid) (next : Option K) (j : Uuid) :
    Prop :=
  match dir with
  | .asc => position k i ≤ position cur i ∧ position cur i < position next j
  | .desc =>
    position (k.map toDual) (toDual i) ≤ position (cur.map toDual) (toDual i) ∧
    position (cur.map toDual) (toDual i) < position (next.map toDual) (toDual j)

theorem between_self {k next : Option K} {i j : Uuid} (h : Precedes dir k i next j) :
    Between dir k k i next j := by
  cases dir <;> exact ⟨le_rfl, h⟩

theorem holds_cursorCondition_asc (c : Collation) {cursor : TaskCursor} (row : TaskRow)
    (h : cursor.sortDirection = .asc) :
    Tri.holds (taskPageCursorCondition c cursor row) = true ↔
      position (cursor.value.map (decodedValue c cursor.sortBy)) cursor.id <
        position (taskPageColumn c cursor.sortBy row) row.id := by
  rw [← holds_after]
  unfold taskPageCursorCondition
  rw [h]
  cases cursor.value.map (decodedValue c cursor.sortBy) <;> rfl

theorem holds_cursorCondition_desc (c : Collation) {cursor : TaskCursor} (row : TaskRow)
    (h : cursor.sortDirection = .desc) :
    Tri.holds (taskPageCursorCondition c cursor row) = true ↔
      position ((cursor.value.map (decodedValue c cursor.sortBy)).map toDual) (toDual cursor.id) <
        position ((taskPageColumn c cursor.sortBy row).map toDual) (toDual row.id) := by
  rw [← holds_after]
  unfold taskPageCursorCondition
  rw [h]
  cases cursor.value.map (decodedValue c cursor.sortBy) <;>
    cases taskPageColumn c cursor.sortBy row <;> simp [after]

/-- The key of a row as it comes back from its cursor. -/
def cursorKey (c : Collation) (f : TaskSortField) (r : TaskRow) : Option (ColType c f) :=
  (taskSortValue r f).map (decodedValue c f)

variable (c : Collation) (tasks : Table TaskRow TaskRow.id) (conditions : TaskRow → Tri)
variable (filters : TaskPageFilters) {limit : ℕ}

/-- Following the pages is exact if and only if every border cursor lies between its row and the
next one. -/
theorem pagingExact_iff_between (h1 : 1 ≤ limit) (h100 : limit ≤ 100)
    (hl : filters.limit = .fin limit) :
    PagingExact c tasks conditions filters ↔
      ∀ k r next, 1 ≤ k → (matchingRows c tasks conditions filters)[k * limit - 1]? = some r →
        (matchingRows c tasks conditions filters)[k * limit]? = some next →
        Between (pageSort filters).sortDirection
          (taskPageColumn c (pageSort filters).sortBy r) (cursorKey c (pageSort filters).sortBy r) r.id
          (taskPageColumn c (pageSort filters).sortBy next) next.id := by
  rw [pagingExact_iff_walk c tasks conditions filters h1 h100 hl]
  have hnd := matchingRows_nodup c tasks conditions filters
  have hs := matchingRows_sorted c tasks conditions filters
  unfold taskPageOrder at hs
  cases hd : (pageSort filters).sortDirection with
  | asc =>
    have hsel : selects c filters = behind (taskPageColumn c (pageSort filters).sortBy)
        (cursorKey c (pageSort filters).sortBy) TaskRow.id := by
      funext r row
      rw [Bool.eq_iff_iff]
      unfold selects behind
      rw [decide_eq_true_eq]
      exact holds_cursorCondition_asc c row hd
    rw [hd] at hs
    rw [hsel]
    exact walk_sorted_iff h1 hnd hs
  | desc =>
    have hsel : selects c filters =
        behind (fun r => (taskPageColumn c (pageSort filters).sortBy r).map toDual)
        (fun r => (cursorKey c (pageSort filters).sortBy r).map toDual)
        (fun r => toDual r.id) := by
      funext r row
      rw [Bool.eq_iff_iff]
      unfold selects behind
      rw [decide_eq_true_eq]
      exact holds_cursorCondition_desc c row hd
    rw [hd] at hs
    rw [hsel]
    exact walk_sorted_iff h1 hnd hs

theorem precedes_of_consecutive {j : ℕ} {r next : TaskRow}
    (hr : (matchingRows c tasks conditions filters)[j]? = some r)
    (hn : (matchingRows c tasks conditions filters)[j + 1]? = some next) :
    Precedes (pageSort filters).sortDirection (taskPageColumn c (pageSort filters).sortBy r) r.id
      (taskPageColumn c (pageSort filters).sortBy next) next.id := by
  obtain ⟨hj, rfl⟩ := List.getElem?_eq_some_iff.mp hr
  obtain ⟨hj', rfl⟩ := List.getElem?_eq_some_iff.mp hn
  have hle := List.pairwise_iff_getElem.mp (matchingRows_sorted c tasks conditions filters)
    j (j + 1) hj hj' (by omega)
  have hne : (matchingRows c tasks conditions filters)[j].id ≠
      (matchingRows c tasks conditions filters)[j + 1].id := by
    intro h
    have hrow := Table.eq_of_mem (matchingRows_subset c tasks conditions filters _ (List.getElem_mem hj))
      (matchingRows_subset c tasks conditions filters _ (List.getElem_mem hj')) h
    have := (List.Nodup.getElem_inj_iff (matchingRows_nodup c tasks conditions filters)).mp hrow
    omega
  unfold taskPageOrder at hle
  unfold Precedes
  cases hd : (pageSort filters).sortDirection <;> rw [hd] at hle
  · exact lt_of_le_of_ne hle fun h => hne (congrArg (fun p => (ofLex p).2) h)
  · exact lt_of_le_of_ne hle fun h => hne (congrArg (fun p => (ofLex p).2) h)

/-- The border after a row with timestamp key `k`.  The cursor names the start of the key's
millisecond: an ascending page would repeat the row, a descending one skips what is left of the
millisecond. -/
def TimestampBorder (dir : TaskSortDirection) (k : Option Timestamptz) (i : Uuid)
    (next : Option Timestamptz) (j : Uuid) : Prop :=
  match k, next with
  | none, _ => True
  | some t, none => t.WholeMillis ∨ dir = .desc
  | some t, some u => t.WholeMillis ∨
      dir = .desc ∧ (u < .ofMillis t.millis ∨ u = .ofMillis t.millis ∧ j < i)

/-- The border after a row with number key `k`.  A number that is not finite comes back as null, so
only rows without a value are left to follow. -/
def NumberBorder (dir : TaskSortDirection) (k : Option Number) (i : Uuid) (next : Option Number)
    (j : Uuid) : Prop :=
  match k with
  | none => True
  | some n => n.isFinite = true ∨ next = none ∧ (if dir = .asc then i < j else j < i)

/-- A page that ends with the row `r`, followed by `next`, loses and repeats nothing. -/
def BorderExact (sort : PageSort) (r next : TaskRow) : Prop :=
  match sort.sortBy with
  | .createdAt =>
    TimestampBorder sort.sortDirection (some r.createdAt) r.id (some next.createdAt) next.id
  | .updatedAt =>
    TimestampBorder sort.sortDirection (some r.updatedAt) r.id (some next.updatedAt) next.id
  | .dueDate => TimestampBorder sort.sortDirection r.dueDate r.id next.dueDate next.id
  | .order => NumberBorder sort.sortDirection (some r.order) r.id (some next.order) next.id
  | .estimatedHours =>
    NumberBorder sort.sortDirection r.estimatedHours r.id next.estimatedHours next.id
  | .loggedHours =>
    NumberBorder sort.sortDirection (some r.loggedHours) r.id (some next.loggedHours) next.id
  | .priority | .title | .status | .assigneeId | .storyPoints => True

theorem between_timestamp {k next : Option Timestamptz} {i j : Uuid} (h : Precedes dir k i next j) :
    Between dir k ((k.map Timestamptz.millis).map Timestamptz.ofMillis) i next j ↔
      TimestampBorder dir k i next j := by
  cases k with
  | none => exact ⟨fun _ => by cases next <;> trivial, fun _ => between_self h⟩
  | some t =>
    by_cases hw : t.WholeMillis
    · have hself : ((some t).map Timestamptz.millis).map Timestamptz.ofMillis = some t := by
        simp [Timestamptz.ofMillis_millis_eq_iff.mpr hw]
      rw [hself]
      exact ⟨fun _ => by cases next <;> exact Or.inl hw, fun _ => between_self h⟩
    · have hlt : Timestamptz.ofMillis t.millis < t :=
        lt_of_le_of_ne (Timestamptz.ofMillis_millis_le t) fun he =>
          hw (Timestamptz.ofMillis_millis_eq_iff.mp he)
      cases dir with
      | asc =>
        -- the cursor lies before its own row
        have hnot : ¬ position (some t) i ≤ position (some (Timestamptz.ofMillis t.millis)) i := by
          rw [not_le, position_lt_iff]
          exact Or.inl (WithTop.coe_lt_coe.mpr hlt)
        constructor
        · exact fun hb => absurd hb.1 hnot
        · intro hb
          cases next <;> simp [TimestampBorder, hw] at hb
      | desc =>
        have hle : position (some (toDual t)) (toDual i) ≤
            position (some (toDual (Timestamptz.ofMillis t.millis))) (toDual i) := by
          rw [position_le_iff]
          exact Or.inl (WithTop.coe_lt_coe.mpr (toDual_lt_toDual.mpr hlt))
        unfold Between
        simp only [Option.map_some]
        rw [position_lt_iff]
        cases next with
        | none => simp [hle, TimestampBorder, nullsLast]
        | some u =>
          simp only [hle, true_and, Option.map_some, nullsLast, WithTop.coe_lt_coe, toDual_lt_toDual,
            TimestampBorder, hw, false_or, Option.some.injEq, toDual_inj]
          rw [eq_comm]

theorem between_number {k next : Option Number} {i j : Uuid} (h : Precedes dir k i next j) :
    Between dir k ((k.bind jsonNumber).map Number.fin) i next j ↔ NumberBorder dir k i next j := by
  cases k with
  | none => exact ⟨fun _ => trivial, fun _ => between_self h⟩
  | some n =>
    cases hf : n.isFinite with
    | true =>
      obtain ⟨q, rfl⟩ : ∃ q, n = .fin q := by
        cases n <;> simp_all [Number.isFinite]
      exact ⟨fun _ => Or.inl hf, fun _ => between_self h⟩
    | false =>
      have hnull : ((some n).bind jsonNumber).map Number.fin = none := by
        cases n <;> simp_all [Number.isFinite, jsonNumber]
      rw [hnull]
      cases dir with
      | asc =>
        have hle : position (some n) i ≤ position none i := by
          rw [position_le_iff]
          exact Or.inl (WithTop.coe_lt_top n)
        unfold Between
        simp only [hle, true_and, position_lt_iff]
        cases next <;> simp [NumberBorder, hf, nullsLast]
      | desc =>
        have hle : position (some (toDual n)) (toDual i) ≤ position none (toDual i) := by
          rw [position_le_iff]
          exact Or.inl (WithTop.coe_lt_top _)
        unfold Between
        simp only [Option.map_some, Option.map_none, hle, true_and, position_lt_iff]
        cases next <;> simp [NumberBorder, hf, nullsLast]

theorem between_iff_borderExact {sort : PageSort} {r next : TaskRow}
    (h : Precedes sort.sortDirection (taskPageColumn c sort.sortBy r) r.id
      (taskPageColumn c sort.sortBy next) next.id) :
    Between sort.sortDirection (taskPageColumn c sort.sortBy r) (cursorKey c sort.sortBy r) r.id
      (taskPageColumn c sort.sortBy next) next.id ↔ BorderExact sort r next := by
  obtain ⟨f, dir⟩ := sort
  cases f with
  | order => exact between_number h
  | createdAt => exact between_timestamp h
  | updatedAt => exact between_timestamp h
  | dueDate => exact between_timestamp h
  | estimatedHours => exact between_number h
  | loggedHours => exact between_number h
  | priority => exact ⟨fun _ => trivial, fun _ => between_self h⟩
  | title => exact ⟨fun _ => trivial, fun _ => between_self h⟩
  | status => exact ⟨fun _ => trivial, fun _ => between_self h⟩
  | assigneeId =>
    have hself : cursorKey c .assigneeId r = taskPageColumn c .assigneeId r := by
      show r.assigneeId.map (fun u => u) = r.assigneeId
      cases r.assigneeId <;> rfl
    rw [hself]
    exact ⟨fun _ => trivial, fun _ => between_self h⟩
  | storyPoints =>
    have hself : cursorKey c .storyPoints r = taskPageColumn c .storyPoints r := by
      show r.storyPoints.map (fun n => n) = r.storyPoints
      cases r.storyPoints <;> rfl
    rw [hself]
    exact ⟨fun _ => trivial, fun _ => between_self h⟩

/-- **Keyset paging**: the pages return every matching row exactly once and in order if and only if
every page border is exact. -/
theorem pagingExact_iff (h1 : 1 ≤ limit) (h100 : limit ≤ 100) (hl : filters.limit = .fin limit) :
    PagingExact c tasks conditions filters ↔
      ∀ k r next, 1 ≤ k → (matchingRows c tasks conditions filters)[k * limit - 1]? = some r →
        (matchingRows c tasks conditions filters)[k * limit]? = some next →
        BorderExact (pageSort filters) r next := by
  rw [pagingExact_iff_between c tasks conditions filters h1 h100 hl]
  refine forall_congr' fun k => forall_congr' fun r => forall_congr' fun next =>
    forall_congr' fun hk => forall_congr' fun hr => forall_congr' fun hn => ?_
  refine between_iff_borderExact c (precedes_of_consecutive c tasks conditions filters hr ?_)
  have hpos := Nat.mul_pos hk h1
  rwa [Nat.sub_add_cancel hpos]

end Border

/-! ### Two tasks of one millisecond -/

/-- Two tasks created 200 microseconds apart. -/
def sameMillisecond : Table TaskRow TaskRow.id where
  rows :=
    [{ id := 1, projectId := 1, serial := "TASK-1041", title := "a", createdAt := ⟨1700⟩,
       updatedAt := ⟨1700⟩ },
     { id := 2, projectId := 1, serial := "TASK-1042", title := "b", createdAt := ⟨1500⟩,
       updatedAt := ⟨1500⟩ }]
  nodup := by decide

/-- With the default sort and pages of one row, the older of the two tasks is skipped. -/
theorem pagingExact_skips_same_millisecond :
    ¬ PagingExact .codepoint sameMillisecond (fun _ => some true) { limit := .fin 1 } := by
  rw [pagingExact_iff_between .codepoint sameMillisecond (fun _ => some true)
    { limit := .fin 1 } (le_refl 1) (by omega) (by norm_num)]
  intro h
  have hb := h 1 _ _ (le_refl 1) rfl rfl
  exact absurd hb.2 (by decide)

/-- Sorted by title, the same pages are exact. -/
theorem pagingExact_by_title :
    PagingExact .codepoint sameMillisecond (fun _ => some true)
      { limit := .fin 1, sortBy := some .title } :=
  (pagingExact_iff .codepoint sameMillisecond (fun _ => some true)
    { limit := .fin 1, sortBy := some .title } (le_refl 1) (by omega) (by norm_num)).mpr
    fun _ _ _ _ _ _ => trivial

end CalmBoard.Tasks
