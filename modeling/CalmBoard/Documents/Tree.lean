import CalmBoard.Lib.Preorder
import CalmBoard.Lib.Table

/-!
# CalmBoard.Documents.Tree — the documents as the sidebar shows them

* `flattenDocumentTree`: the walk over the children of the roots and the sweep over what it leaves.
* `visit_eq`: the walk is a preorder, no document is met twice.
* `flattenDocumentTree_complete`: the list has every document, the ones below a root with their depth,
  behind their parent and before their descendants.
-/

namespace CalmBoard.Documents

open Forest Relation

/-! ### The view -/

/-- `parentId` is `none` where it is `null` or `undefined`. -/
structure Doc where
  id : String
  parentId : Option String := none
  title : String := ""
  deriving DecidableEq

structure DocumentTreeEntry where
  document : Doc
  depth : ℕ
  deriving DecidableEq

/-- The parent of a document in the list; the empty id is falsy. -/
def parentKey (documentIds : List String) (document : Doc) : Option String :=
  document.parentId.filter fun parentId => parentId ≠ "" ∧ parentId ∈ documentIds

/-- The `Map` of the children. -/
def childrenMap (documents : List Doc) : Option String → List Doc :=
  let documentIds := documents.map Doc.id
  documents.foldl
    (fun children document =>
      let parentId := parentKey documentIds document
      Function.update children parentId (children parentId ++ [document]))
    fun _ => []

/-- `visited` and `result` -/
structure Walk where
  visited : List String := []
  result : List DocumentTreeEntry := []

/-- `none` when calls are nested deeper than `fuel`. -/
def visit (children : Option String → List Doc) : ℕ → Option String → ℕ → Walk → Option Walk
  | 0, _, _, _ => none
  | fuel + 1, parentId, depth, walk =>
    (children parentId).foldlM
      (fun walk document =>
        if document.id ∈ walk.visited then some walk
        else
          visit children fuel (some document.id) (depth + 1)
            { visited := walk.visited ++ [document.id], result := walk.result ++ [⟨document, depth⟩] })
      walk

def flattenDocumentTree (fuel : ℕ) (documents : List Doc) : Option (List DocumentTreeEntry) := do
  let walk ← visit (childrenMap documents) fuel none 0 {}
  return walk.result ++
    (documents.filter fun document => document.id ∉ walk.visited).map fun document => ⟨document, 0⟩

/-- A child before its parent, a page whose parent is hidden, and two that name each other. -/
example : flattenDocumentTree 6
    [⟨"child", some "root", ""⟩, ⟨"orphan", some "hidden", ""⟩, ⟨"root", none, ""⟩,
      ⟨"a", some "b", ""⟩, ⟨"b", some "a", ""⟩] =
    some [⟨⟨"orphan", some "hidden", ""⟩, 0⟩, ⟨⟨"root", none, ""⟩, 0⟩,
      ⟨⟨"child", some "root", ""⟩, 1⟩, ⟨⟨"a", some "b", ""⟩, 0⟩, ⟨⟨"b", some "a", ""⟩, 0⟩] := by
  decide

/-! ### Parents -/

variable {documents : Table Doc Doc.id}

def listedParent (documents : Table Doc Doc.id) (document : Doc) : Option Doc :=
  (parentKey (documents.rows.map Doc.id) document).bind documents.find?

theorem childrenMap_eq (rows : List Doc) (parentId : Option String) :
    childrenMap rows parentId =
      rows.filter fun document => parentKey (rows.map Doc.id) document = parentId := by
  have hfold : ∀ (ids : List String) (more : List Doc) (children : Option String → List Doc),
      more.foldl (fun children document => Function.update children (parentKey ids document)
        (children (parentKey ids document) ++ [document])) children parentId =
        children parentId ++ more.filter fun document => parentKey ids document = parentId := by
    intro ids more
    induction more with
    | nil => intro children; simp
    | cons document more ih =>
      intro children
      rw [List.foldl_cons, ih]
      by_cases hkey : parentKey ids document = parentId
      · rw [hkey, Function.update_self, List.filter_cons_of_pos (by simpa using hkey),
          List.append_assoc, List.singleton_append]
      · rw [Function.update_of_ne (Ne.symm hkey), List.filter_cons_of_neg (by simpa using hkey)]
  exact hfold _ rows fun _ => []

theorem parentKey_mem {ids : List String} {document : Doc} {parentId : String}
    (h : parentKey ids document = some parentId) : parentId ∈ ids := by
  unfold parentKey at h
  exact (of_decide_eq_true (Option.filter_eq_some_iff.mp h).2).2

theorem listedParent_eq_some {document parent : Doc} (h : listedParent documents document = some parent) :
    parent ∈ documents.rows ∧ parentKey (documents.rows.map Doc.id) document = some parent.id := by
  obtain ⟨parentId, hkey, hfind⟩ := Option.bind_eq_some_iff.mp h
  exact ⟨Table.mem_of_find? hfind, by rw [hkey, Table.key_of_find? hfind]⟩

theorem parentKey_eq (document : Doc) :
    parentKey (documents.rows.map Doc.id) document = (listedParent documents document).map Doc.id := by
  unfold listedParent
  cases hkey : parentKey (documents.rows.map Doc.id) document with
  | none => rfl
  | some parentId =>
    obtain ⟨parent, hmem, rfl⟩ := List.mem_map.mp (parentKey_mem hkey)
    rw [Option.bind_some, Table.find?_of_mem hmem, Option.map_some]

theorem parentKey_iff {document : Doc} {p : Option Doc} (hp : ∀ parent ∈ p, parent ∈ documents.rows) :
    parentKey (documents.rows.map Doc.id) document = p.map Doc.id ↔
      listedParent documents document = p := by
  refine ⟨fun h => ?_, fun h => h ▸ parentKey_eq document⟩
  unfold listedParent
  rw [h]
  cases p with
  | none => rfl
  | some parent => exact Table.find?_of_mem (hp parent rfl)

/-- The documents under a listed parent. -/
def childrenOf (documents : Table Doc Doc.id) (p : Option Doc) : List Doc :=
  documents.rows.filter fun document => listedParent documents document = p

theorem childrenMap_childrenOf {p : Option Doc} (hp : ∀ parent ∈ p, parent ∈ documents.rows) :
    childrenMap documents.rows (p.map Doc.id) = childrenOf documents p := by
  rw [childrenMap_eq, childrenOf]
  exact List.filter_congr fun document _ => decide_eq_decide.mpr (parentKey_iff hp)

theorem children_childrenOf (documents : Table Doc Doc.id) :
    Preorder.Children (listedParent documents) documents.rows (childrenOf documents) :=
  { eq_filter := fun _ => rfl
    distinct := documents.nodup.of_map
    closed := fun h => (listedParent_eq_some h).1 }

/-! ### The walk -/

def DocumentTreeEntry.pair (entry : DocumentTreeEntry) : Doc × ℕ := (entry.document, entry.depth)

def Walk.append (walk : Walk) (entries : List (Doc × ℕ)) : Walk :=
  { visited := walk.visited ++ entries.map fun x => x.1.id
    result := walk.result ++ entries.map fun x => ⟨x.1, x.2⟩ }

theorem Walk.append_nil (walk : Walk) : walk.append [] = walk := by
  simp [append]

theorem Walk.append_append (walk : Walk) (entries more : List (Doc × ℕ)) :
    (walk.append entries).append more = walk.append (entries ++ more) := by
  simp [append]

theorem Walk.nodup_of_append (walk : Walk) {entries more : List (Doc × ℕ)}
    (h : ((walk.append entries).append more).visited.Nodup) : (walk.append entries).visited.Nodup :=
  (List.nodup_append.mp h).1

/-- **One call**: it adds the preorder below its document, if none of that has been visited. -/
theorem visit_eq {fuel : ℕ} {p : Option Doc} {depth : ℕ} {walk : Walk}
    (hp : ∀ parent ∈ p, parent ∈ documents.rows)
    (henough : Preorder.Enough (childrenOf documents) fuel p depth)
    (hfresh : (walk.append (Preorder.preorder (childrenOf documents) fuel p depth)).visited.Nodup) :
    visit (childrenMap documents.rows) fuel (p.map Doc.id) depth walk =
      some (walk.append (Preorder.preorder (childrenOf documents) fuel p depth)) := by
  induction fuel generalizing p depth walk with
  | zero => exact absurd henough.1 (lt_irrefl 0)
  | succ fuel ih =>
    rw [visit, childrenMap_childrenOf hp, Preorder.preorder_succ] at *
    have hmem : ∀ c ∈ childrenOf documents p, c ∈ documents.rows ∧
        Preorder.Enough (childrenOf documents) fuel (some c) (depth + 1) := fun c hc =>
      ⟨((children_childrenOf documents).mem.mp hc).1, henough.child hc⟩
    generalize childrenOf documents p = siblings at hfresh hmem ⊢
    induction siblings generalizing walk with
    | nil => rw [List.foldlM_nil, List.flatMap_nil, Walk.append_nil]; rfl
    | cons c siblings ihs =>
      obtain ⟨hc, hdeep⟩ := hmem c List.mem_cons_self
      rw [List.flatMap_cons, ← Walk.append_append] at hfresh ⊢
      have hpart := walk.nodup_of_append hfresh
      have hnew : c.id ∉ walk.visited := fun hseen =>
        (List.nodup_append.mp hpart).2.2 c.id hseen c.id List.mem_cons_self rfl
      have hcall := @ih (some c) (depth + 1) (walk.append [(c, depth)]) (by simpa using hc) hdeep
        (by rwa [Walk.append_append])
      rw [Walk.append_append, List.singleton_append] at hcall
      rw [List.foldlM_cons, if_neg hnew]
      show (visit _ fuel ((some c).map Doc.id) (depth + 1) (walk.append [(c, depth)])).bind _ = _
      rw [hcall]
      exact ihs hfresh fun d hd => hmem d (List.mem_cons_of_mem _ hd)

/-! ### The list -/

def entryOf (x : Doc × ℕ) : DocumentTreeEntry := ⟨x.1, x.2⟩

theorem nodup_ids {entries : List (Doc × ℕ)} (h : (entries.map Prod.fst).Nodup)
    (hmem : ∀ x ∈ entries, x.1 ∈ documents.rows) : (entries.map fun x => x.1.id).Nodup := by
  have hmap : (entries.map fun x => x.1.id) = (entries.map Prod.fst).map Doc.id := by
    rw [List.map_map]; rfl
  rw [hmap]
  refine h.map_on fun d hd d' hd' hid => ?_
  obtain ⟨x, hx, rfl⟩ := List.mem_map.mp hd
  obtain ⟨x', hx', rfl⟩ := List.mem_map.mp hd'
  exact Table.eq_of_mem (hmem x hx) (hmem x' hx') hid

theorem flattenDocumentTree_eq (documents : Table Doc Doc.id) {fuel : ℕ}
    (hfuel : documents.rows.length < fuel) :
    flattenDocumentTree fuel documents.rows =
      some ((Preorder.flatten documents.rows (childrenOf documents) fuel).map entryOf) := by
  have hc := children_childrenOf documents
  have hwalk : ∀ x ∈ Preorder.preorder (childrenOf documents) fuel none 0, x.1 ∈ documents.rows :=
    fun x hx => ((Preorder.mem_walk hc hfuel).mp hx).1
  have hvisit : visit (childrenMap documents.rows) fuel none 0 {} =
      some (Walk.append {} (Preorder.preorder (childrenOf documents) fuel none 0)) := by
    refine visit_eq (p := none) (by simp) (Preorder.enough hc hfuel) ?_
    exact nodup_ids (Preorder.nodup_walk hc fuel) hwalk
  unfold flattenDocumentTree Preorder.flatten
  rw [hvisit]
  simp only [Walk.append, List.nil_append, List.map_append, List.map_map]
  refine congrArg some (congrArg _ ?_)
  have hleft : (documents.rows.filter fun document =>
      document.id ∉ (Preorder.preorder (childrenOf documents) fuel none 0).map fun x => x.1.id) =
      documents.rows.filter fun document =>
        document ∉ (Preorder.preorder (childrenOf documents) fuel none 0).map Prod.fst := by
    refine List.filter_congr fun document hdocument => decide_eq_decide.mpr (not_congr ?_)
    constructor
    · intro h
      obtain ⟨x, hx, hid⟩ := List.mem_map.mp h
      exact List.mem_map.mpr ⟨x, hx, Table.eq_of_mem (hwalk x hx) hdocument hid⟩
    · intro h
      obtain ⟨x, hx, rfl⟩ := List.mem_map.mp h
      exact List.mem_map.mpr ⟨x, hx, rfl⟩
  rw [hleft]
  rfl

/-- **The tree view**, for any parents: the call returns however many levels it may nest beyond the
number of documents, and the list is complete; a document whose chain of parents ends stands behind its
parent, at the length of the chain, and its descendants follow it. -/
theorem flattenDocumentTree_complete (documents : Table Doc Doc.id) :
    ∃ entries : List DocumentTreeEntry,
      (∀ more, flattenDocumentTree (documents.rows.length + 1 + more) documents.rows = some entries) ∧
      (entries.map DocumentTreeEntry.document).Perm documents.rows ∧
      (∀ p, (entries.map DocumentTreeEntry.document).filter
          (fun document => listedParent documents document = p) =
        documents.rows.filter fun document => listedParent documents document = p) ∧
      ∀ before entry after, entries = before ++ entry :: after →
        ∀ ancestors, Chain (listedParent documents) entry.document ancestors →
          entry.depth = ancestors.length ∧
          (∀ parent, listedParent documents entry.document = some parent →
            parent ∈ before.map DocumentTreeEntry.document) ∧
          ∀ document, document ∈ (after.takeWhile fun later => entry.depth < later.depth).map
              DocumentTreeEntry.document ↔
            document ∈ documents.rows ∧
              TransGen (Parent (listedParent documents)) document entry.document := by
  have hc := children_childrenOf documents
  have hn : documents.rows.length < documents.rows.length + 1 := Nat.lt_succ_self _
  refine ⟨(Preorder.flatten documents.rows (childrenOf documents) (documents.rows.length + 1)).map entryOf,
    fun more => ?_, ?_, fun p => ?_, ?_⟩
  · rw [flattenDocumentTree_eq documents (by omega), Preorder.flatten, Preorder.flatten,
      Preorder.preorder_stable (Preorder.enough hc hn) (by omega)]
  · rw [List.map_map]
    exact Preorder.flatten_perm hc hn
  · rw [List.map_map]
    exact Preorder.flatten_siblings hc hn p
  · intro before entry after hsplit ancestors hancestors
    have hpairs := congrArg (List.map DocumentTreeEntry.pair) hsplit
    rw [List.map_map, show DocumentTreeEntry.pair ∘ entryOf = id from rfl, List.map_id, List.map_append,
      List.map_cons] at hpairs
    obtain ⟨hdepth, hparent, hbelow⟩ := Preorder.flatten_subtree hc hn hpairs hancestors
    refine ⟨hdepth, fun parent h => ?_, fun document => ?_⟩
    · have hmem := hparent parent h
      rwa [List.map_map] at hmem
    · have hmem := hbelow document
      rwa [List.takeWhile_map, List.map_map] at hmem

end CalmBoard.Documents
