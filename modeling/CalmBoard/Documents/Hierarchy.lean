import CalmBoard.Documents.Repository
import CalmBoard.Lib.Fallible
import CalmBoard.Lib.Forest

/-!
# CalmBoard.Documents.Hierarchy — the depth of the document tree

The parent of a document is checked when it is created and when it is moved: the walk up bounds the
chain above it, `descendantDepth` the levels below it, and the two together fit.

* `nested_step`: every call keeps the tree bounded.
* `tree_bounded`: after every sequence of calls the parent relation is acyclic, no document is
  deeper than `maxDocumentDepth`, and `descendantDepth` returns.
-/

namespace CalmBoard.Documents

open Fallible Relation

variable {s s' : Store} {context : Context} {k p id : Uuid} {d row : DocRow}

/-! ### Parents -/

/-- The parent pointer of a document that is not soft-deleted. -/
def Store.parent (s : Store) (k : Uuid) : Option Uuid := (s.document? k).bind DocRow.parentId

/-- `p` is the parent in the row of `k`, whether soft-deleted or not. -/
def IsParent (s : Store) (k p : Uuid) : Prop :=
  ∃ d, s.docs.find? k = some d ∧ d.parentId = some p

theorem document?_eq_some :
    s.document? k = some d ↔ s.docs.find? k = some d ∧ d.active = true :=
  Option.filter_eq_some_iff

theorem mem_documents : d ∈ s.documents ↔ s.document? d.id = some d := by
  rw [document?_eq_some, Store.documents, List.mem_filter]
  constructor
  · rintro ⟨hmem, hactive⟩
    exact ⟨Table.find?_of_mem hmem, hactive⟩
  · rintro ⟨hfind, hactive⟩
    exact ⟨Table.mem_of_find? hfind, hactive⟩

theorem id_of_document? (h : s.document? k = some d) : d.id = k :=
  Table.key_of_find? (document?_eq_some.mp h).1

theorem mem_children {c : Uuid} : c ∈ s.children k ↔ s.parent c = some k := by
  rw [Store.children, List.mem_map, Store.parent, Option.bind_eq_some_iff]
  constructor
  · rintro ⟨d, hd, rfl⟩
    obtain ⟨hmem, hparent⟩ := List.mem_filter.mp hd
    exact ⟨d, mem_documents.mp hmem, by simpa using hparent⟩
  · rintro ⟨d, hd, hparent⟩
    obtain rfl := id_of_document? hd
    exact ⟨d, List.mem_filter.mpr ⟨mem_documents.mpr hd, by simpa using hparent⟩, rfl⟩

/-! ### The recursions end -/

theorem frames_pos {frames : ℕ} {path ids : List Uuid} (hnodup : path.Nodup) (hsub : path ⊆ ids)
    (hlen : ids.length < frames + path.length) : 0 < frames := by
  have := (List.subperm_of_subset hnodup hsub).length_le
  omega

/-- In a forest `descendantDepth` returns and counts no more levels than there are. -/
theorem descendantDepth_returns_of_frames {n : ℕ} (hforest : Forest.Bounded s.parent n)
    {ids : List Uuid} (hids : s.documents.map DocRow.id ⊆ ids) :
    ∀ (frames : ℕ) (id : Uuid) (path : List Uuid) (m : ℕ), Forest.Within s.parent m id →
      (∀ x ∈ path, TransGen (Forest.Parent s.parent) id x) → path.Nodup → path ⊆ ids → id ∈ ids →
        ids.length < frames + path.length →
          ∃ depth, descendantDepth s frames id path = .ok depth ∧ depth ≤ m + 1
  | 0, id, path, m, _, _, hnodup, hsub, _, hlen => by
    have := frames_pos hnodup hsub hlen
    omega
  | frames + 1, id, path, m, hwithin, hpath, hnodup, hsub, hid, hlen => by
    have hfresh : id ∉ path := fun hmem => hforest.acyclic id (hpath id hmem)
    rw [descendantDepth, if_neg hfresh]
    refine foldlM_total (I := fun deepest => deepest ≤ m + 1) (Nat.le_add_left 1 m) ?_
    intro deepest c hc hdeepest
    have hparent : s.parent c = some id := mem_children.mp hc
    obtain ⟨m, rfl⟩ : ∃ j, m = j + 1 := by
      cases m with
      | zero => exact absurd hparent (hwithin c)
      | succ j => exact ⟨j, rfl⟩
    have hup : ∀ x ∈ id :: path, TransGen (Forest.Parent s.parent) c x := by
      intro x hx
      rcases List.mem_cons.mp hx with rfl | hx
      · exact TransGen.single hparent
      · exact TransGen.head hparent (hpath x hx)
    have hmem : c ∈ ids := by
      obtain ⟨d, hd, rfl⟩ := List.mem_map.mp hc
      exact hids (List.mem_map_of_mem (List.mem_filter.mp hd).1)
    obtain ⟨depth, hdepth, hle⟩ := descendantDepth_returns_of_frames hforest hids frames c
      (id :: path) m (hwithin c hparent) hup (List.nodup_cons.mpr ⟨hfresh, hnodup⟩)
      (List.cons_subset.mpr ⟨hid, hsub⟩) hmem (by rw [List.length_cons]; omega)
    refine ⟨max deepest (1 + depth), by rw [hdepth]; rfl, ?_⟩
    have hone : 1 + depth ≤ m + 1 + 1 := by omega
    exact Nat.max_le.mpr ⟨hdeepest, hone⟩

/-! ### The tree -/

/-- Parents are documents that are not soft-deleted, and no chain of them is too long. -/
structure Nested (s : Store) : Prop where
  parent_active : ∀ k p, IsParent s k p → ∃ d, s.document? p = some d
  bounded : Forest.Bounded s.parent (maxDocumentDepth - 1)

theorem isParent_of_parent (h : s.parent k = some p) : IsParent s k p := by
  obtain ⟨d, hd, hp⟩ := Option.bind_eq_some_iff.mp h
  exact ⟨d, (document?_eq_some.mp hd).1, hp⟩

theorem parent_of_document? (h : s.document? k = some d) : s.parent k = d.parentId := by
  rw [Store.parent, h]
  rfl

theorem within_fresh (hs : Nested s) (hk : s.docs.find? k = none) :
    Forest.Within s.parent 0 k := by
  intro c hc
  obtain ⟨d, hd⟩ := hs.parent_active c k (isParent_of_parent hc)
  rw [(document?_eq_some.mp hd).1] at hk
  cases hk

theorem chain_documents (hs : Nested s) {l : List Uuid} (hl : Forest.Chain s.parent p l)
    (hd : s.document? p = some d) : ∀ x ∈ p :: l, ∃ d, s.document? x = some d := by
  induction hl generalizing d with
  | root =>
    intro x hx
    exact ⟨d, List.mem_singleton.mp hx ▸ hd⟩
  | @step k q l hk rest ih =>
    obtain ⟨e, he⟩ := hs.parent_active k q (isParent_of_parent hk)
    intro x hx
    rcases List.mem_cons.mp hx with rfl | hx
    · exact ⟨d, hd⟩
    · exact ih he x hx

/-! ### What the checks establish -/

theorem walkAncestors_ok (hs : Nested s) {documentId : Option Uuid} :
    ∀ {frames : ℕ} {current : DocRow} {visited : List Uuid} {depth total : ℕ},
      s.document? current.id = some current →
      walkAncestors s documentId frames current visited depth = .ok total →
      ∃ l, Forest.Chain s.parent current.id l ∧ total = depth + 1 + l.length ∧
        total < maxDocumentDepth ∧ ∀ x ∈ current.id :: l, some x ≠ documentId
  | 0, _, _, _, _, _, h => by cases h
  | frames + 1, current, visited, depth, total, hcurrent, h => by
    unfold walkAncestors at h
    obtain ⟨hcycle, h⟩ := guard_ok.mp h
    obtain ⟨hdepth, h⟩ := guard_ok.mp h
    have hne : some current.id ≠ documentId := fun he => hcycle (Or.inl he)
    have hparent : s.parent current.id = current.parentId := parent_of_document? hcurrent
    cases hp : current.parentId with
    | none =>
      simp only [hp, Option.bind_none, pure_ok] at h
      refine ⟨[], .root (hparent.trans hp), by rw [List.length_nil]; omega, by omega, ?_⟩
      intro x hx
      rw [List.mem_singleton.mp hx]
      exact hne
    | some q =>
      have hq : s.parent current.id = some q := hparent.trans hp
      obtain ⟨next, hnext⟩ := hs.parent_active _ _ (isParent_of_parent hq)
      obtain rfl := id_of_document? hnext
      simp only [hp, Option.bind_some, hnext] at h
      obtain ⟨l, hl, htotal, hlt, hnot⟩ := walkAncestors_ok hs hnext h
      refine ⟨next.id :: l, .step hq hl, by rw [List.length_cons]; omega, hlt, ?_⟩
      intro x hx
      rcases List.mem_cons.mp hx with rfl | hx
      · exact hne
      · exact hnot x hx

/-- `descendantDepth` bounds the levels below a document. -/
theorem descendantDepth_ok : ∀ {frames : ℕ} {id : Uuid} {path : List Uuid} {depth : ℕ},
    descendantDepth s frames id path = .ok depth →
      1 ≤ depth ∧ Forest.Within s.parent (depth - 1) id
  | 0, _, _, _, h => by cases h
  | frames + 1, id, path, depth, h => by
    rw [descendantDepth] at h
    obtain ⟨-, h⟩ := guard_ok.mp h
    have hpos : 1 ≤ depth := by
      refine foldlM_ok (I := fun deepest => 1 ≤ deepest) h le_rfl ?_
      intro deepest c t _ hle ht
      obtain ⟨m, -, hm⟩ := bind_ok.mp ht
      rw [pure_ok] at hm
      exact hm ▸ le_max_of_le_left hle
    have hchild : ∀ c, s.parent c = some id →
        ∃ m, descendantDepth s frames c (id :: path) = .ok m ∧ 1 + m ≤ depth := by
      intro c hc
      refine foldlM_reaches (I := fun _ => True)
        (G := fun deepest => ∃ m, descendantDepth s frames c (id :: path) = .ok m ∧ 1 + m ≤ deepest)
        (mem_children.mpr hc) h trivial (fun _ _ _ _ _ _ => trivial) ?_ ?_
      · intro deepest t _ ht
        obtain ⟨m, hm, ht⟩ := bind_ok.mp ht
        rw [pure_ok] at ht
        exact ⟨m, hm, ht ▸ le_max_right _ _⟩
      · rintro deepest e t _ ⟨m, hm, hle⟩ ht
        obtain ⟨m', -, ht⟩ := bind_ok.mp ht
        rw [pure_ok] at ht
        exact ⟨m, hm, ht ▸ le_max_of_le_left hle⟩
    refine ⟨hpos, ?_⟩
    cases hd : depth - 1 with
    | zero =>
      intro c hc
      obtain ⟨m, hm, hle⟩ := hchild c hc
      have := (descendantDepth_ok hm).1
      omega
    | succ j =>
      intro c hc
      obtain ⟨m, hm, hle⟩ := hchild c hc
      exact (descendantDepth_ok hm).2.mono (by omega)

/-- What `validateParent` has checked of a parent: its chain and the subtree that moves below it. -/
theorem validateParent_ok (hs : Nested s) {documentId : Option Uuid}
    (h : validateParent s context documentId (some p) = .ok ()) :
    ∃ d l, s.document? p = some d ∧ Forest.Chain s.parent p l ∧ l.length + 1 < maxDocumentDepth ∧
      ∀ k, documentId = some k → k ∉ p :: l ∧
        ∃ m, Forest.Within s.parent m k ∧ l.length + 1 + m ≤ maxDocumentDepth - 1 := by
  unfold validateParent at h
  obtain ⟨_, -, h⟩ := bind_ok.mp h
  cases hd : s.document? p with
  | none => simp [hd] at h
  | some parent =>
    obtain rfl := id_of_document? hd
    simp only [hd] at h
    obtain ⟨total, htotal, h⟩ := bind_ok.mp h
    obtain ⟨l, hl, hlen, hlt, hnot⟩ := walkAncestors_ok hs hd htotal
    refine ⟨parent, l, rfl, hl, by omega, ?_⟩
    rintro k rfl
    refine ⟨fun hk => hnot k hk rfl, ?_⟩
    obtain ⟨depth, hdepth, h⟩ := bind_ok.mp h
    obtain ⟨hfits, -⟩ := guard_ok.mp h
    obtain ⟨hpos, hwithin⟩ := descendantDepth_ok hdepth
    exact ⟨depth - 1, hwithin, by omega⟩

/-! ### One call -/

theorem parent_of_written (hfind : ∀ j, s'.docs.find? j = if row.id = j then some row else s.docs.find? j) :
    s'.parent = Function.update s.parent row.id (if row.active then row.parentId else none) := by
  funext j
  unfold Store.parent Store.document?
  rw [hfind j]
  by_cases hj : j = row.id
  · subst hj
    rw [if_pos rfl, Function.update_self, Option.filter_some]
    split <;> rfl
  · rw [if_neg (Ne.symm hj), Function.update_of_ne hj]

theorem isParent_of_written
    (hfind : ∀ j, s'.docs.find? j = if row.id = j then some row else s.docs.find? j)
    (h : IsParent s' k p) : (k = row.id ∧ row.parentId = some p) ∨ (k ≠ row.id ∧ IsParent s k p) := by
  obtain ⟨d, hd, hp⟩ := h
  rw [hfind k] at hd
  by_cases hk : row.id = k
  · rw [if_pos hk] at hd
    cases hd
    exact Or.inl ⟨hk.symm, hp⟩
  · rw [if_neg hk] at hd
    exact Or.inr ⟨Ne.symm hk, d, hd, hp⟩

/-- A row is written that keeps active documents active; its parent is the old one, none, or one
that passed the checks. -/
theorem nested_written (hs : Nested s)
    (hfind : ∀ j, s'.docs.find? j = if row.id = j then some row else s.docs.find? j)
    (hkeep : ∀ d, s.document? row.id = some d → row.active = true)
    (hparent : ∀ p, row.parentId = some p → s.parent row.id = some p ∨
      ∃ d l m, s.document? p = some d ∧ Forest.Chain s.parent p l ∧ row.id ∉ p :: l ∧
        Forest.Within s.parent m row.id ∧ l.length + 1 + m ≤ maxDocumentDepth - 1) :
    Nested s' := by
  have hactive : ∀ {j d}, s.document? j = some d → ∃ d', s'.document? j = some d' := by
    intro j d hd
    have hj := document?_eq_some.mp hd
    by_cases hrow : row.id = j
    · subst hrow
      exact ⟨row, document?_eq_some.mpr ⟨by rw [hfind, if_pos rfl], hkeep d hd⟩⟩
    · exact ⟨d, document?_eq_some.mpr ⟨by rw [hfind, if_neg hrow, hj.1], hj.2⟩⟩
  refine ⟨fun k p hp => ?_, ?_⟩
  · rcases isParent_of_written hfind hp with ⟨-, hp⟩ | ⟨-, hp⟩
    · rcases hparent p hp with hold | ⟨d, l, m, hd, -⟩
      · obtain ⟨d, hd⟩ := hs.parent_active _ _ (isParent_of_parent hold)
        exact hactive hd
      · exact hactive hd
    · obtain ⟨d, hd⟩ := hs.parent_active _ _ hp
      exact hactive hd
  · rw [parent_of_written hfind]
    by_cases hmoved : row.active = true ∧ ∃ p, row.parentId = some p ∧ s.parent row.id ≠ some p
    · obtain ⟨hrow, p, hp, hne⟩ := hmoved
      obtain ⟨d, l, m, -, hl, hnot, hbelow, hfits⟩ := (hparent p hp).resolve_left hne
      have hpk : p ≠ row.id := fun he => hnot (he ▸ List.mem_cons_self)
      rw [if_pos hrow, hp]
      have habove : Forest.Chain (Function.update s.parent row.id (some p)) row.id (p :: l) :=
        .step (Function.update_self ..)
          (hl.avoid _ hpk fun hmem => hnot (List.mem_cons_of_mem _ hmem))
      exact hs.bounded.update habove hbelow (by rwa [List.length_cons])
    · refine hs.bounded.mono fun j q hq => ?_
      by_cases hj : j = row.id
      · rw [hj, Function.update_self] at hq
        by_cases hrow : row.active = true
        · rw [if_pos hrow] at hq
          by_contra hne
          exact hmoved ⟨hrow, q, hq, hj ▸ hne⟩
        · rw [if_neg hrow] at hq
          cases hq
      · rwa [Function.update_of_ne hj] at hq

theorem forM_ok {α : Type} {f : α → Except RepoError Unit} {o : Option α} {a : α}
    (h : o.forM f = .ok ()) (ha : o = some a) : f a = .ok () := by
  subst ha
  exact h

theorem createRow_ok {authorId : Uuid} {input : CreateDocumentInput}
    (h : createRow s authorId input = .ok row) : row.parentId = input.parentId := by
  unfold createRow at h
  obtain ⟨_, -, h⟩ := bind_ok.mp h
  obtain ⟨_, -, h⟩ := bind_ok.mp h
  obtain ⟨_, -, h⟩ := bind_ok.mp h
  obtain ⟨_, -, h⟩ := bind_ok.mp h
  obtain ⟨_, -, h⟩ := bind_ok.mp h
  rw [← pure_ok.mp h]

theorem insertDocument_ok (h : insertDocument s row = .ok s') :
    s.docs.find? row.id = none ∧
      ∀ j, s'.docs.find? j = if row.id = j then some row else s.docs.find? j := by
  unfold insertDocument at h
  obtain ⟨_, -, h⟩ := bind_ok.mp h
  obtain ⟨_, -, h⟩ := bind_ok.mp h
  cases hdocs : s.docs.insert? row with
  | none => simp [hdocs] at h
  | some docs =>
    simp only [hdocs, pure_ok] at h
    subst h
    exact ⟨(Table.insert?_eq_some hdocs).1, Table.find?_insert? hdocs⟩

theorem nested_create {input : CreateDocumentInput} {level : AccessLevel} (hs : Nested s)
    (h : create s context input = .ok (s', d, level)) : Nested s' := by
  unfold create at h
  obtain ⟨actorId, -, h⟩ := bind_ok.mp h
  obtain ⟨-, -, h⟩ := bind_ok.mp h
  obtain ⟨-, -, h⟩ := bind_ok.mp h
  obtain ⟨⟨⟩, hvalid, h⟩ := bind_ok.mp h
  obtain ⟨row, hrow, h⟩ := bind_ok.mp h
  obtain ⟨s₁, hinsert, h⟩ := bind_ok.mp h
  cases pure_ok.mp h
  obtain ⟨hfresh, hfind⟩ := insertDocument_ok hinsert
  refine nested_written hs hfind (fun d hd => ?_) fun p hp => Or.inr ?_
  · rw [(document?_eq_some.mp hd).1] at hfresh
    cases hfresh
  · rw [createRow_ok hrow] at hp
    rw [hp] at hvalid
    obtain ⟨parent, l, hparent, hl, hlen, -⟩ := validateParent_ok hs hvalid
    refine ⟨parent, l, 0, hparent, hl, fun hmem => ?_, within_fresh hs hfresh, by omega⟩
    -- the ancestors are rows of the table, the new id is not
    obtain ⟨e, he⟩ := chain_documents hs hl hparent _ hmem
    rw [(document?_eq_some.mp he).1] at hfresh
    cases hfresh

theorem updateRow_ok {document : DocRow} {input : UpdateDocumentInput}
    (h : updateRow s document input = .ok row) : row.id = document.id ∧
      row.deletedAt = document.deletedAt ∧
        row.parentId = input.parentId.getD document.parentId := by
  unfold updateRow at h
  obtain ⟨_, -, h⟩ := bind_ok.mp h
  obtain ⟨_, -, h⟩ := bind_ok.mp h
  rw [← pure_ok.mp h]
  exact ⟨rfl, rfl, rfl⟩

theorem updateDocument_ok {setsParent : Bool} {old : DocRow} (hold : s.docs.find? row.id = some old)
    (h : updateDocument s row setsParent = .ok s') :
    ∀ j, s'.docs.find? j = if row.id = j then some row else s.docs.find? j := by
  unfold updateDocument at h
  obtain ⟨_, -, h⟩ := bind_ok.mp h
  obtain ⟨_, -, h⟩ := bind_ok.mp h
  rw [← pure_ok.mp h]
  exact Table.find?_put hold

theorem requireAccess_ok {required level : AccessLevel} {document : DocRow}
    (h : requireAccess s context id required = .ok (document, level)) :
    s.document? id = some document := by
  unfold requireAccess at h
  obtain ⟨actorId, -, h⟩ := bind_ok.mp h
  cases hd : s.document? id with
  | none => simp [hd] at h
  | some d =>
    simp only [hd] at h
    obtain ⟨access, -, h⟩ := bind_ok.mp h
    cases access with
    | none => cases h
    | some access =>
      obtain ⟨-, h⟩ := guard_ok.mp h
      cases pure_ok.mp h
      rfl

theorem nested_update {input : UpdateDocumentInput} {level : AccessLevel} (hs : Nested s)
    (h : update s context id input = .ok (s', d, level)) : Nested s' := by
  unfold update at h
  obtain ⟨⟨document, accessLevel⟩, haccess, h⟩ := bind_ok.mp h
  obtain ⟨-, -, h⟩ := bind_ok.mp h
  obtain ⟨⟨⟩, hvalid, h⟩ := bind_ok.mp h
  obtain ⟨row, hrow, h⟩ := bind_ok.mp h
  obtain ⟨s₁, hwrite, h⟩ := bind_ok.mp h
  cases pure_ok.mp h
  have hdocument : s.document? id = some document := requireAccess_ok haccess
  obtain ⟨hfound, hactive⟩ := document?_eq_some.mp hdocument
  obtain ⟨hid, hdeleted, hrowParent⟩ := updateRow_ok hrow
  have hrowId : d.id = id := hid.trans (id_of_document? hdocument)
  refine nested_written hs (updateDocument_ok (hrowId ▸ hfound) hwrite) (fun _ _ => ?_) fun p hp => ?_
  · rw [DocRow.active, hdeleted]
    exact hactive
  · rw [hrowId]
    cases hin : input.parentId with
    | none =>
      rw [hin, Option.getD_none] at hrowParent
      exact Or.inl ((parent_of_document? hdocument).trans (hrowParent.symm.trans hp))
    | some q =>
      rw [hin, Option.getD_some, hp] at hrowParent
      subst hrowParent
      obtain ⟨e, l, he, hl, -, hmoved⟩ := validateParent_ok hs (forM_ok hvalid hin)
      obtain ⟨hnot, m, hbelow, hfits⟩ := hmoved id rfl
      exact Or.inr ⟨e, l, m, he, hl, hnot, hbelow, hfits⟩

theorem nested_of_docs (hs : Nested s) (h : s'.docs = s.docs) : Nested s' := by
  have hdocument : s'.document? = s.document? := by
    funext j
    rw [Store.document?, h]
    rfl
  refine ⟨fun k p hp => ?_, ?_⟩
  · rw [hdocument]
    refine hs.parent_active k p ?_
    rwa [IsParent, h] at hp
  · have hparent : s'.parent = s.parent := by
      funext j
      rw [Store.parent, hdocument]
      rfl
    rw [hparent]
    exact hs.bounded

theorem nested_step {request : Request} (hs : Nested s) (h : step request s = .ok s') :
    Nested s' := by
  cases request with
  | elsewhere micros uuids workspaceExists members projects =>
    cases h
    exact nested_of_docs hs rfl
  | create context input =>
    obtain ⟨⟨t, d, level⟩, hcall, rfl⟩ := map_ok.mp h
    exact nested_create hs hcall
  | update context documentId input =>
    obtain ⟨⟨t, d, level⟩, hcall, rfl⟩ := map_ok.mp h
    exact nested_update hs hcall
  | setPermission context documentId userId accessLevel =>
    obtain ⟨_, -, h⟩ := bind_ok.mp h
    obtain ⟨⟨d, level⟩, -, h⟩ := bind_ok.mp h
    obtain ⟨-, h⟩ := guard_ok.mp h
    obtain ⟨-, h⟩ := guard_ok.mp h
    obtain ⟨_, -, h⟩ := bind_ok.mp h
    rw [← pure_ok.mp h]
    exact nested_of_docs hs rfl
  | removePermission context documentId userId =>
    obtain ⟨_, -, h⟩ := bind_ok.mp h
    rw [← pure_ok.mp h]
    exact nested_of_docs hs rfl

theorem nested_initial (now : Timestamptz) (uuids : ℕ → Uuid) : Nested (initial now uuids) where
  parent_active k p hp := by
    obtain ⟨d, hd, -⟩ := hp
    cases hd
  bounded k := ⟨[], .root rfl, Nat.zero_le _⟩

/-- **Invariant** of every sequence of calls. -/
theorem nested_after (now : Timestamptz) (uuids : ℕ → Uuid) (requests : List Request) :
    Nested (after now uuids requests) :=
  Runs.run_invariant (fun _ _ _ => nested_step) requests _ (nested_initial now uuids)

/-! ### The whole run -/

theorem transGen_parent (hs : Nested s) (h : TransGen (IsParent s) k p)
    (hk : s.document? k = some d) : TransGen (Forest.Parent s.parent) k p := by
  have hstep : ∀ {j q e}, s.document? j = some e → IsParent s j q → s.parent j = some q := by
    rintro j q e he ⟨f, hf, hq⟩
    rw [parent_of_document? he]
    rw [(document?_eq_some.mp he).1] at hf
    cases hf
    exact hq
  induction h using TransGen.head_induction_on generalizing d with
  | single hp => exact TransGen.single (hstep hk hp)
  | head hq _ ih =>
    obtain ⟨e, he⟩ := hs.parent_active _ _ hq
    exact TransGen.head (hstep hk hq) (ih he)

theorem acyclic_of_nested (hs : Nested s) : Digraph.Acyclic (IsParent s) := by
  intro k hk
  obtain ⟨c, -, hck⟩ := TransGen.tail'_iff.mp hk
  obtain ⟨d, hd⟩ := hs.parent_active c k hck
  exact hs.bounded.acyclic k (transGen_parent hs hk hd)

theorem depth_of_nested (hs : Nested s) (hk : s.document? k = some d) :
    {p | TransGen (IsParent s) k p}.encard + 1 ≤ maxDocumentDepth := by
  have hsub : {p | TransGen (IsParent s) k p} ⊆ {p | TransGen (Forest.Parent s.parent) k p} :=
    fun p hp => transGen_parent hs hp hk
  have hle := (Set.encard_le_encard hsub).trans (hs.bounded.encard_ancestors k)
  exact add_le_add_left hle 1

theorem descendantDepth_returns (hs : Nested s) {frames : ℕ} (hframes : s.frames ≤ frames)
    (id : Uuid) : ∃ depth, descendantDepth s frames id [] = .ok depth ∧ depth ≤ maxDocumentDepth := by
  obtain ⟨depth, hdepth, hle⟩ := descendantDepth_returns_of_frames hs.bounded
    (List.subset_cons_self id (s.documents.map DocRow.id)) frames id [] _
    (hs.bounded.within id) (by simp) List.nodup_nil (List.nil_subset _) List.mem_cons_self
    (by rw [List.length_cons, List.length_map, List.length_nil]; unfold Store.frames at hframes; omega)
  exact ⟨depth, hdepth, hle⟩

/-- **The document tree**: after any calls, with any parents, no document is its own ancestor, every
document has fewer than `maxDocumentDepth` ancestors, and `descendantDepth` returns on every id. -/
theorem tree_bounded (now : Timestamptz) (uuids : ℕ → Uuid) (requests : List Request) :
    Digraph.Acyclic (IsParent (after now uuids requests)) ∧
      (∀ d ∈ (after now uuids requests).documents,
        {p | TransGen (IsParent (after now uuids requests)) d.id p}.encard + 1 ≤ maxDocumentDepth) ∧
      ∀ (id : Uuid) (frames : ℕ), (after now uuids requests).frames ≤ frames →
        ∃ depth, descendantDepth (after now uuids requests) frames id [] = .ok depth ∧
          depth ≤ maxDocumentDepth := by
  have hs : Nested (after now uuids requests) := nested_after now uuids requests
  refine ⟨acyclic_of_nested hs, fun d hd => ?_, fun id frames hframes => ?_⟩
  · exact depth_of_nested hs (mem_documents.mp hd)
  · exact descendantDepth_returns hs hframes id

end CalmBoard.Documents
