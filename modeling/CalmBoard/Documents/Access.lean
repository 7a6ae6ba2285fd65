import CalmBoard.Documents.Hierarchy
import CalmBoard.Lib.Memo
import Mathlib.Order.Bounds.Basic

/-!
# CalmBoard.Documents.Access — the access a document passes down

`loadAccessState` reads the documents and the grants once and answers every query from one cache.

* `resolveCached`, `resolveAll`: `resolve` with the cache, and queries one after the other.
* `Direct`, `Inherits`, `Levels`: what a document gives by itself, the documents it takes access
  from, and the levels of all of them.
* `resolve_strongest`: whatever is asked before, the answer is the strongest of the levels; without
  the inheritance of a document or without a grant nobody has more.
-/

namespace CalmBoard.Documents

open Fallible Relation Memo

/-! ### The cached resolution -/

abbrev AccessCache := Cache Uuid (Option AccessLevel)

/-- `resolve` with `accessCache` and the frames that are left. -/
def resolveCached (s : Store) (context : Context) (actorId : Uuid) :
    ℕ → List Uuid → Uuid → AccessCache → Except RepoError (Option AccessLevel × AccessCache)
  | 0, _, _, _ => throw stackOverflow
  | frames + 1, visited, documentId, cache =>
    match cache documentId with
    | some cached => return (cached, cache)
    | none =>
      match s.document? documentId with
      | none => return (none, cache)
      | some document =>
        if documentId ∈ visited then return (none, cache)
        else
          let access := ownAccess s context actorId document
          match document.inheritPermissions, document.parentId with
          | true, some parentId => do
            let (inherited, cache) ←
              resolveCached s context actorId frames (documentId :: visited) parentId cache
            let access := strongestAccess access inherited
            return (access, cache.set documentId access)
          | _, _ => return (access, cache.set documentId access)

/-- The answers to queries on one loaded state. -/
def resolveAll (s : Store) (context : Context) (actorId : Uuid) (frames : ℕ) (queries : List Uuid) :
    Except RepoError (List (Option AccessLevel)) :=
  Prod.fst <$> ask (resolveCached s context actorId frames []) queries .empty

/-! ### The levels of a document -/

instance : LinearOrder AccessLevel := LinearOrder.lift' accessRank (by
  intro a b h
  cases a <;> cases b <;> first | rfl | cases h)

/-- What the document gives the actor by itself. -/
inductive Direct (s : Store) (context : Context) (actorId : Uuid) (d : DocRow) : AccessLevel → Prop
  | manages (h : context.canManageWorkspaceDocuments = true ∨ d.authorId = actorId) :
    Direct s context actorId d .manager
  | granted {g : PermissionRow} (hg : g ∈ s.permissions) (hdoc : g.docId = d.id)
    (huser : g.userId = actorId) : Direct s context actorId d g.accessLevel
  | workspace {level : AccessLevel} (h : d.workspaceAccess.level = some level) :
    Direct s context actorId d level
  | isPublic (h : d.isPublic = true) : Direct s context actorId d .viewer

/-- The document inherits the permissions of its parent. -/
def InheritsFrom (s : Store) (k p : Uuid) : Prop :=
  ∃ d, s.document? k = some d ∧ d.inheritPermissions = true ∧ d.parentId = some p

/-- Through an unbroken chain. -/
def Inherits (s : Store) : Uuid → Uuid → Prop := ReflTransGen (InheritsFrom s)

/-- The levels of the document and of every document it inherits from. -/
def Levels (s : Store) (context : Context) (actorId k : Uuid) : Set AccessLevel :=
  {level | ∃ p d, Inherits s k p ∧ s.document? p = some d ∧ Direct s context actorId d level}

/-- The strongest of some levels; none of them is no access. -/
def Strongest (levels : Set AccessLevel) : Option AccessLevel → Prop
  | none => levels = ∅
  | some level => IsGreatest levels level

/-- No more access. -/
def AtMost : Option AccessLevel → Option AccessLevel → Prop
  | none, _ => True
  | some _, none => False
  | some a, some b => a ≤ b

/-- `document_permissions_doc_user_unique` -/
def UniqueGrants (s : Store) : Prop :=
  ∀ g ∈ s.permissions, ∀ h ∈ s.permissions, g.docId = h.docId → g.userId = h.userId → g = h

variable {s s' : Store} {context : Context} {actorId k p : Uuid} {d : DocRow}

/-! ### The strongest level -/

theorem Strongest.union {A B : Set AccessLevel} {a b : Option AccessLevel} (ha : Strongest A a)
    (hb : Strongest B b) : Strongest (A ∪ B) (strongestAccess a b) := by
  cases b with
  | none =>
    have hempty : B = ∅ := hb
    rw [hempty, Set.union_empty]
    exact ha
  | some b =>
    cases a with
    | none =>
      have hempty : A = ∅ := ha
      rw [hempty, Set.empty_union]
      exact hb
    | some a =>
      have hmax : IsGreatest (A ∪ B) (max a b) := IsGreatest.union ha hb
      by_cases hlt : accessRank b > accessRank a
      · have hle : a ≤ b := hlt.le
        rw [max_eq_right hle] at hmax
        rw [strongestAccess, if_pos hlt]
        exact hmax
      · have hle : b ≤ a := not_lt.mp hlt
        rw [max_eq_left hle] at hmax
        rw [strongestAccess, if_neg hlt]
        exact hmax

theorem Strongest.atMost {A B : Set AccessLevel} {a b : Option AccessLevel} (ha : Strongest A a)
    (hb : Strongest B b) (h : A ⊆ B) : AtMost a b := by
  cases a with
  | none => trivial
  | some a =>
    have hmem : a ∈ B := h ha.1
    cases b with
    | none =>
      have hempty : B = ∅ := hb
      rw [hempty] at hmem
      exact hmem
    | some b => exact hb.2 hmem

theorem strongest_one {P : Prop} [Decidable P] (level : AccessLevel) :
    Strongest {l | P ∧ l = level} (if P then some level else none) := by
  by_cases h : P
  · rw [if_pos h]
    exact ⟨⟨h, rfl⟩, fun l hl => hl.2.le⟩
  · rw [if_neg h]
    exact Set.eq_empty_of_forall_notMem fun l hl => h hl.1

theorem strongest_option (o : Option AccessLevel) : Strongest {l | o = some l} o := by
  cases o with
  | none => exact Set.eq_empty_of_forall_notMem fun l hl => by cases hl
  | some level => exact ⟨rfl, fun l hl => (Option.some.inj hl).ge⟩

/-! ### The specification of one document -/

theorem grant?_eq_some (hgrants : UniqueGrants s) {level : AccessLevel} :
    s.grant? actorId k = some level ↔
      ∃ g ∈ s.permissions, g.docId = k ∧ g.userId = actorId ∧ g.accessLevel = level := by
  unfold Store.grant?
  rw [Option.map_eq_some_iff]
  constructor
  · rintro ⟨g, hg, rfl⟩
    have hkey := List.find?_some hg
    rw [decide_eq_true_eq] at hkey
    exact ⟨g, List.mem_of_find?_eq_some hg, hkey.1, hkey.2, rfl⟩
  · rintro ⟨g, hg, rfl, rfl, rfl⟩
    have hfound : (s.permissions.find? fun h => h.docId = g.docId ∧ h.userId = g.userId).isSome := by
      rw [List.find?_isSome]
      exact ⟨g, hg, by simp⟩
    obtain ⟨h, hh⟩ := Option.isSome_iff_exists.mp hfound
    have hkey := List.find?_some hh
    rw [decide_eq_true_eq] at hkey
    have hsame : h = g := hgrants h (List.mem_of_find?_eq_some hh) g hg hkey.1 hkey.2
    exact ⟨h, hh, congrArg PermissionRow.accessLevel hsame⟩

theorem ownAccess_strongest (hgrants : UniqueGrants s) (context : Context) (actorId : Uuid)
    (d : DocRow) : Strongest {l | Direct s context actorId d l} (ownAccess s context actorId d) := by
  have hsplit : {l | Direct s context actorId d l} =
      (({l | (context.canManageWorkspaceDocuments = true ∨ d.authorId = actorId) ∧ l = .manager} ∪
        {l | s.grant? actorId d.id = some l}) ∪ {l | d.workspaceAccess.level = some l}) ∪
        {l | d.isPublic = true ∧ l = .viewer} := by
    ext l
    constructor
    · rintro (h | ⟨hg, hdoc, huser⟩ | h | h)
      · exact .inl (.inl (.inl ⟨h, rfl⟩))
      · exact .inl (.inl (.inr ((grant?_eq_some hgrants).mpr ⟨_, hg, hdoc, huser, rfl⟩)))
      · exact .inl (.inr h)
      · exact .inr ⟨h, rfl⟩
    · rintro (((⟨h, rfl⟩ | h) | h) | ⟨h, rfl⟩)
      · exact .manages h
      · obtain ⟨g, hg, hdoc, huser, rfl⟩ := (grant?_eq_some hgrants).mp h
        exact .granted hg hdoc huser
      · exact .workspace h
      · exact .isPublic h
  rw [hsplit]
  have hwide := ((strongest_one (P := context.canManageWorkspaceDocuments = true ∨
    d.authorId = actorId) .manager).union (strongest_option (s.grant? actorId d.id))).union
      (strongest_option d.workspaceAccess.level)
  have hall := hwide.union (strongest_one (P := d.isPublic = true) .viewer)
  unfold ownAccess
  by_cases hpublic : d.isPublic = true
  · simpa only [hpublic, if_true] using hall
  · rw [if_neg hpublic]
    rw [if_neg hpublic] at hall
    exact hall

theorem levels_none (hk : s.document? k = none) : Levels s context actorId k = ∅ := by
  refine Set.eq_empty_of_forall_notMem ?_
  rintro level ⟨p, d, hp, hd, -⟩
  rcases ReflTransGen.cases_head hp with rfl | ⟨q, ⟨e, he, -⟩, -⟩
  · rw [hk] at hd
    cases hd
  · rw [hk] at he
    cases he

theorem levels_own (hk : s.document? k = some d)
    (hup : ∀ p, ¬(d.inheritPermissions = true ∧ d.parentId = some p)) :
    Levels s context actorId k = {l | Direct s context actorId d l} := by
  ext level
  constructor
  · rintro ⟨p, e, hp, he, hlevel⟩
    rcases ReflTransGen.cases_head hp with rfl | ⟨q, ⟨d', hd', hq⟩, -⟩
    · obtain rfl := Option.some.inj (hk.symm.trans he)
      exact hlevel
    · obtain rfl := Option.some.inj (hk.symm.trans hd')
      exact absurd hq (hup q)
  · exact fun hlevel => ⟨k, d, .refl, hk, hlevel⟩

theorem levels_inherited (hk : s.document? k = some d) (hinherit : d.inheritPermissions = true)
    (hparent : d.parentId = some p) :
    Levels s context actorId k = {l | Direct s context actorId d l} ∪ Levels s context actorId p := by
  ext level
  constructor
  · rintro ⟨q, e, hq, he, hlevel⟩
    rcases ReflTransGen.cases_head hq with rfl | ⟨r, ⟨d', hd', -, hr⟩, hrest⟩
    · obtain rfl := Option.some.inj (hk.symm.trans he)
      exact .inl hlevel
    · obtain rfl := Option.some.inj (hk.symm.trans hd')
      obtain rfl := Option.some.inj (hparent.symm.trans hr)
      exact .inr ⟨q, e, hrest, he, hlevel⟩
  · rintro (hlevel | ⟨q, e, hq, he, hlevel⟩)
    · exact ⟨k, d, .refl, hk, hlevel⟩
    · exact ⟨q, e, .head ⟨d, hk, hinherit, hparent⟩ hq, he, hlevel⟩

/-! ### The recursion with the cache -/

/-- The answer for a document. -/
def Answers (s : Store) (context : Context) (actorId k : Uuid) (r : Option AccessLevel) : Prop :=
  Strongest (Levels s context actorId k) r

/-- The induction is on the frames; the documents already visited lie strictly below the one that is
asked for, so that in an acyclic set it is not among them. -/
theorem resolveCached_answers (hacyclic : Digraph.Acyclic (Forest.Parent s.parent))
    (hgrants : UniqueGrants s) (context : Context) (actorId : Uuid) :
    ∀ (frames : ℕ) (visited : List Uuid) (k : Uuid) (cache : AccessCache),
      cache.Sound (Answers s context actorId) →
      (∀ x ∈ visited, TransGen (Forest.Parent s.parent) x k) → visited.Nodup →
      visited ⊆ s.documents.map DocRow.id → s.documents.length < frames + visited.length →
        ∃ r cache', resolveCached s context actorId frames visited k cache = .ok (r, cache') ∧
          Answers s context actorId k r ∧ cache'.Sound (Answers s context actorId)
  | 0, visited, k, cache, _, _, hnodup, hsub, hlen => by
    have := frames_pos hnodup hsub (by rwa [List.length_map])
    omega
  | frames + 1, visited, k, cache, hcache, hbelow, hnodup, hsub, hlen => by
    cases hc : cache k with
    | some cached => exact ⟨cached, cache, by simp only [resolveCached, hc]; rfl, hcache k _ hc, hcache⟩
    | none =>
      cases hd : s.document? k with
      | none =>
        exact ⟨none, cache, by simp only [resolveCached, hc, hd]; rfl, levels_none hd, hcache⟩
      | some d =>
        have hfresh : k ∉ visited := fun hmem => hacyclic k (hbelow k hmem)
        have hown := ownAccess_strongest hgrants context actorId d
        by_cases hup : ∃ p, d.inheritPermissions = true ∧ d.parentId = some p
        · obtain ⟨p, hinherit, hparent⟩ := hup
          have hstep : Forest.Parent s.parent k p := (parent_of_document? hd).trans hparent
          have hmem : k ∈ s.documents.map DocRow.id := by
            obtain rfl := id_of_document? hd
            exact List.mem_map_of_mem (mem_documents.mpr hd)
          obtain ⟨inherited, cache', hrec, hinherited, hcache'⟩ :=
            resolveCached_answers hacyclic hgrants context actorId frames (k :: visited) p cache hcache
              (fun x hx => by
                rcases List.mem_cons.mp hx with rfl | hx
                · exact .single hstep
                · exact .tail (hbelow x hx) hstep)
              (List.nodup_cons.mpr ⟨hfresh, hnodup⟩) (List.cons_subset.mpr ⟨hmem, hsub⟩)
              (by rw [List.length_cons]; omega)
          have hanswer : Answers s context actorId k
              (strongestAccess (ownAccess s context actorId d) inherited) := by
            rw [Answers, levels_inherited hd hinherit hparent]
            exact hown.union hinherited
          refine ⟨_, _, ?_, hanswer, hcache'.set hanswer⟩
          simp only [resolveCached, hc, hd, if_neg hfresh, hinherit, hparent, hrec]
          rfl
        · have hanswer : Answers s context actorId k (ownAccess s context actorId d) := by
            rw [Answers, levels_own hd fun p hp => hup ⟨p, hp⟩]
            exact hown
          refine ⟨_, _, ?_, hanswer, hcache.set hanswer⟩
          simp only [resolveCached, hc, hd, if_neg hfresh]
          split
          · next p hinherit hparent => exact absurd ⟨p, hinherit, hparent⟩ hup
          · rfl

theorem resolveAll_answers (hacyclic : Digraph.Acyclic (Forest.Parent s.parent))
    (hgrants : UniqueGrants s) (context : Context) (actorId : Uuid) {frames : ℕ}
    (hframes : s.documents.length < frames) (queries : List Uuid) :
    ∃ answers, resolveAll s context actorId frames queries = .ok answers ∧
      List.Forall₂ (Answers s context actorId) queries answers := by
  obtain ⟨answers, cache, hask, hall, -⟩ := ask_right (R := Answers s context actorId)
    (fun k cache hcache => resolveCached_answers hacyclic hgrants context actorId frames [] k cache
      hcache (fun x hx => by cases hx) List.nodup_nil (List.nil_subset _) (by simpa using hframes))
    queries .empty Cache.sound_empty
  exact ⟨answers, by rw [resolveAll, hask]; rfl, hall⟩

/-! ### Less inheritance, fewer grants -/

/-- `s'` is `s` with less inheritance and fewer grants. -/
structure Narrowed (s s' : Store) : Prop where
  document : ∀ {k d'}, s'.document? k = some d' → ∃ d, s.document? k = some d ∧ d'.id = d.id ∧
    d'.authorId = d.authorId ∧ d'.workspaceAccess = d.workspaceAccess ∧ d'.isPublic = d.isPublic ∧
      d'.parentId = d.parentId ∧ (d'.inheritPermissions = true → d.inheritPermissions = true)
  permissions : s'.permissions ⊆ s.permissions

namespace Narrowed

variable (h : Narrowed s s')

include h

theorem acyclic (hacyclic : Digraph.Acyclic (Forest.Parent s.parent)) :
    Digraph.Acyclic (Forest.Parent s'.parent) := by
  refine hacyclic.mono fun k p hp => ?_
  obtain ⟨d', hd', hparent⟩ := Option.bind_eq_some_iff.mp hp
  obtain ⟨d, hd, -, -, -, -, hsame, -⟩ := h.document hd'
  exact (parent_of_document? hd).trans (hsame ▸ hparent)

theorem uniqueGrants (hgrants : UniqueGrants s) : UniqueGrants s' :=
  fun g hg g' hg' => hgrants g (h.permissions hg) g' (h.permissions hg')

theorem inherits {p : Uuid} (hp : Inherits s' k p) : Inherits s k p := by
  refine ReflTransGen.mono ?_ k p hp
  rintro a b ⟨d', hd', hinherit, hparent⟩
  obtain ⟨d, hd, -, -, -, -, hsame, hmore⟩ := h.document hd'
  exact ⟨d, hd, hmore hinherit, hsame ▸ hparent⟩

theorem levels (context : Context) (actorId k : Uuid) :
    Levels s' context actorId k ⊆ Levels s context actorId k := by
  rintro level ⟨p, d', hp, hd', hlevel⟩
  obtain ⟨d, hd, hid, hauthor, haccess, hpublic, -, -⟩ := h.document hd'
  refine ⟨p, d, h.inherits hp, hd, ?_⟩
  rcases hlevel with hmanages | ⟨hg, hdoc, huser⟩ | hworkspace | hviewer
  · exact .manages (hauthor ▸ hmanages)
  · exact .granted (h.permissions hg) (hid ▸ hdoc) huser
  · exact .workspace (haccess ▸ hworkspace)
  · exact .isPublic (hpublic ▸ hviewer)

theorem resolveAll (hacyclic : Digraph.Acyclic (Forest.Parent s.parent)) (hgrants : UniqueGrants s)
    {queries : List Uuid} {answers : List (Option AccessLevel)}
    (hanswers : List.Forall₂ (Answers s context actorId) queries answers) :
    ∃ answers', Documents.resolveAll s' context actorId s'.frames queries = .ok answers' ∧
      List.Forall₂ AtMost answers' answers := by
  have hframes : s'.documents.length < s'.frames := by
    unfold Store.frames
    omega
  obtain ⟨answers', hresolve, hanswers'⟩ := resolveAll_answers (h.acyclic hacyclic)
    (h.uniqueGrants hgrants) context actorId hframes queries
  refine ⟨answers', hresolve, ?_⟩
  clear hresolve
  induction hanswers' generalizing answers with
  | nil =>
    cases hanswers
    exact .nil
  | @cons k r' ks rs' hr' hrest ih =>
    obtain _ | ⟨hr, hanswers⟩ := hanswers
    exact .cons (hr'.atMost hr (h.levels context actorId k)) (ih hanswers)

end Narrowed

theorem narrowed_removePermission {user : Uuid}
    (h : removePermission s context k user = .ok s') : Narrowed s s' := by
  unfold removePermission at h
  obtain ⟨_, -, h⟩ := bind_ok.mp h
  rw [← pure_ok.mp h]
  refine ⟨fun {j d'} hd' => ⟨d', hd', rfl, rfl, rfl, rfl, rfl, id⟩, ?_⟩
  exact List.filter_subset_self _

theorem narrowed_update {row : DocRow} {level : AccessLevel}
    (h : update s context k { inheritPermissions := some false } = .ok (s', row, level)) :
    Narrowed s s' := by
  unfold update at h
  obtain ⟨⟨document, accessLevel⟩, haccess, h⟩ := bind_ok.mp h
  obtain ⟨_, -, h⟩ := bind_ok.mp h
  obtain ⟨_, -, h⟩ := bind_ok.mp h
  obtain ⟨row', hrow, h⟩ := bind_ok.mp h
  obtain ⟨s₁, hs₁, h⟩ := bind_ok.mp h
  cases pure_ok.mp h
  have hd := requireAccess_ok haccess
  obtain rfl := id_of_document? hd
  obtain ⟨hid, hdeleted, -⟩ := updateRow_ok hrow
  have hfind := updateDocument_ok (hid ▸ (document?_eq_some.mp hd).1) hs₁
  have hpermissions : s'.permissions = s.permissions := by
    unfold updateDocument at hs₁
    obtain ⟨_, -, hs₁⟩ := bind_ok.mp hs₁
    obtain ⟨_, -, hs₁⟩ := bind_ok.mp hs₁
    rw [← pure_ok.mp hs₁]
  have hkept : row.authorId = document.authorId ∧ row.workspaceAccess = document.workspaceAccess ∧
      row.isPublic = document.isPublic ∧ row.parentId = document.parentId ∧
        row.inheritPermissions = false := by
    unfold updateRow at hrow
    obtain ⟨_, -, hrow⟩ := bind_ok.mp hrow
    obtain ⟨_, -, hrow⟩ := bind_ok.mp hrow
    rw [← pure_ok.mp hrow]
    exact ⟨rfl, rfl, rfl, rfl, rfl⟩
  obtain ⟨hauthor, hworkspace, hpublic, hparent, hinherit⟩ := hkept
  refine ⟨fun {j d'} hd' => ?_, hpermissions ▸ List.Subset.refl _⟩
  obtain ⟨hfound, hactive⟩ := document?_eq_some.mp hd'
  rw [hfind j] at hfound
  by_cases hj : row.id = j
  · rw [if_pos hj] at hfound
    cases hfound
    refine ⟨document, ?_, hid, hauthor, hworkspace, hpublic, hparent, ?_⟩
    · rw [← hj, hid]
      exact hd
    · intro hon
      rw [hinherit] at hon
      cases hon
  · rw [if_neg hj] at hfound
    exact ⟨d', document?_eq_some.mpr ⟨hfound, hactive⟩, rfl, rfl, rfl, rfl, rfl, id⟩

/-- **Document access**: in an acyclic set of documents every query, whatever is asked before it, is
answered with the strongest level of the document and the documents it inherits from.  After the
inheritance of a document is turned off, or a grant removed, the same queries answer with no more. -/
theorem resolve_strongest {s : Store} (hacyclic : Digraph.Acyclic (Forest.Parent s.parent))
    (hgrants : UniqueGrants s) (context : Context) (actorId : Uuid) (queries : List Uuid) :
    ∃ answers, resolveAll s context actorId s.frames queries = .ok answers ∧
      List.Forall₂ (fun k r => Strongest (Levels s context actorId k) r) queries answers ∧
      (∀ caller k s' row level,
        update s caller k { inheritPermissions := some false } = .ok (s', row, level) →
          ∃ answers', resolveAll s' context actorId s'.frames queries = .ok answers' ∧
            List.Forall₂ AtMost answers' answers) ∧
      ∀ caller k user s', removePermission s caller k user = .ok s' →
        ∃ answers', resolveAll s' context actorId s'.frames queries = .ok answers' ∧
          List.Forall₂ AtMost answers' answers := by
  have hframes : s.documents.length < s.frames := by
    unfold Store.frames
    omega
  obtain ⟨answers, hresolve, hanswers⟩ :=
    resolveAll_answers hacyclic hgrants context actorId hframes queries
  refine ⟨answers, hresolve, hanswers, ?_, ?_⟩
  · intro caller k s' row level h
    exact (narrowed_update h).resolveAll hacyclic hgrants hanswers
  · intro caller k user s' h
    exact (narrowed_removePermission h).resolveAll hacyclic hgrants hanswers

theorem acyclic_parent (hs : Nested s) : Digraph.Acyclic (Forest.Parent s.parent) :=
  (acyclic_of_nested hs).mono fun _ _ h => isParent_of_parent h

/-- User 1 writes document 7 and document 8 below it, both private, and lets user 2 edit 7. -/
def sharedDrafts : Store :=
  after ⟨0⟩ id [.elsewhere 0 0 true [1, 2] [],
    .create { actorId := some 1 } { id := some 7, title := "Plan", workspaceAccess := some .none },
    .create { actorId := some 1 }
      { id := some 8, title := "Notes", parentId := some 7, workspaceAccess := some .none },
    .setPermission { actorId := some 1 } 7 2 .editor]

theorem resolve_sharedDrafts :
    ∃ answers, resolveAll sharedDrafts { actorId := some 2 } 2 sharedDrafts.frames [8, 7] =
        .ok answers ∧ answers = [some .editor, some .editor] ∧
      ∃ s' row level, update sharedDrafts { actorId := some 1 } 8
          { inheritPermissions := some false } = .ok (s', row, level) ∧
        ∃ answers', resolveAll s' { actorId := some 2 } 2 s'.frames [8, 7] = .ok answers' ∧
          List.Forall₂ AtMost answers' [some .editor, some .editor] := by
  obtain ⟨answers, hanswers, -, hupdate, -⟩ := resolve_strongest (s := sharedDrafts)
    (acyclic_parent (nested_after ..)) (by unfold UniqueGrants; decide)
      { actorId := some 2 } 2 [8, 7]
  have hrun : resolveAll sharedDrafts { actorId := some 2 } 2 sharedDrafts.frames [8, 7] =
      .ok [some .editor, some .editor] := by decide
  obtain rfl := Except.ok.inj (hrun.symm.trans hanswers)
  have hok : (update sharedDrafts { actorId := some 1 } 8
      { inheritPermissions := some false }).toOption.any (fun _ => true) = true := by decide
  obtain ⟨⟨s', row, level⟩, hs', -⟩ := Fallible.exists_ok hok
  exact ⟨_, hanswers, rfl, s', row, level, hs', hupdate _ _ s' row level hs'⟩

end CalmBoard.Documents
