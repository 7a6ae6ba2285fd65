import CalmBoard.Lib.Forest
import Mathlib.Data.List.Nodup
import Mathlib.Data.List.Perm.Basic

/-!
# CalmBoard.Lib.Preorder — a forest as a list with depths

Nodes have parent pointers that need not lead to a root; what a walk from the roots does not reach is
listed behind it.

* `preorder`: the walk, down to a number of levels.
* `mem_preorder`: it meets the nodes whose chain of parents ends, each at the length of its chain.
* `preorder_split`: what stands before and behind a node.
* `flatten`: the walk and the nodes that it leaves out.
* `flatten_perm`, `flatten_siblings`, `flatten_subtree`: what the list says about the forest.
-/

namespace CalmBoard.Preorder

open Forest Relation

variable {α : Type*} {up : α → Option α} {nodes : List α} {children : Option α → List α}
  {p : Option α} {n depth : ℕ} {x : α × ℕ}

/-- `children p` lists the nodes whose parent is `p`, for `none` the roots. -/
structure Children [DecidableEq α] (up : α → Option α) (nodes : List α)
    (children : Option α → List α) : Prop where
  eq_filter : ∀ p, children p = nodes.filter fun a => up a = p
  distinct : nodes.Nodup
  closed : ∀ {a b}, up a = some b → b ∈ nodes

/-- The nodes below `p`, each before its own subtree, on `n` levels. -/
def preorder (children : Option α → List α) : ℕ → Option α → ℕ → List (α × ℕ)
  | 0, _, _ => []
  | n + 1, p, depth =>
    (children p).flatMap fun a => (a, depth) :: preorder children n (some a) (depth + 1)

theorem preorder_succ (n : ℕ) (p : Option α) (depth : ℕ) :
    preorder children (n + 1) p depth =
      (children p).flatMap fun a => (a, depth) :: preorder children n (some a) (depth + 1) := rfl

theorem le_depth (h : x ∈ preorder children n p depth) : depth ≤ x.2 := by
  induction n generalizing p depth with
  | zero => cases h
  | succ n ih =>
    rw [preorder_succ, List.mem_flatMap] at h
    obtain ⟨a, -, hx⟩ := h
    rcases List.mem_cons.mp hx with rfl | hx
    · exact le_rfl
    · exact (Nat.le_succ depth).trans (ih hx)

/-! ### Levels -/

variable {a : α}

/-- No node stands on the last level, so that a deeper walk finds nothing more. -/
def Enough (children : Option α → List α) (n : ℕ) (p : Option α) (depth : ℕ) : Prop :=
  0 < n ∧ ∀ x ∈ preorder children n p depth, x.2 + 1 < depth + n

theorem Enough.child (h : Enough children (n + 1) p depth) (ha : a ∈ children p) :
    Enough children n (some a) (depth + 1) := by
  have hmem : ∀ x ∈ (a, depth) :: preorder children n (some a) (depth + 1),
      x.2 + 1 < depth + (n + 1) := fun x hx => h.2 x (List.mem_flatMap.mpr ⟨a, ha, hx⟩)
  refine ⟨?_, fun x hx => ?_⟩
  · have := hmem (a, depth) List.mem_cons_self
    simp only at this
    omega
  · have := hmem x (List.mem_cons_of_mem _ hx)
    omega

theorem preorder_stable {m : ℕ} (h : Enough children n p depth) (hle : n ≤ m) :
    preorder children m p depth = preorder children n p depth := by
  induction n generalizing m p depth with
  | zero => exact absurd h.1 (lt_irrefl 0)
  | succ n ih =>
    obtain ⟨m, rfl⟩ := Nat.exists_eq_add_of_le' (show 1 ≤ m by omega)
    rw [preorder_succ, preorder_succ]
    refine List.flatMap_congr fun a ha => ?_
    rw [ih (h.child ha) (by omega)]

/-! ### Subtrees -/

/-- **Splits**: before a node stands its parent, behind it first its subtree and then a node of at most
its depth. -/
theorem preorder_split {before after : List (α × ℕ)} (hup : ∀ {p a}, a ∈ children p → up a = p)
    (h : preorder children n p depth = before ++ x :: after) :
    (up x.1 = p ∨ ∃ b ∈ before, up x.1 = some b.1) ∧
      ∃ m rest, after = preorder children m (some x.1) (x.2 + 1) ++ rest ∧ m + x.2 + 1 = n + depth ∧
        ∀ y ∈ rest.head?, y.2 ≤ x.2 := by
  induction n generalizing p depth before after with
  | zero => simp [preorder] at h
  | succ n ih =>
    rw [preorder_succ] at h
    have hmem : ∀ c ∈ children p, up c = p := fun c => hup
    generalize children p = siblings at h hmem
    induction siblings generalizing before after with
    | nil => simp at h
    | cons c siblings ihs =>
      rw [List.flatMap_cons, List.cons_append] at h
      cases before with
      | nil =>
        obtain ⟨rfl, rfl⟩ := List.cons.inj h
        refine ⟨Or.inl (hmem c List.mem_cons_self), n, _, rfl, by omega, fun y hy => ?_⟩
        cases siblings with
        | nil => cases hy
        | cons d siblings => cases hy; exact le_rfl
      | cons b before =>
        rw [List.cons_append, List.cons.injEq] at h
        obtain ⟨rfl, htail⟩ := h
        rcases List.append_eq_append_iff.mp htail with ⟨more, rfl, hlater⟩ | ⟨more, hblock, hafter⟩
        · -- among the later siblings or below them
          obtain ⟨hparent, hrest⟩ := ihs hlater fun d hd => hmem d (List.mem_cons_of_mem _ hd)
          refine ⟨hparent.imp_right fun ⟨q, hq, hqup⟩ => ⟨q, ?_, hqup⟩, hrest⟩
          exact List.mem_cons_of_mem _ (List.mem_append_right _ hq)
        · cases more with
          | nil =>
            have hlater : (siblings.flatMap fun a =>
                (a, depth) :: preorder children n (some a) (depth + 1)) = [] ++ x :: after := hafter.symm
            obtain ⟨hparent, hrest⟩ := ihs hlater fun d hd => hmem d (List.mem_cons_of_mem _ hd)
            refine ⟨hparent.imp_right ?_, hrest⟩
            rintro ⟨q, hq, -⟩
            cases hq
          | cons y more =>
            -- below the first sibling
            rw [List.cons_append, List.cons.injEq] at hafter
            obtain ⟨rfl, rfl⟩ := hafter
            obtain ⟨hparent, m, rest, rfl, hm, hrest⟩ := ih hblock
            have hdeep : depth + 1 ≤ x.2 := by
              have hx : x ∈ preorder children n (some c) (depth + 1) := by simp [hblock]
              exact le_depth hx
            refine ⟨Or.inr ?_, m, rest ++ _, by rw [List.append_assoc], by omega, fun y hy => ?_⟩
            · rcases hparent with hparent | ⟨q, hq, hqup⟩
              · exact ⟨(c, depth), List.mem_cons_self, hparent⟩
              · exact ⟨q, List.mem_cons_of_mem _ hq, hqup⟩
            · cases rest with
              | cons z rest => exact hrest y hy
              | nil =>
                cases siblings with
                | nil => cases hy
                | cons d siblings =>
                  cases hy
                  show depth ≤ x.2
                  omega

/-! ### Chains -/

variable {l : List α}

/-- The chain of a node whose parent is `p`. -/
def Above (up : α → Option α) : Option α → List α → Prop
  | none, l => l = []
  | some q, l => ∃ rest, l = q :: rest ∧ Chain up q rest

theorem chain_iff_above : Chain up a l ↔ Above up (up a) l := by
  constructor
  · intro h
    cases h with
    | root h => rw [h]; exact rfl
    | step h rest => rw [h]; exact ⟨_, rfl, rest⟩
  · intro h
    cases hup : up a with
    | none =>
      rw [hup] at h
      obtain rfl : l = [] := h
      exact .root hup
    | some q =>
      rw [hup] at h
      obtain ⟨rest, rfl, hrest⟩ := h
      exact .step hup hrest

theorem Above.unique {q : Option α} (hp : Above up p l) (hq : Above up q l) : p = q := by
  cases p with
  | none =>
    obtain rfl : l = [] := hp
    cases q with
    | none => rfl
    | some b => obtain ⟨_, h, -⟩ := hq; cases h
  | some a =>
    obtain ⟨rest, rfl, -⟩ := hp
    cases q with
    | none => cases (hq : a :: rest = [])
    | some b => obtain ⟨_, h, -⟩ := hq; cases h; rfl

theorem chain_of_append {c : α} {m : List α} (h : Chain up a (m ++ c :: l)) : Chain up c l := by
  induction m generalizing a with
  | nil => cases h with | step _ rest => exact rest
  | cons b m ih => cases h with | step _ rest => exact ih rest

theorem exists_chain_of_transGen {b : α} (h : TransGen (Parent up) b a) (hl : Chain up a l) :
    ∃ m, Chain up b (m ++ a :: l) := by
  induction h using TransGen.head_induction_on with
  | single hup => exact ⟨[], .step hup hl⟩
  | head hup _ ih =>
    obtain ⟨m, hm⟩ := ih
    exact ⟨_ :: m, .step hup hm⟩

variable [DecidableEq α]

theorem Children.mem (hc : Children up nodes children) : a ∈ children p ↔ a ∈ nodes ∧ up a = p := by
  rw [hc.eq_filter, List.mem_filter, decide_eq_true_eq]

theorem Children.nodup (hc : Children up nodes children) (p : Option α) : (children p).Nodup := by
  rw [hc.eq_filter]
  exact hc.distinct.filter _

theorem Children.mem_of_chain (hc : Children up nodes children) {b : α} (h : Chain up a l)
    (hb : b ∈ l) : b ∈ nodes := by
  induction h with
  | root => cases hb
  | step hp rest ih =>
    rcases List.mem_cons.mp hb with rfl | hb
    · exact hc.closed hp
    · exact ih hb

theorem Children.chain_child (hc : Children up nodes children) (hl : Above up p l) {c : α}
    (h : c ∈ children p) : Chain up c l :=
  chain_iff_above.mpr ((hc.mem.mp h).2.symm ▸ hl)

theorem Children.above_child (hc : Children up nodes children) (hl : Above up p l) {c : α}
    (h : c ∈ children p) : Above up (some c) (c :: l) :=
  ⟨l, rfl, hc.chain_child hl h⟩

/-- **Membership**: a chain that ends in the one above `p` is met at its length. -/
theorem mem_preorder (hc : Children up nodes children) (hl : Above up p l) :
    x ∈ preorder children n p l.length ↔
      x.1 ∈ nodes ∧ ∃ m, m.length < n ∧ Chain up x.1 (m ++ l) ∧ x.2 = (m ++ l).length := by
  induction n generalizing p l with
  | zero => simp [preorder]
  | succ n ih =>
    rw [preorder_succ, List.mem_flatMap]
    constructor
    · rintro ⟨c, hmem, hx⟩
      rcases List.mem_cons.mp hx with rfl | hx
      · obtain ⟨hnode, hup⟩ := hc.mem.mp hmem
        exact ⟨hnode, [], Nat.succ_pos n, chain_iff_above.mpr (hup.symm ▸ hl), rfl⟩
      · obtain ⟨hnode, m, hlen, hchain, he⟩ := (ih (hc.above_child hl hmem)).mp hx
        refine ⟨hnode, m ++ [c], ?_, ?_, ?_⟩
        · rw [List.length_append, List.length_singleton]
          omega
        · rwa [List.append_assoc]
        · rwa [List.append_assoc]
    · rintro ⟨hnode, m, hlen, hchain, he⟩
      rcases m.eq_nil_or_concat with rfl | ⟨m, c, rfl⟩
      · refine ⟨x.1, hc.mem.mpr ⟨hnode, (chain_iff_above.mp hchain).unique hl⟩, ?_⟩
        exact List.mem_cons.mpr (Or.inl (Prod.ext rfl he))
      · rw [List.concat_eq_append, List.append_assoc] at hchain he
        rw [List.concat_eq_append, List.length_append, List.length_singleton] at hlen
        have hmem : c ∈ children p := hc.mem.mpr
          ⟨hc.mem_of_chain hchain (by simp),
            (chain_iff_above.mp (chain_of_append hchain)).unique hl⟩
        exact ⟨c, hmem, List.mem_cons_of_mem _
          ((ih (hc.above_child hl hmem)).mpr ⟨hnode, m, by omega, hchain, he⟩)⟩

/-! ### Distinct nodes -/

/-- A node of the part of the walk that belongs to a child has the child on its way up. -/
theorem suffix_of_mem (hc : Children up nodes children) (hl : Above up p l) {c : α}
    (hmem : c ∈ children p)
    (ha : a ∈ ((c, l.length) :: preorder children n (some c) (l.length + 1)).map Prod.fst) :
    ∃ k, Chain up a k ∧ c :: l <:+ a :: k := by
  rw [List.map_cons, List.mem_cons] at ha
  rcases ha with rfl | ha
  · exact ⟨l, hc.chain_child hl hmem, List.suffix_rfl⟩
  · obtain ⟨x, hx, rfl⟩ := List.mem_map.mp ha
    obtain ⟨-, m, -, hchain, -⟩ := (mem_preorder hc (hc.above_child hl hmem)).mp hx
    exact ⟨m ++ c :: l, hchain, x.1 :: m, rfl⟩

theorem nodup_preorder (hc : Children up nodes children) (hl : Above up p l) :
    ((preorder children n p l.length).map Prod.fst).Nodup := by
  induction n generalizing p l with
  | zero => exact List.nodup_nil
  | succ n ih =>
    rw [preorder_succ, List.map_flatMap, List.nodup_flatMap]
    refine ⟨fun c hmem => ?_, (hc.nodup p).imp_of_mem fun {c d} hmem hmem' hne => ?_⟩
    · rw [List.map_cons, List.nodup_cons]
      refine ⟨fun hself => ?_, ih (hc.above_child hl hmem)⟩
      obtain ⟨x, hx, hxc⟩ := List.mem_map.mp hself
      obtain ⟨-, m, -, hchain, -⟩ := (mem_preorder hc (hc.above_child hl hmem)).mp hx
      rw [hxc] at hchain
      exact hchain.not_mem (List.mem_append_right _ List.mem_cons_self)
    · -- one way up cannot pass two children of `p`
      refine List.disjoint_left.mpr fun a ha ha' => hne ?_
      obtain ⟨k, hk, hsuffix⟩ := suffix_of_mem hc hl hmem ha
      obtain ⟨k', hk', hsuffix'⟩ := suffix_of_mem hc hl hmem' ha'
      rw [hk'.unique hk] at hsuffix'
      have hsame := List.suffix_of_suffix_length_le hsuffix hsuffix' le_rfl
      exact (List.cons.inj (hsame.eq_of_length rfl)).1

/-! ### The whole list -/

theorem Children.chain_length (hc : Children up nodes children) (ha : a ∈ nodes)
    (h : Chain up a l) : l.length < nodes.length := by
  have hnodup : (a :: l).Nodup := List.nodup_cons.mpr ⟨h.not_mem, h.nodup⟩
  have hsub : a :: l ⊆ nodes := fun b hb => by
    rcases List.mem_cons.mp hb with rfl | hb
    · exact ha
    · exact hc.mem_of_chain h hb
  exact (hnodup.subperm hsub).length_le

theorem mem_walk (hc : Children up nodes children) (hn : nodes.length < n) :
    x ∈ preorder children n none 0 ↔ x.1 ∈ nodes ∧ ∃ l, Chain up x.1 l ∧ x.2 = l.length := by
  have hwalk := mem_preorder hc (p := none) (l := []) rfl (n := n) (x := x)
  simp only [List.append_nil, List.length_nil] at hwalk
  rw [hwalk]
  constructor
  · rintro ⟨hnode, l, -, hl, hx⟩
    exact ⟨hnode, l, hl, hx⟩
  · rintro ⟨hnode, l, hl, hx⟩
    exact ⟨hnode, l, (hc.chain_length hnode hl).trans hn, hl, hx⟩

theorem mem_walk_nodes (hc : Children up nodes children) (hn : nodes.length < n) :
    a ∈ (preorder children n none 0).map Prod.fst ↔ a ∈ nodes ∧ ∃ l, Chain up a l := by
  constructor
  · intro h
    obtain ⟨x, hx, rfl⟩ := List.mem_map.mp h
    obtain ⟨hnode, l, hl, -⟩ := (mem_walk hc hn).mp hx
    exact ⟨hnode, l, hl⟩
  · rintro ⟨hnode, l, hl⟩
    exact List.mem_map.mpr ⟨(a, l.length), (mem_walk hc hn).mpr ⟨hnode, l, hl, rfl⟩, rfl⟩

theorem nodup_walk (hc : Children up nodes children) (n : ℕ) :
    ((preorder children n none 0).map Prod.fst).Nodup := by
  have hnodup := nodup_preorder hc (p := none) (l := []) rfl (n := n)
  rwa [List.length_nil] at hnodup

theorem enough (hc : Children up nodes children) (hn : nodes.length < n) :
    Enough children n none 0 := by
  refine ⟨by omega, fun x hx => ?_⟩
  obtain ⟨hnode, l, hl, hx⟩ := (mem_walk hc hn).mp hx
  have := hc.chain_length hnode hl
  omega

/-- The walk from the roots, then the other nodes. -/
def flatten (nodes : List α) (children : Option α → List α) (n : ℕ) : List (α × ℕ) :=
  let walk := preorder children n none 0
  walk ++ (nodes.filter fun a => a ∉ walk.map Prod.fst).map fun a => (a, 0)

theorem map_flatten (n : ℕ) :
    (flatten nodes children n).map Prod.fst = (preorder children n none 0).map Prod.fst ++
      nodes.filter fun a => a ∉ (preorder children n none 0).map Prod.fst := by
  unfold flatten
  rw [List.map_append, List.map_map]
  congr 1
  exact List.map_id _

theorem flatten_perm (hc : Children up nodes children) (hn : nodes.length < n) :
    ((flatten nodes children n).map Prod.fst).Perm nodes := by
  rw [map_flatten, List.perm_ext_iff_of_nodup _ hc.distinct]
  · intro a
    rw [List.mem_append, List.mem_filter, decide_eq_true_eq]
    constructor
    · rintro (h | h)
      · exact ((mem_walk_nodes hc hn).mp h).1
      · exact h.1
    · intro h
      by_cases hwalk : a ∈ (preorder children n none 0).map Prod.fst
      · exact Or.inl hwalk
      · exact Or.inr ⟨h, hwalk⟩
  · refine (nodup_walk hc n).append (hc.distinct.filter _) fun a ha ha' => ?_
    rw [List.mem_filter, decide_eq_true_eq] at ha'
    exact ha'.2 ha

/-! ### Siblings and subtrees in the list -/

theorem mem_subtree (hc : Children up nodes children) {b : α} (hl : Chain up a l) {m : ℕ}
    (hn : nodes.length < n) (hm : m + l.length + 1 = n) :
    b ∈ (preorder children m (some a) (l.length + 1)).map Prod.fst ↔
      b ∈ nodes ∧ TransGen (Parent up) b a := by
  have habove : Above up (some a) (a :: l) := ⟨l, rfl, hl⟩
  constructor
  · intro h
    obtain ⟨x, hx, rfl⟩ := List.mem_map.mp h
    obtain ⟨hnode, k, -, hchain, -⟩ := (mem_preorder hc habove).mp hx
    exact ⟨hnode, hchain.mem_iff.mp (List.mem_append_right _ List.mem_cons_self)⟩
  · rintro ⟨hnode, htrans⟩
    obtain ⟨k, hk⟩ := exists_chain_of_transGen htrans hl
    have hlen := hc.chain_length hnode hk
    rw [List.length_append, List.length_cons] at hlen
    exact List.mem_map.mpr ⟨(b, (k ++ a :: l).length),
      (mem_preorder hc habove).mpr ⟨hnode, k, by omega, hk, rfl⟩, rfl⟩

theorem takeWhile_eq_nil {β : Type*} {q : β → Bool} {l : List β} (h : ∀ y ∈ l.head?, ¬ q y) :
    l.takeWhile q = [] := by
  cases l with
  | nil => rfl
  | cons y l => exact List.takeWhile_cons_of_neg (h y rfl)

/-- **A walked node in the list**: its depth is the length of its chain, its parent stands before it,
and its descendants are what follows it at greater depths. -/
theorem flatten_subtree (hc : Children up nodes children) (hn : nodes.length < n)
    {before after : List (α × ℕ)} (h : flatten nodes children n = before ++ x :: after)
    (hl : Chain up x.1 l) :
    x.2 = l.length ∧ (∀ p, up x.1 = some p → p ∈ before.map Prod.fst) ∧
      ∀ b, b ∈ (after.takeWhile fun y => x.2 < y.2).map Prod.fst ↔
        b ∈ nodes ∧ TransGen (Parent up) b x.1 := by
  have hsplit : ∃ more, preorder children n none 0 = before ++ x :: more ∧
      after = more ++ (nodes.filter fun a => a ∉ (preorder children n none 0).map Prod.fst).map
        fun a => (a, 0) := by
    -- a node whose chain ends is not left out
    have hout : x ∉ (nodes.filter fun a => a ∉ (preorder children n none 0).map Prod.fst).map
        fun a => (a, 0) := by
      intro hx
      obtain ⟨a, ha, rfl⟩ := List.mem_map.mp hx
      rw [List.mem_filter, decide_eq_true_eq] at ha
      exact ha.2 ((mem_walk_nodes hc hn).mpr ⟨ha.1, l, hl⟩)
    rcases List.append_eq_append_iff.mp h with ⟨swept, -, hswept⟩ | ⟨more, hwalk, hafter⟩
    · rw [hswept] at hout
      exact absurd (List.mem_append_right _ List.mem_cons_self) hout
    · cases more with
      | nil =>
        rw [List.nil_append] at hafter
        rw [← hafter] at hout
        exact absurd List.mem_cons_self hout
      | cons y more =>
        rw [List.cons_append, List.cons.injEq] at hafter
        obtain ⟨rfl, rfl⟩ := hafter
        exact ⟨more, hwalk, rfl⟩
  obtain ⟨more, hwalk, rfl⟩ := hsplit
  obtain ⟨hnode, l', hl', hx⟩ := (mem_walk hc hn).mp (show x ∈ preorder children n none 0 by simp [hwalk])
  rw [hl'.unique hl] at hx
  obtain ⟨hparent, m, rest, rfl, hm, hrest⟩ := preorder_split (fun h => (hc.mem.mp h).2) hwalk
  refine ⟨hx, fun p hp => ?_, fun b => ?_⟩
  · rcases hparent with hparent | ⟨q, hq, hparent⟩
    · rw [hp] at hparent
      cases hparent
    · rw [hp] at hparent
      exact List.mem_map.mpr ⟨q, hq, (Option.some.inj hparent).symm⟩
  · rw [List.append_assoc, List.takeWhile_append_of_pos, takeWhile_eq_nil, List.append_nil, hx]
    · exact mem_subtree hc hl hn (by omega)
    · intro y hy
      rw [decide_eq_true_eq, not_lt]
      cases rest with
      | nil =>
        obtain ⟨a, -, rfl⟩ := List.mem_map.mp (List.mem_of_mem_head? hy)
        exact Nat.zero_le _
      | cons z rest => exact hrest y hy
    · intro y hy
      exact decide_eq_true (le_depth hy)

/-- Under `p` itself the walk keeps the order of the children. -/
theorem filter_children (hc : Children up nodes children) (hl : Above up p l) (hn : 0 < n) :
    ((preorder children n p l.length).map Prod.fst).filter (fun a => up a = p) = children p := by
  obtain ⟨n, rfl⟩ := Nat.exists_eq_add_of_le' hn
  rw [preorder_succ, List.map_flatMap, List.filter_flatMap]
  have hchild : ∀ c ∈ children p, (((c, l.length) ::
      preorder children n (some c) (l.length + 1)).map Prod.fst).filter (fun a => up a = p) = [c] := by
    intro c hmem
    have hup : up c = p := (hc.mem.mp hmem).2
    rw [List.map_cons, List.filter_cons_of_pos (by simp [hup]), List.filter_eq_nil_iff.mpr]
    intro a ha hup
    obtain ⟨x, hx, rfl⟩ := List.mem_map.mp ha
    obtain ⟨-, m, -, hchain, -⟩ := (mem_preorder hc (hc.above_child hl hmem)).mp hx
    have hshort : Chain up x.1 l := chain_iff_above.mpr ((of_decide_eq_true hup).symm ▸ hl)
    have hlen := congrArg List.length (hchain.unique hshort)
    rw [List.length_append, List.length_cons] at hlen
    omega
  rw [List.flatMap_congr hchild]
  exact List.flatMap_singleton' _

theorem filter_walk (hc : Children up nodes children) (hn : nodes.length < n) (hl : Above up p l) :
    ((preorder children n none 0).map Prod.fst).filter (fun a => up a = p) = children p := by
  cases p with
  | none => exact filter_children hc (p := none) (l := []) rfl (by omega)
  | some q =>
    obtain ⟨rest, rfl, hq⟩ := hl
    by_cases hnode : q ∈ nodes
    · have hmem : (q, rest.length) ∈ preorder children n none 0 :=
        (mem_walk hc hn).mpr ⟨hnode, rest, hq, rfl⟩
      obtain ⟨before, more, hwalk⟩ := List.append_of_mem hmem
      obtain ⟨-, m, later, rfl, hm, -⟩ := preorder_split (fun h => (hc.mem.mp h).2) hwalk
      simp only at hm
      have hlen := hc.chain_length hnode hq
      have hself : up q ≠ some q := fun hup => hq.not_mem (hq.mem_iff.mpr (.single hup))
      -- what hangs on `q` stands in its subtree, so nowhere else
      have hsub : ∀ a ∈ (preorder children n none 0).map Prod.fst, up a = some q →
          a ∈ (preorder children m (some q) (rest.length + 1)).map Prod.fst := fun a ha hup =>
        (mem_subtree hc hq hn (by omega)).mpr ⟨((mem_walk_nodes hc hn).mp ha).1, .single hup⟩
      have hnodup := nodup_walk hc n
      have hown := filter_children hc (p := some q) (l := q :: rest) ⟨rest, rfl, hq⟩
        (show 0 < m by omega)
      rw [List.length_cons] at hown
      rw [hwalk, List.map_append, List.map_cons, List.map_append] at hnodup hsub ⊢
      generalize (preorder children m (some q) (rest.length + 1)).map Prod.fst = block at *
      obtain ⟨-, htail, hbefore⟩ := List.nodup_append.mp hnodup
      obtain ⟨-, -, hlater⟩ := List.nodup_append.mp (List.nodup_cons.mp htail).2
      rw [List.filter_append, List.filter_cons_of_neg (by simpa using hself), List.filter_append, hown,
        List.filter_eq_nil_iff.mpr, List.filter_eq_nil_iff.mpr, List.nil_append, List.append_nil]
      · intro a ha hup
        exact hlater a (hsub a (by simp [ha]) (of_decide_eq_true hup)) a ha rfl
      · intro a ha hup
        have hblock := hsub a (by simp [ha]) (of_decide_eq_true hup)
        exact hbefore a ha a (List.mem_cons_of_mem _ (List.mem_append_left _ hblock)) rfl
    · have hempty : children (some q) = [] := by
        rw [hc.eq_filter, List.filter_eq_nil_iff]
        intro a ha hup
        exact hnode (hc.closed (of_decide_eq_true hup))
      rw [hempty, List.filter_eq_nil_iff]
      intro a ha hup
      exact hnode (hc.closed (of_decide_eq_true hup))

/-- **Siblings**: every node lists its children in the order of the nodes. -/
theorem flatten_siblings (hc : Children up nodes children) (hn : nodes.length < n) (p : Option α) :
    ((flatten nodes children n).map Prod.fst).filter (fun a => up a = p) =
      nodes.filter fun a => up a = p := by
  rw [map_flatten, List.filter_append]
  by_cases hp : ∃ l, Above up p l
  · obtain ⟨l, hl⟩ := hp
    have hleft : (nodes.filter fun a => a ∉ (preorder children n none 0).map Prod.fst).filter
        (fun a => up a = p) = [] := by
      rw [List.filter_eq_nil_iff]
      intro a ha hup
      rw [List.mem_filter, decide_eq_true_eq] at ha
      exact ha.2 ((mem_walk_nodes hc hn).mpr
        ⟨ha.1, l, chain_iff_above.mpr ((of_decide_eq_true hup).symm ▸ hl)⟩)
    rw [filter_walk hc hn hl, hleft, List.append_nil, hc.eq_filter]
  · have hnone : ∀ a, up a = p → a ∉ (preorder children n none 0).map Prod.fst := by
      intro a hup ha
      obtain ⟨-, l, hchain⟩ := (mem_walk_nodes hc hn).mp ha
      exact hp ⟨l, hup ▸ chain_iff_above.mp hchain⟩
    rw [List.filter_eq_nil_iff.mpr fun a ha hup => hnone a (of_decide_eq_true hup) ha, List.nil_append,
      List.filter_filter]
    refine List.filter_congr fun a _ => ?_
    by_cases hup : up a = p
    · simp [hup, hnone a hup]
    · simp [hup]

end CalmBoard.Preorder
