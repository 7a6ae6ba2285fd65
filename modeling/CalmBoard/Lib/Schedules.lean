import CalmBoard.Lib.Kahn
import Mathlib.Algebra.Order.Group.Defs
import Mathlib.Algebra.Order.Group.OrderIso
import Mathlib.Tactic.Abel

/-!
# CalmBoard.Lib.Schedules — times under constraints between pairs of nodes

An edge of a graph says how long after its source its target can be earliest; this may be negative.

* `Satisfies`, `Least`, `Greatest`: schedules, the least one from a lower bound on, the greatest one up
  to an upper bound.
* `Least.le_greatest`, `Least.tight`: the two enclose all others, and every time in them has a reason.
* `Rigid.chain_back`, `Rigid.chain_on`: where the two are equal, from bound to bound.
* `forward_least`, `backward_greatest`: one pass along a sorted order computes either.
-/

namespace CalmBoard.Schedules

open Kahn Relation

variable {α ε K : Type*} [AddCommGroup K] [LinearOrder K] [IsOrderedAddMonoid K]

/-! ### Schedules -/

def Satisfies (G : Kahn.Graph α ε) (weight : ε → K) (s : α → K) : Prop :=
  ∀ e ∈ G.edges, s (G.source e) + weight e ≤ s (G.target e)

structure Least (G : Kahn.Graph α ε) (weight : ε → K) (lower s : α → K) : Prop where
  bound : ∀ a ∈ G.nodes, lower a ≤ s a
  satisfies : Satisfies G weight s
  le : ∀ t, (∀ a ∈ G.nodes, lower a ≤ t a) → Satisfies G weight t → ∀ a ∈ G.nodes, s a ≤ t a

structure Greatest (G : Kahn.Graph α ε) (weight : ε → K) (upper s : α → K) : Prop where
  bound : ∀ a ∈ G.nodes, s a ≤ upper a
  satisfies : Satisfies G weight s
  ge : ∀ t, (∀ a ∈ G.nodes, t a ≤ upper a) → Satisfies G weight t → ∀ a ∈ G.nodes, t a ≤ s a

/-- The edge leaves no time. -/
def Tight (G : Kahn.Graph α ε) (weight : ε → K) (s : α → K) (e : ε) : Prop :=
  s (G.source e) + weight e = s (G.target e)

variable {G : Kahn.Graph α ε} {weight : ε → K} {lower upper s t : α → K} {a : α}

omit [IsOrderedAddMonoid K] in
theorem Least.le_greatest (hs : Least G weight lower s) (ht : Greatest G weight upper t)
    (hbound : ∀ a ∈ G.nodes, s a ≤ upper a) : ∀ a ∈ G.nodes, s a ≤ t a :=
  ht.ge s hbound hs.satisfies

omit [AddCommGroup K] [IsOrderedAddMonoid K] in
/-- Finitely many values below another one leave room. -/
theorem exists_between {x y : K} (f : ε → K) (h : x < y) :
    ∀ {edges : List ε}, (∀ e ∈ edges, f e < y) → ∃ z, z < y ∧ x ≤ z ∧ ∀ e ∈ edges, f e ≤ z
  | [], _ => ⟨x, h, le_rfl, fun _ he => absurd he List.not_mem_nil⟩
  | e :: edges, hlt => by
    obtain ⟨z, hz, hxz, hall⟩ := exists_between f h fun d hd => hlt d (List.mem_cons_of_mem e hd)
    refine ⟨max z (f e), max_lt hz (hlt e List.mem_cons_self), hxz.trans (le_max_left _ _), ?_⟩
    intro d hd
    rcases List.mem_cons.mp hd with rfl | hd
    · exact le_max_right _ _
    · exact (hall d hd).trans (le_max_left _ _)

/-- All edges turned around. -/
def reverse (G : Kahn.Graph α ε) : Kahn.Graph α ε := { G with source := G.target, target := G.source }

theorem satisfies_reverse (h : Satisfies G weight s) : Satisfies (reverse G) weight fun a => -s a := by
  intro e he
  show -s (G.target e) + weight e ≤ -s (G.source e)
  have hsub : -(-s (G.target e) + weight e) = s (G.target e) - weight e := by abel
  rw [le_neg, hsub]
  exact le_sub_iff_add_le.mpr (h e he)

theorem Greatest.reverse (hs : Greatest G weight upper s) :
    Least (reverse G) weight (fun a => -upper a) fun a => -s a := by
  refine ⟨fun a ha => neg_le_neg (hs.bound a ha), satisfies_reverse hs.satisfies, ?_⟩
  intro t hbound ht a ha
  have hback : Satisfies G weight fun a => -t a := satisfies_reverse ht
  exact neg_le.mp (hs.ge _ (fun b hb => neg_le.mp (hbound b hb)) hback a ha)

section Tight

variable [DecidableEq α]

/-- In the least schedule a time is the lower bound, or an edge leads there that leaves no time: else
it could be earlier. -/
theorem Least.tight (hs : Least G weight lower s) (hloop : ∀ e ∈ G.edges, G.source e ≠ G.target e)
    (ha : a ∈ G.nodes) (hne : s a ≠ lower a) :
    ∃ e ∈ G.edges, G.target e = a ∧ Tight G weight s e := by
  by_contra hnone
  have hlt : ∀ e ∈ G.edges.filter (fun e => G.target e = a), s (G.source e) + weight e < s a := by
    intro e he
    rw [List.mem_filter, decide_eq_true_eq] at he
    obtain ⟨he, rfl⟩ := he
    exact lt_of_le_of_ne (hs.satisfies e he) fun heq => hnone ⟨e, he, rfl, heq⟩
  obtain ⟨z, hz, hlower, hall⟩ := exists_between _ (lt_of_le_of_ne (hs.bound a ha) hne.symm) hlt
  have hearlier : ∀ b, Function.update s a z b ≤ s b := by
    intro b
    rw [Function.update_apply]
    split
    · rename_i h
      exact h ▸ hz.le
    · exact le_rfl
  have hsat : Satisfies G weight (Function.update s a z) := by
    intro e he
    by_cases htarget : G.target e = a
    · have hsource : G.source e ≠ a := fun h => hloop e he (h.trans htarget.symm)
      rw [htarget, Function.update_self, Function.update_of_ne hsource]
      exact hall e (List.mem_filter.mpr ⟨he, decide_eq_true htarget⟩)
    · rw [Function.update_of_ne htarget]
      exact (add_le_add_left (hearlier _) _).trans (hs.satisfies e he)
  have hbound : ∀ b ∈ G.nodes, lower b ≤ Function.update s a z b := by
    intro b hb
    rw [Function.update_apply]
    split
    · rename_i h
      exact h ▸ hlower
    · exact hs.bound b hb
  have hle := hs.le _ hbound hsat a ha
  rw [Function.update_self] at hle
  exact absurd hz (not_lt.mpr hle)

theorem Greatest.tight (hs : Greatest G weight upper s)
    (hloop : ∀ e ∈ G.edges, G.source e ≠ G.target e) (ha : a ∈ G.nodes) (hne : s a ≠ upper a) :
    ∃ e ∈ G.edges, G.source e = a ∧ Tight G weight s e := by
  obtain ⟨e, he, hsource, htight⟩ :=
    hs.reverse.tight (fun e he => (hloop e he).symm) ha fun h => hne (neg_inj.mp h)
  refine ⟨e, he, hsource, ?_⟩
  have hweight : weight e = s (G.target e) + -s (G.source e) := neg_add_eq_iff_eq_add.mp htight
  show s (G.source e) + weight e = s (G.target e)
  rw [hweight]
  abel

end Tight

/-! ### Nodes without a choice -/

/-- An edge that leaves no time between nodes where two schedules are equal. -/
def Rigid (G : Kahn.Graph α ε) (weight : ε → K) (s t : α → K) (a b : α) : Prop :=
  ∃ e ∈ G.edges, G.source e = a ∧ G.target e = b ∧ Tight G weight s e ∧ s a = t a ∧ s b = t b

variable [DecidableEq α]

omit [DecidableEq α] in
theorem source_ne_target (hacyclic : Digraph.Acyclic G.Edge) : ∀ e ∈ G.edges, G.source e ≠ G.target e :=
  fun e he h => hacyclic (G.target e) (TransGen.single ⟨e, he, h, rfl⟩)

/-- One edge back from a node without a choice. -/
theorem Least.step_back (hclosed : G.Closed) (hacyclic : Digraph.Acyclic G.Edge)
    (hs : Least G weight lower s) (ht : Satisfies G weight t) (hle : ∀ a ∈ G.nodes, s a ≤ t a)
    (ha : a ∈ G.nodes) (heq : s a = t a) (hne : s a ≠ lower a) :
    ∃ b ∈ G.nodes, Rigid G weight s t b a := by
  obtain ⟨e, he, rfl, htight⟩ := hs.tight (source_ne_target hacyclic) ha hne
  have hsource := hclosed.source_mem e he
  have hback : t (G.source e) ≤ s (G.source e) := by
    have h := ht e he
    rw [← heq, ← htight] at h
    exact le_of_add_le_add_right h
  exact ⟨_, hsource, e, he, rfl, rfl, htight, le_antisymm (hle _ hsource) hback, heq⟩

theorem Greatest.step_on (hclosed : G.Closed) (hacyclic : Digraph.Acyclic G.Edge)
    (ht : Greatest G weight upper t) (hs : Satisfies G weight s) (hle : ∀ a ∈ G.nodes, s a ≤ t a)
    (ha : a ∈ G.nodes) (heq : s a = t a) (hne : t a ≠ upper a) :
    ∃ b ∈ G.nodes, Rigid G weight s t a b := by
  obtain ⟨e, he, rfl, htight⟩ := ht.tight (source_ne_target hacyclic) ha hne
  have htarget := hclosed.target_mem e he
  have hlate : t (G.target e) ≤ s (G.target e) := by
    have h := hs e he
    rw [heq, htight] at h
    exact h
  have heq' : s (G.target e) = t (G.target e) := le_antisymm (hle _ htarget) hlate
  have hsum : s (G.source e) + weight e = s (G.target e) := by rw [heq, htight, heq']
  exact ⟨_, htarget, e, he, rfl, rfl, hsum, heq, heq'⟩

/-- **Back to the lower bound**: the first of the nodes from which such edges lead to a node without a
choice is at its lower bound. -/
theorem Least.chain_back (hclosed : G.Closed) (hacyclic : Digraph.Acyclic G.Edge)
    (hs : Least G weight lower s) (ht : Satisfies G weight t) (hle : ∀ a ∈ G.nodes, s a ≤ t a)
    (ha : a ∈ G.nodes) (heq : s a = t a) :
    ∃ b ∈ G.nodes, s b = lower b ∧ ReflTransGen (Rigid G weight s t) b a := by
  classical
  have hmem : ∀ b, b ∈ G.nodes.filter (fun b => ReflTransGen (Rigid G weight s t) b a ∧ s b = t b) ↔
      b ∈ G.nodes ∧ ReflTransGen (Rigid G weight s t) b a ∧ s b = t b := by
    intro b
    rw [List.mem_filter, decide_eq_true_eq]
  obtain ⟨b, hb, hfirst⟩ := hacyclic.exists_first ((hmem a).mpr ⟨ha, .refl, heq⟩)
  obtain ⟨hb, hreach, hbeq⟩ := (hmem b).mp hb
  refine ⟨b, hb, ?_, hreach⟩
  by_contra hne
  obtain ⟨c, hc, hcb⟩ := hs.step_back hclosed hacyclic ht hle hb hbeq hne
  obtain ⟨e, he, hsource, htarget, -, hceq, -⟩ := id hcb
  exact hfirst c ((hmem c).mpr ⟨hc, .head hcb hreach, hceq⟩) ⟨e, he, hsource, htarget⟩

theorem Greatest.chain_on (hclosed : G.Closed) (hacyclic : Digraph.Acyclic G.Edge)
    (ht : Greatest G weight upper t) (hs : Satisfies G weight s) (hle : ∀ a ∈ G.nodes, s a ≤ t a)
    (ha : a ∈ G.nodes) (heq : s a = t a) :
    ∃ b ∈ G.nodes, t b = upper b ∧ s b = t b ∧ ReflTransGen (Rigid G weight s t) a b := by
  classical
  have hmem : ∀ b, b ∈ G.nodes.filter (fun b => ReflTransGen (Rigid G weight s t) a b ∧ s b = t b) ↔
      b ∈ G.nodes ∧ ReflTransGen (Rigid G weight s t) a b ∧ s b = t b := by
    intro b
    rw [List.mem_filter, decide_eq_true_eq]
  have hflip : Digraph.Acyclic (Function.swap G.Edge) :=
    fun b hb => hacyclic b (transGen_swap.mp hb)
  obtain ⟨b, hb, hlast⟩ := hflip.exists_first ((hmem a).mpr ⟨ha, .refl, heq⟩)
  obtain ⟨hb, hreach, hbeq⟩ := (hmem b).mp hb
  refine ⟨b, hb, ?_, hbeq, hreach⟩
  by_contra hne
  obtain ⟨c, hc, hbc⟩ := ht.step_on hclosed hacyclic hs hle hb hbeq hne
  obtain ⟨e, he, hsource, htarget, -, -, hceq⟩ := id hbc
  exact hlast c ((hmem c).mpr ⟨hc, hreach.tail hbc, hceq⟩) ⟨e, he, hsource, htarget⟩

/-! ### The passes -/

variable (G weight)

/-- The target of an edge moves to a later time. -/
def push (sourceStart : K) (start : α → K) (e : ε) : α → K :=
  Function.update start (G.target e) (max (start (G.target e)) (sourceStart + weight e))

def forward (order : List α) (start : α → K) : α → K :=
  order.foldl (fun start a => (G.outgoing a).foldl (push G weight (start a)) start) start

/-- A node moves to an earlier time, because of the target of one of its edges. -/
def pull (a : α) (start : α → K) (e : ε) : α → K :=
  Function.update start a (min (start a) (start (G.target e) - weight e))

def backward (order : List α) (start : α → K) : α → K :=
  order.reverse.foldl (fun start a => (G.outgoing a).foldl (pull G weight a) start) start

variable {G weight}

omit [IsOrderedAddMonoid K] in
theorem le_push (x : K) (start : α → K) (e : ε) (a : α) : start a ≤ push G weight x start e a := by
  unfold push
  by_cases h : a = G.target e
  · rw [h, Function.update_self]
    exact le_max_left _ _
  · rw [Function.update_of_ne h]

omit [IsOrderedAddMonoid K] in
theorem le_pushes (x : K) (a : α) : ∀ (edges : List ε) (start : α → K),
    start a ≤ edges.foldl (push G weight x) start a
  | [], _ => le_rfl
  | e :: edges, start => (le_push x start e a).trans (le_pushes x a edges _)

omit [IsOrderedAddMonoid K] in
theorem pushes_of_ne {x : K} : ∀ {edges : List ε} {start : α → K},
    (∀ e ∈ edges, G.target e ≠ a) → edges.foldl (push G weight x) start a = start a
  | [], _, _ => rfl
  | e :: edges, start, h => by
    rw [List.foldl_cons, pushes_of_ne fun d hd => h d (List.mem_cons_of_mem e hd), push,
      Function.update_of_ne (h e List.mem_cons_self).symm]

omit [IsOrderedAddMonoid K] in
theorem add_le_pushes {x : K} {e : ε} : ∀ {edges : List ε} {start : α → K}, e ∈ edges →
    x + weight e ≤ edges.foldl (push G weight x) start (G.target e)
  | d :: edges, start, he => by
    rw [List.foldl_cons]
    rcases List.mem_cons.mp he with rfl | he
    · refine le_trans ?_ (le_pushes x _ edges _)
      rw [push, Function.update_self]
      exact le_max_right _ _
    · exact add_le_pushes he

omit [IsOrderedAddMonoid K] in
theorem pushes_le {P : α → Prop} {x : K} : ∀ (edges : List ε) {start : α → K},
    (∀ a, P a → start a ≤ t a) → (∀ e ∈ edges, P (G.target e) → x + weight e ≤ t (G.target e)) →
      ∀ a, P a → edges.foldl (push G weight x) start a ≤ t a
  | [], _, hstart, _ => hstart
  | e :: edges, start, hstart, hedges => by
    refine pushes_le edges ?_ fun d hd => hedges d (List.mem_cons_of_mem e hd)
    intro a ha
    rw [push, Function.update_apply]
    by_cases h : a = G.target e
    · subst h
      rw [if_pos rfl]
      exact max_le (hstart _ ha) (hedges e List.mem_cons_self ha)
    · rw [if_neg h]
      exact hstart a ha

/-- The pass stays below every schedule, whatever the order is; nodes outside of `P` do not count. -/
theorem forward_le {P : α → Prop} (hsource : ∀ a ∈ G.nodes, P a)
    (hedges : ∀ e ∈ G.edges, P (G.source e) → P (G.target e) → t (G.source e) + weight e ≤ t (G.target e)) :
    ∀ (order : List α) {start : α → K}, (∀ a, P a → start a ≤ t a) →
      ∀ a, P a → forward G weight order start a ≤ t a
  | [], _, hstart => hstart
  | b :: order, start, hstart => by
    refine forward_le hsource hedges order (pushes_le _ hstart ?_)
    intro e he htarget
    obtain ⟨hb, hmem, rfl⟩ := G.mem_outgoing.mp he
    exact (add_le_add_left (hstart _ (hsource _ hb)) _).trans (hedges e hmem (hsource _ hb) htarget)

omit [IsOrderedAddMonoid K] in
theorem le_forward (a : α) : ∀ (order : List α) (start : α → K), start a ≤ forward G weight order start a
  | [], _ => le_rfl
  | _ :: order, start => (le_pushes _ a _ start).trans (le_forward a order _)

omit [IsOrderedAddMonoid K] in
theorem forward_of_ne : ∀ {order : List α} {start : α → K},
    (∀ b ∈ order, ∀ e ∈ G.edges, G.source e = b → G.target e ≠ a) → forward G weight order start a = start a
  | [], _, _ => rfl
  | b :: order, start, h => by
    have hpush : (G.outgoing b).foldl (push G weight (start b)) start a = start a := by
      refine pushes_of_ne fun e he => ?_
      obtain ⟨-, he, hsource⟩ := G.mem_outgoing.mp he
      exact h b List.mem_cons_self e he hsource
    exact (forward_of_ne fun c hc => h c (List.mem_cons_of_mem b hc)).trans hpush

omit [IsOrderedAddMonoid K] in
/-- Along a sorted order the time of a node is final when its edges are followed. -/
theorem forward_satisfies {e : ε} (he : e ∈ G.edges) (hnode : G.source e ∈ G.nodes) :
    ∀ (order : List α) {start : α → K}, G.Sorted order → G.source e ∈ order →
      forward G weight order start (G.source e) + weight e ≤ forward G weight order start (G.target e)
  | b :: order, start, hsorted, hmem => by
    by_cases hfirst : G.source e = b
    · have hfinal : forward G weight (b :: order) start b = start b :=
        forward_of_ne fun c hc d hd hsource => hsorted.1 c hc d hd hsource
      rw [hfirst, hfinal]
      have hout : e ∈ G.outgoing b := G.mem_outgoing.mpr ⟨hfirst ▸ hnode, he, hfirst⟩
      exact (add_le_pushes hout).trans (le_forward _ order _)
    · exact forward_satisfies he hnode order hsorted.2 ((List.mem_cons.mp hmem).resolve_left hfirst)

/-- **The forward pass** gives the least schedule. -/
theorem forward_least (hclosed : G.Closed) {order : List α} (hsorted : G.Sorted order)
    (hall : ∀ a ∈ G.nodes, a ∈ order) : Least G weight lower (forward G weight order lower) := by
  refine ⟨fun a _ => le_forward a order lower, ?_, ?_⟩
  · intro e he
    have hsource := hclosed.source_mem e he
    exact forward_satisfies he hsource order hsorted (hall _ hsource)
  · intro t hbound ht
    exact forward_le (P := (· ∈ G.nodes)) (fun a ha => ha) (fun e he _ _ => ht e he) order hbound

omit [IsOrderedAddMonoid K] in
theorem backward_cons (a : α) (order : List α) (start : α → K) :
    backward G weight (a :: order) start =
      (G.outgoing a).foldl (pull G weight a) (backward G weight order start) := by
  simp only [backward, List.reverse_cons, List.foldl_append, List.foldl_cons, List.foldl_nil]

omit [IsOrderedAddMonoid K] in
theorem pulls_of_ne {b : α} (h : b ≠ a) : ∀ (edges : List ε) (start : α → K),
    edges.foldl (pull G weight a) start b = start b
  | [], _ => rfl
  | e :: edges, start => by
    rw [List.foldl_cons, pulls_of_ne h edges, pull, Function.update_of_ne h]

omit [IsOrderedAddMonoid K] in
theorem pull_le (a : α) (start : α → K) (e : ε) (b : α) : pull G weight a start e b ≤ start b := by
  unfold pull
  by_cases h : b = a
  · rw [h, Function.update_self]
    exact min_le_left _ _
  · rw [Function.update_of_ne h]

omit [IsOrderedAddMonoid K] in
theorem pulls_le (a b : α) : ∀ (edges : List ε) (start : α → K),
    edges.foldl (pull G weight a) start b ≤ start b
  | [], _ => le_rfl
  | e :: edges, start => (pulls_le a b edges _).trans (pull_le a start e b)

omit [IsOrderedAddMonoid K] in
theorem pulls_le_sub {e : ε} : ∀ {edges : List ε} {start : α → K},
    (∀ d ∈ edges, G.target d ≠ a) → e ∈ edges →
      edges.foldl (pull G weight a) start a ≤ start (G.target e) - weight e
  | d :: edges, start, hne, he => by
    rw [List.foldl_cons]
    have hrest : ∀ c ∈ edges, G.target c ≠ a := fun c hc => hne c (List.mem_cons_of_mem d hc)
    rcases List.mem_cons.mp he with rfl | he
    · refine (pulls_le a a edges _).trans ?_
      rw [pull, Function.update_self]
      exact min_le_right _ _
    · refine (pulls_le_sub hrest he).trans ?_
      rw [pull, Function.update_of_ne (hrest e he)]

theorem le_pulls (ha : a ∈ G.nodes) : ∀ (edges : List ε) {start : α → K},
    (∀ b ∈ G.nodes, t b ≤ start b) →
      (∀ e ∈ edges, G.target e ∈ G.nodes ∧ t a + weight e ≤ t (G.target e)) →
        ∀ b ∈ G.nodes, t b ≤ edges.foldl (pull G weight a) start b
  | [], _, hstart, _ => hstart
  | e :: edges, start, hstart, hedges => by
    refine le_pulls ha edges ?_ fun d hd => hedges d (List.mem_cons_of_mem e hd)
    intro b hb
    rw [pull, Function.update_apply]
    by_cases h : b = a
    · subst h
      rw [if_pos rfl]
      obtain ⟨htarget, hle⟩ := hedges e List.mem_cons_self
      exact le_min (hstart b hb) (le_sub_iff_add_le.mpr (hle.trans (hstart _ htarget)))
    · rw [if_neg h]
      exact hstart b hb

theorem le_backward (hclosed : G.Closed) (ht : Satisfies G weight t) {start : α → K}
    (hstart : ∀ b ∈ G.nodes, t b ≤ start b) :
    ∀ order : List α, ∀ b ∈ G.nodes, t b ≤ backward G weight order start b
  | [] => hstart
  | a :: order => by
    rw [backward_cons]
    by_cases ha : a ∈ G.nodes
    · refine le_pulls ha _ (le_backward hclosed ht hstart order) fun e he => ?_
      obtain ⟨-, hmem, rfl⟩ := G.mem_outgoing.mp he
      exact ⟨hclosed.target_mem e hmem, ht e hmem⟩
    · have hnone : G.outgoing a = [] := if_neg ha
      rw [hnone]
      exact le_backward hclosed ht hstart order

omit [IsOrderedAddMonoid K] in
theorem backward_le (b : α) (start : α → K) : ∀ order : List α, backward G weight order start b ≤ start b
  | [] => le_rfl
  | a :: order => by
    rw [backward_cons]
    exact (pulls_le a b _ _).trans (backward_le b start order)

/-- Against a sorted order the targets are final when the edges of a node are followed. -/
theorem backward_satisfies {start : α → K} {e : ε} (he : e ∈ G.edges) (hnode : G.source e ∈ G.nodes) :
    ∀ order : List α, G.Sorted order → G.source e ∈ order →
      backward G weight order start (G.source e) + weight e ≤ backward G weight order start (G.target e)
  | a :: order, hsorted, hmem => by
    have htarget : G.target e ≠ a := hsorted.1 _ hmem e he rfl
    rw [backward_cons, pulls_of_ne htarget]
    by_cases hfirst : G.source e = a
    · have hout : ∀ d ∈ G.outgoing a, G.target d ≠ a := by
        intro d hd
        obtain ⟨-, hd, hsource⟩ := G.mem_outgoing.mp hd
        exact hsorted.1 a List.mem_cons_self d hd hsource
      have hmine : e ∈ G.outgoing a := G.mem_outgoing.mpr ⟨hfirst ▸ hnode, he, hfirst⟩
      rw [hfirst]
      exact le_sub_iff_add_le.mp (pulls_le_sub hout hmine)
    · rw [pulls_of_ne hfirst]
      exact backward_satisfies he hnode order hsorted.2 ((List.mem_cons.mp hmem).resolve_left hfirst)

/-- **The backward pass** gives the greatest schedule. -/
theorem backward_greatest (hclosed : G.Closed) {order : List α} (hsorted : G.Sorted order)
    (hall : ∀ a ∈ G.nodes, a ∈ order) : Greatest G weight upper (backward G weight order upper) := by
  refine ⟨fun a _ => backward_le a upper order, ?_, ?_⟩
  · intro e he
    have hsource := hclosed.source_mem e he
    exact backward_satisfies he hsource order hsorted (hall _ hsource)
  · intro t hbound ht
    exact le_backward hclosed ht hbound order

end CalmBoard.Schedules
