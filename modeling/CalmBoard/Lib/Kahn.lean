import CalmBoard.Lib.Digraph
import Mathlib.Data.List.Perm.Subperm

/-!
# CalmBoard.Lib.Kahn — ordering a directed graph by counting incoming edges

A queue holds the nodes without an edge from a node that has not been taken; taking a node uses up
its outgoing edges.

* `Graph.drain`: the loop, which ends on every graph (`weight_visit`).
* `Sound`: what holds at each step of it, `sound_visit` and `sound_take` are the step lemmas.
* `sorted_order`: every edge leads forward in the order.
* `order_complete_iff`: the order has every node exactly when the graph has no cycle.
-/

namespace CalmBoard.Kahn

variable {α ε : Type*} [DecidableEq α] {a : α}

/-- A graph that may have several edges between two nodes. -/
structure Graph (α ε : Type*) where
  nodes : List α
  edges : List ε
  source : ε → α
  target : ε → α

structure State (α : Type*) where
  queue : List α
  order : List α
  /-- The incoming edges that are not used up. -/
  remaining : α → ℤ

namespace Graph

variable (G : Graph α ε)

def outgoing (a : α) : List ε :=
  if a ∈ G.nodes then G.edges.filter fun e => G.source e = a else []

def incomingCount : α → ℤ :=
  G.edges.foldl (fun count e => Function.update count (G.target e) (count (G.target e) + 1)) fun _ => 0

/-- Use up an edge. -/
def visit (s : State α) (e : ε) : State α :=
  let remaining := s.remaining (G.target e) - 1
  { s with
    remaining := Function.update s.remaining (G.target e) remaining
    queue := if remaining = 0 then s.queue ++ [G.target e] else s.queue }

def take (s : State α) (a : α) (queue : List α) : State α :=
  (G.outgoing a).foldl G.visit { s with queue, order := s.order ++ [a] }

/-- What a step makes smaller: the queue, and the targets that may still join it. -/
def weight (s : State α) : ℕ :=
  s.queue.length + ((G.edges.map G.target).dedup.filter fun a => 0 < s.remaining a).length

theorem mem_outgoing {e : ε} : e ∈ G.outgoing a ↔ a ∈ G.nodes ∧ e ∈ G.edges ∧ G.source e = a := by
  unfold outgoing
  by_cases h : a ∈ G.nodes
  · rw [if_pos h, List.mem_filter, decide_eq_true_eq]
    exact ⟨fun he => ⟨h, he⟩, fun he => he.2⟩
  · rw [if_neg h]
    exact ⟨fun he => absurd he List.not_mem_nil, fun he => absurd he.1 h⟩

/-- A node joins the queue when its last edge is used up, and never again. -/
theorem weight_visit (s : State α) {e : ε} (he : e ∈ G.edges) : G.weight (G.visit s e) ≤ G.weight s := by
  have hmem : G.target e ∈ (G.edges.map G.target).dedup :=
    List.mem_dedup.mpr (List.mem_map_of_mem he)
  have hsub : ∀ a, 0 < (G.visit s e).remaining a → 0 < s.remaining a := by
    intro a ha
    simp only [visit, Function.update_apply] at ha
    split at ha
    · rename_i h
      rw [h]
      omega
    · exact ha
  have hmono := List.monotone_filter_right (G.edges.map G.target).dedup
    (p := fun a => decide (0 < (G.visit s e).remaining a)) (q := fun a => decide (0 < s.remaining a))
    fun a ha => decide_eq_true (hsub a (of_decide_eq_true ha))
  unfold weight
  by_cases hlast : s.remaining (G.target e) - 1 = 0
  · have hlt : ((G.edges.map G.target).dedup.filter fun a => 0 < (G.visit s e).remaining a).length <
        ((G.edges.map G.target).dedup.filter fun a => 0 < s.remaining a).length := by
      refine lt_of_le_of_ne hmono.length_le fun hlen => ?_
      have heq := hmono.eq_of_length hlen
      have htarget : G.target e ∈ (G.edges.map G.target).dedup.filter fun a => 0 < s.remaining a :=
        List.mem_filter.mpr ⟨hmem, decide_eq_true (by omega)⟩
      rw [← heq, List.mem_filter, decide_eq_true_eq] at htarget
      simp only [visit, Function.update_self] at htarget
      omega
    have hqueue : (G.visit s e).queue.length = s.queue.length + 1 := by
      simp [visit, hlast]
    omega
  · have hqueue : (G.visit s e).queue = s.queue := if_neg hlast
    rw [hqueue]
    exact Nat.add_le_add_left hmono.length_le _

theorem weight_take (s : State α) (a : α) (queue : List α) :
    G.weight (G.take s a queue) ≤ G.weight { s with queue } := by
  have hall : ∀ (rest : List ε) (t : State α), (∀ e ∈ rest, e ∈ G.edges) →
      G.weight (rest.foldl G.visit t) ≤ G.weight t := by
    intro rest
    induction rest with
    | nil => exact fun t _ => le_refl _
    | cons e rest ih =>
      intro t hrest
      rw [List.foldl_cons]
      exact (ih _ fun x hx => hrest x (List.mem_cons_of_mem e hx)).trans
        (G.weight_visit t (hrest e List.mem_cons_self))
  exact hall _ _ fun e he => ((G.mem_outgoing).mp he).2.1

/-- The loop. -/
def drain (s : State α) : State α :=
  match _ : s.queue with
  | [] => s
  | a :: queue => drain (G.take s a queue)
termination_by G.weight s
decreasing_by
  rename_i h
  have hqueue : G.weight s = G.weight { s with queue } + 1 := by
    simp only [weight, h, List.length_cons]
    omega
  exact hqueue ▸ Nat.lt_succ_of_le (G.weight_take s a queue)

def initial : State α :=
  { queue := G.nodes.filter fun a => G.incomingCount a = 0, order := [], remaining := G.incomingCount }

def order : List α := (G.drain G.initial).order

end Graph

variable {G : Graph α ε}

/-! ### The invariant -/

/-- An edge leads from one node to the other. -/
def Graph.Edge (G : Graph α ε) (a b : α) : Prop := ∃ e ∈ G.edges, G.source e = a ∧ G.target e = b

/-- No edge leads from a node of the list to an earlier one, or to itself. -/
def Graph.Sorted (G : Graph α ε) : List α → Prop
  | [] => True
  | a :: order => (∀ b ∈ a :: order, ∀ e ∈ G.edges, G.source e = b → G.target e ≠ a) ∧ G.Sorted order

omit [DecidableEq α] in
theorem Graph.Sorted.concat (h : ∀ e ∈ G.edges, G.source e = a → G.target e ≠ a) :
    ∀ {order : List α}, G.Sorted order →
      (∀ b ∈ order, ∀ e ∈ G.edges, G.source e = a → G.target e ≠ b) → G.Sorted (order ++ [a])
  | [], _, _ => ⟨fun b hb => List.mem_singleton.mp hb ▸ h, trivial⟩
  | c :: order, hsorted, hback => by
    refine ⟨?_, hsorted.2.concat h fun b hb => hback b (List.mem_cons_of_mem c hb)⟩
    intro b hb
    rcases List.mem_append.mp (show b ∈ c :: order ++ [a] from hb) with hb | hb
    · exact hsorted.1 b hb
    · rw [List.mem_singleton.mp hb]
      exact hback c List.mem_cons_self

/-- The edges to a node from nodes that are not done. -/
def Graph.pending (G : Graph α ε) (done : List α) (a : α) : ℕ :=
  G.edges.countP fun e => G.target e = a ∧ G.source e ∉ done

theorem pending_eq_zero_iff {done : List α} :
    G.pending done a = 0 ↔ ∀ e ∈ G.edges, G.target e = a → G.source e ∈ done := by
  simp only [Graph.pending, List.countP_eq_zero, decide_eq_true_eq, not_and, not_not]

/-- The edges that taking a node uses up. -/
theorem pending_concat {done : List α} (ha : a ∈ G.nodes) (hfresh : a ∉ done) (b : α) :
    G.pending done b =
      G.pending (done ++ [a]) b + (G.outgoing a).countP fun e => G.target e = b := by
  rw [Graph.outgoing, if_pos ha, Graph.pending, Graph.pending, List.countP_filter]
  induction G.edges with
  | nil => rfl
  | cons e edges ih =>
    rw [List.countP_cons, List.countP_cons, List.countP_cons, ih]
    by_cases hsource : G.source e = a
    · simp [hsource, hfresh]
      omega
    · simp [hsource]
      omega

/-- Where all edges lead between nodes, and none is listed twice. -/
structure Graph.Closed (G : Graph α ε) : Prop where
  nodup : G.nodes.Nodup
  source_mem : ∀ e ∈ G.edges, G.source e ∈ G.nodes
  target_mem : ∀ e ∈ G.edges, G.target e ∈ G.nodes

/-- The state with some edges of the last node still to be used up. -/
structure Sound (G : Graph α ε) (s : State α) (rest : List ε) : Prop where
  remaining : ∀ a, s.remaining a = G.pending s.order a + rest.countP fun e => G.target e = a
  nodup : (s.order ++ s.queue).Nodup
  nodes : ∀ a ∈ s.order ++ s.queue, a ∈ G.nodes
  ready : ∀ a ∈ G.nodes, a ∈ s.order ++ s.queue ↔ s.remaining a = 0
  sorted : G.Sorted s.order

theorem incomingCount_eq (G : Graph α ε) (a : α) :
    G.incomingCount a = G.edges.countP fun e => G.target e = a := by
  have hall : ∀ (edges : List ε) (count : α → ℤ),
      edges.foldl (fun count e => Function.update count (G.target e) (count (G.target e) + 1)) count a =
        count a + edges.countP fun e => G.target e = a := by
    intro edges
    induction edges with
    | nil => simp
    | cons e edges ih =>
      intro count
      rw [List.foldl_cons, ih, List.countP_cons, Function.update_apply]
      by_cases h : G.target e = a
      · subst h
        simp
        omega
      · simp [h, Ne.symm h]
  rw [Graph.incomingCount, hall, Int.zero_add]

theorem sound_initial (h : G.Closed) : Sound G G.initial [] := by
  have hremaining : ∀ a, G.initial.remaining a = G.pending [] a := by
    intro a
    show G.incomingCount a = _
    rw [incomingCount_eq, Graph.pending]
    simp
  refine ⟨fun a => (hremaining a).trans (by simp [Graph.initial]), h.nodup.filter _, ?_, ?_, trivial⟩
  · intro a ha
    exact (List.mem_filter.mp ha).1
  · intro a ha
    show a ∈ G.nodes.filter _ ↔ G.incomingCount a = 0
    rw [List.mem_filter, decide_eq_true_eq, and_iff_right ha]

/-- Using up an edge. -/
theorem sound_visit (h : G.Closed) {s : State α} {e : ε} {rest : List ε} (he : e ∈ G.edges)
    (hs : Sound G s (e :: rest)) : Sound G (G.visit s e) rest := by
  have hpos : 0 < s.remaining (G.target e) := by
    rw [hs.remaining, List.countP_cons_of_pos (by simp)]
    omega
  have hnew : G.target e ∉ s.order ++ s.queue := by
    rw [hs.ready _ (h.target_mem e he)]
    omega
  have hremaining : ∀ a, (G.visit s e).remaining a =
      if a = G.target e then s.remaining (G.target e) - 1 else s.remaining a :=
    fun a => Function.update_apply _ _ _ _
  refine ⟨?_, ?_, ?_, ?_, hs.sorted⟩
  · intro a
    rw [hremaining]
    have hcount := hs.remaining a
    rw [List.countP_cons] at hcount
    show _ = ((G.pending s.order a : ℕ) : ℤ) + _
    by_cases ha : a = G.target e
    · subst ha
      simp only [decide_true, if_true] at hcount ⊢
      omega
    · simpa [ha, Ne.symm ha] using hcount
  · unfold Graph.visit
    by_cases hlast : s.remaining (G.target e) - 1 = 0
    · simp only [if_pos hlast]
      rw [← List.append_assoc]
      exact List.nodup_append'.mpr ⟨hs.nodup, List.nodup_singleton _, by simpa using hnew⟩
    · simpa only [if_neg hlast] using hs.nodup
  · intro a ha
    unfold Graph.visit at ha
    by_cases hlast : s.remaining (G.target e) - 1 = 0
    · simp only [if_pos hlast] at ha
      rw [← List.append_assoc, List.mem_append, List.mem_singleton] at ha
      rcases ha with ha | rfl
      · exact hs.nodes a ha
      · exact h.target_mem e he
    · exact hs.nodes a (by simpa only [if_neg hlast] using ha)
  · intro a ha
    rw [hremaining]
    unfold Graph.visit
    by_cases hlast : s.remaining (G.target e) - 1 = 0
    · simp only [if_pos hlast]
      rw [← List.append_assoc, List.mem_append, List.mem_singleton, hs.ready a ha]
      by_cases hae : a = G.target e
      · simp [hae, hlast]
      · simp [hae]
    · simp only [if_neg hlast]
      rw [hs.ready a ha]
      by_cases hae : a = G.target e
      · subst hae
        simp [hlast, hpos.ne']
      · simp [hae]

/-- Taking the first node of the queue. -/
theorem sound_take (h : G.Closed) {s : State α} {queue : List α} (hqueue : s.queue = a :: queue)
    (hs : Sound G s []) : Sound G (G.take s a queue) [] := by
  have hmem : a ∈ s.order ++ s.queue := by simp [hqueue]
  have ha : a ∈ G.nodes := hs.nodes a hmem
  have hpending : ∀ b ∈ s.order ++ s.queue, ∀ e ∈ G.edges, G.target e = b → G.source e ∈ s.order := by
    intro b hb
    have hzero := hs.remaining b
    rw [(hs.ready b (hs.nodes b hb)).mp hb] at hzero
    refine pending_eq_zero_iff.mp ?_
    simp only [List.countP_nil] at hzero
    omega
  have hfresh : a ∉ s.order := by
    have hnodup := hs.nodup
    rw [hqueue, List.nodup_append'] at hnodup
    exact fun hmem => hnodup.2.2 hmem List.mem_cons_self
  have hsplit : s.order ++ [a] ++ queue = s.order ++ s.queue := by simp [hqueue]
  have hstart : Sound G { s with queue, order := s.order ++ [a] } (G.outgoing a) := by
    refine ⟨?_, hsplit ▸ hs.nodup, hsplit ▸ hs.nodes, hsplit ▸ hs.ready, ?_⟩
    · intro b
      rw [hs.remaining b, pending_concat ha hfresh b, List.countP_nil]
      push_cast
      omega
    · refine hs.sorted.concat ?_ ?_
      · intro e he hsource htarget
        exact hfresh (hsource ▸ hpending a hmem e he htarget)
      · intro b hb e he hsource htarget
        exact hfresh (hsource ▸ hpending b (List.mem_append_left _ hb) e he htarget)
  have hall : ∀ (rest : List ε) (t : State α), (∀ e ∈ rest, e ∈ G.edges) → Sound G t rest →
      Sound G (rest.foldl G.visit t) [] := by
    intro rest
    induction rest with
    | nil => exact fun t _ ht => ht
    | cons e rest ih =>
      intro t hrest ht
      exact ih _ (fun x hx => hrest x (List.mem_cons_of_mem e hx))
        (sound_visit h (hrest e List.mem_cons_self) ht)
  exact hall _ _ (fun e he => (G.mem_outgoing.mp he).2.1) hstart

theorem sound_drain (h : G.Closed) {s : State α} (hs : Sound G s []) :
    Sound G (G.drain s) [] ∧ (G.drain s).queue = [] := by
  fun_induction G.drain s with
  | case1 s hqueue => exact ⟨hs, hqueue⟩
  | case2 s a queue hqueue ih => exact ih (sound_take h hqueue hs)

/-! ### The order -/

theorem sorted_order (h : G.Closed) : G.Sorted G.order := (sound_drain h (sound_initial h)).1.sorted

theorem order_nodup (h : G.Closed) : G.order.Nodup :=
  List.Nodup.of_append_left (sound_drain h (sound_initial h)).1.nodup

theorem mem_nodes_of_mem_order (h : G.Closed) (ha : a ∈ G.order) : a ∈ G.nodes :=
  (sound_drain h (sound_initial h)).1.nodes a (List.mem_append_left _ ha)

/-- A node is left out because of an edge from a node that is left out. -/
theorem exists_left_out (h : G.Closed) (ha : a ∈ G.nodes) (hout : a ∉ G.order) :
    ∃ b ∈ G.nodes, b ∉ G.order ∧ G.Edge b a := by
  obtain ⟨hs, hqueue⟩ := sound_drain h (sound_initial h)
  have hready := hs.ready a ha
  rw [hqueue, List.append_nil, hs.remaining a, List.countP_nil] at hready
  have hpending : G.pending G.order a ≠ 0 := by
    intro hzero
    refine hout (hready.mpr ?_)
    show ((G.pending G.order a : ℕ) : ℤ) + (0 : ℕ) = 0
    rw [hzero]
    rfl
  by_contra hnone
  refine hpending (pending_eq_zero_iff.mpr fun e he htarget => ?_)
  by_contra hsource
  exact hnone ⟨G.source e, h.source_mem e he, hsource, e, he, rfl, htarget⟩

/-- The place of a node in a sorted list. -/
theorem Graph.Sorted.idxOf_lt {e : ε} (he : e ∈ G.edges) :
    ∀ {order : List α}, G.Sorted order → G.source e ∈ order → G.target e ∈ order →
      order.idxOf (G.source e) < order.idxOf (G.target e)
  | a :: order, hsorted, hsource, htarget => by
    have hne : G.target e ≠ a := hsorted.1 _ hsource e he rfl
    rw [List.idxOf_cons_ne order hne.symm]
    by_cases hfirst : G.source e = a
    · rw [hfirst, List.idxOf_cons_self]
      omega
    · rw [List.idxOf_cons_ne order (Ne.symm hfirst)]
      have hrest := hsorted.2.idxOf_lt he ((List.mem_cons.mp hsource).resolve_left hfirst)
        ((List.mem_cons.mp htarget).resolve_left hne)
      omega

theorem order_perm (h : G.Closed) (hlength : G.order.length = G.nodes.length) : G.order.Perm G.nodes :=
  ((order_nodup h).subperm fun _ => mem_nodes_of_mem_order h).perm_of_length_le hlength.ge

/-- **Kahn's order** has every node exactly when no walk along the edges leads back to its beginning. -/
theorem order_complete_iff (h : G.Closed) :
    G.order.length = G.nodes.length ↔ Digraph.Acyclic G.Edge := by
  constructor
  · intro hlength a ha
    have hperm := order_perm h hlength
    have hlt : ∀ b c, Relation.TransGen G.Edge b c → G.order.idxOf b < G.order.idxOf c := by
      intro b c hbc
      have hstep : ∀ b c, G.Edge b c → G.order.idxOf b < G.order.idxOf c := by
        rintro b c ⟨e, he, rfl, rfl⟩
        exact (sorted_order h).idxOf_lt he (hperm.mem_iff.mpr (h.source_mem e he))
          (hperm.mem_iff.mpr (h.target_mem e he))
      induction hbc with
      | single hbc => exact hstep _ _ hbc
      | tail _ hcd ih => exact ih.trans (hstep _ _ hcd)
    exact lt_irrefl _ (hlt a a ha)
  · intro hacyclic
    have hall : ∀ a ∈ G.nodes, a ∈ G.order := by
      intro a ha
      by_contra hout
      have hmem : ∀ b, b ∈ G.nodes.filter (fun b => b ∉ G.order) ↔ b ∈ G.nodes ∧ b ∉ G.order := by
        intro b
        rw [List.mem_filter, decide_eq_true_eq]
      obtain ⟨b, hb, hfirst⟩ := hacyclic.exists_first ((hmem a).mpr ⟨ha, hout⟩)
      obtain ⟨hb, hbout⟩ := (hmem b).mp hb
      obtain ⟨c, hc, hcout, hcb⟩ := exists_left_out h hb hbout
      exact hfirst c ((hmem c).mpr ⟨hc, hcout⟩) hcb
    exact le_antisymm ((order_nodup h).subperm fun _ => mem_nodes_of_mem_order h).length_le
      (h.nodup.subperm hall).length_le

end CalmBoard.Kahn
