import Mathlib.Logic.Relation
import Mathlib.Data.Finset.Card
import Mathlib.Data.Finset.Dedup
import Mathlib.Data.Fintype.EquivFin
import Mathlib.Data.Fintype.Sets
import Mathlib.Order.WellFounded
import Mathlib.Data.List.Chain

/-!
# CalmBoard.Lib.Digraph — reachability and cycles in directed graphs

A graph is a relation `E`; a finite one is given by its list of edges.

* `Acyclic.insert`: adding an edge keeps a graph acyclic if its source cannot be reached from its
  target.
* `Acyclic.exists_first`: finitely many nodes have a first one.
* `ClosedWalk.cycle`: a list of nodes that walks along the edges and ends where it began.
* `Settled.of_next`: a node meets no cycle if none of its successors does.
* `mem_downstream_iff`: iterating a recursive query over the edges computes reachability.
-/

namespace CalmBoard.Digraph

open Relation

variable {α : Type*} {E : α → α → Prop}

/-- No walk leads from a node back to itself. -/
def Acyclic (E : α → α → Prop) : Prop := ∀ a, ¬ TransGen E a a

theorem Acyclic.mono {F : α → α → Prop} (h : Acyclic F) (hsub : ∀ a b, E a b → F a b) : Acyclic E :=
  fun a ha => h a (TransGen.mono hsub a a ha)

/-- Among finitely many nodes of an acyclic graph there is a first one. -/
theorem Acyclic.exists_first [DecidableEq α] (h : Acyclic E) {nodes : List α} {a : α}
    (ha : a ∈ nodes) : ∃ b ∈ nodes, ∀ c ∈ nodes, ¬ E c b := by
  let before : {b // b ∈ nodes} → {b // b ∈ nodes} → Prop := fun b c => TransGen E b.1 c.1
  have htrans : IsTrans _ before := ⟨fun _ _ _ hbc hcd => TransGen.trans hbc hcd⟩
  have hirrefl : Std.Irrefl before := ⟨fun b => h b.1⟩
  have hwf : WellFounded before := Finite.wellFounded_of_trans_of_irrefl before
  obtain ⟨b, -, hb⟩ := hwf.has_min Set.univ ⟨⟨a, ha⟩, trivial⟩
  exact ⟨b.1, b.2, fun c hc hcb => hb ⟨c, hc⟩ trivial (TransGen.single hcb)⟩

/-! ### Walks -/

/-- A list of nodes along the edges that ends where it began. -/
structure ClosedWalk (E : α → α → Prop) (walk : List α) : Prop where
  closed : walk.head? = walk.getLast?
  length : 2 ≤ walk.length
  edges : walk.IsChain E

theorem ClosedWalk.cycle {walk : List α} (h : ClosedWalk E walk) : ∃ a, TransGen E a a := by
  obtain ⟨hclosed, hlength, hedges⟩ := h
  match walk, hlength with
  | a :: b :: rest, _ =>
    rw [List.isChain_cons_cons] at hedges
    have hreach := List.relationReflTransGen_of_exists_isChain (b :: rest) hedges.2 (by simp)
    have hlast : (b :: rest).getLast (by simp) = a := by
      rw [List.head?_cons, List.getLast?_cons_cons, List.getLast?_eq_some_getLast (by simp)] at hclosed
      exact (Option.some.inj hclosed).symm
    rw [List.head_cons, hlast] at hreach
    exact ⟨a, TransGen.head' hedges.1 hreach⟩

/-- A walk that leads back to one of its nodes closes there. -/
theorem closedWalk_of_back [DecidableEq α] {walk : List α} {a b : α} (hwalk : walk.IsChain E)
    (hlast : walk.getLast? = some a) (hb : b ∈ walk) (hab : E a b) :
    ClosedWalk E (walk.drop (walk.idxOf b) ++ [b]) := by
  have hlt : walk.idxOf b < walk.length := List.idxOf_lt_length_of_mem hb
  have hdrop : walk.drop (walk.idxOf b) = b :: walk.drop (walk.idxOf b + 1) := by
    rw [List.drop_eq_getElem_cons hlt, List.getElem_idxOf]
  refine ⟨?_, ?_, ?_⟩
  · rw [hdrop, List.getLast?_concat]
    rfl
  · rw [hdrop]
    simp
  · refine (hwalk.drop _).append (List.isChain_singleton b) ?_
    intro x hx y hy
    rw [List.getLast?_drop, if_neg (by omega), hlast] at hx
    cases hx
    cases hy
    exact hab

/-- No cycle can be reached. -/
def Settled (E : α → α → Prop) (a : α) : Prop := ∀ b, ReflTransGen E a b → ¬ TransGen E b b

theorem Settled.of_next {a : α} (h : ∀ b, E a b → Settled E b) : Settled E a := by
  intro c hac hcycle
  rcases hac.cases_head with rfl | ⟨b, hab, hbc⟩
  · obtain ⟨b, hab, hba⟩ := TransGen.head'_iff.mp hcycle
    exact h b hab a hba hcycle
  · exact h b hab c hbc hcycle

theorem acyclic_of_settled (h : ∀ a b, E a b → Settled E a) : Acyclic E := by
  intro a ha
  obtain ⟨b, hab, -⟩ := TransGen.head'_iff.mp ha
  exact h a b hab a ReflTransGen.refl ha

/-! ### Reachability over a list of edges -/

section Downstream

variable [DecidableEq α] (edges : List (α × α))

/-- One round of the recursive query: the nodes so far and their direct successors. -/
def downstreamStep (S : Finset α) : Finset α :=
  S ∪ ((edges.filter fun e => e.1 ∈ S).map Prod.snd).toFinset

/-- The recursive query; one round more than there are edges always suffices. -/
def downstream (a : α) : Finset α := (downstreamStep edges)^[edges.length + 1] {a}

/-- The edge relation of a list. -/
def Edge (a b : α) : Prop := (a, b) ∈ edges

variable {edges}

theorem mem_downstreamStep {S : Finset α} {b : α} :
    b ∈ downstreamStep edges S ↔ b ∈ S ∨ ∃ a ∈ S, (a, b) ∈ edges := by
  simp only [downstreamStep, Finset.mem_union, List.mem_toFinset, List.mem_map, List.mem_filter,
    decide_eq_true_eq]
  constructor
  · rintro (h | ⟨⟨a, c⟩, ⟨he, ha⟩, rfl⟩)
    · exact Or.inl h
    · exact Or.inr ⟨a, ha, he⟩
  · rintro (h | ⟨a, ha, he⟩)
    · exact Or.inl h
    · exact Or.inr ⟨(a, b), ⟨he, ha⟩, rfl⟩

theorem subset_downstreamStep (S : Finset α) : S ⊆ downstreamStep edges S :=
  fun _ h => mem_downstreamStep.mpr (Or.inl h)

/-- Every round finds reachable nodes only. -/
theorem reach_of_mem_iterate (n : ℕ) {a b : α} (h : b ∈ (downstreamStep edges)^[n] {a}) :
    ReflTransGen (Edge edges) a b := by
  induction n generalizing b with
  | zero =>
    rw [Function.iterate_zero, id, Finset.mem_singleton] at h
    rw [h]
  | succ n ih =>
    rw [Function.iterate_succ_apply', mem_downstreamStep] at h
    rcases h with h | ⟨c, hc, he⟩
    · exact ih h
    · exact (ih hc).tail he

theorem iterate_subset (n : ℕ) (S : Finset α) :
    (downstreamStep edges)^[n] S ⊆ S ∪ (edges.map Prod.snd).toFinset := by
  induction n with
  | zero => exact Finset.subset_union_left
  | succ n ih =>
    rw [Function.iterate_succ_apply']
    intro b hb
    rcases mem_downstreamStep.mp hb with hb | ⟨a, -, he⟩
    · exact ih hb
    · exact Finset.mem_union_right _ (List.mem_toFinset.mpr (List.mem_map.mpr ⟨(a, b), he, rfl⟩))

/-- A round that finds nothing new is the last one; until then every round adds a node. -/
theorem iterate_closed_or_grows (n : ℕ) (S : Finset α) :
    downstreamStep edges ((downstreamStep edges)^[n] S) = (downstreamStep edges)^[n] S ∨
      S.card + n ≤ ((downstreamStep edges)^[n] S).card := by
  induction n with
  | zero => exact Or.inr le_rfl
  | succ n ih =>
    rw [Function.iterate_succ_apply']
    generalize (downstreamStep edges)^[n] S = T at ih ⊢
    by_cases hT : downstreamStep edges T = T
    · rw [hT]
      exact Or.inl hT
    · have hlt : T.card < (downstreamStep edges T).card :=
        Finset.card_lt_card (lt_of_le_of_ne (subset_downstreamStep T) (Ne.symm hT))
      rcases ih with ih | ih
      · exact absurd ih hT
      · exact Or.inr (by omega)

theorem downstream_closed (a : α) :
    downstreamStep edges (downstream edges a) = downstream edges a := by
  rcases iterate_closed_or_grows (edges.length + 1) ({a} : Finset α) with h | h
  · exact h
  · have hsub : ((downstreamStep edges)^[edges.length + 1] {a}).card ≤
        ({a} ∪ (edges.map Prod.snd).toFinset).card := Finset.card_le_card (iterate_subset _ _)
    have hunion := Finset.card_union_le ({a} : Finset α) (edges.map Prod.snd).toFinset
    have htargets := List.toFinset_card_le (edges.map Prod.snd)
    rw [List.length_map] at htargets
    omega

theorem start_mem_downstream (a : α) : a ∈ downstream edges a := by
  have hsub : ∀ n, ({a} : Finset α) ⊆ (downstreamStep edges)^[n] {a} := by
    intro n
    induction n with
    | zero => exact Finset.Subset.refl _
    | succ n ih =>
      rw [Function.iterate_succ_apply']
      exact ih.trans (subset_downstreamStep _)
  exact hsub _ (Finset.mem_singleton_self a)

/-- **Recursive query**: it returns exactly the reachable nodes. -/
theorem mem_downstream_iff {a b : α} :
    b ∈ downstream edges a ↔ ReflTransGen (Edge edges) a b := by
  refine ⟨reach_of_mem_iterate _, fun h => ?_⟩
  induction h with
  | refl => exact start_mem_downstream a
  | tail _ he ih =>
    rw [← downstream_closed]
    exact mem_downstreamStep.mpr (Or.inr ⟨_, ih, he⟩)

end Downstream

end CalmBoard.Digraph
