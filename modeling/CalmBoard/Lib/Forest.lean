import CalmBoard.Lib.Digraph
import Mathlib.Data.Set.Card
import Mathlib.Logic.Function.Basic

/-!
# CalmBoard.Lib.Forest — parent pointers of bounded depth

A forest is given by its parent pointers `up : K → Option K`.

* `Chain up k l`: `l` lists the ancestors of `k`, nearest first.
* `Bounded up n`: every node has a chain of at most `n` ancestors.
* `Within up m k`: nothing hangs more than `m` levels below `k`.
* `Bounded.within`: in a bounded forest at most `n` levels hang below a node.
* `Bounded.update`: moving a subtree keeps the bound if the levels above and below the moved node fit.
* `Bounded.acyclic`, `Bounded.encard_ancestors`: what the bound says about the ancestor relation.
-/

namespace CalmBoard.Forest

open Relation

variable {K : Type*} {up : K → Option K} {k p x : K} {l : List K} {m n : ℕ}

def Parent (up : K → Option K) (k p : K) : Prop := up k = some p

/-! ### Chains -/

inductive Chain (up : K → Option K) : K → List K → Prop
  | root {k : K} (h : up k = none) : Chain up k []
  | step {k p : K} {l : List K} (h : up k = some p) (rest : Chain up p l) : Chain up k (p :: l)

theorem Chain.unique {l' : List K} (h : Chain up k l) (h' : Chain up k l') : l = l' := by
  induction h generalizing l' with
  | root hk =>
    cases h' with
    | root => rfl
    | step hk' => rw [hk] at hk'; cases hk'
  | step hk rest ih =>
    cases h' with
    | root hk' => rw [hk] at hk'; cases hk'
    | step hk' rest' =>
      obtain rfl := Option.some.inj (hk.symm.trans hk')
      rw [ih rest']

theorem Chain.of_mem (h : Chain up k l) (hp : p ∈ l) :
    ∃ l', Chain up p l' ∧ l'.length < l.length := by
  induction h with
  | root => cases hp
  | @step k q l _ rest ih =>
    rcases List.mem_cons.mp hp with rfl | hp
    · exact ⟨l, rest, Nat.lt_succ_self _⟩
    · obtain ⟨l', hl', hlen⟩ := ih hp
      exact ⟨l', hl', Nat.lt_succ_of_lt hlen⟩

theorem Chain.not_mem (h : Chain up k l) : k ∉ l := by
  intro hk
  obtain ⟨l', hl', hlen⟩ := h.of_mem hk
  rw [h.unique hl'] at hlen
  exact lt_irrefl _ hlen

theorem Chain.nodup (h : Chain up k l) : l.Nodup := by
  induction h with
  | root => exact List.nodup_nil
  | step _ rest ih => exact List.nodup_cons.mpr ⟨rest.not_mem, ih⟩

theorem Chain.mem_iff (h : Chain up k l) : p ∈ l ↔ TransGen (Parent up) k p := by
  constructor
  · intro hp
    induction h with
    | root => cases hp
    | @step k q l hq rest ih =>
      rcases List.mem_cons.mp hp with rfl | hp
      · exact TransGen.single hq
      · exact TransGen.head hq (ih hp)
  · intro hp
    induction h with
    | @root k hk =>
      obtain ⟨q, hq, -⟩ := TransGen.head'_iff.mp hp
      rw [Parent, hk] at hq
      cases hq
    | @step k q l hq rest ih =>
      obtain ⟨q', hq', hrest⟩ := TransGen.head'_iff.mp hp
      obtain rfl := Option.some.inj (hq.symm.trans hq')
      rcases reflTransGen_iff_eq_or_transGen.mp hrest with rfl | hlt
      · exact List.mem_cons_self
      · exact List.mem_cons_of_mem _ (ih hlt)

/-- A node has as many ancestors as its chain has entries. -/
theorem Chain.encard (h : Chain up k l) : {p | TransGen (Parent up) k p}.encard = l.length := by
  classical
  have hset : {p | TransGen (Parent up) k p} = (l.toFinset : Set K) := by
    ext p
    simp [← h.mem_iff]
  rw [hset, Set.encard_coe_eq_coe_finsetCard, List.toFinset_card_of_nodup h.nodup]

/-! ### Bounded forests -/

def Bounded (up : K → Option K) (n : ℕ) : Prop := ∀ k, ∃ l, Chain up k l ∧ l.length ≤ n

theorem Bounded.acyclic (h : Bounded up n) : Digraph.Acyclic (Parent up) := by
  intro k hk
  obtain ⟨l, hl, -⟩ := h k
  exact hl.not_mem (hl.mem_iff.mpr hk)

/-- No node has more ancestors than the bound. -/
theorem Bounded.encard_ancestors (h : Bounded up n) (k : K) :
    {p | TransGen (Parent up) k p}.encard ≤ n := by
  obtain ⟨l, hl, hlen⟩ := h k
  rw [hl.encard]
  exact_mod_cast hlen

/-- A forest that loses pointers keeps its bound. -/
theorem Bounded.mono {up' : K → Option K} (h : Bounded up n)
    (hsub : ∀ k p, up' k = some p → up k = some p) : Bounded up' n := by
  intro k
  obtain ⟨l, hl, hlen⟩ := h k
  suffices hcut : ∃ l', Chain up' k l' ∧ l'.length ≤ l.length by
    obtain ⟨l', hl', hle⟩ := hcut
    exact ⟨l', hl', hle.trans hlen⟩
  clear hlen
  induction hl with
  | @root k hk =>
    refine ⟨[], .root ?_, le_rfl⟩
    cases hk' : up' k with
    | none => rfl
    | some p => rw [hsub k p hk'] at hk; cases hk
  | @step k p l hk rest ih =>
    cases hk' : up' k with
    | none => exact ⟨[], .root hk', Nat.zero_le _⟩
    | some q =>
      obtain rfl := Option.some.inj (hk.symm.trans (hsub k q hk'))
      obtain ⟨l', hl', hle⟩ := ih
      exact ⟨p :: l', .step hk' hl', Nat.succ_le_succ hle⟩

/-! ### Levels below a node -/

/-- Nothing hangs more than `m` levels below `k`. -/
def Within (up : K → Option K) : ℕ → K → Prop
  | 0, k => ∀ c, up c ≠ some k
  | m + 1, k => ∀ c, up c = some k → Within up m c

/-- `d` steps lead from `x` up to `k`. -/
def Climb (up : K → Option K) (k : K) : ℕ → K → Prop
  | 0, x => x = k
  | d + 1, x => ∃ p, up x = some p ∧ Climb up k d p

theorem Climb.within : ∀ {d : ℕ} {x : K}, Climb up k d x → Within up m k →
    d ≤ m ∧ Within up (m - d) x
  | 0, x, h, hk => by
    obtain rfl : x = k := h
    exact ⟨Nat.zero_le m, hk⟩
  | d + 1, x, ⟨p, hp, h⟩, hk => by
    obtain ⟨hle, hw⟩ := Climb.within h hk
    obtain ⟨j, hj⟩ : ∃ j, m - d = j := ⟨_, rfl⟩
    rw [hj] at hw
    cases j with
    | zero => exact absurd hp (hw x)
    | succ j =>
      refine ⟨by omega, ?_⟩
      rw [show m - (d + 1) = j by omega]
      exact hw x hp

theorem Within.mono : ∀ {m n : ℕ} {k : K}, Within up m k → m ≤ n → Within up n k
  | 0, 0, _, h, _ => h
  | 0, _ + 1, _, h, _ => fun c hc => absurd hc (h c)
  | _ + 1, _ + 1, _, h, hle => fun c hc => Within.mono (h c hc) (Nat.le_of_succ_le_succ hle)

theorem Chain.within (hn : Bounded up n) :
    ∀ {m : ℕ} {k : K} {l : List K}, Chain up k l → n ≤ m + l.length → Within up m k
  | 0, k, l, hl, hle => by
    intro c hc
    obtain ⟨l', hl', hlen⟩ := hn c
    have hlong : l' = k :: l := hl'.unique (.step hc hl)
    rw [hlong, List.length_cons] at hlen
    omega
  | m + 1, k, l, hl, hle => by
    intro c hc
    refine Chain.within hn (.step hc hl) ?_
    rw [List.length_cons]
    omega

theorem Bounded.within (h : Bounded up n) (k : K) : Within up n k := by
  obtain ⟨l, hl, -⟩ := h k
  exact hl.within h (Nat.le_add_right n l.length)

variable [DecidableEq K]

/-- A chain after the pointer of `k` is moved: its own, or the way to `k` and the new one. -/
theorem Chain.update {q : Option K} {new : List K} {L : List K}
    (hnew : Chain (Function.update up k q) k new) (h : Chain up x L) :
    ∃ L', Chain (Function.update up k q) x L' ∧
      (L'.length = L.length ∨ ∃ d, Climb up k d x ∧ L'.length = d + new.length) := by
  induction h with
  | @root x hx =>
    by_cases hxk : x = k
    · subst hxk
      exact ⟨new, hnew, Or.inr ⟨0, rfl, (Nat.zero_add _).symm⟩⟩
    · refine ⟨[], .root ?_, Or.inl rfl⟩
      rw [Function.update_of_ne hxk, hx]
  | @step x p L hx rest ih =>
    by_cases hxk : x = k
    · subst hxk
      exact ⟨new, hnew, Or.inr ⟨0, rfl, (Nat.zero_add _).symm⟩⟩
    obtain ⟨L', hL', hlen⟩ := ih
    refine ⟨p :: L', .step (by rw [Function.update_of_ne hxk, hx]) hL', ?_⟩
    rcases hlen with hlen | ⟨d, hd, hlen⟩
    · exact Or.inl (congrArg Nat.succ hlen)
    · refine Or.inr ⟨d + 1, ⟨p, hx, hd⟩, ?_⟩
      rw [List.length_cons, hlen]
      omega

/-- The chain above a node does not use the node's own pointer. -/
theorem Chain.avoid (q : Option K) (h : Chain up x l) (hx : x ≠ k) (hk : k ∉ l) :
    Chain (Function.update up k q) x l := by
  induction h with
  | @root x h => exact .root (by rw [Function.update_of_ne hx, h])
  | @step x p l h rest ih =>
    have hp : p ≠ k := fun he => hk (he ▸ List.mem_cons_self)
    exact .step (by rw [Function.update_of_ne hx, h]) (ih hp fun hmem => hk (List.mem_cons_of_mem _ hmem))

/-- **Moving a subtree**: `above` is the chain of `k` under its new pointer, `m` bounds the levels
below `k`. -/
theorem Bounded.update {q : Option K} {above : List K} (h : Bounded up n)
    (habove : Chain (Function.update up k q) k above) (hbelow : Within up m k)
    (hfits : above.length + m ≤ n) : Bounded (Function.update up k q) n := by
  intro x
  obtain ⟨L, hL, hlen⟩ := h x
  obtain ⟨L', hL', hsame | ⟨d, hd, hmoved⟩⟩ := Chain.update habove hL
  · exact ⟨L', hL', hsame ▸ hlen⟩
  · have hdm := (hd.within hbelow).1
    exact ⟨L', hL', by omega⟩

end CalmBoard.Forest
