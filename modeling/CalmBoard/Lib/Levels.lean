import Mathlib.Algebra.BigOperators.Group.List.Basic
import Mathlib.Algebra.BigOperators.Intervals
import Mathlib.Algebra.BigOperators.Ring.Finset
import Mathlib.Tactic.Ring
import Mathlib.Algebra.Order.BigOperators.Group.Finset
import Mathlib.Algebra.Order.BigOperators.Group.List
import Mathlib.Data.List.ProdSigma

/-!
# CalmBoard.Lib.Levels — counting by levels

* `length_eq_sum_levels`: a list is as long as its levels together.
* `sum_levels_le`: levels that grow by a factor at most stay below a geometric sum.
* `length_flatMap_le`, `length_le_product`: bounds for what the entries of a list give rise to.
-/

namespace CalmBoard.Levels

variable {α β : Type*}

theorem length_eq_sum_levels (f : α → ℕ) (n : ℕ) : ∀ l : List α, (∀ x ∈ l, f x < n) →
    l.length = ∑ d ∈ Finset.range n, l.countP fun x => f x = d
  | [], _ => by simp
  | x :: l, h => by
    have hx : f x ∈ Finset.range n := Finset.mem_range.mpr (h x List.mem_cons_self)
    have hl := length_eq_sum_levels f n l fun y hy => h y (List.mem_cons_of_mem x hy)
    simp only [List.countP_cons, List.length_cons, decide_eq_true_eq]
    rw [Finset.sum_add_distrib, ← hl, Finset.sum_ite_eq, if_pos hx]

theorem level_le {level : ℕ → ℕ} {b : ℕ} (h : ∀ d, level (d + 1) ≤ b * level d) :
    ∀ d, level d ≤ level 0 * b ^ d
  | 0 => by simp
  | d + 1 => by
    calc level (d + 1) ≤ b * level d := h d
      _ ≤ b * (level 0 * b ^ d) := Nat.mul_le_mul_left b (level_le h d)
      _ = level 0 * b ^ (d + 1) := by ring

theorem sum_levels_le {level : ℕ → ℕ} {b : ℕ} (h : ∀ d, level (d + 1) ≤ b * level d) (n : ℕ) :
    ∑ d ∈ Finset.range n, level d ≤ level 0 * ∑ d ∈ Finset.range n, b ^ d := by
  rw [Finset.mul_sum]
  exact Finset.sum_le_sum fun d _ => level_le h d

theorem length_flatMap_le {f : α → List β} {b : ℕ} : ∀ l : List α, (∀ x ∈ l, (f x).length ≤ b) →
    (l.flatMap f).length ≤ b * l.length
  | [], _ => by simp
  | x :: l, h => by
    have hx := h x List.mem_cons_self
    have hl := length_flatMap_le l fun y hy => h y (List.mem_cons_of_mem x hy)
    rw [List.flatMap_cons, List.length_append, List.length_cons, Nat.mul_succ]
    omega

/-- Distinct pairs with components from two lists. -/
theorem length_le_product {l : List (α × β)} {s : List α} {t : List β} (h : l.Nodup)
    (hmem : ∀ p ∈ l, p.1 ∈ s ∧ p.2 ∈ t) : l.length ≤ s.length * t.length := by
  rw [← List.length_product]
  refine (List.subperm_of_subset h fun p hp => ?_).length_le
  exact List.mem_product.mpr (hmem p hp)

end CalmBoard.Levels
