import Mathlib.Data.Int.ConditionallyCompleteOrder
import Mathlib.Data.Nat.Find
import Mathlib.Order.ConditionallyCompleteLattice.Basic
import Mathlib.Data.Set.Lattice
import Mathlib.Order.Bounds.Basic
import Mathlib.Order.Monotone.Basic

/-!
# CalmBoard.Lib.Successors — the members of a set, one after the other

* `FirstAfter`: a sequence starts with the first member of a set after a point and goes on with the
  first member after each of its own.
* `FirstAfter.strictMono`, `FirstAfter.range`: it runs through all members after that point, in order.
* `findSome?_range`: a search over `0, 1, …` stops at the first success.
-/

namespace CalmBoard.Successors

/-! ### Sequences -/

variable {α : Type*} [LinearOrder α]

/-- The members of `S` after `a`. -/
def after (S : Set α) (a : α) : Set α := {t | a < t ∧ t ∈ S}

structure FirstAfter (S : Set α) (a : α) (runs : ℕ → α) : Prop where
  first : IsLeast (after S a) (runs 0)
  next : ∀ n, IsLeast (after S (runs n)) (runs (n + 1))

variable {S : Set α} {a : α} {runs : ℕ → α}

theorem FirstAfter.strictMono (h : FirstAfter S a runs) : StrictMono runs :=
  strictMono_nat_of_lt_succ fun n => (h.next n).1.1

theorem FirstAfter.mem_after (h : FirstAfter S a runs) (n : ℕ) : runs n ∈ after S a := by
  induction n with
  | zero => exact h.first.1
  | succ n ih => exact ⟨ih.1.trans (h.next n).1.1, (h.next n).1.2⟩

/-- No member lies between two that follow each other. -/
theorem FirstAfter.exists_eq (h : FirstAfter S a runs) {t : α} (ht : t ∈ after S a) {n : ℕ}
    (hn : t ≤ runs n) : ∃ k, runs k = t := by
  induction n with
  | zero => exact ⟨0, le_antisymm (h.first.2 ht) hn⟩
  | succ n ih =>
    rcases le_or_gt t (runs n) with hle | hgt
    · exact ih hle
    · exact ⟨n + 1, le_antisymm ((h.next n).2 ⟨hgt, ht.2⟩) hn⟩

/-- Where points have a height, a sequence that grows passes every one of them. -/
theorem exists_le_of_strictMono (hruns : StrictMono runs) {height : α → ℤ}
    (hheight : StrictMono height) (t : α) : ∃ n, t ≤ runs n := by
  have hgrow : ∀ n : ℕ, height (runs 0) + n ≤ height (runs n) := by
    intro n
    induction n with
    | zero => simp
    | succ n ih =>
      have := hheight (hruns (Nat.lt_add_one n))
      push_cast
      omega
  refine ⟨(height t - height (runs 0)).toNat, hheight.le_iff_le.mp ?_⟩
  have := hgrow (height t - height (runs 0)).toNat
  omega

theorem FirstAfter.range (h : FirstAfter S a runs) (height : α → ℤ) (hheight : StrictMono height) :
    Set.range runs = after S a := by
  ext t
  constructor
  · rintro ⟨n, rfl⟩
    exact h.mem_after n
  · intro ht
    obtain ⟨n, hn⟩ := exists_le_of_strictMono h.strictMono hheight t
    exact h.exists_eq ht hn

/-! ### Searches -/

theorem findSome?_range {β : Type*} {f : ℕ → Option β} {n k : ℕ} (hk : k < n) {b : β}
    (h : f k = some b) :
    ∃ j ≤ k, ∃ c, f j = some c ∧ (∀ i < j, f i = none) ∧ (List.range n).findSome? f = some c := by
  have hfound : ∃ j, (f j).isSome := ⟨k, by rw [h]; rfl⟩
  obtain ⟨c, hc⟩ := Option.isSome_iff_exists.mp (Nat.find_spec hfound)
  have hbefore : ∀ i < Nat.find hfound, f i = none := fun i hi =>
    Option.not_isSome_iff_eq_none.mp (Nat.find_min hfound hi)
  have hle : Nat.find hfound ≤ k := Nat.find_min' hfound (by rw [h]; rfl)
  refine ⟨Nat.find hfound, hle, c, hc, hbefore, ?_⟩
  have hsplit : List.range n = List.range (Nat.find hfound) ++ Nat.find hfound ::
      List.range' (Nat.find hfound + 1) (n - Nat.find hfound - 1) := by
    have happend := List.range'_append_1 (s := 0) (m := Nat.find hfound) (n := n - Nat.find hfound)
    rw [Nat.zero_add, Nat.add_sub_cancel' (hle.trans hk.le)] at happend
    rw [List.range_eq_range', List.range_eq_range', ← happend, ← List.range'_succ]
    congr 2
    omega
  rw [hsplit, List.findSome?_append, List.findSome?_eq_none_iff.mpr, Option.none_or,
    List.findSome?_cons, hc]
  intro i hi
  exact hbefore i (List.mem_range.mp hi)

end CalmBoard.Successors
