import Mathlib.Data.List.Sort

/-!
# CalmBoard.Lib.Sorting — lists in an order, and stable sorting

* `map_eq_of_positions`: entries in the order of the positions of their keys are those keys.
* `nodup_of_parts`: keys that are distinct in every part of a list.
* `pairwise_insertIdx`: an entry that fits between its neighbours keeps a list in its order.
* `filter_insertionSort`: a stable sort leaves a part that is in order as it is.
-/

namespace CalmBoard.Positions

variable {α κ : Type*} {l : List α}

/-- **Positions**: a list in the order of the positions of its keys. -/
theorem map_eq_of_positions [DecidableEq κ] {key : α → κ} {keys : List κ} (hkeys : keys.Nodup)
    (hnodup : (l.map key).Nodup) (hmem : ∀ k, k ∈ l.map key ↔ k ∈ keys)
    (hsorted : l.Pairwise fun a b => keys.idxOf (key a) ≤ keys.idxOf (key b)) : l.map key = keys := by
  refine @List.Perm.eq_of_pairwise _ (fun j k => keys.idxOf j ≤ keys.idxOf k) _ _
    (fun j k hj _ hjk hkj => ?_) ?_ ?_ ?_
  · have hin : j ∈ keys := (hmem j).mp hj
    exact (List.idxOf_inj hin).mp (le_antisymm hjk hkj)
  · rw [List.pairwise_map]
    exact hsorted
  · rw [List.pairwise_iff_getElem]
    intro i j hi hj hij
    rw [hkeys.idxOf_getElem, hkeys.idxOf_getElem]
    exact hij.le
  · exact (List.perm_ext_iff_of_nodup hnodup hkeys).mpr hmem

theorem idxOf_of_getElem? [DecidableEq κ] {keys : List κ} (hkeys : keys.Nodup) {i : ℕ} {k : κ}
    (h : keys[i]? = some k) : keys.idxOf k = i := by
  obtain ⟨hlt, rfl⟩ := List.getElem?_eq_some_iff.mp h
  exact hkeys.idxOf_getElem i hlt

/-- Keys are distinct where they are so in every part and tell the parts apart. -/
theorem nodup_of_parts {γ : Type*} [DecidableEq γ] {key : α → κ} (part : α → γ)
    (hsame : ∀ a ∈ l, ∀ b ∈ l, key a = key b → part a = part b)
    (hnodup : ∀ c, ((l.filter fun a => part a = c).map key).Nodup) : (l.map key).Nodup := by
  induction l with
  | nil => exact List.nodup_nil
  | cons a l ih =>
    rw [List.map_cons, List.nodup_cons]
    constructor
    · intro hmem
      obtain ⟨b, hb, hkey⟩ := List.mem_map.mp hmem
      have hpart : part b = part a := hsame b (List.mem_cons_of_mem a hb) a List.mem_cons_self hkey
      have hin := hnodup (part a)
      rw [List.filter_cons_of_pos (by simp), List.map_cons, List.nodup_cons, ← hkey] at hin
      exact hin.1 (List.mem_map_of_mem (List.mem_filter.mpr ⟨hb, decide_eq_true hpart⟩))
    · refine ih (fun b hb c hc => ?_) fun c => ?_
      · exact hsame b (List.mem_cons_of_mem a hb) c (List.mem_cons_of_mem a hc)
      · exact (hnodup c).sublist (((List.sublist_cons_self a l).filter _).map key)

section Sorted

variable {r : α → α → Prop}

/-- **Insertion**: what stands before an entry comes up to it, what stands after goes on from it. -/
theorem pairwise_insertIdx [IsTrans α r] {x : α} {i : ℕ} (hi : i ≤ l.length) (hl : l.Pairwise r)
    (hbefore : i ≠ 0 → ∀ b, l[i - 1]? = some b → r b x) (hafter : ∀ a, l[i]? = some a → r x a) :
    (l.insertIdx i x).Pairwise r := by
  induction l generalizing i with
  | nil =>
    obtain rfl : i = 0 := Nat.le_zero.mp hi
    exact List.pairwise_singleton r x
  | cons y l ih =>
    obtain ⟨hy, hl⟩ := List.pairwise_cons.mp hl
    cases i with
    | zero =>
      have hxy : r x y := hafter y rfl
      rw [List.insertIdx_zero, List.pairwise_cons, List.forall_mem_cons]
      exact ⟨⟨hxy, fun z hz => IsTrans.trans _ _ _ hxy (hy z hz)⟩, List.pairwise_cons.mpr ⟨hy, hl⟩⟩
    | succ i =>
      have hi : i ≤ l.length := Nat.le_of_succ_le_succ hi
      have hyx : r y x := by
        cases i with
        | zero => exact hbefore (Nat.succ_ne_zero 0) y rfl
        | succ j =>
          have hj : j < l.length := hi
          exact IsTrans.trans _ _ _ (hy _ (List.getElem_mem hj))
            (hbefore (Nat.succ_ne_zero _) _ (List.getElem?_eq_getElem hj))
      rw [List.insertIdx_succ_cons, List.pairwise_cons]
      refine ⟨fun z hz => ?_, ih hi hl (fun hne b hb => ?_) hafter⟩
      · rcases (List.mem_insertIdx hi).mp hz with rfl | hz
        · exact hyx
        · exact hy z hz
      · refine hbefore (Nat.succ_ne_zero i) b ?_
        obtain ⟨j, rfl⟩ := Nat.exists_eq_succ_of_ne_zero hne
        exact hb

/-- **Stability**: the entries of a part that is in order stay in it as they stood. -/
theorem filter_insertionSort [DecidableRel r] [Std.Total r] [IsTrans α r] {p : α → Bool}
    (h : (l.filter p).Pairwise r) : (l.insertionSort r).filter p = l.filter p := by
  have hsub : (l.filter p).Sublist ((l.insertionSort r).filter p) := by
    have hsorted := (List.sublist_insertionSort h List.filter_sublist).filter p
    rwa [List.filter_eq_self.mpr fun a ha => (List.mem_filter.mp ha).2] at hsorted
  exact (hsub.eq_of_length ((List.perm_insertionSort r l).filter p).length_eq.symm).symm

end Sorted

end CalmBoard.Positions
