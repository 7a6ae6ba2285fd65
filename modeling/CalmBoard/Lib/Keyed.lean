import Mathlib.Data.List.Basic
import Mathlib.Data.List.Nodup

/-!
# CalmBoard.Lib.Keyed — entries under keys, in the order the keys came

An insertion keeps the position of a key that is there and puts a new key at the end.

* `put`, `find?_put`: one insertion, and what is found afterwards.
* `find?_restrict`: what is found after some keys are removed.
* `find?_puts`: many insertions; the last one of a key counts.
* `insertLast`, `distinct`: the keys alone, a list without its repetitions.
-/

namespace CalmBoard.Keyed

variable {α κ : Type*} [DecidableEq κ]

def put (key : α → κ) (l : List α) (a : α) : List α :=
  if l.any fun b => key b = key a then l.map fun b => if key b = key a then a else b else l ++ [a]

variable {key : α → κ}

/-- Other keys keep what they have. -/
theorem find?_replaced_of_ne {a : α} {k : κ} (h : key a ≠ k) :
    ∀ l : List α, (l.map fun b => if key b = key a then a else b).find? (fun b => key b = k) =
      l.find? fun b => key b = k
  | [] => rfl
  | b :: l => by
    rw [List.map_cons, List.find?_cons, List.find?_cons, find?_replaced_of_ne h l]
    by_cases hb : key b = key a
    · simp [hb, h]
    · simp [hb]

theorem find?_replaced {a : α} :
    ∀ {l : List α}, l.any (fun b => key b = key a) = true →
      (l.map fun b => if key b = key a then a else b).find? (fun b => key b = key a) = some a
  | b :: l, h => by
    rw [List.any_cons, Bool.or_eq_true, decide_eq_true_eq] at h
    by_cases hb : key b = key a
    · simp [hb]
    · simpa [hb] using find?_replaced (h.resolve_left hb)

theorem find?_put (l : List α) (a : α) (k : κ) :
    (put key l a).find? (fun b => key b = k) =
      if key a = k then some a else l.find? fun b => key b = k := by
  unfold put
  by_cases hk : key a = k
  · subst hk
    rw [if_pos rfl]
    split
    · rename_i hany
      exact find?_replaced hany
    · rename_i hnone
      have hfind : l.find? (fun b => key b = key a) = none :=
        List.find?_eq_none.mpr fun b hb hkey => hnone (List.any_eq_true.mpr ⟨b, hb, hkey⟩)
      simp [List.find?_append, hfind]
  · rw [if_neg hk]
    split
    · exact find?_replaced_of_ne hk l
    · simp [List.find?_append, hk]

theorem find?_restrict (p : κ → Prop) [DecidablePred p] (l : List α) (k : κ) :
    (l.filter fun b => p (key b)).find? (fun b => key b = k) =
      if p k then l.find? fun b => key b = k else none := by
  induction l with
  | nil => simp
  | cons b l ih =>
    by_cases hb : p (key b)
    · rw [List.filter_cons_of_pos (by simpa using hb), List.find?_cons, List.find?_cons, ih]
      by_cases hk : key b = k
      · simp [hk, hk ▸ hb]
      · simp [hk]
    · rw [List.filter_cons_of_neg (by simpa using hb), ih]
      by_cases hk : key b = k
      · rw [if_neg (hk ▸ hb), if_neg (hk ▸ hb)]
      · simp [hk]

/-- **Many insertions**: the last entry under a key is found, else what was there before. -/
theorem find?_puts (as : List α) (l : List α) (k : κ) :
    (as.foldl (put key) l).find? (fun b => key b = k) =
      (as.reverse.find? fun b => key b = k).or (l.find? fun b => key b = k) := by
  induction as generalizing l with
  | nil => rfl
  | cons a as ih =>
    rw [List.foldl_cons, ih, find?_put, List.reverse_cons, List.find?_append]
    by_cases hk : key a = k
    · simp [hk]
    · simp [hk]

end CalmBoard.Keyed

namespace CalmBoard

variable {α : Type} [DecidableEq α]

def insertLast (set : List α) (a : α) : List α := if a ∈ set then set else set ++ [a]

/-- The elements of a list in the order in which each comes first. -/
def distinct (l : List α) : List α := l.foldl insertLast []

variable {a : α} {l set : List α}

theorem mem_insertLast {b : α} : b ∈ insertLast set a ↔ b ∈ set ∨ b = a := by
  unfold insertLast
  split
  · next ha =>
    refine ⟨Or.inl, fun h => h.elim id ?_⟩
    rintro rfl
    exact ha
  · rw [List.mem_append, List.mem_singleton]

theorem nodup_insertLast (h : set.Nodup) : (insertLast set a).Nodup := by
  unfold insertLast
  split
  · exact h
  · next ha => exact List.nodup_append_comm.mp (List.nodup_cons.mpr ⟨ha, h⟩)

theorem nodup_foldl_insertLast : ∀ (l : List α) {set : List α}, set.Nodup →
    (l.foldl insertLast set).Nodup
  | [], _, h => h
  | _ :: l, _, h => nodup_foldl_insertLast l (nodup_insertLast h)

theorem nodup_distinct (l : List α) : (distinct l).Nodup := nodup_foldl_insertLast l List.nodup_nil

theorem mem_foldl_insertLast {b : α} : ∀ {l set : List α},
    b ∈ l.foldl insertLast set ↔ b ∈ set ∨ b ∈ l
  | [], set => by simp
  | a :: l, set => by
    rw [List.foldl_cons, mem_foldl_insertLast, mem_insertLast, List.mem_cons, or_assoc]

theorem mem_distinct {b : α} : b ∈ distinct l ↔ b ∈ l := by
  unfold distinct
  rw [mem_foldl_insertLast]
  simp

theorem foldl_insertLast : ∀ {l set : List α}, (set ++ l).Nodup → l.foldl insertLast set = set ++ l
  | [], set, _ => (List.append_nil set).symm
  | a :: l, set, h => by
    have ha : a ∉ set := by
      intro hmem
      exact (List.nodup_append.mp h).2.2 a hmem a List.mem_cons_self rfl
    have hinsert : insertLast set a = set ++ [a] := if_neg ha
    rw [List.foldl_cons, hinsert, foldl_insertLast (by simpa using h), List.append_assoc]
    rfl

theorem distinct_of_nodup (h : l.Nodup) : distinct l = l := foldl_insertLast h

end CalmBoard
