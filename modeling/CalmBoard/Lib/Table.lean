import Mathlib.Data.List.Basic
import Mathlib.Data.List.Nodup
import Mathlib.Algebra.BigOperators.Group.List.Basic
import Mathlib.Tactic.Ring

/-!
# CalmBoard.Lib.Table — tables with a primary key

A `Table` is a list of rows whose keys are distinct, so a state that breaks the primary key cannot
be built.  `find?` reads by key, `insert?` refuses a key that is taken, `update` rewrites the
selected rows in place and leaves their keys alone.

* `find?_eq_some_iff`: reading by key is membership.
* `find?_update`, `find?_put`, `find?_insert?`: what a write does to every later read.
* `sum_put`: an aggregate over the table moves by the contribution of the one row written.
* `upsert`: a row is added or replaced.
* `map`: the same rows seen through a function that keeps their keys.
-/

namespace CalmBoard

/-- Rows with distinct keys. -/
structure Table (ρ : Type*) {κ : Type*} (key : ρ → κ) where
  rows : List ρ
  nodup : (rows.map key).Nodup

namespace Table

variable {ρ κ : Type*} {key : ρ → κ} {T : Table ρ key} {r : ρ}

def empty : Table ρ key := ⟨[], List.nodup_nil⟩

instance : Inhabited (Table ρ key) := ⟨empty⟩

/-- Rewrite the rows that `p` selects with `f`, which keeps the key. -/
def update (T : Table ρ key) (p : ρ → Bool) (f : ρ → ρ) (hf : ∀ r, key (f r) = key r) :
    Table ρ key where
  rows := T.rows.map fun r => if p r then f r else r
  nodup := by
    have h : (T.rows.map fun r => if p r then f r else r).map key = T.rows.map key := by
      rw [List.map_map]
      refine List.map_congr_left fun r _ => ?_
      simp only [Function.comp_apply]
      by_cases hp : p r = true
      · rw [if_pos hp, hf]
      · rw [if_neg hp]
    rw [h]
    exact T.nodup

/-- Delete the rows that `p` selects. -/
def remove (T : Table ρ key) (p : ρ → Bool) : Table ρ key where
  rows := T.rows.filter fun r => !p r
  nodup := T.nodup.sublist (List.filter_sublist.map key)

@[simp] theorem rows_remove (T : Table ρ key) (p : ρ → Bool) :
    (T.remove p).rows = T.rows.filter fun r => !p r := rfl

@[simp] theorem rows_empty : (empty : Table ρ key).rows = [] := rfl

@[simp] theorem rows_update (T : Table ρ key) (p : ρ → Bool) (f : ρ → ρ) (hf) :
    (T.update p f hf).rows = T.rows.map fun r => if p r then f r else r := rfl

theorem eq_of_mem {s : ρ} (hr : r ∈ T.rows) (hs : s ∈ T.rows) (h : key r = key s) : r = s :=
  List.inj_on_of_nodup_map T.nodup hr hs h

theorem mem_update {p : ρ → Bool} {f : ρ → ρ} {hf} {s : ρ} :
    s ∈ (T.update p f hf).rows ↔ ∃ r ∈ T.rows, (if p r then f r else r) = s := by
  simp

theorem sum_update {p : ρ → Bool} {f : ρ → ρ} {hf} (w : ρ → ℤ) (hr : r ∈ T.rows)
    (hp : ∀ s ∈ T.rows, p s = true ↔ s = r) :
    ((T.update p f hf).rows.map w).sum = (T.rows.map w).sum - w r + w (f r) := by
  have hnd : T.rows.Nodup := T.nodup.of_map
  rw [rows_update, List.map_map]
  clear hf
  revert hr hp hnd
  generalize T.rows = rows
  induction rows with
  | nil => intro hr; simp at hr
  | cons a rows ih =>
    intro hr hp hnd
    obtain ⟨ha, hnd⟩ := List.nodup_cons.mp hnd
    simp only [List.map_cons, List.sum_cons, Function.comp_apply]
    rcases List.mem_cons.mp hr with rfl | hr
    · have htail : rows.map (w ∘ fun s => if p s then f s else s) = rows.map w := by
        refine List.map_congr_left fun s hs => ?_
        have : p s ≠ true := fun h => ha ((hp s (List.mem_cons_of_mem _ hs)).mp h ▸ hs)
        simp [this]
      rw [htail, if_pos ((hp r List.mem_cons_self).mpr rfl)]
      ring
    · have hpa : p a ≠ true := fun h => ha ((hp a List.mem_cons_self).mp h ▸ hr)
      rw [if_neg hpa, ih hr (fun s hs => hp s (List.mem_cons_of_mem _ hs)) hnd]
      ring

/-- An aggregate after the selected rows are rewritten. -/
theorem sum_replaced (rows : List ρ) (p : ρ → Bool) (f : ρ → ρ) (v : ρ → ℤ) :
    ((rows.map fun r => if p r then f r else r).map v).sum =
      (rows.map v).sum + (((rows.filter fun r => p r).map f).map v).sum -
        ((rows.filter fun r => p r).map v).sum := by
  induction rows with
  | nil => simp
  | cons r rows ih =>
    by_cases hr : p r = true
    · simp only [List.map_cons, List.sum_cons, List.filter_cons_of_pos hr, if_pos hr, ih]
      ring
    · simp only [List.map_cons, List.sum_cons, List.filter_cons_of_neg hr, if_neg hr, ih]
      ring

/-- An aggregate over selected rows is one over all rows. -/
theorem sum_filter (rows : List ρ) (p : ρ → Prop) [DecidablePred p] (w : ρ → ℤ) :
    ((rows.filter fun r => p r).map w).sum = (rows.map fun r => if p r then w r else 0).sum := by
  induction rows with
  | nil => rfl
  | cons r rows ih =>
    by_cases hr : p r
    · rw [List.filter_cons_of_pos (by simpa using hr), List.map_cons, List.map_cons, List.sum_cons,
        List.sum_cons, if_pos hr, ih]
    · rw [List.filter_cons_of_neg (by simpa using hr), List.map_cons, List.sum_cons, if_neg hr,
        zero_add, ih]

/-- The rows seen through `f`. -/
def map {σ : Type*} {key' : σ → κ} (T : Table ρ key) (f : ρ → σ) (hf : ∀ r, key' (f r) = key r) :
    Table σ key' where
  rows := T.rows.map f
  nodup := by
    have h : (T.rows.map f).map key' = T.rows.map key := by
      rw [List.map_map]
      exact List.map_congr_left fun r _ => hf r
    rw [h]
    exact T.nodup

@[simp] theorem rows_map {σ : Type*} {key' : σ → κ} (T : Table ρ key) (f : ρ → σ) (hf) :
    (T.map f hf : Table σ key').rows = T.rows.map f := rfl

theorem ext_rows {U : Table ρ key} (h : T.rows = U.rows) : T = U := by
  cases T
  cases U
  cases h
  rfl

variable [DecidableEq κ]

/-- Replace the row that has the key of `r`. -/
def put (T : Table ρ key) (r : ρ) : Table ρ key :=
  T.update (fun s => key s = key r) (fun s => if key s = key r then r else s) fun s => by
    by_cases h : key s = key r
    · rw [if_pos h, h]
    · rw [if_neg h]

def find? (T : Table ρ key) (k : κ) : Option ρ := T.rows.find? fun r => key r = k

/-- Add a row; `none` when its key is taken. -/
def insert? (T : Table ρ key) (r : ρ) : Option (Table ρ key) :=
  if h : key r ∈ T.rows.map key then none
  else some ⟨T.rows ++ [r], by
    rw [List.map_append, List.nodup_append]
    refine ⟨T.nodup, List.nodup_singleton _, ?_⟩
    rintro a ha b hb rfl
    rw [List.map_singleton, List.mem_singleton] at hb
    exact h (hb ▸ ha)⟩

/-! ### Reading by key -/

variable {k : κ}

@[simp] theorem find?_empty (k : κ) : (empty : Table ρ key).find? k = none := rfl

theorem find?_eq_some_iff : T.find? k = some r ↔ r ∈ T.rows ∧ key r = k := by
  constructor
  · intro h
    exact ⟨List.mem_of_find?_eq_some h, by simpa using List.find?_some h⟩
  · rintro ⟨hr, rfl⟩
    cases hf : T.find? (key r) with
    | none =>
      have := List.find?_eq_none.mp hf r hr
      simp at this
    | some s =>
      have hs := List.mem_of_find?_eq_some hf
      have hk : key s = key r := by simpa using List.find?_some hf
      rw [eq_of_mem hs hr hk]

theorem find?_eq_none_iff : T.find? k = none ↔ ∀ r ∈ T.rows, key r ≠ k := by
  unfold find?
  simp

theorem key_of_find? (h : T.find? k = some r) : key r = k :=
  (find?_eq_some_iff.mp h).2

theorem mem_of_find? (h : T.find? k = some r) : r ∈ T.rows :=
  (find?_eq_some_iff.mp h).1

theorem find?_of_mem (h : r ∈ T.rows) : T.find? (key r) = some r :=
  find?_eq_some_iff.mpr ⟨h, rfl⟩

/-! ### Reading after a write -/

@[simp] theorem find?_update (T : Table ρ key) (p : ρ → Bool) (f : ρ → ρ) (hf) (k : κ) :
    (T.update p f hf).find? k = (T.find? k).map fun r => if p r then f r else r := by
  unfold find?
  rw [rows_update, List.find?_map]
  congr 2
  funext r
  simp only [Function.comp_apply]
  by_cases hp : p r = true
  · rw [if_pos hp, hf]
  · rw [if_neg hp]

theorem rows_put (T : Table ρ key) (r : ρ) :
    (T.put r).rows = T.rows.map fun s => if key s = key r then r else s := by
  unfold put
  rw [rows_update]
  refine List.map_congr_left fun s _ => ?_
  by_cases h : key s = key r
  · simp [h]
  · simp [h]

theorem mem_put {s : ρ} (h : s ∈ (T.put r).rows) : s = r ∨ s ∈ T.rows := by
  rw [rows_put, List.mem_map] at h
  obtain ⟨t, ht, rfl⟩ := h
  split
  · exact Or.inl rfl
  · exact Or.inr ht

theorem put_self (h : T.find? (key r) = some r) : T.put r = T := by
  apply ext_rows
  rw [rows_put]
  conv_rhs => rw [← List.map_id T.rows]
  refine List.map_congr_left fun s hs => ?_
  by_cases hk : key s = key r
  · rw [if_pos hk, eq_of_mem (mem_of_find? h) hs hk.symm, id]
  · rw [if_neg hk, id]

theorem put_put (T : Table ρ key) {s : ρ} (h : key r = key s) : (T.put r).put s = T.put s := by
  apply ext_rows
  simp only [rows_put, List.map_map]
  refine List.map_congr_left fun t _ => ?_
  simp only [Function.comp_apply]
  by_cases ht : key t = key r
  · rw [if_pos ht, if_pos h, if_pos (ht.trans h)]
  · rw [if_neg ht]

theorem find?_put_of_ne (hk : key r ≠ k) : (T.put r).find? k = T.find? k := by
  unfold put
  rw [find?_update]
  cases hf : T.find? k with
  | none => rfl
  | some t =>
    have ht : key t ≠ key r := fun he => hk (he ▸ key_of_find? hf)
    simp [ht]

theorem find?_put {s : ρ} (h : T.find? (key r) = some s) (k : κ) :
    (T.put r).find? k = if key r = k then some r else T.find? k := by
  by_cases hk : key r = k
  · subst hk
    unfold put
    rw [find?_update]
    simp [h, key_of_find? h]
  · rw [if_neg hk, find?_put_of_ne hk]

/-- Writing one row moves an aggregate by that row's change. -/
theorem sum_put {s : ρ} (w : ρ → ℤ) (h : T.find? (key r) = some s) :
    ((T.put r).rows.map w).sum = (T.rows.map w).sum - w s + w r := by
  have hs := key_of_find? h
  unfold put
  rw [sum_update w (mem_of_find? h), if_pos hs]
  intro t ht
  rw [decide_eq_true_eq]
  exact ⟨fun he => eq_of_mem ht (mem_of_find? h) (he.trans hs.symm), fun he => he ▸ hs⟩

theorem map_put {σ : Type*} {key' : σ → κ} (T : Table ρ key) (f : ρ → σ)
    (hf : ∀ r, key' (f r) = key r) (r : ρ) : (T.put r).map f hf = (T.map f hf).put (f r) := by
  apply ext_rows
  simp only [rows_map, rows_put, List.map_map]
  refine List.map_congr_left fun s _ => ?_
  simp only [Function.comp_apply, hf]
  split <;> rfl

@[simp] theorem find?_map {σ : Type*} {key' : σ → κ} (T : Table ρ key) (f : ρ → σ)
    (hf : ∀ r, key' (f r) = key r) (k : κ) : (T.map f hf).find? k = (T.find? k).map f := by
  unfold find?
  rw [rows_map, List.find?_map]
  congr 2
  funext r
  simp [hf]

theorem insert?_eq_some {U : Table ρ key} (h : T.insert? r = some U) :
    T.find? (key r) = none ∧ U.rows = T.rows ++ [r] := by
  unfold insert? at h
  split at h
  · cases h
  · rename_i hk
    cases h
    refine ⟨find?_eq_none_iff.mpr fun s hs he => hk ?_, rfl⟩
    exact he ▸ List.mem_map_of_mem hs

theorem insert?_map {σ : Type*} {key' : σ → κ} {U : Table ρ key} (h : T.insert? r = some U)
    (f : ρ → σ) (hf : ∀ r, key' (f r) = key r) :
    (T.map f hf).insert? (f r) = some (U.map f hf) := by
  obtain ⟨hnone, hrows⟩ := insert?_eq_some h
  have hfree : key' (f r) ∉ (T.map f hf).rows.map key' := by
    rw [hf, rows_map, List.map_map, List.mem_map]
    rintro ⟨s, hs, he⟩
    exact find?_eq_none_iff.mp hnone s hs ((hf s).symm.trans he)
  unfold insert?
  rw [dif_neg hfree]
  congr 1
  apply ext_rows
  simp [hrows]

theorem find?_insert? {U : Table ρ key} (h : T.insert? r = some U) (k : κ) :
    U.find? k = if key r = k then some r else T.find? k := by
  obtain ⟨hnone, hrows⟩ := insert?_eq_some h
  unfold find? at hnone ⊢
  rw [hrows, List.find?_append]
  by_cases hk : key r = k
  · rw [if_pos hk, ← hk, hnone]
    simp
  · rw [if_neg hk]
    simp [hk]

/-! ### Writing by key -/

/-- Add a row, or replace the one that has its key. -/
def upsert (T : Table ρ key) (r : ρ) : Table ρ key := (T.insert? r).getD (T.put r)

theorem insert?_eq_none (h : T.insert? r = none) : ∃ s, T.find? (key r) = some s := by
  unfold insert? at h
  split at h
  · next hmem =>
    obtain ⟨s, hs, hk⟩ := List.mem_map.mp hmem
    exact ⟨s, find?_eq_some_iff.mpr ⟨hs, hk⟩⟩
  · cases h

theorem rows_upsert (h : T.find? (key r) = none) : (T.upsert r).rows = T.rows ++ [r] := by
  unfold upsert
  cases hi : T.insert? r with
  | some U => exact (insert?_eq_some hi).2
  | none =>
    obtain ⟨s, hs⟩ := insert?_eq_none hi
    rw [h] at hs
    cases hs

theorem find?_upsert (T : Table ρ key) (r : ρ) (k : κ) :
    (T.upsert r).find? k = if key r = k then some r else T.find? k := by
  unfold upsert
  cases h : T.insert? r with
  | some U => exact find?_insert? h k
  | none =>
    obtain ⟨s, hs⟩ := insert?_eq_none h
    exact find?_put hs k

theorem mem_upsert {s : ρ} (h : s ∈ (T.upsert r).rows) : s = r ∨ s ∈ T.rows := by
  have hfind := find?_of_mem h
  rw [find?_upsert] at hfind
  split at hfind
  · cases hfind
    exact Or.inl rfl
  · exact Or.inr (mem_of_find? hfind)

theorem find?_foldl_upsert {rows : List ρ} (hrows : ∀ r ∈ rows, key r ≠ k) :
    (rows.foldl upsert T).find? k = T.find? k := by
  induction rows generalizing T with
  | nil => rfl
  | cons r rows ih =>
    rw [List.foldl_cons, ih fun s hs => hrows s (List.mem_cons_of_mem r hs), find?_upsert,
      if_neg (hrows r List.mem_cons_self)]

/-- A key whose row is not removed. -/
theorem find?_remove_of {p : ρ → Bool} (hp : ∀ r, key r = k → p r = false) :
    (T.remove p).find? k = T.find? k := by
  cases hf : T.find? k with
  | none =>
    refine find?_eq_none_iff.mpr fun r hr => ?_
    rw [rows_remove] at hr
    exact find?_eq_none_iff.mp hf r (List.mem_of_mem_filter hr)
  | some r =>
    obtain ⟨hr, hk⟩ := find?_eq_some_iff.mp hf
    refine find?_eq_some_iff.mpr ⟨?_, hk⟩
    rw [rows_remove]
    exact List.mem_filter.mpr ⟨hr, by rw [hp r hk]; rfl⟩

end Table

end CalmBoard
