import CalmBoard.Lib.Table
import CalmBoard.Lib.Fallible

/-!
# CalmBoard.Lib.Update — an `UPDATE` statement with row triggers

A statement visits the rows it selects one by one.  A check sees the row before and after and the
store with the rows written so far; the first check that fails ends the statement.

* `updateRows`: the statement, over a store that holds the table somewhere.
* `updateRows_ok`: when the check does not read the table that is written, the statement succeeds
  exactly when every selected row passes at the start, and then all of them are rewritten.
* `updateRows_single`: the same for one row, whatever the check reads.
* `foldlM_updateRows`: one statement after the other, where no row is selected twice.
-/

namespace CalmBoard

open Fallible

variable {σ ρ κ ε : Type} {key : ρ → κ}

/-- Where a store keeps a table. -/
structure Place (σ : Type) {ρ κ : Type} (key : ρ → κ) where
  get : σ → Table ρ key
  set : Table ρ key → σ → σ
  get_set : ∀ T s, get (set T s) = T
  set_set : ∀ T U s, set T (set U s) = set T s
  set_get : ∀ s, set (get s) s = s

section Statement

variable [DecidableEq κ]

/-- Rewrite the rows that `p` selects with `f`; `check` sees each of them before and after. -/
def updateRows (place : Place σ key) (check : σ → ρ → ρ → Except ε Unit) (p : ρ → Bool) (f : ρ → ρ)
    (s : σ) : Except ε σ :=
  ((place.get s).rows.filter p).foldlM (fun s r => do
    check s r (f r)
    return place.set ((place.get s).put (f r)) s) s

end Statement

variable {T : Table ρ key}

namespace Table

theorem update_congr {p q : ρ → Bool} {f : ρ → ρ} {hf} (h : ∀ r ∈ T.rows, p r = q r) :
    T.update p f hf = T.update q f hf := by
  apply ext_rows
  rw [rows_update, rows_update]
  exact List.map_congr_left fun r hr => by rw [h r hr]

/-- One row is selected. -/
theorem filter_single {p : ρ → Bool} {r : ρ} (hr : r ∈ T.rows)
    (hp : ∀ x ∈ T.rows, p x = true ↔ x = r) : T.rows.filter p = [r] := by
  have hnodup : (T.rows.filter p).Nodup := T.nodup.of_map.filter p
  refine List.perm_singleton.mp ((List.perm_ext_iff_of_nodup hnodup (List.nodup_singleton r)).mpr ?_)
  intro x
  rw [List.mem_filter, List.mem_singleton]
  exact ⟨fun h => (hp x h.1).mp h.2, fun h => h ▸ ⟨hr, (hp r hr).mpr rfl⟩⟩

/-- Nothing is selected. -/
theorem update_none {p : ρ → Bool} {f : ρ → ρ} {hf} (h : ∀ r ∈ T.rows, p r = false) :
    T.update p f hf = T := by
  apply ext_rows
  rw [rows_update]
  exact (List.map_congr_left fun r hr => by simp [h r hr]).trans (List.map_id _)

/-- The rows a second update selects are not those that the first one wrote. -/
theorem mem_update_other {p q : ρ → Bool} {f : ρ → ρ} (hf : ∀ r, key (f r) = key r)
    (honce : ∀ r, p r = true → q (f r) = false) {r : ρ} (hq : q r = true) :
    r ∈ (T.update p f hf).rows ↔ r ∈ T.rows ∧ p r = false := by
  rw [mem_update]
  constructor
  · rintro ⟨x, hx, rfl⟩
    by_cases hp : p x = true
    · rw [if_pos hp, honce x hp] at hq
      cases hq
    · rw [if_neg hp]
      exact ⟨hx, by simpa using hp⟩
  · rintro ⟨hr, hp⟩
    exact ⟨r, hr, by simp [hp]⟩

/-- Two updates that write the same are one. -/
theorem update_update {p q : ρ → Bool} {f : ρ → ρ} (hf : ∀ r, key (f r) = key r)
    (honce : ∀ r, p r = true → q (f r) = false) :
    (T.update p f hf).update q f hf = T.update (fun r => p r || q r) f hf := by
  apply ext_rows
  rw [rows_update, rows_update, rows_update, List.map_map]
  refine List.map_congr_left fun r _ => ?_
  by_cases hp : p r = true
  · simp [hp, honce r hp]
  · simp [hp]

variable [DecidableEq κ]

/-- Replacing one row that is there is an update. -/
theorem put_eq_update {f : ρ → ρ} (hf : ∀ r, key (f r) = key r) {r : ρ} (hr : r ∈ T.rows) :
    T.put (f r) = T.update (fun x => decide (key x = key r)) f hf := by
  apply ext_rows
  rw [rows_put, rows_update]
  refine List.map_congr_left fun x hx => ?_
  by_cases hk : key x = key r
  · have hxr : x = r := eq_of_mem hx hr hk
    simp [hxr, hf]
  · simp [hk, hf]

/-- The rows of a list replaced one after the other. -/
theorem foldl_put {f : ρ → ρ} (hf : ∀ r, key (f r) = key r) :
    ∀ {L : List ρ} {T : Table ρ key}, (∀ r ∈ L, r ∈ T.rows) → (L.map key).Nodup →
      L.foldl (fun T r => T.put (f r)) T =
        T.update (fun x => decide (key x ∈ L.map key)) f hf
  | [], T, _, _ => (update_none fun r _ => by simp).symm
  | r :: L, T, hmem, hnodup => by
    obtain ⟨hr, hL⟩ := List.nodup_cons.mp hnodup
    have hkeep : ∀ x ∈ L, x ∈ (T.put (f r)).rows := by
      intro x hx
      have hne : key x ≠ key r := fun he => hr (he ▸ List.mem_map_of_mem hx)
      rw [rows_put]
      exact List.mem_map.mpr ⟨x, hmem x (List.mem_cons_of_mem r hx), by simp [hf, hne]⟩
    rw [List.foldl_cons, foldl_put hf hkeep hL]
    apply ext_rows
    rw [put_eq_update hf (hmem r List.mem_cons_self), rows_update, rows_update, rows_update,
      List.map_map]
    refine List.map_congr_left fun x _ => ?_
    by_cases hx : key x = key r
    · have hnot : key x ∉ L.map key := hx ▸ hr
      have hnot' : key (f x) ∉ L.map key := (hf x).symm ▸ hnot
      simp only [Function.comp_apply, hx, decide_true, if_true, List.map_cons, List.mem_cons,
        true_or]
      rw [if_neg (by simpa using hnot')]
    · simp [hx]

/-- The rows that are selected, replaced one after the other. -/
theorem foldl_put_filter {p : ρ → Bool} {f : ρ → ρ} (hf : ∀ r, key (f r) = key r) :
    (T.rows.filter p).foldl (fun T r => T.put (f r)) T = T.update p f hf := by
  rw [foldl_put hf (fun r hr => (List.mem_filter.mp hr).1)
    (T.nodup.sublist (List.filter_sublist.map key))]
  refine update_congr fun r hr => ?_
  by_cases hp : p r = true
  · rw [hp, decide_eq_true_eq]
    exact List.mem_map_of_mem (List.mem_filter.mpr ⟨hr, hp⟩)
  · rw [Bool.not_eq_true] at hp
    rw [hp, decide_eq_false_iff_not]
    intro hmem
    obtain ⟨x, hx, hk⟩ := List.mem_map.mp hmem
    obtain ⟨hx, hpx⟩ := List.mem_filter.mp hx
    rw [eq_of_mem hx hr hk, hp] at hpx
    cases hpx

end Table

variable [DecidableEq κ] {place : Place σ key} {check : σ → ρ → ρ → Except ε Unit}
  {p : ρ → Bool} {f : ρ → ρ} {s s' : σ}

/-- The loop over the selected rows, when checks do not see what it writes. -/
theorem foldlM_put_ok : ∀ (L : List ρ) (T : Table ρ key),
    (∀ r ∈ L, ∀ U, check (place.set U s) r (f r) = check s r (f r)) →
      (L.foldlM (fun s r => do
        check s r (f r)
        return place.set ((place.get s).put (f r)) s) (place.set T s) = Except.ok s' ↔
        (∀ r ∈ L, check s r (f r) = .ok ()) ∧
          s' = place.set (L.foldl (fun T r => T.put (f r)) T) s)
  | [], T, _ => by
    rw [List.foldlM_nil, pure_ok]
    simp [eq_comm]
  | r :: L, T, hcheck => by
    have hr := hcheck r List.mem_cons_self T
    have hrest := fun U => foldlM_put_ok L U fun x hx => hcheck x (List.mem_cons_of_mem r hx)
    simp only [List.foldlM_cons, bind_ok, pure_ok, hr, List.forall_mem_cons, List.foldl_cons]
    constructor
    · rintro ⟨_, ⟨⟨⟩, hok, rfl⟩, h⟩
      rw [place.get_set, place.set_set] at h
      obtain ⟨hall, hs'⟩ := (hrest _).mp h
      exact ⟨⟨hok, hall⟩, hs'⟩
    · rintro ⟨⟨hok, hall⟩, hs'⟩
      refine ⟨_, ⟨(), hok, rfl⟩, ?_⟩
      rw [place.get_set, place.set_set]
      exact (hrest _).mpr ⟨hall, hs'⟩

/-- **Statement rule**: every selected row passes, and all of them are rewritten. -/
theorem updateRows_ok (hf : ∀ r, key (f r) = key r)
    (hcheck : ∀ r ∈ (place.get s).rows, p r = true → ∀ U,
      check (place.set U s) r (f r) = check s r (f r)) :
    updateRows place check p f s = .ok s' ↔
      (∀ r ∈ (place.get s).rows, p r = true → check s r (f r) = .ok ()) ∧
        s' = place.set ((place.get s).update p f hf) s := by
  have hstart : place.set (place.get s) s = s := place.set_get s
  have hloop := @foldlM_put_ok _ _ _ _ _ _ place check f s s' ((place.get s).rows.filter p)
    (place.get s) fun r hr => hcheck r (List.mem_filter.mp hr).1 (List.mem_filter.mp hr).2
  rw [hstart] at hloop
  rw [Table.foldl_put_filter hf] at hloop
  unfold updateRows
  rw [hloop]
  simp only [List.mem_filter, and_imp]

/-- The statement that selects one row. -/
theorem updateRows_single {r : ρ} (hf : ∀ r, key (f r) = key r) (hr : r ∈ (place.get s).rows)
    (hp : ∀ x ∈ (place.get s).rows, p x = true ↔ x = r) :
    updateRows place check p f s = .ok s' ↔
      check s r (f r) = .ok () ∧ s' = place.set ((place.get s).update p f hf) s := by
  have hfilter : (place.get s).rows.filter p = [r] := Table.filter_single hr hp
  have hput : (place.get s).put (f r) = (place.get s).update p f hf := by
    rw [Table.put_eq_update hf hr]
    refine Table.update_congr fun x hx => Bool.eq_iff_iff.mpr ?_
    rw [decide_eq_true_eq, hp x hx]
    exact ⟨fun hk => Table.eq_of_mem hx hr hk, fun he => he ▸ rfl⟩
  unfold updateRows
  rw [hfilter, List.foldlM_cons, bind_ok]
  simp only [List.foldlM_nil, bind_ok, pure_ok]
  constructor
  · rintro ⟨t, ⟨⟨⟩, hok, rfl⟩, rfl⟩
    exact ⟨hok, by rw [hput]⟩
  · rintro ⟨hok, rfl⟩
    exact ⟨_, ⟨(), hok, rfl⟩, by rw [hput]⟩

/-- One statement for each element of a list, where a rewritten row is not selected again. -/
theorem foldlM_updateRows {α : Type} {pick : α → ρ → Bool} (hf : ∀ r, key (f r) = key r)
    (honce : ∀ a b r, pick a r = true → pick b (f r) = false) :
    ∀ (L : List α) (s : σ), (∀ a r U, pick a r = true →
        check (place.set U s) r (f r) = check s r (f r)) →
      (L.foldlM (fun s a => updateRows place check (pick a) f s) s = Except.ok s' ↔
        (∀ a ∈ L, ∀ r ∈ (place.get s).rows, pick a r = true → check s r (f r) = .ok ()) ∧
          s' = place.set ((place.get s).update (fun r => L.any fun a => pick a r) f hf) s)
  | [], s, _ => by
    have hnone : (place.get s).update (fun r => ([] : List α).any fun a => pick a r) f hf =
        place.get s := Table.update_none fun r _ => rfl
    rw [List.foldlM_nil, pure_ok, hnone, place.set_get]
    exact ⟨fun h => ⟨by simp, h.symm⟩, fun h => h.2.symm⟩
  | a :: L, s, hcheck => by
    set U := (place.get s).update (pick a) f hf with hU
    have hstable : ∀ b r V, pick b r = true →
        check (place.set V (place.set U s)) r (f r) = check (place.set U s) r (f r) := by
      intro b r V hp
      rw [place.set_set, hcheck b r V hp, hcheck b r U hp]
    have hrows : ∀ b r, pick b r = true →
        (r ∈ U.rows ↔ r ∈ (place.get s).rows ∧ pick a r = false) :=
      fun b r => Table.mem_update_other hf fun x => honce a b x
    have hupdate : U.update (fun r => L.any fun b => pick b r) f hf =
        (place.get s).update (fun r => (a :: L).any fun b => pick b r) f hf :=
      Table.update_update hf fun r ha => List.any_eq_false.mpr fun b _ => by simp [honce a b r ha]
    have hhead : ∀ t, updateRows place check (pick a) f s = .ok t ↔ (∀ r ∈ (place.get s).rows,
        pick a r = true → check s r (f r) = .ok ()) ∧ t = place.set U s :=
      fun t => updateRows_ok hf fun r _ hp V => hcheck a r V hp
    have htail := foldlM_updateRows hf honce L (place.set U s) hstable
    rw [place.get_set, place.set_set, hupdate] at htail
    rw [List.foldlM_cons, bind_ok]
    constructor
    · rintro ⟨t, ht, h⟩
      obtain ⟨hok, rfl⟩ := (hhead t).mp ht
      obtain ⟨hrest, hs'⟩ := htail.mp h
      refine ⟨fun b hb r hr hp => ?_, hs'⟩
      by_cases ha : pick a r = true
      · exact hok r hr ha
      · rcases List.mem_cons.mp hb with rfl | hb
        · exact hok r hr hp
        · rw [← hcheck b r U hp]
          exact hrest b hb r ((hrows b r hp).mpr ⟨hr, by simpa using ha⟩) hp
    · rintro ⟨hall, hs'⟩
      refine ⟨_, (hhead _).mpr ⟨fun r hr hp => hall a List.mem_cons_self r hr hp, rfl⟩, ?_⟩
      refine htail.mpr ⟨fun b hb r hr hp => ?_, hs'⟩
      rw [hcheck b r U hp]
      exact hall b (List.mem_cons_of_mem a hb) r ((hrows b r hp).mp hr).1 hp

end CalmBoard
