import CalmBoard.Lib.Keyed
import Mathlib.Algebra.Order.BigOperators.Group.List

/-!
# CalmBoard.Lib.Capped — amounts that are added up under keys, up to a cap

* `get?`, `add`, `addAll`: what is under a key, one more amount, and a list of amounts; `foldlM_adds`
  finds such a list in a loop.
* `total`: the sum of the amounts of a key.
* `get?_addAll`: under a key is its total, up to the cap.
* `addAll_perm`: what a list of amounts comes to, for a list that has all of its keys.
* `addAll_comm`: the order of the amounts does not matter.
* `sum_addAll`: everything that was added.
-/

namespace CalmBoard.Capped

variable {κ α : Type} [DecidableEq κ]

def get? (l : List (κ × α)) (k : κ) : Option α := (l.find? fun p => p.1 = k).map Prod.snd

variable [AddCommMonoid α] [LinearOrder α]

/-- The amount is cut to the cap, and the sum again. -/
def add (cap : α) (l : List (κ × α)) (e : κ × α) : List (κ × α) :=
  Keyed.put Prod.fst l (e.1, min cap ((get? l e.1).getD 0 + min cap e.2))

def addAll (cap : α) (events : List (κ × α)) : List (κ × α) := events.foldl (add cap) []

def total (events : List (κ × α)) (k : κ) : α := ((events.filter fun e => e.1 = k).map Prod.snd).sum

variable {cap : α} {l events events' : List (κ × α)} {e : κ × α} {k : κ}

/-- A loop whose rounds add some amounts each. -/
theorem foldlM_adds {ε σ β γ : Type} {f : σ → γ → Except ε σ} {g : σ → β → σ} {adds : γ → List β} :
    ∀ {l : List γ} {s : σ}, (∀ s a, a ∈ l → f s a = .ok ((adds a).foldl g s)) →
      l.foldlM f s = .ok ((l.flatMap adds).foldl g s)
  | [], _, _ => rfl
  | a :: l, s, h => by
    rw [List.foldlM_cons, h s a List.mem_cons_self, List.flatMap_cons, List.foldl_append]
    exact foldlM_adds fun s b hb => h s b (List.mem_cons_of_mem a hb)

omit [DecidableEq κ] [LinearOrder α] in
/-- What is left out adds nothing. -/
theorem sum_filter {keys : List κ} {f : κ → α} {p : κ → Bool} (h : ∀ k ∈ keys, p k = false → f k = 0) :
    ((keys.filter p).map f).sum = (keys.map f).sum := by
  induction keys with
  | nil => rfl
  | cons k keys ih =>
    obtain ⟨hk, hrest⟩ := List.forall_mem_cons.mp h
    rw [List.map_cons, List.sum_cons, ← ih hrest]
    cases hp : p k with
    | true => rw [List.filter_cons_of_pos hp, List.map_cons, List.sum_cons]
    | false => rw [List.filter_cons_of_neg (by simp [hp]), hk hp, zero_add]

/-! ### Keys -/

omit [AddCommMonoid α] [LinearOrder α] in
theorem mem_iff_get? {v : α} (h : (l.map Prod.fst).Nodup) : (k, v) ∈ l ↔ get? l k = some v := by
  unfold get?
  induction l with
  | nil => simp
  | cons p l ih =>
    rw [List.map_cons, List.nodup_cons] at h
    rw [List.mem_cons, List.find?_cons, ih h.2]
    by_cases hk : p.1 = k
    · have hother : (l.find? fun q => q.1 = k) = none := by
        refine List.find?_eq_none.mpr fun q hq hqk => h.1 ?_
        rw [hk, ← decide_eq_true_iff.mp hqk]
        exact List.mem_map_of_mem hq
      rw [hother]
      simp [hk, Prod.ext_iff, eq_comm]
    · simp [hk, Prod.ext_iff, eq_comm (a := k)]

omit [AddCommMonoid α] [LinearOrder α] in
/-- The keys stay in the order in which they came. -/
theorem keys_put {β : Type} {key : β → κ} (l : List β) (a : β) :
    (Keyed.put key l a).map key = insertLast (l.map key) (key a) := by
  have hany : (l.any fun b => key b = key a) = true ↔ key a ∈ l.map key := by
    rw [List.any_eq_true, List.mem_map]
    simp only [decide_eq_true_iff]
  unfold Keyed.put insertLast
  split
  · next h =>
    rw [if_pos (hany.mp h), List.map_map]
    refine List.map_congr_left fun b _ => ?_
    show key (if key b = key a then a else b) = key b
    split
    · next hb => exact hb.symm
    · rfl
  · next h =>
    rw [if_neg (fun hmem => h (hany.mpr hmem)), List.map_append, List.map_singleton]

omit [AddCommMonoid α] [LinearOrder α] in
/-- What is put under different keys is there afterwards. -/
theorem get?_puts {as : List (κ × α)} (h : (as.map Prod.fst).Nodup) {v : α} :
    get? (as.foldl (Keyed.put Prod.fst) []) k = some v ↔ (k, v) ∈ as := by
  have hreverse : (as.reverse.map Prod.fst).Nodup := by
    rw [List.map_reverse, List.nodup_reverse]
    exact h
  rw [← List.mem_reverse, mem_iff_get? hreverse]
  unfold get?
  rw [Keyed.find?_puts, List.find?_nil, Option.or_none]

theorem keys_add : (add cap l e).map Prod.fst = insertLast (l.map Prod.fst) e.1 := keys_put l _

theorem keys_foldl : (events.foldl (add cap) l).map Prod.fst =
    (events.map Prod.fst).foldl insertLast (l.map Prod.fst) := by
  induction events generalizing l with
  | nil => rfl
  | cons e events ih => rw [List.foldl_cons, ih, keys_add, List.map_cons, List.foldl_cons]

theorem keys_addAll : (addAll cap events).map Prod.fst = distinct (events.map Prod.fst) := keys_foldl

theorem nodup_keys : ((addAll cap events).map Prod.fst).Nodup := by
  rw [keys_addAll]
  exact nodup_distinct _

/-! ### Amounts -/

theorem get?_add : get? (add cap l e) k =
    if e.1 = k then some (min cap ((get? l e.1).getD 0 + min cap e.2)) else get? l k := by
  unfold get? add
  rw [Keyed.find?_put]
  split
  · rfl
  · rfl

omit [LinearOrder α] in
theorem total_cons : total (e :: events) k = (if e.1 = k then e.2 else 0) + total events k := by
  unfold total
  by_cases hk : e.1 = k
  · rw [List.filter_cons_of_pos (by simpa using hk), if_pos hk, List.map_cons, List.sum_cons]
  · rw [List.filter_cons_of_neg (by simpa using hk), if_neg hk, zero_add]

omit [LinearOrder α] in
theorem total_append : total (events ++ events') k = total events k + total events' k := by
  unfold total
  rw [List.filter_append, List.map_append, List.sum_append]

omit [LinearOrder α] in
theorem total_flatMap {β : Type} (l : List β) (f : β → List (κ × α)) :
    total (l.flatMap f) k = (l.map fun b => total (f b) k).sum := by
  induction l with
  | nil => rfl
  | cons b l ih => rw [List.flatMap_cons, total_append, ih, List.map_cons, List.sum_cons]

omit [LinearOrder α] in
theorem total_of_notMem (h : k ∉ events.map Prod.fst) : total events k = 0 := by
  have hnone : (events.filter fun e => e.1 = k) = [] := by
    refine List.filter_eq_nil_iff.mpr fun e he hk => h ?_
    rw [← decide_eq_true_iff.mp hk]
    exact List.mem_map_of_mem he
  unfold total
  rw [hnone]
  rfl

variable [IsOrderedAddMonoid α]

theorem total_nonneg (h : ∀ e ∈ events, 0 ≤ e.2) : 0 ≤ total events k := by
  refine List.sum_nonneg fun a ha => ?_
  obtain ⟨e, he, rfl⟩ := List.mem_map.mp ha
  exact h e (List.mem_of_mem_filter he)

omit [DecidableEq κ] in
/-- Cutting a part of a sum does not show once the sum is cut. -/
theorem min_min_add {a b : α} (hb : 0 ≤ b) : min cap (min cap a + b) = min cap (a + b) := by
  rcases le_total a cap with h | h
  · rw [min_eq_right h]
  · rw [min_eq_left h, min_eq_left (le_add_of_nonneg_right hb),
      min_eq_left (le_add_of_le_of_nonneg h hb)]

/-- The amount of a key while it grows. -/
theorem getD_foldl (h : ∀ e ∈ events, 0 ≤ e.2) (hlow : 0 ≤ (get? l k).getD 0)
    (hhigh : (get? l k).getD 0 ≤ cap) : (get? (events.foldl (add cap) l) k).getD 0 =
      min cap ((get? l k).getD 0 + total events k) := by
  induction events generalizing l with
  | nil => exact ((min_eq_right hhigh).symm.trans (by rw [show total [] k = (0 : α) from rfl, add_zero]))
  | cons e events ih =>
    obtain ⟨he, h⟩ := List.forall_mem_cons.mp h
    have hcap : 0 ≤ cap := hlow.trans hhigh
    rw [List.foldl_cons, total_cons]
    by_cases hk : e.1 = k
    · subst hk
      have hadd : (get? (add cap l e) e.1).getD 0 = min cap ((get? l e.1).getD 0 + min cap e.2) := by
        rw [get?_add, if_pos rfl, Option.getD_some]
      have hrest : 0 ≤ (get? l e.1).getD 0 + total events e.1 := add_nonneg hlow (total_nonneg h)
      rw [ih h ?_ ?_, hadd, min_min_add (total_nonneg h), if_pos rfl]
      · calc min cap ((get? l e.1).getD 0 + min cap e.2 + total events e.1)
            = min cap (min cap e.2 + ((get? l e.1).getD 0 + total events e.1)) := by
              rw [add_comm _ (min cap e.2), add_assoc]
          _ = min cap (e.2 + ((get? l e.1).getD 0 + total events e.1)) := min_min_add hrest
          _ = min cap ((get? l e.1).getD 0 + (e.2 + total events e.1)) := by rw [add_left_comm]
      · rw [hadd]
        exact le_min hcap (add_nonneg hlow (le_min hcap he))
      · rw [hadd]
        exact min_le_left _ _
    · have hadd : get? (add cap l e) k = get? l k := by
        rw [get?_add, if_neg hk]
      rw [ih h (by rwa [hadd]) (by rwa [hadd]), hadd, if_neg hk, zero_add]

/-- **Under a key** is its total, up to the cap. -/
theorem get?_addAll (h : ∀ e ∈ events, 0 ≤ e.2) (hcap : 0 ≤ cap) {v : α} :
    get? (addAll cap events) k = some v ↔ k ∈ events.map Prod.fst ∧ v = min cap (total events k) := by
  have hvalue : (get? (addAll cap events) k).getD 0 = min cap (total events k) := by
    have hfold := getD_foldl (l := []) (k := k) h le_rfl hcap
    rwa [show (get? ([] : List (κ × α)) k).getD 0 = 0 from rfl, zero_add] at hfold
  have hkey : k ∈ events.map Prod.fst ↔ (get? (addAll cap events) k).isSome := by
    have hkeys : (addAll cap events).map Prod.fst = distinct (events.map Prod.fst) := keys_addAll
    rw [← mem_distinct (l := events.map Prod.fst), ← hkeys]
    unfold get?
    rw [Option.isSome_map, List.find?_isSome]
    simp
  rw [hkey]
  cases hget : get? (addAll cap events) k with
  | none => simp
  | some u =>
    rw [hget, Option.getD_some] at hvalue
    rw [hvalue]
    simp [eq_comm]

/-! ### All amounts -/

/-- What the amounts come to, in the order of any list that has their keys. -/
theorem addAll_perm {keys : List κ} (h : ∀ e ∈ events, 0 ≤ e.2) (hcap : 0 ≤ cap) (hkeys : keys.Nodup)
    (hmem : ∀ e ∈ events, e.1 ∈ keys) :
    (addAll cap events).Perm
      ((keys.filter fun k => k ∈ events.map Prod.fst).map fun k => (k, min cap (total events k))) := by
  have hnodup : ((keys.filter fun k => k ∈ events.map Prod.fst).map
      fun k => (k, min cap (total events k))).Nodup := by
    refine (hkeys.filter _).map fun a b hab => ?_
    exact congrArg Prod.fst hab
  refine (List.perm_ext_iff_of_nodup (List.Nodup.of_map _ nodup_keys) hnodup).mpr ?_
  rintro ⟨k, v⟩
  rw [mem_iff_get? nodup_keys, get?_addAll h hcap]
  constructor
  · rintro ⟨hk, rfl⟩
    obtain ⟨e, he, rfl⟩ := List.mem_map.mp hk
    exact List.mem_map.mpr ⟨e.1, List.mem_filter.mpr ⟨hmem e he, decide_eq_true hk⟩, rfl⟩
  · intro hv
    obtain ⟨k', hk', heq⟩ := List.mem_map.mp hv
    cases heq
    exact ⟨of_decide_eq_true (List.mem_filter.mp hk').2, rfl⟩

omit [LinearOrder α] [IsOrderedAddMonoid α] in
theorem total_perm (h : events.Perm events') : total events k = total events' k :=
  ((h.filter _).map _).sum_eq

/-- **The order of the amounts** does not matter. -/
theorem addAll_comm (hperm : events.Perm events') (h : ∀ e ∈ events, 0 ≤ e.2) (hcap : 0 ≤ cap) :
    (addAll cap events).Perm (addAll cap events') := by
  have h' : ∀ e ∈ events', 0 ≤ e.2 := fun e he => h e (hperm.mem_iff.mpr he)
  have hkeys := nodup_distinct (events.map Prod.fst)
  have hleft := addAll_perm h hcap hkeys fun e he => mem_distinct.mpr (List.mem_map_of_mem he)
  have hright := addAll_perm h' hcap hkeys fun e he =>
    mem_distinct.mpr (List.mem_map_of_mem (hperm.mem_iff.mpr he))
  refine hleft.trans (List.Perm.trans ?_ hright.symm)
  have hmem : ∀ k, k ∈ events.map Prod.fst ↔ k ∈ events'.map Prod.fst :=
    fun k => (hperm.map Prod.fst).mem_iff
  simp only [hmem, total_perm hperm]
  exact List.Perm.refl _

/-- **Everything** that was added. -/
theorem sum_addAll {keys : List κ} (h : ∀ e ∈ events, 0 ≤ e.2) (hcap : 0 ≤ cap) (hkeys : keys.Nodup)
    (hmem : ∀ e ∈ events, e.1 ∈ keys) :
    ((addAll cap events).map Prod.snd).sum = (keys.map fun k => min cap (total events k)).sum := by
  rw [((addAll_perm h hcap hkeys hmem).map Prod.snd).sum_eq, List.map_map]
  show ((keys.filter _).map fun k => min cap (total events k)).sum = _
  refine sum_filter fun k _ hk => ?_
  rw [total_of_notMem (of_decide_eq_false hk), min_eq_right hcap]

end CalmBoard.Capped
