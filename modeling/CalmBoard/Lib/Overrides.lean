import Mathlib.Data.List.Induction
import CalmBoard.Lib.Table

/-!
# CalmBoard.Lib.Overrides — rules of different rank over one set of grants

A rule allows or denies a key.  Of the rules about one key the one of the highest rank decides, and
among those of one rank a denial.

* `strongest`: the deciding rules, found in one pass.
* `overridden`: the grants after the rules, and `mem_overridden`: what decides about one key.
-/

namespace CalmBoard.Overrides

structure Rule (κ : Type) where
  key : κ
  allow : Bool
  rank : ℕ

variable {κ : Type} [DecidableEq κ]

/-- The rule replaces the one that has decided so far. -/
def Rule.Beats (r c : Rule κ) : Prop := c.rank < r.rank ∨ r.rank = c.rank ∧ r.allow = false

instance (r c : Rule κ) : Decidable (r.Beats c) := by
  unfold Rule.Beats
  infer_instance

/-- One rule in the pass. -/
def consider (T : Table (Rule κ) Rule.key) (r : Rule κ) : Table (Rule κ) Rule.key :=
  if (T.find? r.key).all (fun c => r.Beats c) then T.upsert r else T

def strongest (rules : List (Rule κ)) : Table (Rule κ) Rule.key := rules.foldl consider Table.empty

def grant (granted : List κ) (r : Rule κ) : List κ :=
  if r.allow then if r.key ∈ granted then granted else granted ++ [r.key]
  else granted.filter (· ≠ r.key)

def overridden (granted : List κ) (rules : List (Rule κ)) : List κ :=
  (strongest rules).rows.foldl grant granted

/-! ### Lists without repetitions -/

theorem eraseDups_nodup (l : List κ) : l.eraseDups.Nodup := by
  cases l with
  | nil => exact List.nodup_nil
  | cons a l =>
    rw [List.eraseDups_cons]
    refine List.nodup_cons.mpr ⟨fun ha => ?_, eraseDups_nodup _⟩
    rw [List.mem_eraseDups, List.mem_filter] at ha
    simp at ha
termination_by l.length
decreasing_by
  have hle := List.length_filter_le (fun b => !b == a) l
  rw [List.length_cons]
  omega

theorem eraseDups_perm {l l' : List κ} (h : l.Perm l') : l.eraseDups.Perm l'.eraseDups := by
  refine (List.perm_ext_iff_of_nodup (eraseDups_nodup l) (eraseDups_nodup l')).mpr fun a => ?_
  rw [List.mem_eraseDups, List.mem_eraseDups, h.mem_iff]

/-! ### The deciding rule -/

variable {rules : List (Rule κ)}

theorem find?_consider_ne (T : Table (Rule κ) Rule.key) {r : Rule κ} {k : κ} (h : r.key ≠ k) :
    (consider T r).find? k = T.find? k := by
  unfold consider
  split
  · rw [Table.find?_upsert, if_neg h]
  · rfl

/-- The rule about a key after one more rule about it. -/
theorem find?_consider (T : Table (Rule κ) Rule.key) (r : Rule κ) :
    (consider T r).find? r.key =
      some ((T.find? r.key).elim r fun c => if r.Beats c then r else c) := by
  unfold consider
  cases h : T.find? r.key with
  | none => simp [Table.find?_upsert]
  | some c =>
    by_cases hb : r.Beats c
    · simp [hb, Table.find?_upsert]
    · simp [hb, h]

theorem strongest_concat (rules : List (Rule κ)) (r : Rule κ) :
    strongest (rules ++ [r]) = consider (strongest rules) r := by
  simp [strongest]

/-- Rules about other keys do not matter. -/
theorem find?_strongest_filter (rules : List (Rule κ)) (k : κ) :
    (strongest rules).find? k = (strongest (rules.filter fun r => r.key = k)).find? k := by
  induction rules using List.reverseRecOn with
  | nil => rfl
  | append_singleton rules r ih =>
    rw [List.filter_append, strongest_concat]
    by_cases hk : r.key = k
    · subst hk
      have hone : [r].filter (fun x => x.key = r.key) = [r] := by simp
      rw [hone, strongest_concat, find?_consider, find?_consider, ih]
    · have hone : [r].filter (fun x => x.key = k) = [] := by simp [hk]
      rw [hone, List.append_nil, find?_consider_ne _ hk, ih]

/-- The deciding rule is one of the rules, no rule about its key has a higher rank, and it denies if
one of its rank does. -/
structure Decides (rules : List (Rule κ)) (c : Rule κ) : Prop where
  mem : c ∈ rules
  highest : ∀ r ∈ rules, r.key = c.key → r.rank ≤ c.rank
  denies : ∀ r ∈ rules, r.key = c.key → r.rank = c.rank → r.allow = false → c.allow = false

omit [DecidableEq κ] in
theorem Decides.concat {c r : Rule κ} (h : Decides rules c) (hr : ¬(r.key = c.key ∧ r.Beats c)) :
    Decides (rules ++ [r]) c where
  mem := List.mem_append_left _ h.mem
  highest x hx hkey := by
    rcases List.mem_append.mp hx with hx | hx
    · exact h.highest x hx hkey
    · rw [List.mem_singleton.mp hx] at hkey ⊢
      by_contra hlt
      exact hr ⟨hkey, .inl (by omega)⟩
  denies x hx hkey hrank hdeny := by
    rcases List.mem_append.mp hx with hx | hx
    · exact h.denies x hx hkey hrank hdeny
    · rw [List.mem_singleton.mp hx] at hkey hrank hdeny
      exact absurd ⟨hkey, .inr ⟨hrank, hdeny⟩⟩ hr

omit [DecidableEq κ] in
theorem Decides.beaten {c r : Rule κ} (h : Decides rules c) (hkey : r.key = c.key)
    (hr : r.Beats c) : Decides (rules ++ [r]) r where
  mem := List.mem_append_right _ (List.mem_singleton.mpr rfl)
  highest x hx hx' := by
    rcases List.mem_append.mp hx with hx | hx
    · have hle := h.highest x hx (hx'.trans hkey)
      rcases hr with hr | ⟨hr, -⟩ <;> omega
    · rw [List.mem_singleton.mp hx]
  denies x hx hx' hrank hdeny := by
    rcases List.mem_append.mp hx with hx | hx
    · rcases hr with hr | ⟨-, hr⟩
      · have hle := h.highest x hx (hx'.trans hkey)
        omega
      · exact hr
    · rw [List.mem_singleton.mp hx] at hdeny
      exact hdeny

/-- The pass finds the deciding rule of each key there are rules about. -/
theorem find?_strongest (rules : List (Rule κ)) (k : κ) :
    ((strongest rules).find? k = none ∧ ∀ r ∈ rules, r.key ≠ k) ∨
      ∃ c, (strongest rules).find? k = some c ∧ c.key = k ∧ Decides rules c := by
  induction rules using List.reverseRecOn with
  | nil => exact .inl ⟨rfl, fun r hr => by cases hr⟩
  | append_singleton rules r ih =>
    rw [strongest_concat]
    by_cases hr : r.key = k
    · subst hr
      rw [find?_consider]
      refine .inr ⟨_, rfl, ?_⟩
      rcases ih with ⟨hnone, hfree⟩ | ⟨c, hc, hkey, hdec⟩
      · rw [hnone]
        refine ⟨rfl, List.mem_append_right _ (List.mem_singleton.mpr rfl), ?_, ?_⟩
        all_goals
          intro x hx hx'
          rcases List.mem_append.mp hx with hx | hx
          · exact absurd hx' (hfree x hx)
          · simp [List.mem_singleton.mp hx]
      · rw [hc, Option.elim_some]
        by_cases hb : r.Beats c
        · rw [if_pos hb]
          exact ⟨rfl, hdec.beaten hkey.symm hb⟩
        · rw [if_neg hb]
          exact ⟨hkey, hdec.concat fun h => hb h.2⟩
    · rw [find?_consider_ne _ hr]
      rcases ih with ⟨hnone, hfree⟩ | ⟨c, hc, hkey, hdec⟩
      · refine .inl ⟨hnone, fun x hx => ?_⟩
        rcases List.mem_append.mp hx with hx | hx
        · exact hfree x hx
        · rw [List.mem_singleton.mp hx]
          exact hr
      · exact .inr ⟨c, hc, hkey, hdec.concat fun h => hr (h.1.trans hkey)⟩

/-! ### The grants after the rules -/

variable {granted : List κ}

theorem mem_grant (granted : List κ) (r : Rule κ) (k : κ) :
    k ∈ grant granted r ↔ if r.key = k then r.allow = true else k ∈ granted := by
  unfold grant
  by_cases ha : r.allow = true
  · rw [if_pos ha]
    by_cases hk : r.key = k
    · subst hk
      by_cases hmem : r.key ∈ granted <;> simp [hmem, ha]
    · have hk' : k ≠ r.key := fun h => hk h.symm
      by_cases hmem : r.key ∈ granted <;> simp [hmem, hk, hk']
  · rw [if_neg ha]
    by_cases hk : r.key = k
    · simp [hk, ha]
    · have hk' : k ≠ r.key := fun h => hk h.symm
      simp [hk, hk']

/-- A key is granted if its deciding rule allows it, or without a rule if it was granted before. -/
theorem mem_overridden (granted : List κ) (rules : List (Rule κ)) (k : κ) :
    k ∈ overridden granted rules ↔
      match (strongest rules).find? k with
      | some c => c.allow = true
      | none => k ∈ granted := by
  obtain ⟨rows, hrows⟩ : ∃ rows, (strongest rules).rows = rows := ⟨_, rfl⟩
  have hnodup : (rows.map Rule.key).Nodup := hrows ▸ (strongest rules).nodup
  have hfind : (strongest rules).find? k = rows.find? fun r => r.key = k := by rw [← hrows]; rfl
  rw [hfind]
  unfold overridden
  rw [hrows]
  clear hrows hfind
  induction rows generalizing granted with
  | nil => rfl
  | cons r rows ih =>
    rw [List.map_cons, List.nodup_cons] at hnodup
    rw [List.foldl_cons]
    refine (ih (grant granted r) hnodup.2).trans ?_
    by_cases hk : r.key = k
    · have hrest : rows.find? (fun r => r.key = k) = none := by
        rw [List.find?_eq_none]
        intro x hx hxk
        rw [decide_eq_true_eq] at hxk
        exact hnodup.1 (List.mem_map.mpr ⟨x, hx, hxk.trans hk.symm⟩)
      rw [hrest]
      simp [mem_grant, hk]
    · simp [mem_grant, hk]

/-- Rules of the highest rank that occurs decide, and a denial among them denies. -/
theorem mem_overridden_top {k : κ} {n : ℕ} (hn : ∀ r ∈ rules, r.rank ≤ n)
    (htop : ∃ r ∈ rules, r.key = k ∧ r.rank = n) :
    k ∈ overridden granted rules ↔ ∀ r ∈ rules, r.key = k → r.rank = n → r.allow = true := by
  rw [mem_overridden]
  obtain ⟨t, ht, htk, htn⟩ := htop
  obtain ⟨-, hfree⟩ | ⟨c, hc, hkey, hdec⟩ := find?_strongest rules k
  · exact absurd htk (hfree t ht)
  · subst hkey
    have hrank : c.rank = n := by
      have h₁ := hdec.highest t ht htk
      have h₂ := hn c hdec.mem
      omega
    simp only [hc]
    constructor
    · intro hallow r hr hrk hrn
      by_contra hdeny
      rw [hdec.denies r hr hrk (hrn.trans hrank.symm) (Bool.not_eq_true _ ▸ hdeny)] at hallow
      cases hallow
    · intro hall
      exact hall c hdec.mem rfl hrank

/-- The highest rank with a rule about the key decides; without a rule it is as before. -/
theorem mem_overridden_levels {k : κ} :
    k ∈ overridden granted rules ↔
      (∃ n, (∃ r ∈ rules, r.key = k ∧ r.rank = n) ∧ (∀ r ∈ rules, r.key = k → r.rank ≤ n) ∧
        ∀ r ∈ rules, r.key = k → r.rank = n → r.allow = true) ∨
      (∀ r ∈ rules, r.key ≠ k) ∧ k ∈ granted := by
  rw [mem_overridden]
  obtain ⟨hnone, hfree⟩ | ⟨c, hc, hkey, hdec⟩ := find?_strongest rules k
  · rw [hnone]
    constructor
    · exact fun hk => .inr ⟨hfree, hk⟩
    · rintro (⟨n, ⟨r, hr, hkey, -⟩, -⟩ | ⟨-, hk⟩)
      · exact absurd hkey (hfree r hr)
      · exact hk
  · subst hkey
    rw [hc]
    constructor
    · intro hallow
      refine .inl ⟨c.rank, ⟨c, hdec.mem, rfl, rfl⟩, hdec.highest, fun r hr hkey hrank => ?_⟩
      by_contra hdeny
      rw [Bool.not_eq_true] at hdeny
      have hdeny' : c.allow = false := hdec.denies r hr hkey hrank hdeny
      have hallow' : c.allow = true := hallow
      rw [hdeny'] at hallow'
      cases hallow'
    · rintro (⟨n, ⟨r, hr, hkey, rfl⟩, htop, hallow⟩ | ⟨hfree, -⟩)
      · have hrank : c.rank = r.rank := le_antisymm (htop c hdec.mem rfl) (hdec.highest r hr hkey)
        exact hallow c hdec.mem rfl hrank
      · exact absurd rfl (hfree c hdec.mem)

theorem nodup_grant (h : granted.Nodup) (r : Rule κ) : (grant granted r).Nodup := by
  unfold grant
  split
  · split
    · exact h
    · next hk => exact List.nodup_append'.mpr ⟨h, List.nodup_singleton _, by simpa using hk⟩
  · exact h.filter _

theorem nodup_overridden (h : granted.Nodup) (rules : List (Rule κ)) :
    (overridden granted rules).Nodup := by
  unfold overridden
  induction (strongest rules).rows generalizing granted with
  | nil => exact h
  | cons r rows ih => exact ih (nodup_grant h r)

end CalmBoard.Overrides
