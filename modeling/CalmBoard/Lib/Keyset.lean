import Mathlib.Data.List.Basic
import Mathlib.Data.List.Nodup
import Mathlib.Data.List.Sort
import Mathlib.Data.Prod.Lex
import Mathlib.Order.WithBot
import Mathlib.Tactic.Ring

/-!
# CalmBoard.Lib.Keyset — following keyset cursors through a list

A result list `L` is read page by page.  A page takes `limit` rows of the current selection; when
more rows are left, the next selection is `L.filter (sel r)` for the last row `r` of the page.
`walk` follows these cursors until a page has no successor.  Selections are conditions of a query
language with null, so their truth values are three: `some true`, `some false` and `none` (unknown).

* `Tri.holds`: what a selection keeps, only rows whose condition is true; `disj` is the n-ary
  disjunction, and `cmp` lifts a comparison to nullable operands.
* `walk_head`: a walk that ends starts with the first row of its selection.
* `filter_eq_drop_iff`: a predicate monotone along `L` selects a tail of `L`, and which tail it is
  shows at two neighbouring rows.
* `walk_exact_iff`: the walk from `L` ends with exactly `L` if and only if at every page border
  the cursor row is not selected again and the row after it is.
* `holds_after`: the usual cursor condition (greater, or null, or equal with a greater id) selects
  the rows behind the cursor's position in the order (key, nulls last; id).
* `walk_sorted_iff`: for rows in that order, the walk is exact if and only if at every border the
  cursor points no further back than its row and still before the next row.
-/

namespace CalmBoard

/-- Truth value of a condition; `none` is unknown. -/
abbrev Tri := Option Bool

namespace Tri

def and : Tri → Tri → Tri
  | some false, _ => some false
  | _, some false => some false
  | some true, some true => some true
  | _, _ => none

def or : Tri → Tri → Tri
  | some true, _ => some true
  | _, some true => some true
  | some false, some false => some false
  | _, _ => none

/-- A condition selects a row when it is true, not when it is unknown. -/
def holds (t : Tri) : Bool := t == some true

def disj (ts : List Tri) : Tri := ts.foldr or (some false)

/-- A comparison of nullable operands is unknown as soon as one of them is null. -/
def cmp {α β : Type*} (f : α → β → Bool) : Option α → Option β → Tri
  | some a, some b => some (f a b)
  | _, _ => none

def isNull {α : Type*} (a : Option α) : Tri := some a.isNone

@[simp] theorem holds_some (b : Bool) : holds (some b) = b := by cases b <;> rfl

@[simp] theorem holds_none : holds none = false := rfl

@[simp] theorem holds_and (s t : Tri) : holds (and s t) = (holds s && holds t) := by
  rcases s with _ | _ | _ <;> rcases t with _ | _ | _ <;> rfl

@[simp] theorem holds_or (s t : Tri) : holds (or s t) = (holds s || holds t) := by
  rcases s with _ | _ | _ <;> rcases t with _ | _ | _ <;> rfl

@[simp] theorem holds_disj (ts : List Tri) : holds (disj ts) = ts.any holds := by
  induction ts with
  | nil => rfl
  | cons t ts ih =>
    have : disj (t :: ts) = or t (disj ts) := rfl
    rw [this, holds_or, ih, List.any_cons]

@[simp] theorem cmp_some {α β : Type*} (f : α → β → Bool) (a : α) (b : β) :
    cmp f (some a) (some b) = some (f a b) := rfl

@[simp] theorem cmp_none_left {α β : Type*} (f : α → β → Bool) (b : Option β) :
    cmp f none b = none := rfl

@[simp] theorem isNull_some {α : Type*} (a : α) : isNull (some a) = some false := rfl

@[simp] theorem isNull_none {α : Type*} : isNull (none : Option α) = some true := rfl

end Tri

end CalmBoard

namespace CalmBoard.Keyset

variable {ρ : Type*}

/-- The row the next cursor is taken from: the last row of the page, if more rows follow. -/
def border (limit : ℕ) (S : List ρ) : Option ρ :=
  if limit < S.length then S[limit - 1]? else none

/-- Follow the cursors, starting with the selection `S`; `none` when the fuel runs out. -/
def walk (L : List ρ) (sel : ρ → ρ → Bool) (limit : ℕ) : ℕ → List ρ → Option (List ρ)
  | 0, _ => none
  | n + 1, S =>
    match border limit S with
    | none => some (S.take limit)
    | some r => (walk L sel limit n (L.filter (sel r))).map (S.take limit ++ ·)

/-- `p` stays true to the right along `L`. -/
def MonoOn (L : List ρ) (p : ρ → Bool) : Prop := L.Pairwise fun x y => p x = true → p y = true

/-! ### Cuts -/

theorem filter_eq_self_of_head {a : ρ} {L : List ρ} {p : ρ → Bool} (h : MonoOn (a :: L) p)
    (ha : p a = true) : (a :: L).filter p = a :: L := by
  rw [List.filter_eq_self]
  intro b hb
  rcases List.mem_cons.mp hb with rfl | hb
  · exact ha
  · exact (List.pairwise_cons.mp h).1 b hb ha

/-- A monotone predicate selects a tail. -/
theorem filter_eq_drop : ∀ {L : List ρ} {p : ρ → Bool}, MonoOn L p → ∃ i, L.filter p = L.drop i
  | [], _, _ => ⟨0, rfl⟩
  | a :: L, p, h => by
    by_cases ha : p a = true
    · exact ⟨0, filter_eq_self_of_head h ha⟩
    · obtain ⟨i, hi⟩ := filter_eq_drop (List.pairwise_cons.mp h).2
      refine ⟨i + 1, ?_⟩
      rw [List.filter_cons_of_neg ha, hi, List.drop_succ_cons]

/-- **Cut**: which tail a monotone predicate selects shows at the two rows around the cut. -/
theorem filter_eq_drop_iff {p : ρ → Bool} {r next : ρ} : ∀ {L : List ρ}, MonoOn L p → ∀ {j : ℕ},
    L[j]? = some r → L[j + 1]? = some next →
    (L.filter p = L.drop (j + 1) ↔ p r = false ∧ p next = true)
  | [], _, _, hr, _ => by simp at hr
  | a :: L, h, 0, hr, hn => by
    obtain rfl : a = r := by simpa using hr
    have hL := (List.pairwise_cons.mp h).2
    simp only [List.drop_succ_cons, List.drop_zero]
    cases L with
    | nil => simp at hn
    | cons b L =>
      obtain rfl : b = next := by simpa using hn
      by_cases ha : p a = true
      · rw [filter_eq_self_of_head h ha]
        simp [ha]
      · rw [List.filter_cons_of_neg ha]
        constructor
        · intro he
          have hb : b ∈ (b :: L).filter p := by rw [he]; exact List.mem_cons_self
          exact ⟨by simpa using ha, (List.mem_filter.mp hb).2⟩
        · exact fun hb => filter_eq_self_of_head hL hb.2
  | a :: L, h, j + 1, hr, hn => by
    have hL := (List.pairwise_cons.mp h)
    have hr' : L[j]? = some r := by simpa using hr
    have hn' : L[j + 1]? = some next := by simpa using hn
    have hmem : r ∈ L := List.mem_of_getElem? hr'
    rw [List.drop_succ_cons]
    by_cases ha : p a = true
    · have hpr : p r = true := hL.1 r hmem ha
      rw [filter_eq_self_of_head h ha]
      constructor
      · intro he
        have := congrArg List.length he
        simp only [List.length_cons, List.length_drop] at this
        omega
      · intro hb
        rw [hpr] at hb
        exact absurd hb.1 (by simp)
    · rw [List.filter_cons_of_neg ha]
      exact filter_eq_drop_iff hL.2 hr' hn'

/-! ### Walks -/

section Walk

variable {L : List ρ} {sel : ρ → ρ → Bool} {limit : ℕ}

theorem border_eq_none {S : List ρ} (h : S.length ≤ limit) : border limit S = none := by
  unfold border
  rw [if_neg (by omega)]

theorem border_eq_some {S : List ρ} (h : limit < S.length) :
    border limit S = S[limit - 1]? := by
  unfold border
  rw [if_pos h]

/-- A walk that ends starts with the first row of its selection. -/
theorem walk_head (hl : 0 < limit) {n : ℕ} {S T : List ρ} (h : walk L sel limit n S = some T) :
    T.head? = S.head? := by
  cases n with
  | zero => simp [walk] at h
  | succ n =>
    unfold walk at h
    cases hb : border limit S with
    | none =>
      rw [hb] at h
      simp only [Option.some.injEq] at h
      rw [← h, List.head?_take, if_neg (by omega)]
    | some r =>
      rw [hb] at h
      simp only [Option.map_eq_some_iff] at h
      obtain ⟨T', -, rfl⟩ := h
      have hS : S ≠ [] := by
        rintro rfl
        simp [border] at hb
      obtain ⟨a, S, rfl⟩ := List.exists_cons_of_ne_nil hS
      obtain ⟨m, rfl⟩ : ∃ m, limit = m + 1 := ⟨limit - 1, by omega⟩
      simp

/-- One step of a walk that returns its own selection. -/
theorem walk_self_step {n : ℕ} {S : List ρ} (h : walk L sel limit (n + 1) S = some S)
    (hS : limit < S.length) {r : ρ} (hr : S[limit - 1]? = some r) :
    walk L sel limit n (L.filter (sel r)) = some (S.drop limit) := by
  unfold walk at h
  rw [border_eq_some hS, hr] at h
  simp only [Option.map_eq_some_iff] at h
  obtain ⟨T, hT, he⟩ := h
  rw [hT]
  have := he.trans (List.take_append_drop limit S).symm
  rw [List.append_cancel_left this]

/-- The border condition makes the walk exact from every border on. -/
theorem walk_drop (hl : 0 < limit)
    (hcut : ∀ k r, 1 ≤ k → k * limit < L.length → L[k * limit - 1]? = some r →
      L.filter (sel r) = L.drop (k * limit)) :
    ∀ (n k : ℕ), L.length ≤ k * limit + n → walk L sel limit (n + 1) (L.drop (k * limit)) =
      some (L.drop (k * limit)) := by
  intro n
  induction n with
  | zero =>
    intro k hk
    have h0 : L.drop (k * limit) = [] := List.drop_eq_nil_of_le (by omega)
    rw [h0]
    simp [walk, border]
  | succ n ih =>
    intro k hk
    have hk1 : (k + 1) * limit = k * limit + limit := by ring
    unfold walk
    by_cases hS : limit < (L.drop (k * limit)).length
    · have hlen : (k + 1) * limit < L.length := by
        rw [List.length_drop] at hS
        omega
      have hlt : (k + 1) * limit - 1 < L.length := by omega
      have hr : (L.drop (k * limit))[limit - 1]? = some L[(k + 1) * limit - 1] := by
        rw [List.getElem?_drop, List.getElem?_eq_getElem (by omega)]
        congr 2
        omega
      rw [border_eq_some hS, hr]
      simp only
      rw [hcut (k + 1) _ (by omega) hlen (List.getElem?_eq_getElem hlt), ih (k + 1) (by omega)]
      simp only [Option.map_some, Option.some.injEq]
      rw [hk1, ← List.drop_drop, List.take_append_drop]
    · rw [border_eq_none (by omega)]
      simp only [Option.some.injEq]
      exact List.take_of_length_le (by omega)

/-- An exact walk passes every border exactly. -/
theorem walk_exact_cut (hl : 0 < limit) (hnd : L.Nodup) (hm : ∀ r ∈ L, MonoOn L (sel r))
    {n : ℕ} (h : walk L sel limit n L = some L) :
    ∀ k, k * limit < L.length ∨ k = 0 →
      (∃ m, walk L sel limit m (L.drop (k * limit)) = some (L.drop (k * limit))) ∧
      ∀ r, 1 ≤ k → L[k * limit - 1]? = some r → L.filter (sel r) = L.drop (k * limit) := by
  intro k
  induction k with
  | zero =>
    intro _
    refine ⟨⟨n, by simpa using h⟩, fun r h1 => absurd h1 (by omega)⟩
  | succ k ih =>
    intro hk
    have hk1 : (k + 1) * limit = k * limit + limit := by ring
    have hlen : (k + 1) * limit < L.length := hk.resolve_right (by omega)
    obtain ⟨⟨m, hm'⟩, -⟩ := ih (Or.inl (by omega))
    have hS : limit < (L.drop (k * limit)).length := by
      rw [List.length_drop]
      omega
    have hlt : (k + 1) * limit - 1 < L.length := by omega
    have hr : (L.drop (k * limit))[limit - 1]? = some L[(k + 1) * limit - 1] := by
      rw [List.getElem?_drop, List.getElem?_eq_getElem (by omega)]
      congr 2
      omega
    cases m with
    | zero => simp [walk] at hm'
    | succ m =>
      have hstep := walk_self_step hm' hS hr
      rw [List.drop_drop, ← hk1] at hstep
      -- the next selection is a tail of `L` with the right first row, so it is the right tail
      obtain ⟨i, hi⟩ := filter_eq_drop (hm _ (List.getElem_mem hlt))
      have hhead := walk_head hl hstep
      rw [hi, List.head?_drop, List.head?_drop] at hhead
      have hij : (k + 1) * limit = i := by
        exact (List.getElem?_inj hlen hnd).mp hhead
      rw [← hij] at hi
      refine ⟨⟨m, hi ▸ hstep⟩, fun r _ hr' => ?_⟩
      rw [List.getElem?_eq_getElem hlt, Option.some.injEq] at hr'
      rw [← hr', hi]

/-- **Keyset paging**: following the cursors through `L` ends with exactly `L` if and only if at
every page border the cursor row is not selected again and the row after it is selected. -/
theorem walk_exact_iff (hl : 0 < limit) (hnd : L.Nodup) (hm : ∀ r ∈ L, MonoOn L (sel r)) :
    (∃ n, walk L sel limit n L = some L) ↔
      ∀ k r next, 1 ≤ k → L[k * limit - 1]? = some r → L[k * limit]? = some next →
        sel r r = false ∧ sel r next = true := by
  have hcut : ∀ k r next, 1 ≤ k → L[k * limit - 1]? = some r → L[k * limit]? = some next →
      (L.filter (sel r) = L.drop (k * limit) ↔ sel r r = false ∧ sel r next = true) := by
    intro k r next h1 hr hn
    obtain ⟨j, hj⟩ : ∃ j, k * limit = j + 1 :=
      ⟨k * limit - 1, by have := Nat.mul_pos h1 hl; omega⟩
    rw [hj] at hr hn ⊢
    exact filter_eq_drop_iff (hm r (List.mem_of_getElem? hr)) hr hn
  constructor
  · rintro ⟨n, hn⟩ k r next h1 hr hnext
    have hlt : k * limit < L.length := (List.getElem?_eq_some_iff.mp hnext).1
    exact (hcut k r next h1 hr hnext).mp
      ((walk_exact_cut hl hnd hm hn k (Or.inl hlt)).2 r h1 hr)
  · intro h
    refine ⟨L.length + 1, ?_⟩
    have hborder : ∀ k r, 1 ≤ k → k * limit < L.length → L[k * limit - 1]? = some r →
        L.filter (sel r) = L.drop (k * limit) := by
      intro k r h1 hlt hr
      have hn := List.getElem?_eq_getElem hlt
      exact (hcut k r _ h1 hr hn).mpr (h k r _ h1 hr hn)
    simpa using walk_drop hl hborder L.length 0 (by omega)

end Walk

/-! ### Positions: a nullable key with nulls last, then an id -/

section Position

variable {K I : Type*} [LinearOrder K] [LinearOrder I]

/-- A nullable key, with null after every value. -/
def nullsLast : Option K → WithTop K
  | none => ⊤
  | some x => x

/-- Where a row with this key and id stands. -/
def position (k : Option K) (i : I) : WithTop K ×ₗ I := toLex (nullsLast k, i)

/-- The cursor condition for a row with key `k` and id `j` after the cursor `(v, i)`. -/
def after (v : Option K) (i : I) (k : Option K) (j : I) : Tri :=
  match v with
  | none => Tri.and (Tri.isNull k) (some (i < j))
  | some x =>
    Tri.disj [Tri.cmp (fun a b => decide (a > b)) k (some x), Tri.isNull k,
      Tri.and (Tri.cmp (fun a b => decide (a = b)) k (some x)) (some (i < j))]

omit [LinearOrder K] in
theorem nullsLast_inj {v k : Option K} : nullsLast v = nullsLast k ↔ v = k := by
  cases v <;> cases k <;> simp [nullsLast]

theorem position_lt_iff {v k : Option K} {i j : I} : position v i < position k j ↔
    nullsLast v < nullsLast k ∨ v = k ∧ i < j := by
  unfold position
  rw [Prod.Lex.toLex_lt_toLex, nullsLast_inj]

theorem position_le_iff {v k : Option K} {i j : I} : position v i ≤ position k j ↔
    nullsLast v < nullsLast k ∨ v = k ∧ i ≤ j := by
  unfold position
  rw [Prod.Lex.toLex_le_toLex, nullsLast_inj]

theorem holds_after {v : Option K} {i : I} {k : Option K} {j : I} :
    Tri.holds (after v i k j) = true ↔ position v i < position k j := by
  rw [position_lt_iff]
  cases v with
  | none => cases k <;> simp [after, nullsLast]
  | some x =>
    cases k with
    | none => simp [after, nullsLast]
    | some y => simp [after, nullsLast, @eq_comm K x y]

variable {L : List ρ} {key cur : ρ → Option K} {ident : ρ → I} {limit : ℕ}

/-- The rows selected behind a cursor taken from `r`, whose key comes back as `cur r`. -/
def behind (key cur : ρ → Option K) (ident : ρ → I) (r x : ρ) : Bool :=
  decide (position (cur r) (ident r) < position (key x) (ident x))

/-- **Sorted walk**: over rows sorted by position, following the cursors is exact if and only if
at every page border the cursor lies between its row and the next one. -/
theorem walk_sorted_iff (hl : 0 < limit) (hnd : L.Nodup)
    (hs : L.Pairwise fun x y => position (key x) (ident x) ≤ position (key y) (ident y)) :
    (∃ n, walk L (behind key cur ident) limit n L = some L) ↔
      ∀ k r next, 1 ≤ k → L[k * limit - 1]? = some r → L[k * limit]? = some next →
        position (key r) (ident r) ≤ position (cur r) (ident r) ∧
        position (cur r) (ident r) < position (key next) (ident next) := by
  have hm : ∀ r ∈ L, MonoOn L (behind key cur ident r) := by
    intro r _
    refine hs.imp fun {x y} hxy hx => ?_
    unfold behind at hx ⊢
    rw [decide_eq_true_eq] at hx ⊢
    exact lt_of_lt_of_le hx hxy
  rw [walk_exact_iff hl hnd hm]
  simp only [behind, decide_eq_false_iff_not, decide_eq_true_eq, not_lt]

end Position

end CalmBoard.Keyset
