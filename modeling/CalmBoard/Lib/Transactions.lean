import CalmBoard.Lib.Sessions

/-!
# CalmBoard.Lib.Transactions — transactions that lock rows

A transaction runs statement by statement.  A statement reads what is committed, with the writes of
its own transaction on top; the locks it takes are kept to the end, and its writes are committed
together.  A transaction that fails leaves nothing.

* `Script`, `Script.program`: the statements of transactions, and the sessions that run them.
* `Laws`, `rules_of_laws`: an invariant of the store, and what a transaction knows about the store by
  the locks it holds.
-/

namespace CalmBoard.Transactions

open Sessions

/-- What a statement leads to: an error, the statement after it with more locks and writes, or the
commit. -/
inductive Outcome (π κ ω ε : Type) where
  | fail (error : ε)
  | next (point : π) (locks : List κ) (writes : List ω)
  | commit

/-- Transactions of calls `ι`; a point of `π` says which statement comes next. -/
structure Script (ι σ π κ ω ε : Type) where
  first : ι → π
  apply : ω → σ → σ
  statement : π → σ → Outcome π κ ω ε
  conflict : κ → κ → Bool
  conflict_symm : ∀ k k', conflict k k' = conflict k' k

inductive Local (π κ ω ε : Type) where
  | running (point : π) (locks : List κ) (writes : List ω)
  | returned (result : Except ε Unit)
  | aborted

inductive Action where
  | statement | crash

variable {ι σ π κ ω ε : Type} (S : Script ι σ π κ ω ε)

def Local.locks : Local π κ ω ε → List κ
  | .running _ locks _ => locks
  | .returned _ | .aborted => []

/-- The store as a transaction sees it. -/
def Script.view (s : σ) (writes : List ω) : σ := writes.foldl (fun s w => S.apply w s) s

def Script.move (a : Action) (s : σ) (l : Local π κ ω ε) : Option (σ × Local π κ ω ε) :=
  match a, l with
  | .crash, _ => some (s, .aborted)
  | .statement, .running point locks writes =>
    match S.statement point (S.view s writes) with
    | .fail e => some (s, .returned (.error e))
    | .next point' locks' writes' => some (s, .running point' (locks ++ locks') (writes ++ writes'))
    | .commit => some (S.view s writes, .returned (.ok ()))
  | .statement, _ => none

def Script.program : Program ι σ (Local π κ ω ε) κ Action where
  start call := .running (S.first call) [] []
  locks := Local.locks
  conflict := S.conflict
  move := S.move
  conflict_symm := S.conflict_symm
  start_locks _ := rfl

/-- A condition on the store at the statements that run. -/
def atStatement (guard : σ → π → Prop) (s : σ) : Local π κ ω ε → Action → Prop
  | .running point _ _, .statement => guard s point
  | _, _ => True

instance (guard : σ → π → Prop) [∀ s p, Decidable (guard s p)] (s : σ) :
    ∀ (l : Local π κ ω ε) (a : Action), Decidable (atStatement guard s l a)
  | .running point _ _, .statement => inferInstanceAs (Decidable (guard s point))
  | .running _ _ _, .crash | .returned _, _ | .aborted, _ => .isTrue trivial

/-- No lock of one list conflicts with one of the other. -/
def Script.Apart (locks locks' : List κ) : Prop :=
  ∀ k ∈ locks, ∀ k' ∈ locks', S.conflict k k' = false

/-- What the statements have to keep of an invariant `I` of the store and of the knowledge `L` of a
transaction with its locks and writes. -/
structure Laws (guard : σ → π → Prop) (I : σ → Prop) (L : σ → π → List κ → List ω → Prop) :
    Prop where
  first : ∀ s call, L s (S.first call) [] []
  next : ∀ s p ks ws p' ks' ws', L s p ks ws → guard s p →
    S.statement p (S.view s ws) = .next p' ks' ws' → L s p' (ks ++ ks') (ws ++ ws')
  commit : ∀ s p ks ws, I s → L s p ks ws → I (S.view s ws)
  other : ∀ s p ks ws q ks' ws', L s p ks ws → L s q ks' ws' → S.Apart ks ks' →
    L (S.view s ws) q ks' ws'

/-- The knowledge of a session. -/
def Local.Knows (L : σ → π → List κ → List ω → Prop) (s : σ) : Local π κ ω ε → Prop
  | .running point locks writes => L s point locks writes
  | .returned _ | .aborted => True

variable {S} {guard : σ → π → Prop} {I : σ → Prop} {L : σ → π → List κ → List ω → Prop}

@[simp] theorem view_nil (s : σ) : S.view s [] = s := rfl

@[simp] theorem view_cons (s : σ) (w : ω) (ws : List ω) :
    S.view s (w :: ws) = S.view (S.apply w s) ws := rfl

theorem apart_of_clash {l m : Local π κ ω ε} (h : S.program.clash l m = false) :
    S.Apart l.locks m.locks := by
  intro k hk k' hk'
  by_contra hconflict
  rw [Bool.not_eq_false] at hconflict
  have htrue : S.program.clash l m = true :=
    List.any_eq_true.mpr ⟨k, hk, List.any_eq_true.mpr ⟨k', hk', hconflict⟩⟩
  rw [h] at htrue
  cases htrue

/-- A session commits the writes of its transaction, or leaves the store as it is. -/
theorem move_store {a : Action} {s s' : σ} {l l' : Local π κ ω ε}
    (h : S.move a s l = some (s', l')) :
    s' = s ∨ ∃ p ks ws, l = .running p ks ws ∧ s' = S.view s ws := by
  unfold Script.move at h
  split at h
  · cases h
    exact Or.inl rfl
  · next p ks ws =>
    split at h
    · cases h
      exact Or.inl rfl
    · cases h
      exact Or.inl rfl
    · cases h
      exact Or.inr ⟨p, ks, ws, rfl, rfl⟩
  · cases h

/-- **Transactions**: what their statements keep, the sessions keep together. -/
theorem rules_of_laws (hS : Laws S guard I L) :
    Rules S.program (atStatement guard) I (Local.Knows L) where
  enter s call _ := hS.first s call
  own s l a s' l' hI hL hg hmove := by
    change S.move a s l = some (s', l') at hmove
    unfold Script.move at hmove
    split at hmove
    · cases hmove
      exact ⟨hI, trivial⟩
    · next p ks ws =>
      split at hmove
      · cases hmove
        exact ⟨hI, trivial⟩
      · next p' ks' ws' hnext =>
        cases hmove
        exact ⟨hI, hS.next s p ks ws p' ks' ws' hL hg hnext⟩
      · cases hmove
        exact ⟨hS.commit s p ks ws hI hL, trivial⟩
    · cases hmove
  other s l a s' l' m _ hL hm hclash _ hmove := by
    rcases move_store hmove with rfl | ⟨p, ks, ws, rfl, rfl⟩
    · exact hm
    · cases m with
      | running q ks' ws' => exact hS.other s p ks ws q ks' ws' hL hm (apart_of_clash hclash)
      | returned | aborted => trivial

end CalmBoard.Transactions
