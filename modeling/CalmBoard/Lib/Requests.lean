import CalmBoard.Lib.Sessions

/-!
# CalmBoard.Lib.Requests — requests made of several transactions

A request runs its transactions one after the other, statement by statement.  A statement reads what
is committed, with the writes of its own transaction on top; locks and writes are kept to the end of
the transaction.  Between two transactions of a request the others go on.

* `Script`, `Script.program`: the statements of requests, and the sessions that run them.
* `Moves`: what one action of a session does.
* `Covered`, `view_frame`: a transaction leaves alone what it has not locked.
* `Laws`, `rules_of_laws`: an invariant of the store, what a running request knows about the store by
  the locks it holds, and what a returned one has brought about.
* `committed_of_step`: what one event does to the store.
-/

namespace CalmBoard.Requests

open Sessions

/-- What a statement leads to. -/
inductive Outcome (π κ ω ρ : Type) where
  | next (point : π) (locks : List κ) (writes : List ω)
  /-- commit, and go on without a transaction -/
  | commit (point : π)
  /-- commit, and return -/
  | finish (result : ρ)
  /-- roll back, and return -/
  | fail (result : ρ)

/-- Requests of calls `ι`; a point of `π` says which statement comes next, `α` is what a statement
takes from outside. -/
structure Script (ι σ α π κ ω ρ : Type) where
  first : ι → π
  apply : ω → σ → σ
  statement : α → π → σ → Outcome π κ ω ρ
  conflict : κ → κ → Bool
  conflict_symm : ∀ k k', conflict k k' = conflict k' k

inductive Local (π κ ω ρ : Type) where
  | running (point : π) (locks : List κ) (writes : List ω)
  | returned (result : ρ)
  | aborted
  deriving DecidableEq

inductive Action (α : Type) where
  | statement (input : α)
  | crash

variable {ι σ α π κ ω ρ : Type} (S : Script ι σ α π κ ω ρ)

def Local.locks : Local π κ ω ρ → List κ
  | .running _ locks _ => locks
  | .returned _ | .aborted => []

/-- The store as a transaction sees it. -/
def Script.view (s : σ) (writes : List ω) : σ := writes.foldl (fun s w => S.apply w s) s

def Script.move (a : Action α) (s : σ) (l : Local π κ ω ρ) : Option (σ × Local π κ ω ρ) :=
  match a, l with
  | .crash, .running .. => some (s, .aborted)
  | .statement input, .running point locks writes =>
    match S.statement input point (S.view s writes) with
    | .next point' locks' writes' => some (s, .running point' (locks ++ locks') (writes ++ writes'))
    | .commit point' => some (S.view s writes, .running point' [] [])
    | .finish r => some (S.view s writes, .returned r)
    | .fail r => some (s, .returned r)
  | _, _ => none

def Script.program : Program ι σ (Local π κ ω ρ) κ (Action α) where
  start call := .running (S.first call) [] []
  locks := Local.locks
  conflict := S.conflict
  move := S.move
  conflict_symm := S.conflict_symm
  start_locks _ := rfl

/-- The same requests, made by calls of another type. -/
def Script.only {ι' : Type} (call : ι' → ι) : Script ι' σ α π κ ω ρ := { S with first := S.first ∘ call }

/-- A condition on the store at the statements that run. -/
def atStatement (guard : σ → α → π → Prop) (s : σ) : Local π κ ω ρ → Action α → Prop
  | .running point _ _, .statement input => guard s input point
  | _, _ => True

instance (guard : σ → α → π → Prop) [∀ s a p, Decidable (guard s a p)] (s : σ) :
    ∀ (l : Local π κ ω ρ) (a : Action α), Decidable (atStatement guard s l a)
  | .running point _ _, .statement input => inferInstanceAs (Decidable (guard s input point))
  | .running _ _ _, .crash | .returned _, _ | .aborted, _ => .isTrue trivial

/-- What one action does to the store and to its session. -/
inductive Moves : Action α → σ → Local π κ ω ρ → σ → Local π κ ω ρ → Prop
  | crash (s : σ) (p : π) (ks : List κ) (ws : List ω) : Moves .crash s (.running p ks ws) s .aborted
  | next {a : α} {s : σ} {p p' : π} (ks : List κ) {ks' : List κ} {ws ws' : List ω}
      (h : S.statement a p (S.view s ws) = .next p' ks' ws') :
      Moves (.statement a) s (.running p ks ws) s (.running p' (ks ++ ks') (ws ++ ws'))
  | commit {a : α} {s : σ} {p p' : π} (ks : List κ) {ws : List ω}
      (h : S.statement a p (S.view s ws) = .commit p') :
      Moves (.statement a) s (.running p ks ws) (S.view s ws) (.running p' [] [])
  | finish {a : α} {s : σ} {p : π} {r : ρ} (ks : List κ) {ws : List ω}
      (h : S.statement a p (S.view s ws) = .finish r) :
      Moves (.statement a) s (.running p ks ws) (S.view s ws) (.returned r)
  | fail {a : α} {s : σ} {p : π} {r : ρ} (ks : List κ) {ws : List ω}
      (h : S.statement a p (S.view s ws) = .fail r) :
      Moves (.statement a) s (.running p ks ws) s (.returned r)

variable {S} {guard : σ → α → π → Prop} {I : σ → Prop} {L : σ → π → List κ → List ω → Prop}
  {R : σ → ρ → Prop} {a : Action α} {s s' : σ} {l l' : Local π κ ω ρ}

@[simp] theorem view_nil (s : σ) : S.view s [] = s := rfl

@[simp] theorem view_cons (s : σ) (w : ω) (ws : List ω) :
    S.view s (w :: ws) = S.view (S.apply w s) ws := rfl

theorem view_append (s : σ) (ws ws' : List ω) :
    S.view s (ws ++ ws') = S.view (S.view s ws) ws' := List.foldl_append

theorem moves_of_move (h : S.move a s l = some (s', l')) : Moves S a s l s' l' := by
  unfold Script.move at h
  split at h
  · cases h
    exact .crash s _ _ _
  · next p ks ws =>
    split at h
    · next hnext =>
      cases h
      exact .next ks hnext
    · next hcommit =>
      cases h
      exact .commit ks hcommit
    · next hfinish =>
      cases h
      exact .finish ks hfinish
    · next hfail =>
      cases h
      exact .fail ks hfail
  · cases h

/-- A request that has returned, or crashed, does nothing more. -/
theorem move_returned (a : Action α) (s : σ) (r : ρ) : S.move a s (.returned r) = none := by
  unfold Script.move
  cases a <;> rfl

/-- No lock of one list conflicts with one of the other. -/
def Script.Apart (S : Script ι σ α π κ ω ρ) (locks locks' : List κ) : Prop :=
  ∀ k ∈ locks, ∀ k' ∈ locks', S.conflict k k' = false

theorem apart_of_clash {l m : Local π κ ω ρ} (h : S.program.clash l m = false) :
    S.Apart l.locks m.locks := by
  intro k hk k' hk'
  by_contra hconflict
  rw [Bool.not_eq_false] at hconflict
  have htrue : S.program.clash l m = true :=
    List.any_eq_true.mpr ⟨k, hk, List.any_eq_true.mpr ⟨k', hk', hconflict⟩⟩
  rw [h] at htrue
  cases htrue

/-- A lock that excludes itself is held by one transaction at most. -/
theorem Script.Apart.not_mem {locks locks' : List κ} (h : S.Apart locks locks') {k : κ}
    (hself : S.conflict k k = true) (hk : k ∈ locks) : k ∉ locks' := by
  intro hk'
  have hfree := h k hk k hk'
  rw [hself] at hfree
  cases hfree

/-- A transaction holds the locks that its writes need. -/
def Covered (locks : ω → List κ) (ks : List κ) (ws : List ω) : Prop :=
  ∀ w ∈ ws, ∀ k ∈ locks w, k ∈ ks

theorem covered_nil (locks : ω → List κ) (ks : List κ) : Covered locks ks [] :=
  fun w hw => by cases hw

theorem covered_singleton {locks : ω → List κ} {ks : List κ} {w : ω} (h : ∀ k ∈ locks w, k ∈ ks) :
    Covered locks ks [w] := by
  intro w' hw k hk
  rw [List.mem_singleton] at hw
  exact h k (hw ▸ hk)

theorem Covered.append {locks : ω → List κ} {ks ks' : List κ} {ws ws' : List ω}
    (h : Covered locks ks ws) (h' : Covered locks ks' ws') :
    Covered locks (ks ++ ks') (ws ++ ws') := by
  intro w hw k hk
  rcases List.mem_append.mp hw with hw | hw
  · exact List.mem_append_left ks' (h w hw k hk)
  · exact List.mem_append_right ks (h' w hw k hk)

/-- **Frame rule**: what every write without a lock leaves alone, a transaction without that lock
leaves alone. -/
theorem view_frame {β : Type} {locks : ω → List κ} {k : κ} {f : σ → β}
    (happly : ∀ w s, k ∉ locks w → f (S.apply w s) = f s) {ks : List κ} {ws : List ω}
    (hws : Covered locks ks ws) (hk : k ∉ ks) (s : σ) : f (S.view s ws) = f s := by
  induction ws generalizing s with
  | nil => rfl
  | cons w ws ih =>
    rw [view_cons, ih fun w' hw' => hws w' (List.mem_cons_of_mem w hw')]
    exact happly w s fun hf => hk (hws w List.mem_cons_self k hf)

/-- The transaction ends here, and commits. -/
def Script.Commits (S : Script ι σ α π κ ω ρ) (a : α) (p : π) (s : σ) (ws : List ω) : Prop :=
  (∃ p', S.statement a p (S.view s ws) = .commit p') ∨
    ∃ r, S.statement a p (S.view s ws) = .finish r

/-- What the statements have to keep of an invariant `I` of the store, of the knowledge `L` of a
running request with its locks and writes, and of the facts `R` a returned request stands for. -/
structure Laws (S : Script ι σ α π κ ω ρ) (guard : σ → α → π → Prop) (I : σ → Prop)
    (L : σ → π → List κ → List ω → Prop) (R : σ → ρ → Prop) : Prop where
  first : ∀ s call, I s → L s (S.first call) [] []
  next : ∀ s a p ks ws p' ks' ws', I s → L s p ks ws → guard s a p →
    S.statement a p (S.view s ws) = .next p' ks' ws' → L s p' (ks ++ ks') (ws ++ ws')
  commit : ∀ s a p ks ws p', I s → L s p ks ws → guard s a p →
    S.statement a p (S.view s ws) = .commit p' → I (S.view s ws) ∧ L (S.view s ws) p' [] []
  finish : ∀ s a p ks ws r, I s → L s p ks ws → guard s a p →
    S.statement a p (S.view s ws) = .finish r → I (S.view s ws) ∧ R (S.view s ws) r
  fail : ∀ s a p ks ws r, I s → L s p ks ws → guard s a p →
    S.statement a p (S.view s ws) = .fail r → R s r
  other : ∀ s a p ks ws q ks' ws', I s → L s p ks ws → S.Commits a p s ws → L s q ks' ws' →
    S.Apart ks ks' → L (S.view s ws) q ks' ws'
  kept : ∀ s a p ks ws r, I s → L s p ks ws → S.Commits a p s ws → R s r → R (S.view s ws) r

/-- The knowledge of a session. -/
def Local.Knows (L : σ → π → List κ → List ω → Prop) (R : σ → ρ → Prop) (s : σ) :
    Local π κ ω ρ → Prop
  | .running point locks writes => L s point locks writes
  | .returned r => R s r
  | .aborted => True

/-- **Requests**: what their statements keep, the sessions keep together. -/
theorem rules_of_laws (hS : Laws S guard I L R) :
    Rules S.program (atStatement guard) I (Local.Knows L R) where
  enter s call hI := hS.first s call hI
  own s l a s' l' hI hL hg hmove := by
    cases moves_of_move hmove with
    | crash => exact ⟨hI, trivial⟩
    | next ks h => exact ⟨hI, hS.next _ _ _ ks _ _ _ _ hI hL hg h⟩
    | commit ks h => exact hS.commit _ _ _ ks _ _ hI hL hg h
    | finish ks h => exact hS.finish _ _ _ ks _ _ hI hL hg h
    | fail ks h => exact ⟨hI, hS.fail _ _ _ ks _ _ hI hL hg h⟩
  other s l a s' l' m hI hL hm hclash _ hmove := by
    have hcommitted : ∀ b p ks ws, l = .running p ks ws → S.Commits b p s ws →
        Local.Knows L R (S.view s ws) m := by
      rintro b p ks ws rfl hc
      cases m with
      | running q ks' ws' =>
        exact hS.other s b p ks ws q ks' ws' hI hL hc hm (apart_of_clash hclash)
      | returned r => exact hS.kept s b p ks ws r hI hL hc hm
      | aborted => trivial
    cases moves_of_move hmove with
    | crash | next | fail => exact hm
    | commit ks h => exact hcommitted _ _ ks _ rfl (Or.inl ⟨_, h⟩)
    | finish ks h => exact hcommitted _ _ ks _ rfl (Or.inr ⟨_, h⟩)

theorem rules_always (hS : Laws S (fun _ _ _ => True) I L R) :
    Rules S.program (fun _ _ _ => True) I (Local.Knows L R) where
  enter := (rules_of_laws hS).enter
  own s l a s' l' hI hL _ hmove := by
    refine (rules_of_laws hS).own s l a s' l' hI hL ?_ hmove
    cases l with
    | running => cases a <;> trivial
    | returned | aborted => trivial
  other := (rules_of_laws hS).other

/-- What one event does to the committed store: nothing, or the writes of a transaction that
commits. -/
theorem committed_of_step {w w' : World σ (Local π κ ω ρ)} {e : Event ι (Action α)}
    (hw : w.Holds S.program I (Local.Knows L R)) (hok : Sessions.step S.program e w = .ok w') :
    w'.store = w.store ∨ ∃ i p ks ws, w'.store = S.view w.store ws ∧ L w.store p ks ws ∧
      S.Commits i p w.store ws ∧
      ∀ guard, w.Meets (atStatement guard) e → guard w.store i p := by
  cases e with
  | enter call =>
    cases hok
    exact Or.inl rfl
  | act i a =>
    obtain ⟨l, l', s, hl, hmove, -, rfl⟩ := step_act hok
    have hknown := hw.sessions i l hl
    have hmeets : ∀ b p ks ws, l = .running p ks ws → a = .statement b →
        ∀ guard, w.Meets (atStatement guard) (.act i a : Event ι (Action α)) →
          guard w.store b p := by
      rintro b p ks ws rfl rfl guard hg
      have hat : atStatement guard w.store (.running p ks ws : Local π κ ω ρ) (.statement b) := by
        unfold World.Meets at hg
        simpa only [hl] using hg
      exact hat
    cases moves_of_move hmove with
    | crash | next | fail => exact Or.inl rfl
    | commit ks h => exact Or.inr ⟨_, _, ks, _, rfl, hknown, Or.inl ⟨_, h⟩, hmeets _ _ ks _ rfl rfl⟩
    | finish ks h => exact Or.inr ⟨_, _, ks, _, rfl, hknown, Or.inr ⟨_, h⟩, hmeets _ _ ks _ rfl rfl⟩

end CalmBoard.Requests
