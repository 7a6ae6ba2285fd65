import Mathlib.Data.List.Induction
import CalmBoard.Lib.Runs

/-!
# CalmBoard.Lib.Sessions — sessions that share a committed store

Any number of sessions run their statements in any order over one store.  What a session has not
committed is part of its local state, and so are the locks it holds; a statement that needs a lock
another session holds has to wait.

* `Program`, `World`, `World.step`: one statement of one session, or a new session.
* `World.Apart`: no two sessions hold locks that conflict.
* `Rules`, `run_rules`: an invariant of the store and one of each local state, kept by the sessions
  together.
* `PairRules`, `run_pairs`: a relation between the local states of any two sessions.
* `JointRules`, `run_joint`: both, for runs of which every event meets a condition.
* `run_reflects`, `moment_of`: a property of local states that no statement brings about, and the
  statement that brought one about.
-/

namespace CalmBoard.Sessions

/-- The code a session runs: `start` is its local state before the first statement, `move` its next
statement (`none` where it has no such statement), `locks` the locks it holds. -/
structure Program (ι σ μ κ α : Type) where
  start : ι → μ
  locks : μ → List κ
  conflict : κ → κ → Bool
  move : α → σ → μ → Option (σ × μ)
  conflict_symm : ∀ k k', conflict k k' = conflict k' k
  start_locks : ∀ call, locks (start call) = []

/-- Locks that clash where they are the same. -/
theorem same_symm {κ : Type} [DecidableEq κ] (k k' : κ) : decide (k = k') = decide (k' = k) := by
  simp [eq_comm]

/-- The committed store and the local states of the sessions. -/
structure World (σ μ : Type) where
  store : σ
  sessions : List μ

inductive Event (ι α : Type) where
  | enter (call : ι)
  | act (session : ℕ) (action : α)

variable {ι σ μ κ α : Type} (P : Program ι σ μ κ α)

/-- Two local states hold locks that conflict. -/
def Program.clash (l m : μ) : Bool := (P.locks l).any fun k => (P.locks m).any fun k' => P.conflict k k'

/-- One event; a statement that cannot run is an error. -/
def step (e : Event ι α) (w : World σ μ) : Except Unit (World σ μ) :=
  match e with
  | .enter call => .ok { w with sessions := w.sessions ++ [P.start call] }
  | .act i a =>
    match w.sessions[i]? with
    | none => .error ()
    | some l =>
      match P.move a w.store l with
      | none => .error ()
      | some (s, l') =>
        if (w.sessions.eraseIdx i).any (P.clash l') then .error ()
        else .ok { store := s, sessions := w.sessions.set i l' }

/-- The world after a sequence of events; an event that cannot happen leaves it as it is. -/
def run (w : World σ μ) (events : List (Event ι α)) : World σ μ := Runs.run (step P) w events

variable {P} {w : World σ μ} {e : Event ι α} {l : μ} {i : ℕ}

theorem clash_symm (l m : μ) : P.clash l m = P.clash m l := by
  unfold Program.clash
  rw [Bool.eq_iff_iff]
  simp only [List.any_eq_true]
  constructor
  · rintro ⟨k, hk, k', hk', h⟩
    exact ⟨k', hk', k, hk, P.conflict_symm k' k ▸ h⟩
  · rintro ⟨k, hk, k', hk', h⟩
    exact ⟨k', hk', k, hk, P.conflict_symm k' k ▸ h⟩

/-- A lock that excludes itself is held by one session at most. -/
theorem not_locked {k : κ} {m : μ} (hself : P.conflict k k = true) (h : P.clash l m = false)
    (hk : k ∈ P.locks l) : k ∉ P.locks m := by
  intro hm
  have htrue : P.clash l m = true :=
    List.any_eq_true.mpr ⟨k, hk, List.any_eq_true.mpr ⟨k, hm, hself⟩⟩
  rw [h] at htrue
  cases htrue

theorem clash_start (call : ι) (m : μ) : P.clash (P.start call) m = false := by
  unfold Program.clash
  rw [P.start_locks]
  rfl

/-- What one event does. -/
theorem step_act {a : α} {w' : World σ μ} (h : step P (.act i a) w = .ok w') :
    ∃ l l' s, w.sessions[i]? = some l ∧ P.move a w.store l = some (s, l') ∧
      (∀ j m, j ≠ i → w.sessions[j]? = some m → P.clash l' m = false) ∧
      w' = ⟨s, w.sessions.set i l'⟩ := by
  unfold step at h
  cases hl : w.sessions[i]? with
  | none => simp [hl] at h
  | some l =>
    simp only [hl] at h
    cases hm : P.move a w.store l with
    | none => simp [hm] at h
    | some p =>
      obtain ⟨s, l'⟩ := p
      simp only [hm] at h
      split at h
      · cases h
      · next hfree =>
        cases h
        refine ⟨l, l', s, rfl, hm, fun j m hj hjm => ?_, rfl⟩
        have hmem : m ∈ w.sessions.eraseIdx i := List.mem_eraseIdx_iff_getElem?.mpr ⟨j, hj, hjm⟩
        by_contra hclash
        rw [Bool.not_eq_false] at hclash
        exact hfree (List.any_eq_true.mpr ⟨m, hmem, hclash⟩)

/-- A statement after which its session holds no locks can always run. -/
theorem step_of_move {a : α} {l' : μ} {s : σ} (hl : w.sessions[i]? = some l)
    (hm : P.move a w.store l = some (s, l')) (hfree : P.locks l' = []) :
    step P (.act i a) w = .ok ⟨s, w.sessions.set i l'⟩ := by
  have hclash : ∀ m, P.clash l' m = false := by
    intro m
    unfold Program.clash
    rw [hfree]
    rfl
  unfold step
  simp [hl, hm, hclash]

/-- No two sessions hold locks that conflict. -/
def World.Apart (P : Program ι σ μ κ α) (w : World σ μ) : Prop :=
  ∀ (i j : ℕ) (l m : μ), i ≠ j → w.sessions[i]? = some l → w.sessions[j]? = some m → P.clash l m = false

/-- The sessions after a new one has come. -/
theorem getElem?_enter {L : List μ} {m : μ} (h : (L ++ [l])[i]? = some m) :
    L[i]? = some m ∨ (i = L.length ∧ m = l) := by
  rw [List.getElem?_append] at h
  split at h
  · exact Or.inl h
  · right
    rw [List.getElem?_singleton] at h
    split at h
    · exact ⟨by omega, (Option.some.inj h).symm⟩
    · cases h

/-- The sessions after one of them has moved. -/
theorem getElem?_act {L : List μ} {j : ℕ} {m : μ} (h : (L.set i l)[j]? = some m) :
    (j ≠ i ∧ L[j]? = some m) ∨ (j = i ∧ m = l) := by
  rw [List.getElem?_set] at h
  split at h
  · next hij =>
    split at h
    · exact Or.inr ⟨hij.symm, (Option.some.inj h).symm⟩
    · cases h
  · next hij => exact Or.inl ⟨fun he => hij he.symm, h⟩

theorem World.Apart.step {w' : World σ μ} (h : w.Apart P) (hok : step P e w = .ok w') :
    w'.Apart P := by
  cases e with
  | enter call =>
    cases hok
    intro i j l m hij hi hj
    rcases getElem?_enter hi with hi | ⟨rfl, rfl⟩
    · rcases getElem?_enter hj with hj | ⟨rfl, rfl⟩
      · exact h i j l m hij hi hj
      · rw [clash_symm]
        exact clash_start call l
    · exact clash_start call m
  | act k a =>
    obtain ⟨l₀, l', s, hl₀, -, hfree, rfl⟩ := step_act hok
    intro i j l m hij hi hj
    rcases getElem?_act hi with ⟨hik, hil⟩ | ⟨rfl, rfl⟩
    · rcases getElem?_act hj with ⟨hjk, hjm⟩ | ⟨rfl, rfl⟩
      · exact h i j l m hij hil hjm
      · rw [clash_symm]
        exact hfree i l hik hil
    · rcases getElem?_act hj with ⟨hjk, hjm⟩ | ⟨rfl, rfl⟩
      · exact hfree j m hjk hjm
      · exact absurd rfl hij

/-! ### Invariants -/

variable {L : σ → μ → Prop} {I : σ → Prop} {guard : World σ μ → Event ι α → Prop} {R : μ → μ → Prop}

/-- What one event has to keep of an invariant `I` of the store and an invariant `L` of the local
states: its own, and that of every session it does not clash with. -/
structure Rules (P : Program ι σ μ κ α) (guard : σ → μ → α → Prop) (I : σ → Prop)
    (L : σ → μ → Prop) : Prop where
  enter : ∀ s call, I s → L s (P.start call)
  own : ∀ s l a s' l', I s → L s l → guard s l a → P.move a s l = some (s', l') → I s' ∧ L s' l'
  other : ∀ s l a s' l' m, I s → L s l → L s m → P.clash l m = false → P.clash l' m = false →
    P.move a s l = some (s', l') → L s' m

/-- The store and all local states are as the invariants say. -/
structure World.Holds (P : Program ι σ μ κ α) (I : σ → Prop) (L : σ → μ → Prop) (w : World σ μ) :
    Prop where
  store : I w.store
  sessions : ∀ (i : ℕ) (l : μ), w.sessions[i]? = some l → L w.store l
  apart : w.Apart P

/-- A condition on the session that moves. -/
def World.Meets (guard : σ → μ → α → Prop) (w : World σ μ) : Event ι α → Prop
  | .enter _ => True
  | .act i a =>
    match w.sessions[i]? with
    | none => True
    | some l => guard w.store l a

instance (guard : σ → μ → α → Prop) [∀ s l a, Decidable (guard s l a)] (w : World σ μ) :
    ∀ e : Event ι α, Decidable (w.Meets guard e)
  | .enter _ => .isTrue trivial
  | .act i a =>
    match h : w.sessions[i]? with
    | none => .isTrue (by simp only [World.Meets, h])
    | some l => decidable_of_iff (guard w.store l a) (by simp only [World.Meets, h])

theorem World.Holds.step {guard : σ → μ → α → Prop} (hR : Rules P guard I L) {w' : World σ μ}
    (h : w.Holds P I L) (hg : w.Meets guard e) (hok : step P e w = .ok w') : w'.Holds P I L := by
  have hapart := h.apart.step hok
  cases e with
  | enter call =>
    cases hok
    refine ⟨h.store, fun i l hi => ?_, hapart⟩
    rcases getElem?_enter hi with hi | ⟨-, rfl⟩
    · exact h.sessions i l hi
    · exact hR.enter _ _ h.store
  | act k a =>
    obtain ⟨l, l', s, hl, hmove, hfree, rfl⟩ := step_act hok
    have hmeets : guard w.store l a := by
      unfold World.Meets at hg
      simpa only [hl] using hg
    have hown := hR.own _ l a s l' h.store (h.sessions k l hl) hmeets hmove
    refine ⟨hown.1, fun i m hi => ?_, hapart⟩
    rcases getElem?_act hi with ⟨hik, hi⟩ | ⟨-, rfl⟩
    · exact hR.other _ l a s l' m h.store (h.sessions k l hl) (h.sessions i m hi)
        (h.apart k i l m (Ne.symm hik) hl hi) (hfree i m hik hi) hmove
    · exact hown.2

/-- **Invariant rule** for runs of which every event meets a condition. -/
theorem run_rules {guard : σ → μ → α → Prop} (hR : Rules P guard I L) (events : List (Event ι α))
    (h : w.Holds P I L) (hg : Runs.Guarded (step P) (World.Meets guard) w events) :
    (run P w events).Holds P I L :=
  Runs.run_induction (fun _ _ _ hs hg hok => hs.step hR hg hok) events w h hg

theorem meets_true (w : World σ μ) (e : Event ι α) : w.Meets (fun _ _ _ => True) e := by
  unfold World.Meets
  split
  · trivial
  · split <;> trivial

theorem World.Holds.step_always (hR : Rules P (fun _ _ _ => True) I L) {w' : World σ μ}
    (h : w.Holds P I L) (hok : Sessions.step P e w = .ok w') :
    w'.Holds P I L := h.step hR (meets_true w e) hok

/-- **Invariant rule** for all runs. -/
theorem run_always (hR : Rules P (fun _ _ _ => True) I L) (events : List (Event ι α))
    (h : w.Holds P I L) : (run P w events).Holds P I L :=
  Runs.run_invariant (fun _ _ _ hs hok => hs.step_always hR hok) events w h

/-- A session without a next statement stays where it is. -/
theorem step_stuck (hstuck : ∀ a s, P.move a s l = none) {w' : World σ μ}
    (h : w.sessions[i]? = some l) (hok : step P e w = .ok w') : w'.sessions[i]? = some l := by
  have hi : i < w.sessions.length := (List.getElem?_eq_some_iff.mp h).1
  cases e with
  | enter call =>
    cases hok
    exact (List.getElem?_append_left hi).trans h
  | act k a =>
    obtain ⟨l₀, l', s, hl₀, hmove, -, rfl⟩ := step_act hok
    by_cases hik : k = i
    · rw [hik, h] at hl₀
      cases hl₀
      rw [hstuck a w.store] at hmove
      cases hmove
    · exact (List.getElem?_set_ne hik).trans h

/-- A relation between the local states of any two sessions. -/
def World.Pairs (R : μ → μ → Prop) (w : World σ μ) : Prop :=
  ∀ (i j : ℕ) (l m : μ), i ≠ j → w.sessions[i]? = some l → w.sessions[j]? = some m → R l m

/-- What one event has to keep of such a relation, under the invariants. -/
structure PairRules (P : Program ι σ μ κ α) (I : σ → Prop) (L : σ → μ → Prop) (R : μ → μ → Prop) :
    Prop where
  symm : ∀ l m, R l m → R m l
  enter : ∀ call m, R (P.start call) m
  act : ∀ s l a s' l' m, I s → L s l → L s m → R l m → P.move a s l = some (s', l') → R l' m

theorem World.Pairs.step (hR : PairRules P I L R) {w' : World σ μ} (hw : w.Holds P I L)
    (h : w.Pairs R) (hok : step P e w = .ok w') : w'.Pairs R := by
  cases e with
  | enter call =>
    cases hok
    intro i j l m hij hi hj
    rcases getElem?_enter hi with hi | ⟨rfl, rfl⟩
    · rcases getElem?_enter hj with hj | ⟨rfl, rfl⟩
      · exact h i j l m hij hi hj
      · exact hR.symm _ _ (hR.enter call l)
    · exact hR.enter call m
  | act k a =>
    obtain ⟨l₀, l', s, hl₀, hmove, -, rfl⟩ := step_act hok
    have hact : ∀ (j : ℕ) (m : μ), j ≠ k → w.sessions[j]? = some m → R l' m := by
      intro j m hj hm
      exact hR.act _ l₀ a s l' m hw.store (hw.sessions k l₀ hl₀) (hw.sessions j m hm)
        (h k j l₀ m (Ne.symm hj) hl₀ hm) hmove
    intro i j l m hij hi hj
    rcases getElem?_act hi with ⟨hik, hil⟩ | ⟨rfl, rfl⟩
    · rcases getElem?_act hj with ⟨hjk, hjm⟩ | ⟨rfl, rfl⟩
      · exact h i j l m hij hil hjm
      · exact hR.symm _ _ (hact i l hik hil)
    · rcases getElem?_act hj with ⟨hjk, hjm⟩ | ⟨rfl, rfl⟩
      · exact hact j m hjk hjm
      · exact absurd rfl hij

/-- **Pair rule** for all runs. -/
theorem run_pairs (hR : Rules P (fun _ _ _ => True) I L) (hP : PairRules P I L R)
    (events : List (Event ι α)) (hw : w.Holds P I L) (h : w.Pairs R) : (run P w events).Pairs R :=
  (Runs.run_invariant (I := fun w => World.Holds P I L w ∧ World.Pairs R w)
    (fun _ _ _ hs hok => ⟨hs.1.step_always hR hok, hs.2.step hP hs.1 hok⟩) events w ⟨hw, h⟩).2

/-- What one event has to keep of the invariants and of a relation between any two sessions, where the
condition on events may look at all sessions. -/
structure JointRules (P : Program ι σ μ κ α) (guard : World σ μ → Event ι α → Prop) (I : σ → Prop)
    (L : σ → μ → Prop) (R : μ → μ → Prop) : Prop where
  symm : ∀ l m, R l m → R m l
  enter : ∀ s call, I s → L s (P.start call)
  apart : ∀ call m, R (P.start call) m
  own : ∀ w i l a s l', guard w (.act i a) → w.sessions[i]? = some l → I w.store → L w.store l →
    P.move a w.store l = some (s, l') → I s ∧ L s l'
  other : ∀ w i l a s l' j m, guard w (.act i a) → w.sessions[i]? = some l → j ≠ i →
    w.sessions[j]? = some m → I w.store → L w.store l → L w.store m → R l m → P.clash l m = false →
    P.clash l' m = false → P.move a w.store l = some (s, l') → L s m ∧ R l' m

theorem JointRules.step (hR : JointRules P guard I L R) {w' : World σ μ}
    (h : w.Holds P I L ∧ w.Pairs R) (hg : guard w e) (hok : Sessions.step P e w = .ok w') :
    w'.Holds P I L ∧ w'.Pairs R := by
  obtain ⟨hw, hp⟩ := h
  have hapart := hw.apart.step hok
  cases e with
  | enter call =>
    cases hok
    refine ⟨⟨hw.store, fun i l hi => ?_, hapart⟩, fun i j l m hij hi hj => ?_⟩
    · rcases getElem?_enter hi with hi | ⟨-, rfl⟩
      · exact hw.sessions i l hi
      · exact hR.enter _ _ hw.store
    · rcases getElem?_enter hi with hi | ⟨rfl, rfl⟩
      · rcases getElem?_enter hj with hj | ⟨rfl, rfl⟩
        · exact hp i j l m hij hi hj
        · exact hR.symm _ _ (hR.apart call l)
      · exact hR.apart call m
  | act k a =>
    obtain ⟨l₀, l', s, hl₀, hmove, hfree, rfl⟩ := step_act hok
    have hown := hR.own w k l₀ a s l' hg hl₀ hw.store (hw.sessions k l₀ hl₀) hmove
    have hother : ∀ (j : ℕ) (m : μ), j ≠ k → w.sessions[j]? = some m → L s m ∧ R l' m := by
      intro j m hj hm
      exact hR.other w k l₀ a s l' j m hg hl₀ hj hm hw.store (hw.sessions k l₀ hl₀)
        (hw.sessions j m hm) (hp k j l₀ m (Ne.symm hj) hl₀ hm) (hw.apart k j l₀ m (Ne.symm hj) hl₀ hm)
        (hfree j m hj hm) hmove
    refine ⟨⟨hown.1, fun i m hi => ?_, hapart⟩, fun i j l m hij hi hj => ?_⟩
    · rcases getElem?_act hi with ⟨hik, hi⟩ | ⟨-, rfl⟩
      · exact (hother i m hik hi).1
      · exact hown.2
    · rcases getElem?_act hi with ⟨hik, hil⟩ | ⟨rfl, rfl⟩
      · rcases getElem?_act hj with ⟨hjk, hjm⟩ | ⟨rfl, rfl⟩
        · exact hp i j l m hij hil hjm
        · exact hR.symm _ _ (hother i l hik hil).2
      · rcases getElem?_act hj with ⟨hjk, hjm⟩ | ⟨rfl, rfl⟩
        · exact (hother j m hjk hjm).2
        · exact absurd rfl hij

/-- **Joint rule** for runs of which every event meets a condition. -/
theorem run_joint (hR : JointRules P guard I L R) (events : List (Event ι α)) (hw : w.Holds P I L)
    (h : w.Pairs R) (hg : Runs.Guarded (Sessions.step P) guard w events) :
    (run P w events).Holds P I L ∧ (run P w events).Pairs R :=
  Runs.run_induction (I := fun w => World.Holds P I L w ∧ World.Pairs R w)
    (fun _ _ _ hs hg hok => hR.step hs hg hok) events w ⟨hw, h⟩ hg

/-- A property of local states that no statement brings about. -/
theorem step_reflects {Q : μ → Prop} (henter : ∀ call, ¬ Q (P.start call))
    (hmove : ∀ s l a s' l', I s → L s l → P.move a s l = some (s', l') → ¬ Q l') {w' : World σ μ}
    (hw : w.Holds P I L) (hok : Sessions.step P e w = .ok w') (hl : w'.sessions[i]? = some l)
    (hQ : Q l) : w.sessions[i]? = some l := by
  cases e with
  | enter call =>
    cases hok
    rcases getElem?_enter hl with hl | ⟨-, rfl⟩
    · exact hl
    · exact absurd hQ (henter call)
  | act k a =>
    obtain ⟨l₀, l', s, hl₀, hm, -, rfl⟩ := step_act hok
    rcases getElem?_act hl with ⟨-, hl⟩ | ⟨-, rfl⟩
    · exact hl
    · exact absurd hQ (hmove _ l₀ a s _ hw.store (hw.sessions k l₀ hl₀) hm)

/-- **Reflection rule**: where no statement brings a property of local states about, the sessions
that have it at the end had it at the start. -/
theorem run_reflects {Q : μ → Prop} (hR : Rules P (fun _ _ _ => True) I L)
    (henter : ∀ call, ¬ Q (P.start call))
    (hmove : ∀ s l a s' l', I s → L s l → P.move a s l = some (s', l') → ¬ Q l')
    (events : List (Event ι α)) (hw : w.Holds P I L) (hl : (run P w events).sessions[i]? = some l)
    (hQ : Q l) : w.sessions[i]? = some l := by
  have h : World.Holds P I L (run P w events) ∧
      ∀ l, (run P w events).sessions[i]? = some l → Q l → w.sessions[i]? = some l :=
    Runs.run_invariant (I := fun v => World.Holds P I L v ∧
        ∀ (l : μ), v.sessions[i]? = some l → Q l → w.sessions[i]? = some l)
      (fun e v v' hv hok => ⟨hv.1.step_always hR hok, fun l hl hQ =>
        hv.2 l (step_reflects henter hmove hv.1 hok hl hQ) hQ⟩)
      events w ⟨hw, fun _ hl _ => hl⟩
  exact h.2 l hl hQ

theorem run_append (w : World σ μ) (events more : List (Event ι α)) :
    run P w (events ++ more) = run P (run P w events) more := List.foldl_append

theorem run_concat (w : World σ μ) (events : List (Event ι α)) (e : Event ι α) :
    run P w (events ++ [e]) = Runs.exec (step P) (run P w events) e := by
  rw [run_append]
  rfl

/-- A session without a next statement stays where it is in every run. -/
theorem run_stuck (hstuck : ∀ a s, P.move a s l = none) (events : List (Event ι α))
    (h : w.sessions[i]? = some l) : (run P w events).sessions[i]? = some l :=
  Runs.run_invariant (I := fun v => v.sessions[i]? = some l)
    (fun _ _ _ hv hok => step_stuck hstuck hv hok) events w h

/-- **Moments**: what a session has come to, and no session starts with, came about by one of its
statements. -/
theorem moment_of {Q : μ → Prop} (henter : ∀ call, ¬ Q (P.start call))
    (hw : ∀ l, w.sessions[i]? = some l → ¬ Q l) (events : List (Event ι α))
    (hl : (run P w events).sessions[i]? = some l) (hQ : Q l) :
    ∃ before a after l₀ l₁ s, events = before ++ .act i a :: after ∧
      (run P w before).sessions[i]? = some l₀ ∧ ¬ Q l₀ ∧ Q l₁ ∧
      P.move a (run P w before).store l₀ = some (s, l₁) ∧
      step P (.act i a) (run P w before) = .ok ⟨s, (run P w before).sessions.set i l₁⟩ := by
  induction events using List.reverseRecOn generalizing l with
  | nil => exact absurd hQ (hw l hl)
  | append_singleton events e ih =>
    have hearlier : ∀ m, (run P w events).sessions[i]? = some m → Q m →
        ∃ before a after l₀ l₁ s, events ++ [e] = before ++ .act i a :: after ∧
          (run P w before).sessions[i]? = some l₀ ∧ ¬ Q l₀ ∧ Q l₁ ∧
          P.move a (run P w before).store l₀ = some (s, l₁) ∧
          step P (.act i a) (run P w before) = .ok ⟨s, (run P w before).sessions.set i l₁⟩ := by
      intro m hm hQm
      obtain ⟨before, a, after, l₀, l₁, s, rfl, h⟩ := ih hm hQm
      exact ⟨before, a, after ++ [e], l₀, l₁, s, by simp, h⟩
    rw [run_concat] at hl
    unfold Runs.exec at hl
    cases hok : step P e (run P w events) with
    | error u =>
      rw [hok] at hl
      exact hearlier l hl hQ
    | ok w' =>
      rw [hok] at hl
      cases e with
      | enter call =>
        cases hok
        rcases getElem?_enter hl with hl | ⟨-, rfl⟩
        · exact hearlier l hl hQ
        · exact absurd hQ (henter call)
      | act k a =>
        obtain ⟨l₀, l', s, hl₀, hmove, -, rfl⟩ := step_act hok
        rcases getElem?_act hl with ⟨-, hl⟩ | ⟨rfl, rfl⟩
        · exact hearlier l hl hQ
        · by_cases hQ₀ : Q l₀
          · exact hearlier l₀ hl₀ hQ₀
          · exact ⟨events, a, [], l₀, _, s, rfl, hl₀, hQ₀, hQ, hmove, hok⟩

/-- A store that no session has opened yet. -/
def World.closed (s : σ) : World σ μ := ⟨s, []⟩

theorem World.holds_closed {s : σ} (hs : I s) : (World.closed s : World σ μ).Holds P I L :=
  ⟨hs, fun _ _ hi => (by cases hi), fun _ _ _ _ _ hi => (by cases hi)⟩

theorem World.pairs_closed {s : σ} : (World.closed s : World σ μ).Pairs R :=
  fun _ _ _ _ _ hi => (by cases hi)

end CalmBoard.Sessions
