import Mathlib.Data.List.Sort
import Mathlib.Data.List.Induction

/-!
# CalmBoard.Lib.Replay — events in the order of their times

Events may be delivered in any order and more than once; `ordered` lists those delivered so far once
each, by their times, and `replay` applies a list of events.

* `increasing_split`: where a delivered event stands among the others.
* `Absorbs`: an event that has had its effect leaves the state alone from then on.
* `Absorbs.again`: a repeated event changes nothing.
* `Absorbs.late`, `replay_merge`: a late event that later events overwrite changes nothing either.
-/

namespace CalmBoard.Replay

variable {ε σ τ : Type*} {f : ε → σ → σ}

def replay (f : ε → σ → σ) (s : σ) (D : List ε) : σ := D.foldl (fun s e => f e s) s

@[simp] theorem replay_nil (s : σ) : replay f s [] = s := rfl

@[simp] theorem replay_cons (s : σ) (e : ε) (D : List ε) :
    replay f s (e :: D) = replay f (f e s) D := rfl

@[simp] theorem replay_append (s : σ) (D E : List ε) :
    replay f s (D ++ E) = replay f (replay f s D) E := List.foldl_append

/-- What every event keeps is kept. -/
theorem replay_keeps {I : σ → Prop} {s : σ} {D : List ε} (hs : I s)
    (hstep : ∀ e ∈ D, ∀ s, I s → I (f e s)) : I (replay f s D) := by
  induction D generalizing s with
  | nil => exact hs
  | cons e D ih =>
    exact ih (hstep e List.mem_cons_self s hs) fun x hx => hstep x (List.mem_cons_of_mem _ hx)

/-! ### Events in order -/

section Ordered

variable [LinearOrder τ] {time : ε → τ} {e : ε} {D events : List ε}

def Increasing (time : ε → τ) (D : List ε) : Prop := D.Pairwise fun a b => time a < time b

/-- An event with a time of its own goes between the older and the newer ones. -/
theorem orderedInsert_split (hD : Increasing time D) (hne : ∀ d ∈ D, time d ≠ time e) :
    ∃ older newer, D = older ++ newer ∧
      D.orderedInsert (fun a b => time a ≤ time b) e = older ++ e :: newer ∧
      (∀ d ∈ older, time d < time e) ∧ ∀ d ∈ newer, time e < time d := by
  induction D with
  | nil => exact ⟨[], [], rfl, rfl, fun _ hd => (by cases hd), fun _ hd => (by cases hd)⟩
  | cons d D ih =>
    obtain ⟨hhead, htail⟩ := List.pairwise_cons.mp hD
    by_cases hle : time e ≤ time d
    · have hlt : time e < time d := lt_of_le_of_ne hle (hne d List.mem_cons_self).symm
      refine ⟨[], d :: D, rfl, List.orderedInsert_cons_of_le _ _ hle, fun _ hx => (by cases hx), ?_⟩
      intro x hx
      rcases List.mem_cons.mp hx with rfl | hx
      · exact hlt
      · exact hlt.trans (hhead x hx)
    · obtain ⟨older, newer, rfl, hinsert, holder, hnewer⟩ :=
        ih htail fun x hx => hne x (List.mem_cons_of_mem _ hx)
      refine ⟨d :: older, newer, rfl, ?_, ?_, hnewer⟩
      · rw [List.orderedInsert, if_neg hle, hinsert]
        rfl
      · intro x hx
        rcases List.mem_cons.mp hx with rfl | hx
        · exact not_le.mp hle
        · exact holder x hx

theorem increasing_append {older newer : List ε} (holder : ∀ d ∈ older, time d < time e)
    (hnewer : ∀ d ∈ newer, time e < time d) (h : Increasing time (older ++ newer)) :
    Increasing time (older ++ e :: newer) := by
  obtain ⟨h₁, h₂, h₃⟩ := List.pairwise_append.mp h
  refine List.pairwise_append.mpr ⟨h₁, List.pairwise_cons.mpr ⟨hnewer, h₂⟩, ?_⟩
  intro a ha b hb
  rcases List.mem_cons.mp hb with rfl | hb
  · exact holder a ha
  · exact h₃ a ha b hb

/-- An event of the list stands between the older and the newer ones. -/
theorem increasing_split (hD : Increasing time D) (he : e ∈ D) :
    ∃ older newer, D = older ++ e :: newer ∧
      (∀ d ∈ older, time d < time e) ∧ ∀ d ∈ newer, time e < time d := by
  obtain ⟨older, newer, rfl⟩ := List.append_of_mem he
  obtain ⟨-, hnewer, holder⟩ := List.pairwise_append.mp hD
  exact ⟨older, newer, rfl, fun d hd => holder d hd e List.mem_cons_self,
    (List.pairwise_cons.mp hnewer).1⟩

/-- Two replays that stay related until the event `u`, or one before it, makes them agree end in one
state; `B` says how far the states have come in time. -/
theorem replay_merge {B : τ → σ → Prop} {R : σ → σ → Prop} {S : ε → Prop} {s t : σ} {u : ε}
    (hB : ∀ e s u, B (time e) s → time e < u → B u (f e s)) (hD : Increasing time D)
    (hs : ∀ d ∈ D, B (time d) s) (ht : ∀ d ∈ D, B (time d) t) (hR : R s t)
    (hmerge : ∀ e ∈ D, S e → ∀ s t, B (time e) s → B (time e) t → R s t → f e s = f e t)
    (hstep : ∀ e ∈ D, ¬ S e → time e < time u → ∀ s t, B (time e) s → B (time e) t → R s t →
      R (f e s) (f e t))
    (hu : u ∈ D) (hstop : S u) : replay f s D = replay f t D := by
  induction D generalizing s t with
  | nil => cases hu
  | cons e D ih =>
    have hse : B (time e) s := hs e List.mem_cons_self
    have hte : B (time e) t := ht e List.mem_cons_self
    by_cases hstope : S e
    · rw [replay_cons, replay_cons, hmerge e List.mem_cons_self hstope s t hse hte hR]
    · obtain ⟨hhead, htail⟩ := List.pairwise_cons.mp hD
      have hrest : u ∈ D := by
        rcases List.mem_cons.mp hu with rfl | hu
        · exact absurd hstop hstope
        · exact hu
      exact ih htail (fun d hd => hB e s _ hse (hhead d hd)) (fun d hd => hB e t _ hte (hhead d hd))
        (hstep e List.mem_cons_self hstope (hhead u hrest) s t hse hte hR)
        (fun x hx => hmerge x (List.mem_cons_of_mem _ hx))
        (fun x hx => hstep x (List.mem_cons_of_mem _ hx)) hrest

/-- How far a replay comes in time. -/
theorem replay_before {B : τ → σ → Prop} {s : σ} {u : τ}
    (hB : ∀ e s u, B (time e) s → time e < u → B u (f e s)) (hD : Increasing time D)
    (hs : ∀ t, B t s) (hu : ∀ d ∈ D, time d < u) : B u (replay f s D) := by
  induction D using List.reverseRecOn generalizing u with
  | nil => exact hs u
  | append_singleton D e ih =>
    obtain ⟨hinit, -, hlast⟩ := List.pairwise_append.mp hD
    rw [replay_append]
    exact hB e _ u (ih hinit fun d hd => hlast d hd e List.mem_cons_self)
      (hu e (List.mem_append_right _ List.mem_cons_self))

variable [DecidableEq ε] (time)

/-- Add an event at its place, once. -/
def insertOnce (e : ε) (D : List ε) : List ε :=
  if e ∈ D then D else D.orderedInsert (fun a b => time a ≤ time b) e

/-- The events of a list, once each and by their times. -/
def ordered (events : List ε) : List ε := events.foldl (fun D e => insertOnce time e D) []

variable {time}

@[simp] theorem ordered_nil : ordered time ([] : List ε) = [] := rfl

theorem ordered_concat (events : List ε) (e : ε) :
    ordered time (events ++ [e]) = insertOnce time e (ordered time events) := List.foldl_append

theorem mem_insertOnce {x : ε} : x ∈ insertOnce time e D ↔ x = e ∨ x ∈ D := by
  unfold insertOnce
  split
  · next he =>
    constructor
    · exact Or.inr
    · rintro (rfl | hx)
      · exact he
      · exact hx
  · exact List.mem_orderedInsert _

theorem mem_ordered {x : ε} : x ∈ ordered time events ↔ x ∈ events := by
  induction events using List.reverseRecOn with
  | nil => rfl
  | append_singleton events e ih =>
    rw [ordered_concat, mem_insertOnce, ih, List.mem_append, List.mem_singleton, or_comm]

theorem increasing_insertOnce (hD : Increasing time D)
    (hinj : ∀ d ∈ D, time d = time e → d = e) : Increasing time (insertOnce time e D) := by
  unfold insertOnce
  split
  · exact hD
  · next he =>
    obtain ⟨older, newer, rfl, hinsert, holder, hnewer⟩ :=
      orderedInsert_split hD fun d hd ht => he (hinj d hd ht ▸ hd)
    rw [hinsert]
    exact increasing_append holder hnewer hD

theorem increasing_ordered (hinj : ∀ a ∈ events, ∀ b ∈ events, time a = time b → a = b) :
    Increasing time (ordered time events) := by
  induction events using List.reverseRecOn with
  | nil => exact List.Pairwise.nil
  | append_singleton events e ih =>
    have hmem : ∀ a ∈ events, a ∈ events ++ [e] := fun a ha => List.mem_append_left _ ha
    rw [ordered_concat]
    refine increasing_insertOnce (ih fun a ha b hb => hinj a (hmem a ha) b (hmem b hb)) ?_
    intro d hd
    exact hinj d (hmem d (mem_ordered.mp hd)) e (List.mem_append_right _ List.mem_cons_self)

end Ordered

/-! ### Events that have had their effect -/

/-- `Done e s`: in `s` the event `e` has no effect any more, whatever newer events do. -/
structure Absorbs [LinearOrder τ] (f : ε → σ → σ) (time : ε → τ) (Done : ε → σ → Prop) : Prop where
  fix : ∀ e s, Done e s → f e s = s
  keeps : ∀ e x s, Done e s → time e < time x → Done e (f x s)

section Absorbs

variable [LinearOrder τ] {time : ε → τ} {Done : ε → σ → Prop} {e : ε} {s : σ}
  {older newer : List ε}

theorem Absorbs.replay (h : Absorbs f time Done) (hs : Done e s)
    (hnewer : ∀ x ∈ newer, time e < time x) : Done e (replay f s newer) :=
  replay_keeps hs fun x hx t ht => h.keeps e x t ht (hnewer x hx)

/-- A repeated event changes nothing. -/
theorem Absorbs.again (h : Absorbs f time Done) (hnewer : ∀ x ∈ newer, time e < time x)
    (hdone : Done e (f e (Replay.replay f s older))) :
    f e (Replay.replay f s (older ++ e :: newer)) = Replay.replay f s (older ++ e :: newer) := by
  rw [replay_append, replay_cons]
  exact h.fix e _ (h.replay hdone hnewer)

/-- A late event changes nothing where the newer ones make up for it. -/
theorem Absorbs.late (h : Absorbs f time Done) (hnewer : ∀ x ∈ newer, time e < time x)
    (hdone : Done e (f e (Replay.replay f s older)))
    (heq : Replay.replay f (f e (Replay.replay f s older)) newer =
      Replay.replay f (Replay.replay f s older) newer) :
    f e (Replay.replay f s (older ++ newer)) = Replay.replay f s (older ++ e :: newer) := by
  rw [replay_append, replay_append, replay_cons, ← heq]
  exact h.fix e _ (h.replay hdone hnewer)

/-- An event that is newer than all that have an effect is applied in order. -/
theorem replay_inert (hinert : ∀ x ∈ newer, ∀ s, f x s = s) :
    f e (replay f s (older ++ newer)) = replay f s (older ++ e :: newer) := by
  have hfix : ∀ t, Replay.replay f t newer = t := fun t =>
    replay_keeps (I := fun u => u = t) rfl fun x hx u hu => (hinert x hx u).trans hu
  rw [replay_append, replay_append, replay_cons, hfix, hfix]

/-- **Delivery rule**: an event applied to what was delivered before is applied at its place, where
it is done once it has been applied, and a late one is made up for by newer ones. -/
theorem Absorbs.insertOnce [DecidableEq ε] {D : List ε} (h : Absorbs f time Done)
    (hD : Increasing time D) (hinj : ∀ d ∈ D, time d = time e → d = e)
    (hdone : ∀ older, Increasing time older → (∀ d ∈ older, time d < time e) →
      Done e (f e (Replay.replay f s older)))
    (hlate : e ∉ D → ∀ older newer, D = older ++ newer → (∀ d ∈ older, time d < time e) →
      (∀ d ∈ newer, time e < time d) → (∀ x ∈ newer, ∀ s, f x s = s) ∨
        Replay.replay f (f e (Replay.replay f s older)) newer =
          Replay.replay f (Replay.replay f s older) newer) :
    f e (Replay.replay f s D) = Replay.replay f s (insertOnce time e D) := by
  unfold Replay.insertOnce
  split
  · next he =>
    obtain ⟨older, newer, rfl, holder, hnewer⟩ := increasing_split hD he
    exact h.again hnewer (hdone older (List.pairwise_append.mp hD).1 holder)
  · next he =>
    obtain ⟨older, newer, rfl, hinsert, holder, hnewer⟩ :=
      orderedInsert_split hD fun d hd ht => he (hinj d hd ht ▸ hd)
    rw [hinsert]
    rcases hlate he older newer rfl holder hnewer with hinert | heq
    · exact replay_inert hinert
    · exact h.late hnewer (hdone older (List.pairwise_append.mp hD).1 holder) heq

end Absorbs

end CalmBoard.Replay
