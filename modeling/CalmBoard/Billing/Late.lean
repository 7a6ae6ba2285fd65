import CalmBoard.Lib.Replay
import CalmBoard.Billing.Timeline

/-!
# CalmBoard.Billing.Late — events that may come late

* `Harmless`: the events that may come after given ones.
* `late_status`, `late_overwritten`, `late_repeats`, `late_over`, `late_endsAnyway`, `late_unheard`:
  how newer events make up for each kind of late event.
* `step_insertOnce`: a harmless event, whenever it comes, leads to the state of the ordered events.
-/

namespace CalmBoard.Billing

open Replay

variable {ε : Type*} (time : ε → ℤ) (effect : ε → Effect)

/-- One event. -/
def step (e : ε) (s : State) : State := s.apply (time e) (effect e)

/-- A newer update follows, before any cancellation. -/
def Overwritten (D : List ε) (e : ε) : Prop :=
  ∃ u ∈ D, (effect u).isUpdate = true ∧ time e < time u ∧
    ∀ c ∈ D, effect c = .cancel → ¬ (time e < time c ∧ time c < time u)

def Effect.sets (plan : BillingPlan) (seats : ℕ) : Effect → Bool
  | .update _ plan' seats' => plan' = plan && seats' = seats
  | _ => false

/-- The update before it has set the same plan and seats. -/
def Repeats (plan : BillingPlan) (seats : ℕ) (D : List ε) (e : ε) : Prop :=
  ∃ u ∈ D, (effect u).sets plan seats = true ∧ time u < time e ∧
    ∀ v ∈ D, (effect v).isUpdate = true → ¬ (time u < time v ∧ time v < time e)

/-- An older cancellation follows an update. -/
def Closed (D : List ε) (e : ε) : Prop :=
  ∃ u ∈ D, (effect u).isUpdate = true ∧
    ∃ c ∈ D, effect c = .cancel ∧ time u < time c ∧ time c < time e

/-- A newer cancellation follows, before any update. -/
def EndsAnyway (D : List ε) (e : ε) : Prop :=
  ∃ c ∈ D, effect c = .cancel ∧ time e < time c ∧
    ∀ u ∈ D, (effect u).isUpdate = true → ¬ (time e < time u ∧ time u < time c)

/-- There is no older update, and there was nothing to cancel, or there is a newer update. -/
def Unheard (s : State) (D : List ε) (e : ε) : Prop :=
  (∀ u ∈ D, (effect u).isUpdate = true → ¬ time u < time e) ∧
    (s = .absent ∨ (∃ c ∈ D, effect c = .cancel ∧ time c < time e) ∨
      ∃ u ∈ D, (effect u).isUpdate = true ∧ time e < time u)

/-- An event that may come after newer ones. -/
def MayBeLate (s : State) (D : List ε) (e : ε) : Prop :=
  match effect e with
  | .nothing | .status _ => True
  | .update _ plan seats =>
    Overwritten time effect D e ∨ Repeats time effect plan seats D e ∨ Closed time effect D e
  | .cancel => EndsAnyway time effect D e ∨ Closed time effect D e ∨ Unheard time effect s D e

/-- The event may come after the events `D`: it is one of them, none of them is newer and has an
effect, or it may be late. -/
def Harmless (s : State) (D : List ε) (e : ε) : Prop :=
  e ∈ D ∨ (∀ d ∈ D, time e < time d → effect d = .nothing) ∨ MayBeLate time effect s D e

instance (D : List ε) (e : ε) : Decidable (Overwritten time effect D e) :=
  inferInstanceAs (Decidable (∃ u ∈ D, _ ∧ _))

instance (plan : BillingPlan) (seats : ℕ) (D : List ε) (e : ε) :
    Decidable (Repeats time effect plan seats D e) :=
  inferInstanceAs (Decidable (∃ u ∈ D, _ ∧ _))

instance (D : List ε) (e : ε) : Decidable (Closed time effect D e) :=
  inferInstanceAs (Decidable (∃ u ∈ D, _ ∧ ∃ c ∈ D, _))

instance (D : List ε) (e : ε) : Decidable (EndsAnyway time effect D e) :=
  inferInstanceAs (Decidable (∃ c ∈ D, _ ∧ _))

instance (s : State) (D : List ε) (e : ε) : Decidable (Unheard time effect s D e) :=
  inferInstanceAs (Decidable (_ ∧ (_ ∨ (∃ c ∈ D, _) ∨ ∃ u ∈ D, _)))

instance (s : State) (D : List ε) (e : ε) : Decidable (MayBeLate time effect s D e) :=
  match h : effect e with
  | .nothing | .status _ => .isTrue (by simp only [MayBeLate, h])
  | .update _ plan seats =>
    decidable_of_iff (Overwritten time effect D e ∨ Repeats time effect plan seats D e ∨
      Closed time effect D e) (by simp only [MayBeLate, h])
  | .cancel =>
    decidable_of_iff (EndsAnyway time effect D e ∨ Closed time effect D e ∨
      Unheard time effect s D e) (by simp only [MayBeLate, h])

instance [DecidableEq ε] (s : State) (D : List ε) (e : ε) : Decidable (Harmless time effect s D e) :=
  inferInstanceAs (Decidable (_ ∨ (∀ d ∈ D, _) ∨ _))

variable {time effect} {s p : State} {e : ε} {D older newer : List ε} {plan : BillingPlan}

theorem absorbs : Absorbs (step time effect) time fun e s => Done (time e) (effect e) s :=
  ⟨fun _ _ h => h.1, fun _ _ _ h htu => done_keeps h htu⟩

theorem before_step (e : ε) (s : State) (u : ℤ) (h : s.Before (time e)) (htu : time e < u) :
    (step time effect e s).Before u := before_apply h htu

theorem before_older (hs : ∀ t, s.Before t) (holder : Increasing time older) {t : ℤ}
    (ht : ∀ d ∈ older, time d < t) : (replay (step time effect) s older).Before t :=
  replay_before (B := State.Before) before_step holder hs ht

theorem replay_agree {r r' : Row} (hplan : r.plan = r'.plan) (hseats : r.seats = r'.seats)
    (hprovided : r.provided = r'.provided) (hnewer : Increasing time newer)
    (hr : ∀ d ∈ newer, (State.current r).Before (time d))
    (hr' : ∀ d ∈ newer, (State.current r').Before (time d))
    (hlive : ∃ d ∈ newer, effect d ≠ .nothing) :
    replay (step time effect) (.current r) newer = replay (step time effect) (.current r') newer := by
  obtain ⟨u, hu, heffect⟩ := hlive
  refine replay_merge (B := State.Before) (R := fun a b => a = .current r ∧ b = .current r')
    (S := fun d => effect d ≠ .nothing) before_step hnewer hr hr' ⟨rfl, rfl⟩ ?_ ?_ hu heffect
  · rintro d - hd a b ha hb ⟨rfl, rfl⟩
    exact apply_agree hplan hseats hprovided ha hb hd
  · rintro d - hd - a b - - ⟨rfl, rfl⟩
    have hnothing : effect d = .nothing := not_not.mp hd
    unfold step
    rw [hnothing, apply_nothing, apply_nothing]
    exact ⟨rfl, rfl⟩

theorem step_update (a b : State) (hd : (effect e).isUpdate = true) (ha : a.Before (time e))
    (hb : b.Before (time e)) (hao : a.Open) (hbo : b.Open) :
    step time effect e a = step time effect e b := by
  unfold step
  cases hx : effect e with
  | update st plan seats => rw [apply_update hao ha, apply_update hbo hb]
  | nothing | status | cancel =>
    rw [hx] at hd
    cases hd

theorem step_ended {seats : ℕ} (e : ε) :
    step time effect e (.ended plan seats true) = .ended plan seats true := by
  unfold step
  cases effect e <;> rfl

theorem live_of_newer (h : ¬ ∀ d ∈ newer, effect d = .nothing) : ∃ d ∈ newer, effect d ≠ .nothing := by
  push Not at h
  exact h

theorem mem_newer {u : ε} (holder : ∀ d ∈ older, time d < time e) (hu : u ∈ older ++ newer)
    (heu : time e < time u) : u ∈ newer := by
  rcases List.mem_append.mp hu with hu | hu
  · exact absurd (holder u hu) heu.not_gt
  · exact hu

theorem mem_older {u : ε} (hnewer : ∀ d ∈ newer, time e < time d) (hu : u ∈ older ++ newer)
    (heu : time u < time e) : u ∈ older := by
  rcases List.mem_append.mp hu with hu | hu
  · exact hu
  · exact absurd (hnewer u hu) heu.not_gt

theorem late_status {st : SubscriptionStatus} (he : effect e = .status st) (hp : p.Before (time e))
    (hinc : Increasing time newer) (hnewer : ∀ d ∈ newer, time e < time d)
    (hlive : ∃ d ∈ newer, effect d ≠ .nothing) :
    replay (step time effect) (step time effect e p) newer = replay (step time effect) p newer := by
  cases p with
  | absent | ended =>
    unfold step
    rw [he]
    rfl
  | current r =>
    have hstep : step time effect e (.current r) =
        .current { r with status := st, seen := some (time e) } := by
      unfold step
      rw [he]
      exact apply_current hp
    rw [hstep]
    refine replay_agree rfl rfl rfl hinc ?_ ?_ hlive
    · rintro d hd t' ⟨⟩
      exact hnewer d hd
    · exact fun d hd t' ht' => (hp t' ht').trans (hnewer d hd)

theorem before_newer (hp : p.Before (time e)) (hnewer : ∀ d ∈ newer, time e < time d) :
    ∀ d ∈ newer, p.Before (time d) := by
  intro d hd
  cases p with
  | absent | ended => trivial
  | current r => exact fun t' ht' => (hp t' ht').trans (hnewer d hd)

theorem replay_open {a b : State} (ha : ∀ d ∈ newer, a.Before (time d))
    (hb : ∀ d ∈ newer, b.Before (time d)) (hao : a.Open) (hbo : b.Open)
    (hinc : Increasing time newer) {u : ε} (hu : u ∈ newer) (hupdate : (effect u).isUpdate = true)
    (hcancel : ∀ c ∈ newer, effect c = .cancel → ¬ time c < time u) :
    replay (step time effect) a newer = replay (step time effect) b newer := by
  refine replay_merge (B := State.Before) (R := fun a b => a.Open ∧ b.Open)
    (S := fun d => (effect d).isUpdate = true) before_step hinc ha hb ⟨hao, hbo⟩ ?_ ?_ hu hupdate
  · rintro d - hd a b ha hb ⟨hao, hbo⟩
    exact step_update a b hd ha hb hao hbo
  · rintro d hd - hdu a b ha hb ⟨hao, hbo⟩
    have hkept : effect d ≠ .cancel := fun hc => hcancel d hd hc hdu
    exact ⟨open_apply hao ha hkept, open_apply hbo hb hkept⟩

theorem late_overwritten (hupdate : (effect e).isUpdate = true) (hp : p.Before (time e))
    (hinc : Increasing time newer) (holder : ∀ d ∈ older, time d < time e)
    (hnewer : ∀ d ∈ newer, time e < time d) (h : Overwritten time effect (older ++ newer) e) :
    replay (step time effect) (step time effect e p) newer = replay (step time effect) p newer := by
  obtain ⟨u, hu, hisUpdate, heu, hbetween⟩ := h
  by_cases ho : p.Open
  · have hopen : (step time effect e p).Open := by
      refine open_apply ho hp fun hc => ?_
      rw [hc] at hupdate
      cases hupdate
    refine replay_open (fun d hd => before_step e p _ hp (hnewer d hd)) (before_newer hp hnewer)
      hopen ho hinc (mem_newer holder hu heu) hisUpdate ?_
    intro c hc hcancel hcu
    exact hbetween c (List.mem_append_right _ hc) hcancel ⟨hnewer c hc, hcu⟩
  · cases p with
    | absent | current => exact absurd trivial ho
    | ended plan seats provided =>
      obtain rfl : provided = true := by simpa [State.Open] using ho
      rw [step_ended]

theorem holds_of_repeats {seats : ℕ} (hs : ∀ t, s.Before t) (hinc : Increasing time older)
    (holder : ∀ d ∈ older, time d < time e) (hnewer : ∀ d ∈ newer, time e < time d)
    (h : Repeats time effect plan seats (older ++ newer) e) :
    (replay (step time effect) s older).Holds plan seats := by
  obtain ⟨u, hu, hsets, hue, hbetween⟩ := h
  obtain ⟨l, l', rfl⟩ := List.append_of_mem (mem_older hnewer hu hue)
  obtain ⟨hl, hl', hlast⟩ := List.pairwise_append.mp hinc
  have hbefore : (replay (step time effect) s l).Before (time u) :=
    before_older hs hl fun d hd => hlast d hd u List.mem_cons_self
  rw [replay_append, replay_cons]
  refine replay_keeps (I := State.Holds plan seats) ?_ ?_
  · unfold step
    cases hx : effect u with
    | update st plan' seats' =>
      rw [hx] at hsets
      simp only [Effect.sets, Bool.and_eq_true, decide_eq_true_eq] at hsets
      obtain ⟨rfl, rfl⟩ := hsets
      exact holds_update hbefore
    | nothing | status | cancel =>
      rw [hx] at hsets
      cases hsets
  · intro d hd a ha
    refine holds_apply ha (Bool.eq_false_of_not_eq_true fun hisUpdate => ?_)
    have hmem : d ∈ l ++ u :: l' := List.mem_append_right _ (List.mem_cons_of_mem _ hd)
    exact hbetween d (List.mem_append_left _ hmem) hisUpdate
      ⟨(List.pairwise_cons.mp hl').1 d hd, holder d hmem⟩

theorem late_repeats {st : SubscriptionStatus} {seats : ℕ} (he : effect e = .update st plan seats)
    (hp : p.Before (time e)) (hholds : p.Holds plan seats) (hinc : Increasing time newer)
    (hnewer : ∀ d ∈ newer, time e < time d) (hlive : ∃ d ∈ newer, effect d ≠ .nothing) :
    replay (step time effect) (step time effect e p) newer = replay (step time effect) p newer := by
  cases p with
  | absent => cases hholds
  | ended plan' seats' provided =>
    obtain rfl : provided = true := hholds
    rw [step_ended]
  | current r =>
    have hstep : step time effect e (.current r) = .current ⟨st, plan, seats, some (time e), true⟩ := by
      unfold step
      rw [he]
      exact apply_current hp
    obtain ⟨hplan, hseats, hprovided⟩ := hholds
    rw [hstep]
    refine replay_agree hplan.symm hseats.symm hprovided.symm hinc ?_ (before_newer hp hnewer) hlive
    rintro d hd t' ⟨⟩
    exact hnewer d hd

theorem over_step (h : s.Over) (e : ε) : (step time effect e s).Over := by
  obtain ⟨plan, seats, rfl⟩ := h
  exact ⟨plan, seats, step_ended e⟩

theorem over_of_closed (hs : ∀ t, s.Before t) (hinc : Increasing time older)
    (hnewer : ∀ d ∈ newer, time e < time d) (h : Closed time effect (older ++ newer) e) :
    (replay (step time effect) s older).Over := by
  obtain ⟨u, hu, hisUpdate, c, hc, hcancel, huc, hce⟩ := h
  obtain ⟨l, l', rfl⟩ := List.append_of_mem (mem_older hnewer hc hce)
  obtain ⟨hl, -, hlast⟩ := List.pairwise_append.mp hinc
  have hul : u ∈ l := by
    have hmem := mem_older hnewer hu (huc.trans hce)
    rcases List.mem_append.mp hmem with hmem | hmem
    · exact hmem
    · rcases List.mem_cons.mp hmem with rfl | hmem
      · exact absurd huc (lt_irrefl _)
      · exact absurd ((List.pairwise_cons.mp (List.pairwise_append.mp hinc).2.1).1 u hmem) huc.not_gt
  have hprovided : (replay (step time effect) s l).provided = true := by
    obtain ⟨k, k', rfl⟩ := List.append_of_mem hul
    obtain ⟨hk, -, hklast⟩ := List.pairwise_append.mp hl
    rw [replay_append, replay_cons]
    refine replay_keeps (I := fun a => State.provided a = true) ?_ fun d _ a ha => provided_apply ha
    exact provided_update (before_older hs hk fun d hd => hklast d hd u List.mem_cons_self) hisUpdate
  rw [replay_append, replay_cons]
  refine replay_keeps (I := State.Over) ?_ fun d _ a ha => over_step ha d
  unfold step
  rw [hcancel]
  exact over_cancel (before_older hs hl fun d hd => hlast d hd c List.mem_cons_self) hprovided

theorem late_over (hp : p.Over) :
    replay (step time effect) (step time effect e p) newer = replay (step time effect) p newer := by
  obtain ⟨plan, seats, rfl⟩ := hp
  rw [step_ended]

theorem step_cancel_current {r : Row} (he : effect e = .cancel) (hp : (State.current r).Before (time e)) :
    step time effect e (.current r) = .ended r.plan r.seats r.provided := by
  unfold step
  rw [he]
  exact apply_current hp

theorem step_cancel_other (he : effect e = .cancel) (hp : ∀ r, p ≠ .current r) :
    step time effect e p = p := by
  unfold step
  rw [he]
  cases p with
  | absent | ended => rfl
  | current r => exact absurd rfl (hp r)

theorem late_endsAnyway (he : effect e = .cancel) (hp : p.Before (time e))
    (hinc : Increasing time newer) (holder : ∀ d ∈ older, time d < time e)
    (hnewer : ∀ d ∈ newer, time e < time d) (h : EndsAnyway time effect (older ++ newer) e) :
    replay (step time effect) (step time effect e p) newer = replay (step time effect) p newer := by
  obtain ⟨c, hc, hcancel, hec, hbetween⟩ := h
  cases p with
  | absent | ended => rw [step_cancel_other he (by simp)]
  | current r =>
    rw [step_cancel_current he hp]
    refine replay_merge (B := State.Before) (R := fun a b => a.Keeps r ∧ b.Keeps r)
      (S := fun d => effect d = .cancel) before_step hinc (fun _ _ => trivial)
      (before_newer hp hnewer) ⟨⟨rfl, rfl, rfl⟩, ⟨rfl, rfl, rfl⟩⟩ ?_ ?_
      (mem_newer holder hc hec) hcancel
    · rintro d - hd a b ha hb ⟨hka, hkb⟩
      unfold step
      rw [hd, keeps_cancel hka ha, keeps_cancel hkb hb]
    · rintro d hd - hdc a b - - ⟨hka, hkb⟩
      have hno : (effect d).isUpdate = false := Bool.eq_false_of_not_eq_true fun hisUpdate =>
        hbetween d (List.mem_append_right _ hd) hisUpdate ⟨hnewer d hd, hdc⟩
      exact ⟨keeps_apply hka hno, keeps_apply hkb hno⟩

/-- Without an older update nothing is the provider's, and after an older cancellation nothing is
current. -/
theorem late_unheard (he : effect e = .cancel) (hs : ∀ t, s.Before t) (hfree : s.provided = false)
    (hinc : Increasing time (older ++ newer)) (holder : ∀ d ∈ older, time d < time e)
    (hnewer : ∀ d ∈ newer, time e < time d) (h : Unheard time effect s (older ++ newer) e) :
    replay (step time effect) (step time effect e (replay (step time effect) s older)) newer =
      replay (step time effect) (replay (step time effect) s older) newer := by
  obtain ⟨hnone, hwhy⟩ := h
  obtain ⟨hincOlder, hincNewer, -⟩ := List.pairwise_append.mp hinc
  have hno : ∀ d ∈ older, (effect d).isUpdate = false := fun d hd =>
    Bool.eq_false_of_not_eq_true fun hisUpdate =>
      hnone d (List.mem_append_left _ hd) hisUpdate (holder d hd)
  have hunprovided : (replay (step time effect) s older).provided = false :=
    replay_keeps (I := fun a => State.provided a = false) hfree fun d hd a ha =>
      (provided_apply_iff (hno d hd)).trans ha
  have hbefore : (replay (step time effect) s older).Before (time e) :=
    before_older hs hincOlder holder
  cases hp : replay (step time effect) s older with
  | absent | ended => rw [step_cancel_other he (by simp)]
  | current r =>
    rw [hp] at hunprovided hbefore
    rcases hwhy with rfl | ⟨c, hc, hcancel, hce⟩ | ⟨u, hu, hisUpdate, heu⟩
    · have habsent : (replay (step time effect) .absent older).isCurrent = false :=
        replay_keeps (I := fun a => State.isCurrent a = false) rfl fun d hd a ha =>
          isCurrent_apply ha (hno d hd)
      rw [hp] at habsent
      cases habsent
    · obtain ⟨l, l', rfl⟩ := List.append_of_mem (mem_older hnewer hc hce)
      obtain ⟨hl, -, hlast⟩ := List.pairwise_append.mp hincOlder
      have hended : (replay (step time effect) s (l ++ c :: l')).isCurrent = false := by
        rw [replay_append, replay_cons]
        refine replay_keeps (I := fun a => State.isCurrent a = false) ?_ fun d hd a ha =>
          isCurrent_apply ha (hno d (List.mem_append_right _ (List.mem_cons_of_mem _ hd)))
        unfold step
        rw [hcancel]
        exact isCurrent_cancel (before_older hs hl fun d hd => hlast d hd c List.mem_cons_self)
      rw [hp] at hended
      cases hended
    · rw [step_cancel_current he hbefore]
      refine replay_merge (B := State.Before)
        (R := fun a b => a.provided = false ∧ b.provided = false)
        (S := fun d => (effect d).isUpdate = true) before_step hincNewer (fun _ _ => trivial)
        (before_newer hbefore hnewer) ⟨hunprovided, hunprovided⟩ ?_ ?_ (mem_newer holder hu heu)
        hisUpdate
      · rintro d - hd a b ha hb ⟨hfa, hfb⟩
        exact step_update a b hd ha hb (open_of_unprovided hfa) (open_of_unprovided hfb)
      · rintro d - hd - a b - - ⟨hfa, hfb⟩
        have hkept := Bool.eq_false_of_not_eq_true hd
        exact ⟨(provided_apply_iff hkept).trans hfa, (provided_apply_iff hkept).trans hfb⟩

/-- **Late events**: one that may be late is made up for by the newer ones. -/
theorem replay_late (hs : ∀ t, s.Before t) (hfree : s.provided = false)
    (hinc : Increasing time (older ++ newer)) (holder : ∀ d ∈ older, time d < time e)
    (hnewer : ∀ d ∈ newer, time e < time d) (hlive : ∃ d ∈ newer, effect d ≠ .nothing)
    (h : MayBeLate time effect s (older ++ newer) e) :
    replay (step time effect) (step time effect e (replay (step time effect) s older)) newer =
      replay (step time effect) (replay (step time effect) s older) newer := by
  obtain ⟨hincOlder, hincNewer, -⟩ := List.pairwise_append.mp hinc
  have hp : (replay (step time effect) s older).Before (time e) := before_older hs hincOlder holder
  unfold MayBeLate at h
  cases he : effect e with
  | nothing =>
    have hsame : step time effect e (replay (step time effect) s older) =
        replay (step time effect) s older := by
      show State.apply (time e) (effect e) _ = _
      rw [he, apply_nothing]
    rw [hsame]
  | status st => exact late_status he hp hincNewer hnewer hlive
  | cancel =>
    rw [he] at h
    rcases h with h | h | h
    · exact late_endsAnyway he hp hincNewer holder hnewer h
    · exact late_over (over_of_closed hs hincOlder hnewer h)
    · exact late_unheard he hs hfree hinc holder hnewer h
  | update st plan seats =>
    rw [he] at h
    rcases h with h | h | h
    · exact late_overwritten (by rw [he]; rfl) hp hincNewer holder hnewer h
    · exact late_repeats he hp (holds_of_repeats hs hincOlder holder hnewer h) hincNewer hnewer hlive
    · exact late_over (over_of_closed hs hincOlder hnewer h)

/-- **Harmless events**: applied to the state of the events before, in whatever order they have come,
such an event leads to the state of all of them in order. -/
theorem step_insertOnce [DecidableEq ε] (hs : ∀ t, s.Before t) (hfree : s.provided = false)
    (hD : Increasing time D) (hinj : ∀ d ∈ D, time d = time e → d = e)
    (h : Harmless time effect s D e) :
    step time effect e (replay (step time effect) s D) =
      replay (step time effect) s (insertOnce time e D) := by
  refine absorbs.insertOnce hD hinj (fun older hinc holder => ?_) ?_
  · exact done_apply (before_older hs hinc holder)
  · rintro hnew older newer rfl holder hnewer
    by_cases hinert : ∀ d ∈ newer, effect d = .nothing
    · left
      intro d hd a
      unfold step
      rw [hinert d hd, apply_nothing]
    · right
      rcases h with h | h | h
      · exact absurd h hnew
      · exact absurd (fun d hd => h d (List.mem_append_right _ hd) (hnewer d hd)) hinert
      · exact replay_late hs hfree hD holder hnewer (live_of_newer hinert) h

end CalmBoard.Billing
