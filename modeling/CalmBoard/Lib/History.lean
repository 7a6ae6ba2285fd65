import Mathlib.Data.List.Induction

/-!
# CalmBoard.Lib.History — what the calls of a run record

A call takes a state to its next state and leaves an entry.  The entries of a run are its history.

* `trace`, `trace_rule`: an invariant of the history and the state holds wherever a call is made.
* `pending`: an entry of one kind that no entry of another kind has followed.
* `Blocks`, `blocks_iff`: after an entry of one kind, none of a second kind before one of a third.
-/

namespace CalmBoard.History

variable {σ α ε : Type*} (play : σ → α → ε × σ)

/-- The entries that the calls of a run leave. -/
def trace : σ → List α → List ε
  | _, [] => []
  | s, a :: calls => (play s a).1 :: trace (play s a).2 calls

/-- **Invariant rule**: every entry is made in a state of which, with the entries before it, the
invariant holds. -/
theorem trace_rule {I : List ε → σ → Prop}
    (hstep : ∀ past s a, I past s → I (past ++ [(play s a).1]) (play s a).2) :
    ∀ (calls : List α) (s : σ) (past : List ε), I past s →
      ∀ pre e post, trace play s calls = pre ++ e :: post →
        ∃ s' a, a ∈ calls ∧ I (past ++ pre) s' ∧ e = (play s' a).1
  | [], _, _, _, pre, e, post, h => by
    cases pre with
    | nil => cases h
    | cons _ _ => cases h
  | a :: calls, s, past, hI, pre, e, post, h => by
    cases pre with
    | nil =>
      rw [trace, List.nil_append] at h
      obtain ⟨rfl, -⟩ := List.cons.inj h
      exact ⟨s, a, List.mem_cons_self, by rwa [List.append_nil], rfl⟩
    | cons e₀ pre =>
      rw [trace, List.cons_append] at h
      obtain ⟨rfl, htail⟩ := List.cons.inj h
      obtain ⟨s', a', ha', hI', he⟩ :=
        trace_rule hstep calls _ _ (hstep past s a hI) pre e post htail
      refine ⟨s', a', List.mem_cons_of_mem _ ha', ?_, he⟩
      rwa [List.append_assoc, List.singleton_append] at hI'

/-! ### Entries that have not been answered -/

variable (set clear : ε → Bool)

/-- The last entry of kind `set` has not been followed by one of kind `clear`. -/
def pending (entries : List ε) : Bool := entries.foldl (fun p e => set e || (p && !clear e)) false

variable {set clear}

@[simp] theorem pending_nil : pending set clear [] = false := rfl

theorem pending_concat (entries : List ε) (e : ε) :
    pending set clear (entries ++ [e]) = (set e || (pending set clear entries && !clear e)) := by
  simp [pending, List.foldl_append]

theorem pending_iff {entries : List ε} :
    pending set clear entries = true ↔
      ∃ pre a mid, entries = pre ++ a :: mid ∧ set a = true ∧ ∀ c ∈ mid, clear c = false := by
  induction entries using List.reverseRecOn with
  | nil => simp
  | append_singleton entries e ih =>
    rw [pending_concat, Bool.or_eq_true, Bool.and_eq_true, ih]
    constructor
    · rintro (he | ⟨⟨pre, a, mid, rfl, ha, hmid⟩, he⟩)
      · exact ⟨entries, e, [], rfl, he, fun c hc => by cases hc⟩
      · refine ⟨pre, a, mid ++ [e], by simp, ha, fun c hc => ?_⟩
        rcases List.mem_append.mp hc with hc | hc
        · exact hmid c hc
        · rw [List.mem_singleton.mp hc]
          simpa using he
    · rintro ⟨pre, a, mid, h, ha, hmid⟩
      rcases List.eq_nil_or_concat mid with rfl | ⟨mid, c, rfl⟩
      · obtain ⟨-, he⟩ := List.append_inj' h rfl
        rw [List.cons.inj he |>.1]
        exact Or.inl ha
      · rw [List.concat_eq_append] at h hmid
        have h' : entries ++ [e] = (pre ++ a :: mid) ++ [c] := by
          rw [h, List.append_assoc]
          rfl
        obtain ⟨rfl, he⟩ := List.append_inj' h' rfl
        rw [List.cons.inj he |>.1]
        refine Or.inr ⟨⟨pre, a, mid, rfl, ha, fun c' hc' => ?_⟩, ?_⟩
        · exact hmid c' (List.mem_append_left _ hc')
        · simpa using hmid c (List.mem_append_right _ (List.mem_singleton_self c))

/-- After an entry of kind `set`, one of kind `bad` comes only with or after one of kind `clear`. -/
def Blocks (set clear bad : ε → Bool) (entries : List ε) : Prop :=
  ∀ pre a mid b post, entries = pre ++ a :: (mid ++ b :: post) → set a = true → bad b = true →
    ∃ c ∈ mid ++ [b], clear c = true

theorem blocks_iff {bad : ε → Bool} {entries : List ε} :
    Blocks set clear bad entries ↔
      ∀ pre b post, entries = pre ++ b :: post → pending set clear pre = true → bad b = true →
        clear b = true := by
  constructor
  · intro h pre b post hentries hpending hbad
    obtain ⟨pre, a, mid, rfl, ha, hmid⟩ := pending_iff.mp hpending
    rw [List.append_assoc, List.cons_append] at hentries
    obtain ⟨c, hc, hclear⟩ := h pre a mid b post hentries ha hbad
    rcases List.mem_append.mp hc with hc | hc
    · rw [hmid c hc] at hclear
      cases hclear
    · rwa [← List.mem_singleton.mp hc]
  · intro h pre a mid b post hentries ha hbad
    by_cases hmid : ∀ c ∈ mid, clear c = false
    · have hpending : pending set clear (pre ++ a :: mid) = true :=
        pending_iff.mpr ⟨pre, a, mid, rfl, ha, hmid⟩
      refine ⟨b, by simp, h (pre ++ a :: mid) b post ?_ hpending hbad⟩
      rw [hentries, List.append_assoc]
      rfl
    · push Not at hmid
      obtain ⟨c, hc, hclear⟩ := hmid
      exact ⟨c, List.mem_append_left _ hc, by simpa using hclear⟩

end CalmBoard.History
