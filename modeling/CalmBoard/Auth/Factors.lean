import CalmBoard.Auth.Mfa

/-!
# CalmBoard.Auth.Factors — what a call knows about the factor

* `Fresh`, `check_some`: what `verify` has found when it accepts a code.
* `Facts`, `Knows`: the committed factor as a call that has locked it knows it, with the writes the
  call has still to commit.
* `Knows.next`, `Knows.other`: the statements of a call, and the commits of the others, keep that.
-/

namespace CalmBoard.Mfa

open Requests

variable {crypto : Crypto} {s : Store} {x : Submission} {f : Factor} {evidence : Evidence}
  {p p' q : Point} {ks ks' : List Lock} {ws ws' : List Write}

/-- A step after the last one, or a code that has not been used. -/
def Fresh (s : Store) (f : Factor) : Evidence → Prop
  | .totp step => ∀ last, f.lastUsedStep = some last → last < step
  | .recovery h => ∃ c, s.codes.find? h = some c ∧ c.usedAt = none

/-- The evidence is about the code that has been supplied. -/
def Evidence.Of (crypto : Crypto) (x : Submission) : Evidence → Prop
  | .totp _ => isTotpCode x.code = true
  | .recovery h => isRecoveryCode x.code = true ∧ h = recoveryCodeHash crypto.sha256 x.code

theorem check_some (h : check crypto x f s = .ok (some evidence)) :
    Fresh s f evidence ∧ evidence.Of crypto x := by
  unfold check at h
  split at h
  · next htotp =>
    split at h
    · cases h
    · cases h
    · next step _ =>
      split at h
      · cases h
      · next hlater =>
        split at h
        · cases h
          refine ⟨fun last hlast => ?_, htotp⟩
          simpa [hlast] using hlater
        · cases h
  · split at h
    · next hrecovery =>
      dsimp only at h
      split at h
      · next hunused =>
        cases h
        obtain ⟨c, hc, hnone⟩ := (Option.any_eq_true _ _).mp hunused
        exact ⟨⟨c, hc, by simpa using hnone⟩, hrecovery, rfl⟩
      · cases h
    · cases h

/-- `beginSetup` overwrites no enabled factor, and `disable` removes none but the one whose code has
been accepted. -/
def unharmed (s : Store) (_ : Unit) : Point → Prop
  | .upsert _ => ∀ f ∈ s.factor, f.status = .pending
  | .removeFactor f => ∀ g ∈ s.factor, g.status = .enabled → g.envelope = f.envelope
  | _ => True

instance (s : Store) (a : Unit) : ∀ p : Point, Decidable (unharmed s a p)
  | .upsert _ => inferInstanceAs (Decidable (∀ f ∈ s.factor, f.status = .pending))
  | .removeFactor f =>
    inferInstanceAs (Decidable (∀ g ∈ s.factor, g.status = .enabled → g.envelope = f.envelope))
  | .selectEnabled _ | .clearCodes _ | .commitSetup | .lockPending .. | .matching ..
  | .replaceCodes .. | .insertCodes .. | .commitEnable _ | .lockEnabled .. | .verifying ..
  | .accepted .. | .removeCodes _ | .commitDisable _ => .isTrue trivial

def Holds (s : Store) (ks : List Lock) (status : MfaStatus) (f : Factor) : Prop :=
  Lock.factor ∈ ks ∧ s.factor = some f ∧ f.status = status

/-- What a call knows at each of its points. -/
def Facts (crypto : Crypto) (s : Store) : Point → List Lock → List Write → Prop
  | .selectEnabled _, _, ws | .clearCodes _, _, ws | .lockPending .., _, ws | .lockEnabled .., _, ws
  | .removeCodes _, _, ws => ws = []
  | .upsert _, _, ws | .removeFactor _, _, ws => ∃ hs, ws = [.deleteCodes hs]
  | .commitSetup, ks, ws =>
    Lock.factor ∈ ks ∧ (∀ f ∈ s.factor, f.status = .pending) ∧
      ∃ (setup : Setup) (hs : _), ws = [.deleteCodes hs, .putFactor setup.factor]
  | .matching _ _ f, ks, ws => Holds s ks .pending f ∧ ws = []
  | .replaceCodes x _ step, ks, ws =>
    ∃ f, Holds s ks .pending f ∧ ws = [.putFactor (f.enable x step)]
  | .insertCodes x _ step, ks, ws =>
    ∃ f hs, Holds s ks .pending f ∧ ws = [.putFactor (f.enable x step), .deleteCodes hs]
  | .commitEnable step, ks, ws =>
    ∃ f x hs rows, Holds s ks .pending f ∧
      ws = [.putFactor (f.enable x step), .deleteCodes hs, .insertCodes rows]
  | .verifying _ _ f, ks, ws => Holds s ks .enabled f ∧ ws = []
  | .accepted x _ f evidence, ks, ws =>
    Holds s ks .enabled f ∧ Fresh s f evidence ∧ evidence.Of crypto x ∧ ws = [evidence.write x f]
  | .commitDisable f, ks, ws =>
    ∃ hs, ws = [.deleteCodes hs] ∨ (Lock.factor ∈ ks ∧
      (∀ g ∈ s.factor, g.status = .enabled → g.envelope = f.envelope) ∧
      ws = [.deleteCodes hs, .deleteFactor])

structure Knows (crypto : Crypto) (s : Store) (p : Point) (ks : List Lock) (ws : List Write) : Prop
    where
  covered : Covered Write.locks ks ws
  facts : Facts crypto s p ks ws

theorem Holds.append {status : MfaStatus} (h : Holds s ks status f) (ks' : List Lock) :
    Holds s (ks ++ ks') status f := ⟨List.mem_append_left ks' h.1, h.2⟩

theorem Knows.first (call : Call) : Knows crypto s call.first [] [] := by
  refine ⟨covered_nil _ _, ?_⟩
  cases call <;> rfl

theorem Knows.next (h : Knows crypto s p ks ws) (hg : unharmed s () p)
    (hnext : Nexts crypto ((script crypto).view s ws) p p' ks' ws') :
    Knows crypto s p' (ks ++ ks') (ws ++ ws') := by
  refine ⟨h.covered.append hnext.covered, ?_⟩
  have hfacts := h.facts
  cases hnext with
  | clearCodes setup =>
    cases hfacts
    exact ⟨_, rfl⟩
  | upsert setup =>
    obtain ⟨hs, rfl⟩ := hfacts
    exact ⟨List.mem_append_right ks (List.mem_singleton_self _), hg, setup, hs, rfl⟩
  | lockPending hf hpending =>
    cases hfacts
    exact ⟨⟨List.mem_append_right ks (List.mem_singleton_self _), hf, hpending⟩, rfl⟩
  | matching hmatch hstep =>
    obtain ⟨hholds, rfl⟩ := hfacts
    exact ⟨_, hholds.append _, rfl⟩
  | replaceCodes x recoveryCodes step =>
    obtain ⟨f, hholds, rfl⟩ := hfacts
    exact ⟨f, _, hholds.append _, rfl⟩
  | insertCodes hrows =>
    obtain ⟨f, hs, hholds, rfl⟩ := hfacts
    exact ⟨f, _, hs, _, hholds.append _, rfl⟩
  | lockEnabled hf henabled =>
    cases hfacts
    exact ⟨⟨List.mem_append_right ks (List.mem_singleton_self _), hf, henabled⟩, rfl⟩
  | verifying hcheck =>
    obtain ⟨hholds, rfl⟩ := hfacts
    obtain ⟨hfresh, hof⟩ := check_some hcheck
    exact ⟨hholds.append _, hfresh, hof, rfl⟩
  | removeCodes f =>
    cases hfacts
    exact ⟨_, rfl⟩
  | removeFactor hg' =>
    obtain ⟨hs, rfl⟩ := hfacts
    exact ⟨hs, Or.inr ⟨List.mem_append_right ks (List.mem_singleton_self _), hg, rfl⟩⟩
  | removeNothing f hnone =>
    obtain ⟨hs, rfl⟩ := hfacts
    exact ⟨hs, Or.inl rfl⟩

theorem Knows.commit (s' : Store) (h : Committing s p p') : Knows crypto s' p' [] [] := by
  refine ⟨covered_nil _ _, ?_⟩
  cases h <;> rfl

theorem Knows.other (h : Knows crypto s q ks' ws') (hws : Covered Write.locks ks ws)
    (hapart : (script crypto).Apart ks ks') : Knows crypto ((script crypto).view s ws) q ks' ws' := by
  refine ⟨h.covered, ?_⟩
  have hself : ∀ k, (script crypto).conflict k k = true := fun k => decide_eq_true rfl
  have hfactor : Lock.factor ∈ ks' → ((script crypto).view s ws).factor = s.factor := fun hk =>
    factor_view hws (fun hk' => hapart.not_mem (hself _) hk' hk) s
  have hholds : ∀ {status f}, Holds s ks' status f →
      Holds ((script crypto).view s ws) ks' status f := fun hh =>
    ⟨hh.1, (hfactor hh.1).trans hh.2.1, hh.2.2⟩
  have hfacts := h.facts
  cases q with
  | selectEnabled | clearCodes | upsert | lockPending | lockEnabled | removeCodes | removeFactor =>
    exact hfacts
  | commitSetup =>
    obtain ⟨hk, hpending, hws'⟩ := hfacts
    refine ⟨hk, ?_, hws'⟩
    rw [hfactor hk]
    exact hpending
  | matching x recoveryCodes f => exact ⟨hholds hfacts.1, hfacts.2⟩
  | replaceCodes x recoveryCodes step =>
    obtain ⟨f, hh, hws'⟩ := hfacts
    exact ⟨f, hholds hh, hws'⟩
  | insertCodes x recoveryCodes step =>
    obtain ⟨f, hs, hh, hws'⟩ := hfacts
    exact ⟨f, hs, hholds hh, hws'⟩
  | commitEnable step =>
    obtain ⟨f, x, hs, rows, hh, hws'⟩ := hfacts
    exact ⟨f, x, hs, rows, hholds hh, hws'⟩
  | verifying x disables f => exact ⟨hholds hfacts.1, hfacts.2⟩
  | accepted x disables f evidence =>
    obtain ⟨hh, hfresh, hof, rfl⟩ := hfacts
    refine ⟨hholds hh, ?_, hof, rfl⟩
    cases evidence with
    | totp step => exact hfresh
    | recovery k =>
      have hk : Lock.code k ∈ ks' := h.covered _ (List.mem_singleton_self _) _
        (List.mem_singleton_self _)
      obtain ⟨c, hc, hunused⟩ := hfresh
      refine ⟨c, ?_, hunused⟩
      rw [code_view hws (fun hk' => hapart.not_mem (hself _) hk' hk) s]
      exact hc
  | commitDisable f =>
    obtain ⟨hs, hws' | ⟨hk, hsame, hws'⟩⟩ := hfacts
    · exact ⟨hs, Or.inl hws'⟩
    · refine ⟨hs, Or.inr ⟨hk, ?_, hws'⟩⟩
      rw [hfactor hk]
      exact hsame

end CalmBoard.Mfa
