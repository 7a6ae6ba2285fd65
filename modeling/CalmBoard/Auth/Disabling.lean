import CalmBoard.Auth.Factors

/-!
# CalmBoard.Auth.Disabling — an enabled factor goes only with its code

* `EnabledWith`: the factor with a secret is enabled.
* `AcceptedAt`: the statement of `disable` that has accepted a code.
* `enabled_until_disabled`: in runs whose steps are `unharmed`, an enabled factor is only removed by a
  `disable` that has accepted a code of it.
* `factor_lost`: `beginSetup` overwrites a factor that has been enabled since its check, `disable`
  removes a factor that has been set up since its `verify`.
-/

namespace CalmBoard.Mfa

open Requests Sessions

/-- The factor with this secret is enabled. -/
def EnabledWith (s : Store) (envelope : MfaEnvelope) : Prop :=
  ∃ f ∈ s.factor, f.status = .enabled ∧ f.envelope = envelope

instance (s : Store) (envelope : MfaEnvelope) : Decidable (EnabledWith s envelope) :=
  inferInstanceAs (Decidable (∃ f ∈ s.factor, f.status = .enabled ∧ f.envelope = envelope))

abbrev MfaEvent := Event Call (Action Unit)
abbrev MfaWorld := World Store (Local Point Lock Write Result)

def after (crypto : Crypto) (s : Store) (events : List MfaEvent) : MfaWorld :=
  run (script crypto).program (World.closed s) events

/-- The next event is a statement of a `disable`, whose `verify` accepted a code of `f`; `f` was the
factor then, and enabled. -/
def AcceptedAt (crypto : Crypto) (s : Store) (before : List MfaEvent) (i : ℕ) (x : Submission)
    (f : Factor) : Prop :=
  (after crypto s before).store.factor = some f ∧ f.status = .enabled ∧
    (∃ ks, (after crypto s before).sessions[i]? = some (.running (.verifying x true f) ks [])) ∧
    ∃ evidence, check crypto x f (after crypto s before).store = .ok (some evidence)

/-- The event is the end of a `disable`, which has accepted a code of `f` earlier. -/
def DisabledBy (crypto : Crypto) (s : Store) (events : List MfaEvent) (e : MfaEvent) (f : Factor) :
    Prop :=
  ∃ i ks ws, e = .act i (.statement ()) ∧
    (after crypto s events).sessions[i]? = some (.running (.commitDisable f) ks ws) ∧
    ∃ before rest x, events = before ++ .act i (.statement ()) :: rest ∧ AcceptedAt crypto s before i x f

variable {crypto : Crypto} {s s' : Store} {envelope : MfaEnvelope}

theorem mfa_laws (crypto : Crypto) :
    Laws (script crypto) unharmed (fun _ => True) (Knows crypto) (fun _ _ => True) where
  first _ call _ := Knows.first call
  next _ _ _ _ _ _ _ _ _ hL hg h := hL.next hg (nexts_of_next h)
  commit _ _ _ _ _ _ _ _ _ h := ⟨trivial, Knows.commit _ (committing_of_commit h)⟩
  finish _ _ _ _ _ _ _ _ _ _ := ⟨trivial, trivial⟩
  fail _ _ _ _ _ _ _ _ _ _ := trivial
  other _ _ _ _ _ _ _ _ _ hL _ hq hapart := hq.other hL.covered hapart
  kept _ _ _ _ _ _ _ _ _ _ := trivial

/-- The points of a `disable` that has accepted a code of `f`. -/
def Disables (f : Factor) : Local Point Lock Write Result → Prop
  | .running p _ _ =>
    (∃ x evidence, p = .accepted x true f evidence) ∨ p = .removeCodes f ∨ p = .removeFactor f ∨
      p = .commitDisable f
  | _ => False

theorem accepts_of_disables {a : Action Unit} {l l' : Local Point Lock Write Result} {f : Factor}
    (hL : Local.Knows (Knows crypto) (fun _ _ => True) s l)
    (hmove : (script crypto).program.move a s l = some (s', l')) (hno : ¬ Disables f l)
    (hyes : Disables f l') :
    a = .statement () ∧ ∃ x ks evidence, l = .running (.verifying x true f) ks [] ∧
      s.factor = some f ∧ f.status = .enabled ∧ check crypto x f s = .ok (some evidence) := by
  cases moves_of_move hmove with
  | crash => cases hyes
  | finish => cases hyes
  | fail => cases hyes
  | commit ks h =>
    cases committing_of_commit h with
    | selectEnabled => rcases hyes with ⟨x, evidence, h'⟩ | h' | h' | h' <;> cases h'
    | accepted x g evidence =>
      rcases hyes with ⟨x', evidence', h'⟩ | h' | h' | h' <;> cases h'
      exact absurd (Or.inl ⟨x, evidence, rfl⟩) hno
  | next ks h =>
    have hfacts := hL.facts
    cases nexts_of_next h with
    | clearCodes | upsert | lockPending | matching | replaceCodes | insertCodes | lockEnabled =>
      rcases hyes with ⟨x, evidence, h'⟩ | h' | h' | h' <;> cases h'
    | verifying hcheck =>
      rcases hyes with ⟨x, evidence, h'⟩ | h' | h' | h' <;> cases h'
      obtain ⟨hholds, rfl⟩ := hfacts
      exact ⟨rfl, _, _, _, rfl, hholds.2.1, hholds.2.2, hcheck⟩
    | removeCodes g =>
      rcases hyes with ⟨x, evidence, h'⟩ | h' | h' | h' <;> cases h'
      exact absurd (Or.inr (Or.inl rfl)) hno
    | removeFactor | removeNothing =>
      rcases hyes with ⟨x, evidence, h'⟩ | h' | h' | h' <;> cases h'
      exact absurd (Or.inr (Or.inr (Or.inl rfl))) hno

theorem not_disables_first (f : Factor) (call : Call) :
    ¬ Disables f ((script crypto).program.start call) := by
  intro h
  cases call <;> rcases h with ⟨x, evidence, h'⟩ | h' | h' | h' <;> cases h'

/-- Only the end of a `disable` removes an enabled factor. -/
theorem disables_of_removed {a : Action Unit} {l l' : Local Point Lock Write Result}
    (hL : Local.Knows (Knows crypto) (fun _ _ => True) s l)
    (hmove : (script crypto).program.move a s l = some (s', l')) (hon : EnabledWith s envelope)
    (hoff : ¬ EnabledWith s' envelope) :
    a = .statement () ∧ ∃ f ks ws, l = .running (.commitDisable f) ks ws ∧ f.envelope = envelope := by
  obtain ⟨g, hg, henabled, henvelope⟩ := hon
  -- a factor that keeps its status and its secret stays enabled
  have hkeep : ∀ f, s'.factor = some f → f.status = .enabled → f.envelope = g.envelope → False :=
    fun f hf hstatus henv => hoff ⟨f, hf, hstatus, henv.trans henvelope⟩
  have hsame : s'.factor = s.factor → False := fun h => hkeep g (h.trans hg) henabled rfl
  have hpending : ∀ {ks f}, Holds s ks .pending f → False := by
    rintro ks f ⟨-, hf, hstatus⟩
    have hfg : some f = some g := hf.symm.trans hg
    cases hfg
    rw [henabled] at hstatus
    cases hstatus
  cases moves_of_move hmove with
  | crash => exact (hsame rfl).elim
  | next => exact (hsame rfl).elim
  | fail => exact (hsame rfl).elim
  | commit ks h =>
    have hfacts := hL.facts
    cases committing_of_commit h with
    | selectEnabled setup =>
      cases hfacts
      exact (hsame rfl).elim
    | accepted x f evidence =>
      obtain ⟨⟨-, hf, hstatus⟩, -, -, rfl⟩ := hfacts
      have hfg : some f = some g := hf.symm.trans hg
      cases hfg
      cases evidence with
      | totp step => exact (hkeep _ rfl hstatus rfl).elim
      | recovery h => exact (hsame rfl).elim
  | finish ks h =>
    have hfacts := hL.facts
    cases finishing_of_finish h with
    | alreadyEnabled setup =>
      cases hfacts
      exact (hsame rfl).elim
    | setUp =>
      obtain ⟨-, hall, -⟩ := hfacts
      rw [hall g hg] at henabled
      cases henabled
    | enabled step =>
      obtain ⟨f, x, hs, rows, hholds, rfl⟩ := hfacts
      exact (hpending hholds).elim
    | accepted x f evidence =>
      obtain ⟨⟨-, hf, hstatus⟩, -, -, rfl⟩ := hfacts
      have hfg : some f = some g := hf.symm.trans hg
      cases hfg
      cases evidence with
      | totp step => exact (hkeep _ rfl hstatus rfl).elim
      | recovery h => exact (hsame rfl).elim
    | disabled f =>
      obtain ⟨hs, rfl | ⟨-, hall, rfl⟩⟩ := hfacts
      · exact (hsame rfl).elim
      · exact ⟨rfl, f, _, _, rfl, (hall g hg henabled).symm.trans henvelope⟩

/-- **Disabling**: in every run whose steps are unharmed, an enabled factor leaves its status only
through a `disable` that has accepted a code of it while it was enabled. -/
theorem enabled_until_disabled (crypto : Crypto) (s : Store) (events : List MfaEvent) (e : MfaEvent)
    (envelope : MfaEnvelope)
    (hg : Runs.Guarded (step (script crypto).program) (World.Meets (atStatement unharmed))
      (World.closed s) events)
    (hon : EnabledWith (after crypto s events).store envelope)
    (hoff : ¬ EnabledWith (after crypto s (events ++ [e])).store envelope) :
    ∃ f, DisabledBy crypto s events e f ∧ f.envelope = envelope := by
  have hsound : ∀ es, Runs.Guarded (step (script crypto).program) (World.Meets (atStatement unharmed))
      (World.closed s) es → World.Holds (script crypto).program (fun _ => True)
        (Local.Knows (Knows crypto) (fun _ _ => True)) (after crypto s es) := fun es hes =>
    run_rules (rules_of_laws (mfa_laws crypto)) es (World.holds_closed trivial) hes
  unfold after at hoff
  rw [run_concat] at hoff
  unfold Runs.exec at hoff
  cases hok : step (script crypto).program e (run (script crypto).program (World.closed s) events) with
  | error u =>
    rw [hok] at hoff
    exact absurd hon hoff
  | ok w' =>
    rw [hok] at hoff
    cases e with
    | enter call =>
      cases hok
      exact absurd hon hoff
    | act i a =>
      obtain ⟨l, l', s', hl, hmove, -, rfl⟩ := step_act hok
      obtain ⟨rfl, f, ks, ws, rfl, henvelope⟩ :=
        disables_of_removed ((hsound events hg).sessions i l hl) hmove hon hoff
      refine ⟨f, ⟨i, ks, ws, rfl, hl, ?_⟩, henvelope⟩
      obtain ⟨before, a, rest, l₀, l₁, s₁, hevents, hl₀, hno, hyes, hmove₀, -⟩ :=
        moment_of (Q := Disables f) (not_disables_first f) (fun m hm => by cases hm) events hl
          (Or.inr (Or.inr (Or.inr rfl)))
      have hbefore := hsound before (Runs.guarded_of_append (hevents ▸ hg))
      obtain ⟨rfl, x, ks₀, evidence, rfl, hfactor, henabled, hcheck⟩ :=
        accepts_of_disables (hbefore.sessions i l₀ hl₀) hmove₀ hno hyes
      exact ⟨before, rest, x, hevents, hfactor, henabled, ⟨ks₀, hl₀⟩, evidence, hcheck⟩

/-! The code is 287082 at every step but the first. -/

def setupOf (encryptedTotpSecret : String) : Setup :=
  { envelope := { encryptedTotpSecret, initializationVector := "aXY=", authenticationTag := "dGFn"
                  encryptionKeyVersion := 1 }
    now := 0 }

def plainCrypto : Crypto :=
  { hmacSha1 := sampleHmac, sha256 := id, decryptSecret := fun _ => some sampleSecret }

def submit (timestamp : ℤ) : Submission := { code := "287082", timestamp }

/-- These statements of a session. -/
def turns (i n : ℕ) : List MfaEvent := List.replicate n (.act i (.statement ()))

/-- A setup, a second one up to its check, `enable`, and the second setup up to its commit. -/
def overwriteEvents : List MfaEvent :=
  .enter (.beginSetup (setupOf "b25l")) :: turns 0 4 ++
    .enter (.beginSetup (setupOf "dHdv")) :: turns 1 1 ++
      .enter (.enable (submit 59000) ["r"]) :: turns 2 5 ++ turns 1 2

/-- A `disable` up to its `verify`, a second one, a new setup with `enable`, and the rest of the first
up to its commit. -/
def removeEvents : List MfaEvent :=
  .enter (.beginSetup (setupOf "b25l")) :: turns 0 4 ++
    .enter (.enable (submit 59000) ["r"]) :: turns 1 5 ++
      .enter (.disable (submit 90000)) :: turns 2 3 ++
        .enter (.disable (submit 120000)) :: turns 3 6 ++
          .enter (.beginSetup (setupOf "dHdv")) :: turns 4 4 ++
            .enter (.enable (submit 120000) ["r"]) :: turns 5 5 ++ turns 2 2

/-- A `beginSetup` overwrites an enabled factor, and a `disable` removes another one than it has
checked. -/
theorem factor_lost :
    (EnabledWith (after plainCrypto {} overwriteEvents).store (setupOf "b25l").envelope ∧
      ¬ EnabledWith (after plainCrypto {} (overwriteEvents ++ turns 1 1)).store
        (setupOf "b25l").envelope ∧
      ∀ f, ¬ DisabledBy plainCrypto {} overwriteEvents (.act 1 (.statement ())) f) ∧
    EnabledWith (after plainCrypto {} removeEvents).store (setupOf "dHdv").envelope ∧
      ¬ EnabledWith (after plainCrypto {} (removeEvents ++ turns 2 1)).store
        (setupOf "dHdv").envelope ∧
      ∀ f, DisabledBy plainCrypto {} removeEvents (.act 2 (.statement ())) f →
        f.envelope ≠ (setupOf "dHdv").envelope := by
  refine ⟨⟨by decide, by decide, ?_⟩, by decide, by decide, ?_⟩
  · rintro f ⟨i, ks, ws, he, hl, -⟩
    cases he
    have hsession : (after plainCrypto {} overwriteEvents).sessions[1]? =
        some (.running .commitSetup [.code "R", .factor]
          [.deleteCodes ["R"], .putFactor (setupOf "dHdv").factor]) := by
      decide
    rw [hsession] at hl
    cases hl
  · rintro f ⟨i, ks, ws, he, hl, -⟩
    cases he
    have hsession : (after plainCrypto {} removeEvents).sessions[2]? =
        some (.running (.commitDisable ((setupOf "b25l").factor.enable (submit 59000) 1))
          [.code "R", .factor] [.deleteCodes ["R"], .deleteFactor]) := by
      decide
    rw [hsession] at hl
    cases hl
    decide

/-- A setup, `enable`, and a `disable` with a later code up to its commit. -/
def disableEvents : List MfaEvent :=
  .enter (.beginSetup (setupOf "b25l")) :: turns 0 4 ++
    .enter (.enable (submit 59000) ["r"]) :: turns 1 5 ++
      .enter (.disable (submit 90000)) :: turns 2 5

theorem enabled_until_disabled_sample :
    ∃ f, DisabledBy plainCrypto {} disableEvents (.act 2 (.statement ())) f ∧
      f.envelope = (setupOf "b25l").envelope :=
  enabled_until_disabled plainCrypto {} disableEvents (.act 2 (.statement ()))
    (setupOf "b25l").envelope (by decide) (by decide) (by decide)

end CalmBoard.Mfa
