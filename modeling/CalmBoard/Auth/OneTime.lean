import CalmBoard.Auth.Factors

/-!
# CalmBoard.Auth.OneTime — one-time codes are accepted once

Only `enable` and `verify` are called.

* `Brought`: what an accepted code has left in the store.
* `code_commits`: the two ways a call can commit.
* `codes_once`: steps increase, recovery codes are used once, a rejected code changes nothing.
-/

namespace CalmBoard.Mfa

open Requests Sessions

inductive CodeCall where
  | enable (x : Submission) (recoveryCodes : List String)
  | verify (x : Submission)

def CodeCall.call : CodeCall → Call
  | .enable x recoveryCodes => .enable x recoveryCodes
  | .verify x => .verify x

def codeScript (crypto : Crypto) : Script CodeCall Store Unit Point Lock Write Result :=
  (script crypto).only CodeCall.call

/-- The points of `enable` and `verify`. -/
def Point.isCode : Point → Bool
  | .lockPending .. | .matching .. | .replaceCodes .. | .insertCodes .. | .commitEnable _ => true
  | .lockEnabled _ disables | .verifying _ disables _ | .accepted _ disables _ _ => !disables
  | _ => false

/-- The step that a call has accepted. -/
def Result.step : Result → Option ℤ
  | .enabled step | .accepted _ (.totp step) => some step
  | _ => none

def Result.isAccepted : Result → Bool
  | .enabled _ | .accepted .. => true
  | _ => false

/-- The enabled factor remembers this step, or a later one. -/
def Reached (s : Store) (step : ℤ) : Prop :=
  ∃ f, s.factor = some f ∧ f.status = .enabled ∧ ∃ last, f.lastUsedStep = some last ∧ step ≤ last

/-- The factor is enabled, and this code is used. -/
def UsedCode (s : Store) (h : String) : Prop :=
  (∃ f, s.factor = some f ∧ f.status = .enabled) ∧
    ∃ c, s.codes.find? h = some c ∧ c.usedAt.isSome = true

def Brought (crypto : Crypto) (s : Store) : Result → Prop
  | .enabled step => Reached s step
  | .accepted _ (.totp step) => Reached s step
  | .accepted x (.recovery h) => UsedCode s h ∧ h = recoveryCodeHash crypto.sha256 x.code
  | _ => True

/-- What a call of `enable` or `verify` knows. -/
def CodeKnows (crypto : Crypto) (s : Store) (p : Point) (ks : List Lock) (ws : List Write) : Prop :=
  Knows crypto s p ks ws ∧ p.isCode = true

variable {crypto : Crypto} {s : Store} {p p' : Point} {ks : List Lock} {ws : List Write} {r : Result}

/-- What `enable` commits, or `verify`. -/
theorem code_commits (hk : CodeKnows crypto s p ks ws)
    (hc : (codeScript crypto).Commits () p s ws) :
    (∃ f x step hs rows, p = .commitEnable step ∧ Holds s ks .pending f ∧
      ws = [.putFactor (f.enable x step), .deleteCodes hs, .insertCodes rows]) ∨
    ∃ x f evidence, p = .accepted x false f evidence ∧ Holds s ks .enabled f ∧
      Fresh s f evidence ∧ evidence.Of crypto x ∧ ws = [evidence.write x f] := by
  obtain ⟨hk, hp⟩ := hk
  have hfacts := hk.facts
  rcases hc with ⟨p', hcommit⟩ | ⟨r, hfinish⟩
  · cases committing_of_commit hcommit <;> cases hp
  · cases finishing_of_finish hfinish with
    | enabled step =>
      obtain ⟨f, x, hs, rows, hholds, hws⟩ := hfacts
      exact Or.inl ⟨f, x, step, hs, rows, rfl, hholds, hws⟩
    | accepted x f evidence =>
      obtain ⟨hholds, hfresh, hof, hws⟩ := hfacts
      exact Or.inr ⟨x, f, evidence, rfl, hholds, hfresh, hof, hws⟩
    | alreadyEnabled | setUp | disabled => cases hp

theorem used_useCode {h k : String} {now : ℤ} (hu : UsedCode s h) :
    UsedCode ((Write.useCode k now).apply s) h := by
  obtain ⟨hfactor, c, hc, hused⟩ := hu
  refine ⟨hfactor, ?_⟩
  simp only [Write.apply, Table.find?_update, hc, Option.map_some]
  refine ⟨_, rfl, ?_⟩
  split
  · rfl
  · exact hused

theorem brought_finish {x : Submission} {f : Factor} {evidence : Evidence}
    (hf : s.factor = some f ∧ f.status = .enabled) (hfresh : Fresh s f evidence)
    (hof : evidence.Of crypto x) :
    Brought crypto ((evidence.write x f).apply s) (.accepted x evidence) := by
  cases evidence with
  | totp step => exact ⟨_, rfl, hf.2, step, rfl, le_refl step⟩
  | recovery h =>
    obtain ⟨c, hc, hunused⟩ := hfresh
    refine ⟨⟨⟨f, hf⟩, c.use x.timestamp, ?_, rfl⟩, hof.2⟩
    have hkey := Table.key_of_find? hc
    simp [Evidence.write, Write.apply, hc, hkey]

theorem brought_kept {x : Submission} {f : Factor} {evidence : Evidence}
    (hf : s.factor = some f ∧ f.status = .enabled) (hfresh : Fresh s f evidence)
    (hr : Brought crypto s r) : Brought crypto ((evidence.write x f).apply s) r := by
  have hreached : ∀ step, Reached s step → Reached ((evidence.write x f).apply s) step := by
    rintro step ⟨g, hg, hstatus, last, hlast, hle⟩
    rw [hf.1, Option.some.injEq] at hg
    subst hg
    cases evidence with
    | totp b =>
      have hlt : last < b := hfresh last hlast
      exact ⟨_, rfl, hf.2, b, rfl, by omega⟩
    | recovery h => exact ⟨f, hf.1, hf.2, last, hlast, hle⟩
  have hused : ∀ h, UsedCode s h → UsedCode ((evidence.write x f).apply s) h := by
    intro h hu
    cases evidence with
    | totp b => exact ⟨⟨_, rfl, hf.2⟩, hu.2⟩
    | recovery k => exact used_useCode hu
  cases r with
  | enabled step => exact hreached step hr
  | accepted y e =>
    cases e with
    | totp step => exact hreached step hr
    | recovery h => exact ⟨hused h hr.1, hr.2⟩
  | setUp | alreadyEnabled | rejected | disabled | failed => trivial

theorem brought_pending {f : Factor} (hf : s.factor = some f) (hpending : f.status = .pending)
    (hr : Brought crypto s r) (s' : Store) : Brought crypto s' r := by
  have hnot : ∀ g, s.factor = some g → g.status ≠ .enabled := by
    intro g hg he
    rw [hf, Option.some.injEq] at hg
    rw [← hg, hpending] at he
    cases he
  cases r with
  | enabled step =>
    obtain ⟨g, hg, he, -⟩ := hr
    exact absurd he (hnot g hg)
  | accepted y e =>
    cases e with
    | totp step =>
      obtain ⟨g, hg, he, -⟩ := hr
      exact absurd he (hnot g hg)
    | recovery h =>
      obtain ⟨⟨⟨g, hg, he⟩, -⟩, -⟩ := hr
      exact absurd he (hnot g hg)
  | setUp | alreadyEnabled | rejected | disabled | failed => trivial

theorem code_laws (crypto : Crypto) : Laws (codeScript crypto) (fun _ _ _ => True) (fun _ => True)
    (CodeKnows crypto) (Brought crypto) where
  first s call _ := by
    refine ⟨Knows.first call.call, ?_⟩
    cases call <;> rfl
  next s a p ks ws p' ks' ws' _ hL _ h := by
    have hnext := nexts_of_next h
    have hcode : unharmed s () p ∧ p'.isCode = true := by
      cases hnext with
      | clearCodes | upsert | removeCodes | removeFactor | removeNothing => cases hL.2
      | lockPending | matching | replaceCodes | insertCodes => exact ⟨trivial, rfl⟩
      | lockEnabled | verifying => exact ⟨trivial, hL.2⟩
    exact ⟨hL.1.next hcode.1 hnext, hcode.2⟩
  commit s a p ks ws p' _ hL _ h := by
    cases committing_of_commit h <;> cases hL.2
  finish s a p ks ws r _ hL _ h := by
    refine ⟨trivial, ?_⟩
    rcases code_commits hL (Or.inr ⟨r, h⟩) with
      ⟨f, x, step, hs, rows, rfl, hholds, rfl⟩ | ⟨x, f, evidence, rfl, hholds, hfresh, hof, rfl⟩
    · cases h
      exact ⟨_, rfl, rfl, step, rfl, le_refl step⟩
    · cases h
      exact brought_finish hholds.2 hfresh hof
  fail s a p ks ws r _ hL _ h := by
    rcases fail_result h with rfl | rfl <;> trivial
  other s a p ks ws q ks' ws' _ hL _ hq hapart := ⟨hq.1.other hL.1.covered hapart, hq.2⟩
  kept s a p ks ws r _ hL hc hr := by
    rcases code_commits hL hc with
      ⟨f, x, step, hs, rows, rfl, hholds, rfl⟩ | ⟨x, f, evidence, rfl, hholds, hfresh, -, rfl⟩
    · exact brought_pending hholds.2.1 hholds.2.2 hr _
    · exact brought_kept hholds.2 hfresh hr

/-! ### Runs -/

abbrev CodeWorld := World Store (Local Point Lock Write Result)

/-- The world as the invariants have it. -/
def CodeWorld.Sound (crypto : Crypto) (w : CodeWorld) : Prop :=
  w.Holds (codeScript crypto).program (fun _ => True) (Local.Knows (CodeKnows crypto) (Brought crypto))

theorem step_lt {l : Local Point Lock Write Result} {a : Action Unit} {s' : Store} {b c : ℤ}
    {r' : Result} (hL : Local.Knows (CodeKnows crypto) (Brought crypto) s l)
    (hmove : (codeScript crypto).program.move a s l = some (s', .returned r'))
    (hr : Brought crypto s r) (hb : r.step = some b) (hc : r'.step = some c) : b < c := by
  have hreached : Reached s b := by
    cases r with
    | enabled step =>
      cases hb
      exact hr
    | accepted x e =>
      cases e with
      | totp step =>
        cases hb
        exact hr
      | recovery h => cases hb
    | setUp | alreadyEnabled | rejected | disabled | failed => cases hb
  obtain ⟨g, hg, henabled, last, hlast, hle⟩ := hreached
  cases moves_of_move hmove with
  | fail ks h => rcases fail_result h with rfl | rfl <;> cases hc
  | finish ks h =>
    rcases code_commits hL (Or.inr ⟨r', h⟩) with
      ⟨f, x, step, hs, rows, rfl, hholds, rfl⟩ | ⟨x, f, evidence, rfl, hholds, hfresh, -, rfl⟩
    · have hstatus := hholds.2.2
      rw [hholds.2.1, Option.some.injEq] at hg
      rw [hg, henabled] at hstatus
      cases hstatus
    · cases h
      cases evidence with
      | totp step =>
        cases hc
        rw [hholds.2.1, Option.some.injEq] at hg
        subst hg
        have hlt : last < c := hfresh last hlast
        omega
      | recovery h => cases hc

/-- Two calls have not accepted one recovery code. -/
def OtherCode (l m : Local Point Lock Write Result) : Prop :=
  ∀ x x' h h', l = .returned (.accepted x (.recovery h)) →
    m = .returned (.accepted x' (.recovery h')) → h ≠ h'

theorem other_code_rules (crypto : Crypto) : PairRules (codeScript crypto).program (fun _ => True)
    (Local.Knows (CodeKnows crypto) (Brought crypto))
    OtherCode where
  symm l m h x x' k k' hl hm he := h x' x k' k hm hl he.symm
  enter call m x x' k k' hl := by cases hl
  act s l a s' l' m _ hL hm _ hmove := by
    rintro x x' k k' rfl rfl rfl
    obtain ⟨⟨-, c, hc, hused⟩, -⟩ := hm
    cases moves_of_move hmove with
    | fail ks h => rcases fail_result h with h' | h' <;> cases h'
    | finish ks h =>
      rcases code_commits hL (Or.inr ⟨_, h⟩) with
        ⟨f, y, step, hs, rows, rfl, -, rfl⟩ | ⟨y, f, evidence, rfl, -, hfresh, -, rfl⟩
      · cases h
      · cases h
        obtain ⟨d, hd, hunused⟩ := hfresh
        rw [hc, Option.some.injEq] at hd
        rw [hd, hunused] at hused
        cases hused

theorem changes_accepted {l l' : Local Point Lock Write Result} {a : Action Unit} {s' : Store}
    (hL : Local.Knows (CodeKnows crypto) (Brought crypto) s l)
    (hmove : (codeScript crypto).program.move a s l = some (s', l')) (hne : s' ≠ s) :
    ∃ r, l' = .returned r ∧ r.isAccepted = true := by
  cases moves_of_move hmove with
  | crash | next | fail => exact absurd rfl hne
  | commit ks h => cases committing_of_commit h <;> cases hL.2
  | finish ks h =>
    refine ⟨_, rfl, ?_⟩
    rcases code_commits hL (Or.inr ⟨_, h⟩) with
      ⟨f, x, step, hs, rows, rfl, -, rfl⟩ | ⟨x, f, evidence, rfl, -, -, -, rfl⟩
    · cases h
      rfl
    · cases h
      rfl

/-- **One-time codes**: whatever calls of `enable` and `verify` do in whatever order, a step accepted
later is a later step, no recovery code is accepted twice, and a call that accepts no code changes no
row. -/
theorem codes_once (crypto : Crypto) (s : Store) (events more : List (Event CodeCall (Action Unit))) :
    let w := run (codeScript crypto).program (World.closed s) events
    (∀ (i j : ℕ) (r r' : Result) (b c : ℤ), w.sessions[i]? = some (.returned r) →
      w.sessions[j]? ≠ some (.returned r') →
      (run (codeScript crypto).program w more).sessions[j]? = some (.returned r') →
      r.step = some b → r'.step = some c → b < c) ∧
    (∀ (i j : ℕ) (x x' : Submission) (h h' : String), i ≠ j →
      w.sessions[i]? = some (.returned (.accepted x (.recovery h))) →
      w.sessions[j]? = some (.returned (.accepted x' (.recovery h'))) →
      recoveryCodeHash crypto.sha256 x.code ≠ recoveryCodeHash crypto.sha256 x'.code) ∧
    ∀ (e : Event CodeCall (Action Unit)) (w' : CodeWorld),
      step (codeScript crypto).program e w = .ok w' → w'.store ≠ w.store →
        ∃ i a r, e = .act i a ∧ w'.sessions[i]? = some (.returned r) ∧ r.isAccepted = true := by
  intro w
  have hstart : CodeWorld.Sound crypto (World.closed s) := World.holds_closed trivial
  have hsound : ∀ es, CodeWorld.Sound crypto (run (codeScript crypto).program (World.closed s) es) :=
    fun es => run_always (rules_always (code_laws crypto)) es hstart
  refine ⟨fun i j r r' b c hi hj hj' hb hc => ?_, fun i j x x' h h' hij hi hj he => ?_,
    fun e w' hok hne => ?_⟩
  · obtain ⟨before, a, after, l₀, l₁, s', -, hl₀, -, rfl, hmove, -⟩ :=
      moment_of (Q := fun l => l = .returned r') (fun _ h => by cases h)
        (fun l hl he => hj (hl.trans (congrArg some he))) more hj' rfl
    have hw := hsound (events ++ before)
    rw [run_append] at hw
    have hi' := run_stuck (P := (codeScript crypto).program) (fun a s => move_returned a s r) before hi
    exact step_lt (hw.sessions j l₀ hl₀) hmove (hw.sessions i _ hi') hb hc
  · have hw := hsound events
    have hpairs := run_pairs (rules_always (code_laws crypto)) (other_code_rules crypto) events hstart
      (fun _ _ _ _ _ hi => by cases hi)
    have hh := (hw.sessions i _ hi).2
    have hh' := (hw.sessions j _ hj).2
    exact hpairs i j _ _ hij hi hj x x' h h' rfl rfl (hh.trans (he.trans hh'.symm))
  · cases e with
    | enter call =>
      cases hok
      exact absurd rfl hne
    | act i a =>
      obtain ⟨l, l', s', hl, hmove, -, rfl⟩ := step_act hok
      obtain ⟨r, rfl, haccepted⟩ := changes_accepted ((hsound events).sessions i l hl) hmove hne
      have hi : i < w.sessions.length := (List.getElem?_eq_some_iff.mp hl).1
      exact ⟨i, a, r, rfl, List.getElem?_set_self hi, haccepted⟩

/-! The factor is enabled with the code of step 1; a code that steps 2 to 4 share is accepted once. -/

def sampleEnvelope : MfaEnvelope :=
  { encryptedTotpSecret := "c2VjcmV0", initializationVector := "aXY=", authenticationTag := "dGFn"
    encryptionKeyVersion := 1 }

def sampleCrypto : Crypto :=
  { hmacSha1 := sampleHmac, sha256 := id, decryptSecret := fun _ => some sampleSecret }

def sampleStore : Store := { factor := some { envelope := sampleEnvelope, updatedAt := 0 } }

def sampleCode (timestamp : ℤ) : Submission := { code := "287082", timestamp }

def enableEvents : List (Event CodeCall (Action Unit)) :=
  .enter (.enable (sampleCode 59000) ["r"]) :: List.replicate 5 (.act 0 (.statement ()))

def verifyEvents : List (Event CodeCall (Action Unit)) :=
  [.enter (.verify (sampleCode 90000)), .enter (.verify (sampleCode 100000)),
    .act 1 (.statement ()), .act 2 (.statement ()), .act 1 (.statement ()), .act 1 (.statement ()),
    .act 2 (.statement ()), .act 2 (.statement ())]

theorem codes_once_sample :
    (run (codeScript sampleCrypto).program (run (codeScript sampleCrypto).program
        (World.closed sampleStore) enableEvents) verifyEvents).sessions =
      [.returned (.enabled 1), .returned (.accepted (sampleCode 90000) (.totp 2)),
        .returned .rejected] ∧ (1 : ℤ) < 2 := by
  have hsessions : (run (codeScript sampleCrypto).program (run (codeScript sampleCrypto).program
        (World.closed sampleStore) enableEvents) verifyEvents).sessions =
      [.returned (.enabled 1), .returned (.accepted (sampleCode 90000) (.totp 2)),
        .returned .rejected] := by decide
  refine ⟨hsessions, ?_⟩
  refine (codes_once sampleCrypto sampleStore enableEvents verifyEvents).1 0 1 (.enabled 1)
    (.accepted (sampleCode 90000) (.totp 2)) 1 2 (by decide) (by decide) ?_ rfl rfl
  rw [hsessions]
  rfl

end CalmBoard.Mfa
