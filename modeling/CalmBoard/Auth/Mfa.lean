import CalmBoard.Lib.Table
import CalmBoard.Lib.Requests
import CalmBoard.Auth.Totp

/-!
# CalmBoard.Auth.Mfa — the second factor of a user

* `check`: what `verify` decides about a code.
* `statement`: `beginSetup`, `enable`, `verify` and `disable`, statement by statement.
* `factor_view`, `code_view`: what the writes of a transaction leave alone.
-/

namespace CalmBoard.Mfa

open Requests

inductive MfaStatus where
  | pending | enabled
  deriving DecidableEq

/-- The encrypted secret. -/
structure MfaEnvelope where
  encryptedTotpSecret : String
  initializationVector : String
  authenticationTag : String
  encryptionKeyVersion : ℕ
  deriving DecidableEq

/-- `user_mfa_factors`; times are in milliseconds. -/
structure Factor where
  status : MfaStatus := .pending
  envelope : MfaEnvelope
  lastUsedStep : Option ℤ := none
  enabledAt : Option ℤ := none
  updatedAt : ℤ
  deriving DecidableEq

/-- `mfa_recovery_codes` -/
structure RecoveryCode where
  codeHash : String
  usedAt : Option ℤ := none
  createdAt : ℤ
  deriving DecidableEq

/-- The factor of one user, and the recovery codes. -/
structure Store where
  factor : Option Factor := none
  codes : Table RecoveryCode RecoveryCode.codeHash := Table.empty

/-- What the code takes from `node:crypto`, with the keys of the environment. -/
structure Crypto where
  hmacSha1 : List UInt8 → List UInt8 → List UInt8
  sha256 : String → String
  decryptSecret : MfaEnvelope → Option String

/-! ### Calls -/

/-- A new secret, encrypted, and the clock. -/
structure Setup where
  envelope : MfaEnvelope
  now : ℤ
  deriving DecidableEq

structure Submission where
  code : String
  timestamp : ℤ
  deriving DecidableEq

/-- `enable` has drawn its recovery codes. -/
inductive Call where
  | beginSetup (setup : Setup)
  | enable (x : Submission) (recoveryCodes : List String)
  | verify (x : Submission)
  | disable (x : Submission)

/-- What makes `verify` accept a code. -/
inductive Evidence where
  | totp (step : ℤ)
  | recovery (codeHash : String)
  deriving DecidableEq

inductive Result where
  | setUp | alreadyEnabled
  | enabled (step : ℤ)
  | accepted (x : Submission) (evidence : Evidence)
  | rejected | disabled | failed
  deriving DecidableEq

/-- The statement that comes next; `disables` tells the `verify` of `disable` from a call. -/
inductive Point where
  | selectEnabled (setup : Setup)
  | clearCodes (setup : Setup)
  | upsert (setup : Setup)
  | commitSetup
  | lockPending (x : Submission) (recoveryCodes : List String)
  | matching (x : Submission) (recoveryCodes : List String) (factor : Factor)
  | replaceCodes (x : Submission) (recoveryCodes : List String) (step : ℤ)
  | insertCodes (x : Submission) (recoveryCodes : List String) (step : ℤ)
  | commitEnable (step : ℤ)
  | lockEnabled (x : Submission) (disables : Bool)
  | verifying (x : Submission) (disables : Bool) (factor : Factor)
  | accepted (x : Submission) (disables : Bool) (factor : Factor) (evidence : Evidence)
  | removeCodes (factor : Factor)
  | removeFactor (factor : Factor)
  | commitDisable (factor : Factor)
  deriving DecidableEq

/-- A lock of the row of the factor, or of a recovery code. -/
inductive Lock where
  | factor
  | code (codeHash : String)
  deriving DecidableEq

inductive Write where
  | putFactor (factor : Factor)
  | deleteFactor
  | deleteCodes (codeHashes : List String)
  | insertCodes (rows : List RecoveryCode)
  | useCode (codeHash : String) (now : ℤ)
  deriving DecidableEq

def RecoveryCode.use (now : ℤ) (c : RecoveryCode) : RecoveryCode := { c with usedAt := some now }

@[simp] theorem RecoveryCode.use_codeHash (now : ℤ) (c : RecoveryCode) :
    (c.use now).codeHash = c.codeHash := rfl

def Write.apply : Write → Store → Store
  | .putFactor f, s => { s with factor := some f }
  | .deleteFactor, s => { s with factor := none }
  | .deleteCodes hs, s => { s with codes := s.codes.remove fun c => hs.contains c.codeHash }
  | .insertCodes rows, s => { s with codes := rows.foldl Table.upsert s.codes }
  | .useCode h now, s =>
    { s with
      codes := s.codes.update (fun c => c.codeHash = h) (RecoveryCode.use now)
        (RecoveryCode.use_codeHash now) }

/-- The rows that a write is about. -/
def Write.locks : Write → List Lock
  | .putFactor _ | .deleteFactor => [.factor]
  | .deleteCodes hs => hs.map .code
  | .insertCodes rows => rows.map fun c => .code c.codeHash
  | .useCode h _ => [.code h]

/-! ### Statements -/

/-- The check constraint and the type of `last_used_step`. -/
def storableStep (step : ℤ) : Bool := 0 ≤ step && step ≤ 2147483647

variable (crypto : Crypto)

/-- `matchingStep` of a factor whose secret has to be decrypted. -/
def matchFactor (x : Submission) (f : Factor) : Except Unit (Option ℤ) :=
  match crypto.decryptSecret f.envelope with
  | none => .error ()
  | some secret => matchingStep crypto.hmacSha1 secret x.code x.timestamp

/-- What `verify` decides once it holds the factor. -/
def check (x : Submission) (f : Factor) (s : Store) : Except Unit (Option Evidence) :=
  if isTotpCode x.code then
    match matchFactor crypto x f with
    | .error () => .error ()
    | .ok none => .ok none
    | .ok (some step) =>
      if f.lastUsedStep.any fun last => step ≤ last then .ok none
      else if storableStep step then .ok (some (.totp step)) else .error ()
  else if isRecoveryCode x.code then
    let h := recoveryCodeHash crypto.sha256 x.code
    if (s.codes.find? h).any fun c => c.usedAt.isNone then .ok (some (.recovery h)) else .ok none
  else .ok none

/-- The row that `verify` writes. -/
def Evidence.write (x : Submission) (f : Factor) : Evidence → Write
  | .totp step => .putFactor { f with lastUsedStep := some step, updatedAt := x.timestamp }
  | .recovery h => .useCode h x.timestamp

def Setup.factor (setup : Setup) : Factor := { envelope := setup.envelope, updatedAt := setup.now }

/-- The row that `enable` writes. -/
def Factor.enable (x : Submission) (step : ℤ) (f : Factor) : Factor :=
  { f with
    status := .enabled, enabledAt := some x.timestamp, lastUsedStep := some step
    updatedAt := x.timestamp }

def recoveryRows (x : Submission) (recoveryCodes : List String) : List RecoveryCode :=
  recoveryCodes.map fun code =>
    { codeHash := recoveryCodeHash crypto.sha256 code, createdAt := x.timestamp }

/-- The unique index of the codes. -/
def insertable (rows : List RecoveryCode) (s : Store) : Bool :=
  (rows.map RecoveryCode.codeHash).Nodup && rows.all fun c => (s.codes.find? c.codeHash).isNone

def codeHashes (s : Store) : List String := s.codes.rows.map RecoveryCode.codeHash

/-- One statement of a call.  A statement locks the rows it writes, and those it reads for update. -/
def statement (_ : Unit) (p : Point) (s : Store) : Outcome Point Lock Write Result :=
  match p with
  | .selectEnabled setup =>
    if s.factor.any fun f => f.status = .enabled then .finish .alreadyEnabled
    else .commit (.clearCodes setup)
  | .clearCodes setup =>
    .next (.upsert setup) ((codeHashes s).map .code) [.deleteCodes (codeHashes s)]
  | .upsert setup => .next .commitSetup [.factor] [.putFactor setup.factor]
  | .commitSetup => .finish .setUp
  | .lockPending x recoveryCodes =>
    match s.factor.filter fun f => f.status = .pending with
    | none => .fail .rejected
    | some f => .next (.matching x recoveryCodes f) [.factor] []
  | .matching x recoveryCodes f =>
    match matchFactor crypto x f with
    | .error () => .fail .failed
    | .ok none => .fail .rejected
    | .ok (some step) =>
      if storableStep step then
        .next (.replaceCodes x recoveryCodes step) [.factor] [.putFactor (f.enable x step)]
      else .fail .failed
  | .replaceCodes x recoveryCodes step =>
    .next (.insertCodes x recoveryCodes step) ((codeHashes s).map .code) [.deleteCodes (codeHashes s)]
  | .insertCodes x recoveryCodes step =>
    let rows := recoveryRows crypto x recoveryCodes
    if insertable rows s then
      .next (.commitEnable step) (rows.map fun c => .code c.codeHash) [.insertCodes rows]
    else .fail .failed
  | .commitEnable step => .finish (.enabled step)
  | .lockEnabled x disables =>
    match s.factor.filter fun f => f.status = .enabled with
    | none => .fail .rejected
    | some f => .next (.verifying x disables f) [.factor] []
  | .verifying x disables f =>
    match check crypto x f s with
    | .error () => .fail .failed
    | .ok none => .fail .rejected
    | .ok (some evidence) =>
      .next (.accepted x disables f evidence) (evidence.write x f).locks [evidence.write x f]
  | .accepted x false _ evidence => .finish (.accepted x evidence)
  | .accepted _ true f _ => .commit (.removeCodes f)
  | .removeCodes f =>
    .next (.removeFactor f) ((codeHashes s).map .code) [.deleteCodes (codeHashes s)]
  | .removeFactor f =>
    if s.factor.isSome then .next (.commitDisable f) [.factor] [.deleteFactor]
    else .next (.commitDisable f) [] []
  | .commitDisable _ => .finish .disabled

def Call.first : Call → Point
  | .beginSetup setup => .selectEnabled setup
  | .enable x recoveryCodes => .lockPending x recoveryCodes
  | .verify x => .lockEnabled x false
  | .disable x => .lockEnabled x true

def script : Script Call Store Unit Point Lock Write Result where
  first := Call.first
  apply := Write.apply
  statement := statement crypto
  conflict k k' := k = k'
  conflict_symm k k' := by simp [eq_comm]

/-! ### What a statement leads to -/

variable {crypto} {s : Store} {p p' : Point} {ks ks' : List Lock} {ws ws' : List Write} {r : Result}

/-- The statements inside a transaction. -/
inductive Nexts (crypto : Crypto) (s : Store) : Point → Point → List Lock → List Write → Prop
  | clearCodes (setup : Setup) :
      Nexts crypto s (.clearCodes setup) (.upsert setup) ((codeHashes s).map .code)
        [.deleteCodes (codeHashes s)]
  | upsert (setup : Setup) :
      Nexts crypto s (.upsert setup) .commitSetup [.factor] [.putFactor setup.factor]
  | lockPending {x : Submission} {recoveryCodes : List String} {f : Factor}
      (hf : s.factor = some f) (hpending : f.status = .pending) :
      Nexts crypto s (.lockPending x recoveryCodes) (.matching x recoveryCodes f) [.factor] []
  | matching {x : Submission} {recoveryCodes : List String} {f : Factor} {step : ℤ}
      (hmatch : matchFactor crypto x f = .ok (some step)) (hstep : storableStep step = true) :
      Nexts crypto s (.matching x recoveryCodes f) (.replaceCodes x recoveryCodes step) [.factor]
        [.putFactor (f.enable x step)]
  | replaceCodes (x : Submission) (recoveryCodes : List String) (step : ℤ) :
      Nexts crypto s (.replaceCodes x recoveryCodes step) (.insertCodes x recoveryCodes step)
        ((codeHashes s).map .code) [.deleteCodes (codeHashes s)]
  | insertCodes {x : Submission} {recoveryCodes : List String} {step : ℤ}
      (hrows : insertable (recoveryRows crypto x recoveryCodes) s = true) :
      Nexts crypto s (.insertCodes x recoveryCodes step) (.commitEnable step)
        ((recoveryRows crypto x recoveryCodes).map fun c => .code c.codeHash)
        [.insertCodes (recoveryRows crypto x recoveryCodes)]
  | lockEnabled {x : Submission} {disables : Bool} {f : Factor}
      (hf : s.factor = some f) (henabled : f.status = .enabled) :
      Nexts crypto s (.lockEnabled x disables) (.verifying x disables f) [.factor] []
  | verifying {x : Submission} {disables : Bool} {f : Factor} {evidence : Evidence}
      (hcheck : check crypto x f s = .ok (some evidence)) :
      Nexts crypto s (.verifying x disables f) (.accepted x disables f evidence)
        (evidence.write x f).locks [evidence.write x f]
  | removeCodes (f : Factor) :
      Nexts crypto s (.removeCodes f) (.removeFactor f) ((codeHashes s).map .code)
        [.deleteCodes (codeHashes s)]
  | removeFactor {f g : Factor} (hg : s.factor = some g) :
      Nexts crypto s (.removeFactor f) (.commitDisable f) [.factor] [.deleteFactor]
  | removeNothing (f : Factor) (hg : s.factor = none) :
      Nexts crypto s (.removeFactor f) (.commitDisable f) [] []

theorem filter_status {status : MfaStatus} {f : Factor}
    (h : s.factor.filter (fun f => f.status = status) = some f) :
    s.factor = some f ∧ f.status = status := by
  obtain ⟨hf, hstatus⟩ := Option.filter_eq_some_iff.mp h
  exact ⟨hf, by simpa using hstatus⟩

theorem nexts_of_next (h : statement crypto () p s = .next p' ks ws) : Nexts crypto s p p' ks ws := by
  cases p with
  | selectEnabled setup =>
    simp only [statement] at h
    split at h <;> cases h
  | clearCodes setup =>
    cases h
    exact .clearCodes setup
  | upsert setup =>
    cases h
    exact .upsert setup
  | lockPending x recoveryCodes =>
    simp only [statement] at h
    split at h
    · cases h
    · next f hf =>
      cases h
      obtain ⟨hf, hpending⟩ := filter_status hf
      exact .lockPending hf hpending
  | matching x recoveryCodes f =>
    simp only [statement] at h
    split at h
    · cases h
    · cases h
    · next step hmatch =>
      split at h
      · next hstep =>
        cases h
        exact .matching hmatch hstep
      · cases h
  | replaceCodes x recoveryCodes step =>
    cases h
    exact .replaceCodes x recoveryCodes step
  | insertCodes x recoveryCodes step =>
    simp only [statement] at h
    split at h
    · next hrows =>
      cases h
      exact .insertCodes hrows
    · cases h
  | lockEnabled x disables =>
    simp only [statement] at h
    split at h
    · cases h
    · next f hf =>
      cases h
      obtain ⟨hf, henabled⟩ := filter_status hf
      exact .lockEnabled hf henabled
  | verifying x disables f =>
    simp only [statement] at h
    split at h
    · cases h
    · cases h
    · next evidence hcheck =>
      cases h
      exact .verifying hcheck
  | accepted x disables f evidence => cases disables <;> cases h
  | removeCodes f =>
    cases h
    exact .removeCodes f
  | removeFactor f =>
    simp only [statement] at h
    split at h
    · next hsome =>
      cases h
      obtain ⟨g, hg⟩ := Option.isSome_iff_exists.mp hsome
      exact .removeFactor hg
    · next hnone =>
      cases h
      exact .removeNothing f (by simpa using hnone)
  | commitSetup | commitEnable | commitDisable => cases h

/-- The commits in the middle of a call. -/
inductive Committing (s : Store) : Point → Point → Prop
  | selectEnabled (setup : Setup) (h : ∀ f, s.factor = some f → f.status = .pending) :
      Committing s (.selectEnabled setup) (.clearCodes setup)
  | accepted (x : Submission) (f : Factor) (evidence : Evidence) :
      Committing s (.accepted x true f evidence) (.removeCodes f)

theorem pending_of_not_enabled {f : Factor} (h : f.status ≠ .enabled) : f.status = .pending := by
  cases hf : f.status with
  | pending => rfl
  | enabled => exact absurd hf h

theorem committing_of_commit (h : statement crypto () p s = .commit p') : Committing s p p' := by
  cases p with
  | selectEnabled setup =>
    simp only [statement] at h
    split at h
    · cases h
    · next hnot =>
      cases h
      refine .selectEnabled setup fun f hf => pending_of_not_enabled fun he => hnot ?_
      simp [hf, he]
  | accepted x disables f evidence =>
    cases disables with
    | false => cases h
    | true =>
      cases h
      exact .accepted x f evidence
  | lockPending | matching | insertCodes | lockEnabled | verifying | removeFactor =>
    simp only [statement] at h
    repeat' split at h
    all_goals cases h
  | clearCodes | upsert | commitSetup | replaceCodes | commitEnable | removeCodes | commitDisable =>
    cases h

/-- The ends of the calls. -/
inductive Finishing : Point → Result → Prop
  | alreadyEnabled (setup : Setup) : Finishing (.selectEnabled setup) .alreadyEnabled
  | setUp : Finishing .commitSetup .setUp
  | enabled (step : ℤ) : Finishing (.commitEnable step) (.enabled step)
  | accepted (x : Submission) (f : Factor) (evidence : Evidence) :
      Finishing (.accepted x false f evidence) (.accepted x evidence)
  | disabled (f : Factor) : Finishing (.commitDisable f) .disabled

theorem finishing_of_finish (h : statement crypto () p s = .finish r) : Finishing p r := by
  cases p with
  | selectEnabled setup =>
    simp only [statement] at h
    split at h
    · cases h
      exact .alreadyEnabled setup
    · cases h
  | commitSetup =>
    cases h
    exact .setUp
  | commitEnable step =>
    cases h
    exact .enabled step
  | accepted x disables f evidence =>
    cases disables with
    | false =>
      cases h
      exact .accepted x f evidence
    | true => cases h
  | commitDisable f =>
    cases h
    exact .disabled f
  | lockPending | matching | insertCodes | lockEnabled | verifying | removeFactor =>
    simp only [statement] at h
    repeat' split at h
    all_goals cases h
  | clearCodes | upsert | replaceCodes | removeCodes => cases h

theorem fail_result (h : statement crypto () p s = .fail r) : r = .rejected ∨ r = .failed := by
  cases p with
  | accepted x disables => cases disables <;> cases h
  | selectEnabled | lockPending | matching | insertCodes | lockEnabled | verifying | removeFactor =>
    simp only [statement] at h
    repeat' split at h
    all_goals cases h
    all_goals first | exact Or.inl rfl | exact Or.inr rfl
  | clearCodes | upsert | commitSetup | replaceCodes | commitEnable | removeCodes | commitDisable =>
    cases h

/-! ### What a transaction leaves alone -/

theorem Nexts.covered (h : Nexts crypto s p p' ks ws) : Covered Write.locks ks ws := by
  cases h with
  | lockPending | lockEnabled | removeNothing => exact covered_nil _ _
  | clearCodes | upsert | matching | replaceCodes | insertCodes | verifying | removeCodes
  | removeFactor => exact covered_singleton fun k hk => hk

theorem factor_apply {w : Write} (h : Lock.factor ∉ w.locks) : (w.apply s).factor = s.factor := by
  cases w with
  | putFactor | deleteFactor => exact absurd (List.mem_singleton_self _) h
  | deleteCodes | insertCodes | useCode => rfl

theorem code_apply {w : Write} {h : String} (hw : Lock.code h ∉ w.locks) :
    (w.apply s).codes.find? h = s.codes.find? h := by
  cases w with
  | putFactor | deleteFactor => rfl
  | deleteCodes hs =>
    refine Table.find?_remove_of fun c hc => ?_
    simpa [Write.locks, hc] using hw
  | insertCodes rows =>
    refine Table.find?_foldl_upsert fun c hc he => hw ?_
    exact List.mem_map.mpr ⟨c, hc, by rw [he]⟩
  | useCode k now =>
    have hk : k ≠ h := fun he => hw (he ▸ List.mem_singleton_self _)
    simp only [Write.apply, Table.find?_update]
    cases hf : s.codes.find? h with
    | none => rfl
    | some c =>
      have hc : c.codeHash ≠ k := fun he => hk (he.symm.trans (Table.key_of_find? hf))
      simp [hc]

theorem factor_view (hws : Covered Write.locks ks ws) (hk : Lock.factor ∉ ks) (s : Store) :
    ((script crypto).view s ws).factor = s.factor :=
  view_frame (fun _ _ hw => factor_apply hw) hws hk s

theorem code_view {h : String} (hws : Covered Write.locks ks ws) (hk : Lock.code h ∉ ks) (s : Store) :
    ((script crypto).view s ws).codes.find? h = s.codes.find? h :=
  view_frame (f := fun s => s.codes.find? h) (fun _ _ hw => code_apply hw) hws hk s

end CalmBoard.Mfa
