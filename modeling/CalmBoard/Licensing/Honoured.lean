import CalmBoard.Licensing.Service
import CalmBoard.Lib.Fallible

/-!
# CalmBoard.Licensing.Honoured — what a valid check stands on

* `Genuine`: a token that passes every check but the one of its time.
* `verifyLocally_cases`: a local check fails, or the token is genuine and not expired.
* `valid_iff_genuine`: every valid check stands on a genuine token exactly when the token a call
  keeps honouring offline is genuine.
-/

namespace CalmBoard.Licensing

open Fallible

variable {cfg : Config} {crypto : Crypto} {io : Io} {state : StoredLicense} {now : ℚ}
  {check : LicenseCheck}

/-- A token of this product, issuer and device, signed under the stored key it names. -/
structure Genuine (cfg : Config) (crypto : Crypto) (state : StoredLicense) (tokenValue : String)
    (token : ParsedToken) (publicKey : String) : Prop where
  parsed : parseToken crypto tokenValue = some token
  product : property token.payload "prd" = .ok (.string cfg.product)
  issuer : property token.payload "iss" = .ok .undefined ∨
    property token.payload "iss" = .ok (.string cfg.issuer)
  key : state.publicKey token = some publicKey
  signed : verifySignature crypto token publicKey = true
  bound : property token.payload "devf" =
    .ok (.string (crypto.hmacSha256 (state.fingerprint.getD "") cfg.deviceHashSecret))

/-- The token of a check is genuine, and the claims are its payload. -/
def Honoured (cfg : Config) (crypto : Crypto) (state : StoredLicense) (check : LicenseCheck) : Prop :=
  ∃ tokenValue token publicKey, check.token = some tokenValue ∧
    Genuine cfg crypto state tokenValue token publicKey ∧ check.claims = token.payload

/-- The token of a check does not expire before a time. -/
def Unexpired (crypto : Crypto) (now : ℚ) (check : LicenseCheck) : Prop :=
  ∃ tokenValue token value exp, check.token = some tokenValue ∧
    parseToken crypto tokenValue = some token ∧ property token.payload "exp" = .ok value ∧
      expiration value = some exp ∧ now < exp

/-! ### A local check -/

/-- A check that does not honour the license. -/
structure Refused (check : LicenseCheck) : Prop where
  valid : check.valid = false
  grace : check.grace = false
  status : check.status ≠ .valid

theorem refused_failedCheck {status : LicenseStatus} {reason : String} (h : status ≠ .valid) :
    Refused (failedCheck status reason) := ⟨rfl, rfl, h⟩

/-- A check that honours a token that has not expired. -/
structure Verified (cfg : Config) (crypto : Crypto) (state : StoredLicense) (now : ℚ)
    (check : LicenseCheck) : Prop where
  valid : check.valid = true
  grace : check.grace = false
  status : check.status = .valid
  honoured : Honoured cfg crypto state check
  unexpired : Unexpired crypto now check

theorem asString_eq_some {v : JsValue} {s : String} (h : asString v = some s) : v = .string s := by
  cases v with
  | string t =>
    cases h
    rfl
  | _ => cases h

theorem eq_undefined {v : JsValue} (h : isUndefined v = true) : v = .undefined := by
  cases v with
  | undefined => rfl
  | _ => cases h

/-- **A local check** fails, or honours a genuine token that has not expired; only without a token
the installation counts as not activated. -/
theorem verifyLocally_cases (h : verifyLocally cfg crypto state now = .ok check) :
    (Refused check ∧ (check.status = .notActivated → truthy state.token = none)) ∨
      (check.token = truthy state.token ∧ Verified cfg crypto state now check) := by
  unfold verifyLocally at h
  split at h
  · next htoken =>
    cases h
    exact Or.inl ⟨refused_failedCheck (by decide), fun _ => htoken⟩
  next tokenValue htoken =>
  split at h
  · cases h
    exact Or.inl ⟨refused_failedCheck (by decide), fun hn => by cases hn⟩
  next token hparsed =>
  obtain ⟨prd, hprd, h⟩ := bind_ok.mp h
  split at h
  · cases h
    exact Or.inl ⟨refused_failedCheck (by decide), fun hn => by cases hn⟩
  next hproduct =>
  obtain ⟨iss, hiss, h⟩ := bind_ok.mp h
  split at h
  · cases h
    exact Or.inl ⟨refused_failedCheck (by decide), fun hn => by cases hn⟩
  next hissuer =>
  split at h
  · cases h
    exact Or.inl ⟨refused_failedCheck (by decide), fun hn => by cases hn⟩
  next publicKey hkey =>
  split at h
  · cases h
    exact Or.inl ⟨refused_failedCheck (by decide), fun hn => by cases hn⟩
  next hsigned =>
  obtain ⟨value, hvalue, h⟩ := bind_ok.mp h
  split at h
  · cases h
    exact Or.inl ⟨refused_failedCheck (by decide), fun hn => by cases hn⟩
  next exp hexp =>
  split at h
  · cases h
    exact Or.inl ⟨refused_failedCheck (by decide), fun hn => by cases hn⟩
  next hnow =>
  obtain ⟨devf, hdevf, h⟩ := bind_ok.mp h
  split at h
  · cases h
    exact Or.inl ⟨refused_failedCheck (by decide), fun hn => by cases hn⟩
  next hbound =>
  cases h
  right
  have hproduct : prd = .string cfg.product := asString_eq_some (not_not.mp hproduct)
  have hissuer : iss = .undefined ∨ iss = .string cfg.issuer := by
    cases hu : isUndefined iss with
    | true => exact Or.inl (eq_undefined hu)
    | false => exact Or.inr (asString_eq_some (not_not.mp fun hne => hissuer ⟨hu, hne⟩))
  have hgenuine : Genuine cfg crypto state tokenValue token publicKey :=
    { parsed := hparsed
      product := hproduct ▸ hprd
      issuer := by
        rcases hissuer with rfl | rfl
        · exact Or.inl hiss
        · exact Or.inr hiss
      key := hkey
      signed := by simpa using hsigned
      bound := asString_eq_some (not_not.mp hbound) ▸ hdevf }
  exact ⟨htoken.symm, rfl, rfl, rfl, ⟨tokenValue, token, publicKey, rfl, hgenuine, rfl⟩,
    tokenValue, token, value, exp, rfl, hparsed, hvalue, hexp, not_le.mp hnow⟩

/-! ### Calls -/

/-- A valid check stands on a genuine token of the store. -/
def Outcome.Sound (cfg : Config) (crypto : Crypto) (o : Outcome) : Prop :=
  ∀ check, o.result = .ok check → check.valid = true →
    ∃ state, o.stored = some state ∧ Honoured cfg crypto state check

variable {sent : List Request} {response : ServerResponse}

theorem sound_refused (h : check.valid = false) : (done state sent check).Sound cfg crypto := by
  intro c hc hvalid
  cases hc
  rw [h] at hvalid
  cases hvalid

theorem sound_done (h : Honoured cfg crypto state check) :
    (done state sent check).Sound cfg crypto := by
  intro c hc _
  cases hc
  exact ⟨state, rfl, h⟩

theorem sound_local (h : verifyLocally cfg crypto state now = .ok check) :
    (done state sent check).Sound cfg crypto := by
  rcases verifyLocally_cases h with ⟨hr, -⟩ | ⟨-, hv⟩
  · exact sound_refused hr.valid
  · exact sound_done hv.honoured

theorem sound_checked : (checked cfg crypto state sent now).Sound cfg crypto :=
  fun check hc hvalid =>
    have hsound : (done state sent check).Sound cfg crypto := sound_local hc
    hsound check rfl hvalid

theorem sound_mapFailure : (mapFailure state sent response).Sound cfg crypto := by
  unfold mapFailure
  split
  · exact sound_refused rfl
  split
  · exact sound_refused rfl
  · exact sound_refused rfl

theorem sound_applyIssued : (applyIssued cfg crypto io state sent response).Sound cfg crypto := by
  unfold applyIssued
  split
  · exact sound_refused rfl
  · dsimp only
    split
    · intro c hc
      cases hc
    · exact sound_checked
    · exact sound_checked

theorem sound_activated : (activated cfg crypto io state sent).Sound cfg crypto := by
  unfold activated
  dsimp only
  split
  · exact sound_refused rfl
  split
  · exact sound_applyIssued
  · exact sound_mapFailure

theorem sound_activateAfter : (activateAfter cfg crypto io state sent).Sound cfg crypto := by
  unfold activateAfter
  split
  · exact sound_activated
  · exact sound_refused rfl

/-- A call goes on honouring the cached token of a state while the server does not answer. -/
def gracedState (cfg : Config) (state : StoredLicense) (now : ℚ) : Option StoredLicense :=
  if (truthy state.token).isSome && withinGracePeriod cfg state now then some state else none

/-- The cached token is genuine, and the cached claims are its payload. -/
def CachedGenuine (cfg : Config) (crypto : Crypto) (state : StoredLicense) : Prop :=
  ∃ tokenValue token publicKey, truthy state.token = some tokenValue ∧
    Genuine cfg crypto state tokenValue token publicKey ∧ state.cachedClaims = token.payload

theorem sound_offlineFallback_iff :
    (done state sent (offlineFallback cfg state now)).Sound cfg crypto ↔
      ∀ graced, gracedState cfg state now = some graced → CachedGenuine cfg crypto graced := by
  unfold offlineFallback gracedState
  cases htoken : truthy state.token with
  | none => simp [sound_refused, failedCheck]
  | some token =>
    by_cases hgrace : withinGracePeriod cfg state now = true
    · simp only [hgrace, if_true, Option.isSome_some, Bool.and_self, Option.some.injEq,
        forall_eq']
      constructor
      · intro h
        obtain ⟨st, hst, tokenValue, parsed, publicKey, ht, hgenuine, hclaims⟩ := h _ rfl rfl
        cases hst
        cases ht
        exact ⟨token, parsed, publicKey, htoken, hgenuine, hclaims⟩
      · rintro ⟨tokenValue, parsed, publicKey, ht, hgenuine, hclaims⟩
        rw [htoken] at ht
        cases ht
        exact sound_done ⟨token, parsed, publicKey, rfl, hgenuine, hclaims⟩
    · simp [hgrace, sound_refused, failedCheck]

/-- The state whose cached token a call goes on honouring. -/
def graced (cfg : Config) (crypto : Crypto) (io : Io) (stored : Option StoredLicense) :
    Check → Option StoredLicense
  | .boot =>
    let state := ensureFingerprint cfg io stored
    match verifyLocally cfg crypto state (io.clock .local) with
    | .ok check =>
      if check.status = .expired && hasLicenseKey cfg state && (io.server .validate).transportError
      then gracedState cfg state (io.clock .grace)
      else none
    | .error _ => none
  | .validate =>
    let state := ensureFingerprint cfg io stored
    if hasLicenseKey cfg state && (io.server .validate).transportError then
      gracedState cfg state (io.clock .grace)
    else none
  | .heartbeat =>
    let state := ensureFingerprint cfg io stored
    if hasLicenseKey cfg state then
      if (io.server .heartbeat).transportError then gracedState cfg state (io.clock .grace)
      else if (io.server .heartbeat).ok then
        let state := { state with lastHeartbeatAt := some (io.clock .heartbeat) }
        match verifyLocally cfg crypto state (io.clock .local) with
        | .ok check =>
          if check.status = .expired then gracedState cfg state (io.clock .grace) else none
        | .error _ => none
      else none
    else none
  | .activate | .activateKey _ => none

theorem Genuine.congr {state' : StoredLicense} {tokenValue publicKey : String} {token : ParsedToken}
    (h : Genuine cfg crypto state tokenValue token publicKey)
    (hkeys : state'.publicKeys = state.publicKeys)
    (hfingerprint : state'.fingerprint = state.fingerprint) :
    Genuine cfg crypto state' tokenValue token publicKey := by
  refine ⟨h.parsed, h.product, h.issuer, ?_, h.signed, ?_⟩
  · unfold StoredLicense.publicKey
    rw [hkeys]
    exact h.key
  · rw [hfingerprint]
    exact h.bound

theorem cachedGenuine_licenseKey {key : Option String} :
    CachedGenuine cfg crypto { state with licenseKey := key } ↔ CachedGenuine cfg crypto state := by
  constructor
  · rintro ⟨tokenValue, token, publicKey, ht, hgenuine, hclaims⟩
    exact ⟨tokenValue, token, publicKey, ht, hgenuine.congr rfl rfl, hclaims⟩
  · rintro ⟨tokenValue, token, publicKey, ht, hgenuine, hclaims⟩
    exact ⟨tokenValue, token, publicKey, ht, hgenuine.congr rfl rfl, hclaims⟩

theorem gracedState_licenseKey {key : Option String} :
    (∀ graced, gracedState cfg { state with licenseKey := key } now = some graced →
      CachedGenuine cfg crypto graced) ↔
    ∀ graced, gracedState cfg state now = some graced → CachedGenuine cfg crypto graced := by
  have hsame : withinGracePeriod cfg { state with licenseKey := key } now =
      withinGracePeriod cfg state now := rfl
  unfold gracedState
  rw [hsame]
  split
  · simp only [Option.some.injEq, forall_eq']
    exact cachedGenuine_licenseKey
  · simp

/-- The branches that ask the server honour nothing but what it has issued, or the cached token
while it does not answer. -/
theorem sound_onlinePath_iff {requested : LicenseStatus} :
    (onlinePath cfg crypto io state requested).Sound cfg crypto ↔
      (hasLicenseKey cfg state && (io.server .validate).transportError) = true →
        ∀ graced, gracedState cfg state (io.clock .grace) = some graced →
          CachedGenuine cfg crypto graced := by
  unfold onlinePath
  by_cases hkey : hasLicenseKey cfg state = true
  · rw [if_pos hkey]
    dsimp only
    by_cases herror : (io.server .validate).transportError = true
    · rw [if_pos herror, sound_offlineFallback_iff, gracedState_licenseKey, hkey, herror]
      simp
    · have hother : (applyIssued cfg crypto io { state with licenseKey := state.key cfg }
          [.validate] (io.server .validate)).Sound cfg crypto := sound_applyIssued
      rw [if_neg herror]
      simp only [herror, Bool.and_false, Bool.false_eq_true, false_implies, iff_true]
      split
      · exact hother
      split
      · exact sound_activateAfter
      · exact sound_mapFailure
  · rw [if_neg hkey]
    simp only [hkey, Bool.false_and, Bool.false_eq_true, false_implies, iff_true]
    split
    · exact sound_refused rfl
    · exact sound_refused rfl

theorem sound_revalidate (h : verifyLocally cfg crypto state now = .ok check) :
    (revalidate cfg crypto io state check).Sound cfg crypto := by
  unfold revalidate
  split
  · dsimp only
    split
    · exact sound_local h
    split
    · exact sound_checked
    split
    · exact sound_refused rfl
    · exact sound_local h
  · exact sound_local h

theorem forall_ite_none {p : Prop} [Decidable p] {x : Option StoredLicense}
    {Q : StoredLicense → Prop} :
    (∀ a, (if p then x else none) = some a → Q a) ↔ (p → ∀ a, x = some a → Q a) := by
  by_cases hp : p
  · simp [hp]
  · simp [hp]

theorem status_of_verified (h : verifyLocally cfg crypto state now = .ok check)
    (hvalid : check.valid = true) : check.status = .valid := by
  rcases verifyLocally_cases h with ⟨hr, -⟩ | ⟨-, hv⟩
  · rw [hr.valid] at hvalid
    cases hvalid
  · exact hv.status

theorem no_token_of_notActivated (h : verifyLocally cfg crypto state now = .ok check)
    (hstatus : check.status = .notActivated) : truthy state.token = none := by
  rcases verifyLocally_cases h with ⟨-, hr⟩ | ⟨-, hv⟩
  · exact hr hstatus
  · rw [hv.status] at hstatus
    cases hstatus

theorem boot_iff (henabled : cfg.enabled = true) (stored : Option StoredLicense) :
    (boot cfg crypto io stored).Sound cfg crypto ↔
      ∀ state, graced cfg crypto io stored .boot = some state → CachedGenuine cfg crypto state := by
  unfold boot graced
  rw [if_pos henabled]
  dsimp only
  cases hlocal : verifyLocally cfg crypto (ensureFingerprint cfg io stored) (io.clock .local) with
  | error e => simp [Outcome.Sound]
  | ok check =>
    dsimp only
    by_cases hvalid : check.valid = true
    · have hstatus := status_of_verified hlocal hvalid
      rw [if_pos hvalid, hstatus]
      simp only [decide_false, reduceCtorEq, Bool.false_and, Bool.false_eq_true, if_false,
        false_implies, implies_true, iff_true]
      split
      · exact sound_revalidate hlocal
      · exact sound_local hlocal
    · rw [if_neg hvalid, forall_ite_none]
      by_cases hexpired : check.status = .expired
      · rw [if_neg (by simp [hexpired]), sound_onlinePath_iff, hexpired]
        simp
      · simp only [hexpired, decide_false, Bool.false_and, Bool.false_eq_true, false_implies,
          iff_true]
        split
        · exact sound_local hlocal
        · next hother =>
          -- without a token there is nothing to go on honouring
          have hnone : check.status = .notActivated := by
            by_contra hne
            exact hother ⟨hexpired, hne⟩
          have htoken := no_token_of_notActivated hlocal hnone
          rw [sound_onlinePath_iff]
          intro _ st hst
          unfold gracedState at hst
          rw [htoken] at hst
          cases hst

theorem validate_iff (stored : Option StoredLicense) :
    (validate cfg crypto io stored).Sound cfg crypto ↔
      ∀ state, graced cfg crypto io stored .validate = some state →
        CachedGenuine cfg crypto state := by
  unfold validate graced
  dsimp only
  rw [forall_ite_none]
  split
  · exact sound_onlinePath_iff
  · next hkey =>
    simp only [hkey, Bool.false_and, Bool.false_eq_true, false_implies, iff_true]
    exact sound_refused rfl

theorem heartbeat_iff (stored : Option StoredLicense) :
    (heartbeat cfg crypto io stored).Sound cfg crypto ↔
      ∀ state, graced cfg crypto io stored .heartbeat = some state →
        CachedGenuine cfg crypto state := by
  unfold heartbeat graced
  dsimp only
  rw [forall_ite_none]
  split
  · next hkey =>
    simp only [hkey, true_implies]
    split
    · exact sound_offlineFallback_iff
    split
    · cases hlocal : verifyLocally cfg crypto { ensureFingerprint cfg io stored with
          lastHeartbeatAt := some (io.clock .heartbeat) } (io.clock .local) with
      | error e => simp [Outcome.Sound]
      | ok check =>
        dsimp only
        rw [forall_ite_none]
        split
        · next hexpired =>
          simp only [hexpired, true_implies]
          exact sound_offlineFallback_iff
        · next hother =>
          simp only [hother, false_implies, iff_true]
          exact sound_local hlocal
    · simp only [reduceCtorEq, false_implies, implies_true, iff_true]
      split
      · exact sound_refused rfl
      · exact sound_checked
  · next hkey => exact ⟨fun _ h => absurd h hkey, fun _ => sound_refused rfl⟩

/-- **Honoured tokens**: whatever the store, the clock and the server, a call returns valid checks on
genuine tokens of the store alone if and only if the token it goes on honouring offline, where it
does, is genuine and its cached claims are its payload. -/
theorem valid_iff_genuine (cfg : Config) (crypto : Crypto) (io : Io)
    (stored : Option StoredLicense) (call : Check) (henabled : cfg.enabled = true) :
    (∀ check, (runCheck cfg crypto io stored call).result = .ok check → check.valid = true →
      ∃ state, (runCheck cfg crypto io stored call).stored = some state ∧
        Honoured cfg crypto state check) ↔
    ∀ state, graced cfg crypto io stored call = some state → CachedGenuine cfg crypto state := by
  cases call with
  | boot => exact boot_iff henabled stored
  | validate => exact validate_iff stored
  | heartbeat => exact heartbeat_iff stored
  | activate =>
    have hsound : (runCheck cfg crypto io stored .activate).Sound cfg crypto := sound_activateAfter
    exact ⟨fun _ _ h => (by cases h), fun _ => hsound⟩
  | activateKey key =>
    have hsound : (runCheck cfg crypto io stored (.activateKey key)).Sound cfg crypto :=
      sound_activated
    exact ⟨fun _ _ h => (by cases h), fun _ => hsound⟩

/-! A text that is no token, in the store of an installation whose server does not answer. -/

def forgedConfig : Config :=
  { product := "calmboard", licenseKey := some "KEY-1", deviceHashSecret := "secret" }

def noCrypto : Crypto :=
  { decodeJson := fun _ => none, verify := fun _ _ _ => false, hmacSha256 := fun _ _ => "" }

def forgedStore : StoredLicense :=
  { product := "calmboard", status := .valid, fingerprint := some "fp", token := some "forged"
    payload := some (.object [("plan", .string "enterprise")]), lastValidatedAt := some 1000 }

def unreachable : Io :=
  { server := fun _ => { ok := false, status := 0, transportError := true }
    clock := fun _ => 2000
    fingerprint := "fp" }

theorem forged_not_genuine (state : StoredLicense) (token : ParsedToken) (publicKey : String) :
    ¬ Genuine forgedConfig noCrypto state "forged" token publicKey := by
  intro h
  have hparsed : parseToken noCrypto "forged" = none := by rfl
  have := hparsed.symm.trans h.parsed
  cases this

theorem forged_withinGracePeriod : withinGracePeriod forgedConfig forgedStore 2000 = true := by
  decide +kernel

theorem forged_graced :
    graced forgedConfig noCrypto unreachable (some forgedStore) .validate = some forgedStore := by
  change gracedState forgedConfig forgedStore 2000 = some forgedStore
  unfold gracedState
  rw [forged_withinGracePeriod]
  rfl

theorem forged_validate :
    (runCheck forgedConfig noCrypto unreachable (some forgedStore) .validate).result =
      .ok (graceCheck (.object [("plan", .string "enterprise")]) "forged") := by
  change Except.ok (offlineFallback forgedConfig { forgedStore with licenseKey := some "KEY-1" }
    2000) = _
  have hgrace : withinGracePeriod forgedConfig { forgedStore with licenseKey := some "KEY-1" }
    2000 = true := forged_withinGracePeriod
  unfold offlineFallback
  rw [hgrace]
  rfl

/-- The equivalence at a forged token: neither side holds. -/
theorem valid_iff_genuine_forged :
    ¬ ∀ check, (runCheck forgedConfig noCrypto unreachable (some forgedStore) .validate).result =
        .ok check → check.valid = true →
      ∃ state, (runCheck forgedConfig noCrypto unreachable (some forgedStore) .validate).stored =
        some state ∧ Honoured forgedConfig noCrypto state check := by
  intro h
  have hcached := (valid_iff_genuine forgedConfig noCrypto unreachable (some forgedStore) .validate
    rfl).mp h _ forged_graced
  obtain ⟨tokenValue, token, publicKey, htoken, hgenuine, -⟩ := hcached
  cases htoken
  exact forged_not_genuine _ _ _ hgenuine

/-- While the server does not answer, `validate` honours a text that is no token. -/
theorem forged_token_honoured :
    ∃ check, (runCheck forgedConfig noCrypto unreachable (some forgedStore) .validate).result =
        .ok check ∧ check.valid = true ∧ check.status = .gracePeriod ∧
      ¬ ∃ state, (runCheck forgedConfig noCrypto unreachable (some forgedStore) .validate).stored =
        some state ∧ Honoured forgedConfig noCrypto state check := by
  refine ⟨graceCheck (.object [("plan", .string "enterprise")]) "forged", forged_validate,
    rfl, rfl, ?_⟩
  rintro ⟨state, -, tokenValue, token, publicKey, htoken, hgenuine, -⟩
  cases htoken
  exact forged_not_genuine _ _ _ hgenuine

end CalmBoard.Licensing
