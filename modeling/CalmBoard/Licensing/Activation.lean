import CalmBoard.Licensing.Runs

/-!
# CalmBoard.Licensing.Activation — an activation that fails

`activateKey` writes the new key into the store before it asks the server.

* `Server`, `bootAt`: a later boot, whose answers may depend on the key that is sent.
* `boot_alike`: a boot reads neither the status nor a key that is not sent.
* `activateKey_failed`: without a token from the server only the key has changed; a token that does
  not verify stays, and is refused again.
-/

namespace CalmBoard.Licensing

open Fallible

/-! ### A later boot -/

/-- How the server answers a request with a license key and a fingerprint. -/
abbrev Server := Request → Option String → String → ServerResponse

/-- The answers that an installation gets; the keyring is asked for without a license key. -/
def Server.answers (server : Server) (cfg : Config) (state : StoredLicense) : Request → ServerResponse
  | .keys => server .keys none ""
  | request => server request (truthy (state.key cfg)) (state.fingerprint.getD "")

/-- What an installation meets: the server, a clock and the fingerprint of the device. -/
def Server.io (server : Server) (cfg : Config) (clock : Reading → ℚ) (fingerprint : String)
    (stored : Option StoredLicense) : Io :=
  let unasked : Io := { server := fun r => server r none "", clock, fingerprint }
  { unasked with server := server.answers cfg (ensureFingerprint cfg unasked stored) }

/-- What `boot` returns. -/
def bootAt (cfg : Config) (crypto : Crypto) (server : Server) (clock : Reading → ℚ)
    (fingerprint : String) (stored : Option StoredLicense) : Except Thrown LicenseCheck :=
  (boot cfg crypto (server.io cfg clock fingerprint stored) stored).result

/-- The token that the answer to an activation brings. -/
def issuedToken (io : Io) : Option String :=
  let response := io.server .activate
  if response.transportError || !response.ok then none
  else truthy ((JsObject.get? response.data "token").bind asString)

def withKey (cfg : Config) (licenseKey : String) (stored : Option StoredLicense) : StoredLicense :=
  { stored.getD { product := cfg.product, status := .notActivated } with licenseKey := some licenseKey }

def keyInUse (cfg : Config) (stored : Option StoredLicense) : Option String :=
  truthy ((stored.bind StoredLicense.licenseKey).or cfg.licenseKey)

variable {cfg : Config} {crypto : Crypto} {io : Io} {state state' : StoredLicense} {now : ℚ}
  {stored stored' : Option StoredLicense}

/-! ### What a boot does not read -/

variable {check : LicenseCheck} {sent : List Request}

/-- The states differ at most in the status and in how the same license key is stored. -/
def Alike (cfg : Config) (state state' : StoredLicense) : Prop :=
  (∃ key status, state' = { state with licenseKey := key, status }) ∧
    truthy (state'.key cfg) = truthy (state.key cfg)

theorem Alike.hasLicenseKey (h : Alike cfg state state') :
    hasLicenseKey cfg state' = hasLicenseKey cfg state := by
  rw [Licensing.hasLicenseKey, Licensing.hasLicenseKey, h.2]

theorem Alike.verifyLocally (h : Alike cfg state state') :
    verifyLocally cfg crypto state' now = verifyLocally cfg crypto state now := by
  obtain ⟨⟨key, status, rfl⟩, -⟩ := h
  rfl

theorem Alike.revalidationDue (h : Alike cfg state state') :
    revalidationDue cfg state' now = revalidationDue cfg state now := by
  obtain ⟨⟨key, status, rfl⟩, -⟩ := h
  rfl

theorem Alike.offlineFallback (h : Alike cfg state state') :
    offlineFallback cfg state' now = offlineFallback cfg state now := by
  obtain ⟨⟨key, status, rfl⟩, -⟩ := h
  rfl

theorem Alike.keyed (h : Alike cfg state state') :
    Alike cfg { state with licenseKey := state.key cfg }
      { state' with licenseKey := state'.key cfg } := by
  have hsame : ∀ s : StoredLicense,
      StoredLicense.key cfg { s with licenseKey := s.key cfg } = s.key cfg := by
    intro s
    simp only [StoredLicense.key, Option.or_assoc, Option.or_self]
  refine ⟨?_, by rw [hsame, hsame, h.2]⟩
  obtain ⟨⟨key, status, rfl⟩, -⟩ := h
  exact ⟨_, status, rfl⟩

theorem fetchKeys_eq (io : Io) : ∃ fetched : Except Thrown (Option (List (String × String))),
    ∀ s, fetchKeys io s = match fetched with
      | .error e => .error e
      | .ok none => .ok none
      | .ok (some keys) => .ok (some { s with publicKeys := some keys }) := by
  unfold fetchKeys
  by_cases hok : (io.server .keys).ok = true
  · simp only [if_pos hok]
    cases hentries : keyEntries ((JsObject.get? (io.server .keys).data "keys").getD .undefined) with
    | error e => exact ⟨.error e, fun s => rfl⟩
    | ok entries =>
      show ∃ fetched : Except Thrown (Option (List (String × String))), ∀ s : StoredLicense,
        (keyring entries >>= fun keys => if keys.isEmpty = true then pure none
          else pure (some { s with publicKeys := some keys })) = _
      cases keyring entries with
      | error e => exact ⟨.error e, fun s => rfl⟩
      | ok keys =>
        by_cases hempty : keys.isEmpty = true
        · exact ⟨.ok none, fun s => if_pos hempty⟩
        · exact ⟨.ok (some keys), fun s => if_neg hempty⟩
  · exact ⟨.ok none, fun s => if_neg hok⟩

theorem applyIssued_alike (h : Alike cfg state state') {response : ServerResponse} :
    (applyIssued cfg crypto io state' sent response).result =
      (applyIssued cfg crypto io state sent response).result := by
  obtain ⟨⟨key, status, rfl⟩, -⟩ := h
  obtain ⟨fetched, hfetched⟩ := fetchKeys_eq io
  unfold applyIssued
  cases truthy ((JsObject.get? response.data "token").bind asString) with
  | none => rfl
  | some tokenValue =>
    simp only [hfetched]
    cases fetched with
    | error e => rfl
    | ok keys => cases keys <;> rfl

theorem mapFailure_result {response : ServerResponse} :
    (mapFailure state' sent response).result = (mapFailure state sent response).result := by
  unfold mapFailure
  split
  · rfl
  · split <;> rfl

theorem activateAfter_alike (h : Alike cfg state state') :
    (activateAfter cfg crypto io state' sent).result =
      (activateAfter cfg crypto io state sent).result := by
  unfold activateAfter activated
  rw [h.hasLicenseKey]
  by_cases hkey : hasLicenseKey cfg state = true
  · rw [if_pos hkey, if_pos hkey]
    by_cases htransport : (io.server .activate).transportError = true
    · rw [if_pos htransport, if_pos htransport]
      rfl
    · rw [if_neg htransport, if_neg htransport]
      by_cases hok : (io.server .activate).ok = true
      · rw [if_pos hok, if_pos hok, applyIssued_alike h]
      · rw [if_neg hok, if_neg hok, mapFailure_result]
  · rw [if_neg hkey, if_neg hkey]
    rfl

theorem onlinePath_alike (h : Alike cfg state state') {requested : LicenseStatus} :
    (onlinePath cfg crypto io state' requested).result =
      (onlinePath cfg crypto io state requested).result := by
  unfold onlinePath
  rw [h.hasLicenseKey]
  by_cases hkey : hasLicenseKey cfg state = true
  · rw [if_pos hkey, if_pos hkey]
    simp only []
    by_cases htransport : (io.server .validate).transportError = true
    · rw [if_pos htransport, if_pos htransport, done, done, h.keyed.offlineFallback]
    · rw [if_neg htransport, if_neg htransport]
      by_cases hok : (io.server .validate).ok = true
      · rw [if_pos hok, if_pos hok, applyIssued_alike h.keyed]
      · rw [if_neg hok, if_neg hok]
        split
        · exact activateAfter_alike h.keyed
        · exact mapFailure_result
  · rw [if_neg hkey, if_neg hkey]
    split <;> rfl

theorem revalidate_alike (h : Alike cfg state state') :
    (revalidate cfg crypto io state' check).result =
      (revalidate cfg crypto io state check).result := by
  unfold revalidate
  rw [h.hasLicenseKey]
  by_cases hkey : hasLicenseKey cfg state = true
  · rw [if_pos hkey, if_pos hkey]
    simp only []
    by_cases htransport : (io.server .validate).transportError = true
    · rw [if_pos htransport, if_pos htransport]
      rfl
    · rw [if_neg htransport, if_neg htransport]
      by_cases hok : (io.server .validate).ok = true
      · rw [if_pos hok, if_pos hok]
        obtain ⟨⟨key, status, rfl⟩, -⟩ := h
        rfl
      · rw [if_neg hok, if_neg hok]
        split <;> rfl
  · rw [if_neg hkey, if_neg hkey]
    rfl

/-- **A boot reads** neither the status nor a license key that is not sent. -/
theorem boot_alike (h : Alike cfg (ensureFingerprint cfg io stored) (ensureFingerprint cfg io stored')) :
    (boot cfg crypto io stored').result = (boot cfg crypto io stored).result := by
  unfold boot
  by_cases henabled : cfg.enabled = true
  · rw [if_pos henabled, if_pos henabled]
    simp only []
    rw [h.verifyLocally, h.revalidationDue]
    cases verifyLocally cfg crypto (ensureFingerprint cfg io stored) (io.clock .local) with
    | error e => rfl
    | ok check =>
      simp only []
      by_cases hvalid : check.valid = true
      · rw [if_pos hvalid, if_pos hvalid]
        split
        · exact revalidate_alike h
        · rfl
      · rw [if_neg hvalid, if_neg hvalid]
        split
        · rfl
        · exact onlinePath_alike h
  · rw [if_neg henabled, if_neg henabled]

/-! ### A token that does not verify -/

def expiredCheck : LicenseCheck := failedCheck .expired "The token has expired."

/-- The clock matters for the expiry only. -/
def ByTime (f : ℚ → Except Thrown LicenseCheck) : Prop :=
  (∃ r, ∀ now, f now = r) ∨ ∃ exp r, ∀ now, f now = if now ≥ exp then .ok expiredCheck else r

theorem byTime_const (r : Except Thrown LicenseCheck) : ByTime fun _ => r :=
  .inl ⟨r, fun _ => rfl⟩

theorem byTime_bind {α : Type} {x : Except Thrown α} {f : α → ℚ → Except Thrown LicenseCheck}
    (h : ∀ a, ByTime (f a)) : ByTime fun now => x >>= fun a => f a now := by
  cases x with
  | error e => exact byTime_const (.error e)
  | ok a => exact h a

theorem byTime_ite {p : Prop} [Decidable p] {r : Except Thrown LicenseCheck}
    {f : ℚ → Except Thrown LicenseCheck} (h : ByTime f) : ByTime fun now => if p then r else f now := by
  by_cases hp : p
  · simp only [if_pos hp]
    exact byTime_const r
  · simp only [if_neg hp]
    exact h

theorem verifyLocally_byTime (cfg : Config) (crypto : Crypto) (state : StoredLicense) :
    ByTime (verifyLocally cfg crypto state) := by
  show ByTime fun now => verifyLocally cfg crypto state now
  unfold verifyLocally
  cases truthy state.token with
  | none => exact byTime_const _
  | some tokenValue =>
    dsimp only
    cases parseToken crypto tokenValue with
    | none => exact byTime_const _
    | some token =>
      dsimp only
      refine byTime_bind fun prd => byTime_ite (byTime_bind fun iss => byTime_ite ?_)
      cases state.publicKey token with
      | none => exact byTime_const _
      | some publicKey =>
        dsimp only
        refine byTime_ite (byTime_bind fun value => ?_)
        cases expiration value with
        | none => exact byTime_const _
        | some exp => exact .inr ⟨exp, _, fun now => rfl⟩

/-- A failure other than the expiry is found again at any time, unless the token has expired by
then. -/
theorem verifyLocally_again (h : verifyLocally cfg crypto state now = .ok check)
    (hstatus : check.status ≠ .expired) (later : ℚ) :
    verifyLocally cfg crypto state later = .ok check ∨
      verifyLocally cfg crypto state later = .ok expiredCheck := by
  rcases verifyLocally_byTime cfg crypto state with ⟨r, hr⟩ | ⟨exp, r, hr⟩
  · left
    rw [hr later, ← hr now, h]
  · rw [hr now] at h
    rw [hr later]
    have hnow : ¬ now ≥ exp := by
      intro hexp
      rw [if_pos hexp] at h
      cases h
      exact hstatus rfl
    rw [if_neg hnow] at h
    by_cases hlater : later ≥ exp
    · exact .inr (if_pos hlater)
    · exact .inl ((if_neg hlater).trans h)

/-! ### After a failed activation -/

theorem truthy_some (s : String) : truthy (some s) = if s = "" then none else some s := by
  unfold truthy
  rw [Option.filter_some]
  by_cases hs : s = "" <;> simp [hs]

theorem truthy_getD (o : Option String) (s : String) :
    (truthy (some ((truthy o).getD s))).getD s = (truthy o).getD s := by
  have hsome : ∀ x, (truthy (some x)).getD s = if x = "" then s else x := by
    intro x
    rw [truthy_some]
    split <;> rfl
  cases o with
  | none =>
    show (truthy (some s)).getD s = s
    rw [hsome]
    split <;> rfl
  | some x =>
    rw [hsome x]
    by_cases hx : x = ""
    · rw [if_pos hx, hsome]
      split <;> rfl
    · rw [if_neg hx, hsome, if_neg hx]

theorem ensureFingerprint_again {io io' : Io} (h : io'.fingerprint = io.fingerprint)
    (state : StoredLicense)
    (hstate : state.fingerprint = (ensureFingerprint cfg io stored).fingerprint)
    (hproduct : state.product = cfg.product) : ensureFingerprint cfg io' (some state) = state := by
  obtain ⟨product, status, licenseKey, fingerprint, token, payload, keys, a, b, c⟩ := state
  obtain rfl : product = cfg.product := hproduct
  obtain rfl : fingerprint = _ := hstate
  have hfingerprint : some ((truthy (ensureFingerprint cfg io stored).fingerprint).getD
      io'.fingerprint) = (ensureFingerprint cfg io stored).fingerprint := by
    simp only [ensureFingerprint, h, truthy_getD]
  rw [ensureFingerprint, Option.getD_some, hfingerprint]

theorem bootAt_alike {server : Server} {clock : Reading → ℚ} {fingerprint : String}
    (h : ∀ io : Io, io.fingerprint = fingerprint →
      Alike cfg (ensureFingerprint cfg io stored) (ensureFingerprint cfg io stored')) :
    bootAt cfg crypto server clock fingerprint stored' =
      bootAt cfg crypto server clock fingerprint stored := by
  have hio : server.io cfg clock fingerprint stored' = server.io cfg clock fingerprint stored := by
    obtain ⟨⟨key, status, hsame⟩, hkey⟩ :=
      h { server := fun r => server r none "", clock, fingerprint } rfl
    have hanswers : server.answers cfg (ensureFingerprint cfg
          { server := fun r => server r none "", clock, fingerprint } stored') =
        server.answers cfg (ensureFingerprint cfg
          { server := fun r => server r none "", clock, fingerprint } stored) := by
      funext r
      cases r with
      | keys => rfl
      | activate | validate | heartbeat | deactivate =>
        simp only [Server.answers, hkey]
        rw [hsame]
    simp only [Server.io, hanswers]
  unfold bootAt
  rw [hio]
  exact boot_alike (h _ rfl)

theorem issuedToken_ne {token : String} (h : issuedToken io = some token) : token ≠ "" := by
  unfold issuedToken at h
  simp only [] at h
  split at h
  · cases h
  · simpa using (Option.filter_eq_some_iff.mp h).2

theorem activateKey_without_token {licenseKey : String} (h : issuedToken io = none) :
    ∃ status, (activateKey cfg crypto io licenseKey stored).stored =
      some { ensureFingerprint cfg io stored with licenseKey := some licenseKey, status } := by
  unfold activateKey activated
  unfold issuedToken at h
  simp only [] at h ⊢
  by_cases htransport : (io.server .activate).transportError = true
  · rw [if_pos htransport]
    exact ⟨_, rfl⟩
  rw [if_neg htransport]
  by_cases hok : (io.server .activate).ok = true
  · rw [if_pos hok]
    rw [if_neg (by simp [htransport, hok])] at h
    simp only [applyIssued, h]
    exact ⟨_, rfl⟩
  · rw [if_neg hok]
    unfold mapFailure
    split
    · exact ⟨.revoked, rfl⟩
    · split <;> exact ⟨_, rfl⟩

theorem activateKey_with_token {licenseKey token : String} (h : issuedToken io = some token) :
    ∃ s, (activateKey cfg crypto io licenseKey stored).stored = some s ∧ s.token = some token ∧
      s.fingerprint = (ensureFingerprint cfg io stored).fingerprint ∧ s.product = cfg.product ∧
      ∀ check, (activateKey cfg crypto io licenseKey stored).result = .ok check →
        verifyLocally cfg crypto s (io.clock .again) = .ok check := by
  unfold activateKey activated
  unfold issuedToken at h
  simp only [] at h ⊢
  by_cases hsome : (io.server .activate).transportError = true ∨ ¬ (io.server .activate).ok = true
  · rw [if_pos (by simpa using hsome)] at h
    cases h
  obtain ⟨htransport, hok⟩ := not_or.mp hsome
  rw [if_neg htransport, if_pos (not_not.mp hok)]
  rw [if_neg (by simpa using hsome)] at h
  simp only [applyIssued, h]
  obtain ⟨fetched, hfetched⟩ := fetchKeys_eq io
  simp only [hfetched]
  cases fetched with
  | error e => exact ⟨_, rfl, rfl, rfl, rfl, fun check hcheck => by cases hcheck⟩
  | ok keys =>
    cases keys with
    | none => exact ⟨_, rfl, rfl, rfl, rfl, fun check hcheck => hcheck⟩
    | some keys => exact ⟨_, rfl, rfl, rfl, rfl, fun check hcheck => hcheck⟩

theorem bootAt_refused (henabled : cfg.enabled = true) {server : Server} {clock : Reading → ℚ}
    {fingerprint : String}
    (hstate : ∀ io : Io, io.fingerprint = fingerprint → ensureFingerprint cfg io (some state) = state)
    (hlocal : verifyLocally cfg crypto state (clock .local) = .ok check)
    (hvalid : check.valid = false) (hexpired : check.status ≠ .expired)
    (hactivated : check.status ≠ .notActivated) :
    bootAt cfg crypto server clock fingerprint (some state) = .ok check := by
  have hclock : (server.io cfg clock fingerprint (some state)).clock .local = clock .local := rfl
  unfold bootAt boot
  rw [if_pos henabled, hstate _ rfl]
  simp only [hclock, hlocal, hvalid, Bool.false_eq_true, if_false]
  rw [if_pos ⟨hexpired, hactivated⟩]
  rfl

/-- **A failed activation**: where the server has issued no token, later boots return what they would
return if the key alone had been written, and if it is the key in use already, what they would return
without the call.  Where it has issued a token that does not verify, later boots refuse it in the
same way, until it has expired. -/
theorem activateKey_failed (cfg : Config) (crypto : Crypto) (io : Io) (licenseKey : String)
    (stored : Option StoredLicense)
    (hfailed : (activateKey cfg crypto io licenseKey stored).result.toOption.any LicenseCheck.valid =
      false) (server : Server) (clock : Reading → ℚ) :
    (issuedToken io = none →
      bootAt cfg crypto server clock io.fingerprint
          (activateKey cfg crypto io licenseKey stored).stored =
        bootAt cfg crypto server clock io.fingerprint (some (withKey cfg licenseKey stored)) ∧
      (truthy (some licenseKey) = keyInUse cfg stored →
        bootAt cfg crypto server clock io.fingerprint
            (activateKey cfg crypto io licenseKey stored).stored =
          bootAt cfg crypto server clock io.fingerprint stored)) ∧
    ∀ token check, issuedToken io = some token → cfg.enabled = true →
      (activateKey cfg crypto io licenseKey stored).result = .ok check → check.status ≠ .expired →
        ∃ s, (activateKey cfg crypto io licenseKey stored).stored = some s ∧ s.token = some token ∧
          (bootAt cfg crypto server clock io.fingerprint (some s) = .ok check ∨
            verifyLocally cfg crypto s (clock .local) = .ok expiredCheck) := by
  have hsame : ∀ io' : Io, io'.fingerprint = io.fingerprint →
      ensureFingerprint cfg io' stored = ensureFingerprint cfg io stored := by
    intro io' h
    simp only [ensureFingerprint, h]
  refine ⟨fun hnone => ?_, fun token check htoken henabled hresult hexpired => ?_⟩
  · obtain ⟨status, hstored⟩ := activateKey_without_token hnone
    rw [hstored]
    have hagain : ∀ io' : Io, io'.fingerprint = io.fingerprint → ensureFingerprint cfg io'
        (some { ensureFingerprint cfg io stored with licenseKey := some licenseKey, status }) =
          { ensureFingerprint cfg io stored with licenseKey := some licenseKey, status } :=
      fun io' h => ensureFingerprint_again h _ rfl rfl
    refine ⟨bootAt_alike fun io' h => ?_, fun hkey => bootAt_alike fun io' h => ?_⟩
    · have hwith : ensureFingerprint cfg io' (some (withKey cfg licenseKey stored)) =
          { ensureFingerprint cfg io stored with licenseKey := some licenseKey } := by
        rw [← hsame io' h]
        rfl
      rw [hagain io' h, hwith]
      exact ⟨⟨_, _, rfl⟩, rfl⟩
    · rw [hagain io' h, hsame io' h]
      refine ⟨⟨_, _, rfl⟩, ?_⟩
      show truthy (some licenseKey) = _
      rw [hkey, keyInUse]
      cases stored with
      | none => rfl
      | some s => rfl
  · obtain ⟨s, hstored, hs, hfingerprint, hproduct, hcheck⟩ := activateKey_with_token htoken
    refine ⟨s, hstored, hs, ?_⟩
    have hlocal := hcheck check hresult
    have hvalid : check.valid = false := by
      rw [hresult] at hfailed
      exact hfailed
    rcases verifyLocally_again hlocal hexpired (clock .local) with hsame' | hexpired'
    · refine .inl (bootAt_refused henabled (fun io' h => ?_) hsame' hvalid hexpired fun hstatus => ?_)
      · exact ensureFingerprint_again h s hfingerprint hproduct
      · -- a token is stored
        have hno := no_token_of_notActivated hlocal hstatus
        rw [hs, truthy_some, if_neg (issuedToken_ne htoken)] at hno
        cases hno
    · exact .inr hexpired'

/-- Without a connection the key in use is entered again. -/
theorem activateKey_failed_offline :
    bootAt forgedConfig sampleCrypto (fun _ _ _ => { ok := true, status := 200 }) (fun _ => 90000) "fp"
        (activateKey forgedConfig sampleCrypto unreachable "KEY-1" (some activeStore)).stored =
      bootAt forgedConfig sampleCrypto (fun _ _ _ => { ok := true, status := 200 }) (fun _ => 90000) "fp"
        (some activeStore) :=
  ((activateKey_failed forgedConfig sampleCrypto unreachable "KEY-1" (some activeStore)
    (by decide) (fun _ _ _ => { ok := true, status := 200 }) (fun _ => 90000)).1
      (by decide)).2 (by decide)

def oneKeyServer : Server := fun _ licenseKey _ =>
  if licenseKey = some "KEY-1" then { ok := true, status := 200 }
  else { ok := false, status := 403, code := some "forbidden" }

/-- A server whose tokens are no tokens. -/
def brokenServer : Io :=
  { server := fun _ => { ok := true, status := 200, data := [("token", .string "broken")] }
    clock := fun _ => 2000
    fingerprint := "fp" }

/-- A new key that could not be tried is sent by later boots, and a token that does not verify takes
the place of one that does. -/
theorem activateKey_changes :
    ¬ (∀ (cfg : Config) (crypto : Crypto) (io : Io) (licenseKey : String)
      (stored : Option StoredLicense),
      (activateKey cfg crypto io licenseKey stored).result.toOption.any LicenseCheck.valid = false →
        ∀ (server : Server) (clock : Reading → ℚ),
          bootAt cfg crypto server clock io.fingerprint
              (activateKey cfg crypto io licenseKey stored).stored =
            bootAt cfg crypto server clock io.fingerprint stored) ∧
    (activateKey forgedConfig sampleCrypto brokenServer "KEY-1"
      (some activeStore)).result.toOption.any LicenseCheck.valid = false ∧
    bootAt forgedConfig sampleCrypto oneKeyServer (fun _ => 90000) "fp"
        (activateKey forgedConfig sampleCrypto brokenServer "KEY-1" (some activeStore)).stored ≠
      bootAt forgedConfig sampleCrypto oneKeyServer (fun _ => 90000) "fp" (some activeStore) := by
  have hbefore : (bootAt forgedConfig sampleCrypto oneKeyServer (fun _ => 90000) "fp"
      (some activeStore)).toOption.any LicenseCheck.valid = true := by decide +kernel
  refine ⟨fun h => ?_, by decide, fun h => ?_⟩
  · have hsame := h forgedConfig sampleCrypto unreachable "KEY-2" (some activeStore)
      (by decide) oneKeyServer fun _ => 90000
    have hafter : (bootAt forgedConfig sampleCrypto oneKeyServer (fun _ => 90000) "fp"
        (activateKey forgedConfig sampleCrypto unreachable "KEY-2"
          (some activeStore)).stored).toOption.any LicenseCheck.valid = false := by decide +kernel
    have hfingerprint : unreachable.fingerprint = "fp" := rfl
    rw [hfingerprint] at hsame
    rw [hsame, hbefore] at hafter
    cases hafter
  · have hafter : (bootAt forgedConfig sampleCrypto oneKeyServer (fun _ => 90000) "fp"
        (activateKey forgedConfig sampleCrypto brokenServer "KEY-1"
          (some activeStore)).stored).toOption.any LicenseCheck.valid = false := by decide
    rw [h, hbefore] at hafter
    cases hafter

end CalmBoard.Licensing
