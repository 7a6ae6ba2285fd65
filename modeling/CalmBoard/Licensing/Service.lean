import CalmBoard.Values

/-!
# CalmBoard.Licensing.Service — the license of an installation

* `verifyLocally`: what a stored token is checked for, without a server.
* `onlinePath`, `revalidate`, `offlineFallback`, `applyIssued`: what a call does with the answers.
* `boot`, `activate`, `activateKey`, `validate`, `heartbeat`, `deactivate`, `refreshKeys`.
-/

namespace CalmBoard.Licensing

inductive LicenseStatus where
  | valid | gracePeriod | graceExpired | notActivated | invalid | invalidToken | revoked | expired
  | offline | activationFailed | error
  deriving DecidableEq

/-- `LicenseCheck` -/
structure LicenseCheck where
  status : LicenseStatus
  reason : String
  claims : JsValue
  token : Option String
  valid : Bool
  grace : Bool

def validCheck (claims : JsValue) (token : String) : LicenseCheck :=
  { status := .valid, reason := "ok", claims, token := some token, valid := true, grace := false }

def failedCheck (status : LicenseStatus) (reason : String) : LicenseCheck :=
  { status, reason, claims := .object [], token := none, valid := false, grace := false }

def graceCheck (claims : JsValue) (token : String) : LicenseCheck :=
  { status := .gracePeriod, reason := "Offline grace period.", claims, token := some token
    valid := true, grace := true }

/-- `StoredLicense`; times are in seconds. -/
structure StoredLicense where
  product : String
  status : LicenseStatus
  licenseKey : Option String := none
  fingerprint : Option String := none
  token : Option String := none
  payload : Option JsValue := none
  publicKeys : Option (List (String × String)) := none
  activatedAt : Option ℚ := none
  lastHeartbeatAt : Option ℚ := none
  lastValidatedAt : Option ℚ := none

/-- `ServerResponse` -/
structure ServerResponse where
  ok : Bool
  status : ℤ
  data : JsObject := []
  code : Option String := none
  message : Option String := none
  transportError : Bool := false

/-- The options of a service. -/
structure Config where
  enabled : Bool := true
  product : String
  issuer : String := "licensehub"
  licenseKey : Option String := none
  deviceHashSecret : String
  graceSeconds : ℚ := 7 * 24 * 60 * 60
  revalidationIntervalSeconds : ℚ := 24 * 60 * 60

/-- The functions of `node:crypto` and the decoding of a token segment: `decodeJson` is `JSON.parse`
of its bytes, `verify` checks the signature of a segment over a text under a raw public key. -/
structure Crypto where
  decodeJson : String → Option JsValue
  verify : String → String → String → Bool
  hmacSha256 : String → String → String

/-- An exception that leaves a call. -/
inductive Thrown where
  | typeError

/-! ### Tokens -/

structure ParsedToken where
  header : JsValue
  payload : JsValue
  signatureInput : String
  signature : String

/-- `value.key`; there is none of `null` and `undefined`. -/
def property (value : JsValue) (key : String) : Except Thrown JsValue :=
  match value with
  | .null | .undefined => .error .typeError
  | .object fields => .ok ((JsObject.get? fields key).getD .undefined)
  | _ => .ok .undefined

/-- `token.split(".")` -/
def segments (token : String) : List String := (token.toList.splitOn '.').map String.ofList

def parseToken (crypto : Crypto) (token : String) : Option ParsedToken :=
  match segments token with
  | [headerB64, payloadB64, signatureB64] => do
    let header ← crypto.decodeJson headerB64
    let payload ← crypto.decodeJson payloadB64
    -- reading `header.kid` throws where the header is `null`
    let _ ← (property header "kid").toOption
    return { header, payload, signatureInput := headerB64 ++ "." ++ payloadB64
             signature := signatureB64 }
  | _ => none

/-- A text that is not empty. -/
def truthy (s : Option String) : Option String := s.filter fun s => s ≠ ""

def asString : JsValue → Option String
  | .string s => some s
  | _ => none

def isUndefined : JsValue → Bool
  | .undefined => true
  | _ => false

def ParsedToken.kid (t : ParsedToken) : Option String :=
  (property t.header "kid").toOption.bind asString

/-- `verifySignature`; another algorithm throws, which the caller treats as a failure. -/
def verifySignature (crypto : Crypto) (t : ParsedToken) (publicKey : String) : Bool :=
  (property t.header "alg").toOption.bind asString = some "EdDSA" &&
    crypto.verify t.signatureInput publicKey t.signature

variable (cfg : Config) (crypto : Crypto)

/-- The key of the keyring that a token names. -/
def StoredLicense.publicKey (state : StoredLicense) (t : ParsedToken) : Option String :=
  (truthy t.kid).bind fun kid =>
    truthy (state.publicKeys.bind fun keys => (keys.find? fun p => p.1 = kid).map Prod.snd)

/-- The expiration claim, when it is a finite number. -/
def expiration (exp : JsValue) : Option ℚ :=
  match exp with
  | .number (.fin q) => some q
  | _ => none

def verifyLocally (state : StoredLicense) (now : ℚ) : Except Thrown LicenseCheck :=
  match truthy state.token with
  | none => .ok (failedCheck .notActivated "This installation is not activated yet.")
  | some tokenValue =>
    match parseToken crypto tokenValue with
    | none => .ok (failedCheck .invalidToken "Stored token is malformed.")
    | some token => do
      let prd ← property token.payload "prd"
      if asString prd ≠ some cfg.product then
        return failedCheck .invalid "Token product does not match this installation."
      let iss ← property token.payload "iss"
      if isUndefined iss = false ∧ asString iss ≠ some cfg.issuer then
        return failedCheck .invalidToken "Token issuer does not match."
      match state.publicKey token with
      | none => return failedCheck .invalidToken "Unknown signing key (kid)."
      | some publicKey =>
        if !verifySignature crypto token publicKey then
          return failedCheck .invalidToken "Token signature is invalid."
        let exp ← property token.payload "exp"
        match expiration exp with
        | none => return failedCheck .invalidToken "Token is missing an expiration claim."
        | some exp =>
          if now ≥ exp then return failedCheck .expired "The token has expired."
          let devf ← property token.payload "devf"
          if asString devf ≠
              some (crypto.hmacSha256 (state.fingerprint.getD "") cfg.deviceHashSecret) then
            return failedCheck .invalidToken "Token is bound to a different device."
          return validCheck token.payload tokenValue

/-! ### Time windows -/

/-- The last contact with the server; a time that is 0 counts as none. -/
def StoredLicense.anchor (state : StoredLicense) : Option ℚ :=
  ((state.lastValidatedAt.or state.lastHeartbeatAt).or state.activatedAt).filter fun t => t ≠ 0

def withinGracePeriod (state : StoredLicense) (now : ℚ) : Bool :=
  0 < cfg.graceSeconds && state.anchor.any fun anchor => now - anchor ≤ cfg.graceSeconds

def revalidationDue (state : StoredLicense) (now : ℚ) : Bool :=
  0 < cfg.revalidationIntervalSeconds &&
    state.anchor.any fun anchor => now - anchor ≥ cfg.revalidationIntervalSeconds

/-- `state.payload ?? {}` -/
def StoredLicense.cachedClaims (state : StoredLicense) : JsValue :=
  match state.payload with
  | none | some .null | some .undefined => .object []
  | some payload => payload

def offlineFallback (state : StoredLicense) (now : ℚ) : LicenseCheck :=
  match truthy state.token with
  | some token =>
    if withinGracePeriod cfg state now then graceCheck state.cachedClaims token
    else
      failedCheck .graceExpired
        "License expired and the offline grace period has elapsed; revalidation requires a network connection."
  | none => failedCheck .offline "Cannot reach the license server; no cached license is available."

/-! ### Calls -/

inductive Request where
  | activate | validate | heartbeat | deactivate | keys
  deriving DecidableEq

/-- The places where a call reads the clock. -/
inductive Reading where
  | local | again | due | grace | activated | validated | heartbeat

/-- What a call meets: the answers of the server, its clock, and the fingerprint of the device. -/
structure Io where
  server : Request → ServerResponse
  clock : Reading → ℚ
  fingerprint : String

/-- What a call leaves: the store, the requests it has sent, and its result. -/
structure Outcome where
  stored : Option StoredLicense
  sent : List Request
  result : Except Thrown LicenseCheck

variable (io : Io)

def done (state : StoredLicense) (sent : List Request) (check : LicenseCheck) : Outcome :=
  { stored := some state, sent, result := .ok check }

/-- A check of the token in the store, after which the call ends. -/
def checked (state : StoredLicense) (sent : List Request) (now : ℚ) : Outcome :=
  { stored := some state, sent, result := verifyLocally cfg crypto state now }

def ensureFingerprint (stored : Option StoredLicense) : StoredLicense :=
  let state := stored.getD { product := cfg.product, status := .notActivated }
  { state with
    fingerprint := some ((truthy state.fingerprint).getD io.fingerprint), product := cfg.product }

/-- `state.licenseKey ?? this.licenseKey` -/
def StoredLicense.key (state : StoredLicense) : Option String := state.licenseKey.or cfg.licenseKey

def hasLicenseKey (state : StoredLicense) : Bool := (truthy (state.key cfg)).isSome

def ServerResponse.forbidden (response : ServerResponse) : Bool :=
  response.status = 403 || response.code = some "forbidden"

def revokedCheck : LicenseCheck := failedCheck .revoked "The license has been revoked or suspended."

def mapFailure (state : StoredLicense) (sent : List Request) (response : ServerResponse) : Outcome :=
  if response.forbidden then done { state with status := .revoked } sent revokedCheck
  else if response.status = 429 then
    done state sent (failedCheck .activationFailed "The license seat limit has been reached.")
  else
    done state sent (failedCheck .activationFailed
      (response.message.getD "The license server rejected the request."))

/-- The entries of `response.data.keys` as `for … of` goes through them. -/
def keyEntries : JsValue → Except Thrown (List JsValue)
  | .undefined | .null => .ok []
  | .array entries => .ok entries
  | .string s => .ok (s.toList.map fun ch => .string ch.toString)
  | _ => .error .typeError

/-- The keyring, entry by entry; an entry without a text for both is left out. -/
def keyring : List JsValue → Except Thrown (List (String × String))
  | [] => .ok []
  | entry :: entries => do
    let kid ← property entry "kid"
    let pub ← property entry "public_key"
    let rest ← keyring entries
    match asString kid, truthy (asString pub) with
    | some kid, some pub =>
      -- a later entry for the same key id wins
      if rest.any fun p => p.1 = kid then return rest else return (kid, pub) :: rest
    | _, _ => return rest

/-- `refreshKeys`: the state with its new keyring. -/
def fetchKeys (state : StoredLicense) : Except Thrown (Option StoredLicense) :=
  let response := io.server .keys
  if response.ok then do
    let entries ← keyEntries ((JsObject.get? response.data "keys").getD .undefined)
    let keys ← keyring entries
    if keys.isEmpty then return none
    return some { state with publicKeys := some keys }
  else .ok none

def applyIssued (state : StoredLicense) (sent : List Request) (response : ServerResponse) : Outcome :=
  match truthy ((JsObject.get? response.data "token").bind asString) with
  | none => done state sent (failedCheck .error "Server returned a success without a token.")
  | some tokenValue =>
    let issued : StoredLicense := { state with
      licenseKey := state.key cfg
      token := some tokenValue
      payload := ((parseToken crypto tokenValue).map ParsedToken.payload).or state.payload
      status := .valid
      activatedAt := state.activatedAt.or (some (io.clock .activated))
      lastValidatedAt := some (io.clock .validated) }
    match fetchKeys io issued with
    | .error e => { stored := some issued, sent := sent ++ [.keys], result := .error e }
    | .ok none => checked cfg crypto issued (sent ++ [.keys]) (io.clock .again)
    | .ok (some final) => checked cfg crypto final (sent ++ [.keys]) (io.clock .again)

/-- What follows the answer to an activation. -/
def activated (state : StoredLicense) (sent : List Request) : Outcome :=
  let response := io.server .activate
  if response.transportError then
    done state sent (failedCheck .offline "Cannot reach the license server.")
  else if response.ok then applyIssued cfg crypto io state sent response
  else mapFailure state sent response

def noLicenseKey : LicenseCheck :=
  failedCheck .notActivated "No license key is configured for this installation."

/-- `activate`, after the requests that were sent before. -/
def activateAfter (state : StoredLicense) (sent : List Request) : Outcome :=
  if hasLicenseKey cfg state then activated cfg crypto io state (sent ++ [.activate])
  else done state sent noLicenseKey

def activate (stored : Option StoredLicense) : Outcome :=
  activateAfter cfg crypto io (ensureFingerprint cfg io stored) []

def activateKey (licenseKey : String) (stored : Option StoredLicense) : Outcome :=
  activated cfg crypto io
    { ensureFingerprint cfg io stored with licenseKey := some licenseKey } [.activate]

def onlinePath (state : StoredLicense) (requested : LicenseStatus) : Outcome :=
  if hasLicenseKey cfg state then
    let state := { state with licenseKey := state.key cfg }
    let response := io.server .validate
    if response.transportError then
      done state [.validate] (offlineFallback cfg state (io.clock .grace))
    else if response.ok then applyIssued cfg crypto io state [.validate] response
    else if response.status = 404 || response.code = some "not_found" then
      activateAfter cfg crypto io state [.validate]
    else mapFailure state [.validate] response
  else if requested = .notActivated then done state [] noLicenseKey
  else
    done state [] (failedCheck .graceExpired
      "License expired and no license key is configured to revalidate.")

def revalidate (state : StoredLicense) (current : LicenseCheck) : Outcome :=
  if hasLicenseKey cfg state then
    let response := io.server .validate
    if response.transportError then done state [.validate] current
    else if response.ok then
      checked cfg crypto { state with lastValidatedAt := some (io.clock .validated) } [.validate]
        (io.clock .again)
    else if response.forbidden then done { state with status := .revoked } [.validate] revokedCheck
    else done state [.validate] current
  else done state [] current

def boot (stored : Option StoredLicense) : Outcome :=
  if cfg.enabled then
    let state := ensureFingerprint cfg io stored
    match verifyLocally cfg crypto state (io.clock .local) with
    | .error e => { stored := some state, sent := [], result := .error e }
    | .ok check =>
      if check.valid then
        if revalidationDue cfg state (io.clock .due) then revalidate cfg crypto io state check
        else done state [] check
      else if check.status ≠ .expired ∧ check.status ≠ .notActivated then done state [] check
      else onlinePath cfg crypto io state check.status
  else { stored, sent := [], result := .ok (validCheck (.object []) "") }

def validate (stored : Option StoredLicense) : Outcome :=
  let state := ensureFingerprint cfg io stored
  if hasLicenseKey cfg state then onlinePath cfg crypto io state .notActivated
  else done state [] noLicenseKey

def heartbeat (stored : Option StoredLicense) : Outcome :=
  let state := ensureFingerprint cfg io stored
  if hasLicenseKey cfg state then
    let response := io.server .heartbeat
    if response.transportError then
      done state [.heartbeat] (offlineFallback cfg state (io.clock .grace))
    else if response.ok then
      let state := { state with lastHeartbeatAt := some (io.clock .heartbeat) }
      match verifyLocally cfg crypto state (io.clock .local) with
      | .error e => { stored := some state, sent := [.heartbeat], result := .error e }
      | .ok check =>
        if check.status = .expired then
          done state [.heartbeat] (offlineFallback cfg state (io.clock .grace))
        else done state [.heartbeat] check
    else if response.forbidden then done { state with status := .revoked } [.heartbeat] revokedCheck
    else checked cfg crypto state [.heartbeat] (io.clock .local)
  else done state [] noLicenseKey

/-- The store after `deactivate`, and the requests it has sent. -/
def deactivate (stored : Option StoredLicense) : Option StoredLicense × List Request :=
  match stored with
  | none => (none, [])
  | some state =>
    if (truthy state.licenseKey).isSome && (truthy state.fingerprint).isSome then
      (some { product := cfg.product, status := .notActivated, fingerprint := state.fingerprint
              publicKeys := state.publicKeys }, [.deactivate])
    else (some state, [])

/-- The store after `refreshKeys`. -/
def refreshKeys (stored : Option StoredLicense) : StoredLicense :=
  let state := ensureFingerprint cfg io stored
  match fetchKeys io state with
  | .ok (some state') => state'
  | _ => state

/-- The calls that return a check. -/
inductive Check where
  | boot | validate | heartbeat | activate
  | activateKey (licenseKey : String)

def runCheck (stored : Option StoredLicense) : Check → Outcome
  | .boot => boot cfg crypto io stored
  | .validate => validate cfg crypto io stored
  | .heartbeat => heartbeat cfg crypto io stored
  | .activate => activate cfg crypto io stored
  | .activateKey licenseKey => activateKey cfg crypto io licenseKey stored

end CalmBoard.Licensing
