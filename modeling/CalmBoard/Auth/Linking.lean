import CalmBoard.Auth.Logins
import CalmBoard.Auth.RefreshTokens
import CalmBoard.Auth.Tokens

/-!
# CalmBoard.Auth.Linking — accounts and the parties that have set up access to them

The rows are labelled with who has set them up: who chose a password, linked a provider, and with
whose credential a session was opened.

* `register`, `login`, `refresh`, `verifyEmail`, `resetPassword`, `oauthLogin`: the calls.
* `exec`: a call of some party, after some time.
-/

namespace CalmBoard.Linking

open Logins (LifecycleState)
open Tokens (AuthToken AuthTokenPurpose)

/-! ### The tables -/

inductive OAuthProvider where
  | google | microsoft
  deriving DecidableEq

structure OAuthProfile where
  provider : OAuthProvider
  subject : String
  email : String
  emailVerified : Bool

/-- `users`; `setUpBy` chose the password. -/
structure UserRow (π : Type) where
  id : Uuid
  email : String
  passwordHash : Option String
  emailVerifiedAt : Option ℤ := none
  lifecycleState : LifecycleState := .active
  failedLoginAttempts : ℕ := 0
  lockedUntil : Option ℤ := none
  setUpBy : π

/-- `oauth_identities`; `setUpBy` was logged in at the provider when the row was inserted. -/
structure IdentityRow (π : Type) where
  id : Uuid
  userId : Uuid
  provider : OAuthProvider
  providerSubject : String
  setUpBy : π

/-- `user_sessions`; `setUpBy` had set up the password or identity that it was opened with, and
`holders` have been given tokens of it. -/
structure SessionRow (π : Type) where
  id : Uuid
  userId : Uuid
  expiresAt : ℤ
  revokedAt : Option ℤ := none
  setUpBy : π
  holders : List π

/-- `linked` are the accounts that a login by a provider has been linked to before their e-mail was
verified. -/
structure Store (π : Type) where
  now : ℤ := 0
  users : Table (UserRow π) UserRow.id := Table.empty
  /-- users with an enabled factor -/
  mfaUsers : List Uuid := []
  identities : Table (IdentityRow π) IdentityRow.id := Table.empty
  sessions : Table (SessionRow π) SessionRow.id := Table.empty
  refreshTokens : Table Auth.RefreshToken Auth.RefreshToken.id := Table.empty
  authTokens : Table AuthToken AuthToken.tokenHash := Table.empty
  linked : List Uuid := []

/-- `toLowerCase`, the check of a password, and the hashes of tokens. -/
structure Runtime where
  lower : String → String
  verify : String → String → Bool
  hashRefreshToken : String → String
  hashAuthToken : String → String

/-- What a call takes from outside: the time since the last one, and the ids and tokens of new
rows. -/
structure Io where
  elapsed : ℕ := 0
  userId : Uuid := 0
  identityId : Uuid := 0
  sessionId : Uuid := 0
  tokenId : Uuid := 0
  refreshToken : String := ""
  authToken : String := ""

inductive Answer where
  | signedIn (userId sessionId : Uuid)
  | requiresMfa
  | ok
  | unauthorized | locked | conflict | invalidLink | failed

inductive Call where
  /-- a password comes with its hash where it is chosen -/
  | register (email passwordHash : String)
  | login (email password : String)
  | refresh (refreshToken : String)
  | requestEmailVerification (email : String)
  | verifyEmail (token : String)
  | forgotPassword (email : String)
  | resetPassword (token passwordHash : String)
  | oauthLogin (profile : OAuthProfile)

structure Event (π : Type) where
  party : π
  call : Call
  io : Io := {}

variable {π : Type} (rt : Runtime)

/-! ### Statements -/

def Store.findByEmail (s : Store π) (email : String) : Option (UserRow π) :=
  s.users.rows.find? fun u => u.email = rt.lower email

def Store.findByProviderSubject (s : Store π) (profile : OAuthProfile) : Option (IdentityRow π) :=
  s.identities.rows.find? fun i =>
    i.provider = profile.provider && i.providerSubject = profile.subject

def Store.setUser (s : Store π) (userId : Uuid) (f : UserRow π → UserRow π)
    (hf : ∀ u, (f u).id = u.id) : Store π :=
  { s with users := s.users.update (fun u => u.id = userId) f hf }

def Store.setSessions (s : Store π) (p : SessionRow π → Bool) (f : SessionRow π → SessionRow π)
    (hf : ∀ x, (f x).id = x.id) : Store π :=
  { s with sessions := s.sessions.update p f hf }

/-- An insert into `users`; ids and addresses are unique. -/
def Store.insertUser (s : Store π) (u : UserRow π) : Option (Store π) :=
  if s.users.rows.any fun v => v.email = u.email then none
  else (s.users.insert? u).map fun users => { s with users }

/-- An insert into `oauth_identities`; a user has one identity of a provider, and an identity one
user. -/
def Store.insertIdentity (s : Store π) (i : IdentityRow π) : Option (Store π) :=
  if s.identities.rows.any fun j => j.provider = i.provider &&
      (j.providerSubject = i.providerSubject || j.userId = i.userId) then none
  else (s.identities.insert? i).map fun identities => { s with identities }

def UserRow.loginFailure (now : ℤ) (u : UserRow π) : UserRow π :=
  { u with
    failedLoginAttempts := u.failedLoginAttempts + 1
    lockedUntil := (Logins.lockDuration (u.failedLoginAttempts + 1)).map (now + ·) }

def UserRow.loginSuccess (u : UserRow π) : UserRow π :=
  { u with failedLoginAttempts := 0, lockedUntil := none }

def UserRow.verifyEmail (now : ℤ) (u : UserRow π) : UserRow π := { u with emailVerifiedAt := some now }

/-- Verified now, unless it was. -/
def UserRow.confirmEmail (now : ℤ) (u : UserRow π) : UserRow π :=
  { u with emailVerifiedAt := u.emailVerifiedAt.or (some now) }

def UserRow.resetPassword (passwordHash : String) (party : π) (u : UserRow π) : UserRow π :=
  { u with
    passwordHash := some passwordHash, failedLoginAttempts := 0, lockedUntil := none
    setUpBy := party }

def SessionRow.revoke (now : ℤ) (x : SessionRow π) : SessionRow π := { x with revokedAt := some now }

def SessionRow.give (party : π) (x : SessionRow π) : SessionRow π :=
  { x with holders := party :: x.holders }

/-- Neither revoked nor expired. -/
def SessionRow.valid (now : ℤ) (x : SessionRow π) : Bool := x.revokedAt.isNone && now < x.expiresAt

/-- `authTokens.issue` -/
def Store.issue (s : Store π) (userId : Uuid) (purpose : AuthTokenPurpose) (io : Io) :
    Option (Store π) :=
  let earlier (t : AuthToken) : Bool := t.userId = userId && t.purpose = purpose && t.isOpen
  ((s.authTokens.update earlier (AuthToken.invalidate s.now) (AuthToken.invalidate_hash s.now)).insert?
    { tokenHash := rt.hashAuthToken io.authToken, userId, purpose
      expiresAt := s.now + Tokens.tokenTtl purpose }).map fun authTokens => { s with authTokens }

/-- The token of an e-mail is used up. -/
def Store.consume (s : Store π) (token : String) (purpose : AuthTokenPurpose) :
    Option (Uuid × Store π) :=
  ((s.authTokens.find? (rt.hashAuthToken token)).filter fun t =>
      t.purpose = purpose && t.isOpen && s.now < t.expiresAt).map fun t =>
    (t.userId, { s with
      authTokens := s.authTokens.update (fun t => t.tokenHash = rt.hashAuthToken token)
        (AuthToken.consume s.now) (AuthToken.consume_hash s.now) })

/-- An insert into `refresh_tokens`; ids and hashes are unique. -/
def Store.insertRefreshToken (s : Store π) (t : Auth.RefreshToken) : Option (Store π) :=
  if s.refreshTokens.rows.any fun t' => t'.tokenHash = t.tokenHash then none
  else (s.refreshTokens.insert? t).map fun refreshTokens => { s with refreshTokens }

/-- `sessions.create`, for a party that has presented the credential of another one or its own -/
def Store.createSession (s : Store π) (userId : Uuid) (setUpBy party : π) (io : Io) :
    Option (Store π) := do
  let _ ← s.users.find? userId
  let sessions ← s.sessions.insert?
    { id := io.sessionId, userId, expiresAt := s.now + Auth.defaultSessionTtl, setUpBy
      holders := [party] }
  Store.insertRefreshToken { s with sessions }
    { id := io.tokenId, sessionId := io.sessionId, userId, familyId := io.sessionId
      tokenHash := rt.hashRefreshToken io.refreshToken
      expiresAt := s.now + Auth.defaultRefreshTtl }

/-- A session for a user whose credential is right, or a challenge for a second factor. -/
def Store.signIn (s : Store π) (userId : Uuid) (setUpBy party : π) (io : Io) : Answer × Store π :=
  if s.mfaUsers.contains userId then
    match s.issue rt userId .mfaLogin io with
    | none => (.failed, s)
    | some s' => (.requiresMfa, s')
  else
    let s := s.setUser userId UserRow.loginSuccess fun _ => rfl
    match s.createSession rt userId setUpBy party io with
    | none => (.failed, s)
    | some s' => (.signedIn userId io.sessionId, s')

/-! ### Calls -/

def register (party : π) (email passwordHash : String) (io : Io) (s : Store π) : Answer × Store π :=
  if (s.findByEmail rt email).isSome then (.conflict, s)
  else
    match s.insertUser
      { id := io.userId, email := rt.lower email, passwordHash := some passwordHash
        setUpBy := party } with
    | none => (.conflict, s)
    | some s =>
      -- an e-mail that cannot be sent is left out
      let s := (s.issue rt io.userId .emailVerification io).getD s
      match s.createSession rt io.userId party party io with
      | none => (.conflict, s)
      | some s => (.signedIn io.userId io.sessionId, s)

def login (party : π) (email password : String) (io : Io) (s : Store π) : Answer × Store π :=
  match s.findByEmail rt email with
  | none => (.unauthorized, s)
  | some u =>
    let locked := u.lockedUntil.any fun t => s.now < t
    if !(u.passwordHash.any fun hash => rt.verify hash password) then
      if u.passwordHash.isSome && !locked then
        (.unauthorized, s.setUser u.id (UserRow.loginFailure s.now) fun _ => rfl)
      else (.unauthorized, s)
    else if !u.lifecycleState.available then (.unauthorized, s)
    else if locked then (.locked, s)
    else s.signIn rt u.id u.setUpBy party io

/-- `sessions.rotate`; the party is given a new token of the session. -/
def rotate (party : π) (refreshToken : String) (io : Io) (s : Store π) : Option Uuid × Store π :=
  match s.refreshTokens.rows.find? fun t => t.tokenHash = rt.hashRefreshToken refreshToken with
  | none => (none, s)
  | some token =>
    match s.sessions.find? token.sessionId with
    | none => (none, s)
    | some session =>
      let revoked := s.setSessions (fun x => x.id = session.id && x.revokedAt.isNone)
        (SessionRow.revoke s.now) fun _ => rfl
      if token.usedAt.isSome then (none, revoked)
      else if token.revokedAt.isSome || session.revokedAt.isSome || token.expiresAt ≤ s.now ||
          session.expiresAt ≤ s.now then
        (none, if session.expiresAt ≤ s.now then revoked else s)
      else
        match s.insertRefreshToken
          { id := io.tokenId, sessionId := session.id, userId := session.userId
            familyId := token.familyId, tokenHash := rt.hashRefreshToken io.refreshToken
            parentTokenId := some token.id
            expiresAt := min session.expiresAt (s.now + Auth.defaultRefreshTtl) } with
        | none => (none, s)
        | some s =>
          let used (t : Auth.RefreshToken) : Auth.RefreshToken :=
            { t with usedAt := some s.now, replacedByTokenId := some io.tokenId }
          let s := s.setSessions (fun x => x.id = session.id) (SessionRow.give party) fun _ => rfl
          (some session.userId,
            { s with
              refreshTokens := s.refreshTokens.update (fun t => t.id = token.id) used fun _ => rfl })

variable {rt} in
/-- **Rotation**: it succeeds exactly where `Auth.finishRotate` does. -/
theorem rotate_iff {party : π} {refreshToken : String} {io : Io} {s : Store π}
    {token : Auth.RefreshToken} {session : SessionRow π} {x : Auth.UserSession}
    (htoken : s.refreshTokens.rows.find? (fun t => t.tokenHash = rt.hashRefreshToken refreshToken) =
      some token)
    (hsession : s.sessions.find? token.sessionId = some session)
    (hx : x.id = session.id ∧ x.userId = session.userId ∧ x.expiresAt = session.expiresAt ∧
      x.revokedAt = session.revokedAt) :
    let r : Auth.Rotation := ⟨refreshToken, io.refreshToken, io.tokenId, s.now⟩
    (rotate rt party refreshToken io s).1 = some session.userId ↔
      (Auth.finishRotate rt.hashRefreshToken r token x ⟨x, s.refreshTokens⟩).2 =
        .returned (.rotate r) .rotated := by
  obtain ⟨hid, huser, hexpires, hrevoked⟩ := hx
  unfold rotate Auth.finishRotate Auth.replace Store.insertRefreshToken Auth.replacement
  simp only [htoken, hsession, hid, huser, hexpires, hrevoked]
  by_cases hused : token.usedAt.isSome = true
  · simp [hused]
  by_cases hdead : token.revokedAt.isSome = true ∨ session.revokedAt.isSome = true ∨
      token.expiresAt ≤ s.now ∨ session.expiresAt ≤ s.now
  · have hdead' : (token.revokedAt.isSome || session.revokedAt.isSome || token.expiresAt ≤ s.now ||
        session.expiresAt ≤ s.now) = true := by simpa [or_assoc] using hdead
    simp only [if_neg hused, if_pos hdead, if_pos hdead']
    simp
  · have hdead' : ¬(token.revokedAt.isSome || session.revokedAt.isSome || token.expiresAt ≤ s.now ||
        session.expiresAt ≤ s.now) = true := by simpa [or_assoc] using hdead
    simp only [if_neg hused, if_neg hdead, if_neg hdead']
    by_cases htaken : (s.refreshTokens.rows.any fun t =>
        t.tokenHash = rt.hashRefreshToken io.refreshToken) = true
    · simp only [if_pos htaken]
      simp
    · simp only [if_neg htaken]
      generalize s.refreshTokens.insert? _ = tokens
      cases tokens <;> simp

def refresh (party : π) (refreshToken : String) (io : Io) (s : Store π) : Answer × Store π :=
  match rotate rt party refreshToken io s with
  | (none, s) => (.unauthorized, s)
  | (some userId, s) =>
    if (s.users.find? userId).any fun u => u.lifecycleState.available then (.ok, s)
    else (.unauthorized, s)

def requestEmailVerification (email : String) (io : Io) (s : Store π) : Answer × Store π :=
  match (s.findByEmail rt email).filter fun u => u.emailVerifiedAt.isNone with
  | none => (.ok, s)
  | some u => (.ok, (s.issue rt u.id .emailVerification io).getD s)

def forgotPassword (email : String) (io : Io) (s : Store π) : Answer × Store π :=
  match (s.findByEmail rt email).filter fun u => u.passwordHash.isSome with
  | none => (.ok, s)
  | some u => (.ok, (s.issue rt u.id .passwordReset io).getD s)

def verifyEmail (token : String) (s : Store π) : Answer × Store π :=
  match s.consume rt token .emailVerification with
  | none => (.invalidLink, s)
  | some (userId, s) => (.ok, s.setUser userId (UserRow.verifyEmail s.now) fun _ => rfl)

def resetPassword (party : π) (token passwordHash : String) (s : Store π) : Answer × Store π :=
  match s.consume rt token .passwordReset with
  | none => (.invalidLink, s)
  | some (userId, s) =>
    (.ok, (s.setUser userId (UserRow.resetPassword passwordHash party) fun _ => rfl).setSessions
      (fun x => x.userId = userId && x.revokedAt.isNone) (SessionRow.revoke s.now) fun _ => rfl)

/-- The account that a login by a provider is linked to. -/
def Store.existingUser (s : Store π) (profile : OAuthProfile) : Option (UserRow π) :=
  if (s.findByProviderSubject profile).isSome then none else s.findByEmail rt profile.email

/-- Only an address that Google has verified is linked to an account. -/
def OAuthProfile.links (profile : OAuthProfile) : Bool :=
  profile.provider = .google && profile.emailVerified

/-- `linkExistingUser` -/
def linkExistingUser (party : π) (u : UserRow π) (profile : OAuthProfile) (io : Io) (s : Store π) :
    Option (Store π) :=
  (s.insertIdentity
    { id := io.identityId, userId := u.id, provider := profile.provider
      providerSubject := profile.subject, setUpBy := party }).map fun s =>
    let s := if u.emailVerifiedAt.isNone then { s with linked := u.id :: s.linked } else s
    if profile.emailVerified then s.setUser u.id (UserRow.confirmEmail s.now) fun _ => rfl else s

/-- `registerExternal` -/
def registerExternal (party : π) (profile : OAuthProfile) (io : Io) (s : Store π) :
    Option (Store π) := do
  let s ← s.insertUser
    { id := io.userId, email := rt.lower profile.email, passwordHash := none
      emailVerifiedAt := if profile.emailVerified then some s.now else none, setUpBy := party }
  s.insertIdentity
    { id := io.identityId, userId := io.userId, provider := profile.provider
      providerSubject := profile.subject, setUpBy := party }

/-- The identity of the profile is there, or is linked or registered. -/
def resolveIdentity (party : π) (profile : OAuthProfile) (io : Io) (s : Store π) :
    Option (Store π) :=
  if (s.findByProviderSubject profile).isSome then some s
  else
    match s.findByEmail rt profile.email with
    | some u => if profile.links then linkExistingUser party u profile io s else none
    | none => registerExternal rt party profile io s

def oauthLogin (party : π) (profile : OAuthProfile) (io : Io) (s : Store π) : Answer × Store π :=
  match resolveIdentity rt party profile io s with
  | none => (.conflict, s)
  | some s =>
    match s.findByProviderSubject profile with
    | none => (.unauthorized, s)
    | some i =>
      match (s.users.find? i.userId).filter fun u => u.lifecycleState.available with
      | none => (.unauthorized, s)
      | some u => s.signIn rt u.id i.setUpBy party io

/-- A call by a party. -/
def exec (e : Event π) (s : Store π) : Answer × Store π :=
  let s := { s with now := s.now + e.io.elapsed }
  match e.call with
  | .register email passwordHash => register rt e.party email passwordHash e.io s
  | .login email password => login rt e.party email password e.io s
  | .refresh refreshToken => refresh rt e.party refreshToken e.io s
  | .requestEmailVerification email => requestEmailVerification rt email e.io s
  | .verifyEmail token => verifyEmail rt token s
  | .forgotPassword email => forgotPassword rt email e.io s
  | .resetPassword token passwordHash => resetPassword rt e.party token passwordHash s
  | .oauthLogin profile => oauthLogin rt e.party profile e.io s

def step (e : Event π) (s : Store π) : Except Unit (Store π) := .ok (exec rt e s).2

end CalmBoard.Linking
