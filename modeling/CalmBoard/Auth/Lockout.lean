import CalmBoard.Auth.Bookkeeping
import CalmBoard.Lib.Fallible
import CalmBoard.Lib.Requests

/-!
# CalmBoard.Auth.Lockout — logins while an account is locked

* `statement`: `login` as `Bookkeeping.login` has it, in the transactions it is made of.
* `locked_login`: a login to a locked account, by the right password and by a wrong one.
* `attempt_laws`: what a login knows of the account since it has read it.
* `lockout`: a login takes effect on a locked account only if a failure has been recorded meanwhile.
-/

namespace CalmBoard.Lockout

open Savepoints (healthy)
open Requests Sessions
open Logins (UserRow AuthToken)
open Bookkeeping

/-! ### Logins, statement by statement -/

structure LoginCall where
  email : String
  password : String
  ip : Option String := none
  calledAt : ℤ

/-- The tables, and the accounts whose failures have been recorded so far. -/
structure Accounts where
  tables : Store
  recorded : List Uuid := []

/-- A login that has read its account, and the time. -/
structure Attempt where
  call : LoginCall
  identity : UserRow
  /-- the failures of the account that had been recorded by then -/
  recorded : ℕ
  now : ℤ

/-- What a statement takes from outside: the time since the one before, and the ids and tokens of
new rows. -/
structure Input where
  elapsed : ℕ := 0
  challengeToken : String := ""
  refreshToken : String := ""
  sessionId : Uuid := 0
  tokenId : Uuid := 0

abbrev Answer : Type := Except ServiceError LoginAnswer

/-- The statement that comes next; `issuedAt` is the time that new rows are given. -/
inductive Point where
  | findByEmail (call : LoginCall)
  /-- the password is compared, which takes a while -/
  | verify (x : Attempt)
  | recordLoginFailure (x : Attempt)
  | commitFailure (x : Attempt)
  | isEnabled (x : Attempt)
  | lockChallenges (x : Attempt)
  | invalidateChallenges (x : Attempt) (issuedAt : ℤ)
  | insertChallenge (x : Attempt) (issuedAt : ℤ)
  | commitChallenge (x : Attempt) (answer : LoginAnswer)
  | recordLoginSuccess (x : Attempt)
  | commitSuccess (x : Attempt)
  | findUser (x : Attempt)
  | insertSession (x : Attempt)
  | insertToken (x : Attempt) (sessionId : Uuid) (issuedAt : ℤ)
  | commitSession (x : Attempt) (answer : LoginAnswer)
  /-- `securityEvents.record`, which raises an error when it is given nothing to record -/
  | record (event : Option SecurityEvent) (answer : Answer)
  | commitRecord (answer : Answer)

/-- An advisory lock, or a lock of a row or of its entry in a unique index. -/
inductive Lock where
  | user (id : Uuid)
  | challenges (userId : Uuid)
  | challenge (tokenHash : String)
  | session (id : Uuid)
  | token (id : Uuid)
  deriving DecidableEq

inductive Write where
  | loginFailure (userId : Uuid) (now : ℤ)
  | loginSuccess (userId : Uuid) (now : ℤ)
  | invalidateChallenges (userId : Uuid) (now : ℤ)
  | insertChallenge (t : AuthToken)
  | insertSession (x : Auth.UserSession)
  | insertToken (t : Auth.RefreshToken)
  | record (event : SecurityEvent)

def Write.apply : Write → Accounts → Accounts
  | .loginFailure userId now, a =>
    { tables := a.tables.setUser userId (UserRow.loginFailure now) (UserRow.loginFailure_id now)
      recorded := a.recorded ++ [userId] }
  | .loginSuccess userId now, a =>
    { a with
      tables := a.tables.setUser userId (UserRow.loginSuccess now) (UserRow.loginSuccess_id now) }
  | .invalidateChallenges userId now, a =>
    let isOpen (t : AuthToken) : Bool :=
      t.userId = userId && t.purpose = .mfaLogin && t.consumedAt.isNone && t.invalidatedAt.isNone
    let challenges := a.tables.challenges.update isOpen (AuthToken.invalidate now)
      (AuthToken.invalidate_hash now)
    { a with tables := { a.tables with challenges } }
  | .insertChallenge t, a =>
    { a with tables := { a.tables with challenges := a.tables.challenges.upsert t } }
  | .insertSession x, a =>
    { a with tables := { a.tables with sessions := a.tables.sessions.upsert x } }
  | .insertToken t, a => { a with tables := { a.tables with tokens := a.tables.tokens.upsert t } }
  | .record event, a =>
    { a with tables := { a.tables with events := a.tables.events ++ [event] } }

variable (rt : Bookkeeping.Runtime)

def Attempt.after (i : Input) (x : Attempt) : Attempt := { x with now := x.now + i.elapsed }

/-- The event of a login; there is none without a user, an e-mail or an address. -/
def loginEvent (userId : Option Uuid) (call : LoginCall) (outcome : SecurityEventOutcome)
    (retryAfter : Option ℤ := none) : Option SecurityEvent :=
  let emailHash := if call.email = "" then none else some (rt.hashSecurityEmail call.email)
  if userId.isNone ∧ emailHash.isNone ∧ call.ip.isNone then none
  else some { userId, emailHash, outcome, ip := call.ip, retryAfter }

def Attempt.event (x : Attempt) (outcome : SecurityEventOutcome) (retryAfter : Option ℤ := none) :
    Option SecurityEvent := loginEvent rt (some x.identity.id) x.call outcome retryAfter

/-- Seconds, rounded up. -/
def retryAfter (u : UserRow) (now : ℤ) : ℤ := max 1 (-((now - u.lockedUntil.getD 0) / 1000))

/-- The password is the one of the account. -/
def rightPassword (u : UserRow) (password : String) : Bool :=
  u.passwordHash.isSome && passwordMatches rt (some u) password

/-- What follows on the comparison. -/
def Attempt.checked (x : Attempt) : Outcome Point Lock Write Answer :=
  let isLocked := locked (some x.identity) x.now
  if !rightPassword rt x.identity x.call.password then
    if x.identity.passwordHash.isSome && !isLocked then .next (.recordLoginFailure x) [] []
    else
      .next (.record (x.event rt (if isLocked then .blocked else .failure))
        (.error invalidCredentials)) [] []
  else if !x.identity.lifecycleState.available then .fail (.error invalidCredentials)
  else if isLocked then
    let seconds := retryAfter x.identity x.now
    .next (.record (x.event rt .blocked (some seconds)) (.error (.locked seconds))) [] []
  else .next (.isEnabled x) [] []

/-- One statement of a login. -/
def statement (i : Input) (p : Point) (a : Accounts) : Outcome Point Lock Write Answer :=
  match p with
  | .findByEmail call =>
    match a.tables.findByEmail rt call.email with
    | none =>
      -- the password is compared with a dummy, whatever comes of it
      .next (.record (loginEvent rt none call .failure) (.error invalidCredentials)) [] []
    | some u => .next (.verify ⟨call, u, a.recorded.count u.id, call.calledAt⟩) [] []
  | .verify x => (x.after i).checked rt
  | .recordLoginFailure x =>
    .next (.commitFailure (x.after i)) [.user x.identity.id]
      [.loginFailure x.identity.id (x.after i).now]
  | .commitFailure x => .commit (.record (x.event rt .failure) (.error invalidCredentials))
  | .isEnabled x =>
    if a.tables.mfaUsers.contains x.identity.id then .next (.lockChallenges (x.after i)) [] []
    else .next (.recordLoginSuccess (x.after i)) [] []
  | .lockChallenges x =>
    .next (.invalidateChallenges (x.after i) (x.after i).now) [.challenges x.identity.id] []
  | .invalidateChallenges x issuedAt =>
    .next (.insertChallenge (x.after i) issuedAt) [] [.invalidateChallenges x.identity.id issuedAt]
  | .insertChallenge x issuedAt =>
    let t : AuthToken :=
      { tokenHash := rt.hashAuthToken i.challengeToken, userId := x.identity.id
        purpose := .mfaLogin, expiresAt := issuedAt + Logins.Purpose.mfaLogin.ttl, resets := 0 }
    if (a.tables.challenges.find? t.tokenHash).isSome then .fail (.error (.error "duplicate key"))
    else
      .next (.commitChallenge (x.after i) (.requiresMfa i.challengeToken t.expiresAt))
        [.challenge t.tokenHash] [.insertChallenge t]
  | .commitChallenge x answer => .commit (.record (x.event rt .challenge) (.ok answer))
  | .recordLoginSuccess x =>
    .next (.commitSuccess (x.after i)) [.user x.identity.id]
      [.loginSuccess x.identity.id (x.after i).now]
  | .commitSuccess x => .commit (.findUser (x.after i))
  | .findUser x =>
    if (a.tables.users.find? x.identity.id).isSome then .next (.insertSession (x.after i)) [] []
    else .fail (.error (.tenantResourceNotFound "user"))
  | .insertSession x =>
    let now := (x.after i).now
    let session : Auth.UserSession :=
      { id := i.sessionId, userId := x.identity.id, lastActive := now, lastRefreshAt := some now
        expiresAt := now + Auth.defaultSessionTtl }
    if (a.tables.sessions.find? session.id).isSome then .fail (.error (.error "duplicate key"))
    else
      .next (.insertToken (x.after i) session.id now) [.session session.id] [.insertSession session]
  | .insertToken x sessionId issuedAt =>
    let t : Auth.RefreshToken :=
      { id := i.tokenId, sessionId, userId := x.identity.id, familyId := sessionId
        tokenHash := rt.hashRefreshToken i.refreshToken
        expiresAt := issuedAt + Auth.defaultRefreshTtl }
    if (a.tables.tokens.find? t.id).isSome then .fail (.error (.error "duplicate key"))
    else
      .next (.commitSession (x.after i) (.signedIn x.identity.id sessionId i.refreshToken))
        [.token t.id] [.insertToken t]
  | .commitSession x answer => .commit (.record (x.event rt .success) (.ok answer))
  | .record event answer =>
    match event with
    | none => .fail (.error (.error "A security event requires a user, email fingerprint, session, or IP"))
    | some e => .next (.commitRecord answer) [] [.record e]
  | .commitRecord answer => .finish answer

def script : Script LoginCall Accounts Input Point Lock Write Answer where
  first := .findByEmail
  apply := Write.apply
  statement := statement rt
  conflict k k' := k = k'
  conflict_symm k k' := by simp [eq_comm]

/-! ### What a login knows of its account -/

/-- As long as no failure has been recorded since, the account is locked no longer than it was. -/
def Attempt.Knows (a : Accounts) (x : Attempt) : Prop :=
  x.recorded ≤ a.recorded.count x.identity.id ∧
  (a.recorded.count x.identity.id = x.recorded → ∀ u, a.tables.users.find? x.identity.id = some u →
    u.lockedUntil = none ∨ u.lockedUntil = x.identity.lockedUntil)

/-- The login has read an account. -/
def Point.attempt : Point → Option Attempt
  | .findByEmail _ | .record .. | .commitRecord _ => none
  | .verify x | .recordLoginFailure x | .commitFailure x | .isEnabled x | .lockChallenges x
  | .invalidateChallenges x _ | .insertChallenge x _ | .commitChallenge x _ | .recordLoginSuccess x
  | .commitSuccess x | .findUser x | .insertSession x | .insertToken x _ _ | .commitSession x _ =>
    some x

/-- It has found it unlocked. -/
def Point.admitted : Point → Option Attempt
  | .verify _ => none
  | p => p.attempt

structure Point.Knows (a : Accounts) (p : Point) (ws : List Write) : Prop where
  unread : ∀ call, p = .findByEmail call → ws = []
  account : ∀ x, p.attempt = some x → x.Knows a
  unlocked : ∀ x, p.admitted = some x → locked (some x.identity) x.now = false
  /-- until then it writes nothing but events -/
  events : p.admitted = none → ∀ w ∈ ws, ∃ e, w = .record e

variable {rt} {a a' : Accounts} {x x' : Attempt} {i : Input} {p p' : Point} {ks : List Lock}
  {ws : List Write} {u : UserRow}

theorem locked_after {now : ℤ} (h : locked (some u) now = false) (elapsed : ℕ) :
    locked (some u) (now + elapsed) = false := by
  unfold locked at h ⊢
  cases hu : (some u).bind UserRow.lockedUntil with
  | none => rfl
  | some t =>
    simp only [hu, Option.any_some, decide_eq_false_iff_not] at h ⊢
    omega

theorem Attempt.Knows.congr (h : x.Knows a) (hr : a'.recorded = a.recorded)
    (hu : a'.tables.users = a.tables.users) : x.Knows a' := by
  unfold Attempt.Knows
  rw [hr, hu]
  exact h

theorem find?_setUser_map (s : Store) (userId k : Uuid) (f : UserRow → UserRow)
    (hf : ∀ u, (f u).id = u.id) : (s.setUser userId f hf).users.find? k =
      (s.users.find? k).map fun u => if u.id = userId then f u else u := by
  simp [Store.setUser]

theorem Attempt.Knows.apply (h : x.Knows a) (w : Write) : x.Knows (w.apply a) := by
  cases w with
  | loginFailure userId now =>
    by_cases hid : userId = x.identity.id
    · -- one more failure
      have hcount : (Write.apply (.loginFailure userId now) a).recorded.count x.identity.id =
          a.recorded.count x.identity.id + 1 := by
        simp [Write.apply, hid]
      have hle := h.1
      exact ⟨by omega, fun heq => absurd heq (by omega)⟩
    · have hcount : (Write.apply (.loginFailure userId now) a).recorded.count x.identity.id =
          a.recorded.count x.identity.id := by
        simp [Write.apply, hid]
      have hother : (Write.apply (.loginFailure userId now) a).tables.users.find? x.identity.id =
          a.tables.users.find? x.identity.id := by
        refine (find?_setUser_map a.tables userId _ (UserRow.loginFailure now) fun _ => rfl).trans ?_
        cases hu : a.tables.users.find? x.identity.id with
        | none => rfl
        | some u =>
          have hne : u.id ≠ userId := fun heq => hid (heq.symm.trans (Table.key_of_find? hu))
          simp [hne]
      unfold Attempt.Knows
      rw [hcount, hother]
      exact h
  | loginSuccess userId now =>
    refine ⟨h.1, fun heq u hu => ?_⟩
    obtain ⟨v, hv, rfl⟩ := Option.map_eq_some_iff.mp
      ((find?_setUser_map a.tables userId _ (UserRow.loginSuccess now) fun _ => rfl).symm.trans hu)
    by_cases hid : v.id = userId
    · simp [hid, UserRow.loginSuccess]
    · simpa [hid] using h.2 heq v hv
  | invalidateChallenges | insertChallenge | insertSession | insertToken | record =>
    exact h.congr rfl rfl

theorem Attempt.Knows.view (h : x.Knows a) (ws : List Write) : x.Knows ((script rt).view a ws) := by
  induction ws generalizing a with
  | nil => exact h
  | cons w ws ih => exact ih (h.apply w)

theorem attempt_of_admitted (h : p.admitted = some x) : p.attempt = some x := by
  cases p with
  | verify => cases h
  | findByEmail | recordLoginFailure | commitFailure | isEnabled | lockChallenges
  | invalidateChallenges | insertChallenge | commitChallenge | recordLoginSuccess | commitSuccess
  | findUser | insertSession | insertToken | commitSession | record | commitRecord => exact h

/-- What a statement of a transaction goes on with. -/
inductive Nexts (rt : Bookkeeping.Runtime) (i : Input) (a : Accounts) :
    Point → Point → List Write → Prop
  | read {call : LoginCall} {u : UserRow} (hu : a.tables.findByEmail rt call.email = some u) :
      Nexts rt i a (.findByEmail call) (.verify ⟨call, u, a.recorded.count u.id, call.calledAt⟩) []
  | refuse {p : Point} (event : Option SecurityEvent) (answer : Answer) (hp : p.admitted = none) :
      Nexts rt i a p (.record event answer) []
  | found (x : Attempt) {p' : Point} (hx : locked (some x.identity) (x.after i).now = false)
      (hp' : p'.admitted = some (x.after i)) : Nexts rt i a (.verify x) p' []
  | proceed {p p' : Point} {x : Attempt} (ws : List Write) (hp : p.admitted = some x)
      (hp' : p'.admitted = some (x.after i)) : Nexts rt i a p p' ws
  | record (event : SecurityEvent) (answer : Answer) :
      Nexts rt i a (.record (some event) answer) (.commitRecord answer) [.record event]

theorem nexts_of_checked (h : (x.after i).checked rt = .next p' ks ws) :
    Nexts rt i a (.verify x) p' ws := by
  simp only [Attempt.checked] at h
  split at h
  · split at h
    · next hcount =>
      cases h
      rw [Bool.and_eq_true, Bool.not_eq_true'] at hcount
      exact .found x hcount.2 rfl
    · cases h
      exact .refuse _ _ rfl
  · split at h
    · cases h
    · split at h
      · cases h
        exact .refuse _ _ rfl
      · next hunlocked =>
        cases h
        exact .found x (Bool.eq_false_iff.mpr hunlocked) rfl

theorem nexts_of_next (h : statement rt i p a = .next p' ks ws) : Nexts rt i a p p' ws := by
  cases p with
  | findByEmail call =>
    simp only [statement] at h
    split at h
    · cases h
      exact .refuse _ _ rfl
    · next u hu =>
      cases h
      exact .read hu
  | verify x => exact nexts_of_checked h
  | recordLoginFailure x | lockChallenges x | invalidateChallenges x | recordLoginSuccess x =>
    cases h
    exact .proceed _ rfl rfl
  | isEnabled x =>
    simp only [statement] at h
    split at h <;>
      · cases h
        exact .proceed _ rfl rfl
  | findUser x =>
    simp only [statement] at h
    split at h
    · cases h
      exact .proceed _ rfl rfl
    · cases h
  | insertChallenge x | insertSession x | insertToken x =>
    simp only [statement] at h
    split at h
    · cases h
    · cases h
      exact .proceed _ rfl rfl
  | commitFailure | commitChallenge | commitSuccess | commitSession | commitRecord => cases h
  | record event answer =>
    cases event with
    | none => cases h
    | some e =>
      cases h
      exact .record e answer

/-- What a commit goes on with. -/
inductive Commits (i : Input) : Point → Point → Prop
  | record {p : Point} {x : Attempt} (event : Option SecurityEvent) (answer : Answer)
      (hp : p.admitted = some x) : Commits i p (.record event answer)
  | reset (x : Attempt) : Commits i (.commitSuccess x) (.findUser (x.after i))

theorem commits_of_commit (h : statement rt i p a = .commit p') : Commits i p p' := by
  cases p with
  | findByEmail call =>
    simp only [statement] at h
    split at h <;> cases h
  | verify x =>
    simp only [statement, Attempt.checked] at h
    split at h <;> split at h
    all_goals first | cases h | (split at h <;> cases h)
  | recordLoginFailure | lockChallenges | invalidateChallenges | recordLoginSuccess | commitRecord =>
    cases h
  | isEnabled | findUser | insertChallenge | insertSession | insertToken =>
    simp only [statement] at h
    split at h <;> cases h
  | commitFailure | commitChallenge | commitSession =>
    cases h
    exact .record _ _ rfl
  | commitSuccess x =>
    cases h
    exact .reset x
  | record event answer => cases event <;> cases h

theorem Point.Knows.of_admitted (hp : p.admitted = some x) (hx : x.Knows a)
    (hunlocked : locked (some x.identity) x.now = false) : p.Knows a ws where
  unread call hcall := by
    rw [hcall] at hp
    cases hp
  account y hy := by
    obtain rfl := Option.some.inj ((attempt_of_admitted hp).symm.trans hy)
    exact hx
  unlocked y hy := by
    obtain rfl := Option.some.inj (hp.symm.trans hy)
    exact hunlocked
  events hnone := by
    rw [hp] at hnone
    cases hnone

theorem Point.Knows.of_none (hp : p.attempt = none) (hne : ∀ call, p ≠ .findByEmail call)
    (hevents : ∀ w ∈ ws, ∃ e, w = .record e) : p.Knows a ws where
  unread call hcall := absurd hcall (hne call)
  account y hy := by
    rw [hp] at hy
    cases hy
  unlocked y hy := by
    rw [attempt_of_admitted hy] at hp
    cases hp
  events _ := hevents

theorem Point.Knows.next (h : p.Knows a ws) {ws' : List Write}
    (hnext : Nexts rt i ((script rt).view a ws) p p' ws') : p'.Knows a (ws ++ ws') := by
  cases hnext with
  | read hu =>
    obtain rfl := h.unread _ rfl
    refine ⟨fun _ hcall => (by cases hcall), fun y hy => ?_, fun _ hy => (by cases hy),
      fun _ w hw => (by cases hw)⟩
    cases hy
    refine ⟨le_refl _, fun _ u hu' => .inr ?_⟩
    rw [Option.some.inj (hu'.symm.trans (find?_of_findByEmail hu))]
  | refuse event answer hp =>
    rw [List.append_nil]
    exact .of_none rfl (fun _ hcall => by cases hcall) (h.events hp)
  | found x hx hp' => exact .of_admitted hp' (h.account x rfl) hx
  | @proceed _ _ x _ hp hp' =>
    have hx : (x.after i).Knows a := h.account x (attempt_of_admitted hp)
    exact .of_admitted hp' hx (locked_after (h.unlocked x hp) _)
  | record event answer =>
    refine .of_none rfl (fun _ hcall => by cases hcall) fun w hw => ?_
    rcases List.mem_append.mp hw with hw | hw
    · exact h.events rfl w hw
    · exact ⟨event, List.mem_singleton.mp hw⟩

theorem Point.Knows.commit (h : p.Knows a ws) (hcommit : Commits i p p') :
    p'.Knows ((script rt).view a ws) [] := by
  cases hcommit with
  | record event answer hp =>
    exact .of_none rfl (fun _ hcall => by cases hcall) fun w hw => by cases hw
  | reset x =>
    exact .of_admitted rfl ((h.account x rfl).view ws) (locked_after (h.unlocked x rfl) _)

theorem Point.Knows.other (h : p.Knows a ws) (ws' : List Write) :
    p.Knows ((script rt).view a ws') ws :=
  ⟨h.unread, fun y hy => (h.account y hy).view ws', h.unlocked, h.events⟩

theorem attempt_laws : Laws (script rt) (fun _ _ _ => True) (fun _ => True)
    (fun a p _ ws => p.Knows a ws) fun _ _ => True where
  first a call _ := ⟨fun _ _ => rfl, fun _ hy => (by cases hy), fun _ hy => (by cases hy),
    fun _ w hw => (by cases hw)⟩
  next a i p ks ws p' ks' ws' _ hL _ h := hL.next (nexts_of_next h)
  commit a i p ks ws p' _ hL _ h := ⟨trivial, hL.commit (commits_of_commit h)⟩
  finish _ _ _ _ _ _ _ _ _ _ := ⟨trivial, trivial⟩
  fail _ _ _ _ _ _ _ _ _ _ := trivial
  other a i p ks ws q ks' ws' _ _ _ hM _ := hM.other ws
  kept _ _ _ _ _ _ _ _ _ _ := trivial

/-! ### Logins to a locked account -/

/-- The accounts, the challenges and the sessions are the same. -/
def SameAccounts (s s' : Store) : Prop :=
  s.users = s'.users ∧ s.challenges = s'.challenges ∧ s.sessions = s'.sessions ∧ s.tokens = s'.tokens

theorem same_of_events (h : ∀ w ∈ ws, ∃ e, w = .record e) :
    SameAccounts ((script rt).view a ws).tables a.tables := by
  induction ws generalizing a with
  | nil => exact ⟨rfl, rfl, rfl, rfl⟩
  | cons w ws ih =>
    obtain ⟨e, rfl⟩ := h w List.mem_cons_self
    exact ih fun w' hw' => h w' (List.mem_cons_of_mem _ hw')

theorem admitted_of_effect (hL : p.Knows a ws)
    (hne : ¬ SameAccounts ((script rt).view a ws).tables a.tables) : ∃ x, p.admitted = some x := by
  by_contra hnone
  have hp : p.admitted = none := by
    cases hp : p.admitted with
    | none => rfl
    | some x => exact absurd ⟨x, hp⟩ hnone
  exact hne (same_of_events (hL.events hp))

theorem recorded_of_locked (hL : p.Knows a ws) (hp : p.admitted = some x)
    (hu : a.tables.users.find? x.identity.id = some u) {elapsed : ℕ}
    (hlocked : locked (some u) (x.now + elapsed) = true) :
    x.recorded < a.recorded.count x.identity.id := by
  have hx := hL.account x (attempt_of_admitted hp)
  have hfound := locked_after (hL.unlocked x hp) elapsed
  by_contra hle
  have heq : a.recorded.count x.identity.id = x.recorded := le_antisymm (not_lt.mp hle) hx.1
  have hsame : locked (some u) (x.now + elapsed) = false := by
    rcases hx.2 heq u hu with hnone | hold
    · simp [locked, hnone]
    · simpa [locked, hold] using hfound
  rw [hsame] at hlocked
  cases hlocked

/-- What a login to a locked account is answered. -/
def refusal (rt : Bookkeeping.Runtime) (u : UserRow) (password : String) (now : ℤ) : ServiceError :=
  if rightPassword rt u password && u.lifecycleState.available then .locked (retryAfter u now)
  else invalidCredentials

theorem refusal_eq_iff {password password' : String} {now : ℤ} :
    refusal rt u password now = refusal rt u password' now ↔
      (u.lifecycleState.available = true →
        rightPassword rt u password = rightPassword rt u password') := by
  unfold refusal
  cases u.lifecycleState.available <;> cases rightPassword rt u password <;>
    cases rightPassword rt u password' <;> simp [invalidCredentials]

theorem raise_bind {α β : Type} {e : ServiceError} {f : α → Call β} :
    (Savepoints.raise e >>= f : Call β) = Savepoints.raise e := rfl

theorem run_record {userId : Uuid} {email : String} {outcome : SecurityEventOutcome}
    {ip : Option String} {seconds : Option ℤ} {s : Store} {answer : ServiceError} :
    ((record rt (some userId) email outcome ip seconds >>= fun _ =>
        (Savepoints.raise answer : Call LoginAnswer)).run healthy ⟨s, false, false⟩).result =
          .error (.raised answer) ∧
      ((record rt (some userId) email outcome ip seconds >>= fun _ =>
        (Savepoints.raise answer : Call LoginAnswer)).run healthy ⟨s, false, false⟩).connection.store.users =
          s.users := by
  simp [record, Savepoints.statement, healthy, Bind.bind, Savepoints.andThen, Savepoints.raise]

theorem locked_login {s : Store} {email password : String} {io : Io}
    (hu : s.findByEmail rt email = some u) (hl : locked (some u) io.now = true) :
    ((login rt email password io).run healthy ⟨s, false, false⟩).result =
        .error (.raised (refusal rt u password io.now)) ∧
      ((login rt email password io).run healthy ⟨s, false, false⟩).connection.store.users =
        s.users := by
  have hread : (login rt email password io).run healthy ⟨s, false, false⟩ =
      let o := (if u.passwordHash.isNone ∨ passwordMatches rt (some u) password = false then
          refuse rt (some u) email io else admitUser rt u email io).run healthy ⟨s, false, false⟩
      ⟨o.result, o.connection, .findByEmail :: o.sent⟩ := by
    simp [login, Savepoints.select, Savepoints.statement, healthy, Bind.bind, Savepoints.andThen, hu]
  rw [hread]
  by_cases hright : rightPassword rt u password = true
  · have hwrong : ¬ (u.passwordHash.isNone ∨ passwordMatches rt (some u) password = false) := by
      simpa [rightPassword, Option.isSome_iff_ne_none] using hright
    rw [if_neg hwrong]
    by_cases havailable : u.lifecycleState.available = true
    · have hadmitted : admitUser rt u email io =
          record rt (some u.id) email .blocked io.ip (some (retryAfter u io.now)) >>= fun _ =>
            Savepoints.raise (.locked (retryAfter u io.now)) := by
        simp [admitUser, havailable, hl, retryAfter, raise_bind]
      have hrefusal : refusal rt u password io.now = .locked (retryAfter u io.now) := by
        simp [refusal, hright, havailable]
      rw [hadmitted, hrefusal]
      exact run_record
    · have hadmitted : admitUser rt u email io = Savepoints.raise invalidCredentials := by
        simp [admitUser, havailable, raise_bind]
      have hrefusal : refusal rt u password io.now = invalidCredentials := by
        simp [refusal, havailable]
      rw [hadmitted, hrefusal]
      exact ⟨rfl, rfl⟩
  · have hwrong : u.passwordHash.isNone ∨ passwordMatches rt (some u) password = false := by
      by_contra hnot
      rw [not_or, Option.isNone_iff_eq_none, ← ne_eq, ← Option.isSome_iff_ne_none] at hnot
      simp [rightPassword, hnot.1, hnot.2] at hright
    have hrefuse : refuse rt (some u) email io =
        record rt (some u.id) email .blocked io.ip >>= fun _ =>
          Savepoints.raise invalidCredentials := by
      have hcount : countFailure (some u) io = pure () := by simp [countFailure, hl]
      simp only [refuse, hcount, hl, if_true]
      rfl
    have hrefusal : refusal rt u password io.now = invalidCredentials := by
      simp [refusal, hright]
    rw [if_pos hwrong, hrefuse, hrefusal]
    exact run_record

/-- A login that no other call disturbs. -/
def alone (rt : Bookkeeping.Runtime) (s : Store) (email password : String) (io : Io) :
    Savepoints.Outcome Bookkeeping.Statement Store ServiceError LoginAnswer :=
  (login rt email password io).run healthy ⟨s, false, false⟩

/-- Any number of logins, in any order of their statements. -/
def logins (rt : Bookkeeping.Runtime) (s : Store) (events : List (Event LoginCall (Action Input))) :
    World Accounts (Local Point Lock Write Answer) :=
  run (script rt).program (World.closed ⟨s, []⟩) events

/-- A locked account: whichever password it is, the login is refused and the account stays as it is;
the refusals of two passwords are the same unless one of them is right and the account available.
Logins side by side: one that takes effect while the account is locked has read the account before
the last of its failures was recorded. -/
theorem lockout (rt : Bookkeeping.Runtime) :
    (∀ (s : Store) (email : String) (u : UserRow) (io : Io) (password password' : String),
      s.findByEmail rt email = some u → locked (some u) io.now = true →
      (alone rt s email password io).result = .error (.raised (refusal rt u password io.now)) ∧
      (alone rt s email password' io).result = .error (.raised (refusal rt u password' io.now)) ∧
      (alone rt s email password io).connection.store.users = s.users ∧
      (alone rt s email password' io).connection.store.users = s.users ∧
      (refusal rt u password io.now = refusal rt u password' io.now ↔
        (u.lifecycleState.available = true →
          rightPassword rt u password = rightPassword rt u password'))) ∧
    ∀ (s : Store) (events : List (Event LoginCall (Action Input))) (j : ℕ) (input : Input)
      (w : World Accounts (Local Point Lock Write Answer)),
      step (script rt).program (.act j (.statement input)) (logins rt s events) = .ok w →
      ¬ SameAccounts w.store.tables (logins rt s events).store.tables →
      ∃ p ks ws x, (logins rt s events).sessions[j]? = some (.running p ks ws) ∧
        p.attempt = some x ∧
        ∀ u, (logins rt s events).store.tables.users.find? x.identity.id = some u →
          locked (some u) (x.now + input.elapsed) = true →
          x.recorded < (logins rt s events).store.recorded.count x.identity.id := by
  refine ⟨fun s email u io password password' hu hl => ?_, fun s events j input w hstep hne => ?_⟩
  · have hrefused : ∀ p, (alone rt s email p io).result = .error (.raised (refusal rt u p io.now)) ∧
        (alone rt s email p io).connection.store.users = s.users := fun p => locked_login hu hl
    exact ⟨(hrefused password).1, (hrefused password').1, (hrefused password).2,
      (hrefused password').2, refusal_eq_iff⟩
  · have hw : World.Holds (script rt).program (fun _ => True)
        (Local.Knows (fun a p _ ws => p.Knows a ws) fun _ _ => True) (logins rt s events) :=
      run_always (rules_always attempt_laws) events (World.holds_closed trivial)
    obtain ⟨l, l', a, hl, hmove, -, rfl⟩ := step_act hstep
    have hcommit : ∀ p ks ws, l = .running p ks ws →
        ¬ SameAccounts ((script rt).view (logins rt s events).store ws).tables
          (logins rt s events).store.tables →
        ∃ p ks ws x, (logins rt s events).sessions[j]? = some (.running p ks ws) ∧
          p.attempt = some x ∧
          ∀ u, (logins rt s events).store.tables.users.find? x.identity.id = some u →
            locked (some u) (x.now + input.elapsed) = true →
            x.recorded < (logins rt s events).store.recorded.count x.identity.id := by
      rintro p ks ws rfl hchanged
      have hL : p.Knows (logins rt s events).store ws := hw.sessions j _ hl
      obtain ⟨x, hx⟩ := admitted_of_effect hL hchanged
      exact ⟨p, ks, ws, x, hl, attempt_of_admitted hx,
        fun u hu hlocked => recorded_of_locked hL hx hu hlocked⟩
    cases moves_of_move hmove with
    | next | fail => exact absurd ⟨rfl, rfl, rfl, rfl⟩ hne
    | commit ks h | finish ks h => exact hcommit _ ks _ rfl hne

/-- An account after some failures. -/
def failedStore (failures : ℕ) (lockedUntil : Option ℤ) : Store where
  users := ⟨[{ id := 1, email := "a@b.c", passwordHash := some "correct horse"
               failedLoginAttempts := failures, lockedUntil }], by simp⟩

/-- Two logins with wrong passwords: both have read the account when the first failure is recorded;
the second is about to commit. -/
def crossing : List (Event LoginCall (Action Input)) :=
  [.enter ⟨"a@b.c", "guess", none, 1000⟩, .enter ⟨"a@b.c", "hunch", none, 1000⟩,
    .act 0 (.statement {}), .act 1 (.statement {}), .act 0 (.statement {}), .act 1 (.statement {}),
    .act 0 (.statement {}), .act 0 (.statement {}), .act 1 (.statement {})]

theorem lockout_sample :
    ((alone sampleRuntime (failedStore 5 (some 60007)) "a@b.c" "guess" { now := 7 }).result =
        .error (.raised (refusal sampleRuntime
          { id := 1, email := "a@b.c", passwordHash := some "correct horse"
            failedLoginAttempts := 5, lockedUntil := some 60007 } "guess" 7))) ∧
    ∃ w, step (script sampleRuntime).program (.act 1 (.statement {}))
        (logins sampleRuntime (failedStore 4 none) crossing) = .ok w ∧
      ∃ p ks ws x, (logins sampleRuntime (failedStore 4 none) crossing).sessions[1]? =
          some (.running p ks ws) ∧ p.attempt = some x ∧
        ∀ u, (logins sampleRuntime (failedStore 4 none) crossing).store.tables.users.find?
            x.identity.id = some u → locked (some u) (x.now + 0) = true →
          x.recorded < (logins sampleRuntime (failedStore 4 none) crossing).store.recorded.count
            x.identity.id := by
  refine ⟨((lockout sampleRuntime).1 (failedStore 5 (some 60007)) "a@b.c" _ { now := 7 } "guess"
    "guess" rfl (by decide)).1, ?_⟩
  have hbefore : ((logins sampleRuntime (failedStore 4 none) crossing).store.tables.users.find? 1).map
      UserRow.failedLoginAttempts = some 5 := by decide
  obtain ⟨w, hw, hafter⟩ := Fallible.exists_ok (x := step (script sampleRuntime).program
      (.act 1 (.statement {})) (logins sampleRuntime (failedStore 4 none) crossing))
    (p := fun w => (w.store.tables.users.find? 1).map UserRow.failedLoginAttempts = some 6)
    (by decide)
  refine ⟨w, hw, (lockout sampleRuntime).2 (failedStore 4 none) crossing 1 {} w hw fun hsame => ?_⟩
  rw [decide_eq_true_eq, hsame.1, hbefore] at hafter
  cases hafter

/-- A locked account: the right password is told from a wrong one.  Two logins side by side: the
second failure is counted while the first has locked the account. -/
theorem lock_crossed :
    (alone sampleRuntime (failedStore 5 (some 60007)) "a@b.c" "correct horse" { now := 7 }).result =
      .error (.raised (.locked 60)) ∧
    (alone sampleRuntime (failedStore 5 (some 60007)) "a@b.c" "guess" { now := 7 }).result =
      .error (.raised invalidCredentials) ∧
    ((logins sampleRuntime (failedStore 4 none) crossing).store.tables.users.find? 1).map
      (fun u => (u.failedLoginAttempts, locked (some u) 1000)) = some (5, true) ∧
    ((logins sampleRuntime (failedStore 4 none)
      (crossing ++ [.act 1 (.statement {})])).store.tables.users.find? 1).map
      UserRow.failedLoginAttempts = some 6 :=
  ⟨rfl, rfl, by decide, by decide⟩

end CalmBoard.Lockout
