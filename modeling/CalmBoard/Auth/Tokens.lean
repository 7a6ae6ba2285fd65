import CalmBoard.Values
import CalmBoard.Lib.Table
import CalmBoard.Lib.Requests

/-!
# CalmBoard.Auth.Tokens — tokens for e-mail verification, password reset and MFA login

* `statement`: `issue`, `issueEmail`, `verifyEmail`, `consumeMfaChallenge` and `resetPassword`,
  statement by statement.
* `Nexts`, `Finishing`: what a statement leads to.
* `token_view`: what the writes of a transaction leave alone.
-/

namespace CalmBoard.Tokens

open Requests

inductive AuthTokenPurpose where
  | emailVerification | passwordReset | mfaLogin
  deriving DecidableEq

def tokenTtl : AuthTokenPurpose → ℤ
  | .emailVerification => 24 * 60 * 60 * 1000
  | .passwordReset => 30 * 60 * 1000
  | .mfaLogin => 5 * 60 * 1000

/-- `auth_tokens`; times are in milliseconds. -/
structure AuthToken where
  tokenHash : String
  userId : Uuid
  purpose : AuthTokenPurpose
  expiresAt : ℤ
  consumedAt : Option ℤ := none
  invalidatedAt : Option ℤ := none
  deriving DecidableEq

/-- `auth_email_outbox`; the token is named by its hash. -/
structure OutboxEmail where
  id : Uuid
  userId : Uuid
  tokenHash : String
  purpose : AuthTokenPurpose
  deriving DecidableEq

structure UserRow where
  id : Uuid
  emailVerifiedAt : Option ℤ := none
  passwordHash : Option String := none
  passwordChangedAt : Option ℤ := none
  failedLoginAttempts : ℕ := 0
  lockedUntil : Option ℤ := none

structure UserSession where
  id : Uuid
  userId : Uuid
  isCurrent : Bool := false
  revokedAt : Option ℤ := none
  revokeReason : Option String := none

structure Store where
  tokens : Table AuthToken AuthToken.tokenHash := Table.empty
  outbox : Table OutboxEmail OutboxEmail.id := Table.empty
  users : Table UserRow UserRow.id := Table.empty
  sessions : Table UserSession UserSession.id := Table.empty

/-- Neither consumed nor invalidated. -/
def AuthToken.isOpen (t : AuthToken) : Bool := t.consumedAt.isNone && t.invalidatedAt.isNone

/-! ### Calls -/

/-- A new token; `issueEmail` has drawn an id for its e-mail. -/
structure Issue where
  userId : Uuid
  purpose : AuthTokenPurpose
  token : String
  outboxId : Option Uuid := none
  now : ℤ
  deriving DecidableEq

/-- A token that is presented; `consumeMfaChallenge` knows its user. -/
structure Consumption where
  token : String
  purpose : AuthTokenPurpose
  userId : Option Uuid := none
  now : ℤ
  deriving DecidableEq

inductive Call where
  | issue (userId : Uuid) (purpose : AuthTokenPurpose) (token : String) (now : ℤ)
  | issueEmail (userId : Uuid) (purpose : AuthTokenPurpose) (token : String) (outboxId : Uuid)
      (now : ℤ)
  | verifyEmail (token : String) (now : ℤ)
  | consumeMfaChallenge (token : String) (userId : Uuid) (now : ℤ)
  | resetPassword (token passwordHash : String) (now : ℤ)

/-- What a call does once it has consumed a token. -/
inductive Use where
  | verifyEmail
  | mfaLogin
  | resetPassword (passwordHash : String)
  deriving DecidableEq

inductive Result where
  | issued (x : Issue)
  | accepted (c : Consumption)
  /-- consumed, for a user that does not exist -/
  | missing (c : Consumption)
  | rejected | failed
  deriving DecidableEq

/-- The statement that comes next. -/
inductive Point where
  | advisoryLock (x : Issue)
  | invalidate (x : Issue)
  | insertToken (x : Issue)
  | insertOutbox (x : Issue) (outboxId : Uuid)
  | commitIssue (x : Issue)
  | consume (c : Consumption) (use : Use)
  | verifyUser (c : Consumption) (userId : Uuid)
  | resetUser (c : Consumption) (userId : Uuid) (passwordHash : String)
  | revokeSessions (c : Consumption) (userId : Uuid)
  | commitConsumed (c : Consumption) (found : Bool)
  deriving DecidableEq

/-- An advisory lock, a lock of a row, or of the entry of the open token of a user and a purpose in
its unique index. -/
inductive Lock where
  | advisory (key : ℤ)
  | token (tokenHash : String)
  | active (userId : Uuid) (purpose : AuthTokenPurpose)
  | outbox (id : Uuid)
  | user (id : Uuid)
  | session (id : Uuid)
  deriving DecidableEq

inductive Write where
  | invalidate (tokenHashes : List String) (now : ℤ)
  | insertToken (t : AuthToken)
  | insertOutbox (email : OutboxEmail)
  | consume (tokenHash : String) (now : ℤ)
  | verifyUser (userId : Uuid) (now : ℤ)
  | resetUser (userId : Uuid) (passwordHash : String) (now : ℤ)
  | revokeSessions (ids : List Uuid) (now : ℤ)
  deriving DecidableEq

def AuthToken.invalidate (now : ℤ) (t : AuthToken) : AuthToken := { t with invalidatedAt := some now }

def AuthToken.consume (now : ℤ) (t : AuthToken) : AuthToken := { t with consumedAt := some now }

@[simp] theorem AuthToken.invalidate_hash (now : ℤ) (t : AuthToken) :
    (t.invalidate now).tokenHash = t.tokenHash := rfl

@[simp] theorem AuthToken.consume_hash (now : ℤ) (t : AuthToken) :
    (t.consume now).tokenHash = t.tokenHash := rfl

def UserRow.verify (now : ℤ) (u : UserRow) : UserRow := { u with emailVerifiedAt := some now }

def UserRow.reset (passwordHash : String) (now : ℤ) (u : UserRow) : UserRow :=
  { u with
    passwordHash := some passwordHash, passwordChangedAt := some now
    failedLoginAttempts := 0, lockedUntil := none }

def UserSession.revoke (now : ℤ) (x : UserSession) : UserSession :=
  { x with isCurrent := false, revokedAt := some now, revokeReason := some "password_reset" }

def Write.apply : Write → Store → Store
  | .invalidate hs now, s =>
    { s with
      tokens := s.tokens.update (fun t => hs.contains t.tokenHash) (AuthToken.invalidate now)
        (AuthToken.invalidate_hash now) }
  | .insertToken t, s => { s with tokens := (s.tokens.insert? t).getD s.tokens }
  | .insertOutbox email, s => { s with outbox := s.outbox.upsert email }
  | .consume h now, s =>
    { s with
      tokens := s.tokens.update (fun t => t.tokenHash = h) (AuthToken.consume now)
        (AuthToken.consume_hash now) }
  | .verifyUser userId now, s =>
    { s with users := s.users.update (fun u => u.id = userId) (UserRow.verify now) fun _ => rfl }
  | .resetUser userId passwordHash now, s =>
    { s with
      users := s.users.update (fun u => u.id = userId) (UserRow.reset passwordHash now) fun _ => rfl }
  | .revokeSessions ids now, s =>
    { s with
      sessions := s.sessions.update (fun x => ids.contains x.id) (UserSession.revoke now)
        fun _ => rfl }

/-! ### Statements -/

/-- What the code and the database compute: SHA-256 in hexadecimal, and
`hashtext` of the text of a user and a purpose. -/
structure Hashes where
  hashAuthToken : String → String
  hashtext : Uuid → AuthTokenPurpose → ℤ

variable (H : Hashes)

/-- The row that a call inserts. -/
def Issue.row (x : Issue) : AuthToken :=
  { tokenHash := H.hashAuthToken x.token, userId := x.userId, purpose := x.purpose
    expiresAt := x.now + tokenTtl x.purpose }

def Consumption.hash (c : Consumption) : String := H.hashAuthToken c.token

def openTokens (userId : Uuid) (purpose : AuthTokenPurpose) (s : Store) : List AuthToken :=
  s.tokens.rows.filter fun t => t.userId = userId && t.purpose = purpose && t.isOpen

/-- The condition of the conditional updates. -/
def Consumption.admits (c : Consumption) (t : AuthToken) : Bool :=
  t.purpose = c.purpose && c.userId.all (fun userId => t.userId = userId) && t.isOpen &&
    c.now < t.expiresAt

/-- `validate_auth_email_outbox`, the unique indexes and the check of the purpose. -/
def outboxAdmits (x : Issue) (outboxId : Uuid) (dbNow : ℤ) (s : Store) : Bool :=
  x.purpose ≠ .mfaLogin && (s.outbox.find? outboxId).isNone &&
    (s.outbox.rows.all fun email => email.tokenHash ≠ (x.row H).tokenHash) &&
      ((s.tokens.find? (x.row H).tokenHash).any fun t =>
        t.userId = x.userId && t.purpose = x.purpose && t.isOpen && dbNow < t.expiresAt)

def openSessions (userId : Uuid) (s : Store) : List Uuid :=
  (s.sessions.rows.filter fun x => x.userId = userId && x.revokedAt.isNone).map UserSession.id

/-- The statement after a token has been consumed. -/
def Use.next (c : Consumption) (userId : Uuid) : Use → Point
  | .verifyEmail => .verifyUser c userId
  | .mfaLogin => .commitConsumed c true
  | .resetPassword passwordHash => .resetUser c userId passwordHash

/-- One statement of a call, at a time of the database. -/
def statement (dbNow : ℤ) (p : Point) (s : Store) : Outcome Point Lock Write Result :=
  match p with
  | .advisoryLock x => .next (.invalidate x) [.advisory (H.hashtext x.userId x.purpose)] []
  | .invalidate x =>
    let hs := (openTokens x.userId x.purpose s).map AuthToken.tokenHash
    .next (.insertToken x) (hs.map .token) [.invalidate hs x.now]
  | .insertToken x =>
    if (s.tokens.find? (x.row H).tokenHash).isSome || !(openTokens x.userId x.purpose s).isEmpty ||
        (x.row H).expiresAt ≤ dbNow then .fail .failed
    else
      .next (x.outboxId.elim (.commitIssue x) (.insertOutbox x))
        [.token (x.row H).tokenHash, .active x.userId x.purpose] [.insertToken (x.row H)]
  | .insertOutbox x outboxId =>
    if outboxAdmits H x outboxId dbNow s then
      .next (.commitIssue x) [.outbox outboxId]
        [.insertOutbox { id := outboxId, userId := x.userId, tokenHash := (x.row H).tokenHash
                         purpose := x.purpose }]
    else .fail .failed
  | .commitIssue x => .finish (.issued x)
  | .consume c use =>
    match (s.tokens.find? (c.hash H)).filter c.admits with
    | none => .fail .rejected
    | some t => .next (use.next c t.userId) [.token (c.hash H)] [.consume (c.hash H) c.now]
  | .verifyUser c userId =>
    .next (.commitConsumed c (s.users.find? userId).isSome) [.user userId] [.verifyUser userId c.now]
  | .resetUser c userId passwordHash =>
    .next (.revokeSessions c userId) [.user userId] [.resetUser userId passwordHash c.now]
  | .revokeSessions c userId =>
    .next (.commitConsumed c true) ((openSessions userId s).map .session)
      [.revokeSessions (openSessions userId s) c.now]
  | .commitConsumed c found => .finish (if found then .accepted c else .missing c)

def Call.first : Call → Point
  | .issue userId purpose token now => .advisoryLock { userId, purpose, token, now }
  | .issueEmail userId purpose token outboxId now =>
    .advisoryLock { userId, purpose, token, outboxId := some outboxId, now }
  | .verifyEmail token now => .consume { token, purpose := .emailVerification, now } .verifyEmail
  | .consumeMfaChallenge token userId now =>
    .consume { token, purpose := .mfaLogin, userId := some userId, now } .mfaLogin
  | .resetPassword token passwordHash now =>
    .consume { token, purpose := .passwordReset, now } (.resetPassword passwordHash)

def script : Script Call Store ℤ Point Lock Write Result where
  first := Call.first
  apply := Write.apply
  statement := statement H
  conflict k k' := k = k'
  conflict_symm k k' := by simp [eq_comm]

/-! ### What a statement leads to -/

variable {H} {s : Store} {dbNow : ℤ} {p p' : Point} {ks ks' : List Lock} {ws ws' : List Write}
  {r : Result}

/-- The tokens that a transaction has consumed or issued. -/
inductive Nexts (H : Hashes) (s : Store) : Point → Point → List Lock → List Write → Prop
  | advisoryLock (x : Issue) :
      Nexts H s (.advisoryLock x) (.invalidate x) [.advisory (H.hashtext x.userId x.purpose)] []
  | invalidate (x : Issue) {hs : List String}
      (hs_eq : hs = (openTokens x.userId x.purpose s).map AuthToken.tokenHash) :
      Nexts H s (.invalidate x) (.insertToken x) (hs.map .token) [.invalidate hs x.now]
  | insertToken (x : Issue) {p : Point} (hp : p = .commitIssue x ∨ ∃ id, p = .insertOutbox x id)
      (hfresh : s.tokens.find? (x.row H).tokenHash = none)
      (hnone : openTokens x.userId x.purpose s = []) :
      Nexts H s (.insertToken x) p [.token (x.row H).tokenHash, .active x.userId x.purpose]
        [.insertToken (x.row H)]
  | insertOutbox (x : Issue) (outboxId : Uuid) (email : OutboxEmail) :
      Nexts H s (.insertOutbox x outboxId) (.commitIssue x) [.outbox outboxId] [.insertOutbox email]
  | consume (c : Consumption) (use : Use) {t : AuthToken}
      (ht : s.tokens.find? (c.hash H) = some t) (hadmits : c.admits t = true) :
      Nexts H s (.consume c use) (use.next c t.userId) [.token (c.hash H)]
        [.consume (c.hash H) c.now]
  | verifyUser (c : Consumption) (userId : Uuid) (found : Bool) :
      Nexts H s (.verifyUser c userId) (.commitConsumed c found) [.user userId]
        [.verifyUser userId c.now]
  | resetUser (c : Consumption) (userId : Uuid) (passwordHash : String) :
      Nexts H s (.resetUser c userId passwordHash) (.revokeSessions c userId) [.user userId]
        [.resetUser userId passwordHash c.now]
  | revokeSessions (c : Consumption) (userId : Uuid) (ids : List Uuid) :
      Nexts H s (.revokeSessions c userId) (.commitConsumed c true) (ids.map .session)
        [.revokeSessions ids c.now]

theorem nexts_of_next (h : statement H dbNow p s = .next p' ks ws) : Nexts H s p p' ks ws := by
  cases p with
  | advisoryLock x =>
    cases h
    exact .advisoryLock x
  | invalidate x =>
    cases h
    exact .invalidate x rfl
  | insertToken x =>
    simp only [statement] at h
    split at h
    · cases h
    · next hguard =>
      cases h
      simp only [Bool.or_eq_true, Bool.not_eq_true', decide_eq_true_eq, not_or,
        Option.not_isSome_iff_eq_none, Bool.not_eq_false, List.isEmpty_iff] at hguard
      refine .insertToken x ?_ hguard.1.1 hguard.1.2
      cases x.outboxId with
      | none => exact Or.inl rfl
      | some id => exact Or.inr ⟨id, rfl⟩
  | insertOutbox x outboxId =>
    simp only [statement] at h
    split at h
    · cases h
      exact .insertOutbox x outboxId _
    · cases h
  | consume c use =>
    simp only [statement] at h
    split at h
    · cases h
    · next t ht =>
      cases h
      obtain ⟨ht, hadmits⟩ := Option.filter_eq_some_iff.mp ht
      exact .consume c use ht hadmits
  | verifyUser c userId =>
    cases h
    exact .verifyUser c userId _
  | resetUser c userId passwordHash =>
    cases h
    exact .resetUser c userId passwordHash
  | revokeSessions c userId =>
    cases h
    exact .revokeSessions c userId _
  | commitIssue | commitConsumed => cases h

theorem not_commit (h : statement H dbNow p s = .commit p') : False := by
  cases p with
  | insertToken | insertOutbox | consume =>
    simp only [statement] at h
    split at h <;> cases h
  | advisoryLock | invalidate | commitIssue | verifyUser | resetUser | revokeSessions
  | commitConsumed => cases h

/-- The ends of the calls. -/
inductive Finishing : Point → Result → Prop
  | issued (x : Issue) : Finishing (.commitIssue x) (.issued x)
  | accepted (c : Consumption) : Finishing (.commitConsumed c true) (.accepted c)
  | missing (c : Consumption) : Finishing (.commitConsumed c false) (.missing c)

theorem finishing_of_finish (h : statement H dbNow p s = .finish r) : Finishing p r := by
  cases p with
  | commitIssue x =>
    cases h
    exact .issued x
  | commitConsumed c found =>
    cases h
    cases found with
    | true => exact .accepted c
    | false => exact .missing c
  | insertToken | insertOutbox | consume =>
    simp only [statement] at h
    split at h <;> cases h
  | advisoryLock | invalidate | verifyUser | resetUser | revokeSessions => cases h

theorem fail_result (h : statement H dbNow p s = .fail r) : r = .rejected ∨ r = .failed := by
  cases p with
  | insertToken | insertOutbox | consume =>
    simp only [statement] at h
    split at h <;> cases h
    all_goals first | exact Or.inl rfl | exact Or.inr rfl
  | advisoryLock | invalidate | commitIssue | verifyUser | resetUser | revokeSessions
  | commitConsumed => cases h

/-! ### What a transaction does to the tokens -/

/-- The tokens that a write is about. -/
def Write.locks : Write → List Lock
  | .invalidate hs _ => hs.map .token
  | .insertToken t => [.token t.tokenHash, .active t.userId t.purpose]
  | .consume h _ => [.token h]
  | .insertOutbox _ | .verifyUser .. | .resetUser .. | .revokeSessions .. => []

theorem Nexts.covered (h : Nexts H s p p' ks ws) : Covered Write.locks ks ws := by
  cases h with
  | advisoryLock => exact covered_nil _ _
  | invalidate | insertToken | consume => exact covered_singleton fun k hk => hk
  | insertOutbox | verifyUser | resetUser | revokeSessions =>
    exact covered_singleton fun k hk => by cases hk

theorem token_apply {w : Write} {h : String} (hw : Lock.token h ∉ w.locks) :
    (w.apply s).tokens.find? h = s.tokens.find? h := by
  cases w with
  | insertOutbox | verifyUser | resetUser | revokeSessions => rfl
  | insertToken t =>
    have ht : t.tokenHash ≠ h := fun he => hw (he ▸ List.mem_cons_self)
    simp only [Write.apply]
    cases hi : s.tokens.insert? t with
    | none => rfl
    | some T => rw [Option.getD_some, Table.find?_insert? hi, if_neg ht]
  | invalidate hs now =>
    simp only [Write.apply, Table.find?_update]
    cases hf : s.tokens.find? h with
    | none => rfl
    | some t =>
      have ht : t.tokenHash ∉ hs := by
        rw [Table.key_of_find? hf]
        exact fun hm => hw (List.mem_map_of_mem hm)
      simp [ht]
  | consume k now =>
    simp only [Write.apply, Table.find?_update]
    cases hf : s.tokens.find? h with
    | none => rfl
    | some t =>
      have ht : t.tokenHash ≠ k := by
        rw [Table.key_of_find? hf]
        exact fun he => hw (he ▸ List.mem_singleton_self _)
      simp [ht]

theorem token_view {h : String} (hws : Covered Write.locks ks ws) (hk : Lock.token h ∉ ks)
    (s : Store) : ((script H).view s ws).tokens.find? h = s.tokens.find? h :=
  view_frame (f := fun s => s.tokens.find? h) (fun _ _ hw => token_apply hw) hws hk s

theorem not_open_invalidate (now : ℤ) (t : AuthToken) : (t.invalidate now).isOpen = false := by
  simp [AuthToken.isOpen, AuthToken.invalidate]

theorem not_open_consume (now : ℤ) (t : AuthToken) : (t.consume now).isOpen = false := by
  simp [AuthToken.isOpen, AuthToken.consume]

theorem open_update {T : Table AuthToken AuthToken.tokenHash} {q : AuthToken → Bool}
    {f : AuthToken → AuthToken} (hf : ∀ t, (f t).tokenHash = t.tokenHash) {t : AuthToken}
    (hclosed : ∀ t, (f t).isOpen = false) (ht : t ∈ (T.update q f hf).rows)
    (hopen : t.isOpen = true) : t ∈ T.rows ∧ q t = false := by
  obtain ⟨u, hu, rfl⟩ := Table.mem_update.mp ht
  split at hopen
  · rw [hclosed] at hopen
    cases hopen
  · next hq =>
    rw [if_neg hq]
    exact ⟨hu, by simpa using hq⟩

theorem open_apply {w : Write} {t : AuthToken} (ht : t ∈ (w.apply s).tokens.rows)
    (hopen : t.isOpen = true) : t ∈ s.tokens.rows ∨ w = .insertToken t := by
  cases w with
  | insertOutbox | verifyUser | resetUser | revokeSessions => exact Or.inl ht
  | invalidate hs now => exact Or.inl (open_update (AuthToken.invalidate_hash now) (not_open_invalidate now) ht hopen).1
  | consume h now => exact Or.inl (open_update (AuthToken.consume_hash now) (not_open_consume now) ht hopen).1
  | insertToken u =>
    simp only [Write.apply] at ht
    cases hi : s.tokens.insert? u with
    | none =>
      rw [hi] at ht
      exact Or.inl ht
    | some T =>
      rw [hi, Option.getD_some, (Table.insert?_eq_some hi).2] at ht
      rcases List.mem_append.mp ht with ht | ht
      · exact Or.inl ht
      · rw [List.mem_singleton.mp ht]
        exact Or.inr rfl

theorem open_view {t : AuthToken} (ht : t ∈ ((script H).view s ws).tokens.rows)
    (hopen : t.isOpen = true) : t ∈ s.tokens.rows ∨ .insertToken t ∈ ws := by
  induction ws generalizing s with
  | nil => exact Or.inl ht
  | cons w ws ih =>
    rcases ih ht with ht | ht
    · rcases open_apply ht hopen with ht | rfl
      · exact Or.inl ht
      · exact Or.inr List.mem_cons_self
    · exact Or.inr (List.mem_cons_of_mem w ht)

/-! ### Closed tokens stay closed -/

/-- Every token is still there, and a closed one is still closed. -/
def Later (s s' : Store) : Prop :=
  ∀ h t, s.tokens.find? h = some t → ∃ t', s'.tokens.find? h = some t' ∧ t'.userId = t.userId ∧
    t'.purpose = t.purpose ∧ (t.isOpen = false → t'.isOpen = false)

theorem Later.refl (s : Store) : Later s s := fun _ t ht => ⟨t, ht, rfl, rfl, id⟩

theorem Later.trans {s₁ s₂ s₃ : Store} (h : Later s₁ s₂) (h' : Later s₂ s₃) : Later s₁ s₃ := by
  intro k t ht
  obtain ⟨u, hu, huser, hpurpose, hclosed⟩ := h k t ht
  obtain ⟨v, hv, hvuser, hvpurpose, hvclosed⟩ := h' k u hu
  exact ⟨v, hv, hvuser.trans huser, hvpurpose.trans hpurpose, fun hc => hvclosed (hclosed hc)⟩

theorem later_apply (w : Write) (s : Store) : Later s (w.apply s) := by
  intro h t ht
  cases w with
  | insertOutbox | verifyUser | resetUser | revokeSessions => exact ⟨t, ht, rfl, rfl, id⟩
  | insertToken u =>
    simp only [Write.apply]
    cases hi : s.tokens.insert? u with
    | none => exact ⟨t, ht, rfl, rfl, id⟩
    | some T =>
      have hu : u.tokenHash ≠ h := by
        rintro rfl
        rw [(Table.insert?_eq_some hi).1] at ht
        cases ht
      exact ⟨t, by rw [Option.getD_some, Table.find?_insert? hi, if_neg hu, ht], rfl, rfl, id⟩
  | invalidate hs now =>
    simp only [Write.apply, Table.find?_update, ht, Option.map_some]
    refine ⟨_, rfl, ?_⟩
    split
    · exact ⟨rfl, rfl, fun _ => not_open_invalidate now t⟩
    · exact ⟨rfl, rfl, id⟩
  | consume k now =>
    simp only [Write.apply, Table.find?_update, ht, Option.map_some]
    refine ⟨_, rfl, ?_⟩
    split
    · exact ⟨rfl, rfl, fun _ => not_open_consume now t⟩
    · exact ⟨rfl, rfl, id⟩

theorem later_view (s : Store) (ws : List Write) : Later s ((script H).view s ws) := by
  induction ws generalizing s with
  | nil => exact Later.refl s
  | cons w ws ih => exact (later_apply w s).trans (ih (w.apply s))

end CalmBoard.Tokens
