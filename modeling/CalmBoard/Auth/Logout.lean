import CalmBoard.Auth.Rotation

/-!
# CalmBoard.Auth.Logout — what a logout leaves of its session

A logout verifies its access token, validates the session and revokes it; whatever fails on the way
is swallowed.

* `logoutMove`: the statements of logouts among those of the other requests.
* `Effective`: the access token is accepted, and no statement of the logout fails.
* `logout_ends`: after an effective logout no token is rotated, and the session is not valid.
* `logout_swallowed`: with an expired access token the session goes on.
-/

namespace CalmBoard.Auth

open Sessions

/-- The claims of an access token; `exp` is in seconds. -/
structure AccessToken where
  sub : Uuid
  sid : Uuid
  exp : ℤ

/-- A logout, with the clock when it verifies its token, validates and revokes. -/
structure Logout where
  accessToken : AccessToken
  verifiedAt : ℤ
  validatedAt : ℤ
  revokedAt : ℤ

/-- `jwtVerify` of a token with a right signature. -/
def Logout.unexpired (x : Logout) : Bool := x.verifiedAt / 1000 < x.accessToken.exp

def Logout.validation (x : Logout) : Validation :=
  { sessionId := x.accessToken.sid, userId := some x.accessToken.sub, now := x.validatedAt }

def Logout.revocation (x : Logout) : Revocation :=
  { userId := x.accessToken.sub, scope := .one x.accessToken.sid "user_logout", now := x.revokedAt }

inductive RequestCall where
  | request (call : Call)
  | logout (x : Logout)

inductive RequestLocal where
  | request (l : Local)
  | verifying (x : Logout)
  | validating (x : Logout) (l : Local)
  | revoking (x : Logout) (l : Local)
  | answered (x : Logout)

/-- The call that the request is waiting for. -/
def RequestLocal.inner : RequestLocal → Local
  | .request l | .validating _ l | .revoking _ l => l
  | .verifying x | .answered x => .start (.validate x.validation)

def RequestCall.start : RequestCall → RequestLocal
  | .request call => .request (.start call)
  | .logout x => .verifying x

/-- `verifyAccessToken` has validated the session, or has thrown. -/
def afterValidate (x : Logout) : Outcome → RequestLocal
  | .valid => .revoking x (.start (.revoke x.revocation))
  | _ => .answered x

variable (hash : String → String)

/-- What a logout does between its calls. -/
def goOn (s : Store) : RequestLocal → Option (Store × RequestLocal)
  | .verifying x =>
    some (s, if x.unexpired then .validating x (.start (.validate x.validation)) else .answered x)
  | .validating x (.returned _ outcome) => some (s, afterValidate x outcome)
  | .revoking x (.returned ..) => some (s, .answered x)
  | _ => none

/-- The same request, at another point of its call. -/
def RequestLocal.set (l : Local) : RequestLocal → RequestLocal
  | .request _ => .request l
  | .validating x _ => .validating x l
  | .revoking x _ => .revoking x l
  | .verifying x => .verifying x
  | .answered x => .answered x

def RequestLocal.calls : RequestLocal → Bool
  | .request _ | .validating .. | .revoking .. => true
  | .verifying _ | .answered _ => false

/-- The next statement of the call that a request is waiting for, or what it does between two. -/
def logoutMove (a : Action) (s : Store) (m : RequestLocal) : Option (Store × RequestLocal) :=
  match if m.calls then move hash a s m.inner else none with
  | some (s', l) => some (s', m.set l)
  | none =>
    match a with
    | .next => goOn s m
    | .abort => none

def logoutProgram : Program RequestCall Store RequestLocal Lock Action where
  start := RequestCall.start
  locks m := m.inner.locks
  conflict k k' := k = k'
  move := logoutMove hash
  conflict_symm := Sessions.same_symm
  start_locks call := by cases call <;> rfl

/-- The access token is one of this session. -/
def Logout.Own (x : Logout) (s : Store) : Prop :=
  x.accessToken.sid = s.session.id ∧ x.accessToken.sub = s.session.userId

instance (x : Logout) (s : Store) : Decidable (x.Own s) := inferInstanceAs (Decidable (_ ∧ _))

/-- The access token of a logout and the session have not expired, and no statement of the logout
fails; none of this matters once the session is revoked. -/
def Effective (s : Store) : RequestLocal → Action → Prop
  | .verifying x, .next =>
    x.Own s → Revoked s ∨ (x.unexpired = true ∧ x.validatedAt < s.session.expiresAt)
  | .validating x _, .abort | .revoking x _, .abort => x.Own s → Revoked s
  | _, _ => True

instance (s : Store) : ∀ (m : RequestLocal) (a : Action), Decidable (Effective s m a)
  | .verifying x, .next =>
    inferInstanceAs (Decidable
      (x.Own s → Revoked s ∨ (x.unexpired = true ∧ x.validatedAt < s.session.expiresAt)))
  | .validating x _, .abort | .revoking x _, .abort => inferInstanceAs (Decidable (x.Own s → Revoked s))
  | .request _, _ | .answered _, _ | .verifying _, .abort | .validating _ _, .next
  | .revoking _ _, .next => .isTrue trivial

variable {hash} {s s' : Store} {a : Action} {l l' : Local} {m m' : RequestLocal} {x : Logout}

/-! ### The session and its calls -/

/-- No statement changes whose session it is, or brings it back. -/
structure SameSession (s s' : Store) : Prop where
  id : s'.session.id = s.session.id
  userId : s'.session.userId = s.session.userId
  expiresAt : s'.session.expiresAt = s.session.expiresAt
  revoked : Revoked s → Revoked s'

theorem SameSession.refl (s : Store) : SameSession s s := ⟨rfl, rfl, rfl, fun h => h⟩

theorem SameSession.trans {s₁ s₂ s₃ : Store} (h : SameSession s₁ s₂) (h' : SameSession s₂ s₃) :
    SameSession s₁ s₃ :=
  ⟨h'.id.trans h.id, h'.userId.trans h.userId, h'.expiresAt.trans h.expiresAt,
    fun hr => h'.revoked (h.revoked hr)⟩

theorem finishRotate_session {r : Rotation} {t : RefreshToken} {session : UserSession}
    (h : finishRotate hash r t session s = (s', l')) : SameSession s s' := by
  unfold finishRotate at h
  split at h
  · cases h
    split
    · exact ⟨rfl, rfl, rfl, fun _ => rfl⟩
    · exact SameSession.refl s
  · split at h
    · cases h
      split
      · exact ⟨rfl, rfl, rfl, fun _ => rfl⟩
      · exact SameSession.refl s
    · split at h
      · cases h
        exact SameSession.refl s
      · cases h
        exact ⟨rfl, rfl, rfl, fun h => h⟩

theorem move_session (h : move hash a s l = some (s', l')) : SameSession s s' := by
  unfold move at h
  split at h
  · cases h
  · cases h
    exact SameSession.refl s
  · cases h
    exact SameSession.refl s
  · cases h
    exact SameSession.refl s
  · cases h
    exact SameSession.refl s
  · cases h
    exact SameSession.refl s
  · exact finishRotate_session (Option.some.inj h)
  · cases h
    exact SameSession.refl s
  · cases h
    exact ⟨rfl, rfl, rfl, fun h => h⟩
  · cases h
    exact SameSession.refl s
  · cases h
    exact ⟨rfl, rfl, rfl, fun _ => rfl⟩

theorem validates_own (hown : x.Own s) (hnow : x.validatedAt < s.session.expiresAt)
    (h : ¬ validates x.validation s.session = true) : Revoked s := by
  by_contra hopen
  refine h ?_
  have hnone : s.session.revokedAt = none := by simpa [Revoked] using hopen
  simp [validates, Logout.validation, hown.1, hown.2, hnone, hnow]

/-- What a logout knows while it validates: its validation goes on, or has found the session valid, or
the session is revoked. -/
inductive Validating (x : Logout) (s : Store) : Local → Prop
  | start : Validating x s (.start (.validate x.validation))
  | stale : Validating x s (.stale x.validation)
  | touching : Validating x s (.touching x.validation)
  | revalidate : Validating x s (.revalidate x.validation)
  | valid (call : Call) : Validating x s (.returned call .valid)
  | ended (l : Local) (h : Revoked s) : Validating x s l

theorem Validating.next (h : Validating x s l) (hown : x.Own s)
    (hnow : x.validatedAt < s.session.expiresAt) (hmove : move hash .next s l = some (s', l')) :
    Validating x s' l' := by
  cases h with
  | start =>
    cases hmove
    unfold selectValid
    split
    · split
      · exact .stale
      · exact .valid _
    · next hv => exact .ended _ (validates_own hown hnow hv)
  | stale =>
    cases hmove
    unfold lockStale
    split
    · exact .touching
    · exact .revalidate
  | touching =>
    cases hmove
    exact .valid _
  | revalidate =>
    cases hmove
    unfold reselectValid
    split
    · exact .valid _
    · next hv => exact .ended _ (validates_own hown hnow hv)
  | valid call => cases hmove
  | ended l hr => exact .ended _ ((move_session hmove).revoked hr)

/-- What it knows while it revokes. -/
inductive Revoking (x : Logout) (s : Store) : Local → Prop
  | start : Revoking x s (.start (.revoke x.revocation))
  | revoking : Revoking x s (.revoking x.revocation)
  | ended (l : Local) (h : Revoked s) : Revoking x s l

theorem Revoking.next (h : Revoking x s l) (hown : x.Own s)
    (hmove : move hash .next s l = some (s', l')) : Revoking x s' l' := by
  cases h with
  | start =>
    cases hmove
    unfold lockRevoked
    split
    · exact .revoking
    · next hno =>
      refine .ended _ ?_
      by_contra hopen
      refine hno ?_
      have hnone : s.session.revokedAt = none := by simpa [Revoked] using hopen
      simp [revokes, Logout.revocation, hown.1, hown.2, hnone]
  | revoking =>
    cases hmove
    exact .ended _ rfl
  | ended l hr => exact .ended _ ((move_session hmove).revoked hr)

/-- What a request knows: of its call, and of its logout. -/
def Logs (s : Store) : RequestLocal → Prop
  | .request _ | .verifying _ => True
  | .validating x l => x.Own s → x.validatedAt < s.session.expiresAt ∧ Validating x s l ∨ Revoked s
  | .revoking x l => x.Own s → Revoking x s l
  | .answered x => x.Own s → Revoked s

theorem Logs.other (h : Logs s m) (hs : SameSession s s') : Logs s' m := by
  have hown : ∀ x : Logout, x.Own s' → x.Own s := fun x hx => ⟨hx.1.trans hs.id, hx.2.trans hs.userId⟩
  cases m with
  | request | verifying => trivial
  | validating x l =>
    intro hx
    rcases h (hown x hx) with ⟨hnow, hv⟩ | hr
    · refine Or.inl ⟨by rw [hs.expiresAt]; exact hnow, ?_⟩
      cases hv with
      | start => exact .start
      | stale => exact .stale
      | touching => exact .touching
      | revalidate => exact .revalidate
      | valid call => exact .valid call
      | ended l hr => exact .ended l (hs.revoked hr)
    · exact Or.inr (hs.revoked hr)
  | revoking x l =>
    intro hx
    cases h (hown x hx) with
    | start => exact .start
    | revoking => exact .revoking
    | ended l hr => exact .ended l (hs.revoked hr)
  | answered x => exact fun hx => hs.revoked (h (hown x hx))

theorem inner_set (hcalls : m.calls = true) (l : Local) : (m.set l).inner = l := by
  cases m with
  | request | validating | revoking => rfl
  | verifying | answered => cases hcalls

theorem logoutMove_cases (h : logoutMove hash a s m = some (s', m')) :
    (∃ l, m.calls = true ∧ move hash a s m.inner = some (s', l) ∧ m' = m.set l) ∨
      (a = .next ∧ s' = s ∧ goOn s m = some (s, m')) := by
  unfold logoutMove at h
  split at h
  · next r hmove =>
    cases h
    by_cases hcalls : m.calls = true
    · rw [if_pos hcalls] at hmove
      exact Or.inl ⟨_, hcalls, hmove, rfl⟩
    · rw [if_neg hcalls] at hmove
      cases hmove
  · cases a with
    | abort => cases h
    | next =>
      change goOn s m = some (s', m') at h
      have hs : s' = s := by
        unfold goOn at h
        split at h <;> cases h <;> rfl
      subst hs
      exact Or.inr ⟨rfl, rfl, h⟩

theorem goOn_start (h : goOn s m = some (s, m')) : ∃ call, m'.inner = .start call := by
  unfold goOn at h
  split at h
  · cases h
    split
    · exact ⟨_, rfl⟩
    · exact ⟨_, rfl⟩
  · next x call outcome =>
    cases h
    cases outcome <;> exact ⟨_, rfl⟩
  · cases h
    exact ⟨_, rfl⟩
  · cases h

theorem Logs.call (h : Logs s m) (hg : Effective s m a) (hcalls : m.calls = true)
    (hmove : move hash a s m.inner = some (s', l')) : Logs s' (m.set l') := by
  have hs := move_session hmove
  have hback : ∀ x : Logout, x.Own s' → x.Own s := fun x hx =>
    ⟨hx.1.trans hs.id, hx.2.trans hs.userId⟩
  cases m with
  | verifying | answered => cases hcalls
  | request l => trivial
  | validating x l =>
    intro hx
    rcases h (hback x hx) with ⟨hnow, hv⟩ | hr
    · cases a with
      | abort => exact Or.inr (hs.revoked (hg (hback x hx)))
      | next => exact Or.inl ⟨by rw [hs.expiresAt]; exact hnow, hv.next (hback x hx) hnow hmove⟩
    · exact Or.inr (hs.revoked hr)
  | revoking x l =>
    intro hx
    cases a with
    | abort => exact .ended _ (hs.revoked (hg (hback x hx)))
    | next => exact (h (hback x hx)).next (hback x hx) hmove

theorem Logs.goOn (h : Logs s m) (hg : Effective s m .next) (hgo : goOn s m = some (s, m')) :
    Logs s m' := by
  unfold Auth.goOn at hgo
  split at hgo
  · next x =>
    cases hgo
    split
    · intro hx
      rcases hg hx with hr | ⟨-, hnow⟩
      · exact Or.inr hr
      · exact Or.inl ⟨hnow, .start⟩
    · next hexpired =>
      intro hx
      rcases hg hx with hr | ⟨hunexpired, -⟩
      · exact hr
      · exact absurd hunexpired hexpired
  · next x call outcome =>
    cases hgo
    have hover : outcome ≠ .valid → x.Own s → Revoked s := by
      intro hne hx
      rcases h hx with ⟨-, hv⟩ | hr
      · cases hv with
        | valid => exact absurd rfl hne
        | ended _ hr => exact hr
      · exact hr
    cases outcome with
    | valid => exact fun _ => .start
    | rotated | reuse | invalid | revoked | notFound | failed => exact hover (by decide)
  · next x call outcome =>
    cases hgo
    intro hx
    cases h hx with
    | ended _ hr => exact hr
  · cases hgo

/-! ### Runs -/

theorem clash_inner (m n : RequestLocal) :
    (logoutProgram hash).clash m n = (program hash).clash m.inner n.inner := rfl

theorem logout_rules {I : Store → Prop} (hI : ∀ s s', I s → Consistent s → Later s s' → I s') :
    Rules (logoutProgram hash) Effective (fun s => Consistent s ∧ I s)
      (fun s m => Knows hash s m.inner ∧ Logs s m) where
  enter s call _ := by cases call <;> exact ⟨trivial, trivial⟩
  own s m a s' m' hs hm hg hmove := by
    rcases logoutMove_cases hmove with ⟨l, hcalls, hcall, rfl⟩ | ⟨rfl, rfl, hgo⟩
    · have hown := (rules_of hI).own s m.inner a s' l hs hm.1 trivial hcall
      exact ⟨hown.1, by rw [inner_set hcalls]; exact hown.2, hm.2.call hg hcalls hcall⟩
    · obtain ⟨call, hstart⟩ := goOn_start hgo
      exact ⟨hs, by rw [hstart]; trivial, hm.2.goOn hg hgo⟩
  other s m a s' m' n hs hm hn hclash hclash' hmove := by
    rcases logoutMove_cases hmove with ⟨l, hcalls, hcall, rfl⟩ | ⟨rfl, rfl, hgo⟩
    · rw [clash_inner, inner_set hcalls] at hclash'
      have hother := (rules_of hI).other s m.inner a s' l n.inner hs hm.1 hn.1 hclash hclash' hcall
      exact ⟨hother, hn.2.other (move_session hcall)⟩
    · exact hn

theorem request_rules {I : Store → Prop} (hI : ∀ s s', I s → Consistent s → Later s s' → I s') :
    Rules (logoutProgram hash) (fun _ _ _ => True) (fun s => Consistent s ∧ I s)
      (fun s m => Knows hash s m.inner) where
  enter s call _ := by cases call <;> trivial
  own s m a s' m' hs hm _ hmove := by
    rcases logoutMove_cases hmove with ⟨l, hcalls, hcall, rfl⟩ | ⟨rfl, rfl, hgo⟩
    · rw [inner_set hcalls]
      exact (rules_of hI).own s m.inner a s' l hs hm trivial hcall
    · obtain ⟨call, hstart⟩ := goOn_start hgo
      exact ⟨hs, by rw [hstart]; trivial⟩
  other s m a s' m' n hs hm hn hclash hclash' hmove := by
    rcases logoutMove_cases hmove with ⟨l, hcalls, hcall, rfl⟩ | ⟨rfl, rfl, hgo⟩
    · rw [clash_inner, inner_set hcalls] at hclash'
      exact (rules_of hI).other s m.inner a s' l n.inner hs hm hn hclash hclash' hcall
    · exact hn

theorem step_session {e : Event RequestCall Action} {w w' : World Store RequestLocal}
    (h : step (logoutProgram hash) e w = .ok w') : SameSession w.store w'.store := by
  cases e with
  | enter call =>
    cases h
    exact SameSession.refl _
  | act i a =>
    obtain ⟨m, m', s', -, hmove, -, rfl⟩ := step_act h
    rcases logoutMove_cases hmove with ⟨l, -, hcall, -⟩ | ⟨-, rfl, -⟩
    · exact move_session hcall
    · exact SameSession.refl _

theorem run_session (s : Store) (events : List (Event RequestCall Action)) :
    SameSession s (run (logoutProgram hash) (World.closed s) events).store :=
  Runs.run_invariant (I := fun w : World Store RequestLocal => SameSession s w.store)
    (fun _ _ _ hw hok => hw.trans (step_session hok)) events (World.closed s) (SameSession.refl s)

/-- **Logout**: in every run whose logouts of the session are effective, once one of them has been
answered no request rotates a token of the session or finds it valid any more. -/
theorem logout_ends (hash : String → String) (input : CreateAuthSessionInput) (userExists : Bool)
    (now : ℤ) (sessionId tokenId : Uuid) (refreshToken : String) (s : Store)
    (hcreate : create hash input userExists now sessionId tokenId refreshToken = some s)
    (events more : List (Event RequestCall Action))
    (hg : Runs.Guarded (step (logoutProgram hash)) (World.Meets Effective) (World.closed s) events)
    (i : ℕ) (x : Logout) (hx : x.Own s)
    (hi : (run (logoutProgram hash) (World.closed s) events).sessions[i]? = some (.answered x))
    (j : ℕ) (m : RequestLocal)
    (hj : (run (logoutProgram hash) (run (logoutProgram hash) (World.closed s) events)
      more).sessions[j]? = some m) (hgranted : m.inner.granted = true) :
    (run (logoutProgram hash) (World.closed s) events).sessions[j]? = some m := by
  have hw := run_rules (logout_rules (I := fun _ => True) fun _ _ _ _ _ => trivial) events
    (World.holds_closed ⟨create_consistent hcreate, trivial⟩) hg
  have hsame : SameSession s (run (logoutProgram hash) (World.closed s) events).store :=
    run_session s events
  have hrevoked : Revoked (run (logoutProgram hash) (World.closed s) events).store :=
    (hw.sessions i _ hi).2 ⟨hx.1.trans hsame.id.symm, hx.2.trans hsame.userId.symm⟩
  have hR : Rules (logoutProgram hash) (fun _ _ _ => True) (fun x => Consistent x ∧ Revoked x)
      (fun s m => Knows hash s m.inner) := request_rules fun _ _ hx _ hlater => hlater.revoked hx
  have hw' : World.Holds (logoutProgram hash) (fun x => Consistent x ∧ Revoked x)
      (fun s m => Knows hash s m.inner) (run (logoutProgram hash) (World.closed s) events) :=
    ⟨⟨hw.store.1, hrevoked⟩, fun k n hk => (hw.sessions k n hk).1, hw.apart⟩
  refine run_reflects (Q := fun m => m.inner.granted = true) hR ?_ ?_ more hw' hj hgranted
  · intro call h
    cases call <;> cases h
  · intro y n a y' n' hy hn hmove
    rcases logoutMove_cases hmove with ⟨l, hcalls, hcall, rfl⟩ | ⟨-, -, hgo⟩
    · rw [inner_set hcalls]
      exact not_granted hn hy.2 hcall
    · obtain ⟨call, hstart⟩ := goOn_start hgo
      rw [hstart]
      intro h
      cases h

/-! A session of user 1; its access token expires at 900 s, its first refresh token is `t0`. -/

def sampleLogout (verifiedAt : ℤ) : Logout :=
  { accessToken := { sub := 1, sid := 7, exp := 900 }, verifiedAt, validatedAt := verifiedAt
    revokedAt := verifiedAt }

def logoutEvents (verifiedAt : ℤ) : List (Event RequestCall Action) :=
  .enter (.logout (sampleLogout verifiedAt)) :: List.replicate 8 (.act 0 .next)

def refreshEvents : List (Event RequestCall Action) :=
  .enter (.request (.rotate { firstToken with now := 1000001 })) :: List.replicate 3 (.act 1 .next)

/-- **A logout that is swallowed**: the access token has expired a second before; the logout is
answered, and the refresh token is rotated afterwards. -/
theorem logout_swallowed :
    ∃ s, create id { userId := 1 } true 0 7 2 "t0" = some s ∧ (sampleLogout 901000).Own s ∧
      (run (logoutProgram id) (World.closed s) (logoutEvents 901000)).sessions[0]? =
        some (.answered (sampleLogout 901000)) ∧
      (run (logoutProgram id) (World.closed s) (logoutEvents 901000)).sessions[1]?.isNone = true ∧
      ((run (logoutProgram id) (run (logoutProgram id) (World.closed s) (logoutEvents 901000))
        refreshEvents).sessions[1]?.any fun m => m.inner.isRotated) = true :=
  ⟨_, rfl, by decide, rfl, by decide, by decide⟩

theorem logout_ends_sample :
    ∃ s, create id { userId := 1 } true 0 7 2 "t0" = some s ∧
      ∀ (j : ℕ) (m : RequestLocal), (run (logoutProgram id) (run (logoutProgram id) (World.closed s)
        (logoutEvents 60000)) refreshEvents).sessions[j]? = some m → m.inner.granted = true →
          (run (logoutProgram id) (World.closed s) (logoutEvents 60000)).sessions[j]? = some m :=
  ⟨_, rfl, logout_ends id { userId := 1 } true 0 7 2 "t0" _ rfl (logoutEvents 60000) refreshEvents
    (by decide) 0 (sampleLogout 60000) (by decide) rfl⟩

end CalmBoard.Auth
