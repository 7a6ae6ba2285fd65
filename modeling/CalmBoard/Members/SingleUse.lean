import CalmBoard.Members.Invitations

/-!
# CalmBoard.Members.SingleUse — an invitation is used once

* `Knows`: what a session that holds the row of the invitation knows of it.
* `move_cases`: a statement leaves the committed rows, or it is the commit of what was written.
* `invitation_single_use`: closed once, joined by the invited user alone, old tokens never accepted.
-/

namespace CalmBoard.Members.Invitation

open Sessions

variable {env : Env} {s s' : Store} {l l' : Local} {a : Action}

/-! ### What a session knows -/

variable {call : Call} {inv : InvitationRow}

/-- The row a session has locked is the committed one, and it is pending; one that accepts it has
seen its token and that it has not expired. -/
structure Open (env : Env) (inv : InvitationRow) (call : Call) (now : ℤ) : Prop where
  pending : inv.status = .pending
  admitted : ∀ t u, call = .accept t u → inv.named env t = true ∧ inv.expired now = false

/-- The user of a session has the address of the invitation. -/
def Intended (env : Env) (inv : InvitationRow) (users : Table UserRow UserRow.id) (call : Call) :
    Prop :=
  ∀ t u, call = .accept t u → isIntendedFor env users inv u = true

/-- What a call writes over the row it has locked. -/
def Follows (inv : InvitationRow) : Call → InvitationRow → Prop
  | .resend .., r => r.status = .pending
  | .revoke .., r => r.status = .revoked
  | .accept _ u, r => r.status = .accepted ∧ r.acceptedBy = some u
  | .decline .., r => r.status = .declined ∧ r.acceptedBy = inv.acceptedBy

/-- A membership that an accepting session has inserted. -/
def Joining (inv : InvitationRow) (call : Call) (inserted : Option MembershipRow) : Prop :=
  ∀ m, inserted = some m → ∃ t u, call = .accept t u ∧ m.userId = u ∧
    m.workspaceId = inv.workspaceId ∧ m.role = inv.role

theorem joining_none : Joining inv call none :=
  fun _ hm => by cases hm

/-- What a session that holds the row knows of it. -/
def Knows (env : Env) (inv : InvitationRow) (users : Table UserRow UserRow.id) : Local → Prop
  | .locked call row now => row = inv ∧ Open env inv call now
  | .identified call row now | .outside call row now | .missed call row now =>
    row = inv ∧ Open env inv call now ∧ Intended env inv users call
  | .member call row now inserted =>
    row = inv ∧ Open env inv call now ∧ Intended env inv users call ∧ Joining inv call inserted
  | .written call row now inserted =>
    Open env inv call now ∧ Intended env inv users call ∧ Joining inv call inserted ∧
      ∃ r, row = some r ∧ Follows inv call r
  | _ => True

/-! ### Statements -/

variable {row : InvitationRow} {now : ℤ}

def Call.resends : Call → Bool
  | .resend .. => true
  | _ => false

/-- A statement that commits nothing; a new token is one that was not generated before, and every
resend writes one. -/
structure Quiet (env : Env) (s s' : Store) (l' : Local) : Prop where
  invitation : s'.invitation = s.invitation
  memberships : s'.memberships = s.memberships
  users : s'.users = s.users
  generated : s.generated ≤ s'.generated
  knows : Knows env s.invitation s.users l'
  token : ∀ r, l'.wrote = some r →
    (l'.call.resends = false ∧ r.tokenHash = s.invitation.tokenHash) ∨
      (r.tokenHash = some (env.hash (env.token s.generated)) ∧ s.generated < s'.generated)

theorem quiet_of (hwrote : l.wrote = none) (hknows : Knows env s.invitation s.users l) :
    Quiet env s s l :=
  ⟨rfl, rfl, rfl, le_rfl, hknows, fun r hr => by rw [hwrote] at hr; cases hr⟩

theorem quiet_fail {e : RepoError} (h : fail call s e = (s', l')) : Quiet env s s' l' := by
  cases h
  exact quiet_of rfl trivial

theorem quiet_begin {pick : Option Uuid} (h : begin env call pick s = some (s', l')) :
    Quiet env s s' l' := by
  unfold begin at h
  split at h
  · obtain ⟨found, -, hfound⟩ := Option.map_eq_some_iff.mp h
    split at hfound
    · cases hfound
      exact quiet_of rfl trivial
    · exact quiet_fail hfound
  · obtain ⟨found, -, hfound⟩ := Option.map_eq_some_iff.mp h
    split at hfound
    · cases hfound
      exact quiet_of rfl trivial
    · exact quiet_fail hfound
  · split at h
    · exact quiet_fail (Option.some.inj h)
    · cases h
      exact quiet_of rfl trivial
  · split at h
    · exact quiet_fail (Option.some.inj h)
    · cases h
      exact quiet_of rfl trivial

theorem quiet_stillPending {message : String}
    (hadmitted : ∀ t u, call = .accept t u →
      s.invitation.named env t = true ∧ (s.invitation.status = .pending →
        s.invitation.expired now = false)) (h : stillPending call s now message = (s', l')) :
    Quiet env s s' l' := by
  unfold stillPending at h
  split at h
  · next hpending =>
    cases h
    refine quiet_of rfl ⟨rfl, hpending, fun t u hc => ?_⟩
    exact ⟨(hadmitted t u hc).1, (hadmitted t u hc).2 hpending⟩
  · exact quiet_fail h

theorem quiet_selectForUpdate (h : selectForUpdate env call now s = (s', l')) :
    Quiet env s s' l' := by
  unfold selectForUpdate at h
  cases call with
  | resend w u k =>
    dsimp only at h
    split at h
    · exact quiet_stillPending (fun _ _ hc => by cases hc) h
    · exact quiet_fail h
  | revoke w u k =>
    dsimp only at h
    split at h
    · next hsel =>
      cases h
      simp only [Bool.and_eq_true, decide_eq_true_eq] at hsel
      have hopen : Open env s.invitation (.revoke w u k) now := ⟨hsel.2, fun _ _ hc => by cases hc⟩
      have hintended : Intended env s.invitation s.users (.revoke w u k) := fun _ _ hc => by cases hc
      refine ⟨rfl, rfl, rfl, le_rfl, ⟨hopen, hintended, joining_none, _, rfl, rfl⟩,
        fun r hr => Or.inl ⟨rfl, ?_⟩⟩
      cases hr
      rfl
    · exact quiet_fail h
  | accept t u =>
    dsimp only at h
    split at h
    · next hnamed =>
      split at h
      · exact quiet_fail h
      · next hexpired =>
        refine quiet_stillPending (fun t' u' hc => ?_) h
        cases hc
        refine ⟨hnamed, fun hpending => ?_⟩
        simpa [hpending] using hexpired
    · exact quiet_fail h
  | decline t u =>
    dsimp only at h
    split at h
    · exact quiet_stillPending (fun _ _ hc => by cases hc) h
    · exact quiet_fail h

theorem quiet_close {t : ℤ} {inserted : Option MembershipRow} {f : InvitationRow → InvitationRow}
    (hcall : call.resends = false) (hrow : row = s.invitation) (hopen : Open env s.invitation call t)
    (hintended : Intended env s.invitation s.users call)
    (hjoining : Joining s.invitation call inserted)
    (hfollows : Follows s.invitation call (f s.invitation))
    (htoken : (f s.invitation).tokenHash = s.invitation.tokenHash)
    (h : close call row t inserted f s = (s', l')) : Quiet env s s' l' := by
  have hsel : (s.invitation.id = row.id && s.invitation.status = .pending) = true := by
    simp [hrow, hopen.pending]
  unfold close at h
  rw [if_pos hsel] at h
  cases h
  refine ⟨rfl, rfl, rfl, le_rfl, ⟨hopen, hintended, hjoining, _, rfl, hfollows⟩,
    fun r hr => Or.inl ⟨hcall, ?_⟩⟩
  cases hr
  exact htoken

theorem quiet_rotate {w k : Uuid} {u : Option Uuid} {t : ℤ}
    (hk : Knows env s.invitation s.users (.locked (.resend w u k) row t))
    (h : rotate env (.resend w u k) row now s = (s', l')) : Quiet env s s' l' := by
  obtain ⟨rfl, hopen⟩ := hk
  unfold rotate at h
  rw [if_pos rfl] at h
  cases h
  have hopen' : Open env s.invitation (.resend w u k) now :=
    ⟨hopen.pending, fun _ _ hc => by cases hc⟩
  have hintended : Intended env s.invitation s.users (.resend w u k) := fun _ _ hc => by cases hc
  refine ⟨rfl, rfl, rfl, Nat.le_succ _, ⟨hopen', hintended, joining_none, _, rfl, hopen.pending⟩,
    fun r hr => Or.inr ?_⟩
  cases hr
  exact ⟨rfl, Nat.lt_succ_self _⟩

theorem quiet_identify {u : Uuid} (hcall : ∀ t' u', call = .accept t' u' → u' = u)
    (hk : Knows env s.invitation s.users (.locked call row now))
    (h : identify env call row now u s = (s', l')) : Quiet env s s' l' := by
  obtain ⟨rfl, hopen⟩ := hk
  unfold identify at h
  split at h
  · next hintended =>
    cases h
    refine quiet_of rfl ⟨rfl, hopen, fun t' u' hc => ?_⟩
    rw [hcall t' u' hc]
    exact hintended
  · exact quiet_fail h

theorem quiet_insertMembership {t : String} {u : Uuid}
    (hk : Knows env s.invitation s.users (.outside (.accept t u) row now))
    (h : insertMembership env (.accept t u) row now u s = (s', l')) : Quiet env s s' l' := by
  obtain ⟨rfl, hopen, hintended⟩ := hk
  unfold insertMembership at h
  dsimp only at h
  split at h
  · cases h
    exact ⟨rfl, rfl, rfl, le_rfl, ⟨rfl, hopen, hintended⟩, fun r hr => by cases hr⟩
  · cases h
    refine ⟨rfl, rfl, rfl, le_rfl, ⟨rfl, hopen, hintended, fun m hm => ?_⟩,
      fun r hr => by cases hr⟩
    cases hm
    exact ⟨t, u, rfl, rfl, rfl, rfl⟩

theorem quiet_proceed (hk : Knows env s.invitation s.users l)
    (h : proceed env now s l = some (s', l')) : Quiet env s s' l' := by
  unfold proceed at h
  split at h
  · exact quiet_rotate hk (Option.some.inj h)
  · exact quiet_identify (fun _ _ hc => by cases hc; rfl) hk (Option.some.inj h)
  · exact quiet_identify (fun _ _ hc => by cases hc) hk (Option.some.inj h)
  · obtain ⟨hrow, hopen, hintended⟩ := hk
    have h := Option.some.inj h
    unfold existing at h
    split at h
    · cases h
      exact quiet_of rfl ⟨hrow, hopen, hintended, joining_none⟩
    · cases h
      exact quiet_of rfl ⟨hrow, hopen, hintended⟩
  · obtain ⟨hrow, hopen, hintended⟩ := hk
    exact quiet_close rfl hrow hopen hintended joining_none ⟨rfl, rfl⟩ rfl (Option.some.inj h)
  · exact quiet_insertMembership hk (Option.some.inj h)
  · obtain ⟨hrow, hopen, hintended⟩ := hk
    have h := Option.some.inj h
    unfold reselect at h
    split at h
    · cases h
      exact quiet_of rfl ⟨hrow, hopen, hintended, joining_none⟩
    · exact quiet_fail h
  · obtain ⟨hrow, hopen, hintended, hjoining⟩ := hk
    exact quiet_close rfl hrow hopen hintended hjoining ⟨rfl, rfl⟩ rfl (Option.some.inj h)
  · cases h

/-- The commit of what a session has written. -/
structure Commits (a : Action) (s s' : Store) (l l' : Local) : Prop where
  wrote : ∃ r, l.wrote = some r ∧ s'.invitation = r
  users : s'.users = s.users
  generated : s'.generated = s.generated
  kept : l.inserted = none → s'.memberships = s.memberships
  joined : ∀ m, l.inserted = some m → s.memberships.insert? m = some s'.memberships
  done : ∃ call read row inserted now pick, l = .written call row read inserted ∧
    a = .next now pick ∧ l' = .returned call (.ok ())

theorem commits_commit {row : Option InvitationRow} {inserted : Option MembershipRow} {read : ℤ}
    {pick : Option Uuid} (hk : Knows env s.invitation s.users (.written call row read inserted))
    (h : commit call row inserted s = some (s', l')) :
    Commits (.next now pick) s s' (.written call row read inserted) l' := by
  obtain ⟨-, -, -, r, rfl, -⟩ := hk
  unfold commit at h
  cases inserted with
  | none =>
    cases h
    exact ⟨⟨r, rfl, rfl⟩, rfl, rfl, fun _ => rfl, fun m hm => (by cases hm),
      _, _, _, _, _, _, rfl, rfl, rfl⟩
  | some m =>
    obtain ⟨T, hT, h⟩ := Option.bind_eq_some_iff.mp h
    cases h
    refine ⟨⟨r, rfl, rfl⟩, rfl, rfl, fun hm => (by cases hm), fun m' hm => ?_,
      _, _, _, _, _, _, rfl, rfl, rfl⟩
    cases hm
    exact hT

/-- **Statements**: they leave the committed rows, or they are the commit of what was written. -/
theorem move_cases (hk : Knows env s.invitation s.users l) (h : move env a s l = some (s', l')) :
    Quiet env s s' l' ∨ Commits a s s' l l' := by
  unfold move at h
  split at h
  · cases h
  · exact Or.inl (quiet_fail (Option.some.inj h))
  · exact Or.inl (quiet_begin h)
  · split at h
    · split at h
      · cases h
        exact Or.inl (quiet_of rfl trivial)
      · exact Or.inl (quiet_fail (Option.some.inj h))
    · cases h
  · exact Or.inl (quiet_selectForUpdate (Option.some.inj h))
  · exact Or.inr (commits_commit hk h)
  · exact Or.inl (quiet_proceed hk h)

/-! ### Sessions together -/

variable {h : String} {n : ℕ}

theorem holds_of_wrote {r : InvitationRow} (h : l.wrote = some r) : l.holds = true := by
  cases l with
  | written => rfl
  | _ => cases h

theorem knows_of_free {users : Table UserRow UserRow.id} (h : l.holds = false) :
    Knows env inv users l := by
  cases l with
  | start | workspace | select | returned => trivial
  | _ => cases h

theorem free_of_clash {m : Local} (hl : l.holds = true)
    (hclash : (program env).clash l m = false) : m.holds = false := by
  by_contra hm
  rw [Bool.not_eq_false] at hm
  have hlocks : ∀ k : Local, k.holds = true → Lock.invitation ∈ k.locks := by
    intro k hk
    unfold Local.locks
    rw [if_pos hk]
    exact List.mem_append_left _ List.mem_cons_self
  have hself : (program env).conflict .invitation .invitation = true := by simp [program]
  exact not_locked hself hclash (hlocks l hl) (hlocks m hm)

theorem Commits.holds (h : Commits a s s' l l') : l.holds = true := by
  obtain ⟨r, hr, -⟩ := h.wrote
  exact holds_of_wrote hr

/-- What a session knows, together with a property of the row its call has written. -/
def Holding (env : Env) (W : Store → Call → InvitationRow → Prop) (s : Store) (l : Local) : Prop :=
  Knows env s.invitation s.users l ∧ ∀ r, l.wrote = some r → W s l.call r

/-- **Sessions**: an invariant of the store and one of the rows that are written, when quiet
statements keep both and the commit of a pending invitation keeps the first. -/
theorem rules_of {I : Store → Prop} {W : Store → Call → InvitationRow → Prop}
    (hquiet : ∀ s s' l', I s → Quiet env s s' l' → I s' ∧ ∀ r, l'.wrote = some r → W s' l'.call r)
    (hkeep : ∀ s s' l' c r, I s → Quiet env s s' l' → W s c r → W s' c r)
    (hcommit : ∀ s s' c r, I s → W s c r → s.invitation.status = .pending → s'.invitation = r →
      s'.generated = s.generated → I s') :
    Rules (program env) (fun _ _ _ => True) I (Holding env W) where
  enter _ _ _ := ⟨trivial, fun _ hr => by cases hr⟩
  own s l a s' l' hI hL _ hmove := by
    rcases move_cases hL.1 hmove with hq | hc
    · obtain ⟨hI', hW⟩ := hquiet s s' l' hI hq
      exact ⟨hI', hq.invitation ▸ hq.users ▸ hq.knows, hW⟩
    · obtain ⟨r, hr, hinv⟩ := hc.wrote
      obtain ⟨call, read, row, inserted, now, pick, rfl, -, rfl⟩ := hc.done
      have hpending : s.invitation.status = .pending := hL.1.1.pending
      exact ⟨hcommit s s' call r hI (hL.2 r hr) hpending hinv hc.generated, trivial,
        fun _ hr => by cases hr⟩
  other s l a s' l' m hI hL hm hclash _ hmove := by
    rcases move_cases hL.1 hmove with hq | hc
    · exact ⟨hq.invitation ▸ hq.users ▸ hm.1, fun r hr => hkeep s s' l' m.call r hI hq (hm.2 r hr)⟩
    · have hfree := free_of_clash hc.holds hclash
      refine ⟨knows_of_free hfree, fun r hr => ?_⟩
      rw [holds_of_wrote hr] at hfree
      cases hfree

theorem rules_closed (hclosed : inv.status ≠ .pending) :
    Rules (program env) (fun _ _ _ => True) (fun s => s.invitation = inv)
      (Holding env fun _ _ _ => True) := by
  refine rules_of (fun s s' l' hI hq => ⟨hq.invitation.trans hI, fun _ _ => trivial⟩)
    (fun _ _ _ _ _ _ _ _ => trivial) fun s s' c r hI _ hpending _ _ => ?_
  rw [hI] at hpending
  exact absurd hpending hclosed

/-- The first `n` tokens are new, and so are their hashes. -/
structure FreshTokens (env : Env) (inv : InvitationRow) (n : ℕ) : Prop where
  distinct : ∀ i j, i < j → j < n → env.hash (env.token i) ≠ env.hash (env.token j)
  fresh : ∀ k < n, inv.tokenHash ≠ some (env.hash (env.token k))

/-- A row does not have a token that is still to come. -/
def Past (env : Env) (n : ℕ) (s : Store) (r : InvitationRow) : Prop :=
  s.generated ≤ n → ∀ k, s.generated ≤ k → k < n →
    r.tokenHash ≠ some (env.hash (env.token k))

/-- What a resend has written is not the token that it replaces. -/
def Sent (n : ℕ) (s : Store) (c : Call) (r : InvitationRow) : Prop :=
  c.resends = true → s.generated ≤ n → r.tokenHash ≠ s.invitation.tokenHash

theorem rules_past
    (hdistinct : ∀ i j, i < j → j < n → env.hash (env.token i) ≠ env.hash (env.token j)) :
    Rules (program env) (fun _ _ _ => True) (fun s => Past env n s s.invitation)
      (Holding env fun s c r => Past env n s r ∧ Sent n s c r) := by
  have hlater : ∀ s s' : Store, ∀ r, s.generated ≤ s'.generated → Past env n s r → Past env n s' r :=
    fun s s' r hle hp hn k hk hkn => hp (hle.trans hn) k (hle.trans hk) hkn
  refine rules_of (fun s s' l' hI hq => ⟨?_, fun r hr => ?_⟩)
    (fun s s' l' c r _ hq hp => ⟨hlater s s' r hq.generated hp.1, fun hc hn => ?_⟩)
    fun s s' c r _ hp _ hinv hgen => ?_
  · rw [hq.invitation]
    exact hlater s s' _ hq.generated hI
  · rcases hq.token r hr with ⟨hplain, hsame⟩ | ⟨hnew, hlt⟩
    · refine ⟨fun hn k hk hkn => ?_, fun hc => ?_⟩
      · rw [hsame]
        exact hI (hq.generated.trans hn) k (hq.generated.trans hk) hkn
      · rw [hplain] at hc
        cases hc
    · refine ⟨fun hn k hk hkn he => ?_, fun _ hn he => ?_⟩
      · rw [hnew] at he
        exact hdistinct s.generated k (lt_of_lt_of_le hlt hk) hkn (Option.some.inj he)
      · rw [hq.invitation, hnew] at he
        exact hI (hq.generated.trans hn) s.generated le_rfl (lt_of_lt_of_le hlt hn) he.symm
  · rw [hq.invitation]
    exact hp.2 hc (hq.generated.trans hn)
  · rw [hinv]
    exact hlater s s' r hgen.ge hp.1

/-- A hash that is none of the tokens to come. -/
def Gone (env : Env) (n : ℕ) (h : String) (s : Store) : Prop :=
  s.generated ≤ n → ∀ k, s.generated ≤ k → k < n → env.hash (env.token k) ≠ h

theorem Gone.later (hgone : Gone env n h s) (hle : s.generated ≤ s'.generated) :
    Gone env n h s' := fun hn k hk hkn => hgone (hle.trans hn) k (hle.trans hk) hkn

theorem rules_gone :
    Rules (program env) (fun _ _ _ => True) (Gone env n h) (Holding env fun s _ r =>
      s.generated ≤ n → r.tokenHash = some h → s.invitation.tokenHash = some h) := by
  refine rules_of (fun s s' l' hI hq => ⟨hI.later hq.generated, fun r hr hn he => ?_⟩)
    (fun s s' l' c r _ hq hp hn he => ?_) fun s s' c r hI _ _ _ hgen => hI.later hgen.ge
  · rcases hq.token r hr with ⟨-, hsame⟩ | ⟨hnew, hlt⟩
    · rw [hq.invitation, ← hsame, he]
    · rw [hnew] at he
      exact absurd (Option.some.inj he)
        (hI (hq.generated.trans hn) s.generated le_rfl (lt_of_lt_of_le hlt hn))
  · rw [hq.invitation]
    exact hp (hq.generated.trans hn) he

theorem rules_replaced :
    Rules (program env) (fun _ _ _ => True)
      (fun s => Gone env n h s ∧ (s.generated ≤ n → s.invitation.tokenHash ≠ some h))
      (Holding env fun s _ r => s.generated ≤ n → r.tokenHash ≠ some h) := by
  refine rules_of (fun s s' l' hI hq => ⟨⟨hI.1.later hq.generated, fun hn => ?_⟩,
    fun r hr hn he => ?_⟩) (fun s s' l' c r _ hq hp hn => hp (hq.generated.trans hn))
    fun s s' c r hI hp _ hinv hgen => ⟨hI.1.later hgen.ge, fun hn => ?_⟩
  · rw [hq.invitation]
    exact hI.2 (hq.generated.trans hn)
  · rcases hq.token r hr with ⟨-, hsame⟩ | ⟨hnew, hlt⟩
    · exact hI.2 (hq.generated.trans hn) (hsame.symm.trans he)
    · rw [hnew] at he
      exact hI.1 (hq.generated.trans hn) s.generated le_rfl (lt_of_lt_of_le hlt hn)
        (Option.some.inj he)
  · rw [hinv]
    exact hp (hgen ▸ hn)

/-! ### Runs -/

variable {e : Event Call Action}

abbrev Race := World Store Local

/-- The world after a sequence of events around an invitation. -/
def after (env : Env) (setup : Store) (events : List (Event Call Action)) : Race :=
  run (program env) (.closed setup) events

/-- An event is the commit of a session in which `userId` accepts with a token; `read` is its clock
when it locked the row. -/
def Accepts (w : Race) (e : Event Call Action) (w' : Race) (rawToken : String) (userId : Uuid)
    (read : ℤ) : Prop :=
  ∃ i now pick row inserted, e = .act i (.next now pick) ∧
    w.sessions[i]? = some (.written (.accept rawToken userId) row read inserted) ∧
    w'.sessions[i]? = some (.returned (.accept rawToken userId) (.ok ()))

/-- An event is the commit of a session that resends the invitation. -/
def Resends (w : Race) (e : Event Call Action) (w' : Race) : Prop :=
  ∃ i now pick workspaceId actorId invitationId row read inserted, e = .act i (.next now pick) ∧
    w.sessions[i]? = some (.written (.resend workspaceId actorId invitationId) row read inserted) ∧
    w'.sessions[i]? = some (.returned (.resend workspaceId actorId invitationId) (.ok ()))

/-- What every session that holds the row knows. -/
def Known (env : Env) (w : Race) : Prop :=
  w.Holds (program env) (fun _ => True) (Holding env fun _ _ _ => True)

theorem rules_known : Rules (program env) (fun _ _ _ => True) (fun _ => True)
    (Holding env fun _ _ _ => True) :=
  rules_of (fun _ _ _ _ _ => ⟨trivial, fun _ _ => trivial⟩) (fun _ _ _ _ _ _ _ _ => trivial)
    fun _ _ _ _ _ _ _ _ _ => trivial

theorem known_run {w : Race} (h : Known env w) (events : List (Event Call Action)) :
    Known env (run (program env) w events) := run_always rules_known events h

theorem known_after (setup : Store) (events : List (Event Call Action)) :
    Known env (after env setup events) := known_run (World.holds_closed trivial) events

/-- **Closed once**: an invitation that is not pending stays as it is. -/
theorem Known.closed {w : Race} (h : Known env w) (hclosed : w.store.invitation.status ≠ .pending)
    (more : List (Event Call Action)) :
    (run (program env) w more).store.invitation = w.store.invitation :=
  (run_always (rules_closed hclosed) more ⟨rfl, h.sessions, h.apart⟩).store

/-- What a new membership says about the invitation: a session of the invited user accepts it, while
it is pending and was not expired when the session locked it. -/
structure Joined (env : Env) (w : Race) (e : Event Call Action) (w' : Race) (m : MembershipRow)
    (rawToken : String) (read : ℤ) : Prop where
  accepts : Accepts w e w' rawToken m.userId read
  pending : w.store.invitation.status = .pending
  unexpired : w.store.invitation.expired read = false
  named : w.store.invitation.named env rawToken = true
  intended : isIntendedFor env w.store.users w.store.invitation m.userId = true
  place : m.workspaceId = w.store.invitation.workspaceId ∧ m.role = w.store.invitation.role
  accepted : w'.store.invitation.status = .accepted ∧
    w'.store.invitation.acceptedBy = some m.userId

/-- **Membership**: rows are inserted by accepting sessions alone. -/
theorem Known.joined {w w' : Race} (h : Known env w) (hok : step (program env) e w = .ok w')
    {m : MembershipRow} (hm : m ∈ w'.store.memberships.rows) (hnew : m ∉ w.store.memberships.rows) :
    ∃ rawToken read, Joined env w e w' m rawToken read := by
  cases e with
  | enter call =>
    cases hok
    exact absurd hm hnew
  | act i a =>
    obtain ⟨l, l', s, hl, hmove, -, rfl⟩ := step_act hok
    have hknows := (h.sessions i l hl).1
    rcases move_cases hknows hmove with hq | hc
    · exact absurd (hq.memberships ▸ hm) hnew
    obtain ⟨call, read, row, inserted, now, pick, rfl, rfl, rfl⟩ := hc.done
    cases inserted with
    | none => exact absurd (hc.kept rfl ▸ hm) hnew
    | some k =>
      have hrows := (Table.insert?_eq_some (hc.joined k rfl)).2
      have hmk : m = k := by
        rcases List.mem_append.mp (hrows ▸ hm) with hm | hm
        · exact absurd hm hnew
        · exact List.mem_singleton.mp hm
      obtain ⟨hopen, hintended, hjoining, r, rfl, hfollows⟩ := hknows
      obtain ⟨t, u, rfl, hu, hplace⟩ := hjoining k rfl
      obtain ⟨r', hr', hinv⟩ := hc.wrote
      cases hr'
      obtain ⟨hnamed, hunexpired⟩ := hopen.admitted t u rfl
      have hi : i < w.sessions.length := (List.getElem?_eq_some_iff.mp hl).1
      subst hmk
      subst hu
      refine ⟨t, read, ⟨i, now, pick, _, _, rfl, hl, List.getElem?_set_self hi⟩, hopen.pending,
        hunexpired, hnamed, hintended t _ rfl, hplace, ?_⟩
      show s.invitation.status = _ ∧ s.invitation.acceptedBy = _
      rw [hinv]
      exact hfollows

theorem Known.accepts {w w' : Race} (h : Known env w) {t : String} {u : Uuid} {read : ℤ}
    (ha : Accepts w e w' t u read) : w.store.invitation.tokenHash = some (env.hash t) := by
  obtain ⟨i, now, pick, row, inserted, -, hl, -⟩ := ha
  have hopen : Open env w.store.invitation (.accept t u) read := (h.sessions i _ hl).1.1
  have hnamed := (hopen.admitted t u rfl).1
  unfold InvitationRow.named at hnamed
  simp only [Bool.and_eq_true, decide_eq_true_eq] at hnamed
  exact hnamed.2

/-- **Rotation**: a token that a later one has replaced is never accepted. -/
theorem replaced_token {setup : Store} (hfresh : FreshTokens env setup.invitation n)
    (events more later : List (Event Call Action))
    (hold : (after env setup events).store.invitation.tokenHash = some h)
    (hreplaced : (run (program env) (after env setup events) more).store.invitation.tokenHash ≠ some h)
    {w : Race} (hw : w = run (program env) (run (program env) (after env setup events) more) later)
    (hn : w.store.generated ≤ n) {w' : Race} {t : String} {u : Uuid} {read : ℤ}
    (ha : Accepts w e w' t u read) : env.hash t ≠ h := by
  set w₀ := after env setup events
  have hknown : Known env w₀ := known_after setup events
  have hpast := run_always (rules_past hfresh.distinct) events
    (World.holds_closed fun _ k _ hkn => hfresh.fresh k hkn)
  have hgone : Gone env n h w₀.store := fun hn k hk hkn he => hpast.store hn k hk hkn (he ▸ hold)
  have hmore := run_always (rules_gone (h := h)) more
    ⟨hgone, fun i l hl => ⟨(hknown.sessions i l hl).1, fun _ _ _ _ => hold⟩, hknown.apart⟩
  have hlater := run_always (rules_replaced (h := h)) later
    ⟨⟨hmore.store, fun _ => hreplaced⟩, fun i l hl => ⟨(hmore.sessions i l hl).1,
      fun r hr hn he => hreplaced ((hmore.sessions i l hl).2 r hr hn he)⟩, hmore.apart⟩
  have hknown' : Known env w := hw ▸ known_run (known_run hknown more) later
  intro he
  rw [← hw] at hlater
  exact hlater.store.2 hn (he ▸ hknown'.accepts ha)

theorem generated_run (w : Race) (events : List (Event Call Action)) (h : Known env w) :
    w.store.generated ≤ (run (program env) w events).store.generated := by
  have hR : Rules (program env) (fun _ _ _ => True) (fun s => w.store.generated ≤ s.generated)
      (Holding env fun _ _ _ => True) :=
    rules_of (fun _ _ _ hI hq => ⟨hI.trans hq.generated, fun _ _ => trivial⟩)
      (fun _ _ _ _ _ _ _ _ => trivial) fun _ _ _ _ hI _ _ _ hgen => hI.trans hgen.ge
  exact (run_always hR events ⟨le_rfl, h.sessions, h.apart⟩).store

/-- **A resend** replaces the token. -/
theorem resend_replaces {setup : Store} (hfresh : FreshTokens env setup.invitation n)
    (events : List (Event Call Action)) {w' : Race}
    (hok : step (program env) e (after env setup events) = .ok w')
    (hresend : Resends (after env setup events) e w') (hn : w'.store.generated ≤ n) :
    w'.store.invitation.tokenHash ≠ (after env setup events).store.invitation.tokenHash := by
  obtain ⟨i, now, pick, workspaceId, actorId, invitationId, row, read, inserted, rfl, hl, -⟩ := hresend
  obtain ⟨l₀, l', s, hl₀, hmove, -, rfl⟩ := step_act hok
  rw [hl] at hl₀
  cases hl₀
  have hpast := run_always (rules_past hfresh.distinct) events
    (World.holds_closed fun _ k _ hkn => hfresh.fresh k hkn)
  obtain ⟨hk, hsent⟩ := hpast.sessions i _ hl
  have hc : Commits (.next now pick) _ s _ l' := commits_commit hk hmove
  obtain ⟨r, hr, hinv⟩ := hc.wrote
  rw [hinv]
  exact (hsent r hr).2 rfl (hc.generated ▸ hn)

theorem resent_token {setup : Store} (hfresh : FreshTokens env setup.invitation n)
    (events more later : List (Event Call Action))
    (hold : (after env setup events).store.invitation.tokenHash = some h) {w₁ : Race}
    (hok : step (program env) e (run (program env) (after env setup events) more) = .ok w₁)
    (hresend : Resends (run (program env) (after env setup events) more) e w₁)
    (hn : (run (program env) w₁ later).store.generated ≤ n) {e' : Event Call Action} {w' : Race}
    {t : String} {u : Uuid} {read : ℤ} (ha : Accepts (run (program env) w₁ later) e' w' t u read) :
    env.hash t ≠ h := by
  have hone : run (program env) (run (program env) (after env setup events) more) [e] = w₁ := by
    show Runs.exec _ _ _ = _
    rw [Runs.exec_of_ok hok]
  have hrun : ∀ later, run (program env) w₁ later =
      run (program env) (run (program env) (after env setup events) more) (e :: later) := by
    intro later
    rw [← hone, ← run_append]
    rfl
  by_cases hkept : (run (program env) (after env setup events) more).store.invitation.tokenHash = some h
  · have hmore : run (program env) (after env setup events) more = after env setup (events ++ more) :=
      (run_append _ _ _).symm
    have hknown : Known env w₁ := hone ▸ known_run (known_run (known_after setup events) more) [e]
    rw [hmore] at hok hresend hkept
    have hreplaced := resend_replaces hfresh (events ++ more) hok hresend
      ((generated_run w₁ later hknown).trans hn)
    refine replaced_token hfresh events (more ++ [e]) later hold ?_ ?_ hn ha
    · rw [run_append, hone, ← hkept]
      exact hreplaced
    · rw [run_append, hone]
  · exact replaced_token hfresh events more (e :: later) hold hkept (hrun later) hn ha

/-- **Single use**: at any moment of any run of calls on an invitation, once it is closed it never
changes; a membership is inserted by an accepting session of the invited user alone; and of the
tokens that were current before, those that were replaced are never accepted, and none is after a
resend. -/
theorem invitation_single_use (env : Env) (setup : Store) (n : ℕ)
    (hfresh : FreshTokens env setup.invitation n) (events : List (Event Call Action)) :
    ((after env setup events).store.invitation.status ≠ .pending → ∀ more,
      (run (program env) (after env setup events) more).store.invitation =
        (after env setup events).store.invitation) ∧
    (∀ e w', step (program env) e (after env setup events) = .ok w' →
      ∀ m ∈ w'.store.memberships.rows, m ∉ (after env setup events).store.memberships.rows →
        ∃ rawToken read, Joined env (after env setup events) e w' m rawToken read) ∧
    (∀ h more, (after env setup events).store.invitation.tokenHash = some h →
      (run (program env) (after env setup events) more).store.invitation.tokenHash ≠ some h →
        ∀ later w, w = run (program env) (run (program env) (after env setup events) more) later →
          w.store.generated ≤ n → ∀ e w' t u read, Accepts w e w' t u read → env.hash t ≠ h) ∧
    ∀ h more, (after env setup events).store.invitation.tokenHash = some h →
      ∀ e w₁, step (program env) e (run (program env) (after env setup events) more) = .ok w₁ →
        Resends (run (program env) (after env setup events) more) e w₁ →
          ∀ later, (run (program env) w₁ later).store.generated ≤ n → ∀ e' w' t u read,
            Accepts (run (program env) w₁ later) e' w' t u read → env.hash t ≠ h :=
  ⟨fun hclosed more => (known_after setup events).closed hclosed more,
    fun _ _ hok _ hm hnew => (known_after setup events).joined hok hm hnew,
    fun _ more hold hreplaced later _ hw hn _ _ _ _ _ ha =>
      replaced_token hfresh events more later hold hreplaced hw hn ha,
    fun _ more hold _ _ hok hresend later hn _ _ _ _ _ ha =>
      resent_token hfresh events more later hold hok hresend hn ha⟩

/-- A week, and tokens of one organization. -/
def sent : Env where
  lower := String.toLower
  token
    | 0 => "v1.7f1d1f0e-5b7c-4c37-9a35-0d6a3f1c2b11.SlVga3aBjJeirbjDztnk7_oFEBsmMTxHUl1oc36JlJ8"
    | _ => "v1.7f1d1f0e-5b7c-4c37-9a35-0d6a3f1c2b11.b3qFkJumsbzH0t3o8_4JFB8qNUBLVmFsd4KNmKOuucQ"
  hash t :=
    if t = "v1.7f1d1f0e-5b7c-4c37-9a35-0d6a3f1c2b11.SlVga3aBjJeirbjDztnk7_oFEBsmMTxHUl1oc36JlJ8" then
      "561e47220cbc5fb8c7d9ed64a8241785f203a4e4e2408dfdb9f34037b0fa94f6"
    else "4087ef7517e13840f4f214a5454f03c883e7e23b3433dcd5566d2f82f13b859d"
  tokenOrganizationId _ := some 3
  uuid n := 100 + n
  lifetime := 604800000

/-- An invitation a manager has sent to a user. -/
def invited : Store where
  invitation :=
    { id := 20, organizationId := 3, workspaceId := some 5, email := "sara@example.org"
      tokenHash := some "9bdb4d657f5ce9d3b18653b28967232b4fdbd2e453acaf514d27a79d4521adad"
      tokenVersion := 1, expiresAt := some (.ofMillis 604800000), updatedAt := .ofMillis 0 }
  memberships := ⟨[{ id := 11, userId := 1, workspaceId := some 5, role := .admin }], by decide⟩
  users := ⟨[{ id := 1, email := "omar@example.org" }, { id := 2, email := "sara@example.org" }],
    by decide⟩
  workspaces := [5]

/-- The manager sends it again, and the user accepts it. -/
def resentAndAccepted : List (Event Call Action) :=
  .enter (.resend 5 (some 1) 20) :: List.replicate 5 (.act 0 (.next 1000 (some 11))) ++
    .enter (.accept (sent.token 0) 2) :: List.replicate 7 (.act 1 (.next 2000 none))

theorem invitation_single_use_resent :
    (after sent invited resentAndAccepted).store.invitation.acceptedBy = some 2 ∧ ∀ more,
      (run (program sent) (after sent invited resentAndAccepted) more).store.invitation =
        (after sent invited resentAndAccepted).store.invitation :=
  have hdistinct : ∀ j < 2, ∀ i < j, sent.hash (sent.token i) ≠ sent.hash (sent.token j) := by
    decide
  have hfresh : FreshTokens sent invited.invitation 2 :=
    ⟨fun i j hij hj => hdistinct j hj i hij, by decide⟩
  ⟨by decide +kernel,
    (invitation_single_use sent invited 2 hfresh resentAndAccepted).1 (by decide +kernel)⟩

end CalmBoard.Members.Invitation
