import CalmBoard.Auth.Logins

/-!
# CalmBoard.Auth.StaleLogins — logins that a reset or a deletion should end

* `Store.admits`: a user may enter, with a challenge of after the last reset.
* `effect_admits`: only resets, deletion claims and anonymizations end that.
* `stale_logins_die`: in runs where a challenge is redeemed only while it is current, and nothing
  that ends a login commits while it is being completed, every session is created for an available
  user and from a current challenge.
* `stale_sessions`: runs that create a session after a reset, and after a deletion claim.
-/

namespace CalmBoard.Logins

open Sessions

variable {lower : String → String} {verify : String → String → Bool}
  {s s' : Store} {l l' : Local} {p : Uuid × Option ℕ} {t : Transaction} {io : Io}

/-- The user is neither disabled nor anonymized, and the challenge, if there was one, is not older
than the last reset. -/
def UserRow.admits (u : UserRow) (challenge : Option ℕ) : Bool :=
  u.lifecycleState.available && challenge.all fun n => u.resets ≤ n

def Store.admits (s : Store) (p : Uuid × Option ℕ) : Bool :=
  (s.users.find? p.1).any fun u => u.admits p.2

/-- The session is one that may have been created. -/
def Created.Live (x : Created) : Prop :=
  x.lifecycleState.available = true ∧ ∀ n, x.challenge = some n → x.resets ≤ n

instance (x : Created) : Decidable x.Live :=
  inferInstanceAs (Decidable (_ ∧ ∀ _, _ → _))

/-- The user and the challenge of a login that has passed its checks. -/
def Local.enters : Local → Option (Uuid × Option ℕ)
  | .admitted u => some (u, none)
  | .consumed u challenge => some (u, some challenge)
  | .succeeding u challenge | .creating u challenge | .inserting u challenge
  | .holding (.loginSuccess u challenge _) => some (u, challenge)
  | _ => none

/-- What the transaction does ends such a login. -/
def Transaction.ends (t : Transaction) (p : Uuid × Option ℕ) : Bool :=
  t.userId = p.1 &&
    match t with
    | .resetPassword .. => p.2.isSome
    | .claimDeletion .. | .anonymize .. => true
    | _ => false

theorem admits_iff :
    s.admits p = true ↔ ∃ u, s.users.find? p.1 = some u ∧ u.admits p.2 = true := by
  unfold Store.admits
  exact Option.any_eq_true _ _

theorem user_admits_iff {u : UserRow} {challenge : Option ℕ} :
    u.admits challenge = true ↔
      u.lifecycleState.available = true ∧ ∀ n, challenge = some n → u.resets ≤ n := by
  unfold UserRow.admits
  rw [Bool.and_eq_true]
  cases challenge with
  | none => simp
  | some m => simp

/-! ### Users -/

theorem admits_write {u : UserRow} (hid : t.userId = p.1) (hends : t.ends p = false)
    (h : u.admits p.2 = true) : (t.write u).admits p.2 = true := by
  obtain ⟨havailable, hchallenge⟩ := user_admits_iff.mp h
  unfold Transaction.ends at hends
  rw [decide_eq_true hid, Bool.true_and] at hends
  cases t with
  | loginFailure | loginSuccess => exact h
  | resetPassword userId tokenHash passwordHash found now =>
    have hnone : p.2 = none := Option.not_isSome_iff_eq_none.mp (by simpa using hends)
    rw [hnone]
    exact user_admits_iff.mpr ⟨havailable, fun _ hn => (by cases hn)⟩
  | schedule | cancel => exact user_admits_iff.mpr ⟨rfl, hchallenge⟩
  | claimDeletion | anonymize => cases hends

theorem rest_users (h : t.rest s = some s') : s'.users = s.users := by
  cases t with
  | schedule userId requestId scheduledFor =>
    obtain ⟨requests, -, rfl⟩ := Option.map_eq_some_iff.mp h
    rfl
  | loginFailure | loginSuccess | resetPassword | cancel | claimDeletion | anonymize =>
    cases h
    rfl

theorem commit_find (h : t.commit s = some s') (id : Uuid) :
    s'.users.find? id =
      (s.users.find? id).map fun u => if u.id = t.userId then t.write u else u := by
  obtain ⟨s₁, hrest, rfl⟩ := Option.map_eq_some_iff.mp h
  show (s₁.users.update _ t.write t.write_id).find? id = _
  rw [Table.find?_update, rest_users hrest]
  simp only [decide_eq_true_eq]

theorem commit_admits (hends : t.ends p = false) (hs : s.admits p = true)
    (h : t.commit s = some s') : s'.admits p = true := by
  obtain ⟨u, hu, hadmits⟩ := admits_iff.mp hs
  refine admits_iff.mpr ⟨_, (commit_find h p.1).trans (congrArg _ hu), ?_⟩
  show (if u.id = t.userId then t.write u else u).admits p.2 = true
  split
  · next hid => exact admits_write (hid.symm.trans (Table.key_of_find? hu)) hends hadmits
  · exact hadmits

theorem admits_congr (h : s'.users = s.users) : s'.admits p = s.admits p := by
  unfold Store.admits
  rw [h]

theorem issue_users {u : Uuid} {purpose : Purpose} {tokenHash : String} {now : ℤ}
    (h : issue u purpose tokenHash now s = some s') : s'.users = s.users ∧ s'.created = s.created := by
  obtain ⟨tokens, -, rfl⟩ := Option.map_eq_some_iff.mp h
  exact ⟨rfl, rfl⟩

theorem insertSession_eq {u id : Uuid} {challenge : Option ℕ}
    (h : insertSession u challenge id s = some s') :
    ∃ user, s.users.find? u = some user ∧ s'.users = s.users ∧
      s'.created = s.created ++ [⟨u, challenge, user.resets, user.lifecycleState⟩] := by
  unfold insertSession at h
  obtain ⟨user, huser, h⟩ := Option.bind_eq_some_iff.mp h
  obtain ⟨sessions, -, h⟩ := Option.bind_eq_some_iff.mp h
  cases h
  exact ⟨user, huser, rfl, rfl⟩

/-! ### Statements -/

/-- What a statement does to the users, and which sessions it creates. -/
inductive Effect (s : Store) (l : Local) (s' : Store) : Prop
  | none (husers : s'.users = s.users) (hcreated : s'.created = s.created)
  | register (user : UserRow) (husers : s.users.insert? user = some s'.users)
    (hcreated : s'.created = s.created)
  | commit (t : Transaction) (hl : l = .holding t) (h : t.commit s = some s')
  | insert (u id : Uuid) (challenge : Option ℕ) (hl : l = .inserting u challenge)
    (h : insertSession u challenge id s = some s')

theorem start_effect {call : Call} (h : start lower verify io s call = some (s', l')) :
    Effect s (.called call) s' := by
  cases call with
  | login email password =>
    cases h
    exact .none rfl rfl
  | forgotPassword email =>
    simp only [start] at h
    split at h
    · cases h
      exact .none rfl rfl
    · obtain ⟨t, hissue, ht⟩ := Option.map_eq_some_iff.mp h
      cases ht
      obtain ⟨husers, hcreated⟩ := issue_users hissue
      exact .none husers hcreated
  | register user =>
    obtain ⟨users, hinsert, ht⟩ := Option.map_eq_some_iff.mp h
    cases ht
    exact .register _ hinsert rfl
  | purge userId =>
    cases h
    exact .none rfl rfl
  | setMfa userId enabled =>
    cases h
    exact .none rfl rfl
  | completeMfaLogin | resetPassword | schedule | cancel | claimAccountDeletion | anonymize
  | failOrRetry | retryFailed =>
    simp only [start] at h
    split at h
    · cases h
      exact .none rfl rfl
    · cases h
      exact .none rfl rfl

theorem move_effect {a : Action} (h : move lower verify a s l = some (s', l')) :
    Effect s l s' := by
  cases a with
  | crash =>
    cases h
    exact .none rfl rfl
  | next io =>
    change proceed lower verify io s l = some (s', l') at h
    cases l with
    | called call => exact start_effect h
    | challenging u =>
      obtain ⟨t, hissue, ht⟩ := Option.map_eq_some_iff.mp h
      cases ht
      obtain ⟨husers, hcreated⟩ := issue_users hissue
      exact .none husers hcreated
    | consuming tokenHash u =>
      simp only [proceed] at h
      split at h
      · cases h
        exact .none rfl rfl
      · cases h
        exact .none rfl rfl
    | inserting u challenge =>
      obtain ⟨t, hinsert, ht⟩ := Option.map_eq_some_iff.mp h
      cases ht
      exact .insert u io.id challenge rfl hinsert
    | holding t =>
      obtain ⟨x, hcommit, ht⟩ := Option.map_eq_some_iff.mp h
      cases ht
      exact .commit t rfl hcommit
    | admitted | challenged | consumed | succeeding | creating =>
      cases h
      exact .none rfl rfl
    | stopped => cases h

theorem effect_admits (h : Effect s l s') (hends : ∀ t, l = .holding t → t.ends p = false)
    (hs : s.admits p = true) : s'.admits p = true := by
  cases h with
  | none husers => rwa [admits_congr husers]
  | register user husers =>
    obtain ⟨u, hu, hadmits⟩ := admits_iff.mp hs
    refine admits_iff.mpr ⟨u, ?_, hadmits⟩
    rw [Table.find?_insert? husers, if_neg, hu]
    intro hid
    rw [← hid, (Table.insert?_eq_some husers).1] at hu
    cases hu
  | commit t hl h => exact commit_admits (hends t hl) hs h
  | insert u id challenge _ h =>
    obtain ⟨user, -, husers, -⟩ := insertSession_eq h
    rwa [admits_congr husers]

theorem effect_created (h : Effect s l s') {x : Created} (hx : x ∈ s'.created) :
    x ∈ s.created ∨ ∃ p user, l.enters = some p ∧ s.users.find? p.1 = some user ∧
      x = ⟨p.1, p.2, user.resets, user.lifecycleState⟩ := by
  cases h with
  | none _ hcreated => exact Or.inl (hcreated ▸ hx)
  | register _ _ hcreated => exact Or.inl (hcreated ▸ hx)
  | commit t hl h =>
    obtain ⟨s₁, hrest, rfl⟩ := Option.map_eq_some_iff.mp h
    refine Or.inl ?_
    have hcreated : s₁.created = s.created := by
      cases t with
      | schedule =>
        obtain ⟨requests, -, rfl⟩ := Option.map_eq_some_iff.mp hrest
        rfl
      | loginFailure | loginSuccess | resetPassword | cancel | claimDeletion | anonymize =>
        cases hrest
        rfl
    exact hcreated ▸ hx
  | insert u id challenge hl h =>
    obtain ⟨user, huser, -, hcreated⟩ := insertSession_eq h
    rw [hcreated] at hx
    rcases List.mem_append.mp hx with hx | hx
    · exact Or.inl hx
    · exact Or.inr ⟨(u, challenge), user, by rw [hl]; rfl, huser, List.mem_singleton.mp hx⟩

/-! ### Logins under way -/

theorem checkPassword_enters {email password : String} {now : ℤ}
    (h : (checkPassword lower verify email password now s).enters = some p) :
    s.admits p = true := by
  unfold checkPassword at h
  split at h
  · cases h
  · next u hu =>
    have hmem : u ∈ s.users.rows := List.mem_of_find?_eq_some hu
    dsimp only at h
    split at h
    · split at h
      · cases h
      · cases h
    · split at h
      · cases h
      · next havailable =>
        split at h
        · cases h
        · cases h
          refine admits_iff.mpr ⟨u, Table.find?_of_mem hmem, user_admits_iff.mpr ⟨?_, ?_⟩⟩
          · simpa using havailable
          · intro _ hn
            cases hn

theorem start_enters {call : Call} (h : start lower verify io s call = some (s', l'))
    (he : l'.enters = some p) : s.admits p = true := by
  cases call with
  | login email password =>
    cases h
    exact checkPassword_enters he
  | forgotPassword email =>
    simp only [start] at h
    split at h
    · cases h
      cases he
    · obtain ⟨t, -, ht⟩ := Option.map_eq_some_iff.mp h
      cases ht
      cases he
  | register user =>
    obtain ⟨users, -, ht⟩ := Option.map_eq_some_iff.mp h
    cases ht
    cases he
  | purge | setMfa =>
    cases h
    cases he
  | completeMfaLogin | resetPassword | schedule | cancel | claimAccountDeletion | anonymize
  | failOrRetry | retryFailed =>
    simp only [start] at h
    split at h
    · cases h
      cases he
    · cases h
      cases he

theorem proceed_enters (h : proceed lower verify io s l = some (s', l'))
    (he : l'.enters = some p) :
    l.enters = some p ∨ (s.admits p = true ∧ ∃ call, l = .called call) ∨
      ∃ tokenHash u token, l = .consuming tokenHash u ∧
        usableToken tokenHash .mfaLogin io.now s = some token ∧ p = (u, some token.resets) := by
  cases l with
  | called call => exact Or.inr (Or.inl ⟨start_enters h he, call, rfl⟩)
  | admitted u =>
    cases h
    split at he
    · cases he
    · exact Or.inl he
  | challenging u =>
    obtain ⟨t, -, ht⟩ := Option.map_eq_some_iff.mp h
    cases ht
    cases he
  | challenged tokenHash u =>
    cases h
    split at he
    · cases he
    · cases he
  | consuming tokenHash u =>
    simp only [proceed] at h
    split at h
    · cases h
      cases he
    · next token htoken =>
      cases h
      cases he
      exact Or.inr (Or.inr ⟨tokenHash, u, token, rfl, (Option.filter_eq_some_iff.mp htoken).1, rfl⟩)
  | consumed u challenge =>
    cases h
    split at he
    · exact Or.inl he
    · cases he
  | succeeding u challenge =>
    cases h
    exact Or.inl he
  | creating u challenge =>
    cases h
    split at he
    · exact Or.inl he
    · cases he
  | inserting u challenge =>
    obtain ⟨t, -, ht⟩ := Option.map_eq_some_iff.mp h
    cases ht
    cases he
  | holding t =>
    obtain ⟨x, -, ht⟩ := Option.map_eq_some_iff.mp h
    cases ht
    cases t with
    | loginSuccess u challenge now => exact Or.inl he
    | loginFailure | resetPassword | schedule | cancel | claimDeletion | anonymize => cases he
  | stopped => cases h

/-! ### Runs -/

/-- The redeemed challenge is not stale, and the committed transaction ends no login that is being
completed. -/
def Careful (w : World Store Local) : Event Call Action → Prop
  | .act i (.next io) =>
    match w.sessions[i]? with
    | some (.consuming tokenHash u) =>
      (usableToken tokenHash .mfaLogin io.now w.store).all
        (fun token => w.store.admits (u, some token.resets)) = true
    | some (.holding t) => ∀ l ∈ w.sessions, l.enters.any t.ends = false
    | _ => True
  | _ => True

instance (w : World Store Local) : ∀ e : Event Call Action, Decidable (Careful w e)
  | .enter _ => .isTrue trivial
  | .act _ .crash => .isTrue trivial
  | .act i (.next io) =>
    match h : w.sessions[i]? with
    | some (.consuming tokenHash u) =>
      decidable_of_iff ((usableToken tokenHash .mfaLogin io.now w.store).all
        (fun token => w.store.admits (u, some token.resets)) = true) (by simp only [Careful, h])
    | some (.holding t) =>
      decidable_of_iff (∀ l ∈ w.sessions, l.enters.any t.ends = false) (by simp only [Careful, h])
    | none | some (.called _) | some (.admitted _) | some (.challenging _) | some (.challenged ..)
    | some (.consumed ..) | some (.succeeding ..) | some (.creating ..) | some (.inserting ..)
    | some .stopped => .isTrue (by simp only [Careful, h])

/-- Every session was created for an available user and from a current challenge, and every login
that has passed its checks may still enter. -/
structure Current (w : World Store Local) : Prop where
  created : ∀ x ∈ w.store.created, x.Live
  entering : ∀ (i : ℕ) (l : Local) (p : Uuid × Option ℕ), w.sessions[i]? = some l → l.enters = some p →
    w.store.admits p = true

variable {w w' : World Store Local} {e : Event Call Action}

theorem careful_ends {i k : ℕ} {m : Local} (hg : Careful w (.act k (.next io)))
    (hl : w.sessions[k]? = some l) (hi : w.sessions[i]? = some m) (he : m.enters = some p) :
    ∀ t, l = .holding t → t.ends p = false := by
  rintro t rfl
  simp only [Careful, hl] at hg
  have hany := hg m (List.mem_of_getElem? hi)
  rwa [he] at hany

theorem live_of_admits {u : UserRow} (h : s.admits p = true) (hu : s.users.find? p.1 = some u) :
    Created.Live ⟨p.1, p.2, u.resets, u.lifecycleState⟩ := by
  obtain ⟨u', hu', hadmits⟩ := admits_iff.mp h
  obtain rfl : u = u' := Option.some.inj (hu.symm.trans hu')
  exact user_admits_iff.mp hadmits

theorem Current.step (h : Current w) (hg : Careful w e)
    (hok : Sessions.step (program lower verify) e w = .ok w') : Current w' := by
  cases e with
  | enter call =>
    cases hok
    refine ⟨h.created, fun i l p hl he => ?_⟩
    rcases getElem?_enter hl with hl | ⟨-, rfl⟩
    · exact h.entering i l p hl he
    · cases he
  | act k a =>
    obtain ⟨l, l', s, hl, hmove, -, rfl⟩ := step_act hok
    have heffect : Effect w.store l s := move_effect hmove
    -- the transaction that commits, if one does, spares the logins under way
    have hkeeps : ∀ (i : ℕ) (m : Local) (p : Uuid × Option ℕ), w.sessions[i]? = some m →
        m.enters = some p → s.admits p = true := by
      intro i m p hi he
      cases a with
      | crash =>
        cases hmove
        exact h.entering i m p hi he
      | next io =>
        exact effect_admits heffect (careful_ends hg hl hi he) (h.entering i m p hi he)
    constructor
    · intro x hx
      rcases effect_created heffect hx with hx | ⟨p, user, he, huser, rfl⟩
      · exact h.created x hx
      · exact live_of_admits (h.entering k l p hl he) huser
    · intro i m p hi he
      rcases getElem?_act hi with ⟨-, hi⟩ | ⟨-, rfl⟩
      · exact hkeeps i m p hi he
      · cases a with
        | crash =>
          cases hmove
          cases he
        | next io =>
          have hproceed : proceed lower verify io w.store l = some (s, m) := hmove
          rcases proceed_enters hproceed he with
            he | ⟨hadmits, call, rfl⟩ | ⟨hash, u, token, rfl, htoken, rfl⟩
          · exact hkeeps k l p hl he
          · exact effect_admits heffect (fun t ht => (by cases ht)) hadmits
          · refine effect_admits heffect (fun t ht => (by cases ht)) ?_
            simp only [Careful, hl] at hg
            rwa [htoken] at hg

theorem current_closed : Current (World.closed Store.empty) :=
  ⟨fun _ hx => (by cases hx), fun _ _ _ hl => (by cases hl)⟩

/-- **Stale logins**: where a challenge is redeemed only while it is current and its user available,
and no reset, deletion claim or anonymization commits while a login that it ends is being completed,
every session is created for an available user and from a challenge of after the last reset. -/
theorem stale_logins_die (lower : String → String) (verify : String → String → Bool)
    (events : List (Event Call Action))
    (hg : Runs.Guarded (Sessions.step (program lower verify)) Careful (World.closed Store.empty)
      events) :
    ∀ x ∈ (run (program lower verify) (World.closed Store.empty) events).store.created, x.Live := by
  have hw : Current (run (program lower verify) (World.closed Store.empty) events) :=
    Runs.run_induction (fun _ _ _ hw hmeets hok => hw.step hmeets hok) events _ current_closed hg
  exact hw.created

/-! A user with a second factor logs in, and the challenge is redeemed at once, after a password
reset, or after a deletion claim. -/

def sampleProgram : Program Call Store Local Lock Action := program id fun hash password => hash = password

/-- Some statements of one session. -/
def steps (i n : ℕ) (io : Io) : List (Event Call Action) := List.replicate n (.act i (.next io))

def challengeEvents : List (Event Call Action) :=
  [.enter (.register { id := 1, email := "a", passwordHash := some "old" }),
    .enter (.setMfa 1 true), .enter (.login "a" "old")] ++
    steps 0 1 {} ++ steps 1 1 {} ++ steps 2 3 { tokenHash := "m" }

def redeemEvents (i : ℕ) : List (Event Call Action) :=
  .enter (.completeMfaLogin "m") :: steps i 8 { id := 9 }

def resetEvents (i : ℕ) : List (Event Call Action) :=
  [.enter (.forgotPassword "a"), .enter (.resetPassword "r" "new")] ++
    steps i 1 { tokenHash := "r" } ++ steps (i + 1) 2 {}

def deletionEvents (i : ℕ) : List (Event Call Action) :=
  [.enter (.schedule 1 0), .enter (.claimAccountDeletion 15)] ++
    steps i 2 { id := 5 } ++ steps (i + 1) 2 { id := 6 }

theorem stale_sessions :
    (∃ x ∈ (run sampleProgram (World.closed Store.empty)
        (challengeEvents ++ resetEvents 3 ++ redeemEvents 5)).store.created,
      x.challenge = some 0 ∧ x.resets = 1) ∧
    ∃ x ∈ (run sampleProgram (World.closed Store.empty)
        (challengeEvents ++ deletionEvents 3 ++ redeemEvents 5)).store.created,
      x.lifecycleState = .authDisabled := by
  decide

theorem stale_logins_die_redeemed :
    (run (program id fun hash password => hash = password) (World.closed Store.empty)
      (challengeEvents ++ redeemEvents 3 ++ resetEvents 4)).store.created.length = 1 ∧
    ∀ x ∈ (run (program id fun hash password => hash = password) (World.closed Store.empty)
      (challengeEvents ++ redeemEvents 3 ++ resetEvents 4)).store.created, x.Live :=
  ⟨by decide,
    stale_logins_die _ _ (challengeEvents ++ redeemEvents 3 ++ resetEvents 4) (by decide)⟩

end CalmBoard.Logins
