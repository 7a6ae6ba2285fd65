import CalmBoard.Auth.Linking

/-!
# CalmBoard.Auth.Linked — who has access to a linked account

* `Good`: what gives access to a linked account has been set up by the owner of its address.
* `Good.step`: every call keeps it, provided that an account is linked with no other access to it.
* `linked_to_owner`: the sessions of a linked account are the owner's.
-/

namespace CalmBoard.Linking

variable {π : Type} {rt : Runtime} {owner : π} {e : String} {s s' : Store π}

/-- An account with that address was linked before it was verified. -/
def IsLinked (e : String) (s : Store π) (userId : Uuid) : Prop :=
  userId ∈ s.linked ∧ ∃ u ∈ s.users.rows, u.id = userId ∧ u.email = e

structure Good (owner : π) (e : String) (s : Store π) : Prop where
  known : ∀ userId ∈ s.linked, (s.users.find? userId).isSome
  password : ∀ u ∈ s.users.rows, IsLinked e s u.id → u.passwordHash.isSome → u.setUpBy = owner
  identity : ∀ i ∈ s.identities.rows, IsLinked e s i.userId → i.setUpBy = owner
  session : ∀ x ∈ s.sessions.rows, IsLinked e s x.userId → x.valid s.now → x.setUpBy = owner

/-! ### Statements -/

variable {purpose : Tokens.AuthTokenPurpose} {userId : Uuid} {party : π} {f : UserRow π → UserRow π}
  {io : Io} {u : UserRow π}

theorem Good.congr (h : Good owner e s) (hn : s'.now = s.now) (hu : s'.users = s.users)
    (hi : s'.identities = s.identities) (hs : s'.sessions = s.sessions)
    (hl : s'.linked = s.linked) : Good owner e s' := by
  have hlinked : ∀ a, IsLinked e s' a → IsLinked e s a := by
    intro a ha
    unfold IsLinked at ha ⊢
    rwa [hl, hu] at ha
  refine ⟨fun a ha => ?_, fun u hu' ha => ?_, fun i hi' ha => ?_, fun x hx ha hv => ?_⟩
  · rw [hu]
    exact h.known a (hl ▸ ha)
  · exact h.password u (hu ▸ hu') (hlinked _ ha)
  · exact h.identity i (hi ▸ hi') (hlinked _ ha)
  · exact h.session x (hs ▸ hx) (hlinked _ ha) (hn ▸ hv)

theorem valid_earlier {x : SessionRow π} {now : ℤ} {elapsed : ℕ}
    (h : x.valid (now + elapsed) = true) : x.valid now = true := by
  simp only [SessionRow.valid, Bool.and_eq_true, decide_eq_true_eq] at h ⊢
  exact ⟨h.1, by omega⟩

theorem Good.tick (h : Good owner e s) (elapsed : ℕ) :
    Good owner e { s with now := s.now + elapsed } :=
  ⟨h.known, h.password, h.identity, fun x hx ha hv => h.session x hx ha (valid_earlier hv)⟩

theorem mem_setUser {hf : ∀ u, (f u).id = u.id} : u ∈ (s.setUser userId f hf).users.rows ↔
      ∃ v ∈ s.users.rows, (if v.id = userId then f v else v) = u := by
  simp [Store.setUser]

theorem mem_setSessions {p : SessionRow π → Bool} {f : SessionRow π → SessionRow π}
    {hf : ∀ x, (f x).id = x.id} {x : SessionRow π} : x ∈ (s.setSessions p f hf).sessions.rows ↔
      ∃ y ∈ s.sessions.rows, (if p y then f y else y) = x := by
  simp [Store.setSessions]

theorem isLinked_setUser {a : Uuid} {hf : ∀ u, (f u).id = u.id}
    (hemail : ∀ u, (f u).email = u.email) :
    IsLinked e (s.setUser userId f hf) a ↔ IsLinked e s a := by
  refine and_congr_right fun _ => ?_
  simp only [mem_setUser]
  constructor
  · rintro ⟨_, ⟨u, hu, rfl⟩, hid, he⟩
    refine ⟨u, hu, ?_, ?_⟩
    · split at hid
      · exact (hf u).symm.trans hid
      · exact hid
    · split at he
      · exact (hemail u).symm.trans he
      · exact he
  · rintro ⟨u, hu, hid, he⟩
    refine ⟨_, ⟨u, hu, rfl⟩, ?_, ?_⟩
    · split
      · exact (hf u).trans hid
      · exact hid
    · split
      · exact (hemail u).trans he
      · exact he

theorem Good.setUser (h : Good owner e s) {hf : ∀ u, (f u).id = u.id}
    (hemail : ∀ u, (f u).email = u.email)
    (hpassword : ∀ u ∈ s.users.rows, u.id = userId → IsLinked e s userId →
      (f u).passwordHash.isSome → (f u).setUpBy = owner) :
    Good owner e (s.setUser userId f hf) := by
  refine ⟨fun a ha => ?_, fun u hu ha hp => ?_, fun i hi ha => ?_, fun x hx ha hv => ?_⟩
  · have hknown := h.known a ha
    simpa [Store.setUser] using hknown
  · rw [isLinked_setUser hemail] at ha
    obtain ⟨v, hv, rfl⟩ := mem_setUser.mp hu
    by_cases hid : v.id = userId
    · rw [if_pos hid] at ha hp ⊢
      rw [hf, hid] at ha
      exact hpassword v hv hid ha hp
    · rw [if_neg hid] at ha hp ⊢
      exact h.password v hv ha hp
  · exact h.identity i hi ((isLinked_setUser hemail).mp ha)
  · exact h.session x hx ((isLinked_setUser hemail).mp ha) hv

theorem Good.setUser_other (h : Good owner e s) {hf : ∀ u, (f u).id = u.id}
    (hemail : ∀ u, (f u).email = u.email) (hpassword : ∀ u, (f u).passwordHash = u.passwordHash)
    (hby : ∀ u, (f u).setUpBy = u.setUpBy) : Good owner e (s.setUser userId f hf) := by
  refine h.setUser hemail fun u hu hid ha hp => ?_
  rw [hby]
  exact h.password u hu (hid.symm ▸ ha) (hpassword u ▸ hp)

theorem Good.setSessions (h : Good owner e s) {p : SessionRow π → Bool}
    {f : SessionRow π → SessionRow π} {hf : ∀ x, (f x).id = x.id}
    (huser : ∀ x, (f x).userId = x.userId) (hby : ∀ x, (f x).setUpBy = x.setUpBy)
    (hvalid : ∀ x, (f x).valid s.now → x.valid s.now) : Good owner e (s.setSessions p f hf) := by
  refine ⟨h.known, h.password, h.identity, fun x hx ha hv => ?_⟩
  obtain ⟨y, hy, rfl⟩ := mem_setSessions.mp hx
  by_cases hp : p y = true
  · rw [if_pos hp] at ha hv ⊢
    rw [hby]
    exact h.session y hy (huser y ▸ ha) (hvalid y hv)
  · rw [if_neg hp] at ha hv ⊢
    exact h.session y hy ha hv

theorem Good.revoke (h : Good owner e s) (p : SessionRow π → Bool) (now : ℤ) :
    Good owner e (s.setSessions p (SessionRow.revoke now) fun _ => rfl) :=
  h.setSessions (fun _ => rfl) (fun _ => rfl) fun x hv => by simp [SessionRow.valid, SessionRow.revoke] at hv

theorem insertUser_rows (h : s.insertUser u = some s') :
    s.users.find? u.id = none ∧ s'.users.rows = s.users.rows ++ [u] ∧ s'.linked = s.linked ∧
      s'.identities = s.identities ∧ s'.sessions = s.sessions ∧ s'.now = s.now := by
  unfold Store.insertUser at h
  split at h
  · cases h
  · obtain ⟨users, hins, rfl⟩ := Option.map_eq_some_iff.mp h
    obtain ⟨hnone, hrows⟩ := Table.insert?_eq_some hins
    exact ⟨hnone, hrows, rfl, rfl, rfl, rfl⟩

theorem Good.not_linked_new (h : Good owner e s) (hins : s.insertUser u = some s') :
    u.id ∉ s'.linked := by
  obtain ⟨hnone, -, hlinked, -⟩ := insertUser_rows hins
  intro ha
  have hknown := h.known u.id (hlinked ▸ ha)
  rw [hnone] at hknown
  cases hknown

theorem Good.insertUser (h : Good owner e s) (hins : s.insertUser u = some s') :
    Good owner e s' := by
  obtain ⟨hnone, hrows, hlinked, hidentities, hsessions, hnow⟩ := insertUser_rows hins
  have hold : ∀ a, IsLinked e s' a → IsLinked e s a := by
    rintro a ⟨ha, v, hv, hid, he⟩
    rw [hrows, List.mem_append, List.mem_singleton] at hv
    rcases hv with hv | rfl
    · exact ⟨hlinked ▸ ha, v, hv, hid, he⟩
    · exact absurd (hid ▸ ha) (h.not_linked_new hins)
  refine ⟨fun a ha => ?_, fun v hv ha hp => ?_, fun i hi ha => ?_, fun x hx ha hv => ?_⟩
  · obtain ⟨v, hv⟩ := Option.isSome_iff_exists.mp (h.known a (hlinked ▸ ha))
    rw [Option.isSome_iff_exists]
    refine ⟨v, ?_⟩
    unfold Table.find? at hv ⊢
    rw [hrows, List.find?_append, hv]
    rfl
  · have hmem := hv
    rw [hrows, List.mem_append, List.mem_singleton] at hmem
    rcases hmem with hmem | rfl
    · exact h.password v hmem (hold _ ha) hp
    · exact absurd ha.1 (h.not_linked_new hins)
  · exact h.identity i (hidentities ▸ hi) (hold _ ha)
  · exact h.session x (hsessions ▸ hx) (hold _ ha) (hnow ▸ hv)

theorem Good.insertIdentity (h : Good owner e s) {i : IdentityRow π}
    (hi : IsLinked e s i.userId → i.setUpBy = owner) (hins : s.insertIdentity i = some s') :
    Good owner e s' := by
  unfold Store.insertIdentity at hins
  split at hins
  · cases hins
  · obtain ⟨identities, hrow, rfl⟩ := Option.map_eq_some_iff.mp hins
    refine ⟨h.known, h.password, fun j hj ha => ?_, h.session⟩
    rw [(Table.insert?_eq_some hrow).2, List.mem_append, List.mem_singleton] at hj
    rcases hj with hj | rfl
    · exact h.identity j hj ha
    · exact hi ha

theorem createSession_rows {setUpBy : π}
    (h : s.createSession rt userId setUpBy party io = some s') :
    s'.sessions.rows = s.sessions.rows ++
        [{ id := io.sessionId, userId, expiresAt := s.now + Auth.defaultSessionTtl, setUpBy
           holders := [party] }] ∧
      s'.now = s.now ∧ s'.users = s.users ∧ s'.identities = s.identities ∧ s'.linked = s.linked := by
  unfold Store.createSession at h
  obtain ⟨_, -, h⟩ := Option.bind_eq_some_iff.mp h
  obtain ⟨sessions, hsessions, h⟩ := Option.bind_eq_some_iff.mp h
  unfold Store.insertRefreshToken at h
  split at h
  · cases h
  · obtain ⟨refreshTokens, -, rfl⟩ := Option.map_eq_some_iff.mp h
    exact ⟨(Table.insert?_eq_some hsessions).2, rfl, rfl, rfl, rfl⟩

theorem Good.createSession (h : Good owner e s) {setUpBy : π}
    (hby : IsLinked e s userId → setUpBy = owner)
    (hins : s.createSession rt userId setUpBy party io = some s') : Good owner e s' := by
  obtain ⟨hrows, hnow, husers, hidentities, hlinked⟩ := createSession_rows hins
  have hold : ∀ a, IsLinked e s' a → IsLinked e s a := by
    intro a ha
    unfold IsLinked at ha ⊢
    rwa [hlinked, husers] at ha
  refine ⟨fun a ha => ?_, fun u hu ha hp => ?_, fun i hi ha => ?_, fun x hx ha hv => ?_⟩
  · rw [husers]
    exact h.known a (hlinked ▸ ha)
  · exact h.password u (husers ▸ hu) (hold _ ha) hp
  · exact h.identity i (hidentities ▸ hi) (hold _ ha)
  · rw [hrows, List.mem_append, List.mem_singleton] at hx
    rcases hx with hx | rfl
    · exact h.session x hx (hold _ ha) (hnow ▸ hv)
    · exact hby (hold _ ha)

theorem Good.issue (h : Good owner e s) (hins : s.issue rt userId purpose io = some s') :
    Good owner e s' := by
  obtain ⟨authTokens, -, rfl⟩ := Option.map_eq_some_iff.mp hins
  exact h.congr rfl rfl rfl rfl rfl

theorem Good.issue_getD (h : Good owner e s) :
    Good owner e ((s.issue rt userId purpose io).getD s) := by
  cases hins : s.issue rt userId purpose io with
  | none => exact h
  | some s' => exact h.issue hins

theorem consume_rows {token : String} (h : s.consume rt token purpose = some (userId, s')) :
    (∃ t, s.authTokens.find? (rt.hashAuthToken token) = some t ∧ t.userId = userId) ∧
      s'.now = s.now ∧ s'.users = s.users ∧ s'.identities = s.identities ∧
      s'.sessions = s.sessions ∧ s'.linked = s.linked := by
  obtain ⟨t, ht, heq⟩ := Option.map_eq_some_iff.mp h
  obtain ⟨rfl, rfl⟩ := Prod.mk.inj heq
  exact ⟨⟨t, (Option.filter_eq_some_iff.mp ht).1, rfl⟩, rfl, rfl, rfl, rfl, rfl⟩

/-! ### Calls -/

variable {profile : OAuthProfile} {refreshToken : String}

theorem Good.signIn (h : Good owner e s) {setUpBy : π}
    (hby : IsLinked e s userId → setUpBy = owner) :
    Good owner e (s.signIn rt userId setUpBy party io).2 := by
  unfold Store.signIn
  split
  · split
    · exact h
    · next hins => exact h.issue hins
  · have hs : Good owner e (s.setUser userId UserRow.loginSuccess fun _ => rfl) :=
      h.setUser_other (fun _ => rfl) (fun _ => rfl) fun _ => rfl
    simp only
    split
    · exact hs
    · next hins =>
      have hemail : ∀ u : UserRow π, u.loginSuccess.email = u.email := fun _ => rfl
      exact hs.createSession (fun ha => hby ((isLinked_setUser hemail).mp ha)) hins

theorem Good.register (h : Good owner e s) {email passwordHash : String} :
    Good owner e (register rt party email passwordHash io s).2 := by
  unfold Linking.register
  split
  · exact h
  · split
    · exact h
    · next s₁ hins =>
      have hs₁ := h.insertUser hins
      have hs₂ : Good owner e ((s₁.issue rt io.userId .emailVerification io).getD s₁) := hs₁.issue_getD
      simp only
      split
      · exact hs₂
      · next hsession =>
        refine hs₂.createSession (fun ha => ?_) hsession
        have hlinked : ((s₁.issue rt io.userId .emailVerification io).getD s₁).linked = s₁.linked := by
          cases hissue : s₁.issue rt io.userId .emailVerification io with
          | none => rfl
          | some s₂ =>
            obtain ⟨_, -, rfl⟩ := Option.map_eq_some_iff.mp hissue
            rfl
        exact absurd (hlinked ▸ ha.1) (h.not_linked_new hins)

theorem Good.login (h : Good owner e s) {email password : String} :
    Good owner e (login rt party email password io s).2 := by
  unfold Linking.login
  split
  · exact h
  · next u hu =>
    have hmem : u ∈ s.users.rows := List.mem_of_find?_eq_some hu
    simp only
    split
    · split
      · exact h.setUser_other (fun _ => rfl) (fun _ => rfl) fun _ => rfl
      · exact h
    · next hright =>
      split
      · exact h
      · split
        · exact h
        · refine h.signIn fun ha => h.password u hmem ha ?_
          cases hp : u.passwordHash with
          | none => simp [hp] at hright
          | some hash => rfl

theorem Good.rotate (h : Good owner e s) : Good owner e (rotate rt party refreshToken io s).2 := by
  unfold Linking.rotate
  split
  · exact h
  · split
    · exact h
    · next session _ =>
      have hrevoked := h.revoke (fun x => x.id = session.id && x.revokedAt.isNone) s.now
      simp only
      split
      · exact hrevoked
      · split
        · split
          · exact hrevoked
          · exact h
        · split
          · exact h
          · next s₁ hins =>
            have hs₁ : Good owner e s₁ := by
              unfold Store.insertRefreshToken at hins
              split at hins
              · cases hins
              · obtain ⟨_, -, rfl⟩ := Option.map_eq_some_iff.mp hins
                exact h.congr rfl rfl rfl rfl rfl
            have hgiven : Good owner e (s₁.setSessions (fun x => x.id = session.id)
                (SessionRow.give party) fun _ => rfl) :=
              hs₁.setSessions (fun _ => rfl) (fun _ => rfl) fun _ hv => hv
            exact hgiven.congr rfl rfl rfl rfl rfl

theorem Good.refresh (h : Good owner e s) :
    Good owner e (refresh rt party refreshToken io s).2 := by
  unfold Linking.refresh
  have hrotated : Good owner e (Linking.rotate rt party refreshToken io s).2 := h.rotate
  split
  · next heq =>
    rw [heq] at hrotated
    exact hrotated
  · next heq =>
    rw [heq] at hrotated
    split <;> exact hrotated

theorem Good.verifyEmail (h : Good owner e s) {token : String} :
    Good owner e (verifyEmail rt token s).2 := by
  unfold Linking.verifyEmail
  split
  · exact h
  · next hins =>
    obtain ⟨-, hn, hu, hi, hx, hl⟩ := consume_rows hins
    exact (h.congr hn hu hi hx hl).setUser_other (fun _ => rfl) (fun _ => rfl) fun _ => rfl

theorem Good.resetPassword (h : Good owner e s) {token passwordHash : String}
    (hparty : ∀ t u, s.authTokens.find? (rt.hashAuthToken token) = some t →
      s.users.find? t.userId = some u → u.email = e → party = owner) :
    Good owner e (resetPassword rt party token passwordHash s).2 := by
  unfold Linking.resetPassword
  split
  · exact h
  · next userId s₁ hins =>
    obtain ⟨⟨t, ht, htid⟩, hn, hu, hi, hx, hl⟩ := consume_rows hins
    have hs₁ := h.congr hn hu hi hx hl
    have hreset : Good owner e
        (s₁.setUser userId (UserRow.resetPassword passwordHash party) fun _ => rfl) := by
      refine hs₁.setUser (fun _ => rfl) fun _ _ _ ha _ => ?_
      obtain ⟨-, v, hv, hvid, he⟩ := ha
      rw [hu] at hv
      refine hparty t v ht ?_ he
      rw [htid, ← hvid]
      exact Table.find?_of_mem hv
    exact hreset.revoke _ _

/-- The account has no access but the owner's. -/
structure Clean (owner : π) (s : Store π) (now : ℤ) (u : UserRow π) : Prop where
  password : u.passwordHash.isSome → u.setUpBy = owner
  identity : ∀ i ∈ s.identities.rows, i.userId = u.id → i.setUpBy = owner
  session : ∀ x ∈ s.sessions.rows, x.userId = u.id → x.valid now → x.setUpBy = owner

theorem Good.mark (h : Good owner e s) (hu : u ∈ s.users.rows)
    (hclean : u.email = e → Clean owner s s.now u) :
    Good owner e { s with linked := u.id :: s.linked } := by
  have hcases : ∀ a, IsLinked e { s with linked := u.id :: s.linked } a →
      IsLinked e s a ∨ (a = u.id ∧ u.email = e) := by
    rintro a ⟨ha, v, hv, hvid, he⟩
    rcases List.mem_cons.mp ha with rfl | ha
    · exact .inr ⟨rfl, Table.eq_of_mem hv hu hvid ▸ he⟩
    · exact .inl ⟨ha, v, hv, hvid, he⟩
  refine ⟨fun a ha => ?_, fun v hv ha hp => ?_, fun i hi ha => ?_, fun x hx ha hvalid => ?_⟩
  · rcases List.mem_cons.mp ha with rfl | ha
    · exact Option.isSome_iff_exists.mpr ⟨u, Table.find?_of_mem hu⟩
    · exact h.known a ha
  · rcases hcases v.id ha with ha | ⟨hid, he⟩
    · exact h.password v hv ha hp
    · obtain rfl := Table.eq_of_mem hv hu hid
      exact (hclean he).password hp
  · rcases hcases i.userId ha with ha | ⟨hid, he⟩
    · exact h.identity i hi ha
    · exact (hclean he).identity i hi hid
  · rcases hcases x.userId ha with ha | ⟨hid, he⟩
    · exact h.session x hx ha hvalid
    · exact (hclean he).session x hx hid hvalid

theorem Good.linkExistingUser (h : Good owner e s) (hu : u ∈ s.users.rows)
    (hparty : u.email = e → party = owner)
    (hclean : u.email = e → u.emailVerifiedAt = none → Clean owner s s.now u)
    (hlink : linkExistingUser party u profile io s = some s') : Good owner e s' := by
  obtain ⟨s₁, hins, rfl⟩ := Option.map_eq_some_iff.mp hlink
  have hs₁ : Good owner e s₁ := by
    refine h.insertIdentity (fun ha => ?_) hins
    obtain ⟨-, v, hv, hvid, he⟩ := ha
    exact hparty (Table.eq_of_mem hv hu hvid ▸ he)
  have hrows : u ∈ s₁.users.rows ∧ ∀ he : u.email = e, Clean owner s s.now u →
      Clean owner s₁ s₁.now u := by
    unfold Store.insertIdentity at hins
    split at hins
    · cases hins
    · obtain ⟨identities, hrow, rfl⟩ := Option.map_eq_some_iff.mp hins
      refine ⟨hu, fun he hc => ⟨hc.password, fun i hi hid => ?_, hc.session⟩⟩
      rw [(Table.insert?_eq_some hrow).2, List.mem_append, List.mem_singleton] at hi
      rcases hi with hi | rfl
      · exact hc.identity i hi hid
      · exact hparty he
  have hmarked : Good owner e
      (if u.emailVerifiedAt.isNone then { s₁ with linked := u.id :: s₁.linked } else s₁) := by
    split
    · next hnone =>
      rw [Option.isNone_iff_eq_none] at hnone
      exact hs₁.mark hrows.1 fun he => hrows.2 he (hclean he hnone)
    · exact hs₁
  simp only
  split
  · exact hmarked.setUser_other (fun _ => rfl) (fun _ => rfl) fun _ => rfl
  · exact hmarked

theorem Good.registerExternal (h : Good owner e s)
    (hins : registerExternal rt party profile io s = some s') : Good owner e s' := by
  obtain ⟨s₁, huser, hidentity⟩ := Option.bind_eq_some_iff.mp hins
  exact (h.insertUser huser).insertIdentity (fun ha => absurd ha.1 (h.not_linked_new huser)) hidentity

theorem Good.oauthLogin (h : Good owner e s)
    (hparty : profile.links = true → rt.lower profile.email = e → party = owner)
    (hclean : ∀ u, s.existingUser rt profile = some u → profile.links = true → u.email = e →
      u.emailVerifiedAt = none → Clean owner s s.now u) :
    Good owner e (oauthLogin rt party profile io s).2 := by
  unfold Linking.oauthLogin
  split
  · exact h
  · next s₁ hresolve =>
    have hs₁ : Good owner e s₁ := by
      unfold resolveIdentity at hresolve
      split at hresolve
      · cases hresolve
        exact h
      · next hnone =>
        split at hresolve
        · next u hu =>
          split at hresolve
          · next hlinks =>
            have hexisting : s.existingUser rt profile = some u := by
              simp [Store.existingUser, hnone, hu]
            have hemail : u.email = rt.lower profile.email := by
              simpa using List.find?_some hu
            exact h.linkExistingUser (List.mem_of_find?_eq_some hu)
              (fun he => hparty hlinks (hemail ▸ he)) (hclean u hexisting hlinks) hresolve
          · cases hresolve
        · exact h.registerExternal hresolve
    split
    · exact hs₁
    · next i hi =>
      split
      · exact hs₁
      · next u hu =>
        have hid : u.id = i.userId := Table.key_of_find? (Option.filter_eq_some_iff.mp hu).1
        exact hs₁.signIn fun ha => hs₁.identity i (List.mem_of_find?_eq_some hi) (hid ▸ ha)

/-! ### Runs -/

/-- Only the owner logs in at Google with the address, and reads the e-mails that are sent to it. -/
def Assumed (rt : Runtime) (owner : π) (e : String) (s : Store π) (ev : Event π) : Prop :=
  match ev.call with
  | .oauthLogin profile => profile.links = true → rt.lower profile.email = e → ev.party = owner
  | .verifyEmail token | .resetPassword token _ =>
    ∀ t u, s.authTokens.find? (rt.hashAuthToken token) = some t → s.users.find? t.userId = some u →
      u.email = e → ev.party = owner
  | _ => True

/-- An account with the address that is not verified has no other access when it is linked. -/
def LinkedClean (rt : Runtime) (owner : π) (e : String) (s : Store π) (ev : Event π) : Prop :=
  match ev.call with
  | .oauthLogin profile => ∀ u, s.existingUser rt profile = some u → profile.links = true →
      u.email = e → u.emailVerifiedAt = none → Clean owner s (s.now + ev.io.elapsed) u
  | _ => True

theorem Good.step (h : Good owner e s) {ev : Event π} (hassumed : Assumed rt owner e s ev)
    (hclean : LinkedClean rt owner e s ev) (hok : step rt ev s = .ok s') : Good owner e s' := by
  cases hok
  have ht := h.tick ev.io.elapsed
  unfold exec
  cases hcall : ev.call with
  | register email passwordHash => exact ht.register
  | login email password => exact ht.login
  | refresh refreshToken => exact ht.refresh
  | requestEmailVerification email =>
    simp only [Linking.requestEmailVerification]
    split
    · exact ht
    · exact ht.issue_getD
  | verifyEmail token => exact ht.verifyEmail
  | forgotPassword email =>
    simp only [Linking.forgotPassword]
    split
    · exact ht
    · exact ht.issue_getD
  | resetPassword token passwordHash =>
    simp only [Assumed, hcall] at hassumed
    exact ht.resetPassword hassumed
  | oauthLogin profile =>
    simp only [Assumed, hcall] at hassumed
    simp only [LinkedClean, hcall] at hclean
    refine ht.oauthLogin hassumed fun u hu hlinks he hnone => ?_
    have hc := hclean u hu hlinks he hnone
    exact ⟨hc.password, hc.identity, hc.session⟩

/-! ### Parties that present their own credentials -/

/-- Who has tokens of a session has set up the credential it was opened with. -/
def Held (s : Store π) : Prop := ∀ x ∈ s.sessions.rows, ∀ q ∈ x.holders, q = x.setUpBy

/-- The password, the token or the identity of the call is one that the party has set up. -/
def Own (rt : Runtime) (s : Store π) (ev : Event π) : Prop :=
  match ev.call with
  | .login email password => ∀ u, s.findByEmail rt email = some u →
      (u.passwordHash.any fun hash => rt.verify hash password) = true → u.setUpBy = ev.party
  | .refresh refreshToken => ∀ t x,
      s.refreshTokens.rows.find? (fun t => t.tokenHash = rt.hashRefreshToken refreshToken) = some t →
      s.sessions.find? t.sessionId = some x → x.setUpBy = ev.party
  | .oauthLogin profile => ∀ i, s.findByProviderSubject profile = some i → i.setUpBy = ev.party
  | _ => True

theorem Held.congr (h : Held s) (hs : s'.sessions = s.sessions) : Held s' := by
  unfold Held
  rw [hs]
  exact h

theorem Held.revoke (h : Held s) (p : SessionRow π → Bool) (now : ℤ) :
    Held (s.setSessions p (SessionRow.revoke now) fun _ => rfl) := by
  intro x hx
  obtain ⟨y, hy, rfl⟩ := mem_setSessions.mp hx
  split <;> exact h y hy

theorem Held.give (h : Held s) {session : SessionRow π} (hmem : session ∈ s.sessions.rows)
    (hby : session.setUpBy = party) :
    Held (s.setSessions (fun x => x.id = session.id) (SessionRow.give party) fun _ => rfl) := by
  intro x hx q hq
  obtain ⟨y, hy, rfl⟩ := mem_setSessions.mp hx
  by_cases hid : y.id = session.id
  · obtain rfl := Table.eq_of_mem hy hmem hid
    simp only [decide_true, if_true] at hq ⊢
    rcases List.mem_cons.mp hq with rfl | hq
    · exact hby.symm
    · exact h y hy q hq
  · simp only [hid, decide_false, Bool.false_eq_true, if_false] at hq ⊢
    exact h y hy q hq

theorem Held.createSession (h : Held s)
    (hins : s.createSession rt userId party party io = some s') : Held s' := by
  intro x hx q hq
  rw [(createSession_rows hins).1, List.mem_append, List.mem_singleton] at hx
  rcases hx with hx | rfl
  · exact h x hx q hq
  · exact List.mem_singleton.mp hq

theorem issue_sessions (h : s.issue rt userId purpose io = some s') : s'.sessions = s.sessions := by
  obtain ⟨_, -, rfl⟩ := Option.map_eq_some_iff.mp h
  rfl

theorem Held.issue_getD (h : Held s) : Held ((s.issue rt userId purpose io).getD s) := by
  cases hins : s.issue rt userId purpose io with
  | none => exact h
  | some s' => exact h.congr (issue_sessions hins)

theorem Held.signIn (h : Held s) : Held (s.signIn rt userId party party io).2 := by
  unfold Store.signIn
  split
  · split
    · exact h
    · next hins => exact h.congr (issue_sessions hins)
  · have hs : Held (s.setUser userId UserRow.loginSuccess fun _ => rfl) := h.congr rfl
    simp only
    split
    · exact hs
    · next hins => exact hs.createSession hins

theorem Held.rotate (h : Held s)
    (hown : ∀ t x, s.refreshTokens.rows.find?
        (fun t => t.tokenHash = rt.hashRefreshToken refreshToken) = some t →
      s.sessions.find? t.sessionId = some x → x.setUpBy = party) :
    Held (rotate rt party refreshToken io s).2 := by
  unfold Linking.rotate
  split
  · exact h
  · next t ht =>
    split
    · exact h
    · next session hsession =>
      have hrevoked := h.revoke (fun x => x.id = session.id && x.revokedAt.isNone) s.now
      simp only
      split
      · exact hrevoked
      · split
        · split
          · exact hrevoked
          · exact h
        · split
          · exact h
          · next s₁ hins =>
            have hsessions : s₁.sessions = s.sessions := by
              unfold Store.insertRefreshToken at hins
              split at hins
              · cases hins
              · obtain ⟨_, -, rfl⟩ := Option.map_eq_some_iff.mp hins
                rfl
            have hs₁ : Held s₁ := h.congr hsessions
            have hgiven := hs₁.give (hsessions ▸ Table.mem_of_find? hsession)
              (hown t session ht hsession)
            exact hgiven.congr rfl

theorem insertIdentity_rows {i : IdentityRow π} (h : s.insertIdentity i = some s') :
    s'.identities.rows = s.identities.rows ++ [i] ∧ s'.sessions = s.sessions := by
  unfold Store.insertIdentity at h
  split at h
  · cases h
  · obtain ⟨identities, hrow, rfl⟩ := Option.map_eq_some_iff.mp h
    exact ⟨(Table.insert?_eq_some hrow).2, rfl⟩

theorem resolveIdentity_new (hnone : s.findByProviderSubject profile = none)
    (hresolve : resolveIdentity rt party profile io s = some s') :
    (∃ i, i.setUpBy = party ∧ s'.identities.rows = s.identities.rows ++ [i]) ∧
      s'.sessions = s.sessions := by
  simp only [resolveIdentity, hnone, Option.isSome_none, Bool.false_eq_true, if_false] at hresolve
  split at hresolve
  · next u _ =>
    split at hresolve
    · obtain ⟨s₁, hins, rfl⟩ := Option.map_eq_some_iff.mp hresolve
      obtain ⟨hrows, hsessions⟩ := insertIdentity_rows hins
      have hkept : ∀ s₂ : Store π, s₂.identities = s₁.identities → s₂.sessions = s₁.sessions →
          (∃ i, i.setUpBy = party ∧ s₂.identities.rows = s.identities.rows ++ [i]) ∧
            s₂.sessions = s.sessions := by
        intro s₂ hi hx
        rw [hi, hx]
        refine ⟨⟨_, ?_, hrows⟩, hsessions⟩
        rfl
      by_cases hunverified : u.emailVerifiedAt.isNone = true <;>
        by_cases hverified : profile.emailVerified = true <;>
          simp only [hunverified, hverified, if_true] <;> exact hkept _ rfl rfl
    · cases hresolve
  · obtain ⟨s₁, huser, hidentity⟩ := Option.bind_eq_some_iff.mp hresolve
    obtain ⟨-, -, -, hidentities, hsessions, -⟩ := insertUser_rows huser
    obtain ⟨hrows, hsame⟩ := insertIdentity_rows hidentity
    refine ⟨⟨_, ?_, hidentities ▸ hrows⟩, hsame.trans hsessions⟩
    rfl

theorem resolveIdentity_own
    (hown : ∀ i, s.findByProviderSubject profile = some i → i.setUpBy = party)
    (hresolve : resolveIdentity rt party profile io s = some s') :
    (∀ i, s'.findByProviderSubject profile = some i → i.setUpBy = party) ∧
      s'.sessions = s.sessions := by
  cases hfound : s.findByProviderSubject profile with
  | some i =>
    simp only [resolveIdentity, hfound, Option.isSome_some, if_true, Option.some.injEq] at hresolve
    rw [← hresolve]
    exact ⟨hown, rfl⟩
  | none =>
    obtain ⟨⟨i, hby, hrows⟩, hsessions⟩ := resolveIdentity_new hfound hresolve
    refine ⟨fun j hj => ?_, hsessions⟩
    unfold Store.findByProviderSubject at hfound hj
    rw [hrows, List.find?_append, hfound, Option.none_or] at hj
    rw [List.mem_singleton.mp (List.mem_of_find?_eq_some hj)]
    exact hby

theorem Held.step (h : Held s) {ev : Event π} (hown : Own rt s ev) (hok : step rt ev s = .ok s') :
    Held s' := by
  cases hok
  have ht : Held { s with now := s.now + ev.io.elapsed } := h
  unfold exec
  cases hcall : ev.call with
  | register email passwordHash =>
    simp only [Linking.register]
    split
    · exact ht
    · split
      · exact ht
      · next s₁ hins =>
        have hs₁ : Held s₁ := ht.congr (insertUser_rows hins).2.2.2.2.1
        have hs₂ : Held ((s₁.issue rt ev.io.userId .emailVerification ev.io).getD s₁) := hs₁.issue_getD
        split
        · exact hs₂
        · next hsession => exact hs₂.createSession hsession
  | login email password =>
    simp only [Linking.login]
    split
    · exact ht
    · next u hu =>
      split
      · split <;> exact ht
      · next hright =>
        split
        · exact ht
        · split
          · exact ht
          · simp only [Own, hcall] at hown
            rw [hown u hu (by simpa using hright)]
            exact ht.signIn
  | refresh refreshToken =>
    simp only [Own, hcall] at hown
    have hrotated : Held (Linking.rotate rt ev.party refreshToken ev.io
        { s with now := s.now + ev.io.elapsed }).2 := ht.rotate hown
    simp only [Linking.refresh]
    split
    · next heq =>
      rw [heq] at hrotated
      exact hrotated
    · next heq =>
      rw [heq] at hrotated
      split <;> exact hrotated
  | requestEmailVerification email =>
    simp only [Linking.requestEmailVerification]
    split
    · exact ht
    · exact ht.issue_getD
  | verifyEmail token =>
    simp only [Linking.verifyEmail]
    split
    · exact ht
    · next hins => exact ht.congr (consume_rows hins).2.2.2.2.1
  | forgotPassword email =>
    simp only [Linking.forgotPassword]
    split
    · exact ht
    · exact ht.issue_getD
  | resetPassword token passwordHash =>
    simp only [Linking.resetPassword]
    split
    · exact ht
    · next s₁ hins =>
      have hs₁ : Held s₁ := ht.congr (consume_rows hins).2.2.2.2.1
      exact Held.revoke hs₁ _ _
  | oauthLogin profile =>
    simp only [Own, hcall] at hown
    have hown' : ∀ i, Store.findByProviderSubject { s with now := s.now + ev.io.elapsed } profile =
        some i → i.setUpBy = ev.party := hown
    simp only [Linking.oauthLogin]
    split
    · exact ht
    · next s₁ hresolve =>
      obtain ⟨hby, hsessions⟩ := resolveIdentity_own hown' hresolve
      have hs₁ : Held s₁ := ht.congr hsessions
      split
      · exact hs₁
      · next i hi =>
        split
        · exact hs₁
        · rw [hby i hi]
          exact hs₁.signIn

/-- **Linking**: in every run in which an account is linked with no access but the owner's, each valid
session of a linked account has been opened with a credential that the owner has set up; and where
the parties present their own credentials only, nobody else has been given a token of it. -/
theorem linked_to_owner (rt : Runtime) (owner : π) (e : String) (s : Store π) (hs : s.linked = [])
    (events : List (Event π))
    (hg : Runs.Guarded (step rt) (fun s ev => Assumed rt owner e s ev ∧ LinkedClean rt owner e s ev)
      s events) :
    ∀ x ∈ (Runs.run (step rt) s events).sessions.rows,
      IsLinked e (Runs.run (step rt) s events) x.userId →
      x.valid (Runs.run (step rt) s events).now →
      x.setUpBy = owner ∧
        (Held s → Runs.Guarded (step rt) (Own rt) s events → ∀ q ∈ x.holders, q = owner) := by
  have hgood : Good owner e s := by
    have hnone : ∀ a, ¬ IsLinked e s a := by
      intro a ha
      have hmem := ha.1
      rw [hs] at hmem
      cases hmem
    refine ⟨fun a ha => ?_, fun u _ ha => absurd ha (hnone _), fun i _ ha => absurd ha (hnone _),
      fun x _ ha => absurd ha (hnone _)⟩
    rw [hs] at ha
    cases ha
  have hrun : Good owner e (Runs.run (step rt) s events) :=
    Runs.run_induction (fun _ _ _ h hg hok => h.step hg.1 hg.2 hok) events s hgood hg
  intro x hx hlinked hvalid
  have hby := hrun.session x hx hlinked hvalid
  refine ⟨hby, fun hheld hown q hq => ?_⟩
  have hheld' : Held (Runs.run (step rt) s events) :=
    Runs.run_induction (fun _ _ _ h hg hok => h.step hg hok) events s hheld hown
  exact (hheld' x hx q hq).trans hby

def sampleRuntime : Runtime where
  lower := fun x => x
  verify hash password := hash = password
  hashRefreshToken := fun x => x
  hashAuthToken := fun x => x

def googleProfile : OAuthProfile :=
  { provider := .google, subject := "g", email := "a@b.c", emailVerified := true }

/-- A party registers the address with a password, and logs in with it after the owner, `false`, has
logged in at Google. -/
def sampleRun (party : Bool) : List (Event Bool) :=
  [{ party, call := .register "a@b.c" "secret"
     io := { userId := 1, sessionId := 2, tokenId := 3, refreshToken := "p", authToken := "s" } },
    { party := false, call := .oauthLogin googleProfile
      io := { identityId := 4, sessionId := 5, tokenId := 6, refreshToken := "q", authToken := "t" } },
    { party, call := .login "a@b.c" "secret"
      io := { sessionId := 7, tokenId := 8, refreshToken := "r", authToken := "u" } }]

theorem linked_to_owner_sample :
    ((Runs.run (step sampleRuntime) {} (sampleRun false)).sessions.rows.map fun x =>
        (x.id, x.userId, x.holders)) = [(2, 1, [false]), (5, 1, [false]), (7, 1, [false])] ∧
    ∀ x ∈ (Runs.run (step sampleRuntime) {} (sampleRun false)).sessions.rows,
      IsLinked "a@b.c" (Runs.run (step sampleRuntime) {} (sampleRun false)) x.userId →
      x.valid (Runs.run (step sampleRuntime) {} (sampleRun false)).now →
      x.setUpBy = false ∧
        (Held ({} : Store Bool) → Runs.Guarded (step sampleRuntime) (Own sampleRuntime) {}
          (sampleRun false) → ∀ q ∈ x.holders, q = false) := by
  refine ⟨by decide, linked_to_owner sampleRuntime false "a@b.c" {} rfl (sampleRun false)
    ⟨⟨trivial, trivial⟩, ⟨fun _ _ => rfl, fun u hu _ _ _ => ?_⟩, ⟨trivial, trivial⟩, trivial⟩⟩
  -- whatever there is has been set up by the owner
  have hall : (∀ u ∈ (Runs.run (step sampleRuntime) {} ((sampleRun false).take 1)).users.rows,
        u.setUpBy = false) ∧
      (∀ i ∈ (Runs.run (step sampleRuntime) {} ((sampleRun false).take 1)).identities.rows,
        i.setUpBy = false) ∧
      ∀ x ∈ (Runs.run (step sampleRuntime) {} ((sampleRun false).take 1)).sessions.rows,
        x.setUpBy = false := by decide
  unfold Store.existingUser at hu
  split at hu
  · cases hu
  · exact ⟨fun _ => hall.1 u (List.mem_of_find?_eq_some hu), fun i hi _ => hall.2.1 i hi,
      fun x hx _ _ => hall.2.2 x hx⟩

/-- Another party has registered the address: after the owner's login it has the session it has
registered with, and one that it has logged in to with its password. -/
theorem linked_shared :
    Runs.Guarded (step sampleRuntime) (Assumed sampleRuntime false "a@b.c") {} (sampleRun true) ∧
    (Runs.run (step sampleRuntime) {} (sampleRun true)).linked = [1] ∧
    ((Runs.run (step sampleRuntime) {} (sampleRun true)).sessions.rows.map fun x =>
        (x.id, x.userId, x.holders, x.valid (Runs.run (step sampleRuntime) {} (sampleRun true)).now)) =
      [(2, 1, [true], true), (5, 1, [false], true), (7, 1, [true], true)] :=
  ⟨⟨trivial, fun _ _ => rfl, trivial, trivial⟩, by decide, by decide⟩

end CalmBoard.Linking
