import CalmBoard.Auth.RefreshTokens

/-!
# CalmBoard.Auth.Rotation — refresh tokens are used once

* `Knows`: what a call knows of the rows it has read.
* `move_cases`: a statement reads, writes the row of the session, or replaces a token.
* `rotation_safe`: each token rotated at most once, one unused token, none after reuse, revocation or
  expiry.
-/

namespace CalmBoard.Auth

open Sessions

variable {hash : String → String} {s s' : Store} {l l' : Local} {a : Action}

/-- A token with this hash has been used. -/
def Used (s : Store) (h : String) : Prop :=
  ∃ t ∈ s.tokens.rows, t.tokenHash = h ∧ t.usedAt.isSome = true

def Revoked (s : Store) : Prop := s.session.revokedAt.isSome = true

instance (s : Store) : Decidable (Revoked s) := inferInstanceAs (Decidable (_ = true))

/-- Hashes are unique, at most one token is unused, and all are tokens of the session. -/
structure Consistent (s : Store) : Prop where
  hashes : ∀ t ∈ s.tokens.rows, ∀ t' ∈ s.tokens.rows, t.tokenHash = t'.tokenHash → t = t'
  unused : ∀ t ∈ s.tokens.rows, ∀ t' ∈ s.tokens.rows, t.usedAt = none → t'.usedAt = none → t = t'
  owned : ∀ t ∈ s.tokens.rows, t.sessionId = s.session.id

/-- The token a rotation presents, as the table has it. -/
def Presents (hash : String → String) (s : Store) (r : Rotation) (t : RefreshToken) : Prop :=
  t ∈ s.tokens.rows ∧ t.tokenHash = hash r.refreshToken

/-- What a call knows: the rows it has locked are the committed ones, and what it has returned still
shows in the store. -/
def Knows (hash : String → String) (s : Store) : Local → Prop
  | .holdsToken r t => Presents hash s r t
  | .holdsBoth r t session => Presents hash s r t ∧ session = s.session
  | .touching v => ¬ Revoked s ∧ v.now < s.session.expiresAt
  | .returned (.rotate r) .rotated => Used s (hash r.refreshToken) ∧ r.now < s.session.expiresAt
  | .returned (.rotate _) .reuse => Revoked s
  | .returned (.validate v) .valid => v.now < s.session.expiresAt
  | _ => True

/-- The call has returned with a new token. -/
def Local.isRotated : Local → Bool
  | .returned (.rotate _) .rotated => true
  | _ => false

/-- The call has returned with a new token, or with a valid session. -/
def Local.granted : Local → Bool
  | .returned (.rotate _) .rotated | .returned (.validate _) .valid => true
  | _ => false

/-! ### Statements -/

variable {v : Validation} {session : UserSession} {t : RefreshToken} {r : Rotation}

/-- A statement after which a call knows what it should, and has rotated nothing. -/
structure Quiet (hash : String → String) (s : Store) (l : Local) : Prop where
  knows : Knows hash s l
  plain : l.isRotated = false
  active : l.granted = true → ¬ Revoked s

theorem validates_iff (h : validates v session = true) :
    session.revokedAt.isSome = false ∧ v.now < session.expiresAt := by
  unfold validates at h
  simp only [Bool.and_eq_true, decide_eq_true_eq, Option.isNone_iff_eq_none] at h
  obtain ⟨⟨⟨-, hrevoked⟩, hnow⟩, -⟩ := h
  exact ⟨by rw [hrevoked]; rfl, hnow⟩

/-- A write of the row of the session by a call that has locked it. -/
structure Writes (s s' : Store) (l l' : Local) : Prop where
  tokens : s'.tokens = s.tokens
  id : s'.session.id = s.session.id
  expiresAt : s'.session.expiresAt = s.session.expiresAt
  revoked : Revoked s → Revoked s'
  holds : Lock.session ∈ l.locks

/-- The replacement of a token that is neither used nor revoked nor expired. -/
structure Rotates (hash : String → String) (s s' : Store) (l l' : Local) : Prop where
  rotated : ∃ r t tokens, l = .holdsBoth r t s.session ∧ l' = .returned (.rotate r) .rotated ∧
    Presents hash s r t ∧ t.usedAt = none ∧ r.now < s.session.expiresAt ∧
      replace hash r t s.session s = some tokens ∧ s'.tokens = tokens
  id : s'.session.id = s.session.id
  expiresAt : s'.session.expiresAt = s.session.expiresAt
  active : ¬ Revoked s
  revokedAt : s'.session.revokedAt = s.session.revokedAt

theorem quiet_of (hk : Knows hash s l) (h : l.granted = false) : Quiet hash s l := by
  refine ⟨hk, ?_, fun hg => ?_⟩
  · cases l with
    | returned call outcome =>
      cases call with
      | rotate r => cases outcome <;> first | rfl | cases h
      | _ => rfl
    | _ => rfl
  · rw [h] at hg
    cases hg

theorem quiet_valid (h : validates v s.session = true) :
    Quiet hash s (.returned (.validate v) .valid) := by
  obtain ⟨hopen, hnow⟩ := validates_iff h
  exact ⟨hnow, rfl, fun _ hr => by rw [Revoked, hopen] at hr; cases hr⟩

theorem finishRotate_cases (hp : Presents hash s r t)
    (h : finishRotate hash r t s.session s = (s', l')) :
    (s' = s ∧ Quiet hash s' l') ∨
      (Writes s s' (.holdsBoth r t s.session) l' ∧ Quiet hash s' l') ∨
        Rotates hash s s' (.holdsBoth r t s.session) l' := by
  unfold finishRotate at h
  split at h
  · cases h
    split
    · exact Or.inr (Or.inl ⟨⟨rfl, rfl, rfl, fun _ => rfl, by simp [Local.locks]⟩, quiet_of rfl rfl⟩)
    · next hrevoked =>
      refine Or.inl ⟨rfl, quiet_of ?_ rfl⟩
      simpa [Knows, Revoked, Option.isSome_iff_ne_none] using hrevoked
  next hunused =>
  split at h
  · cases h
    split
    · exact Or.inr (Or.inl ⟨⟨rfl, rfl, rfl, fun _ => rfl, by simp [Local.locks]⟩,
        quiet_of trivial rfl⟩)
    · exact Or.inl ⟨rfl, quiet_of trivial rfl⟩
  next hopen =>
  push Not at hopen
  split at h
  · cases h
    exact Or.inl ⟨rfl, quiet_of trivial rfl⟩
  · next tokens htokens =>
    cases h
    refine Or.inr (Or.inr ⟨⟨r, t, tokens, rfl, rfl, hp, ?_, hopen.2.2.2, htokens, rfl⟩, rfl, rfl, ?_,
      rfl⟩)
    · simpa using hunused
    · exact hopen.2.1

theorem quiet_selectToken : Quiet hash s (selectToken hash r s) := by
  unfold selectToken
  split
  · exact quiet_of trivial rfl
  split
  · exact quiet_of trivial rfl
  · next t ht =>
    exact quiet_of ⟨List.mem_of_find?_eq_some ht, by simpa using List.find?_some ht⟩ rfl

theorem quiet_selectSession (hp : Presents hash s r t) : Quiet hash s (selectSession r t s) := by
  unfold selectSession
  split
  · exact quiet_of ⟨hp, rfl⟩ rfl
  · exact quiet_of trivial rfl

theorem quiet_selectValid : Quiet hash s (selectValid v s) := by
  unfold selectValid
  split
  · next hv =>
    split
    · exact quiet_of trivial rfl
    · exact quiet_valid hv
  · exact quiet_of trivial rfl

theorem quiet_lockStale : Quiet hash s (lockStale v s) := by
  unfold lockStale
  split
  · next hv =>
    rw [Bool.and_eq_true] at hv
    obtain ⟨hopen, hnow⟩ := validates_iff hv.1
    exact quiet_of ⟨by simp [Revoked, hopen], hnow⟩ rfl
  · exact quiet_of trivial rfl

theorem quiet_reselectValid : Quiet hash s (reselectValid v s) := by
  unfold reselectValid
  split
  · next hv => exact quiet_valid hv
  · exact quiet_of trivial rfl

theorem quiet_lockRevoked {r : Revocation} : Quiet hash s (lockRevoked r s) := by
  unfold lockRevoked
  split
  · exact quiet_of trivial rfl
  split
  · exact quiet_of trivial rfl
  · exact quiet_of trivial rfl

theorem quiet_failed {call : Call} : Quiet hash s (.returned call .failed) := by
  cases call with
  | rotate r => exact quiet_of trivial rfl
  | validate v => exact quiet_of trivial rfl
  | revoke r => exact quiet_of trivial rfl

/-- **Statements**: they read, write the row of the session, or replace a token. -/
theorem move_cases (hk : Knows hash s l) (h : move hash a s l = some (s', l')) :
    (s' = s ∧ Quiet hash s' l') ∨ (Writes s s' l l' ∧ Quiet hash s' l') ∨
      Rotates hash s s' l l' := by
  unfold move at h
  split at h
  · cases h
  · cases h
    exact Or.inl ⟨rfl, quiet_failed⟩
  · cases h
    exact Or.inl ⟨rfl, quiet_selectToken⟩
  · cases h
    exact Or.inl ⟨rfl, quiet_selectValid⟩
  · cases h
    exact Or.inl ⟨rfl, quiet_lockRevoked⟩
  · cases h
    exact Or.inl ⟨rfl, quiet_selectSession hk⟩
  · obtain ⟨hp, rfl⟩ := hk
    exact finishRotate_cases hp (Option.some.inj h)
  · cases h
    exact Or.inl ⟨rfl, quiet_lockStale⟩
  · cases h
    exact Or.inr (Or.inl ⟨⟨rfl, rfl, rfl, id, List.mem_singleton_self _⟩, hk.2, rfl, fun _ => hk.1⟩)
  · cases h
    exact Or.inl ⟨rfl, quiet_reselectValid⟩
  · cases h
    exact Or.inr (Or.inl ⟨⟨rfl, rfl, rfl, fun _ => rfl, List.mem_singleton_self _⟩,
      quiet_of trivial rfl⟩)

/-! ### The tokens after a rotation -/

variable {tokens : Table RefreshToken RefreshToken.id}

theorem mem_replace (ht : t ∈ s.tokens.rows) (h : replace hash r t session s = some tokens)
    {x : RefreshToken} :
    x ∈ tokens.rows ↔ x = replacement hash r t session ∨ x = spent r t ∨
      (x ∈ s.tokens.rows ∧ x.id ≠ t.id) := by
  unfold replace at h
  split at h
  · cases h
  obtain ⟨inserted, hinserted, rfl⟩ := Option.map_eq_some_iff.mp h
  obtain ⟨hnone, hrows⟩ := Table.insert?_eq_some hinserted
  have hnew : (replacement hash r t session).id ≠ t.id := fun he =>
    Table.find?_eq_none_iff.mp hnone t ht he.symm
  rw [Table.mem_update, hrows]
  constructor
  · rintro ⟨y, hy, rfl⟩
    rcases List.mem_append.mp hy with hy | hy
    · by_cases hid : y.id = t.id
      · rw [if_pos (by simpa using hid), Table.eq_of_mem hy ht hid]
        exact Or.inr (Or.inl rfl)
      · rw [if_neg (by simpa using hid)]
        exact Or.inr (Or.inr ⟨hy, hid⟩)
    · rw [List.mem_singleton.mp hy, if_neg (by simpa using hnew)]
      exact Or.inl rfl
  · rintro (rfl | rfl | ⟨hx, hid⟩)
    · exact ⟨_, List.mem_append_right _ (List.mem_singleton_self _), if_neg (by simpa using hnew)⟩
    · exact ⟨t, List.mem_append_left _ ht, if_pos (by simp)⟩
    · exact ⟨x, List.mem_append_left _ hx, if_neg (by simpa using hid)⟩

theorem replace_fresh (h : replace hash r t session s = some tokens) :
    ∀ x ∈ s.tokens.rows, x.tokenHash ≠ hash r.nextRefreshToken := by
  unfold replace at h
  split at h
  · cases h
  next hhash =>
  intro x hx he
  exact hhash (List.any_eq_true.mpr ⟨x, hx, by simpa using he⟩)

theorem Rotates.consistent (h : Rotates hash s s' l l') (hc : Consistent s) : Consistent s' := by
  obtain ⟨r, t, tokens, -, -, ⟨ht, hhash⟩, hunused, -, hreplace, htokens⟩ := h.rotated
  have hfresh := replace_fresh hreplace
  -- an old token as the new table has it
  have hold : ∀ x ∈ s'.tokens.rows, x = replacement hash r t s.session ∨
      ∃ y ∈ s.tokens.rows, x.tokenHash = y.tokenHash ∧ (x = y ∧ y.id ≠ t.id ∨ x = spent r t ∧ y = t) := by
    intro x hx
    rw [htokens] at hx
    rcases (mem_replace ht hreplace).mp hx with rfl | rfl | ⟨hx, hid⟩
    · exact Or.inl rfl
    · exact Or.inr ⟨t, ht, rfl, Or.inr ⟨rfl, rfl⟩⟩
    · exact Or.inr ⟨x, hx, rfl, Or.inl ⟨rfl, hid⟩⟩
  constructor
  · intro x hx x' hx' he
    rcases hold x hx with rfl | ⟨y, hy, hxy, hcase⟩
    · rcases hold x' hx' with rfl | ⟨y', hy', hxy', -⟩
      · rfl
      · exact absurd (hxy'.symm.trans he.symm) (hfresh y' hy')
    · rcases hold x' hx' with rfl | ⟨y', hy', hxy', hcase'⟩
      · exact absurd (hxy.symm.trans he) (hfresh y hy)
      · have hyy : y = y' := hc.hashes y hy y' hy' (hxy.symm.trans (he.trans hxy'))
        subst hyy
        rcases hcase with ⟨rfl, hid⟩ | ⟨rfl, rfl⟩
        · rcases hcase' with ⟨rfl, -⟩ | ⟨rfl, rfl⟩
          · rfl
          · exact absurd rfl hid
        · rcases hcase' with ⟨rfl, hid⟩ | ⟨rfl, -⟩
          · exact absurd rfl hid
          · rfl
  · -- every old token is used now
    have hnew : ∀ x ∈ s'.tokens.rows, x.usedAt = none → x = replacement hash r t s.session := by
      intro x hx hnone
      rcases hold x hx with rfl | ⟨y, hy, -, ⟨rfl, hid⟩ | ⟨rfl, -⟩⟩
      · rfl
      · exact absurd (congrArg RefreshToken.id (hc.unused x hy t ht hnone hunused)) hid
      · cases hnone
    intro x hx x' hx' hnone hnone'
    rw [hnew x hx hnone, hnew x' hx' hnone']
  · intro x hx
    rw [h.id]
    rw [htokens] at hx
    rcases (mem_replace ht hreplace).mp hx with rfl | rfl | ⟨hx, -⟩
    · rfl
    · exact hc.owned t ht
    · exact hc.owned x hx

theorem Rotates.used (h : Rotates hash s s' l l') {k : String} (hu : Used s k) : Used s' k := by
  obtain ⟨r, t, tokens, -, -, ⟨ht, -⟩, -, -, hreplace, htokens⟩ := h.rotated
  obtain ⟨x, hx, hxk, hxused⟩ := hu
  unfold Used
  rw [htokens]
  by_cases hid : x.id = t.id
  · exact ⟨spent r t, (mem_replace ht hreplace).mpr (Or.inr (Or.inl rfl)),
      (Table.eq_of_mem hx ht hid) ▸ hxk, rfl⟩
  · exact ⟨x, (mem_replace ht hreplace).mpr (Or.inr (Or.inr ⟨hx, hid⟩)), hxk, hxused⟩

/-! ### Calls together -/

/-- What every statement keeps. -/
structure Later (s s' : Store) : Prop where
  expiresAt : s'.session.expiresAt = s.session.expiresAt
  revoked : Revoked s → Revoked s'
  used : ∀ k, Used s k → Used s' k

theorem Writes.later (h : Writes s s' l l') : Later s s' := by
  refine ⟨h.expiresAt, h.revoked, fun k hu => ?_⟩
  unfold Used
  rw [h.tokens]
  exact hu

theorem Rotates.later (h : Rotates hash s s' l l') : Later s s' :=
  ⟨h.expiresAt, fun hr => absurd hr h.active, fun _ hu => h.used hu⟩

theorem Knows.of_later {m : Local} (hm : Knows hash s m) (h : Later s s') (hfree : m.locks = []) :
    Knows hash s' m := by
  cases m with
  | holdsToken | holdsBoth | touching => cases hfree
  | start | stale | revalidate | revoking => trivial
  | returned call outcome =>
    cases call with
    | rotate r =>
      cases outcome with
      | rotated => exact ⟨h.used _ hm.1, h.expiresAt ▸ hm.2⟩
      | reuse => exact h.revoked hm
      | _ => trivial
    | validate v =>
      cases outcome with
      | valid =>
        change v.now < s'.session.expiresAt
        rw [h.expiresAt]
        exact hm
      | _ => trivial
    | revoke r => trivial

theorem Knows.of_writes {m : Local} (hm : Knows hash s m) (h : Writes s s' l l')
    (hclash : (program hash).clash l m = false) : Knows hash s' m := by
  have hfree : Lock.session ∉ m.locks := not_locked (by simp [program]) hclash h.holds
  cases m with
  | holdsToken r t => exact ⟨h.tokens ▸ hm.1, hm.2⟩
  | holdsBoth r t session => exact absurd (by simp [Local.locks]) hfree
  | touching v => exact absurd (List.mem_singleton_self _) hfree
  | start | stale | revalidate | revoking => trivial
  | returned => exact hm.of_later h.later rfl

theorem Knows.of_rotates {m : Local} (hm : Knows hash s m) (h : Rotates hash s s' l l')
    (hclash : (program hash).clash l m = false) : Knows hash s' m := by
  obtain ⟨r, t, tokens, hl, -, ⟨ht, -⟩, -, -, hreplace, htokens⟩ := h.rotated
  have hsession : Lock.session ∉ m.locks :=
    not_locked (by simp [program]) hclash (by simp [hl, program, Local.locks])
  have htoken : Lock.token t.id ∉ m.locks :=
    not_locked (by simp [program]) hclash (by simp [hl, program, Local.locks])
  cases m with
  | holdsToken r' t' =>
    refine ⟨?_, hm.2⟩
    rw [htokens]
    refine (mem_replace ht hreplace).mpr (Or.inr (Or.inr ⟨hm.1, fun he => htoken ?_⟩))
    simp [Local.locks, he]
  | holdsBoth r' t' session => exact absurd (by simp [Local.locks]) hsession
  | touching v => exact absurd (List.mem_singleton_self _) hsession
  | start | stale | revalidate | revoking => trivial
  | returned => exact hm.of_later h.later rfl

theorem Rotates.knows (h : Rotates hash s s' l l') : Knows hash s' l' := by
  obtain ⟨r, t, tokens, -, rfl, ⟨ht, hhash⟩, -, hnow, hreplace, htokens⟩ := h.rotated
  refine ⟨⟨spent r t, ?_, hhash, rfl⟩, ?_⟩
  · rw [htokens]
    exact (mem_replace ht hreplace).mpr (Or.inr (Or.inl rfl))
  · rw [h.expiresAt]
    exact hnow

theorem rules_of {I : Store → Prop} (hI : ∀ s s', I s → Consistent s → Later s s' → I s') :
    Rules (program hash) (fun _ _ _ => True) (fun s => Consistent s ∧ I s) (Knows hash) where
  enter _ _ _ := trivial
  own s l a s' l' hs hl _ hmove := by
    rcases move_cases hl hmove with ⟨rfl, hk⟩ | ⟨hw, hk⟩ | hr
    · exact ⟨hs, hk.knows⟩
    · have hc : Consistent s' := ⟨hw.tokens ▸ hs.1.hashes, hw.tokens ▸ hs.1.unused,
        by rw [hw.tokens, hw.id]; exact hs.1.owned⟩
      exact ⟨⟨hc, hI s s' hs.2 hs.1 hw.later⟩, hk.knows⟩
    · exact ⟨⟨hr.consistent hs.1, hI s s' hs.2 hs.1 hr.later⟩, hr.knows⟩
  other s l a s' l' m _ hl hm hclash _ hmove := by
    rcases move_cases hl hmove with ⟨rfl, -⟩ | ⟨hw, -⟩ | hr
    · exact hm
    · exact hm.of_writes hw hclash
    · exact hm.of_rotates hr hclash

/-! ### Runs -/

theorem rotates_of_rotated (hk : Knows hash s l) (h : move hash a s l = some (s', l'))
    (hrotated : l'.isRotated = true) : Rotates hash s s' l l' := by
  rcases move_cases hk h with ⟨-, hq⟩ | ⟨-, hq⟩ | hr
  · rw [hq.plain] at hrotated
    cases hrotated
  · rw [hq.plain] at hrotated
    cases hrotated
  · exact hr

/-- Two calls have not rotated one token. -/
def Apart (hash : String → String) (l m : Local) : Prop :=
  ∀ r r', l = .returned (.rotate r) .rotated → m = .returned (.rotate r') .rotated →
    hash r.refreshToken ≠ hash r'.refreshToken

theorem apart_rules {I : Store → Prop} :
    PairRules (program hash) (fun s => Consistent s ∧ I s) (Knows hash) (Apart hash) where
  symm l m h r r' hl hm he := h r' r hm hl he.symm
  enter call m r r' hl := by cases hl
  act s l a s' l' m hs hl hm hlm hmove := by
    intro r r' hl' hm' he
    subst hl' hm'
    obtain ⟨r₀, t, tokens, -, hreturned, ⟨ht, hhash⟩, hunused, -⟩ :=
      (rotates_of_rotated hl hmove rfl).rotated
    cases hreturned
    obtain ⟨⟨t', ht', hhash', hused⟩, -⟩ := hm
    have htt : t = t' := hs.1.hashes t ht t' ht' (hhash.trans (he.trans hhash'.symm))
    rw [← htt, hunused] at hused
    cases hused

theorem not_granted (hk : Knows hash s l) (hrevoked : Revoked s)
    (h : move hash a s l = some (s', l')) : ¬ l'.granted = true := by
  intro hgranted
  rcases move_cases hk h with ⟨rfl, hq⟩ | ⟨hw, hq⟩ | hr
  · exact hq.active hgranted hrevoked
  · exact hq.active hgranted (hw.revoked hrevoked)
  · exact hr.active hrevoked

theorem create_consistent {input : CreateAuthSessionInput} {userExists : Bool} {now : ℤ}
    {sessionId tokenId : Uuid} {refreshToken : String}
    (h : create hash input userExists now sessionId tokenId refreshToken = some s) :
    Consistent s := by
  unfold create at h
  dsimp only at h
  split at h
  · cases h
  obtain ⟨tokens, htokens, rfl⟩ := Option.map_eq_some_iff.mp h
  obtain ⟨-, hrows⟩ := Table.insert?_eq_some htokens
  have hone : ∀ t ∈ tokens.rows, ∀ t' ∈ tokens.rows, t = t' := by
    intro t ht t' ht'
    rw [hrows] at ht ht'
    rw [List.mem_singleton.mp ht, List.mem_singleton.mp ht']
  refine ⟨fun t ht t' ht' _ => hone t ht t' ht', fun t ht t' ht' _ _ => hone t ht t' ht', ?_⟩
  intro t ht
  rw [hrows] at ht
  rw [List.mem_singleton.mp ht]

/-- A call that presents a used token says so, unless it fails. -/
theorem reuse_of_used {o : Outcome} (hc : Consistent s) (hk : Knows hash s l)
    (hgiven : r.refreshToken ≠ "") (hu : Used s (hash r.refreshToken))
    (h : move hash a s l = some (s', .returned (.rotate r) o)) : o = .failed ∨ o = .reuse := by
  obtain ⟨x, hx, hxhash, hxused⟩ := hu
  cases a with
  | abort => cases l <;> cases h <;> exact Or.inl rfl
  | next =>
    cases l with
    | start call =>
      cases call with
      | rotate r' =>
        simp only [move, selectToken] at h
        split at h
        · next hempty =>
          cases h
          exact absurd hempty hgiven
        split at h
        · next hnone =>
          cases h
          exact absurd (List.find?_eq_none.mp hnone x hx) (by simpa using hxhash)
        · cases h
      | validate v =>
        simp only [move, selectValid] at h
        split at h
        · split at h <;> cases h
        · cases h
      | revoke r' =>
        simp only [move, lockRevoked] at h
        split at h
        · cases h
        · split at h <;> cases h
    | holdsToken r' t =>
      simp only [move, selectSession] at h
      split at h
      · cases h
      · next hforeign => exact absurd (hc.owned t hk.1).symm hforeign
    | holdsBoth r' t session =>
      obtain ⟨⟨ht, hhash⟩, rfl⟩ := hk
      have h := Option.some.inj h
      unfold finishRotate at h
      split at h
      · cases h
        exact Or.inr rfl
      next hunused =>
      have hr : r' = r := by
        split at h
        · cases h
          rfl
        · split at h <;> (cases h; rfl)
      subst hr
      rw [hc.hashes t ht x hx (hhash.trans hxhash.symm)] at hunused
      exact absurd hxused hunused
    | stale v =>
      simp only [move, lockStale] at h
      split at h <;> cases h
    | revalidate v =>
      simp only [move, reselectValid] at h
      split at h <;> cases h
    | touching | revoking | returned => cases h

/-- The session is revoked, or a used token has been presented again: when the call came to look its
token up, the token was used, and the call has returned without failing. -/
def Over (hash : String → String) (start : World Store Local) (events : List (Event Call Action)) :
    Prop :=
  Revoked (run (program hash) start events).store ∨
    ∃ (before later : List (Event Call Action)) (i : ℕ) (r : Rotation) (outcome : Outcome),
      events = before ++ later ∧
      (run (program hash) start before).sessions[i]? = some (.start (.rotate r)) ∧
      r.refreshToken ≠ "" ∧ Used (run (program hash) start before).store (hash r.refreshToken) ∧
      (run (program hash) start events).sessions[i]? = some (.returned (.rotate r) outcome) ∧
      outcome ≠ .failed

theorem Over.revoked {start : World Store Local} {events : List (Event Call Action)} {I : Store → Prop}
    (hI : ∀ s s', I s → Consistent s → Later s s' → I s')
    (hstart : start.Holds (program hash) (fun x => Consistent x ∧ I x) (Knows hash))
    (h : Over hash start events) : Revoked (run (program hash) start events).store := by
  rcases h with hrevoked | ⟨before, later, i, r, o, rfl, hi, hgiven, hu, hreturned, ho⟩
  · exact hrevoked
  have hw := run_always (rules_of hI) before hstart
  have hw' : World.Holds (program hash) (fun x => Consistent x ∧ Used x (hash r.refreshToken))
      (Knows hash) (run (program hash) start before) := ⟨⟨hw.store.1, hu⟩, hw.sessions, hw.apart⟩
  rw [run_append] at hreturned ⊢
  have hreuse : o = .reuse := by
    by_contra hne
    have hbefore := run_reflects
      (Q := fun l => ∃ o, l = .returned (.rotate r) o ∧ o ≠ .failed ∧ o ≠ .reuse)
      (rules_of fun x x' hx _ hlater => hlater.used _ hx) (by rintro call ⟨o, ⟨⟩, -⟩)
      (by
        rintro x m a x' _ hx hm hmove ⟨o, rfl, hfailed, hother⟩
        exact (reuse_of_used hx.1 hm hgiven hx.2 hmove).elim hfailed hother)
      later hw' hreturned ⟨o, rfl, ho, hne⟩
    rw [hi] at hbefore
    cases hbefore
  subst hreuse
  exact (run_always (rules_of hI) later hw).sessions i _ hreturned


/-- **Rotation**: whatever calls on a created session do in whatever order, each token is rotated at
most once, at most one token is unused, after reuse or revocation no further call rotates a token or
finds the session valid, and no call does once the session has expired. -/
theorem rotation_safe (hash : String → String) (input : CreateAuthSessionInput) (userExists : Bool)
    (now : ℤ) (sessionId tokenId : Uuid) (refreshToken : String) (s : Store)
    (hcreate : create hash input userExists now sessionId tokenId refreshToken = some s)
    (events more : List (Event Call Action)) :
    let w := run (program hash) (World.closed s) events
    (∀ (i j : ℕ) (r r' : Rotation), i ≠ j →
      w.sessions[i]? = some (.returned (.rotate r) .rotated) →
      w.sessions[j]? = some (.returned (.rotate r') .rotated) → r.refreshToken ≠ r'.refreshToken) ∧
    (∀ t ∈ w.store.tokens.rows, ∀ t' ∈ w.store.tokens.rows,
      t.usedAt = none → t'.usedAt = none → t = t') ∧
    (Over hash (World.closed s) events → ∀ (i : ℕ) (l : Local), (run (program hash) w more).sessions[i]? = some l →
      l.granted = true → w.sessions[i]? = some l) ∧
    (∀ (i : ℕ) (r : Rotation), w.sessions[i]? = some (.returned (.rotate r) .rotated) →
      r.now < s.session.expiresAt) ∧
    ∀ (i : ℕ) (v : Validation), w.sessions[i]? = some (.returned (.validate v) .valid) →
      v.now < s.session.expiresAt := by
  intro w
  have hstart : World.Holds (program hash)
      (fun x => Consistent x ∧ x.session.expiresAt = s.session.expiresAt) (Knows hash)
      (World.closed s) := World.holds_closed ⟨create_consistent hcreate, rfl⟩
  have hR : Rules (program hash) (fun _ _ _ => True)
      (fun x => Consistent x ∧ x.session.expiresAt = s.session.expiresAt) (Knows hash) :=
    rules_of fun x x' hx _ hlater => hlater.expiresAt.trans hx
  have hw := run_always hR events hstart
  have hpairs := run_pairs hR apart_rules events hstart
    (fun _ _ _ _ _ hi => by cases hi)
  refine ⟨fun i j r r' hij hi hj he => ?_, hw.store.1.unused, fun hover i l hl hgranted => ?_,
    fun i r hi => ?_, fun i v hi => ?_⟩
  · exact hpairs i j _ _ hij hi hj r r' rfl rfl (congrArg hash he)
  · have hrevoked : Revoked w.store :=
      hover.revoked (fun x x' hx _ hlater => hlater.expiresAt.trans hx) hstart
    have hR' : Rules (program hash) (fun _ _ _ => True) (fun x => Consistent x ∧ Revoked x)
        (Knows hash) := rules_of fun x x' hx _ hlater => hlater.revoked hx
    have hw' : World.Holds (program hash) (fun x => Consistent x ∧ Revoked x) (Knows hash) w :=
      ⟨⟨hw.store.1, hrevoked⟩, hw.sessions, hw.apart⟩
    exact run_reflects (Q := fun l => l.granted = true) hR' (fun _ h => by cases h)
      (fun x m a x' m' hx hm hmove => not_granted hm hx.2 hmove) more hw' hl hgranted
  · have hnow := (hw.sessions i _ hi).2
    rwa [hw.store.2] at hnow
  · have hnow : v.now < w.store.session.expiresAt := hw.sessions i _ hi
    rwa [hw.store.2] at hnow

/-! Two calls race with one token; the loser reveals the reuse, and the new token is dead. -/

def firstToken : Rotation :=
  { refreshToken := "t0", nextRefreshToken := "t1", replacementId := 3, now := 10 }

def reuseEvents : List (Event Call Action) :=
  [.enter (.rotate firstToken), .enter (.rotate { firstToken with nextRefreshToken := "t2" }),
    .act 0 .next, .act 1 .next, .act 0 .next, .act 0 .next, .act 1 .next, .act 1 .next, .act 1 .next]

def nextEvents : List (Event Call Action) :=
  [.enter (.rotate { refreshToken := "t1", nextRefreshToken := "t3", replacementId := 4, now := 20 }),
    .act 2 .next, .act 2 .next, .act 2 .next]

theorem rotation_safe_reused :
    ∃ s, create id { userId := 1 } true 0 7 2 "t0" = some s ∧
      ∀ (i : ℕ) (l : Local),
        (run (program id) (run (program id) (World.closed s) reuseEvents) nextEvents).sessions[i]? =
          some l → l.granted = true →
            (run (program id) (World.closed s) reuseEvents).sessions[i]? = some l := by
  refine ⟨_, rfl, ?_⟩
  exact (rotation_safe id { userId := 1 } true 0 7 2 "t0" _ rfl reuseEvents nextEvents).2.2.1
    (Or.inr ⟨reuseEvents.take 6, reuseEvents.drop 6, 1, _, .reuse, rfl, rfl, by decide,
      ⟨_, .head _, rfl, rfl⟩, rfl, by decide⟩)

end CalmBoard.Auth
