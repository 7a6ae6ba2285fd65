import CalmBoard.Integrations.Credentials

/-!
# CalmBoard.Integrations.Disconnected — credentials keep what was last decided

* `Sound`: a key has at most one live credential; after a disconnect there is one only where a
  completion begun later has saved it; and a live one is marked as expired only if it has expired.
* `Write.Safe`, `Sound.view`: the writes that keep this, and the transactions made of them.
* `credential_laws`: what a call knows of the store while others commit.
* `credentials_kept`: runs in which no call inserts a credential that it began to fetch before a
  disconnect, and none marks one that has been renewed.
-/

namespace CalmBoard.Credentials

open Requests Sessions

/-! ### The invariant -/

/-- After a disconnect there is nothing to use until a completion begun later has saved a
credential. -/
def Store.StaysDisconnected (s : Store) : Prop :=
  s.disconnects ≠ 0 → s.renewed = false → s.forUse = none

/-- A live credential that is marked as expired had expired by the time it has been marked for. -/
def Store.MarksExpired (s : Store) : Prop :=
  ∀ r ∈ s.credentials.rows, r.isLive = true → r.status = .expired →
    ∃ now, r.markedFor = some now ∧ r.isExpired now = true

/-- A live credential that has not expired by a time no earlier than any it has been marked for is the
one that `getForUse` reads. -/
def Store.ReturnsCurrent (s : Store) : Prop :=
  ∀ r ∈ s.credentials.rows, r.isLive = true → r.status ≠ .error → ∀ now, r.isExpired now = false →
    (∀ t, r.markedFor = some t → t ≤ now) → s.forUse = some r

structure Sound (s : Store) : Prop where
  single : ∀ r ∈ s.credentials.rows, ∀ r' ∈ s.credentials.rows, r.isLive = true → r'.isLive = true →
    r.id = r'.id
  revoked : ∀ r ∈ s.credentials.rows, r.status = .revoked → r.isLive = false
  renewed : s.disconnects ≠ 0 → s.live.isSome = true → s.renewed = true
  marked : s.MarksExpired

def Write.locks : Write → List Lock
  | .insert id _ _ | .revoke id _ => [.row id, .active]
  | .update id _ _ | .markExpired id _ | .touch id _ => [.row id]

variable {i : Input} {s s' : Store} {p p' : Point} {ks ks' : List Lock} {ws ws' : List Write}
  {w : Write} {x : Saving} {id : Uuid} {f : CredentialRow → CredentialRow}
  {r : CredentialRow}

theorem live_isSome : s.live.isSome = true ↔ ∃ r ∈ s.credentials.rows, r.isLive = true :=
  List.find?_isSome

theorem mem_setCredential (hf : ∀ r, (f r).id = r.id) :
    r ∈ (s.setCredential id f hf).credentials.rows ↔
    ∃ q ∈ s.credentials.rows, (if q.id = id then f q else q) = r := by
  simp [Store.setCredential]

theorem setCredential_cases (hf : ∀ r, (f r).id = r.id)
    (h : r ∈ (s.setCredential id f hf).credentials.rows) :
    (∃ q ∈ s.credentials.rows, q.id = id ∧ r = f q) ∨ r ∈ s.credentials.rows ∧ r.id ≠ id := by
  obtain ⟨q, hq, hr⟩ := (mem_setCredential hf).mp h
  by_cases hid : q.id = id
  · rw [if_pos hid] at hr
    exact Or.inl ⟨q, hq, hid, hr.symm⟩
  · rw [if_neg hid] at hr
    subst hr
    exact Or.inr ⟨hq, hid⟩

theorem find?_setCredential_of_ne (hf : ∀ r, (f r).id = r.id) {k : Uuid} (hk : k ≠ id) :
    (s.setCredential id f hf).credentials.find? k = s.credentials.find? k := by
  simp only [Store.setCredential, Table.find?_update]
  cases hr : s.credentials.find? k with
  | none => rfl
  | some r =>
    have hne : r.id ≠ id := fun he => hk ((Table.key_of_find? hr).symm.trans he)
    simp [hne]

theorem live_setCredential (hf : ∀ r, (f r).id = r.id) (hlive : ∀ r, (f r).isLive = r.isLive) :
    (s.setCredential id f hf).live.isSome = s.live.isSome := by
  rw [Bool.eq_iff_iff, live_isSome, live_isSome]
  constructor
  · rintro ⟨r, hr, hl⟩
    rcases setCredential_cases hf hr with ⟨q, hq, -, rfl⟩ | ⟨hr, -⟩
    · exact ⟨q, hq, (hlive q).symm.trans hl⟩
    · exact ⟨r, hr, hl⟩
  · rintro ⟨r, hr, hl⟩
    refine ⟨_, (mem_setCredential hf).mpr ⟨r, hr, rfl⟩, ?_⟩
    split
    · exact (hlive r).trans hl
    · exact hl

/-- What a write has to meet to keep the invariant. -/
def Write.Safe (s : Store) : Write → Prop
  | .insert _ _ x => s.live = none ∧ x.isRenewal s = true
  | .markExpired id now =>
    ∀ r, s.credentials.find? id = some r → r.isLive = true → r.isExpired now = true
  | .revoke id _ => ∃ r, s.credentials.find? id = some r ∧ r.isLive = true
  | .update .. | .touch .. => True

def Write.IsQuiet : Write → Prop
  | .update .. | .touch .. => True
  | .insert .. | .markExpired .. | .revoke .. => False

theorem Write.IsQuiet.safe (h : w.IsQuiet) (s : Store) : w.Safe s := by
  cases w with
  | update | touch => trivial
  | insert | markExpired | revoke => exact h.elim

theorem isLive_of_none (hlive : s.live = none) (hr : r ∈ s.credentials.rows) : r.isLive = false := by
  by_contra hl
  rw [Bool.not_eq_false] at hl
  have hsome := live_isSome.mpr ⟨r, hr, hl⟩
  rw [hlive] at hsome
  cases hsome

theorem Sound.setCredential (h : Sound s) (hf : ∀ r, (f r).id = r.id) {renewed : Bool}
    (hlive : ∀ r, (f r).isLive = r.isLive)
    (hrevoked : ∀ r, (f r).status = .revoked → r.status = .revoked)
    (hrenewed : s.renewed = true → renewed = true)
    (hmarked : ∀ r ∈ s.credentials.rows, r.id = id → r.isLive = true → (f r).status = .expired →
      ∃ now, (f r).markedFor = some now ∧ (f r).isExpired now = true) :
    Sound { s.setCredential id f hf with renewed := renewed } where
  single r hr r' hr' hl hl' := by
    rcases setCredential_cases hf hr with ⟨q, hq, -, rfl⟩ | ⟨hr, -⟩ <;>
      rcases setCredential_cases hf hr' with ⟨q', hq', -, rfl⟩ | ⟨hr', -⟩
    · rw [hf, hf]
      exact h.single q hq q' hq' ((hlive q).symm.trans hl) ((hlive q').symm.trans hl')
    · rw [hf]
      exact h.single q hq r' hr' ((hlive q).symm.trans hl) hl'
    · rw [hf]
      exact h.single r hr q' hq' hl ((hlive q').symm.trans hl')
    · exact h.single r hr r' hr' hl hl'
  revoked r hr hstatus := by
    rcases setCredential_cases hf hr with ⟨q, hq, -, rfl⟩ | ⟨hr, -⟩
    · exact (hlive q).trans (h.revoked q hq (hrevoked q hstatus))
    · exact h.revoked r hr hstatus
  renewed hd hl := hrenewed (h.renewed hd ((live_setCredential hf hlive).symm.trans hl))
  marked r hr hl hstatus := by
    rcases setCredential_cases hf hr with ⟨q, hq, hid, rfl⟩ | ⟨hr, -⟩
    · exact hmarked q hq hid ((hlive q).symm.trans hl) hstatus
    · exact h.marked r hr hl hstatus

theorem Sound.apply (h : Sound s) (hw : w.Safe s) : Sound (w.apply s) := by
  cases w with
  | insert id rotatedAt x =>
    obtain ⟨hnone, hrenewal⟩ := hw
    simp only [Write.apply, hrenewal, Bool.or_true]
    cases hi : s.credentials.insert? (x.input.row id rotatedAt) with
    | none =>
      exact ⟨h.single, h.revoked, fun _ _ => rfl, h.marked⟩
    | some T =>
      -- every other row has been revoked
      have hnew : ∀ r ∈ T.rows, r = x.input.row id rotatedAt ∨ r ∈ s.credentials.rows := by
        intro r hr
        rw [(Table.insert?_eq_some hi).2, List.mem_append, List.mem_singleton] at hr
        exact hr.symm
      refine ⟨fun r hr r' hr' hl hl' => ?_, fun r hr hs => ?_, fun _ _ => rfl, fun r hr hl hs => ?_⟩
      · rcases hnew r hr with rfl | hr
        · rcases hnew r' hr' with rfl | hr'
          · rfl
          · rw [isLive_of_none hnone hr'] at hl'
            cases hl'
        · rw [isLive_of_none hnone hr] at hl
          cases hl
      · rcases hnew r hr with rfl | hr
        · cases hs
        · exact h.revoked r hr hs
      · rcases hnew r hr with rfl | hr
        · cases hs
        · exact h.marked r hr hl hs
  | update id rotatedAt x =>
    refine h.setCredential (CredentialRow.save_id rotatedAt x.input) (fun _ => rfl) (fun r hr => ?_)
      (fun hrenewed => ?_) fun r _ _ _ hs => ?_
    · rw [CredentialRow.save_status] at hr
      cases hr
    · rw [hrenewed, Bool.true_or]
    · rw [CredentialRow.save_status] at hs
      cases hs
  | markExpired id now =>
    refine h.setCredential (CredentialRow.markExpired_id now) (fun _ => rfl) (fun r hr => ?_)
      (fun hrenewed => hrenewed) fun r hr hid hl _ => ?_
    · rw [CredentialRow.markExpired_status] at hr
      cases hr
    · exact ⟨now, rfl, hw r (hid ▸ Table.find?_of_mem hr) hl⟩
  | touch id now =>
    exact h.setCredential (CredentialRow.touch_id now) (fun _ => rfl) (fun _ hr => hr) (fun hr => hr)
      fun r hr _ hl hs => h.marked r hr hl hs
  | revoke id now =>
    obtain ⟨live, hlive, hl⟩ := hw
    -- the one that was live
    have hnone : ∀ r ∈ (Write.apply (.revoke id now) s).credentials.rows, r.isLive = false := by
      intro r hr
      rcases setCredential_cases (CredentialRow.revoke_id now) hr with ⟨q, -, -, rfl⟩ | ⟨hr, hid⟩
      · rfl
      · by_contra hother
        rw [Bool.not_eq_false] at hother
        exact hid ((h.single r hr live (Table.mem_of_find? hlive) hother hl).trans
          (Table.key_of_find? hlive))
    refine ⟨fun r hr r' hr' hl => ?_, fun r hr _ => hnone r hr, fun _ hl => ?_, fun r hr hl => ?_⟩
    · rw [hnone r hr] at hl
      cases hl
    · obtain ⟨r, hr, hl⟩ := live_isSome.mp hl
      rw [hnone r hr] at hl
      cases hl
    · rw [hnone r hr] at hl
      cases hl

/-! ### Transactions -/

/-- The writes of a transaction that may be committed. -/
def Ready (s : Store) (ws : List Write) : Prop :=
  (∀ w ∈ ws, w.IsQuiet) ∨ ∃ w, ws = [w] ∧ w.Safe s

theorem Sound.view (h : Sound s) (hws : Ready s ws) : Sound (script.view s ws) := by
  rcases hws with hquiet | ⟨w, rfl, hw⟩
  · induction ws generalizing s with
    | nil => exact h
    | cons w ws ih =>
      exact ih (h.apply ((hquiet w List.mem_cons_self).safe s))
        fun w' hw' => hquiet w' (List.mem_cons_of_mem w hw')
  · exact h.apply hw

/-- A live credential stays live, as long as nothing is disconnected. -/
def Later (s s' : Store) : Prop :=
  s.disconnects ≤ s'.disconnects ∧
    (s'.disconnects = s.disconnects → s.live.isSome = true → s'.live.isSome = true)

theorem later_apply (w : Write) (s : Store) : Later s (w.apply s) := by
  cases w with
  | insert id rotatedAt x =>
    refine ⟨le_refl _, fun _ hl => ?_⟩
    obtain ⟨r, hr, hl⟩ := live_isSome.mp hl
    refine live_isSome.mpr ⟨r, ?_, hl⟩
    simp only [Write.apply]
    cases hi : s.credentials.insert? (x.input.row id rotatedAt) with
    | none => exact hr
    | some T =>
      rw [Option.getD_some, (Table.insert?_eq_some hi).2]
      exact List.mem_append_left _ hr
  | update id rotatedAt x =>
    exact ⟨le_refl _, fun _ hl =>
      (live_setCredential (CredentialRow.save_id rotatedAt x.input) fun _ => rfl).trans hl⟩
  | markExpired id now =>
    exact ⟨le_refl _, fun _ hl =>
      (live_setCredential (CredentialRow.markExpired_id now) fun _ => rfl).trans hl⟩
  | touch id now =>
    exact ⟨le_refl _, fun _ hl =>
      (live_setCredential (CredentialRow.touch_id now) fun _ => rfl).trans hl⟩
  | revoke id now =>
    exact ⟨Nat.le_succ _, fun heq => absurd heq (Nat.succ_ne_self _)⟩

theorem later_view (s : Store) (ws : List Write) : Later s (script.view s ws) := by
  induction ws generalizing s with
  | nil => exact ⟨le_refl _, fun _ hl => hl⟩
  | cons w ws ih =>
    obtain ⟨hle, hlive⟩ := later_apply w s
    obtain ⟨hle', hlive'⟩ := ih (w.apply s)
    refine ⟨hle.trans hle', fun heq hl => ?_⟩
    change (script.view (w.apply s) ws).disconnects = s.disconnects at heq
    have hsame : (w.apply s).disconnects = s.disconnects := by omega
    exact hlive' (heq.trans hsame.symm) (hlive hsame hl)

theorem row_frame {k : Uuid} (w : Write) (s : Store) (hk : Lock.row k ∉ w.locks) :
    (w.apply s).credentials.find? k = s.credentials.find? k := by
  have hne : ∀ {id : Uuid}, Lock.row id ∈ w.locks → k ≠ id := by
    rintro id hid rfl
    exact hk hid
  cases w with
  | insert id rotatedAt x =>
    simp only [Write.apply]
    cases hi : s.credentials.insert? (x.input.row id rotatedAt) with
    | none => rfl
    | some T =>
      have hid : (x.input.row id rotatedAt).id ≠ k := (hne List.mem_cons_self).symm
      rw [Option.getD_some, Table.find?_insert? hi, if_neg hid]
  | update id rotatedAt x =>
    exact find?_setCredential_of_ne (CredentialRow.save_id rotatedAt x.input) (hne List.mem_cons_self)
  | markExpired id now =>
    exact find?_setCredential_of_ne (CredentialRow.markExpired_id now) (hne List.mem_cons_self)
  | touch id now =>
    exact find?_setCredential_of_ne (CredentialRow.touch_id now) (hne List.mem_cons_self)
  | revoke id now =>
    exact find?_setCredential_of_ne (CredentialRow.revoke_id now) (hne List.mem_cons_self)

theorem active_frame (w : Write) (s : Store) (hk : Lock.active ∉ w.locks) :
    ((w.apply s).live.isSome, (w.apply s).disconnects) = (s.live.isSome, s.disconnects) := by
  cases w with
  | insert | revoke => exact absurd (List.mem_cons_of_mem _ List.mem_cons_self) hk
  | update id rotatedAt x =>
    exact congrArg (·, s.disconnects)
      (live_setCredential (CredentialRow.save_id rotatedAt x.input) fun _ => rfl)
  | markExpired id now =>
    exact congrArg (·, s.disconnects)
      (live_setCredential (CredentialRow.markExpired_id now) fun _ => rfl)
  | touch id now =>
    exact congrArg (·, s.disconnects)
      (live_setCredential (CredentialRow.touch_id now) fun _ => rfl)

theorem Write.Safe.view (h : w.Safe s) (hws : Covered Write.locks ks ws)
    (hfree : ∀ k ∈ w.locks, k ∉ ks) : w.Safe (script.view s ws) := by
  have hrow : ∀ id, Lock.row id ∈ w.locks →
      (script.view s ws).credentials.find? id = s.credentials.find? id := fun id hid =>
    view_frame (S := script) (k := Lock.row id) (f := fun s => s.credentials.find? id)
      (fun w s hk => row_frame w s hk) hws (hfree _ hid) s
  cases w with
  | update | touch => trivial
  | insert id rotatedAt x =>
    have hactive := view_frame (S := script) (k := Lock.active)
      (f := fun s => (s.live.isSome, s.disconnects)) (fun w s hk => active_frame w s hk) hws
      (hfree _ (List.mem_cons_of_mem _ List.mem_cons_self)) s
    obtain ⟨hlive, hdisconnects⟩ := Prod.mk.inj hactive
    obtain ⟨hnone, hrenewal⟩ := h
    refine ⟨?_, ?_⟩
    · rwa [hnone, Option.isSome_none, Option.isSome_eq_false_iff, Option.isNone_iff_eq_none] at hlive
    · simp only [Saving.isRenewal, hdisconnects]
      exact hrenewal
  | markExpired id now =>
    intro r hr
    rw [hrow id List.mem_cons_self] at hr
    exact h r hr
  | revoke id now =>
    obtain ⟨r, hr, hl⟩ := h
    exact ⟨r, (hrow id List.mem_cons_self).trans hr, hl⟩

theorem Ready.view (h : Ready s ws') (hws' : Covered Write.locks ks' ws')
    (hws : Covered Write.locks ks ws) (hfree : ∀ k ∈ ks', k ∉ ks) :
    Ready (script.view s ws) ws' := by
  rcases h with hquiet | ⟨w, rfl, hw⟩
  · exact Or.inl hquiet
  · exact Or.inr ⟨w, rfl, hw.view hws fun k hk => hfree k (hws' w List.mem_cons_self k hk)⟩

/-! ### What a call knows -/

/-- A token is refreshed for a credential that stays live, unless there is a disconnect. -/
def Outlived (s : Store) (begun : ℕ) : Prop :=
  begun ≤ s.disconnects ∧ (begun = s.disconnects → s.live.isSome = true)

def Point.Begun (s : Store) : Point → Prop
  | .refreshAccessToken _ _ _ begun => Outlived s begun
  | .selectExisting x | .updateExisting x _ | .insertNew x => x.origin ≠ .completion → Outlived s x.begun
  | _ => True

/-- What a transaction has written. -/
def Point.Pending (s : Store) (ws : List Write) : Point → Prop
  | .consumeState | .exchangeCode _ | .getOAuthForRefresh _ | .refreshAccessToken .. | .selectExisting _
  | .updateExisting .. | .insertNew _ | .getForRevocation | .revoke _ => ws = []
  | .saved x _ => Ready s ws ∧ (x.origin ≠ .completion → ∀ w ∈ ws, w.IsQuiet)
  | .selectForUse enclosed | .markExpired enclosed _ _ =>
    (∀ w ∈ ws, w.IsQuiet) ∧ (enclosed = false → ws = [])
  | .markedExpired enclosed => enclosed = false → Ready s ws
  | .touch _ | .used _ => ∀ w ∈ ws, w.IsQuiet
  | .revoked _ => Ready s ws

structure Knows (s : Store) (p : Point) (ks : List Lock) (ws : List Write) : Prop where
  covered : Covered Write.locks ks ws
  begun : p.Begun s
  pending : p.Pending s ws

/-- Where no live credential is found, one is inserted by a call that no disconnect has overtaken; and
a statement of its own marks a credential only if that, as it stands, has expired. -/
def Undisturbed (s : Store) (_ : Input) : Point → Prop
  | .insertNew x => s.live = none → x.begun = s.disconnects
  | .markExpired false id now =>
    (s.credentials.find? id).all (fun r => !r.isLive || r.isExpired now) = true
  | _ => True

instance (s : Store) (i : Input) : DecidablePred (Undisturbed s i)
  | .insertNew _ => inferInstanceAs (Decidable (_ → _))
  | .markExpired false _ _ => inferInstanceAs (Decidable (_ = true))
  | .markExpired true .. | .consumeState | .exchangeCode _ | .getOAuthForRefresh _
  | .refreshAccessToken .. | .selectExisting _ | .updateExisting .. | .saved .. | .selectForUse _
  | .markedExpired _ | .touch _ | .used _ | .getForRevocation | .revoke _ | .revoked _ =>
    .isTrue trivial

theorem Outlived.later {begun : ℕ} (h : Outlived s begun) (hs : Later s s') : Outlived s' begun := by
  refine ⟨h.1.trans hs.1, fun heq => ?_⟩
  have hle := h.1
  have hle' := hs.1
  have hsame : s'.disconnects = s.disconnects := by omega
  exact hs.2 hsame (h.2 (heq.trans hsame))

theorem quiet_singleton (h : w.IsQuiet) : ∀ w' ∈ [w], w'.IsQuiet := by
  intro w' hw'
  rw [List.mem_singleton] at hw'
  exact hw' ▸ h

theorem covered_of_nexts (h : Nexts i s p p' ks ws) : Covered Write.locks ks ws := by
  cases h with
  | update | insert | mark | touch | revoke => exact covered_singleton fun k hk => hk
  | exchanged | current | outdated | refreshed | existing | vacant | reread | expired | usable | gone
  | connected => exact covered_nil _ _

theorem Knows.next (h : Knows s p ks ws) (hg : Undisturbed s i p)
    (hn : Nexts i (script.view s ws) p p' ks' ws') : Knows s p' (ks ++ ks') (ws ++ ws') := by
  obtain ⟨hcov, hbegun, hpending⟩ := h
  have hcov' : Covered Write.locks (ks ++ ks') (ws ++ ws') := hcov.append (covered_of_nexts hn)
  cases hn with
  | exchanged horigin =>
    obtain rfl : ws = [] := hpending
    exact ⟨hcov', fun hne => absurd horigin hne, rfl⟩
  | current enclosed =>
    obtain rfl : ws = [] := hpending
    exact ⟨hcov', trivial, fun w hw => (by cases hw), fun _ => rfl⟩
  | outdated enclosed refreshToken hr =>
    obtain rfl : ws = [] := hpending
    -- the credential it refreshes is there
    obtain ⟨hfound, -⟩ := Option.filter_eq_some_iff.mp hr
    have hlive := List.find?_some hfound
    rw [Bool.and_eq_true] at hlive
    exact ⟨hcov', ⟨le_refl _, fun _ => live_isSome.mpr ⟨_, List.mem_of_find?_eq_some hfound, hlive.2⟩⟩,
      rfl⟩
  | refreshed hb =>
    obtain rfl : ws = [] := hpending
    exact ⟨hcov', fun _ => hb ▸ hbegun, rfl⟩
  | existing x r =>
    obtain rfl : ws = [] := hpending
    exact ⟨hcov', hbegun, rfl⟩
  | vacant x =>
    obtain rfl : ws = [] := hpending
    exact ⟨hcov', hbegun, rfl⟩
  | update x r rotatedAt =>
    obtain rfl : ws = [] := hpending
    have hquiet : ∀ w ∈ [Write.update r.id rotatedAt x], w.IsQuiet := quiet_singleton trivial
    exact ⟨hcov', trivial, Or.inl hquiet, fun _ => hquiet⟩
  | insert x hnone =>
    obtain rfl : ws = [] := hpending
    have heq : x.begun = s.disconnects := hg hnone
    -- a refresh has read a credential that would still be live
    have horigin : x.origin = .completion := by
      by_contra hne
      have hlive := (hbegun hne).2 heq
      rw [show s.live = none from hnone] at hlive
      cases hlive
    have hrenewal : x.isRenewal s = true := by simp [Saving.isRenewal, horigin, heq]
    exact ⟨hcov', trivial, Or.inr ⟨_, rfl, hnone, hrenewal⟩, fun hne => absurd horigin hne⟩
  | reread id horigin =>
    have hquiet : ∀ w ∈ ws, w.IsQuiet := hpending.2 fun he => by
      rw [horigin] at he
      cases he
    simp only [List.append_nil] at hcov' ⊢
    exact ⟨hcov', trivial, hquiet, fun he => by cases he⟩
  | expired enclosed r =>
    simp only [List.append_nil] at hcov' ⊢
    exact ⟨hcov', trivial, hpending⟩
  | usable enclosed r =>
    simp only [List.append_nil] at hcov' ⊢
    exact ⟨hcov', trivial, hpending.1⟩
  | gone enclosed id now =>
    simp only [List.append_nil] at hcov' ⊢
    exact ⟨hcov', trivial, fun _ => Or.inl hpending.1⟩
  | mark enclosed now hr hlive =>
    refine ⟨hcov', trivial, fun henclosed => ?_⟩
    subst henclosed
    obtain rfl : ws = [] := hpending.2 rfl
    refine Or.inr ⟨_, rfl, fun r' hr' hl' => ?_⟩
    change (s.credentials.find? _).all (fun r => !r.isLive || r.isExpired now) = true at hg
    rwa [hr', Option.all_some, hl', Bool.not_true, Bool.false_or] at hg
  | touch r =>
    refine ⟨hcov', trivial, fun w hw => ?_⟩
    rcases List.mem_append.mp hw with hw | hw
    · exact hpending w hw
    · rw [List.mem_singleton] at hw
      subst hw
      trivial
  | connected r =>
    obtain rfl : ws = [] := hpending
    exact ⟨hcov', trivial, rfl⟩
  | revoke hr hlive =>
    obtain rfl : ws = [] := hpending
    exact ⟨hcov', trivial, Or.inr ⟨_, rfl, _, hr, hlive⟩⟩

theorem Knows.ready_of_ends (h : Knows s p ks ws) (hp : p.Ends) : Ready s ws := by
  have hpending := h.pending
  cases p with
  | saved x id => exact hpending.1
  | markedExpired enclosed => exact hpending hp
  | used r => exact Or.inl hpending
  | revoked id => exact hpending
  | consumeState | exchangeCode | getOAuthForRefresh | refreshAccessToken | selectExisting
  | updateExisting | insertNew | selectForUse | markExpired | touch | getForRevocation | revoke =>
    exact hp.elim

theorem Knows.other (h : Knows s p ks' ws') (hws : Covered Write.locks ks ws)
    (hfree : ∀ k ∈ ks', k ∉ ks) : Knows (script.view s ws) p ks' ws' := by
  obtain ⟨hcov, hbegun, hpending⟩ := h
  refine ⟨hcov, ?_, ?_⟩
  · cases p with
    | refreshAccessToken => exact Outlived.later hbegun (later_view s ws)
    | selectExisting | updateExisting | insertNew =>
      exact fun hne => (hbegun hne).later (later_view s ws)
    | consumeState | exchangeCode | getOAuthForRefresh | saved | selectForUse | markExpired
    | markedExpired | touch | used | getForRevocation | revoke | revoked => trivial
  · cases p with
    | saved => exact ⟨hpending.1.view hcov hws hfree, hpending.2⟩
    | markedExpired => exact fun he => (hpending he).view hcov hws hfree
    | revoked => exact Ready.view hpending hcov hws hfree
    | consumeState | exchangeCode | getOAuthForRefresh | refreshAccessToken | selectExisting
    | updateExisting | insertNew | selectForUse | markExpired | touch | used | getForRevocation
    | revoke => exact hpending

theorem credential_laws : Laws script Undisturbed Sound Knows (fun _ _ => True) where
  first _ call _ := by
    refine ⟨covered_nil _ _, ?_, ?_⟩
    · cases call <;> trivial
    · cases call with
      | complete | accessToken | disconnect => rfl
      | getForUse => exact ⟨fun w hw => (by cases hw), fun _ => rfl⟩
  next _ _ _ _ _ _ _ _ _ hL hg h := hL.next hg (nexts_of_next h)
  commit s _ _ ks ws _ hI hL _ h := by
    cases commits_of_commit h with
    | consumed =>
      obtain rfl : ws = [] := hL.pending
      exact ⟨hI, covered_nil _ _, trivial, rfl⟩
    | refreshed id horigin =>
      exact ⟨hI.view hL.pending.1, covered_nil _ _, trivial, fun w hw => (by cases hw), fun _ => rfl⟩
  finish _ _ _ _ _ _ hI hL _ h := ⟨hI.view (hL.ready_of_ends (ends_of_finish h)), trivial⟩
  fail _ _ _ _ _ _ _ _ _ _ := trivial
  other _ _ _ ks _ _ ks' _ _ hL _ hq hapart :=
    hq.other hL.covered fun _ hk' hk => hapart.not_mem (decide_eq_true rfl) hk hk'
  kept _ _ _ _ _ _ _ _ _ _ := trivial

/-! ### Runs -/

theorem isExpired_of_le {t now : ℤ} (h : r.isExpired t = true) (hle : t ≤ now) :
    r.isExpired now = true := by
  unfold CredentialRow.isExpired at h ⊢
  rw [Option.any_eq_true] at h ⊢
  obtain ⟨e, he, het⟩ := h
  rw [decide_eq_true_eq] at het
  exact ⟨e, he, decide_eq_true (het.trans hle)⟩

theorem Sound.staysDisconnected (h : Sound s) : s.StaysDisconnected := by
  intro hd hrenewed
  have hnone : s.live = none := by
    by_contra hlive
    have hrenewed' := h.renewed hd (Option.isSome_iff_ne_none.mpr hlive)
    rw [hrenewed] at hrenewed'
    cases hrenewed'
  refine List.find?_eq_none.mpr fun r hr => ?_
  rw [isLive_of_none hnone hr, Bool.and_false]
  exact Bool.false_ne_true

theorem Sound.returnsCurrent (h : Sound s) : s.ReturnsCurrent := by
  intro r hr hl herror now hexpired hmarked
  have hactive : r.status = .active := by
    cases hs : r.status with
    | active => rfl
    | error => exact absurd hs herror
    | revoked =>
      rw [h.revoked r hr hs] at hl
      cases hl
    | expired =>
      obtain ⟨t, ht, hexpired'⟩ := h.marked r hr hl hs
      rw [isExpired_of_le hexpired' (hmarked t ht)] at hexpired
      cases hexpired
  have hsome : s.forUse.isSome = true :=
    List.find?_isSome.mpr ⟨r, hr, by simp [hactive, hl]⟩
  obtain ⟨q, hq⟩ := Option.isSome_iff_exists.mp hsome
  have hq' := List.find?_some hq
  rw [Bool.and_eq_true] at hq'
  have hqr : q = r := Table.eq_of_mem (List.mem_of_find?_eq_some hq) hr
    (h.single q (List.mem_of_find?_eq_some hq) r hr hq'.2 hl)
  exact hqr ▸ hq

abbrev CredentialEvent := Event Call (Action Input)

/-- Any number of calls, in any order of their statements. -/
def calls (s : Store) (events : List CredentialEvent) : World Store (Local Point Lock Write Answer) :=
  run script.program (World.closed s) events

/-- **Credentials**: where no call inserts a credential after a disconnect that has overtaken it, and
none marks a credential that has been renewed, a disconnect stands until a completion begun later has
saved a credential, and a credential is there to use until it expires. -/
theorem credentials_kept (s : Store) (hs : Sound s) (events : List CredentialEvent)
    (hg : Runs.Guarded (step script.program) (World.Meets (atStatement Undisturbed)) (World.closed s)
      events) :
    (calls s events).store.StaysDisconnected ∧ (calls s events).store.MarksExpired ∧
      (calls s events).store.ReturnsCurrent := by
  have hsound : Sound (calls s events).store :=
    (run_rules (rules_of_laws credential_laws) events (World.holds_closed hs) hg).store
  exact ⟨hsound.staysDisconnected, hsound.marked, hsound.returnsCurrent⟩

/-- A credential that expires at 1000. -/
def connected : Store where
  credentials := ⟨[{ id := 1, displayName := "Ada"
                     secrets := { accessToken := "old", refreshToken := some "r" }
                     expiresAt := some 1000 }], by simp⟩

theorem sound_connected : Sound connected where
  single r hr r' hr' _ _ := by
    rw [connected, List.mem_singleton] at hr hr'
    rw [hr, hr']
  revoked r hr hstatus := by
    rw [connected, List.mem_singleton] at hr
    rw [hr] at hstatus
    cases hstatus
  renewed h := absurd rfl h
  marked r hr _ hstatus := by
    rw [connected, List.mem_singleton] at hr
    rw [hr] at hstatus
    cases hstatus

def acts (session : ℕ) (inputs : List Input) : List CredentialEvent :=
  inputs.map fun i => .act session (.statement i)

/-- A token for an account, that expires at 9000. -/
def sampleGrant (accessToken : String) : Grant :=
  { accessToken, expiresAt := some 9000, displayName := "Ada" }

/-- A disconnect, and a completion begun after it; the new credential is found expired. -/
def renewal : List CredentialEvent :=
  .enter .disconnect :: acts 0 [{ now := 500 }, { now := 500 }, { now := 500 }] ++
    .enter .complete ::
      acts 1 [{}, { now := 2000, grant := sampleGrant "new" }, {}, { now := 2000, id := 2 }, {}] ++
    .enter (.getForUse false) :: acts 2 [{ now := 9500 }, {}, {}]

theorem credentials_kept_renewal :
    ((calls connected renewal).store.credentials.rows.map fun r =>
        (r.id, r.isLive, r.status, r.markedFor)) =
      [(1, false, .revoked, none), (2, true, .expired, some 9500)] ∧
    (calls connected renewal).store.StaysDisconnected ∧
      (calls connected renewal).store.MarksExpired ∧
      (calls connected renewal).store.ReturnsCurrent :=
  ⟨by decide, credentials_kept connected sound_connected renewal (by decide)⟩

/-- A disconnect between the read of a refresh and its save. -/
def overtakenRefresh : List CredentialEvent :=
  [.enter (.accessToken true), .act 0 (.statement { now := 2000 }), .enter .disconnect] ++
    acts 1 [{ now := 2000 }, { now := 2000 }, { now := 2000 }] ++
    acts 0 [{ now := 3000, grant := sampleGrant "new" }, {}, { now := 3000, id := 2 }, {},
      { now := 3000 }, { now := 3000 }, {}]

/-- A completion between the read of `getForUse` and its mark. -/
def overtakenMark : List CredentialEvent :=
  [.enter (.getForUse false), .act 0 (.statement { now := 2000 }), .enter .complete] ++
    acts 1 [{}, { now := 2000, grant := sampleGrant "new" }, {}, { now := 2000 }, {}] ++
    acts 0 [{}, {}]

/-- The refresh brings back what has been disconnected; the mark hides the new credential. -/
theorem credentials_overtaken :
    Sound connected ∧
    ((calls connected overtakenRefresh).store.disconnects,
      (calls connected overtakenRefresh).store.renewed,
      (calls connected overtakenRefresh).store.forUse.map fun r => (r.id, r.secrets.accessToken)) =
      (1, false, some (2, "new")) ∧
    ¬ (calls connected overtakenRefresh).store.StaysDisconnected ∧
    ((calls connected overtakenMark).store.credentials.rows.map fun r =>
      (r.id, r.isLive, r.status, r.expiresAt, r.markedFor)) =
      [(1, true, .expired, some 9000, some 2000)] ∧
    ¬ (calls connected overtakenMark).store.MarksExpired := by
  refine ⟨sound_connected, by decide, fun h => ?_, by decide, fun h => ?_⟩
  · have hnone := h (by decide) (by decide)
    have hthere : (calls connected overtakenRefresh).store.forUse.isSome = true := by decide
    rw [hnone] at hthere
    cases hthere
  · have hmarked : ((calls connected overtakenMark).store.credentials.rows.any fun r =>
        r.isLive && r.status = .expired && !r.markedFor.any fun t => r.isExpired t) = true := by
      decide
    obtain ⟨r, hr, hmarked⟩ := List.any_eq_true.mp hmarked
    simp only [Bool.and_eq_true, decide_eq_true_eq, Bool.not_eq_true'] at hmarked
    obtain ⟨⟨hl, hstatus⟩, hnot⟩ := hmarked
    obtain ⟨t, ht, hexpired⟩ := h r hr hl hstatus
    rw [ht, Option.any_some, hexpired] at hnot
    cases hnot

end CalmBoard.Credentials
