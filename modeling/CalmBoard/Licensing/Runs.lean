import CalmBoard.Licensing.Honoured
import CalmBoard.Lib.History

/-!
# CalmBoard.Licensing.Runs — a revoked license over a run of calls

* `Call`, `Entry`, `play`: the calls of a run, and what each of them leaves.
* `honoursCached`: a call returns a valid check though the server has issued nothing.
* `exposed`: the store, the clock and the answers with which a call may rely on the cached token.
* `revocation_sticks`: a revocation holds until the server issues a license anew in every run without
  exposed calls in between.
-/

namespace CalmBoard.Licensing

open Fallible History

/-- The operations of the service. -/
inductive Op where
  | check (call : Check)
  | deactivate
  | refreshKeys

structure Call where
  io : Io
  op : Op

/-- What a call finds, sends and returns. -/
structure Entry where
  call : Call
  before : Option StoredLicense
  sent : List Request
  returned : Option LicenseCheck

def play (cfg : Config) (crypto : Crypto) (stored : Option StoredLicense) (c : Call) :
    Entry × Option StoredLicense :=
  match c.op with
  | .check call =>
    let o := runCheck cfg crypto c.io stored call
    ({ call := c, before := stored, sent := o.sent, returned := o.result.toOption }, o.stored)
  | .deactivate =>
    let (stored', sent) := deactivate cfg stored
    ({ call := c, before := stored, sent, returned := none }, stored')
  | .refreshKeys =>
    ({ call := c, before := stored, sent := [.keys], returned := none },
      some (refreshKeys cfg c.io stored))

/-- Some request to validate or to activate was answered ok. -/
def answeredOk (io : Io) (sent : List Request) : Bool :=
  sent.any fun r => (r = .validate || r = .activate) && (io.server r).ok &&
    !(io.server r).transportError

def Entry.answeredOk (e : Entry) : Bool := Licensing.answeredOk e.call.io e.sent

def Entry.revoked (e : Entry) : Bool := e.returned.any fun check => check.status = .revoked

def Entry.valid (e : Entry) : Bool := e.returned.any LicenseCheck.valid

/-! ### Calls that go on with the cached token -/

def locallyValid (cfg : Config) (crypto : Crypto) (state : StoredLicense) (now : ℚ) : Bool :=
  (verifyLocally cfg crypto state now).toOption.any LicenseCheck.valid

/-- `boot` returns its local check: no revalidation is due, none is possible, or the server answers
neither ok nor forbidden. -/
def bootKeeps (cfg : Config) (crypto : Crypto) (io : Io) (stored : Option StoredLicense) : Bool :=
  let state := ensureFingerprint cfg io stored
  let response := io.server .validate
  locallyValid cfg crypto state (io.clock .local) &&
    (!revalidationDue cfg state (io.clock .due) || !hasLicenseKey cfg state ||
      response.transportError || (!response.ok && !response.forbidden))

/-- `heartbeat` returns its local check: the server answers, and not that it is forbidden. -/
def heartbeatKeeps (cfg : Config) (crypto : Crypto) (io : Io) (stored : Option StoredLicense) :
    Bool :=
  let state := ensureFingerprint cfg io stored
  let response := io.server .heartbeat
  hasLicenseKey cfg state && !response.transportError &&
    bif response.ok then
      locallyValid cfg crypto { state with lastHeartbeatAt := some (io.clock .heartbeat) }
        (io.clock .local)
    else !response.forbidden && locallyValid cfg crypto state (io.clock .local)

def honoursCached (cfg : Config) (crypto : Crypto) (c : Call) (stored : Option StoredLicense) :
    Bool :=
  match c.op with
  | .check .boot =>
    !cfg.enabled || bootKeeps cfg crypto c.io stored || (graced cfg crypto c.io stored .boot).isSome
  | .check .validate => (graced cfg crypto c.io stored .validate).isSome
  | .check .heartbeat =>
    heartbeatKeeps cfg crypto c.io stored || (graced cfg crypto c.io stored .heartbeat).isSome
  | .check .activate | .check (.activateKey _) | .deactivate | .refreshKeys => false

variable {cfg : Config} {crypto : Crypto} {io : Io} {state : StoredLicense} {now : ℚ}
  {check : LicenseCheck} {sent : List Request} {response : ServerResponse}

/-- A call returns a valid check and was not answered ok. -/
def Outcome.Offline (io : Io) (o : Outcome) : Prop :=
  (o.result.toOption.any LicenseCheck.valid && !answeredOk io o.sent) = true

theorem offline_done :
    (done state sent check).Offline io ↔ (check.valid && !answeredOk io sent) = true := Iff.rfl

theorem offline_checked :
    (checked cfg crypto state sent now).Offline io ↔
      (locallyValid cfg crypto state now && !answeredOk io sent) = true := Iff.rfl

theorem offlineFallback_valid :
    (offlineFallback cfg state now).valid = (gracedState cfg state now).isSome := by
  unfold offlineFallback gracedState
  cases truthy state.token with
  | none => simp [failedCheck]
  | some token =>
    by_cases hgrace : withinGracePeriod cfg state now = true
    · simp [hgrace, graceCheck]
    · simp [hgrace, failedCheck]

theorem not_offline_of_answered {o : Outcome} (h : answeredOk io o.sent = true) :
    ¬ o.Offline io := by
  simp [Outcome.Offline, h]

theorem answeredOk_append {more : List Request} (h : answeredOk io sent = true) :
    answeredOk io (sent ++ more) = true := by
  unfold answeredOk at h ⊢
  rw [List.any_append, h, Bool.true_or]

theorem not_offline_applyIssued (h : answeredOk io sent = true) :
    ¬ (applyIssued cfg crypto io state sent response).Offline io := by
  apply not_offline_of_answered
  unfold applyIssued
  split
  · exact h
  · dsimp only
    split
    · exact answeredOk_append h
    · exact answeredOk_append h
    · exact answeredOk_append h

theorem not_offline_mapFailure : ¬ (mapFailure state sent response).Offline io := by
  unfold mapFailure
  split
  · simp [offline_done, revokedCheck, failedCheck]
  split
  · simp [offline_done, failedCheck]
  · simp [offline_done, failedCheck]

theorem answeredOk_of {r : Request} (hr : r ∈ sent) (hkind : r = .validate ∨ r = .activate)
    (hok : (io.server r).ok = true) (hreached : ¬ (io.server r).transportError = true) :
    answeredOk io sent = true := by
  refine List.any_eq_true.mpr ⟨r, hr, ?_⟩
  rcases hkind with rfl | rfl
  · simp [hok, hreached]
  · simp [hok, hreached]

theorem not_offline_activated (h : Request.activate ∈ sent) :
    ¬ (activated cfg crypto io state sent).Offline io := by
  unfold activated
  dsimp only
  split
  · simp [offline_done, failedCheck]
  · next hreached =>
    split
    · next hok => exact not_offline_applyIssued (answeredOk_of h (Or.inr rfl) hok hreached)
    · exact not_offline_mapFailure

theorem not_offline_activateAfter : ¬ (activateAfter cfg crypto io state sent).Offline io := by
  unfold activateAfter
  split
  · exact not_offline_activated (List.mem_append_right _ (List.mem_singleton_self _))
  · simp [offline_done, noLicenseKey, failedCheck]

theorem isSome_gracedState_licenseKey {key : Option String} :
    (gracedState cfg { state with licenseKey := key } now).isSome =
      (gracedState cfg state now).isSome := by
  have hsame : withinGracePeriod cfg { state with licenseKey := key } now =
      withinGracePeriod cfg state now := rfl
  unfold gracedState
  rw [hsame]
  split <;> rfl

theorem offline_onlinePath {requested : LicenseStatus} :
    (onlinePath cfg crypto io state requested).Offline io ↔
      (hasLicenseKey cfg state && (io.server .validate).transportError &&
        (gracedState cfg state (io.clock .grace)).isSome) = true := by
  unfold onlinePath
  by_cases hkey : hasLicenseKey cfg state = true
  · rw [if_pos hkey]
    dsimp only
    by_cases herror : (io.server .validate).transportError = true
    · rw [if_pos herror, offline_done, offlineFallback_valid, isSome_gracedState_licenseKey, hkey,
        herror]
      simp [answeredOk, herror]
    · rw [if_neg herror]
      simp only [herror, Bool.and_false, Bool.false_and, Bool.false_eq_true, iff_false]
      split
      · next hok =>
        exact not_offline_applyIssued
          (answeredOk_of (List.mem_singleton_self _) (Or.inl rfl) hok herror)
      split
      · exact not_offline_activateAfter
      · exact not_offline_mapFailure
  · rw [if_neg hkey]
    simp only [hkey, Bool.false_and, Bool.false_eq_true, iff_false]
    split
    · simp [offline_done, noLicenseKey, failedCheck]
    · simp [offline_done, failedCheck]

theorem isSome_ite_none {α : Type} {p : Prop} [Decidable p] {x : Option α} :
    (if p then x else none).isSome = (decide p && x.isSome) := by
  by_cases hp : p
  · simp [hp]
  · simp [hp]

theorem offline_revalidate (hvalid : check.valid = true) :
    (revalidate cfg crypto io state check).Offline io ↔
      (!hasLicenseKey cfg state || (io.server .validate).transportError ||
        (!(io.server .validate).ok && !(io.server .validate).forbidden)) = true := by
  unfold revalidate
  by_cases hkey : hasLicenseKey cfg state = true
  · rw [if_pos hkey]
    dsimp only
    by_cases herror : (io.server .validate).transportError = true
    · rw [if_pos herror, offline_done, hvalid]
      simp [answeredOk, herror]
    · rw [if_neg herror]
      by_cases hok : (io.server .validate).ok = true
      · rw [if_pos hok, offline_checked, answeredOk_of (List.mem_singleton_self _) (Or.inl rfl) hok
          herror]
        simp [hkey, herror, hok]
      · rw [if_neg hok]
        by_cases hforbidden : (io.server .validate).forbidden = true
        · rw [if_pos hforbidden, offline_done]
          simp [revokedCheck, failedCheck, hkey, herror, hforbidden]
        · rw [if_neg hforbidden, offline_done, hvalid]
          simp [answeredOk, hok, hforbidden]
  · rw [if_neg hkey, offline_done, hvalid]
    simp [answeredOk, hkey]

theorem offline_boot (stored : Option StoredLicense) :
    (boot cfg crypto io stored).Offline io ↔
      (!cfg.enabled || bootKeeps cfg crypto io stored ||
        (graced cfg crypto io stored .boot).isSome) = true := by
  unfold boot
  cases henabled : cfg.enabled with
  | false => simp [Outcome.Offline, validCheck, answeredOk, Except.toOption]
  | true =>
    rw [if_pos rfl]
    unfold bootKeeps graced locallyValid
    dsimp only
    cases hlocal : verifyLocally cfg crypto (ensureFingerprint cfg io stored) (io.clock .local) with
    | error e => simp [Outcome.Offline, Except.toOption]
    | ok check =>
      dsimp only
      by_cases hvalid : check.valid = true
      · have hstatus := status_of_verified hlocal hvalid
        rw [if_pos hvalid]
        by_cases hdue : revalidationDue cfg (ensureFingerprint cfg io stored) (io.clock .due) = true
        · rw [if_pos hdue, offline_revalidate hvalid]
          simp [hdue, hstatus, hvalid, Except.toOption]
        · rw [if_neg hdue, offline_done, hvalid]
          simp [hdue, hvalid, answeredOk, Except.toOption]
      · rw [if_neg hvalid]
        by_cases hexpired : check.status = .expired
        · rw [if_neg (by simp [hexpired]), offline_onlinePath]
          simp [hexpired, hvalid, Except.toOption, isSome_ite_none]
        · refine iff_of_false ?_ (by simp [hexpired, hvalid, Except.toOption])
          split
          · simp [offline_done, hvalid]
          · next hother =>
            have hnone : check.status = .notActivated := by
              by_contra hne
              exact hother ⟨hexpired, hne⟩
            rw [offline_onlinePath]
            simp [gracedState, no_token_of_notActivated hlocal hnone]

theorem offline_validate (stored : Option StoredLicense) :
    (validate cfg crypto io stored).Offline io ↔
      (graced cfg crypto io stored .validate).isSome = true := by
  unfold validate graced
  dsimp only
  by_cases hkey : hasLicenseKey cfg (ensureFingerprint cfg io stored) = true
  · rw [if_pos hkey, offline_onlinePath, hkey]
    cases (io.server .validate).transportError with
    | true => simp
    | false => simp
  · rw [if_neg hkey, offline_done]
    simp [hkey, noLicenseKey, failedCheck]

theorem offline_heartbeat (stored : Option StoredLicense) :
    (heartbeat cfg crypto io stored).Offline io ↔
      (heartbeatKeeps cfg crypto io stored ||
        (graced cfg crypto io stored .heartbeat).isSome) = true := by
  have hnever : answeredOk io [.heartbeat] = false := rfl
  unfold heartbeat heartbeatKeeps graced
  dsimp only
  by_cases hkey : hasLicenseKey cfg (ensureFingerprint cfg io stored) = true
  · rw [if_pos hkey, if_pos hkey, hkey]
    cases herror : (io.server .heartbeat).transportError with
    | true =>
      rw [if_pos rfl, if_pos rfl, offline_done, offlineFallback_valid, hnever]
      simp
    | false =>
      rw [if_neg Bool.false_ne_true, if_neg Bool.false_ne_true]
      cases hok : (io.server .heartbeat).ok with
      | true =>
        rw [if_pos rfl, if_pos rfl]
        unfold locallyValid
        cases hlocal : verifyLocally cfg crypto { ensureFingerprint cfg io stored with
            lastHeartbeatAt := some (io.clock .heartbeat) } (io.clock .local) with
        | error e => simp [Outcome.Offline, Except.toOption]
        | ok check =>
          dsimp only
          by_cases hexpired : check.status = .expired
          · have hvalid : ¬ check.valid = true := by
              intro hvalid
              have hstatus := status_of_verified hlocal hvalid
              rw [hexpired] at hstatus
              cases hstatus
            rw [if_pos hexpired, if_pos hexpired, offline_done, offlineFallback_valid, hnever]
            simp [hvalid, Except.toOption]
          · rw [if_neg hexpired, if_neg hexpired, offline_done, hnever]
            simp [Except.toOption]
      | false =>
        rw [if_neg Bool.false_ne_true, if_neg Bool.false_ne_true]
        by_cases hforbidden : (io.server .heartbeat).forbidden = true
        · rw [if_pos hforbidden, offline_done]
          simp [revokedCheck, failedCheck, hforbidden]
        · rw [if_neg hforbidden, offline_checked, hnever]
          simp [hforbidden]
  · rw [if_neg hkey, if_neg hkey, offline_done]
    simp [hkey, noLicenseKey, failedCheck]

/-- **One call** returns a valid check without an ok answer exactly when it goes on with the cached
token. -/
theorem valid_unanswered_iff (stored : Option StoredLicense) (c : Call) :
    ((play cfg crypto stored c).1.valid && !(play cfg crypto stored c).1.answeredOk) = true ↔
      honoursCached cfg crypto c stored = true := by
  obtain ⟨io, op⟩ := c
  cases op with
  | deactivate => simp [play, honoursCached, Entry.valid]
  | refreshKeys => simp [play, honoursCached, Entry.valid]
  | check call =>
    cases call with
    | boot => exact offline_boot stored
    | validate => exact offline_validate stored
    | heartbeat => exact offline_heartbeat stored
    | activate =>
      have hnot : ¬ (activate cfg crypto io stored).Offline io := not_offline_activateAfter
      exact ⟨fun h => absurd h hnot, fun h => by cases h⟩
    | activateKey key =>
      have hnot : ¬ (activateKey cfg crypto io key stored).Offline io :=
        not_offline_activated (List.mem_singleton_self _)
      exact ⟨fun h => absurd h hnot, fun h => by cases h⟩

/-! ### Runs -/

theorem play_call (stored : Option StoredLicense) (c : Call) :
    (play cfg crypto stored c).1.call = c := by
  unfold play
  split <;> rfl

theorem play_before (stored : Option StoredLicense) (c : Call) :
    (play cfg crypto stored c).1.before = stored := by
  unfold play
  split <;> rfl

/-- The server answers, and says whether the license stands. -/
def ServerResponse.decides (response : ServerResponse) : Bool :=
  !response.transportError && (response.ok || response.forbidden)

/-- A token is stored, and the grace period has not elapsed. -/
def inGrace (cfg : Config) (state : StoredLicense) (now : ℚ) : Bool :=
  (truthy state.token).isSome && withinGracePeriod cfg state now

/-- Nothing but the cached token stands between a call and a valid check: the token verifies locally and
the server is not asked or does not decide, or the server is away during the grace period. -/
def exposed (cfg : Config) (crypto : Crypto) (c : Call) (stored : Option StoredLicense) : Bool :=
  let state := ensureFingerprint cfg c.io stored
  match c.op with
  | .check .boot =>
    let response := c.io.server .validate
    !cfg.enabled ||
      (locallyValid cfg crypto state (c.io.clock .local) &&
        !(revalidationDue cfg state (c.io.clock .due) && hasLicenseKey cfg state &&
          response.decides)) ||
      (hasLicenseKey cfg state && response.transportError && inGrace cfg state (c.io.clock .grace))
  | .check .validate =>
    hasLicenseKey cfg state && (c.io.server .validate).transportError &&
      inGrace cfg state (c.io.clock .grace)
  | .check .heartbeat =>
    let response := c.io.server .heartbeat
    hasLicenseKey cfg state &&
      bif response.transportError then inGrace cfg state (c.io.clock .grace)
      else bif response.ok then
        let state := { state with lastHeartbeatAt := some (c.io.clock .heartbeat) }
        locallyValid cfg crypto state (c.io.clock .local) || inGrace cfg state (c.io.clock .grace)
      else !response.forbidden && locallyValid cfg crypto state (c.io.clock .local)
  | _ => false

theorem isSome_gracedState : (gracedState cfg state now).isSome = inGrace cfg state now := by
  unfold gracedState inGrace
  rw [isSome_ite_none]
  simp

theorem exposed_of_honoursCached {c : Call} {stored : Option StoredLicense}
    (h : honoursCached cfg crypto c stored = true) : exposed cfg crypto c stored = true := by
  obtain ⟨io, op⟩ := c
  cases op with
  | deactivate | refreshKeys => cases h
  | check call =>
    cases call with
    | boot =>
      simp only [honoursCached, bootKeeps, graced, exposed, ServerResponse.decides, Bool.or_eq_true,
        Bool.and_eq_true] at h ⊢
      rcases h with (hoff | ⟨hlocal, hopen⟩) | hgrace
      · exact Or.inl (Or.inl hoff)
      · refine Or.inl (Or.inr ⟨hlocal, ?_⟩)
        revert hopen
        cases revalidationDue cfg (ensureFingerprint cfg io stored) (io.clock .due) <;>
          cases hasLicenseKey cfg (ensureFingerprint cfg io stored) <;>
          cases (io.server .validate).transportError <;> simp
      · right
        split at hgrace
        · rw [isSome_ite_none, isSome_gracedState] at hgrace
          simp only [Bool.and_eq_true, decide_eq_true_eq] at hgrace
          exact ⟨⟨hgrace.1.1.2, hgrace.1.2⟩, hgrace.2⟩
        · cases hgrace
    | validate =>
      simp only [honoursCached, graced, isSome_ite_none, isSome_gracedState] at h
      simpa [exposed] using h
    | heartbeat =>
      simp only [honoursCached, heartbeatKeeps, graced, exposed] at h ⊢
      cases hkey : hasLicenseKey cfg (ensureFingerprint cfg io stored) with
      | false => simp [hkey] at h
      | true =>
        cases herror : (io.server .heartbeat).transportError with
        | true => simpa [hkey, herror, isSome_gracedState] using h
        | false =>
          cases hok : (io.server .heartbeat).ok with
          | false => simpa [hkey, herror, hok] using h
          | true =>
            simp only [hkey, herror, hok, Bool.not_false, Bool.and_true, Bool.true_and, cond_true,
              cond_false, if_true, Bool.false_eq_true, if_false, Bool.or_eq_true] at h ⊢
            refine h.imp_right fun hgrace => ?_
            split at hgrace
            · rw [isSome_ite_none, isSome_gracedState, Bool.and_eq_true] at hgrace
              exact hgrace.2
            · cases hgrace
    | activate | activateKey => cases h

/-- **Revocation**: after a call that was told that the license is revoked, valid checks wait for an
ok answer to an activation or a validation, if until there is one no call is exposed. -/
theorem revocation_sticks (cfg : Config) (crypto : Crypto) (stored : Option StoredLicense)
    (calls : List Call) (hexposed : ∀ pre e post,
      trace (play cfg crypto) stored calls = pre ++ e :: post →
        pending Entry.revoked Entry.answeredOk pre = true → exposed cfg crypto e.call e.before = false) :
    Blocks Entry.revoked Entry.answeredOk Entry.valid (trace (play cfg crypto) stored calls) := by
  rw [blocks_iff]
  intro pre e post h hpending hvalid
  by_contra hanswered
  have hkept := hexposed pre e post h hpending
  obtain ⟨stored', c, -, -, rfl⟩ := trace_rule (play cfg crypto) (I := fun _ _ => True)
    (fun _ _ _ _ => trivial) calls stored [] trivial pre e post h
  rw [play_call, play_before, exposed_of_honoursCached (valid_unanswered_iff stored' c |>.mp (by
    rw [hvalid, eq_false_of_ne_true hanswered]
    rfl))] at hkept
  cases hkept

/-! A heartbeat is told that the license is revoked; then the server cannot be reached. -/

/-- One key, whose signatures are all accepted; the payload names no issuer and expires at 100000. -/
def sampleCrypto : Crypto :=
  { decodeJson := fun s =>
      if s = "h" then some (.object [("alg", .string "EdDSA"), ("kid", .string "k1")])
      else if s = "p" then
        some (.object [("prd", .string "calmboard"), ("devf", .string "mac"),
          ("exp", .number (.fin 100000))])
      else none
    verify := fun input publicKey signature => input = "h.p" && publicKey = "pub" && signature = "s"
    hmacSha256 := fun value secret => if value = "fp" && secret = "secret" then "mac" else "" }

def activeStore : StoredLicense :=
  { product := "calmboard", status := .valid, licenseKey := some "KEY-1", fingerprint := some "fp"
    token := some "h.p.s", publicKeys := some [("k1", "pub")], activatedAt := some 1000
    lastValidatedAt := some 1000 }

def forbiddenAnswer : Io :=
  { server := fun _ => { ok := false, status := 403, code := some "forbidden" }
    clock := fun _ => 1500
    fingerprint := "fp" }

def revokedCalls : List Call :=
  [{ io := forbiddenAnswer, op := .check .heartbeat }, { io := unreachable, op := .check .boot }]

/-- The same answer to every request, on the day after. -/
def refusedCalls : List Call :=
  [{ io := forbiddenAnswer, op := .check .heartbeat },
    { io := { forbiddenAnswer with clock := fun _ => 90000 }, op := .check .boot }]

theorem revocation_sticks_refused : Blocks Entry.revoked Entry.answeredOk Entry.valid
    (trace (play forgedConfig sampleCrypto) (some activeStore) refusedCalls) := by
  have hall : ∀ e ∈ trace (play forgedConfig sampleCrypto) (some activeStore) refusedCalls,
      exposed forgedConfig sampleCrypto e.call e.before = false := by
    decide +kernel
  exact revocation_sticks _ _ _ _ fun pre e post h _ => hall e (by simp [h])

/-- Inside the revalidation interval `boot` honours the token of a revoked license. -/
theorem revocation_forgotten :
    ¬ Blocks Entry.revoked Entry.answeredOk Entry.valid
      (trace (play forgedConfig sampleCrypto) (some activeStore) revokedCalls) := by
  intro h
  obtain ⟨c, hc, hclear⟩ := h [] _ [] _ [] rfl (by decide +kernel) (by decide +kernel)
  rw [List.mem_singleton.mp hc] at hclear
  revert hclear
  decide +kernel

end CalmBoard.Licensing
