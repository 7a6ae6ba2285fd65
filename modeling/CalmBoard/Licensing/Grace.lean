import CalmBoard.Licensing.Runs

/-!
# CalmBoard.Licensing.Grace — how long a license is honoured offline

* `TimedCall`: a call that reads one time from the clock.
* `Outcome.Bounded`: what one call keeps of the anchor of the grace period.
* `grace_bounded`: over a run, a grace period is anchored at an ok answer, and a valid status at a
  token that has not expired.
-/

namespace CalmBoard.Licensing

open Fallible History

/-- A call whose readings of the clock all show one time. -/
structure TimedCall where
  server : Request → ServerResponse
  fingerprint : String
  time : ℚ
  op : Op

def TimedCall.call (c : TimedCall) : Call :=
  { io := { server := c.server, clock := fun _ => c.time, fingerprint := c.fingerprint }, op := c.op }

def playTimed (cfg : Config) (crypto : Crypto) (stored : Option StoredLicense) (c : TimedCall) :
    Entry × Option StoredLicense := play cfg crypto stored c.call

def Entry.time (e : Entry) : ℚ := e.call.io.clock .local

variable {cfg : Config} {crypto : Crypto} {io : Io} {stored : Option StoredLicense}
  {state : StoredLicense} {now : ℚ} {check : LicenseCheck} {sent : List Request}
  {response : ServerResponse}

/-- Neither the token nor the time of its last validation has changed. -/
structure Kept (stored : Option StoredLicense) (state : StoredLicense) : Prop where
  token : state.token = stored.bind StoredLicense.token
  validated : state.lastValidatedAt = stored.bind StoredLicense.lastValidatedAt

theorem kept_ensureFingerprint : Kept stored (ensureFingerprint cfg io stored) := by
  cases stored with
  | none => exact ⟨rfl, rfl⟩
  | some _ => exact ⟨rfl, rfl⟩

/-- What a call keeps: the anchor of the token in the store, what a grace period rests on, and the
time of a valid status. -/
structure Outcome.Bounded (cfg : Config) (crypto : Crypto) (io : Io) (stored : Option StoredLicense)
    (o : Outcome) : Prop where
  anchored : ∀ state, o.stored = some state →
    Kept stored state ∨
      (answeredOk io o.sent = true ∧ state.lastValidatedAt = some (io.clock .validated))
  graced : ∀ check, o.result = .ok check → check.grace = true →
    ∃ state, Kept stored state ∧ (truthy state.token).isSome = true ∧
      withinGracePeriod cfg state (io.clock .grace) = true
  unexpired : ∀ check, o.result = .ok check → check.status = .valid →
    ∃ r, Unexpired crypto (io.clock r) check

theorem bounded_refused (hk : Kept stored state) (h : Refused check) :
    (done state sent check).Bounded cfg crypto io stored := by
  refine ⟨fun st hst => ?_, fun c hc hgrace => ?_, fun c hc hstatus => ?_⟩
  · cases hst
    exact Or.inl hk
  · cases hc
    rw [h.grace] at hgrace
    cases hgrace
  · cases hc
    exact absurd hstatus h.status

theorem bounded_local {r : Reading}
    (hk : Kept stored state ∨
      (answeredOk io sent = true ∧ state.lastValidatedAt = some (io.clock .validated)))
    {state' : StoredLicense} (h : verifyLocally cfg crypto state' (io.clock r) = .ok check) :
    (done state sent check).Bounded cfg crypto io stored := by
  refine ⟨fun st hst => ?_, fun c hc hgrace => ?_, fun c hc hstatus => ?_⟩
  · cases hst
    exact hk
  · cases hc
    rcases verifyLocally_cases h with ⟨hr, -⟩ | ⟨-, hv⟩
    · rw [hr.grace] at hgrace
      cases hgrace
    · rw [hv.grace] at hgrace
      cases hgrace
  · cases hc
    rcases verifyLocally_cases h with ⟨hr, -⟩ | ⟨-, hv⟩
    · exact absurd hstatus hr.status
    · exact ⟨r, hv.unexpired⟩

theorem bounded_thrown {e : Thrown}
    (hk : Kept stored state ∨
      (answeredOk io sent = true ∧ state.lastValidatedAt = some (io.clock .validated))) :
    Outcome.Bounded cfg crypto io stored ⟨some state, sent, .error e⟩ := by
  refine ⟨fun st hst => ?_, fun c hc => (by cases hc), fun c hc => (by cases hc)⟩
  cases hst
  exact hk

theorem bounded_checked {r : Reading}
    (hk : Kept stored state ∨
      (answeredOk io sent = true ∧ state.lastValidatedAt = some (io.clock .validated))) :
    (checked cfg crypto state sent (io.clock r)).Bounded cfg crypto io stored := by
  cases hlocal : verifyLocally cfg crypto state (io.clock r) with
  | error e =>
    unfold checked
    rw [hlocal]
    exact bounded_thrown hk
  | ok check =>
    have hdone : checked cfg crypto state sent (io.clock r) = done state sent check := by
      unfold checked done
      rw [hlocal]
    rw [hdone]
    exact bounded_local hk hlocal

theorem bounded_offlineFallback (hk : Kept stored state) :
    (done state sent (offlineFallback cfg state (io.clock .grace))).Bounded cfg crypto io stored := by
  unfold offlineFallback
  split
  · next token htoken =>
    split
    · next hgrace =>
      refine ⟨fun st hst => ?_, fun c hc _ => ⟨state, hk, ?_, hgrace⟩, fun c hc hstatus => ?_⟩
      · cases hst
        exact Or.inl hk
      · rw [htoken]
        rfl
      · cases hc
        cases hstatus
    · exact bounded_refused hk (refused_failedCheck (by decide))
  · exact bounded_refused hk (refused_failedCheck (by decide))

theorem refused_revokedCheck : Refused revokedCheck := refused_failedCheck (by decide)

theorem refused_noLicenseKey : Refused noLicenseKey := refused_failedCheck (by decide)

theorem Kept.withStatus {status : LicenseStatus} (h : Kept stored state) :
    Kept stored { state with status := status } := ⟨h.token, h.validated⟩

theorem Kept.withKey {key : Option String} (h : Kept stored state) :
    Kept stored { state with licenseKey := key } := ⟨h.token, h.validated⟩

theorem bounded_mapFailure (hk : Kept stored state) :
    (mapFailure state sent response).Bounded cfg crypto io stored := by
  unfold mapFailure
  split
  · exact bounded_refused hk.withStatus refused_revokedCheck
  split
  · exact bounded_refused hk (refused_failedCheck (by decide))
  · exact bounded_refused hk (refused_failedCheck (by decide))

theorem fetchKeys_kept {state' : StoredLicense} (h : fetchKeys io state = .ok (some state')) :
    state'.token = state.token ∧ state'.lastValidatedAt = state.lastValidatedAt := by
  unfold fetchKeys at h
  dsimp only at h
  split at h
  · obtain ⟨entries, -, h⟩ := bind_ok.mp h
    obtain ⟨keys, -, h⟩ := bind_ok.mp h
    split at h
    · cases h
    · cases h
      exact ⟨rfl, rfl⟩
  · cases h

theorem bounded_applyIssued (hk : Kept stored state) (hok : answeredOk io sent = true) :
    (applyIssued cfg crypto io state sent response).Bounded cfg crypto io stored := by
  unfold applyIssued
  split
  · exact bounded_refused hk (refused_failedCheck (by decide))
  · dsimp only
    split
    · exact bounded_thrown (Or.inr ⟨answeredOk_append hok, rfl⟩)
    · exact bounded_checked (Or.inr ⟨answeredOk_append hok, rfl⟩)
    · next hkeys =>
      exact bounded_checked (Or.inr ⟨answeredOk_append hok, (fetchKeys_kept hkeys).2⟩)

theorem bounded_activated (hk : Kept stored state) (hsent : Request.activate ∈ sent) :
    (activated cfg crypto io state sent).Bounded cfg crypto io stored := by
  unfold activated
  dsimp only
  split
  · exact bounded_refused hk (refused_failedCheck (by decide))
  · next hreached =>
    split
    · next hok => exact bounded_applyIssued hk (answeredOk_of hsent (Or.inr rfl) hok hreached)
    · exact bounded_mapFailure hk

theorem bounded_activateAfter (hk : Kept stored state) :
    (activateAfter cfg crypto io state sent).Bounded cfg crypto io stored := by
  unfold activateAfter
  split
  · exact bounded_activated hk (List.mem_append_right _ (List.mem_singleton_self _))
  · exact bounded_refused hk refused_noLicenseKey

theorem bounded_onlinePath {requested : LicenseStatus} (hk : Kept stored state) :
    (onlinePath cfg crypto io state requested).Bounded cfg crypto io stored := by
  unfold onlinePath
  split
  · dsimp only
    have hk' : Kept stored { state with licenseKey := state.key cfg } := hk.withKey
    split
    · exact bounded_offlineFallback hk'
    · next hreached =>
      split
      · next hok =>
        exact bounded_applyIssued hk'
          (answeredOk_of (List.mem_singleton_self _) (Or.inl rfl) hok hreached)
      split
      · exact bounded_activateAfter hk'
      · exact bounded_mapFailure hk'
  split
  · exact bounded_refused hk refused_noLicenseKey
  · exact bounded_refused hk (refused_failedCheck (by decide))

theorem bounded_revalidate {r : Reading} (hk : Kept stored state)
    (h : verifyLocally cfg crypto state (io.clock r) = .ok check) :
    (revalidate cfg crypto io state check).Bounded cfg crypto io stored := by
  unfold revalidate
  split
  · dsimp only
    split
    · exact bounded_local (Or.inl hk) h
    · next hreached =>
      split
      · next hok =>
        exact bounded_checked
          (Or.inr ⟨answeredOk_of (List.mem_singleton_self _) (Or.inl rfl) hok hreached, rfl⟩)
      split
      · exact bounded_refused hk.withStatus refused_revokedCheck
      · exact bounded_local (Or.inl hk) h
  · exact bounded_local (Or.inl hk) h

theorem bounded_boot (henabled : cfg.enabled = true) :
    (boot cfg crypto io stored).Bounded cfg crypto io stored := by
  have hk : Kept stored (ensureFingerprint cfg io stored) := kept_ensureFingerprint
  unfold boot
  rw [if_pos henabled]
  dsimp only
  split
  · exact bounded_thrown (Or.inl hk)
  · next check hlocal =>
    split
    · split
      · exact bounded_revalidate hk hlocal
      · exact bounded_local (Or.inl hk) hlocal
    split
    · exact bounded_local (Or.inl hk) hlocal
    · exact bounded_onlinePath hk

theorem bounded_validate : (validate cfg crypto io stored).Bounded cfg crypto io stored := by
  have hk : Kept stored (ensureFingerprint cfg io stored) := kept_ensureFingerprint
  unfold validate
  dsimp only
  split
  · exact bounded_onlinePath hk
  · exact bounded_refused hk refused_noLicenseKey

theorem bounded_heartbeat : (heartbeat cfg crypto io stored).Bounded cfg crypto io stored := by
  have hk : Kept stored (ensureFingerprint cfg io stored) := kept_ensureFingerprint
  unfold heartbeat
  dsimp only
  split
  · split
    · exact bounded_offlineFallback hk
    split
    · have hk' : Kept stored { ensureFingerprint cfg io stored with
          lastHeartbeatAt := some (io.clock .heartbeat) } := ⟨hk.token, hk.validated⟩
      split
      · exact bounded_thrown (Or.inl hk')
      · next check hlocal =>
        split
        · exact bounded_offlineFallback hk'
        · exact bounded_local (Or.inl hk') hlocal
    split
    · exact bounded_refused hk.withStatus refused_revokedCheck
    · exact bounded_checked (Or.inl hk)
  · exact bounded_refused hk refused_noLicenseKey

/-- **One call** of the service. -/
theorem bounded_runCheck (henabled : cfg.enabled = true) (call : Check) :
    (runCheck cfg crypto io stored call).Bounded cfg crypto io stored := by
  have hk : Kept stored (ensureFingerprint cfg io stored) := kept_ensureFingerprint
  cases call with
  | boot => exact bounded_boot henabled
  | validate => exact bounded_validate
  | heartbeat => exact bounded_heartbeat
  | activate => exact bounded_activateAfter hk
  | activateKey key => exact bounded_activated hk.withKey (List.mem_singleton_self _)

/-! ### Runs -/

theorem kept_self : Kept (some state) state := ⟨rfl, rfl⟩

theorem deactivate_kept (h : (deactivate cfg stored).1 = some state) :
    Kept stored state ∨ truthy state.token = none := by
  unfold deactivate at h
  cases stored with
  | none => cases h
  | some before =>
    dsimp only at h
    split at h
    · cases h
      exact Or.inr rfl
    · cases h
      exact Or.inl kept_self

theorem refreshKeys_kept : Kept stored (refreshKeys cfg io stored) := by
  have hk : Kept stored (ensureFingerprint cfg io stored) := kept_ensureFingerprint
  unfold refreshKeys
  dsimp only
  split
  · next hkeys =>
    have hsame := fetchKeys_kept hkeys
    exact ⟨hsame.1.trans hk.token, hsame.2.trans hk.validated⟩
  · exact hk

/-- The token in the store was last validated when a call was answered ok. -/
def Anchored (past : List Entry) (stored : Option StoredLicense) : Prop :=
  ∀ state, stored = some state → (truthy state.token).isSome = true →
    ∃ s ∈ past, s.answeredOk = true ∧ state.lastValidatedAt = some s.time

theorem Anchored.of_kept {past more : List Entry} (h : Anchored past stored) (hk : Kept stored state)
    (htoken : (truthy state.token).isSome = true) :
    ∃ s ∈ past ++ more, s.answeredOk = true ∧ state.lastValidatedAt = some s.time := by
  cases stored with
  | none =>
    rw [hk.token] at htoken
    cases htoken
  | some before =>
    rw [hk.token] at htoken
    obtain ⟨s, hs, hok, htime⟩ := h before rfl htoken
    exact ⟨s, List.mem_append_left _ hs, hok, hk.validated.trans htime⟩

theorem Anchored.playTimed (henabled : cfg.enabled = true) {past : List Entry} (c : TimedCall)
    (h : Anchored past stored) :
    Anchored (past ++ [(Licensing.playTimed cfg crypto stored c).1])
      (Licensing.playTimed cfg crypto stored c).2 := by
  obtain ⟨server, fingerprint, time, op⟩ := c
  intro state hstate htoken
  cases op with
  | check call =>
    rcases (bounded_runCheck henabled call).anchored state hstate with hk | ⟨hok, hvalidated⟩
    · exact h.of_kept hk htoken
    · exact ⟨_, List.mem_append_right _ (List.mem_singleton_self _), hok, hvalidated⟩
  | deactivate =>
    rcases deactivate_kept hstate with hk | hnone
    · exact h.of_kept hk htoken
    · rw [hnone] at htoken
      cases htoken
  | refreshKeys =>
    cases hstate
    exact h.of_kept refreshKeys_kept htoken

theorem grace_of_validated {time : ℚ} (hgrace : withinGracePeriod cfg state now = true)
    (h : state.lastValidatedAt = some time) : now - time ≤ cfg.graceSeconds := by
  unfold withinGracePeriod StoredLicense.anchor at hgrace
  rw [h, Bool.and_eq_true, Option.any_eq_true] at hgrace
  obtain ⟨-, t, ht, hle⟩ := hgrace
  obtain ⟨ht, -⟩ := Option.filter_eq_some_iff.mp ht
  cases ht
  simpa using hle

/-- **Offline grace** is bounded: from an empty store, a call honours a license in a grace period
only within `graceSeconds` of a call that was answered ok, and returns the status `valid` only for a
token that has not expired. -/
theorem grace_bounded (cfg : Config) (crypto : Crypto) (calls : List TimedCall)
    (henabled : cfg.enabled = true) :
    ∀ pre e post, trace (playTimed cfg crypto) none calls = pre ++ e :: post →
      ∀ check, e.returned = some check →
        (check.grace = true →
          ∃ s ∈ pre ++ [e], s.answeredOk = true ∧ e.time - s.time ≤ cfg.graceSeconds) ∧
        (check.status = .valid → Unexpired crypto e.time check) := by
  intro pre e post h check hreturned
  obtain ⟨stored, ⟨server, fingerprint, time, op⟩, -, hanchored, rfl⟩ :=
    trace_rule (playTimed cfg crypto) (I := Anchored)
      (fun past stored c hs => hs.playTimed henabled c) calls none []
      (fun state hstate => by cases hstate) pre e post h
  cases op with
  | deactivate => cases hreturned
  | refreshKeys => cases hreturned
  | check call =>
    let io : Io := { server, clock := fun _ => time, fingerprint }
    have hbounded : (runCheck cfg crypto io stored call).Bounded cfg crypto io stored :=
      bounded_runCheck henabled call
    have hresult : (runCheck cfg crypto io stored call).result = .ok check := by
      cases hr : (runCheck cfg crypto io stored call).result with
      | error e =>
        change (runCheck cfg crypto io stored call).result.toOption = some check at hreturned
        rw [hr] at hreturned
        cases hreturned
      | ok c =>
        change (runCheck cfg crypto io stored call).result.toOption = some check at hreturned
        rw [hr] at hreturned
        cases hreturned
        rfl
    constructor
    · intro hgrace
      obtain ⟨state, hk, htoken, hwithin⟩ := hbounded.graced check hresult hgrace
      rw [List.nil_append] at hanchored
      obtain ⟨s, hs, hok, hvalidated⟩ := hanchored.of_kept hk htoken
      exact ⟨s, hs, hok, grace_of_validated hwithin hvalidated⟩
    · intro hstatus
      obtain ⟨_, hunexpired⟩ := hbounded.unexpired check hresult hstatus
      exact hunexpired

/-! An activation at 1000, and a validation that finds the server unreachable at 2000. -/

def issuingServer (r : Request) : ServerResponse :=
  match r with
  | .keys =>
    { ok := true, status := 200
      data := [("keys", .array [.object [("kid", .string "k1"), ("public_key", .string "pub")]])] }
  | _ => { ok := true, status := 200, data := [("token", .string "h.p.s")] }

def gracedCalls : List TimedCall :=
  [{ server := issuingServer, fingerprint := "fp", time := 1000, op := .check .activate },
    { server := unreachable.server, fingerprint := "fp", time := 2000, op := .check .validate }]

theorem grace_bounded_activated :
    ∃ e₀ e, trace (playTimed forgedConfig sampleCrypto) none gracedCalls = [e₀, e] ∧
      ∃ s ∈ [e₀, e], s.answeredOk = true ∧ 2000 - s.time ≤ forgedConfig.graceSeconds := by
  have hgraced : (playTimed forgedConfig sampleCrypto (playTimed forgedConfig sampleCrypto none
      gracedCalls[0]).2 gracedCalls[1]).1.returned.any LicenseCheck.grace = true := by
    decide +kernel
  obtain ⟨check, hreturned, hgrace⟩ := (Option.any_eq_true _ _).mp hgraced
  exact ⟨_, _, rfl, (grace_bounded forgedConfig sampleCrypto gracedCalls rfl [_] _ [] rfl check
    hreturned).1 hgrace⟩

/-- With licensing disabled, `boot` returns the status `valid` with a token that is none. -/
theorem disabled_not_unexpired :
    ∃ e check, trace (playTimed { forgedConfig with enabled := false } sampleCrypto) none
        [{ server := unreachable.server, fingerprint := "fp", time := 0, op := .check .boot }] = [e] ∧
      e.returned = some check ∧ check.status = .valid ∧ ¬ Unexpired sampleCrypto e.time check := by
  refine ⟨_, validCheck (.object []) "", rfl, rfl, rfl, ?_⟩
  rintro ⟨tokenValue, token, value, exp, htoken, hparsed, -⟩
  cases htoken
  have hnone : parseToken sampleCrypto "" = none := by rfl
  rw [hnone] at hparsed
  cases hparsed

end CalmBoard.Licensing
