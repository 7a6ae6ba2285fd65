import Mathlib.Data.List.Infix
import CalmBoard.Automations.Once

/-!
# CalmBoard.Automations.FailedRuns — what is left of a rule that fails

* `transaction`, `executeRule`: one call, with the texts of the runs.
* `recorded_iff`: the statement in the `catch` finds the row of the run only if it was committed as
  running before the transaction; no run of the worker leaves such a row.
-/

namespace CalmBoard.Automations

open Queue Sessions

/-! ### One call of `executeRule` -/

/-- The columns `message` and `duration_ms` of a row of `automation_runs`. -/
structure RunNote where
  message : String
  durationMs : ℤ

/-- The tables; `notes` has the two columns under the key of the row. -/
structure Tables where
  store : Store
  notes : Uuid × Uuid → Option RunNote

def Tables.note (c : Candidate) (ruleId : Uuid) (note : RunNote) (t : Tables) : Tables :=
  { t with notes := Function.update t.notes (c.id, ruleId) (some note) }

/-- The upsert of the gate, where it returns a row. -/
def writeGate (c : Candidate) (ruleId : Uuid) (t : Tables) : Tables :=
  Tables.note c ruleId
    { message := "Executing automation rule"
      durationMs := ((t.notes (c.id, ruleId)).map RunNote.durationMs).getD 0 }
    { t with store := commitRun c ruleId .running t.store }

def skipRun (c : Candidate) (ruleId : Uuid) (message : String) (elapsed : ℤ) (t : Tables) : Tables :=
  Tables.note c ruleId { message, durationMs := elapsed }
    { t with store := commitRun c ruleId .skipped t.store }

def Effects.message (effects : Effects) : String :=
  if effects.noop then "No-op: task state already matches action"
  else s!"Executed actions (taskChanged: {effects.task.isSome}, comment: {effects.comment.isSome}, notification: {!effects.notifications.isEmpty})"

def lostClaimError : String := "Automation event claim has expired or was superseded"

/-- What a refused event leaves of its transaction. -/
def duplicateEventError : String := "duplicate key value violates unique constraint"

/-- The transaction; `refused` is the error of a statement after the gate that the database refuses.
An error rolls everything back. -/
def transaction (texts : Texts) (io : Io) (refused : Option String) (c : Candidate) (ruleId : Uuid)
    (elapsed : ℤ) (t : Tables) : Except String (Tables × RunStatus) :=
  if claimCheck c t.store then
    if gateOpen c ruleId t.store then
      let t := writeGate c ruleId t
      match refused, loadRule c ruleId t.store with
      | some message, _ => .error message
      | none, none =>
        .ok (skipRun c ruleId "Rule is disabled or no longer matches the event" elapsed t, .skipped)
      | none, some (rule, task) =>
        if matchesConditions texts rule.conditions c.current then do
          let effects ← perform texts io c rule task t.store.comments t.store.notifications
          match commitRule c ruleId effects t.store with
          | none => .error duplicateEventError
          | some store =>
            .ok (Tables.note c ruleId { message := effects.message, durationMs := elapsed }
              { t with store }, if effects.noop then .skipped else .success)
        else .ok (skipRun c ruleId "Conditions did not match" elapsed t, .skipped)
    else .ok (t, ((t.store.runs.find? (c.id, ruleId)).map RunRow.status).getD .skipped)
  else .error lostClaimError

/-- `message.includes("claim has expired or was superseded")` -/
def isLostClaim (message : String) : Bool :=
  "claim has expired or was superseded".toList <:+: message.toList

/-- The first `n` UTF-16 units; half of a pair is stored as U+FFFD. -/
def takeUnits (n : ℕ) : List Char → List Char
  | [] => []
  | ch :: rest =>
    if n = 0 then []
    else if ch.toNat < 0x10000 then ch :: takeUnits (n - 1) rest
    else if n = 1 then [Char.ofNat 0xFFFD]
    else ch :: takeUnits (n - 2) rest

/-- `message.slice(0, 2000)` -/
def storedMessage (message : String) : String := String.ofList (takeUnits 2000 message.toList)

/-- The row that the statement in the `catch` looks for. -/
def runningHere (c : Candidate) (ruleId : Uuid) (s : Store) : Bool :=
  (s.runs.find? (c.id, ruleId)).any fun r => r.claimToken = c.claimToken && r.status = .running

/-- The statement in the `catch`. -/
def recordFailure (c : Candidate) (ruleId : Uuid) (message : String) (elapsed : ℤ) (t : Tables) :
    Tables :=
  let t' := { t with store := failRun c ruleId t.store }
  if runningHere c ruleId t.store then
    Tables.note c ruleId { message := storedMessage message, durationMs := elapsed } t'
  else t'

/-- One call; `reaches` says whether the statement in the `catch` gets through, whose own error is
swallowed. -/
def executeRule (texts : Texts) (io : Io) (refused : Option String) (reaches : Bool) (c : Candidate)
    (ruleId : Uuid) (elapsed : ℤ) (t : Tables) : Tables × Except String RunStatus :=
  match transaction texts io refused c ruleId elapsed t with
  | .ok (t', status) => (t', .ok status)
  | .error message =>
    (if !isLostClaim message && reaches then recordFailure c ruleId message elapsed t else t,
      .error message)

/-! ### What is recorded -/

/-- The run is there as failed, with the message. -/
def Recorded (c : Candidate) (ruleId : Uuid) (message : String) (t : Tables) : Prop :=
  ∃ r note, t.store.runs.find? (c.id, ruleId) = some r ∧ r.status = .failed ∧
    t.notes (c.id, ruleId) = some note ∧ note.message = storedMessage message

/-- Nothing but the run of this event and rule is different. -/
structure Untouched (c : Candidate) (ruleId : Uuid) (t t' : Tables) : Prop where
  store : { t'.store with runs := t.store.runs } = t.store
  runs : ∀ key, key ≠ (c.id, ruleId) → t'.store.runs.find? key = t.store.runs.find? key
  notes : ∀ key, key ≠ (c.id, ruleId) → t'.notes key = t.notes key

variable {texts : Texts} {io : Io} {refused : Option String} {reaches : Bool} {c : Candidate}
  {ruleId : Uuid} {elapsed : ℤ} {t t' : Tables} {message : String}

/-- The row after the statement in the `catch`. -/
theorem find?_failRun (s : Store) (key : Uuid × Uuid) :
    (failRun c ruleId s).runs.find? key = (s.runs.find? key).map fun r =>
      if r.key = (c.id, ruleId) && r.claimToken = c.claimToken && r.status = .running then r.fail
      else r := by
  unfold failRun
  rw [Table.find?_update]

theorem untouched_recordFailure : Untouched c ruleId t (recordFailure c ruleId message elapsed t) := by
  have hruns : ∀ key, key ≠ (c.id, ruleId) →
      (failRun c ruleId t.store).runs.find? key = t.store.runs.find? key := by
    intro key hkey
    rw [find?_failRun]
    cases hr : t.store.runs.find? key with
    | none => rfl
    | some r =>
      have hne : r.key ≠ (c.id, ruleId) := by
        rw [Table.key_of_find? hr]
        exact hkey
      simp [hne]
  unfold recordFailure
  by_cases hrunning : runningHere c ruleId t.store = true
  · rw [if_pos hrunning]
    exact ⟨rfl, hruns, fun key hkey => Function.update_of_ne hkey ..⟩
  · rw [if_neg hrunning]
    exact ⟨rfl, hruns, fun key _ => rfl⟩

theorem runningHere_iff {s : Store} : runningHere c ruleId s = true ↔
    ∃ r, s.runs.find? (c.id, ruleId) = some r ∧ r.status = .running ∧
      r.claimToken = c.claimToken := by
  unfold runningHere
  cases s.runs.find? (c.id, ruleId) with
  | none => simp
  | some r => simp [and_comm]

theorem recorded_of_running (hrunning : runningHere c ruleId t.store = true) :
    Recorded c ruleId message (recordFailure c ruleId message elapsed t) := by
  obtain ⟨r, hr, hstatus, htoken⟩ := runningHere_iff.mp hrunning
  have hkey : r.key = (c.id, ruleId) := Table.key_of_find? hr
  have hfind : (failRun c ruleId t.store).runs.find? (c.id, ruleId) = some r.fail := by
    rw [find?_failRun, hr]
    simp [hkey, hstatus, htoken]
  unfold recordFailure
  rw [if_pos hrunning]
  exact ⟨r.fail, _, hfind, rfl, Function.update_self .., rfl⟩

theorem recordFailure_of_not_running (hrunning : ¬ runningHere c ruleId t.store = true) :
    (recordFailure c ruleId message elapsed t).store.runs.find? (c.id, ruleId) =
        t.store.runs.find? (c.id, ruleId) ∧
      (recordFailure c ruleId message elapsed t).notes = t.notes := by
  unfold recordFailure
  rw [if_neg hrunning]
  refine ⟨?_, rfl⟩
  show (failRun c ruleId t.store).runs.find? (c.id, ruleId) = _
  rw [find?_failRun]
  cases hr : t.store.runs.find? (c.id, ruleId) with
  | none => rfl
  | some r =>
    rw [runningHere_iff] at hrunning
    have hnot : ¬((r.key = (c.id, ruleId) && r.claimToken = c.claimToken && r.status = .running) =
        true) := by
      intro h
      simp only [Bool.and_eq_true, decide_eq_true_eq] at h
      exact hrunning ⟨r, hr, h.2, h.1.2⟩
    rw [Option.map_some, if_neg hnot]

theorem recorded_recordFailure : Recorded c ruleId message (recordFailure c ruleId message elapsed t) ↔
    runningHere c ruleId t.store = true ∨ Recorded c ruleId message t := by
  by_cases hrunning : runningHere c ruleId t.store = true
  · exact ⟨fun _ => .inl hrunning, fun _ => recorded_of_running hrunning⟩
  · have hsame : (recordFailure c ruleId message elapsed t).store.runs.find? (c.id, ruleId) =
          t.store.runs.find? (c.id, ruleId) ∧
        (recordFailure c ruleId message elapsed t).notes = t.notes :=
      recordFailure_of_not_running hrunning
    obtain ⟨hruns, hnotes⟩ := hsame
    unfold Recorded
    rw [hruns, hnotes]
    exact ⟨.inr, fun h => h.resolve_left hrunning⟩

theorem executeRule_thrown
    (h : (executeRule texts io refused reaches c ruleId elapsed t).2 = .error message) :
    (executeRule texts io refused reaches c ruleId elapsed t).1 =
      if !isLostClaim message && reaches then recordFailure c ruleId message elapsed t else t := by
  unfold executeRule at h ⊢
  cases htransaction : transaction texts io refused c ruleId elapsed t with
  | ok r =>
    rw [htransaction] at h
    cases h
  | error e =>
    rw [htransaction] at h
    cases h
    rfl

theorem ended_of_run (texts : Texts) {s : Store} (hs : Consistent s)
    (events : List (Event Call Action)) :
    ∀ r ∈ (run (program texts) (World.closed s) events).store.runs.rows, r.final := by
  have hholds : World.Holds (program texts) (fun s => Consistent s ∧ True) Knows
      (run (program texts) (World.closed s) events) :=
    run_always (rules_of fun _ _ _ _ _ => trivial) events (World.holds_closed ⟨hs, trivial⟩)
  exact hholds.store.1.final

/-- **A failed run is recorded** exactly when the statement in the `catch` gets through and the row
was committed as running under this claim before the transaction, or a failure with this message was
there before; nothing else is ever different.  In no state that workers and users reach is it
recorded. -/
theorem recorded_iff {texts : Texts} {io : Io} {refused : Option String} {reaches : Bool}
    {c : Candidate} {ruleId : Uuid} {elapsed : ℤ} {t : Tables} {message : String}
    (hthrown : (executeRule texts io refused reaches c ruleId elapsed t).2 = .error message)
    (hlost : isLostClaim message = false) :
    let t' := (executeRule texts io refused reaches c ruleId elapsed t).1
    (Recorded c ruleId message t' ↔
      (reaches = true ∧ ∃ r, t.store.runs.find? (c.id, ruleId) = some r ∧ r.status = .running ∧
        r.claimToken = c.claimToken) ∨ Recorded c ruleId message t) ∧
    Untouched c ruleId t t' ∧
    ∀ s, Consistent s → ∀ events,
      t.store = (run (program texts) (World.closed s) events).store →
        ¬ Recorded c ruleId message t' := by
  intro t'
  have ht' : t' = if reaches then recordFailure c ruleId message elapsed t else t := by
    show (executeRule texts io refused reaches c ruleId elapsed t).1 = _
    rw [executeRule_thrown hthrown, hlost, Bool.not_false, Bool.true_and]
  have hiff : Recorded c ruleId message t' ↔
      (reaches = true ∧ runningHere c ruleId t.store = true) ∨ Recorded c ruleId message t := by
    rw [ht']
    cases reaches with
    | false => simp
    | true => simpa using recorded_recordFailure
  refine ⟨?_, ?_, fun s hs events hreached => ?_⟩
  · rw [hiff, runningHere_iff]
  · rw [ht']
    cases reaches with
    | false => exact ⟨rfl, fun _ _ => rfl, fun _ _ => rfl⟩
    | true => exact untouched_recordFailure
  · have hended : ∀ r, t.store.runs.find? (c.id, ruleId) = some r → r.final := by
      intro r hr
      have hmem := Table.mem_of_find? hr
      rw [hreached] at hmem
      exact ended_of_run texts hs events r hmem
    rw [hiff]
    rintro (⟨-, hrunning⟩ | ⟨r, note, hr, hstatus, -⟩)
    · obtain ⟨r, hr, hstatus, -⟩ := runningHere_iff.mp hrunning
      rcases hended r hr with h | h
      · cases hstatus.symm.trans h
      · cases hstatus.symm.trans h
    · rcases hended r hr with h | h
      · cases hstatus.symm.trans h
      · cases hstatus.symm.trans h

/-! A rule whose action is no status fails for an event that a worker has claimed. -/

def failingRule : RuleRow := { sampleRule with actions := [("setStatus", .string "closed")] }

def failingEvents : List (Event Call Action) :=
  [.enter (.change (.saveRule failingRule)), .act 0 (.next {}), .act 0 (.next {}),
    .enter (.change (.saveTask sampleContext sampleTask [.taskStatusChanged] (fun _ => 100) 0)),
    .act 1 (.next {}), .act 1 (.next {}),
    .enter (.process {}), .act 2 (.claim 0 [] fun _ => 200), .act 2 (.next {})]

def failingTables : Tables :=
  { store := (run (program sampleTexts) (World.closed Store.empty) failingEvents).store
    notes := fun _ => none }

def failingCandidate : Candidate :=
  { id := 100, organizationId := 10, workspaceId := 20, taskId := 7, trigger := .taskStatusChanged
    actorId := some 3, current := sampleTask.state, depth := 0, attempt := 1, maxAttempts := 8
    claimToken := 200 }

theorem failing_thrown : (executeRule sampleTexts {} none true failingCandidate 5 12 failingTables).2 =
    .error "Automation status action is invalid" := by
  decide +kernel

theorem recorded_iff_failing : ¬ Recorded failingCandidate 5 "Automation status action is invalid"
    (executeRule sampleTexts {} none true failingCandidate 5 12 failingTables).1 :=
  (recorded_iff failing_thrown (by decide +kernel)).2.2 Store.empty consistent_empty failingEvents rfl

/-- The failure of a rule leaves no row. -/
theorem failed_run_lost :
    ¬ ∀ (texts : Texts) (io : Io) (refused : Option String) (c : Candidate) (ruleId : Uuid)
      (elapsed : ℤ) (t : Tables) (message : String),
      (executeRule texts io refused true c ruleId elapsed t).2 = .error message →
        isLostClaim message = false →
          Recorded c ruleId message (executeRule texts io refused true c ruleId elapsed t).1 := by
  intro h
  obtain ⟨r, -, hr, -⟩ := h sampleTexts {} none failingCandidate 5 12 failingTables _ failing_thrown
    (by decide +kernel)
  have hnone : ((executeRule sampleTexts {} none true failingCandidate 5 12
      failingTables).1.store.runs.find? (failingCandidate.id, 5)).isNone = true := by decide +kernel
  rw [hr] at hnone
  cases hnone

end CalmBoard.Automations
