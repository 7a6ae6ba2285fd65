import CalmBoard.Values
import CalmBoard.Lib.Fallible
import CalmBoard.Lib.DateText

/-!
# CalmBoard.Workload.Validation — the capacities and the time off that the API accepts

* `parseWorkloadCapacityInput`, `parseWorkloadTimeOffInput`: the checks, with the text of the error.
* `parseWorkloadCapacityInput_ok`, `parseWorkloadTimeOffInput_ok`: what is known of an accepted input.

An input is a request body; a property that it does not have is `undefined`.
-/

namespace CalmBoard.Workload

open Fallible
open IsoDate (msPerDay matchDate toISOString isoDay IsoYear)

/-! ### The checks -/

def requiredString (value : JsValue) (field : String) : Except String String :=
  match value with
  | .string s => if Text.trim s = "" then .error s!"{field} is required" else .ok (Text.trim s)
  | _ => .error s!"{field} is required"

def optionalString (value : JsValue) (field : String) : Except String (Option String) :=
  match value with
  | .undefined | .null | .string "" => .ok none
  | value => some <$> requiredString value field

def boundedInteger (value : JsValue) (field : String) (minimum maximum : ℤ) : Except String ℤ :=
  match value with
  | .number n =>
    match n.toInt? with
    | some k =>
      if k < minimum ∨ maximum < k then
        .error s!"{field} must be an integer between {minimum} and {maximum}"
      else .ok k
    | none => .error s!"{field} must be an integer between {minimum} and {maximum}"
  | _ => .error s!"{field} must be an integer between {minimum} and {maximum}"

/-- `new Date` of a date at midnight in UTC: a day after the last of its month is in the next one. -/
def midnight (date : Civil.Date) : JsDate :=
  if 1 ≤ date.month ∧ date.month ≤ 12 ∧ 1 ≤ date.day ∧ date.day ≤ 31 then
    .time (Civil.daysFromCivil date * msPerDay)
  else .invalid

/-- Four, two and two digits that `toISOString` gives back. -/
def isCalendarDate (parsed : List Char) : Bool :=
  match matchDate parsed with
  | some (date, []) =>
    match midnight date with
    | .time ms => (toISOString ms).take 10 = parsed
    | .invalid => false
  | _ => false

def parseIsoDate (value : JsValue) (field : String) : Except String (List Char) := do
  let parsed ← requiredString value field
  if isCalendarDate parsed.toList then .ok parsed.toList
  else .error s!"{field} must be an ISO calendar date"

/-! ### The inputs -/

structure UpsertWorkloadCapacityInput where
  userId : String
  weeklyMinutes : ℤ
  workdayMask : ℤ
  deriving DecidableEq

inductive WorkloadTimeOffKind where
  | vacation | sick | personal | public_holiday

/-- `timeOffKinds` -/
def WorkloadTimeOffKind.ofText : String → Option WorkloadTimeOffKind
  | "vacation" => some .vacation
  | "sick" => some .sick
  | "personal" => some .personal
  | "public_holiday" => some .public_holiday
  | _ => none

structure CreateWorkloadTimeOffInput where
  userId : Option String
  kind : WorkloadTimeOffKind
  startsOn : List Char
  endsOn : List Char
  minutesPerDay : Option ℤ
  note : Option String

/-- `body[key]` -/
def property (body : JsObject) (key : String) : JsValue := (body.get? key).getD .undefined

def parseWorkloadCapacityInput (body : JsObject) (userId : String) :
    Except String UpsertWorkloadCapacityInput := do
  let userId ← requiredString (.string userId) "userId"
  let weeklyMinutes ← boundedInteger (property body "weeklyMinutes") "weeklyMinutes" 0 10080
  let workdayMask ← boundedInteger (property body "workdayMask") "workdayMask" 0 127
  pure { userId, weeklyMinutes, workdayMask }

def parseMinutesPerDay (value : JsValue) : Except String (Option ℤ) :=
  match value with
  | .undefined | .null => .ok none
  | value => some <$> boundedInteger value "minutesPerDay" 1 1440

def parseWorkloadTimeOffInput (body : JsObject) : Except String CreateWorkloadTimeOffInput := do
  let kindText ← requiredString (property body "kind") "kind"
  match WorkloadTimeOffKind.ofText kindText with
  | none => throw "kind is invalid"
  | some kind =>
    let startsOn ← parseIsoDate (property body "startsOn") "startsOn"
    let endsOn ← parseIsoDate (property body "endsOn") "endsOn"
    if endsOn < startsOn then throw "endsOn must not be before startsOn"
    let note ← optionalString (property body "note") "note"
    if note.any fun note => 500 < Text.utf16Length note then throw "note is too long"
    let userId ← optionalString (property body "userId") "userId"
    let minutesPerDay ← parseMinutesPerDay (property body "minutesPerDay")
    pure { userId, kind, startsOn, endsOn, minutesPerDay, note }

/-! ### What is accepted -/

theorem boundedInteger_ok {value : JsValue} {field : String} {minimum maximum k : ℤ}
    (h : boundedInteger value field minimum maximum = .ok k) : minimum ≤ k ∧ k ≤ maximum := by
  unfold boundedInteger at h
  split at h
  · split at h
    · split at h
      · cases h
      · next hbounds =>
        cases h
        omega
    · cases h
  · cases h

theorem parseMinutesPerDay_ok {value : JsValue} {m : ℤ} (h : parseMinutesPerDay value = .ok (some m)) :
    1 ≤ m ∧ m ≤ 1440 := by
  unfold parseMinutesPerDay at h
  split at h
  · cases h
  · cases h
  · rw [map_ok] at h
    obtain ⟨k, hk, heq⟩ := h
    cases heq
    exact boundedInteger_ok hk

theorem isCalendarDate_iff {parsed : List Char} :
    isCalendarDate parsed = true ↔ ∃ n, IsoYear n ∧ parsed = isoDay n := by
  have hpos : (0 : ℤ) < msPerDay := by decide
  constructor
  · intro h
    unfold isCalendarDate at h
    split at h
    · next date hread =>
      split at h
      · next ms _ =>
        rw [decide_eq_true_iff] at h
        have hsome : matchDate parsed ≠ none := by
          rw [hread]
          exact Option.some_ne_none _
        exact ⟨ms / msPerDay, IsoDate.isoYear_of_take h hsome⟩
      · cases h
    · cases h
  · rintro ⟨n, hyear, rfl⟩
    have hday : n * msPerDay / msPerDay = n := Int.mul_ediv_cancel n hpos.ne'
    have hmidnight : midnight (Civil.civilFromDays n) = .time (n * msPerDay) := by
      obtain ⟨hm, hm', hd, -⟩ := Civil.valid_civilFromDays n
      have hd' := (Civil.valid_civilFromDays n).day_le
      unfold midnight
      rw [if_pos ⟨hm, hm', hd, hd'⟩, Civil.daysFromCivil_civilFromDays]
    unfold isCalendarDate
    rw [IsoDate.matchDate_isoDay hyear]
    dsimp only
    rw [hmidnight]
    dsimp only
    rw [IsoDate.take_toISOString (by rwa [hday]), hday, decide_eq_true_iff]

theorem parseIsoDate_ok {value : JsValue} {field : String} {text : List Char}
    (h : parseIsoDate value field = .ok text) : ∃ n, IsoYear n ∧ text = isoDay n := by
  unfold parseIsoDate at h
  rw [bind_ok] at h
  obtain ⟨parsed, -, h⟩ := h
  split at h
  · next hdate =>
    cases h
    exact isCalendarDate_iff.mp hdate
  · cases h

theorem parseWorkloadCapacityInput_ok {body : JsObject} {userId : String}
    {input : UpsertWorkloadCapacityInput} (h : parseWorkloadCapacityInput body userId = .ok input) :
    (0 ≤ input.weeklyMinutes ∧ input.weeklyMinutes ≤ 10080) ∧
      0 ≤ input.workdayMask ∧ input.workdayMask ≤ 127 := by
  unfold parseWorkloadCapacityInput at h
  simp only [bind_ok, pure_ok] at h
  obtain ⟨_, -, weeklyMinutes, hweekly, workdayMask, hmask, rfl⟩ := h
  exact ⟨boundedInteger_ok hweekly, boundedInteger_ok hmask⟩

structure AcceptedDates (startsOn endsOn : List Char) (minutesPerDay : Option ℤ) (first last : ℤ) :
    Prop where
  startsOn : startsOn = isoDay first
  endsOn : endsOn = isoDay last
  first_isoYear : IsoYear first
  last_isoYear : IsoYear last
  le : first ≤ last
  minutes : ∀ m, minutesPerDay = some m → 1 ≤ m ∧ m ≤ 1440

theorem parseWorkloadTimeOffInput_ok {body : JsObject} {input : CreateWorkloadTimeOffInput}
    (h : parseWorkloadTimeOffInput body = .ok input) :
    ∃ first last, AcceptedDates input.startsOn input.endsOn input.minutesPerDay first last := by
  unfold parseWorkloadTimeOffInput at h
  rw [bind_ok] at h
  obtain ⟨kindText, -, h⟩ := h
  split at h
  · rw [throw_ok] at h
    cases h
  · simp only [throw_bind, guard_ok, bind_ok, pure_ok] at h
    obtain ⟨startsOn, hstart, endsOn, hend, hle, -, -, -, -, -, minutesPerDay, hminutes, rfl⟩ := h
    obtain ⟨first, hfirst, rfl⟩ := parseIsoDate_ok hstart
    obtain ⟨last, hlast, rfl⟩ := parseIsoDate_ok hend
    rw [IsoDate.isoDay_lt_iff hlast hfirst, not_lt] at hle
    refine ⟨first, last, rfl, rfl, hfirst, hlast, hle, fun m hm => ?_⟩
    exact parseMinutesPerDay_ok (hminutes.trans (congrArg _ hm))

end CalmBoard.Workload
