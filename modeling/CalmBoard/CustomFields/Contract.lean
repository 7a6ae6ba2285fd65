import CalmBoard.Schema

/-!
# CalmBoard.CustomFields.Contract — what a custom field may hold

A task's custom fields are checked against the definitions of its workspace before they are
stored: texts are trimmed, dates are brought to `toISOString` form, a select value is one of the
options.

* `parseAndValidateIsoDate`: the accepted date texts.
* `normalizeAndValidateFieldValue`: one value, by the type of its definition.
* `validateAndNormalizeTaskCustomFields`: the whole record of a task.
* `isoTime`, `parseAndValidateIsoDate_eq`: the time value of an accepted text.
* `isoTimeOf`, `isoValue`: from a value of a request to its time value, and back.
* `isoTime_toISOString`: what `toISOString` writes is accepted again if and only if the year has
  four digits and no sign.
-/

namespace CalmBoard.CustomFields

section Checks

open Text IsoDate

def systemMetadataKeys : List String := ["dependencies", "reminders", "recurrence", "delayReason"]

/-! ### Dates -/

/-- The date of a text `yyyy-mm-dd`. -/
def isoDateOnly (l : List Char) : Option Civil.Date :=
  match matchDate l with
  | some (date, []) => some date
  | _ => none

/-- A month from 1 to 12, a day from 1 to 31, and a day that the month has. -/
def realDate (t : Civil.Date) : Bool :=
  1 ≤ t.month && t.month ≤ 12 && 1 ≤ t.day && t.day ≤ 31 &&
    Civil.civilFromDays (Civil.daysFromCivil t) == t

def parseAndValidateIsoDate (trimmed : List Char) : Option (List Char) :=
  match isoDateOnly trimmed with
  | some date =>
    if realDate date then some (toISOString (Civil.daysFromCivil date * msPerDay)) else none
  | none =>
    match matchDateTime trimmed with
    | some t =>
      if realDate t.date && t.hours ≤ 23 && t.minutes ≤ 59 && t.seconds ≤ 59 then
        t.time?.map toISOString
      else none
    | none => none

/-! ### One value -/

section Value

variable (rt : Runtime) (df : CustomFieldRow)

def requiredMissing : RepoError := .conflict s!"Required custom field '{df.key}' is missing"

def requiredEmpty : RepoError := .conflict s!"Required custom field '{df.key}' cannot be empty"

/-- An empty text removes the value, unless the field is required. -/
def emptyText : Except RepoError (Option JsValue) :=
  if df.required then .error (requiredEmpty df) else .ok none

/-- The value to store for `value`; `none` removes the field. -/
def normalizeAndValidateFieldValue (value : JsValue) : Except RepoError (Option JsValue) :=
  match value with
  | .undefined | .null => if df.required then .error (requiredMissing df) else .ok none
  | value =>
    match df.type with
    | .shortText =>
      match value with
      | .string s =>
        let trimmed := trim s
        if trimmed = "" then emptyText df
        else if utf16Length trimmed > 10000 then
          .error (.conflict
            s!"Custom field '{df.key}' exceeds maximum length of 10,000 characters")
        else .ok (some (.string trimmed))
      | _ => .error (.conflict s!"Custom field '{df.key}' must be a string")
    | .number =>
      match value with
      | .number (.fin q) => .ok (some (.number (.fin q)))
      | _ => .error (.conflict s!"Custom field '{df.key}' must be a finite number")
    | .date =>
      match value with
      | .date (.time ms) => .ok (some (.string (String.ofList (toISOString ms))))
      | .string s =>
        let trimmed := trim s
        if trimmed = "" then emptyText df
        else
          match parseAndValidateIsoDate trimmed.toList with
          | some iso => .ok (some (.string (String.ofList iso)))
          | none => .error (.conflict s!"Custom field '{df.key}' must be a valid date")
      | _ => .error (.conflict s!"Custom field '{df.key}' must be a valid date")
    | .singleSelect =>
      match value with
      | .string s =>
        let trimmed := trim s
        if trimmed = "" then emptyText df
        else
          match df.options.find? fun opt => opt.value = trimmed || opt.label = trimmed with
          | some matched => .ok (some (.string matched.value))
          | none => .error (.conflict s!"Invalid option for custom field '{df.key}'")
      | _ => .error (.conflict s!"Custom field '{df.key}' must be a string")
    | .checkbox =>
      match value with
      | .boolean b => .ok (some (.boolean b))
      | _ => .error (.conflict s!"Custom field '{df.key}' must be a boolean")
    | .url =>
      match value with
      | .string s =>
        let trimmed := trim s
        if trimmed = "" then emptyText df
        else if rt.httpUrl trimmed then .ok (some (.string trimmed))
        else .error (.conflict s!"Custom field '{df.key}' must be a valid HTTP or HTTPS URL")
      | _ => .error (.conflict s!"Custom field '{df.key}' must be a valid URL")

def isValidNonEmptyValue (value : Option JsValue) : Bool :=
  match df.type, value with
  | _, none | _, some .undefined | _, some .null => false
  | .checkbox, some (.boolean _) => true
  | .number, some (.number n) => n.isFinite
  | .shortText, some (.string s) | .url, some (.string s) | .singleSelect, some (.string s) =>
    trim s ≠ ""
  | .date, some (.string s) =>
    trim s ≠ "" && (parseAndValidateIsoDate (trim s).toList).isSome
  | .date, some (.date d) => d ≠ .invalid
  | _, _ => false

end Value

/-! ### The record of a task -/

/-- The definition of a key; a later definition of the same key replaces an earlier one. -/
def defByKey (definitions : List CustomFieldRow) (key : String) : Option CustomFieldRow :=
  definitions.reverse.find? fun df => df.key = key

/-- The checks on the keys of the input, before any value is looked at. -/
def checkKeys (projectId : Uuid) (definitions : List CustomFieldRow) (input : JsObject) :
    Except RepoError Unit := do
  for (key, _) in input do
    if key ∉ systemMetadataKeys then
      if (defByKey definitions key).isNone then
        throw (.conflict s!"Unknown custom field '{key}'")
  for (key, _) in input do
    if key ∉ systemMetadataKeys then
      if let some df := defByKey definitions key then
        if df.projectId.any (· ≠ projectId) then
          throw (.conflict s!"Custom field '{df.key}' belongs to another project")

/-- `result[key] = value` for a value that is no object: where there is no own property of that name,
`__proto__` is an accessor, which ignores it. -/
def assign (o : JsObject) (key : String) (value : JsValue) : JsObject :=
  if key = "__proto__" ∧ (JsObject.get? o key).isNone then o else JsObject.set o key value

/-- One entry of the input, applied to the record so far. -/
def applyField (rt : Runtime) (isCreate : Bool) (definitions : List CustomFieldRow)
    (result : JsObject) (entry : String × JsValue) : Except RepoError JsObject :=
  if entry.1 ∈ systemMetadataKeys then .ok result
  else
    match defByKey definitions entry.1, entry.2 with
    | none, _ => .ok result
    | some df, .undefined | some df, .null =>
      if df.required then .error (if isCreate then requiredMissing df else requiredEmpty df)
      else .ok (JsObject.delete result entry.1)
    | some df, value => do
      match ← normalizeAndValidateFieldValue rt df value with
      | none => .ok (JsObject.delete result df.key)
      | some v => .ok (assign result df.key v)

def validateAndNormalizeTaskCustomFields (rt : Runtime) (projectId : Uuid)
    (customFieldsInput : Option JsObject) (definitions : List CustomFieldRow) (isCreate : Bool)
    (existing : JsObject) : Except RepoError JsObject :=
  match isCreate, customFieldsInput with
  | false, none => .ok existing
  | isCreate, customFieldsInput => do
    let input := customFieldsInput.getD []
    checkKeys projectId definitions input
    let kept := if isCreate then existing.filter fun p => p.1 ∈ systemMetadataKeys else existing
    let metadata := input.filter fun p => p.1 ∈ systemMetadataKeys
    let result ← input.foldlM (applyField rt isCreate definitions) (JsObject.spread kept metadata)
    if isCreate then
      for df in definitions do
        if df.projectId.all (· = projectId) && df.required then
          if !isValidNonEmptyValue df (JsObject.get? result df.key) then
            throw (requiredMissing df)
    return result

end Checks

section ReadBack

open IsoDate

/-- The time value of an accepted text. -/
def isoTime (trimmed : List Char) : Option ℤ :=
  match isoDateOnly trimmed with
  | some date => if realDate date then some (Civil.daysFromCivil date * msPerDay) else none
  | none =>
    match matchDateTime trimmed with
    | some t =>
      if realDate t.date && t.hours ≤ 23 && t.minutes ≤ 59 && t.seconds ≤ 59 then t.time? else none
    | none => none

theorem parseAndValidateIsoDate_eq (trimmed : List Char) :
    parseAndValidateIsoDate trimmed = (isoTime trimmed).map toISOString := by
  unfold parseAndValidateIsoDate isoTime
  cases isoDateOnly trimmed with
  | some date =>
    dsimp only
    split <;> rfl
  | none =>
    cases matchDateTime trimmed with
    | some t =>
      dsimp only
      split <;> rfl
    | none => rfl

/-- The time value of a date, or of the text of one. -/
def isoTimeOf : JsValue → Option ℤ
  | .string s => isoTime (Text.trim s).toList
  | .date (.time ms) => some ms
  | _ => none

/-- What `toISOString` writes, as a value. -/
def isoValue (ms : ℤ) : JsValue := .string (String.ofList (toISOString ms))

def FourDigits (ms : ℤ) : Prop := 0 ≤ (utcDate ms).year ∧ (utcDate ms).year ≤ 9999

instance (ms : ℤ) : Decidable (FourDigits ms) := inferInstanceAs (Decidable (_ ∧ _))

theorem realDate_utcDate (ms : ℤ) : realDate (utcDate ms) = true := by
  obtain ⟨hm, hm', hd, -⟩ := Civil.valid_civilFromDays (ms / msPerDay)
  have hday := utcDate_day_le ms
  unfold realDate
  simp only [Bool.and_eq_true, decide_eq_true_eq, beq_iff_eq]
  unfold utcDate at hday ⊢
  rw [Civil.daysFromCivil_civilFromDays]
  exact ⟨⟨⟨⟨hm, hm'⟩, hd⟩, hday⟩, rfl⟩

theorem isoDateOnly_of_matchDateTime {l : List Char} {t : DateTimeText}
    (h : matchDateTime l = some t) : isoDateOnly l = none := by
  unfold matchDateTime at h
  unfold isoDateOnly
  split at h
  · rename_i hdate
    rw [hdate]
  · cases h

/-- **Reading back** a time value. -/
theorem isoTime_toISOString (ms : ℤ) :
    isoTime (toISOString ms) = if FourDigits ms then some ms else none := by
  unfold isoTime
  split_ifs with h
  · have hmatch := matchDateTime_toISOString h
    have hms := utcMillisOfDay_lt ms
    have htime : (groups ms).hours ≤ 23 ∧ (groups ms).minutes ≤ 59 ∧ (groups ms).seconds ≤ 59 := by
      unfold groups
      dsimp only
      omega
    have hreal : realDate (groups ms).date = true := realDate_utcDate ms
    rw [isoDateOnly_of_matchDateTime hmatch, hmatch]
    simp only [hreal, htime, decide_true, Bool.and_self, if_true]
    exact time?_groups ms
  · have hdate := matchDate_toISOString h
    have hnone : isoDateOnly (toISOString ms) = none ∧ matchDateTime (toISOString ms) = none := by
      unfold isoDateOnly matchDateTime
      rw [hdate]
      exact ⟨rfl, rfl⟩
    rw [hnone.1, hnone.2]

/-! ### As values -/

/-- What `toISOString` writes has no white space at its ends. -/
theorem trim_toISOString (ms : ℤ) :
    Text.trim (String.ofList (toISOString ms)) = String.ofList (toISOString ms) := by
  have hdigit : ∀ n, Text.isSpace (digit n) = false := by
    have hall : ∀ d < 10, Text.isSpace (Char.ofNat (48 + d)) = false := by decide
    exact fun n => hall (n % 10) (Nat.mod_lt n (by omega))
  have htrimmed : Text.Trimmed (toISOString ms) := by
    constructor
    · intro ch hch
      unfold toISOString yearText at hch
      split_ifs at hch <;> cases hch
      · exact hdigit _
      · rfl
      · rfl
    · intro ch hch
      unfold toISOString at hch
      rw [List.getLast?_concat] at hch
      cases hch
      rfl
  unfold Text.trim
  rw [String.toList_ofList, Text.trimChars_of_trimmed htrimmed]

theorem isoTimeOf_isoValue (ms : ℤ) :
    isoTimeOf (isoValue ms) = if FourDigits ms then some ms else none := by
  unfold isoTimeOf isoValue
  dsimp only
  rw [trim_toISOString, String.toList_ofList, isoTime_toISOString]

end ReadBack

end CalmBoard.CustomFields
