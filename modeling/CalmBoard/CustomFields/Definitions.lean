import CalmBoard.CustomFields.Contract
import CalmBoard.Lib.Fallible

/-!
# CalmBoard.CustomFields.Definitions — which custom fields a workspace can have

* `validateCustomFieldDefinition`: the check that every new definition passes.
* `CustomFieldDefinition.Valid`: what an accepted definition keeps.
-/

namespace CalmBoard.CustomFields

open Text Fallible

/-! ### Names, keys and types -/

/-- The letters of `toLowerCase` that become ASCII: those of ASCII and the Kelvin sign. -/
def lowerChar (ch : Char) : Char :=
  if ch.toNat = 0x212A then 'k' else ch.toLower

def normalizeCustomFieldType (rawType : JsValue) : Except RepoError CustomFieldType :=
  match rawType with
  | .string s =>
    match String.ofList ((trim s).toList.map lowerChar) with
    | "text" | "short_text" => .ok .shortText
    | "select" | "single_select" => .ok .singleSelect
    | "number" => .ok .number
    | "date" => .ok .date
    | "checkbox" => .ok .checkbox
    | "url" => .ok .url
    | _ => .error (.conflict s!"Unsupported custom field type '{s}'")
  | _ => .error (.conflict "Custom field type is required and must be a string")

/-- The text of a property, trimmed; empty for other values. -/
def trimmedText : Option JsValue → String
  | some (.string s) => trim s
  | _ => ""

/-- `[a-zA-Z0-9_-]` -/
def keyChar (ch : Char) : Bool := ch.isAlphanum || ch == '_' || ch == '-'

def validateCustomFieldKey (key : JsValue) : Except RepoError String := do
  let trimmed := trimmedText (some key)
  if trimmed = "" then throw (.conflict "Custom field key is required")
  if utf16Length trimmed > 160 then
    throw (.conflict "Custom field key cannot exceed 160 characters")
  if !trimmed.toList.all keyChar then
    throw (.conflict
      "Custom field key may only contain alphanumeric characters, underscores, and hyphens")
  if trimmed ∈ systemMetadataKeys then
    throw (.conflict s!"Custom field key '{trimmed}' is reserved by system metadata")
  return trimmed

/-! ### Options -/

structure ConfiguredOption extends CustomFieldOption where
  color : Option String := none
  deriving DecidableEq

/-- The properties of an option; arrays and dates are objects without those that are read. -/
def optionFields (idx : ℕ) : JsValue → Except RepoError JsObject
  | .object fields => .ok fields
  | .array _ | .date _ => .ok []
  | _ => .error (.conflict s!"Option at index {idx} must be an object")

def validateOption (seenValues : List String) (idx : ℕ) (opt : JsValue) :
    Except RepoError ConfiguredOption := do
  let fields ← optionFields idx opt
  let label := trimmedText (JsObject.get? fields "label")
  let value := trimmedText (JsObject.get? fields "value")
  let color := trimmedText (JsObject.get? fields "color")
  if label = "" then throw (.conflict s!"Option label at index {idx} is required")
  if value = "" then throw (.conflict s!"Option value at index {idx} is required")
  if utf16Length label > 160 then
    throw (.conflict s!"Option label '{label}' cannot exceed 160 characters")
  if utf16Length value > 160 then
    throw (.conflict s!"Option value '{value}' cannot exceed 160 characters")
  if value ∈ seenValues then
    throw (.conflict s!"Duplicate option value '{value}' in custom field definition")
  return { label, value, color := if color = "" then none else some color }

def validateOptions (seenValues : List String) (idx : ℕ) :
    List JsValue → Except RepoError (List ConfiguredOption)
  | [] => .ok []
  | opt :: opts => do
    let o ← validateOption seenValues idx opt
    let rest ← validateOptions (o.value :: seenValues) (idx + 1) opts
    return o :: rest

/-- The options of a definition; those of other types are left out. -/
def configuredOptions (type : CustomFieldType) (options : JsValue) :
    Except RepoError (List ConfiguredOption) :=
  if type = .singleSelect then
    match options with
    | .array (opt :: opts) => validateOptions [] 0 (opt :: opts)
    | _ => .error (.conflict "Single select custom field must configure at least one option")
  else .ok []

/-! ### Definitions -/

/-- What a definition is created from; values that are checked when they come are of any kind. -/
structure CreateCustomFieldInput where
  name : JsValue
  key : JsValue
  type : JsValue
  projectId : Option Uuid := none
  description : JsValue := .undefined
  required : Option Bool := none
  sensitive : Option Bool := none
  options : JsValue := .undefined
  order : JsValue := .undefined

structure CustomFieldDefinition where
  name : String
  key : String
  type : CustomFieldType
  projectId : Option Uuid
  description : Option String
  required : Bool
  sensitive : Bool
  options : List ConfiguredOption
  order : Number
  deriving DecidableEq

/-- `slice(0, n)`, as it is stored: half of a surrogate pair becomes a replacement character. -/
def sliceUnits : ℕ → List Char → List Char
  | 0, _ | _, [] => []
  | n + 1, ch :: l =>
    if ch.toNat < 0x10000 then ch :: sliceUnits n l
    else if n = 0 then [Char.ofNat 0xFFFD]
    else ch :: sliceUnits (n - 1) l

def validateCustomFieldDefinition (input : CreateCustomFieldInput) :
    Except RepoError CustomFieldDefinition := do
  let name := trimmedText (some input.name)
  if name = "" then throw (.conflict "Custom field name is required")
  if utf16Length name > 160 then
    throw (.conflict "Custom field name cannot exceed 160 characters")
  let key ← validateCustomFieldKey input.key
  let type ← normalizeCustomFieldType input.type
  let options ← configuredOptions type input.options
  return {
    name, key, type, options
    projectId := input.projectId
    description := match input.description with
      | .string s => some (String.ofList (sliceUnits 10000 s.toList))
      | _ => none
    required := input.required.getD false
    sensitive := input.sensitive.getD false
    order := match input.order with
      | .number n => if n.isFinite then n else .fin 10
      | _ => .fin 10 }

/-- The columns of a new definition that the values of tasks are checked against. -/
def CustomFieldDefinition.row (df : CustomFieldDefinition) : CustomFieldRow where
  projectId := df.projectId
  key := df.key
  type := df.type
  options := df.options.map ConfiguredOption.toCustomFieldOption
  required := df.required
  sensitive := df.sensitive

/-! ### Accepted definitions -/

theorem trim_trimmedText (value : Option JsValue) : trim (trimmedText value) = trimmedText value := by
  unfold trimmedText
  split
  · exact trim_trim _
  · rfl

theorem validateOption_ok {seenValues : List String} {idx : ℕ} {opt : JsValue} {o : ConfiguredOption}
    (h : validateOption seenValues idx opt = .ok o) :
    trim o.value = o.value ∧ o.value ≠ "" ∧ o.value ∉ seenValues := by
  unfold validateOption at h
  simp only [bind_ok, throw_bind, guard_ok, pure_ok] at h
  obtain ⟨fields, -, -, hvalue, -, -, hseen, rfl⟩ := h
  exact ⟨trim_trimmedText _, hvalue, hseen⟩

theorem validateOptions_ok : ∀ {opts : List JsValue} {seenValues : List String} {idx : ℕ}
    {options : List ConfiguredOption}, validateOptions seenValues idx opts = .ok options →
      (∀ o ∈ options, trim o.value = o.value ∧ o.value ≠ "" ∧ o.value ∉ seenValues) ∧
        (options.map fun o => o.value).Nodup
  | [], _, _, options, h => by
    cases h
    exact ⟨fun _ ho => absurd ho List.not_mem_nil, List.nodup_nil⟩
  | opt :: opts, seenValues, idx, options, h => by
    unfold validateOptions at h
    simp only [bind_ok, pure_ok] at h
    obtain ⟨o, ho, rest, hrest, rfl⟩ := h
    obtain ⟨htrim, hne, hseen⟩ := validateOption_ok ho
    obtain ⟨hall, hnodup⟩ := validateOptions_ok hrest
    refine ⟨fun p hp => ?_, ?_⟩
    · rcases List.mem_cons.mp hp with rfl | hp
      · exact ⟨htrim, hne, hseen⟩
      · obtain ⟨hptrim, hpne, hpseen⟩ := hall p hp
        exact ⟨hptrim, hpne, fun hmem => hpseen (List.mem_cons_of_mem o.value hmem)⟩
    · rw [List.map_cons, List.nodup_cons]
      refine ⟨fun hmem => ?_, hnodup⟩
      obtain ⟨p, hp, hsame⟩ := List.mem_map.mp hmem
      exact (hall p hp).2.2 (hsame ▸ List.mem_cons_self)

structure CustomFieldDefinition.Valid (df : CustomFieldDefinition) : Prop where
  key_free : df.key ∉ systemMetadataKeys
  key_chars : df.key.toList.all keyChar = true
  values : ∀ o ∈ df.options, trim o.value = o.value ∧ o.value ≠ ""
  nodup : (df.options.map fun o => o.value).Nodup

theorem validateCustomFieldKey_ok {raw : JsValue} {key : String}
    (h : validateCustomFieldKey raw = .ok key) :
    key ∉ systemMetadataKeys ∧ key.toList.all keyChar = true := by
  unfold validateCustomFieldKey at h
  simp only [throw_bind, guard_ok, pure_ok] at h
  obtain ⟨-, -, hchars, hfree, rfl⟩ := h
  exact ⟨hfree, by simpa using hchars⟩

/-- **Definitions** that are accepted are well-formed. -/
theorem valid_of_accepted {input : CreateCustomFieldInput} {df : CustomFieldDefinition}
    (h : validateCustomFieldDefinition input = .ok df) : df.Valid := by
  unfold validateCustomFieldDefinition at h
  simp only [bind_ok, throw_bind, guard_ok, pure_ok] at h
  obtain ⟨-, -, key, hkey, type, -, options, hoptions, rfl⟩ := h
  obtain ⟨hfree, hchars⟩ := validateCustomFieldKey_ok hkey
  have hopts : (∀ o ∈ options, trim o.value = o.value ∧ o.value ≠ "" ∧ o.value ∉ ([] : List String)) ∧
      (options.map fun o => o.value).Nodup := by
    unfold configuredOptions at hoptions
    split at hoptions
    · split at hoptions
      · exact validateOptions_ok hoptions
      · cases hoptions
    · cases hoptions
      exact ⟨fun _ ho => absurd ho List.not_mem_nil, List.nodup_nil⟩
  exact ⟨hfree, hchars, fun o ho => ⟨(hopts.1 o ho).1, (hopts.1 o ho).2.1⟩, hopts.2⟩

end CalmBoard.CustomFields
