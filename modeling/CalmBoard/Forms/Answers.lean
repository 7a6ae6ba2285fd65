import Mathlib.Data.List.Infix
import CalmBoard.Lib.Fallible
import CalmBoard.Values

/-!
# CalmBoard.Forms.Answers — the answers to a public form, in the browser and on the server

* `parseFormFields`: the field lists that are accepted; `parseFormFields_nodup`: their ids are distinct.
* `parsePublicFormSubmission`: what the server makes of answers.
* `visibleFormFields`: the fields that the browser shows.
* `answers_confined`: they agree, and what is not shown is not stored; among answers that are not too
  many, it does not decide anything either.
-/

namespace CalmBoard.FormAnswers

open Fallible Text

inductive FormFieldType where
  | text
  | textarea
  | email
  | number
  | date
  | select
  | radio
  | checkbox
  deriving DecidableEq

def FormFieldType.label : FormFieldType → String
  | .text => "text"
  | .textarea => "textarea"
  | .email => "email"
  | .number => "number"
  | .date => "date"
  | .select => "select"
  | .radio => "radio"
  | .checkbox => "checkbox"

def fieldTypes : List FormFieldType :=
  [.text, .textarea, .email, .number, .date, .select, .radio, .checkbox]

inductive FormConditionOperator where
  | equals
  | notEquals
  | contains
  | isEmpty
  | notEmpty

def FormConditionOperator.label : FormConditionOperator → String
  | .equals => "equals"
  | .notEquals => "not_equals"
  | .contains => "contains"
  | .isEmpty => "is_empty"
  | .notEmpty => "not_empty"

def conditionOperators : List FormConditionOperator :=
  [.equals, .notEquals, .contains, .isEmpty, .notEmpty]

structure FormFieldCondition where
  fieldId : String
  operator : FormConditionOperator
  value : Option String

structure FormField where
  id : String
  type : FormFieldType
  label : String
  required : Bool
  description : Option String
  placeholder : Option String
  options : Option (List String)
  condition : Option FormFieldCondition

/-! ### Field lists -/

/-- A `BadRequestException` is its message. -/
def boundedString (value : JsValue) (field : String) (max : ℕ) (required : Bool) :
    Except String String :=
  match value with
  | .string s =>
    if required ∧ trim s = "" then .error s!"{field} is required"
    else if utf16Length (trim s) > max then .error s!"{field} must not exceed {max} characters"
    else .ok (trim s)
  | _ => .error s!"{field} must be a string"

def property (o : JsObject) (key : String) : JsValue := (o.get? key).getD .undefined

def parseCondition (value : JsValue) (index : ℕ) (previousIds : List String) :
    Except String (Option FormFieldCondition) :=
  match value with
  | .undefined | .null => .ok none
  | .object o => do
    let fieldId ← boundedString (property o "fieldId") s!"fields.{index}.condition.fieldId" 64 true
    if fieldId ∉ previousIds then
      throw s!"fields.{index}.condition.fieldId must reference an earlier field"
    let operator ← boundedString (property o "operator") s!"fields.{index}.condition.operator" 20 true
    match conditionOperators.find? fun v => v.label = operator with
    | none => throw s!"fields.{index}.condition.operator is unsupported"
    | some .isEmpty => return some ⟨fieldId, .isEmpty, none⟩
    | some .notEmpty => return some ⟨fieldId, .notEmpty, none⟩
    | some v => do
      let value ← boundedString (property o "value") s!"fields.{index}.condition.value" 500 false
      return some ⟨fieldId, v, some value⟩
  | _ => .error s!"fields.{index}.condition must be an object"

/-- `/^[A-Za-z][A-Za-z0-9_-]{0,63}$/` -/
def fieldIdPattern (id : String) : Bool :=
  match id.toList with
  | [] => false
  | ch :: rest => ch.isAlpha && rest.length ≤ 63 && rest.all fun c => c.isAlphanum || c = '_' || c = '-'

def optionalText (o : JsObject) (key : String) (index max : ℕ) : Except String (Option String) :=
  match property o key with
  | .undefined => .ok none
  | value => some <$> boundedString value s!"fields.{index}.{key}" max false

def parseOptions (value : JsValue) (index : ℕ) : Except String (List String) :=
  match value with
  | .array xs => do
    if xs.length < 1 ∨ 50 < xs.length then
      throw s!"fields.{index}.options must contain between 1 and 50 items"
    let options ← xs.zipIdx.mapM fun x => boundedString x.1 s!"fields.{index}.options.{x.2}" 100 true
    if ¬options.Nodup then throw s!"fields.{index}.options must be unique"
    return options
  | _ => .error s!"fields.{index}.options must contain between 1 and 50 items"

def fieldOptions (type : FormFieldType) (value : JsValue) (index : ℕ) :
    Except String (Option (List String)) :=
  if type = .select ∨ type = .radio then some <$> parseOptions value index else .ok none

def parseFormField (index : ℕ) (ids : List String) (entry : JsValue) : Except String FormField :=
  match entry with
  | .object o => do
    let id ← boundedString (property o "id") s!"fields.{index}.id" 64 true
    if !fieldIdPattern id then throw s!"fields.{index}.id is invalid"
    if id ∈ ids then throw s!"fields.{index}.id must be unique"
    let label ← boundedString (property o "type") s!"fields.{index}.type" 20 true
    match fieldTypes.find? fun v => v.label = label with
    | none => throw s!"fields.{index}.type is unsupported"
    | some type => do
      let label ← boundedString (property o "label") s!"fields.{index}.label" 200 true
      let description ← optionalText o "description" index 500
      let placeholder ← optionalText o "placeholder" index 200
      let options ← fieldOptions type (property o "options") index
      let condition ← parseCondition (property o "condition") index ids
      let required := match property o "required" with
        | .boolean b => b
        | _ => false
      return { id, type, label, required, description, placeholder, options, condition }
  | _ => .error s!"fields.{index} must be an object"

def parseFields : ℕ → List String → List JsValue → Except String (List FormField)
  | _, _, [] => .ok []
  | index, ids, entry :: entries => do
    let field ← parseFormField index ids entry
    let fields ← parseFields (index + 1) (ids ++ [field.id]) entries
    return field :: fields

def parseFormFields (value : JsValue) : Except String (List FormField) :=
  match value with
  | .array entries =>
    if entries.length = 0 ∨ 50 < entries.length then
      .error "fields must contain between 1 and 50 items"
    else parseFields 0 [] entries
  | _ => .error "fields must be an array"

theorem parseFormField_id {index : ℕ} {ids : List String} {entry : JsValue} {field : FormField}
    (h : parseFormField index ids entry = .ok field) : field.id ∉ ids := by
  unfold parseFormField at h
  split at h
  · obtain ⟨id, -, h⟩ := bind_ok.mp h
    simp only [Fallible.throw_bind] at h
    obtain ⟨-, h⟩ := guard_ok.mp h
    obtain ⟨hnew, h⟩ := guard_ok.mp h
    obtain ⟨label, -, h⟩ := bind_ok.mp h
    split at h
    · cases h
    · simp only [bind_ok, pure_ok] at h
      obtain ⟨-, -, -, -, -, -, -, -, -, -, rfl⟩ := h
      exact hnew
  · cases h

theorem parseFields_nodup {index : ℕ} {ids : List String} {entries : List JsValue}
    {fields : List FormField} (h : parseFields index ids entries = .ok fields) :
    (fields.map FormField.id).Nodup ∧ ∀ field ∈ fields, field.id ∉ ids := by
  induction entries generalizing index ids fields with
  | nil =>
    cases h
    simp
  | cons entry entries ih =>
    simp only [parseFields, bind_ok, pure_ok] at h
    obtain ⟨field, hfield, rest, hrest, rfl⟩ := h
    obtain ⟨hnodup, hnew⟩ := ih hrest
    refine ⟨List.nodup_cons.mpr ⟨fun hmem => ?_, hnodup⟩, List.forall_mem_cons.mpr
      ⟨parseFormField_id hfield, fun g hg hmem => hnew g hg (List.mem_append_left _ hmem)⟩⟩
    obtain ⟨g, hg, hid⟩ := List.mem_map.mp hmem
    exact hnew g hg (hid ▸ List.mem_append_right _ List.mem_cons_self)

theorem parseFormFields_nodup {value : JsValue} {fields : List FormField}
    (h : parseFormFields value = .ok fields) : (fields.map FormField.id).Nodup := by
  unfold parseFormFields at h
  split at h
  · split at h
    · cases h
    · exact (parseFields_nodup h).1
  · cases h

/-! ### Answers -/

/-- A record of texts. -/
abbrev Values := List (String × String)

/-- `values[key] ?? ""` -/
def get (values : Values) (key : String) : String :=
  ((values.find? fun e => e.1 = key).map Prod.snd).getD ""

/-- `values[key] = value` -/
def set (values : Values) (key value : String) : Values :=
  values.filter (fun e => e.1 ≠ key) ++ [(key, value)]

/-- Both `isFormFieldVisible` and `isFieldVisible`. -/
def conditionHolds (condition : Option FormFieldCondition) (values : Values) : Bool :=
  match condition with
  | none => true
  | some c =>
    let actual := get values c.fieldId
    match c.operator with
    | .equals => actual == c.value.getD ""
    | .notEquals => actual != c.value.getD ""
    | .contains => decide ((c.value.getD "").toList <:+: actual.toList)
    | .isEmpty => trim actual == ""
    | .notEmpty => trim actual != ""

def isFormFieldVisible (field : FormField) (values : Values) : Bool := conditionHolds field.condition values

/-- `Number.isFinite(Number(value))` and whether `Date.parse` reads a text. -/
structure Texts where
  finite : String → Bool
  dateParse : String → Bool

/-- `/^[^\s@]+@[^\s@]+\.[^\s@]+$/` -/
def emailPattern (value : String) : Bool :=
  let name := value.toList.takeWhile (· ≠ '@')
  let host := (value.toList.drop name.length).tail
  name ≠ [] && !value.toList.any isSpace && !host.contains '@' && host.tail.dropLast.contains '.'

/-- `/^\d{4}-\d{2}-\d{2}$/` -/
def datePattern (value : String) : Bool :=
  match value.toList with
  | [a, b, c, d, '-', e, f, '-', g, h] => [a, b, c, d, e, f, g, h].all Char.isDigit
  | _ => false

def validateFieldValue (rt : Texts) (field : FormField) (value : String) : Except String Unit := do
  if utf16Length value > 10000 then throw s!"{field.id} is too long"
  if trim value = "" then
    if field.required then throw s!"{field.id} is required"
    return ()
  if field.type = .email ∧ !emailPattern value then throw s!"{field.id} must be a valid email"
  if field.type = .number ∧ !rt.finite value then throw s!"{field.id} must be a valid number"
  if field.type = .date ∧ (!datePattern value ∨ !rt.dateParse s!"{value}T00:00:00Z") then
    throw s!"{field.id} must be a valid date"
  if (field.type = .select ∨ field.type = .radio) ∧ value ∉ field.options.getD [] then
    throw s!"{field.id} must use one of the configured options"
  if field.type = .checkbox ∧ value ≠ "true" ∧ value ≠ "false" then
    throw s!"{field.id} must be true or false"
  if field.type = .checkbox ∧ field.required ∧ value ≠ "true" then
    throw s!"{field.id} must be accepted"

/-- What the server keeps of the answer to a visible field. -/
def keep (field : FormField) (value : String) (values : Values) : Values :=
  if value ≠ "" ∨ field.type = .checkbox then set values field.id value else values

/-- The loop over the fields, with the values and the length so far. -/
def acceptAnswers (rt : Texts) (rawValues : Values) :
    List FormField → Values × ℕ → Except String (Values × ℕ)
  | [], s => .ok s
  | field :: rest, s =>
    if !isFormFieldVisible field s.1 then acceptAnswers rt rawValues rest s
    else do
      validateFieldValue rt field (get rawValues field.id)
      acceptAnswers rt rawValues rest
        (keep field (get rawValues field.id) s.1, s.2 + utf16Length (get rawValues field.id))

structure Body where
  values : JsValue
  captchaToken : JsValue

structure Submission where
  values : Values
  captchaToken : String

def rawValue (e : String × JsValue) : Except String (String × String) :=
  match e.2 with
  | .string s => .ok (e.1, s)
  | _ => .error s!"values.{e.1} must be a string"

def parseCaptchaToken : JsValue → Except String String
  | .undefined => .ok ""
  | token => boundedString token "captchaToken" 2048 false

def parsePublicFormSubmission (rt : Texts) (body : Body) (fields : List FormField) :
    Except String Submission :=
  match body.values with
  | .object o => do
    if o.length > 50 then throw "values contains too many fields"
    let rawValues ← o.mapM rawValue
    let (values, totalLength) ← acceptAnswers rt rawValues fields ([], 0)
    if totalLength > 50000 then throw "values payload is too large"
    let captchaToken ← parseCaptchaToken body.captchaToken
    return ⟨values, captchaToken⟩
  | _ => .error "values must be an object"

/-! ### The browser -/

def isFieldVisible (field : FormField) (values : Values) : Bool := conditionHolds field.condition values

/-- The loop over the fields, with the values of those shown so far. -/
def visibleFrom (values : Values) : List FormField → Values → List FormField
  | [], _ => []
  | field :: rest, visibleValues =>
    if !isFieldVisible field visibleValues then visibleFrom values rest visibleValues
    else field :: visibleFrom values rest (set visibleValues field.id (get values field.id))

def visibleFormFields (fields : List FormField) (values : Values) : List FormField :=
  visibleFrom values fields []

/-! ### Visibility -/

variable {rt : Texts} {fields : List FormField} {raw raw' kept shown : Values}

/-- The fields that the loop of the server treats as visible. -/
def treatedFrom (rawValues : Values) : List FormField → Values → List FormField
  | [], _ => []
  | field :: rest, values =>
    if !isFormFieldVisible field values then treatedFrom rawValues rest values
    else field :: treatedFrom rawValues rest (keep field (get rawValues field.id) values)

theorem get_set (values : Values) (key value k : String) :
    get (set values key value) k = if k = key then value else get values k := by
  unfold get set
  rw [List.find?_append, List.find?_filter]
  split
  · next hk =>
    subst hk
    rw [List.find?_eq_none.mpr (by simp)]
    simp
  · next hk =>
    have hsame : (fun e : String × String => decide (decide (e.1 ≠ key) = true ∧
        decide (e.1 = k) = true)) = fun e => decide (e.1 = k) := by
      funext e
      by_cases he : e.1 = k <;> simp [he, hk]
    rw [hsame, List.find?_singleton, if_neg (by simp [Ne.symm hk]), Option.or_none]

theorem conditionHolds_congr (condition : Option FormFieldCondition)
    (h : ∀ k, get kept k = get shown k) : conditionHolds condition kept = conditionHolds condition shown := by
  cases condition with
  | none => rfl
  | some c => simp only [conditionHolds, h]

/-- The server keeps no empty answers, which the browser does; both read the same. -/
theorem treatedFrom_eq (hids : (fields.map FormField.id).Nodup) (hget : ∀ k, get kept k = get shown k)
    (hnew : ∀ field ∈ fields, get kept field.id = "") :
    treatedFrom raw fields kept = visibleFrom raw fields shown := by
  induction fields generalizing kept shown with
  | nil => rfl
  | cons field rest ih =>
    rw [List.map_cons, List.nodup_cons] at hids
    obtain ⟨hfield, hrest⟩ := List.forall_mem_cons.mp hnew
    have hvisible : isFormFieldVisible field kept = isFieldVisible field shown :=
      conditionHolds_congr field.condition hget
    rw [treatedFrom, visibleFrom, hvisible]
    split
    · exact ih hids.2 hget hrest
    · have hkeep : ∀ k, get (keep field (get raw field.id) kept) k =
          if k = field.id then get raw field.id else get kept k := by
        intro k
        unfold keep
        split
        · exact get_set ..
        · next hdrop =>
          split
          · next hk => rw [hk, hfield, not_not.mp fun hne => hdrop (Or.inl hne)]
          · rfl
      refine congrArg (field :: ·) (ih hids.2 (fun k => ?_) fun g hg => ?_)
      · rw [hkeep, get_set, hget]
      · rw [hkeep, if_neg fun hid : g.id = field.id => hids.1 (List.mem_map.mpr ⟨g, hg, hid⟩),
          hrest g hg]

theorem treatedFrom_congr (h : ∀ field ∈ treatedFrom raw fields kept, get raw' field.id = get raw field.id) :
    treatedFrom raw' fields kept = treatedFrom raw fields kept := by
  induction fields generalizing kept with
  | nil => rfl
  | cons field rest ih =>
    rw [treatedFrom] at h ⊢
    rw [treatedFrom]
    split
    · next hhidden =>
      rw [if_pos hhidden] at h
      exact ih h
    · next hvisible =>
      rw [if_neg hvisible] at h
      obtain ⟨hfield, hrest⟩ := List.forall_mem_cons.mp h
      rw [hfield, ih hrest]

/-- What the loop does with a field that it treats as visible. -/
def acceptField (rt : Texts) (rawValues : Values) (s : Values × ℕ) (field : FormField) :
    Except String (Values × ℕ) := do
  validateFieldValue rt field (get rawValues field.id)
  return (keep field (get rawValues field.id) s.1, s.2 + utf16Length (get rawValues field.id))

/-- **The loop** looks at the answers to the fields that it treats as visible only. -/
theorem acceptAnswers_eq (s : Values × ℕ) : acceptAnswers rt raw fields s =
    (treatedFrom raw fields s.1).foldlM (acceptField rt raw) s := by
  induction fields generalizing s with
  | nil => rfl
  | cons field rest ih =>
    rw [acceptAnswers, treatedFrom]
    split
    · exact ih s
    · rw [List.foldlM_cons, acceptField, bind_assoc]
      refine congrArg _ (funext fun _ => ?_)
      rw [pure_bind, ih]

/-! ### Submissions -/

/-- A map of answers, as a body carries it. -/
structure Answers where
  entries : Values
  distinct : (entries.map Prod.fst).Nodup

def Answers.body (answers : Answers) (captchaToken : JsValue) : Body where
  values := .object (answers.entries.map fun e => (e.1, .string e.2))
  captchaToken := captchaToken

/-- A map of not too many answers is read as it is. -/
theorem parse_body {answers : Answers} (hcount : answers.entries.length ≤ 50) (token : JsValue) :
    parsePublicFormSubmission rt (answers.body token) fields = do
      let (values, totalLength) ← acceptAnswers rt answers.entries fields ([], 0)
      if totalLength > 50000 then throw "values payload is too large"
      let captchaToken ← parseCaptchaToken token
      return ⟨values, captchaToken⟩ := by
  have hread : (answers.entries.map fun e => (e.1, JsValue.string e.2)).mapM rawValue =
      .ok answers.entries := mapM_map_ok fun _ _ => rfl
  have hfew : ¬(answers.entries.map fun e => (e.1, JsValue.string e.2)).length > 50 := by
    rw [List.length_map]
    omega
  unfold parsePublicFormSubmission Answers.body
  dsimp only
  rw [if_neg hfew, hread]
  rfl

/-- What is stored are visible fields with the text that was submitted. -/
theorem acceptAnswers_stored {s t : Values × ℕ} (h : acceptAnswers rt raw fields s = .ok t) :
    ∀ e ∈ t.1, e ∈ s.1 ∨ ∃ field ∈ treatedFrom raw fields s.1, e = (field.id, get raw field.id) := by
  rw [acceptAnswers_eq] at h
  refine foldlM_ok (I := fun t : Values × ℕ => ∀ e ∈ t.1, e ∈ s.1 ∨
    ∃ field ∈ treatedFrom raw fields s.1, e = (field.id, get raw field.id)) h
    (fun e he => Or.inl he) fun s field t hfield hs ht => ?_
  obtain ⟨-, -, ht⟩ := bind_ok.mp ht
  cases pure_ok.mp ht
  intro e he
  dsimp only at he
  unfold keep at he
  split at he
  · rcases List.mem_append.mp he with he | he
    · exact hs e (List.mem_filter.mp he).1
    · exact Or.inr ⟨field, hfield, List.mem_singleton.mp he⟩
  · exact hs e he

structure Confined (rt : Texts) (fields : List FormField) (answers : Answers) : Prop where
  visible : treatedFrom answers.entries fields [] = visibleFormFields fields answers.entries
  accepted : acceptAnswers rt answers.entries fields ([], 0) =
    (visibleFormFields fields answers.entries).foldlM (acceptField rt answers.entries) ([], 0)
  stored : ∀ token submission, parsePublicFormSubmission rt (answers.body token) fields = .ok submission →
    ∀ e ∈ submission.values, ∃ field ∈ visibleFormFields fields answers.entries,
      e = (field.id, get answers.entries field.id)
  decided : ∀ (other : Answers) (token), answers.entries.length ≤ 50 → other.entries.length ≤ 50 →
    (∀ field ∈ visibleFormFields fields answers.entries,
      get other.entries field.id = get answers.entries field.id) →
      parsePublicFormSubmission rt (other.body token) fields =
        parsePublicFormSubmission rt (answers.body token) fields

/-- **Confinement**: the server and the browser agree on what is visible, and nothing else is stored or,
among at most 50 answers, decides anything. -/
theorem answers_confined (rt : Texts) {value : JsValue} {fields : List FormField}
    (h : parseFormFields value = .ok fields) (answers : Answers) : Confined rt fields answers := by
  have hvisible : treatedFrom answers.entries fields [] = visibleFormFields fields answers.entries :=
    treatedFrom_eq (parseFormFields_nodup h) (fun _ => rfl) fun _ _ => rfl
  have haccepted : acceptAnswers rt answers.entries fields ([], 0) =
      (visibleFormFields fields answers.entries).foldlM (acceptField rt answers.entries) ([], 0) := by
    rw [acceptAnswers_eq, hvisible]
  refine ⟨hvisible, haccepted, fun token submission hok => ?_,
    fun other token hcount hcount' hsame => ?_⟩
  · have hcount : answers.entries.length ≤ 50 := by
      by_contra hmany
      have hthrow : (answers.entries.map fun e => (e.1, JsValue.string e.2)).length > 50 := by
        rw [List.length_map]
        omega
      unfold parsePublicFormSubmission Answers.body at hok
      dsimp only at hok
      rw [if_pos hthrow] at hok
      cases hok
    rw [parse_body hcount] at hok
    obtain ⟨⟨values, totalLength⟩, haccept, hok⟩ := bind_ok.mp hok
    obtain ⟨-, hok⟩ := guard_ok.mp hok
    obtain ⟨captchaToken, -, hok⟩ := bind_ok.mp hok
    cases pure_ok.mp hok
    intro e he
    rcases acceptAnswers_stored haccept e he with hnil | hstored
    · cases hnil
    · rwa [hvisible] at hstored
  · have hloop : acceptAnswers rt other.entries fields ([], 0) =
        acceptAnswers rt answers.entries fields ([], 0) := by
      rw [acceptAnswers_eq, treatedFrom_congr (hvisible ▸ hsame), haccepted, hvisible]
      refine foldlM_congr fun s field hfield => ?_
      rw [acceptField, acceptField, hsame field hfield]
    rw [parse_body hcount', parse_body hcount, hloop]

/-- One optional text field. -/
def sampleFields : JsValue :=
  .array [.object [("id", .string "kind"), ("type", .string "text"), ("label", .string "Kind")]]

def kindField : FormField := ⟨"kind", .text, "Kind", false, none, none, none, none⟩

def sampleTexts : Texts := ⟨fun _ => true, fun _ => true⟩

theorem parse_sampleFields : parseFormFields sampleFields = .ok [kindField] := by
  rfl

theorem answers_confined_sample : Confined sampleTexts [kindField] ⟨[("kind", "Bug")], by decide⟩ :=
  answers_confined sampleTexts parse_sampleFields _

/-- As many answers to fields that do not exist. -/
def unknownAnswers (n : ℕ) : Values :=
  (List.range n).map fun i => (String.ofList (List.replicate (i + 1) 'u'), "x")

theorem unknown_answers_refused : ∃ value fields, parseFormFields value = .ok fields ∧
    ∃ answers other : Answers, (∀ field ∈ visibleFormFields fields answers.entries,
      get other.entries field.id = get answers.entries field.id) ∧
      parsePublicFormSubmission sampleTexts (other.body .undefined) fields ≠
        parsePublicFormSubmission sampleTexts (answers.body .undefined) fields := by
  refine ⟨sampleFields, _, parse_sampleFields, ⟨[], by decide⟩,
    ⟨unknownAnswers 51, by decide⟩, by decide, fun h => ?_⟩
  exact absurd (congrArg Except.isOk h) (by decide)

end CalmBoard.FormAnswers
