import CalmBoard.CustomFields.Definitions

/-!
# CalmBoard.CustomFields.Query — filters on custom fields

* `FilterOperator`: the operators of filters, on custom fields and on the fields of tasks.
* `toNumber`: `Number(value)`.
* `validateAndNormalizeCustomFilterValue`: the value of a filter, by the type of the definition.
* `validateAndNormalizeCustomFieldFilter`: a filter on one custom field.
-/

namespace CalmBoard.CustomFields

open Text

/-! ### Operators -/

inductive FilterOperator where
  | equals | notEquals | contains | notContains | startsWith | endsWith | isIn | notIn
  | greaterThan | greaterThanOrEqual | lessThan | lessThanOrEqual | between
  | before | after | onOrBefore | onOrAfter | containsAny | containsAll | isEmpty | isNotEmpty
  deriving DecidableEq

def FilterOperator.name : FilterOperator → String
  | .equals => "equals"
  | .notEquals => "not_equals"
  | .contains => "contains"
  | .notContains => "not_contains"
  | .startsWith => "starts_with"
  | .endsWith => "ends_with"
  | .isIn => "in"
  | .notIn => "not_in"
  | .greaterThan => "greater_than"
  | .greaterThanOrEqual => "greater_than_or_equal"
  | .lessThan => "less_than"
  | .lessThanOrEqual => "less_than_or_equal"
  | .between => "between"
  | .before => "before"
  | .after => "after"
  | .onOrBefore => "on_or_before"
  | .onOrAfter => "on_or_after"
  | .containsAny => "contains_any"
  | .containsAll => "contains_all"
  | .isEmpty => "is_empty"
  | .isNotEmpty => "is_not_empty"

/-- An operator without a value. -/
def FilterOperator.Valueless (op : FilterOperator) : Prop := op = .isEmpty ∨ op = .isNotEmpty

instance (op : FilterOperator) : Decidable op.Valueless := inferInstanceAs (Decidable (_ ∨ _))

def operatorOf (allowed : List FilterOperator) (name : String) : Option FilterOperator :=
  allowed.find? fun op => op.name = name

def operatorsByType : CustomFieldType → List FilterOperator
  | .shortText | .url =>
    [.equals, .notEquals, .contains, .startsWith, .endsWith, .isEmpty, .isNotEmpty]
  | .number => [.equals, .notEquals, .greaterThan, .greaterThanOrEqual, .lessThan, .lessThanOrEqual,
    .isEmpty, .isNotEmpty]
  | .date => [.equals, .before, .after, .onOrBefore, .onOrAfter, .isEmpty, .isNotEmpty]
  | .singleSelect | .checkbox => [.equals, .notEquals, .isEmpty, .isNotEmpty]

def CustomFieldType.name : CustomFieldType → String
  | .shortText => "short_text"
  | .number => "number"
  | .date => "date"
  | .singleSelect => "single_select"
  | .checkbox => "checkbox"
  | .url => "url"

/-- `trim().toLowerCase()`, as far as the result can be ASCII. -/
def lowered (s : String) : String := String.ofList ((trim s).toList.map lowerChar)

def commonFieldOperators : List FilterOperator :=
  [.equals, .notEquals, .contains, .notContains, .startsWith, .endsWith, .isIn, .notIn, .greaterThan,
    .greaterThanOrEqual, .lessThan, .lessThanOrEqual, .between, .before, .after, .onOrBefore,
    .onOrAfter, .containsAny, .containsAll, .isEmpty, .isNotEmpty]

theorem operatorOf_mem {allowed : List FilterOperator} {name : String} {op : FilterOperator}
    (h : operatorOf allowed name = some op) : op ∈ allowed := List.mem_of_find?_eq_some h

theorem FilterOperator.name_injective : Function.Injective FilterOperator.name := by
  intro a b h
  have hall : ∀ op : FilterOperator, operatorOf commonFieldOperators op.name = some op := by
    intro op
    cases op <;> decide +kernel
  have hsame := hall a
  rw [h, hall b] at hsame
  exact (Option.some.inj hsame).symm

theorem operatorOf_name {allowed : List FilterOperator} {op : FilterOperator} (h : op ∈ allowed) :
    operatorOf allowed op.name = some op := by
  unfold operatorOf
  cases hfind : allowed.find? fun other => other.name = op.name with
  | none =>
    have hdiff := List.find?_eq_none.mp hfind op h
    simp at hdiff
  | some other =>
    have hname : other.name = op.name := by simpa using List.find?_some hfind
    rw [FilterOperator.name_injective hname]

theorem FilterOperator.lowered_name (op : FilterOperator) : lowered op.name = op.name := by
  cases op <;> decide +kernel

/-! ### Numbers -/

def digitIn (base : ℕ) (ch : Char) : Option ℕ :=
  let n := ch.toNat
  let d := if 48 ≤ n ∧ n ≤ 57 then n - 48
    else if 97 ≤ n ∧ n ≤ 122 then n - 87
    else if 65 ≤ n ∧ n ≤ 90 then n - 55
    else base
  if d < base then some d else none

/-- The number that one or more digits stand for. -/
def digitsIn (base : ℕ) (l : List Char) : Option ℕ :=
  if l.isEmpty then none
  else l.foldl (fun acc ch => acc.bind fun a => (digitIn base ch).map (base * a + ·)) (some 0)

def exponent : List Char → Option ℤ
  | '-' :: digits => (digitsIn 10 digits).map fun n => -(n : ℤ)
  | '+' :: digits | digits => (digitsIn 10 digits).map Int.ofNat

/-- Digits with a point among them, before them or after them, and an exponent. -/
def unsignedDecimal (l : List Char) : Option ℚ := do
  let mantissa := l.takeWhile fun ch => ch ≠ 'e' && ch ≠ 'E'
  let whole := mantissa.takeWhile (· ≠ '.')
  let fraction := (mantissa.dropWhile (· ≠ '.')).drop 1
  let n ← digitsIn 10 (whole ++ fraction)
  let e ← match l.drop mantissa.length with
    | [] => some 0
    | _ :: digits => exponent digits
  return n * (10 : ℚ) ^ (e - fraction.length)

/-- `Number(text)` -/
def stringToNumber (rt : Runtime) (s : String) : Number :=
  let signed (sign : ℚ) (infinite : Number) (l : List Char) : Number :=
    if l = "Infinity".toList then infinite
    else ((unsignedDecimal l).map fun q => rt.double (sign * q)).getD .nan
  let inBase (base : ℕ) (l : List Char) : Number :=
    ((digitsIn base l).map fun n => rt.double n).getD .nan
  match (trim s).toList with
  | [] => .fin 0
  | '0' :: 'x' :: l | '0' :: 'X' :: l => inBase 16 l
  | '0' :: 'o' :: l | '0' :: 'O' :: l => inBase 8 l
  | '0' :: 'b' :: l | '0' :: 'B' :: l => inBase 2 l
  | '-' :: l => signed (-1) .negInf l
  | '+' :: l | l => signed 1 .posInf l

/-- `Number(value)` -/
def toNumber (rt : Runtime) : JsValue → Number
  | .number n => n
  | .undefined | .object _ => .nan
  | .null => .fin 0
  | .boolean b => if b then .fin 1 else .fin 0
  | .string s => stringToNumber rt s
  | .date (.time ms) => .fin ms
  | .date .invalid => .nan
  | .array xs => stringToNumber rt ((JsValue.array xs).text rt)

/-- `^-?\d+(\.\d+)?$` -/
def plainDecimal (l : List Char) : Bool :=
  let l := if l.head? = some '-' then l.tail else l
  let whole := l.takeWhile Char.isDigit
  !whole.isEmpty && match l.drop whole.length with
    | [] => true
    | '.' :: fraction => !fraction.isEmpty && fraction.all Char.isDigit
    | _ => false

/-! ### Filters -/

/-- A definition with the workspace it belongs to. -/
structure FilterDefinition extends CustomFieldRow where
  organizationId : Uuid
  workspaceId : Uuid

/-- The definitions that filters refer to, by their keys. -/
abbrev DefsByKey := String → Option FilterDefinition

section Value

variable (rt : Runtime) (df : CustomFieldRow) (operator : FilterOperator)

def queryValueMust (what : String) : RepoError :=
  .conflict s!"Query value for custom field '{df.key}' must be {what}"

def queryValueEmpty : RepoError :=
  .conflict s!"Query value for custom field '{df.key}' cannot be empty"

/-- The value of a filter; `undefined` where the operator takes none. -/
def validateAndNormalizeCustomFilterValue (value : JsValue) : Except RepoError JsValue :=
  if operator.Valueless then .ok .undefined
  else
    match value with
    | .undefined | .null => .error (.conflict
        s!"Value is required for operator '{operator.name}' on custom field '{df.key}'")
    | value =>
      match df.type with
      | .shortText | .url =>
        match value with
        | .string s =>
          let trimmed := trim s
          if trimmed = "" then
            if operator = .equals ∨ operator = .notEquals then .ok (.string "")
            else .error (queryValueEmpty df)
          else if utf16Length trimmed > 10000 then .error (.conflict
            s!"Query value for custom field '{df.key}' exceeds maximum length")
          else .ok (.string trimmed)
        | _ => .error (queryValueMust df "a string")
      | .number =>
        match value with
        | .number (.fin q) => .ok (.number (.fin q))
        | .string s =>
          let trimmed := trim s
          if plainDecimal trimmed.toList && (stringToNumber rt trimmed).isFinite then
            .ok (.number (stringToNumber rt trimmed))
          else .error (queryValueMust df "a finite number")
        | _ => .error (queryValueMust df "a finite number")
      | .date =>
        match value with
        | .date (.time ms) => .ok (.string (String.ofList (IsoDate.toISOString ms)))
        | .string s =>
          let trimmed := trim s
          if trimmed = "" then .error (queryValueEmpty df)
          else
            match parseAndValidateIsoDate trimmed.toList with
            | some iso => .ok (.string (String.ofList iso))
            | none => .error (queryValueMust df "a valid date")
        | _ => .error (queryValueMust df "a valid date")
      | .singleSelect =>
        match value with
        | .string s =>
          let trimmed := trim s
          if trimmed = "" then .error (queryValueEmpty df)
          else
            match df.options.find? fun opt => opt.value = trimmed || opt.label = trimmed with
            | some matched => .ok (.string matched.value)
            | none => .error (.conflict
              s!"Invalid option '{trimmed}' for custom field '{df.key}'")
        | _ => .error (queryValueMust df "a string")
      | .checkbox =>
        match value with
        | .boolean b => .ok (.boolean b)
        | .string s =>
          let trimmed := lowered s
          if trimmed = "true" then .ok (.boolean true)
          else if trimmed = "false" then .ok (.boolean false)
          else .error (queryValueMust df "a boolean")
        | _ => .error (queryValueMust df "a boolean")

end Value

def validateAndNormalizeCustomFieldOperator (rawOperator : JsValue) (fieldType : CustomFieldType)
    (fieldKey : String) : Except RepoError FilterOperator :=
  match rawOperator with
  | .string s =>
    match operatorOf (operatorsByType fieldType) (lowered s) with
    | some op => .ok op
    | none => .error (.conflict (s!"Operator '{s}' is not supported for custom field " ++
        s!"'{fieldKey}' of type '{CustomFieldType.name fieldType}'"))
  | _ => .error (.conflict s!"Operator for custom field '{fieldKey}' must be a string")

/-- A filter on the custom field of a key, in a workspace and perhaps a project. -/
def validateAndNormalizeCustomFieldFilter (rt : Runtime) (defsByKey : DefsByKey)
    (organizationId workspaceId : Uuid) (projectId : Option Uuid) (fieldKey operator value : JsValue) :
    Except RepoError (String × FilterOperator × JsValue) := do
  let fieldKey ← validateCustomFieldKey fieldKey
  match defsByKey fieldKey with
  | none => throw (.conflict s!"Unknown custom field '{fieldKey}'")
  | some df =>
    if df.organizationId ≠ organizationId ∨ df.workspaceId ≠ workspaceId then
      throw (.conflict s!"Custom field '{fieldKey}' belongs to another workspace")
    if df.projectId.any fun p => projectId.any (p ≠ ·) then
      throw (.conflict s!"Custom field '{fieldKey}' belongs to another project")
    if df.deletedAt.isSome then throw (.conflict s!"Custom field '{fieldKey}' is deleted")
    if df.sensitive then throw (.conflict "Querying sensitive custom fields is not supported")
    let operator ← validateAndNormalizeCustomFieldOperator operator df.type fieldKey
    let value ← validateAndNormalizeCustomFilterValue rt df.toCustomFieldRow operator value
    return (fieldKey, operator, value)

end CalmBoard.CustomFields
