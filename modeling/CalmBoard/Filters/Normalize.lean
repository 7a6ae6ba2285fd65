import CalmBoard.Filters.Ast

/-!
# CalmBoard.Filters.Normalize — filters, checked and brought to one form

* `normalizeCommonFieldValue`: the value of a predicate on a field of tasks.
* `validatePredicate`, `validateNode`: a predicate, and a node with what is below it.
* `validateAndNormalizeAdvancedFilterAst`: a whole filter.

Values are trees, so an object never comes twice and the check for cyclic references does not act.
-/

namespace CalmBoard.Filters

open Text CustomFields

def maxAstDepth : ℕ := 10
def maxAstNodes : ℕ := 100
def maxAstPredicates : ℕ := 100

def taskStatuses : List String := ["backlog", "todo", "in_progress", "review", "done", "canceled"]

def taskPriorities : List String := ["low", "medium", "high", "urgent"]

/-- `typeof value === "string" ? value.trim().toLowerCase() : ""` -/
def loweredText : JsValue → String
  | .string s => lowered s
  | _ => ""

/-! ### Values -/

section Value

variable (rt : Runtime) (field : CommonTaskField) (operator : FilterOperator)

def mustBe (what : String) : RepoError := .conflict s!"Field '{field.name}' requires {what}"

def mustBeArray : RepoError := .conflict
  s!"Field '{field.name}' with operator '{operator.name}' requires a non-empty array"

/-- The items of a non-empty array, each checked, without repetitions. -/
def normalizeItems (item : JsValue → Except RepoError String) (rawValue : JsValue) :
    Except RepoError JsValue :=
  match rawValue with
  | .array (x :: xs) => do
    let values ← (x :: xs).mapM item
    return .array (values.eraseDups.map JsValue.string)
  | _ => .error (mustBeArray field operator)

def allowedSet : List String := if field = .status then taskStatuses else taskPriorities

def enumItem (item : JsValue) : Except RepoError String :=
  let val := loweredText item
  if val ∈ allowedSet field then .ok val
  else .error (.conflict s!"Invalid {field.name} value '{item.text rt}'")

/-- A text that is not blank, trimmed. -/
def textItem (error : RepoError) (item : JsValue) : Except RepoError String :=
  match item with
  | .string s => if trim s = "" then .error error else .ok (trim s)
  | _ => .error error

/-- The bounds of a range: an array of two items, or an object with both properties. -/
def rangeBounds : JsValue → Option (JsValue × JsValue)
  | .array [min, max] => some (min, max)
  | .object fields =>
    match JsObject.get? fields "min", JsObject.get? fields "max" with
    | some min, some max => some (min, max)
    | _, _ => none
  | _ => none

def range (min max : JsValue) : JsValue := .object [("min", min), ("max", max)]

def normalizeNumberRange (rawValue : JsValue) : Except RepoError JsValue :=
  match rangeBounds rawValue with
  | none => .error (.conflict
      "Range operator 'between' requires \x7b min, max \x7d bounds")
  | some (minVal, maxVal) =>
    match toNumber rt minVal, toNumber rt maxVal with
    | .fin minNum, .fin maxNum =>
      if minNum > maxNum then .error (.conflict "Range min cannot be greater than max")
      else .ok (range (.number (.fin minNum)) (.number (.fin maxNum)))
    | _, _ => .error (.conflict "Range bounds must be finite numbers")

def normalizeDateRange (rawValue : JsValue) : Except RepoError JsValue :=
  match rangeBounds rawValue with
  | none => .error (.conflict
      "Date range operator 'between' requires \x7b min, max \x7d bounds")
  | some (minVal, maxVal) =>
    match isoTimeOf minVal, isoTimeOf maxVal with
    | some min, some max =>
      if min > max then .error (.conflict "Date range min cannot be after max")
      else .ok (range (isoValue min) (isoValue max))
    | _, _ => .error (.conflict "Date range bounds must be valid ISO dates")

def normalizeBoolean (rawValue : JsValue) : Except RepoError JsValue :=
  match rawValue with
  | .boolean b => .ok (.boolean b)
  | .string s =>
    if lowered s = "true" ∨ lowered s = "t" ∨ lowered s = "1" then .ok (.boolean true)
    else if lowered s = "false" ∨ lowered s = "f" ∨ lowered s = "0" then .ok (.boolean false)
    else .error (mustBe field "a boolean value")
  | _ => .error (mustBe field "a boolean value")

def normalizeText (rawValue : JsValue) : Except RepoError JsValue :=
  match rawValue with
  | .string s => .ok (.string (trim s))
  | .number n => .ok (.string (trim (rt.numberText n)))
  | _ => .error (mustBe field "a string value")

def normalizeCommonFieldValue (rawValue : JsValue) : Except RepoError JsValue :=
  if operator.Valueless then .ok .undefined
  else
    match field.dataType with
    | .text | .search => normalizeText rt field rawValue
    | .enum =>
      if operator = .isIn ∨ operator = .notIn then
        normalizeItems field operator (enumItem rt field) rawValue
      else JsValue.string <$> enumItem rt field rawValue
    | .id =>
      if operator = .isIn ∨ operator = .notIn then
        normalizeItems field operator
          (textItem (.conflict s!"Field '{field.name}' ID entries must be non-empty strings")) rawValue
      else JsValue.string <$> textItem (mustBe field "a non-empty string ID") rawValue
    | .tags =>
      if operator = .containsAny ∨ operator = .containsAll then
        normalizeItems field operator (textItem (.conflict "Tag entries must be non-empty strings"))
          rawValue
      else JsValue.string <$> textItem (mustBe field "a string tag value") rawValue
    | .number =>
      if operator = .between then normalizeNumberRange rt rawValue
      else
        match toNumber rt rawValue with
        | .fin num => .ok (.number (.fin num))
        | _ => .error (mustBe field "a finite number")
    | .boolean => normalizeBoolean field rawValue
    | .date =>
      if operator = .between then normalizeDateRange rawValue
      else
        match isoTimeOf rawValue with
        | some ms => .ok (isoValue ms)
        | none => .error (mustBe field "a valid ISO date string")

end Value

/-! ### Predicates -/

structure AdvancedFilterValidationContext where
  organizationId : Option Uuid := none
  workspaceId : Option Uuid := none
  projectId : Option Uuid := none

/-- What follows a prefix. -/
def afterStart (start : String) (s : String) : Option String :=
  if start.toList.isPrefixOf s.toList then some (String.ofList (s.toList.drop start.toList.length))
  else none

/-- The field of a predicate and the key of its custom field, as texts. -/
def predicateKeys (n : JsObject) : String × String :=
  let fieldKey := trimmedText (JsObject.get? n "field")
  match afterStart "customField:" fieldKey with
  | some key => ("customField", trim key)
  | none => (fieldKey, trimmedText (JsObject.get? n "customFieldKey"))

/-- What a predicate is about. -/
inductive PredicateTarget where
  | custom (key : String) (df : FilterDefinition)
  | common (field : CommonTaskField)

section Validate

variable (rt : Runtime) (defsByKey : DefsByKey) (context : AdvancedFilterValidationContext)

def predicateTarget (n : JsObject) : Except RepoError PredicateTarget :=
  let keys := predicateKeys n
  if keys.2 ≠ "" ∨ keys.1 = "customField" then do
    if keys.2 = "" then
      throw (.conflict "Custom field predicate requires a valid customFieldKey")
    let validKey ← validateCustomFieldKey (.string keys.2)
    match defsByKey validKey with
    | none => throw (.conflict s!"Unknown custom field '{validKey}'")
    | some df =>
      if df.projectId.any fun p => context.projectId.any (p ≠ ·) then
        throw (.conflict s!"Custom field '{validKey}' belongs to another project")
      if df.sensitive then throw (.conflict "Querying sensitive custom fields is not supported")
      return .custom validKey df
  else
    match canonicalField keys.1 with
    | some field => .ok (.common field)
    | none => .error (.conflict s!"Unsupported filter field: '{keys.1}'")

/-- The operator of a predicate on a field of tasks. -/
def commonOperator (field : CommonTaskField) (rawOperator : JsValue) : Except RepoError FilterOperator :=
  match operatorOf (operatorsByFieldDataType field.dataType) (loweredText rawOperator) with
  | some operator => .ok operator
  | none => .error (.conflict ("Operator '" ++ rawOperator.text rt ++
      s!"' is not supported for field '{field.name}' of type '{field.dataType.name}'"))

def validatePredicate (n : JsObject) : Except RepoError FilterPredicate := do
  let rawOperator := (JsObject.get? n "operator").getD .undefined
  let rawValue := (JsObject.get? n "value").getD .undefined
  match ← predicateTarget defsByKey context n with
  | .custom validKey df =>
    let (_, operator, value) ← validateAndNormalizeCustomFieldFilter rt defsByKey
      (context.organizationId.getD df.organizationId) (context.workspaceId.getD df.workspaceId)
      context.projectId (.string validKey) rawOperator rawValue
    return { field := .customField, customFieldKey := some validKey, operator, value }
  | .common field =>
    let operator ← commonOperator rt field rawOperator
    let value ← normalizeCommonFieldValue rt field operator rawValue
    return { field := .common field, operator, value }

/-! ### Nodes -/

/-- The nodes and the predicates so far. -/
structure NodeCounts where
  nodes : ℕ := 0
  predicates : ℕ := 0

/-- The properties of a node; a date is an object without those that are read. -/
def nodeFields : JsValue → Except RepoError JsObject
  | .object fields => .ok fields
  | .date _ => .ok []
  | _ => .error (.conflict "Advanced filter node must be an object")

def groupOperator (n : JsObject) : Except RepoError GroupOperator :=
  let operator := (JsObject.get? n "operator").getD .undefined
  if loweredText operator = "and" then .ok .and
  else if loweredText operator = "or" then .ok .or
  else .error (.conflict s!"Invalid filter group operator: '{operator.text rt}'")

def groupChildren (n : JsObject) : Except RepoError (List JsValue) :=
  match JsObject.get? n "children" with
  | some (.array children) => .ok children
  | _ => .error (.conflict "Filter group children must be an array")

/-- The children of a group, one after the other. -/
def validateChildren (validate : NodeCounts → JsValue → Except RepoError (FilterNode × NodeCounts)) :
    NodeCounts → List JsValue → Except RepoError (List FilterNode × NodeCounts)
  | counts, [] => .ok ([], counts)
  | counts, child :: children => do
    let (node, counts) ← validate counts child
    let (nodes, counts) ← validateChildren validate counts children
    return (node :: nodes, counts)

inductive NodeKind where
  | predicate | group

def nodeKind (n : JsObject) : Except RepoError NodeKind :=
  let kind := (JsObject.get? n "kind").getD .undefined
  let name := match kind with
    | .string s => s
    | _ => ""
  if name = "predicate" then .ok .predicate
  else if name = "group" then .ok .group
  else .error (.conflict s!"Invalid filter node kind: '{kind.text rt}'")

/-- A node with `levels` levels left for it and what is below it. -/
def validateNode : (levels : ℕ) → NodeCounts → JsValue → Except RepoError (FilterNode × NodeCounts)
  | 0, _, _ => .error (.conflict
      s!"Advanced filter exceeds maximum nesting depth of {maxAstDepth}")
  | levels + 1, counts, node => do
    let n ← nodeFields node
    let counts := { counts with nodes := counts.nodes + 1 }
    if counts.nodes > maxAstNodes then
      throw (.conflict s!"Advanced filter exceeds maximum total node count of {maxAstNodes}")
    match ← nodeKind rt n with
    | .group =>
      let operator ← groupOperator rt n
      let children ← groupChildren n
      let (children, counts) ← validateChildren (validateNode levels) counts children
      return (.group operator children, counts)
    | .predicate =>
      let counts := { counts with predicates := counts.predicates + 1 }
      if counts.predicates > maxAstPredicates then
        throw (.conflict
          s!"Advanced filter exceeds maximum predicate count of {maxAstPredicates}")
      let p ← validatePredicate rt defsByKey context n
      return (.predicate p, counts)

def validateAndNormalizeAdvancedFilterAst (raw : JsValue) : Except RepoError FilterNode :=
  Prod.fst <$> validateNode rt defsByKey context maxAstDepth {} raw

end Validate

end CalmBoard.Filters
