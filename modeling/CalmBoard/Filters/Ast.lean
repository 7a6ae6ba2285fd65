import CalmBoard.CustomFields.Query

/-!
# CalmBoard.Filters.Ast — the filters of task lists

* `CommonTaskField`, `FieldDataType`: the fields of tasks that can be filtered, and their types.
* `FilterNode`: a filter, as a tree of predicates and groups.
* `FilterNode.toValue`: the same tree as it is sent and stored.
-/

namespace CalmBoard.Filters

open CustomFields

/-! ### Fields -/

inductive CommonTaskField where
  | title | description | timezone | status | priority | assigneeId | reporterId | projectId
  | sectionId | parentId | tags | progress | estimatedHours | loggedHours | storyPoints
  | isMilestone | isRecurring | startDate | dueDate | createdAt | updatedAt | search
  deriving DecidableEq

namespace CommonTaskField

def all : List CommonTaskField :=
  [title, description, timezone, status, priority, assigneeId, reporterId, projectId, sectionId,
    parentId, tags, progress, estimatedHours, loggedHours, storyPoints, isMilestone, isRecurring,
    startDate, dueDate, createdAt, updatedAt, search]

def name : CommonTaskField → String
  | title => "title"
  | description => "description"
  | timezone => "timezone"
  | status => "status"
  | priority => "priority"
  | assigneeId => "assigneeId"
  | reporterId => "reporterId"
  | projectId => "projectId"
  | sectionId => "sectionId"
  | parentId => "parentId"
  | tags => "tags"
  | progress => "progress"
  | estimatedHours => "estimatedHours"
  | loggedHours => "loggedHours"
  | storyPoints => "storyPoints"
  | isMilestone => "isMilestone"
  | isRecurring => "isRecurring"
  | startDate => "startDate"
  | dueDate => "dueDate"
  | createdAt => "createdAt"
  | updatedAt => "updatedAt"
  | search => "search"

end CommonTaskField

inductive FieldDataType where
  | text | enum | id | tags | number | boolean | date | search
  deriving DecidableEq

def FieldDataType.name : FieldDataType → String
  | text => "text"
  | enum => "enum"
  | id => "id"
  | tags => "tags"
  | number => "number"
  | boolean => "boolean"
  | date => "date"
  | search => "search"

def CommonTaskField.dataType : CommonTaskField → FieldDataType
  | title | description | timezone => .text
  | status | priority => .enum
  | assigneeId | reporterId | projectId | sectionId | parentId => .id
  | tags => .tags
  | progress | estimatedHours | loggedHours | storyPoints => .number
  | isMilestone | isRecurring => .boolean
  | startDate | dueDate | createdAt | updatedAt => .date
  | search => .search

def operatorsByFieldDataType : FieldDataType → List FilterOperator
  | .text => [.equals, .notEquals, .contains, .startsWith, .endsWith, .isEmpty, .isNotEmpty]
  | .enum | .id => [.equals, .notEquals, .isIn, .notIn, .isEmpty, .isNotEmpty]
  | .tags => [.contains, .notContains, .containsAny, .containsAll, .isEmpty, .isNotEmpty]
  | .number => [.equals, .notEquals, .greaterThan, .greaterThanOrEqual, .lessThan, .lessThanOrEqual,
    .between, .isEmpty, .isNotEmpty]
  | .boolean => [.equals]
  | .date => [.equals, .before, .after, .onOrBefore, .onOrAfter, .between, .isEmpty, .isNotEmpty]
  | .search => [.contains]

def fieldAliases : List (String × CommonTaskField) :=
  [("assignee", .assigneeId), ("assigneeid", .assigneeId), ("reporter", .reporterId),
    ("reporterid", .reporterId), ("project", .projectId), ("projectid", .projectId),
    ("section", .sectionId), ("sectionid", .sectionId), ("parent", .parentId),
    ("parentid", .parentId), ("milestone", .isMilestone), ("ismilestone", .isMilestone),
    ("recurring", .isRecurring), ("isrecurring", .isRecurring), ("startdate", .startDate),
    ("duedate", .dueDate), ("createdat", .createdAt), ("updatedat", .updatedAt),
    ("estimatedhours", .estimatedHours), ("loggedhours", .loggedHours),
    ("storypoints", .storyPoints)]

/-- The field of a text, by an alias in any case or by its name. -/
def canonicalField (fieldKey : String) : Option CommonTaskField :=
  match fieldAliases.find? fun entry => entry.1 = lowered fieldKey with
  | some entry => some entry.2
  | none => CommonTaskField.all.find? fun field => field.name = fieldKey

theorem canonicalField_name (field : CommonTaskField) : canonicalField field.name = some field := by
  cases field <;> decide

/-! ### Nodes -/

inductive CanonicalFilterField where
  | common (field : CommonTaskField)
  | customField

def CanonicalFilterField.name : CanonicalFilterField → String
  | common field => field.name
  | customField => "customField"

/-- A predicate; the value is `undefined` where there is none. -/
structure FilterPredicate where
  field : CanonicalFilterField
  customFieldKey : Option String := none
  operator : FilterOperator
  value : JsValue := .undefined

inductive GroupOperator where
  | and | or

def GroupOperator.name : GroupOperator → String
  | and => "and"
  | or => "or"

/-- `AdvancedFilterNode` -/
inductive FilterNode where
  | predicate (p : FilterPredicate)
  | group (operator : GroupOperator) (children : List FilterNode)

/-- A property that is left out where it is `undefined`. -/
def property (key : String) : JsValue → JsObject
  | .undefined => []
  | value => [(key, value)]

/-- A predicate as it is sent, with its properties in the order the validation writes them. -/
def FilterPredicate.properties (p : FilterPredicate) : JsObject :=
  [("kind", .string "predicate"), ("field", .string p.field.name)] ++
    (p.customFieldKey.map fun key => ("customFieldKey", .string key)).toList ++
    [("operator", .string p.operator.name)] ++ property "value" p.value

mutual

def FilterNode.toValue : FilterNode → JsValue
  | .predicate p => .object p.properties
  | .group operator children => .object [("kind", .string "group"),
    ("operator", .string operator.name), ("children", .array (FilterNode.toValues children))]

def FilterNode.toValues : List FilterNode → List JsValue
  | [] => []
  | node :: nodes => FilterNode.toValue node :: FilterNode.toValues nodes

end

end CalmBoard.Filters
