import CalmBoard.Filters.ValuesKept
import CalmBoard.System

/-!
# CalmBoard.Filters.Kept — filters that are checked again

A stored filter has passed the check once, and passes it again whenever it is used.

* `validatePredicate_again`: when a checked predicate passes again, and as itself.
* `validateNode_again`: the same for a node with what is below it.
* `checked_again_iff`: for a whole filter.
-/

namespace CalmBoard.Filters

open Text CustomFields Fallible

/-! ### The properties of a checked predicate -/

namespace FilterPredicate

variable (p : FilterPredicate)

theorem get?_field : JsObject.get? p.properties "field" = some (.string p.field.name) := rfl

theorem get?_operator :
    JsObject.get? p.properties "operator" = some (.string p.operator.name) := by
  unfold properties
  cases p.customFieldKey <;> rfl

theorem get?_value : (JsObject.get? p.properties "value").getD .undefined = p.value := by
  unfold properties
  cases p.customFieldKey <;> cases p.value <;> rfl

theorem get?_customFieldKey :
    trimmedText (JsObject.get? p.properties "customFieldKey") = trim (p.customFieldKey.getD "") := by
  unfold properties
  cases p.customFieldKey <;> cases p.value <;> rfl

end FilterPredicate

theorem afterStart_field (field : CanonicalFilterField) :
    afterStart "customField:" (trim field.name) = none ∧ trim field.name = field.name := by
  cases field with
  | customField => decide
  | common field => cases field <;> decide

theorem predicateKeys_properties (p : FilterPredicate) :
    predicateKeys p.properties = (p.field.name, trim (p.customFieldKey.getD "")) := by
  obtain ⟨hstart, htrim⟩ := afterStart_field p.field
  unfold predicateKeys
  rw [p.get?_field]
  simp only [trimmedText]
  rw [hstart, htrim]
  exact congrArg (Prod.mk p.field.name) p.get?_customFieldKey

variable {validate : NodeCounts → JsValue → Except RepoError (FilterNode × NodeCounts)}
  {n : JsObject}

section Validate

variable {rt : Runtime} {defsByKey : DefsByKey} {context : AdvancedFilterValidationContext}

theorem predicateTarget_common (field : CommonTaskField) (op : FilterOperator) (v : JsValue) :
    predicateTarget defsByKey context
      (FilterPredicate.properties { field := .common field, operator := op, value := v }) =
        .ok (.common field) := by
  have hname : field.name ≠ "customField" := by cases field <;> decide
  have hblank : trim "" = "" := rfl
  unfold predicateTarget
  rw [predicateKeys_properties]
  simp [CanonicalFilterField.name, hname, hblank, canonicalField_name]

theorem predicateTarget_custom {key : String} {df : FilterDefinition}
    (h : predicateTarget defsByKey context n = .ok (.custom key df)) (op : FilterOperator)
    (v : JsValue) :
    validateCustomFieldKey (.string key) = .ok key ∧ defsByKey key = some df ∧
      predicateTarget defsByKey context (FilterPredicate.properties
        { field := .customField, customFieldKey := some key, operator := op, value := v }) =
          .ok (.custom key df) := by
  unfold predicateTarget at h
  simp only at h
  split at h
  · simp only [throw_bind, guard_ok, bind_ok] at h
    obtain ⟨-, validKey, hkey, h⟩ := h
    cases hdf : defsByKey validKey with
    | none =>
      rw [hdf] at h
      cases h
    | some df' =>
      rw [hdf] at h
      simp only [guard_ok, pure_ok, PredicateTarget.custom.injEq] at h
      obtain ⟨hproject, hopen, rfl, rfl⟩ := h
      obtain ⟨htrim, hne, hagain⟩ := fieldKey_again hkey
      refine ⟨hagain, hdf, ?_⟩
      unfold predicateTarget
      rw [predicateKeys_properties]
      simp only [Option.getD_some, htrim, CanonicalFilterField.name, or_true, if_true, hne, if_false,
        hagain, throw_bind, bind_ok]
      exact ⟨validKey, rfl, by simp only [hdf, guard_ok, pure_ok, hproject, hopen]; trivial⟩
  · split at h
    · cases h
    · cases h

variable (rt) in
/-- What is accepted of a predicate's value is accepted again, and as itself. -/
def TargetKept (n : JsObject) : PredicateTarget → Prop
  | .custom key df => ∀ op, validateAndNormalizeCustomFieldOperator
      ((JsObject.get? n "operator").getD .undefined) df.type key = .ok op →
        ¬ op.Valueless → QueryValueKept df.toCustomFieldRow ((JsObject.get? n "value").getD .undefined)
  | .common field =>
    ∀ op, commonOperator rt field ((JsObject.get? n "operator").getD .undefined) = .ok op →
      ¬ op.Valueless → CommonValueKept field op ((JsObject.get? n "value").getD .undefined)

instance (n : JsObject) : DecidablePred (TargetKept rt n)
  | .custom _ _ => inferInstanceAs (Decidable (∀ _, _ → _))
  | .common _ => inferInstanceAs (Decidable (∀ _, _ → _))

variable (rt defsByKey context) in
def PredicateKept (n : JsObject) : Prop :=
  ∀ target, predicateTarget defsByKey context n = .ok target → TargetKept rt n target

instance : DecidablePred (PredicateKept rt defsByKey context) :=
  fun _ => inferInstanceAs (Decidable (∀ _, _ → _))

theorem commonOperator_again {field : CommonTaskField} {rawOperator : JsValue} {op : FilterOperator}
    (h : commonOperator rt field rawOperator = .ok op) :
    commonOperator rt field (.string op.name) = .ok op := by
  unfold commonOperator at h
  split at h
  · rename_i hop
    cases h
    unfold commonOperator loweredText
    simp only [op.lowered_name, operatorOf_name (operatorOf_mem hop)]
  · cases h

/-- **A predicate checked twice.** -/
theorem validatePredicate_again {p : FilterPredicate}
    (h : validatePredicate rt defsByKey context n = .ok p) :
    validatePredicate rt defsByKey context p.properties = .ok p ↔
      PredicateKept rt defsByKey context n := by
  unfold validatePredicate at h
  simp only [bind_ok] at h
  obtain ⟨target, htarget, h⟩ := h
  have hkept : PredicateKept rt defsByKey context n ↔ TargetKept rt n target := by
    unfold PredicateKept
    simp [htarget]
  rw [hkept]
  unfold TargetKept
  cases target with
  | custom key df =>
    simp only [bind_ok, pure_ok] at h
    obtain ⟨⟨key', op, v⟩, hfilter, rfl⟩ := h
    obtain ⟨hkey, hdf, hagain⟩ := predicateTarget_custom htarget op v
    obtain ⟨rfl, hop⟩ := customFilter_ok hkey hdf hfilter
    rw [validatePredicate, hagain, FilterPredicate.get?_operator, FilterPredicate.get?_value]
    simp only [bind_ok, pure_ok, Except.ok.injEq, exists_eq_left', Option.getD_some, hop, forall_eq']
    rw [← customFilter_again hkey hdf hfilter]
    constructor
    · rintro ⟨⟨key'', op'', v''⟩, hsecond, heq⟩
      cases heq
      obtain ⟨rfl, -⟩ := customFilter_ok hkey hdf hsecond
      exact hsecond
    · intro hsecond
      exact ⟨_, hsecond, rfl⟩
  | common field =>
    simp only [bind_ok, pure_ok] at h
    obtain ⟨op, hop, v, hv, rfl⟩ := h
    unfold validatePredicate
    rw [predicateTarget_common, FilterPredicate.get?_operator, FilterPredicate.get?_value]
    simp only [bind_ok, pure_ok, Except.ok.injEq, exists_eq_left', Option.getD_some,
      commonOperator_again hop, FilterPredicate.mk.injEq, true_and, exists_eq_right, hop, forall_eq']
    exact commonValue_again hv

/-! ### Nodes -/

mutual

/-- The counts after a node and what is below it. -/
def FilterNode.counted (counts : NodeCounts) : FilterNode → NodeCounts
  | .predicate _ => { nodes := counts.nodes + 1, predicates := counts.predicates + 1 }
  | .group _ children => countedAll { counts with nodes := counts.nodes + 1 } children

def countedAll (counts : NodeCounts) : List FilterNode → NodeCounts
  | [] => counts
  | node :: nodes => countedAll (node.counted counts) nodes

end

theorem validateNode_group {levels : ℕ} {counts c : NodeCounts} {node : JsValue} {m : FilterNode}
    (hn : nodeFields node = .ok n) (hkind : nodeKind rt n = .ok .group) :
    validateNode rt defsByKey context (levels + 1) counts node = .ok (m, c) ↔
      counts.nodes + 1 ≤ maxAstNodes ∧ ∃ op raws children, groupOperator rt n = .ok op ∧
        groupChildren n = .ok raws ∧
        validateChildren (validateNode rt defsByKey context levels)
          { counts with nodes := counts.nodes + 1 } raws = .ok (children, c) ∧
        m = .group op children := by
  unfold validateNode
  simp only [hn, hkind, bind_ok, throw_bind, guard_ok, pure_ok, Except.ok.injEq, exists_eq_left',
    not_lt, gt_iff_lt, Prod.mk.injEq]
  refine and_congr_right fun _ => ?_
  constructor
  · rintro ⟨op, hop, raws, hraws, ⟨children, c'⟩, hchildren, rfl, rfl⟩
    exact ⟨op, raws, children, hop, hraws, hchildren, rfl⟩
  · rintro ⟨op, raws, children, hop, hraws, hchildren, rfl⟩
    exact ⟨op, hop, raws, hraws, (children, c), hchildren, rfl, rfl⟩

theorem validateNode_predicate {levels : ℕ} {counts c : NodeCounts} {node : JsValue}
    {m : FilterNode} (hn : nodeFields node = .ok n) (hkind : nodeKind rt n = .ok .predicate) :
    validateNode rt defsByKey context (levels + 1) counts node = .ok (m, c) ↔
      counts.nodes + 1 ≤ maxAstNodes ∧ counts.predicates + 1 ≤ maxAstPredicates ∧
        ∃ p, validatePredicate rt defsByKey context n = .ok p ∧ m = .predicate p ∧
          c = { nodes := counts.nodes + 1, predicates := counts.predicates + 1 } := by
  unfold validateNode
  simp only [hn, hkind, bind_ok, throw_bind, guard_ok, pure_ok, Except.ok.injEq, exists_eq_left',
    not_lt, gt_iff_lt, Prod.mk.injEq]
  refine and_congr_right fun _ => and_congr_right fun _ => ?_
  constructor
  · rintro ⟨p, hp, rfl, rfl⟩
    exact ⟨p, hp, rfl, rfl⟩
  · rintro ⟨p, hp, rfl, rfl⟩
    exact ⟨p, hp, rfl, rfl⟩

theorem validateNode_kind {levels : ℕ} {counts : NodeCounts} {node : JsValue}
    {r : FilterNode × NodeCounts}
    (h : validateNode rt defsByKey context (levels + 1) counts node = .ok r) :
    ∃ n kind, nodeFields node = .ok n ∧ nodeKind rt n = .ok kind := by
  unfold validateNode at h
  simp only [bind_ok, throw_bind, guard_ok] at h
  obtain ⟨n, hn, -, kind, hkind, -⟩ := h
  exact ⟨n, kind, hn, hkind⟩

theorem validateChildren_cons {counts c : NodeCounts} {raw : JsValue} {raws : List JsValue}
    {ms : List FilterNode} :
    validateChildren validate counts (raw :: raws) = .ok (ms, c) ↔
      ∃ m c' ms', validate counts raw = .ok (m, c') ∧
        validateChildren validate c' raws = .ok (ms', c) ∧ ms = m :: ms' := by
  rw [validateChildren]
  simp only [bind_ok, pure_ok]
  constructor
  · rintro ⟨⟨m, c'⟩, hm, ⟨ms', c''⟩, hms, heq⟩
    cases heq
    exact ⟨m, c', ms', hm, hms, rfl⟩
  · rintro ⟨m, c', ms', hm, hms, rfl⟩
    exact ⟨(m, c'), hm, (ms', c), hms, rfl⟩

theorem validateChildren_counted
    (hnode : ∀ counts raw m c, validate counts raw = .ok (m, c) → c = m.counted counts) :
    ∀ {raws : List JsValue} {counts c : NodeCounts} {ms : List FilterNode},
      validateChildren validate counts raws = .ok (ms, c) → c = countedAll counts ms
  | [], counts, c, ms, h => by
    cases h
    rfl
  | raw :: raws, counts, c, ms, h => by
    obtain ⟨m, c', ms', hm, hms, rfl⟩ := validateChildren_cons.mp h
    have hfirst := hnode counts raw m c' hm
    have hrest := validateChildren_counted hnode hms
    unfold countedAll
    rw [← hfirst, hrest]

theorem validateNode_counted : ∀ {levels : ℕ} {counts c : NodeCounts} {node : JsValue}
    {m : FilterNode}, validateNode rt defsByKey context levels counts node = .ok (m, c) →
      c = m.counted counts
  | 0, _, _, _, _, h => by cases h
  | levels + 1, counts, c, node, m, h => by
    obtain ⟨n, kind, hn, hkind⟩ := validateNode_kind h
    cases kind with
    | group =>
      obtain ⟨-, op, raws, children, -, -, hchildren, rfl⟩ := (validateNode_group hn hkind).mp h
      exact validateChildren_counted (fun _ _ _ _ => validateNode_counted) hchildren
    | predicate =>
      obtain ⟨-, -, p, -, rfl, rfl⟩ := (validateNode_predicate hn hkind).mp h
      rfl

/-! ### Nodes checked again -/

variable (rt) in
/-- The predicates of a filter as it came. -/
def rawPredicates : (levels : ℕ) → JsValue → List JsObject
  | 0, _ => []
  | levels + 1, node =>
    match nodeFields node with
    | .error _ => []
    | .ok n =>
      match nodeKind rt n, groupChildren n with
      | .ok .predicate, _ => [n]
      | .ok .group, .ok children => children.flatMap (rawPredicates levels)
      | _, _ => []

variable (rt) in
theorem group_toValue (op : GroupOperator) (children : List FilterNode) : ∃ fields,
    nodeFields (FilterNode.group op children).toValue = .ok fields ∧
      nodeKind rt fields = .ok .group ∧ groupOperator rt fields = .ok op ∧
        groupChildren fields = .ok (FilterNode.toValues children) := by
  refine ⟨_, rfl, rfl, ?_, rfl⟩
  have hlow : lowered op.name = op.name := by cases op <;> decide
  have hop : JsObject.get? [("kind", .string "group"), ("operator", .string op.name),
      ("children", .array (FilterNode.toValues children))] "operator" =
        some (.string op.name) := rfl
  unfold groupOperator
  rw [hop]
  simp only [Option.getD_some, loweredText, hlow]
  cases op <;> rfl

theorem validateChildren_again {P : JsValue → Prop}
    (hcount : ∀ counts raw m c, validate counts raw = .ok (m, c) → c = m.counted counts)
    (hagain : ∀ counts raw m c, validate counts raw = .ok (m, c) →
      (validate counts m.toValue = .ok (m, c) ↔ P raw)) :
    ∀ {raws : List JsValue} {counts c : NodeCounts} {ms : List FilterNode},
      validateChildren validate counts raws = .ok (ms, c) →
        (validateChildren validate counts (FilterNode.toValues ms) = .ok (ms, c) ↔
          ∀ raw ∈ raws, P raw)
  | [], counts, c, ms, h => by
    cases h
    exact ⟨fun _ _ hraw => absurd hraw List.not_mem_nil, fun _ => rfl⟩
  | raw :: raws, counts, c, ms, h => by
    obtain ⟨m, c', ms', hm, hms, rfl⟩ := validateChildren_cons.mp h
    have hfirst := hagain counts raw m c' hm
    have hrest := validateChildren_again hcount hagain hms
    rw [List.forall_mem_cons, ← hfirst, ← hrest, FilterNode.toValues, validateChildren_cons]
    constructor
    · rintro ⟨m₂, c₂, ms₂, hm₂, hms₂, heq⟩
      cases heq
      -- the counts in between are those of the first check, since the nodes are the same
      have hsame : c₂ = c' := (hcount _ _ _ _ hm₂).trans (hcount _ _ _ _ hm).symm
      subst hsame
      exact ⟨hm₂, hms₂⟩
    · rintro ⟨hm₂, hms₂⟩
      exact ⟨m, c', ms', hm₂, hms₂, rfl⟩

/-- **A node checked twice**, by induction on the levels that are left. -/
theorem validateNode_again : ∀ {levels : ℕ} {counts c : NodeCounts} {node : JsValue}
    {m : FilterNode}, validateNode rt defsByKey context levels counts node = .ok (m, c) →
      (validateNode rt defsByKey context levels counts m.toValue = .ok (m, c) ↔
        ∀ n ∈ rawPredicates rt levels node, PredicateKept rt defsByKey context n)
  | 0, _, _, _, _, h => by cases h
  | levels + 1, counts, c, node, m, h => by
    obtain ⟨n, kind, hn, hkind⟩ := validateNode_kind h
    cases kind with
    | group =>
      obtain ⟨hnodes, op, raws, children, hop, hraws, hchildren, rfl⟩ :=
        (validateNode_group hn hkind).mp h
      have hagain := validateChildren_again
        (P := fun raw => ∀ p ∈ rawPredicates rt levels raw, PredicateKept rt defsByKey context p)
        (fun _ _ _ _ => validateNode_counted) (fun _ _ _ _ => validateNode_again) hchildren
      have hpredicates : rawPredicates rt (levels + 1) node =
          raws.flatMap (rawPredicates rt levels) := by
        simp only [rawPredicates, hn, hkind, hraws]
      obtain ⟨fields, hfields, hkind', hop', hraws'⟩ := group_toValue rt op children
      rw [validateNode_group hfields hkind', hpredicates]
      simp only [hop', hraws', Except.ok.injEq, exists_and_left, exists_eq_left', hnodes, true_and,
        FilterNode.group.injEq, exists_eq_right', List.mem_flatMap, forall_exists_index, and_imp]
      exact hagain.trans ⟨fun hkept n raw hraw hn => hkept raw hraw n hn,
        fun hkept raw hraw n hn => hkept n raw hraw hn⟩
    | predicate =>
      obtain ⟨hnodes, hcount, p, hp, rfl, rfl⟩ := (validateNode_predicate hn hkind).mp h
      have hpredicates : rawPredicates rt (levels + 1) node = [n] := by
        simp only [rawPredicates, hn, hkind]
      have hfields : nodeFields (FilterNode.predicate p).toValue = .ok p.properties := rfl
      have hkind' : nodeKind rt p.properties = .ok .predicate := rfl
      rw [validateNode_predicate hfields hkind', hpredicates, List.forall_mem_singleton,
        ← validatePredicate_again hp]
      simp [hnodes, hcount]

/-- **A filter checked twice.** -/
theorem checked_again_iff {raw : JsValue} {node : FilterNode}
    (h : validateAndNormalizeAdvancedFilterAst rt defsByKey context raw = .ok node) :
    validateAndNormalizeAdvancedFilterAst rt defsByKey context node.toValue = .ok node ↔
      ∀ n ∈ rawPredicates rt maxAstDepth raw, PredicateKept rt defsByKey context n := by
  unfold validateAndNormalizeAdvancedFilterAst at h ⊢
  obtain ⟨⟨m, c⟩, hm, rfl⟩ := map_ok.mp h
  rw [← validateNode_again hm, map_ok]
  constructor
  · rintro ⟨⟨m', c'⟩, hm', hsame⟩
    cases hsame
    have hcount : c' = c := (validateNode_counted hm').trans (validateNode_counted hm).symm
    exact hcount ▸ hm'
  · exact fun hm' => ⟨(m, c), hm', rfl⟩

end Validate

/-! ### Filters that are checked again -/

section Examples

/-- Two options, the label of the first being the value of the second. -/
def sizes : DefsByKey := fun key =>
  if key = "size" then some {
    key, type := .singleSelect, organizationId := 1, workspaceId := 1
    options := [{ label := "m", value := "s" }, { label := "Medium", value := "m" }] }
  else none

def sizeIs (value : JsValue) : FilterNode :=
  .predicate { field := .customField, customFieldKey := some "size", operator := .equals, value }

def dueAfter (value : JsValue) : FilterNode :=
  .predicate { field := .common .dueDate, operator := .after, value }

/-- A group with a prefix, an alias, a date with an offset and a number as a text. -/
def checkedGroup : JsValue := .object [("kind", .string "group"), ("operator", .string " AND "),
  ("children", .array [
    .object [("kind", .string "predicate"), ("field", .string "customField:size"),
      ("operator", .string "Equals"), ("value", .string " m")],
    .object [("kind", .string "predicate"), ("field", .string "DueDate"),
      ("operator", .string "after"), ("value", .string "2024-03-01T00:30:00+01:00")],
    .object [("kind", .string "predicate"), ("field", .string "progress"),
      ("operator", .string "between"), ("value", .array [.string "0x10", .string "5e1"])]])]

/-- The group passes twice. -/
theorem checked_again_group : ∃ node,
    validateAndNormalizeAdvancedFilterAst utcRuntime sizes {} checkedGroup = .ok node ∧
      validateAndNormalizeAdvancedFilterAst utcRuntime sizes {} node.toValue = .ok node := by
  have hkept : ∀ n ∈ rawPredicates utcRuntime maxAstDepth checkedGroup,
      PredicateKept utcRuntime sizes {} n := by
    decide
  have hok : (validateAndNormalizeAdvancedFilterAst utcRuntime sizes {} checkedGroup).toOption.any
      (fun _ => true) = true := by
    decide +kernel
  obtain ⟨node, hnode, -⟩ := exists_ok hok
  exact ⟨node, hnode, (checked_again_iff hnode).mpr hkept⟩

/-- The value that stands for the second option is taken for the first one, and a date of a year
without four digits is refused. -/
theorem taken_for_another :
    (validateAndNormalizeAdvancedFilterAst utcRuntime sizes {} (sizeIs (.string "Medium")).toValue =
        .ok (sizeIs (.string "m")) ∧
      validateAndNormalizeAdvancedFilterAst utcRuntime sizes {} (sizeIs (.string "m")).toValue =
        .ok (sizeIs (.string "s")) ∧
      sizeIs (.string "s") ≠ sizeIs (.string "m")) ∧
    validateAndNormalizeAdvancedFilterAst utcRuntime sizes {}
        (dueAfter (.string "9999-12-31T23:59:59-01:00")).toValue =
      .ok (dueAfter (.string "+010000-01-01T00:59:59.000Z")) ∧
    validateAndNormalizeAdvancedFilterAst utcRuntime sizes {}
        (dueAfter (.string "+010000-01-01T00:59:59.000Z")).toValue =
      .error (.conflict "Field 'dueDate' requires a valid ISO date string") := by
  refine ⟨⟨rfl, rfl, ?_⟩, rfl, rfl⟩
  simp [sizeIs]

end Examples

end CalmBoard.Filters
