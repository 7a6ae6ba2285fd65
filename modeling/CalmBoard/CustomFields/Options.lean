import CalmBoard.CustomFields.Record
import CalmBoard.System

/-!
# CalmBoard.CustomFields.Options — which option a select value stands for

A text stands for the first option whose value or label it is; only the values are compared when a
definition is created.

* `find?_option`: the option found for the value of an option.
* `option_stored_iff`: the options that can be selected and stay selected.
-/

namespace CalmBoard.CustomFields

open Text Fallible

theorem find?_option {before after : List CustomFieldOption} {o : CustomFieldOption}
    (hnodup : ((before ++ o :: after).map CustomFieldOption.value).Nodup) :
    ∃ m, (before ++ o :: after).find? (fun opt => opt.value = o.value || opt.label = o.value) =
        some m ∧ (m.value = o.value ↔ ∀ p ∈ before, p.label ≠ o.value) := by
  rw [List.map_append, List.map_cons, List.nodup_append] at hnodup
  have hbefore : ∀ p ∈ before, p.value ≠ o.value := fun p hp =>
    hnodup.2.2 p.value (List.mem_map_of_mem hp) o.value List.mem_cons_self
  rw [List.find?_append]
  cases hfind : before.find? fun opt => opt.value = o.value || opt.label = o.value with
  | some m =>
    have hmem := List.mem_of_find?_eq_some hfind
    have hmatch := List.find?_some hfind
    rw [Bool.or_eq_true, decide_eq_true_eq, decide_eq_true_eq] at hmatch
    refine ⟨m, rfl, fun hvalue => absurd hvalue (hbefore m hmem), fun hlabels => ?_⟩
    exact hmatch.resolve_right (hlabels m hmem)
  | none =>
    refine ⟨o, by simp, fun _ p hp hlabel => ?_, fun _ => rfl⟩
    refine List.find?_eq_none.mp hfind p hp ?_
    rw [Bool.or_eq_true, decide_eq_true_eq, decide_eq_true_eq]
    exact Or.inr hlabel

variable {raw : CreateCustomFieldInput} {df : CustomFieldDefinition}
variable {before after : List ConfiguredOption} {o : ConfiguredOption}

theorem chosen_option (haccepted : validateCustomFieldDefinition raw = .ok df)
    (hoptions : df.options = before ++ o :: after) :
    ∃ m, chosen df.row o.value = some m ∧ (m.value = o.value ↔ ∀ p ∈ before, p.label ≠ o.value) := by
  have hvalid := valid_of_accepted haccepted
  have hmem : o ∈ df.options := hoptions ▸ List.mem_append_right before List.mem_cons_self
  have hrow : df.row.options = before.map ConfiguredOption.toCustomFieldOption ++
      o.toCustomFieldOption :: after.map ConfiguredOption.toCustomFieldOption := by
    unfold CustomFieldDefinition.row
    rw [hoptions, List.map_append, List.map_cons]
  have hnodup : (df.row.options.map CustomFieldOption.value).Nodup := by
    unfold CustomFieldDefinition.row
    rw [List.map_map]
    exact hvalid.nodup
  unfold chosen
  rw [(hvalid.values o hmem).1]
  rw [hrow] at hnodup ⊢
  obtain ⟨m, hm, hiff⟩ := find?_option hnodup
  refine ⟨m, hm, hiff.trans ?_⟩
  simp only [List.forall_mem_map]

theorem not_ignored_merged_iff {isCreate : Bool} {existing input : JsObject} {key : String}
    (hkey : key ∉ systemMetadataKeys) : ¬ Ignored (merged isCreate existing input) key ↔
      (key = "__proto__" → isCreate = false ∧ (JsObject.get? existing key).isSome = true) := by
  unfold Ignored
  rw [get?_merged hkey, not_and]
  refine forall_congr' fun _ => ?_
  cases isCreate with
  | true => simp
  | false => simp [Option.isSome_iff_ne_none]

theorem update_one {rt : Runtime} {projectId : Uuid} {definitions : List CustomFieldRow}
    {e : CustomFieldRow} {existing : JsObject} {value w : JsValue} (hkey : e.key ∉ systemMetadataKeys)
    (hdef : defByKey definitions e.key = some e) (hproject : e.projectId.all (· = projectId) = true)
    (hvalue : ¬ Blank value) (hw : normalizeAndValidateFieldValue rt e value = .ok (some w)) :
    ∃ result, validateAndNormalizeTaskCustomFields rt projectId (some [(e.key, value)]) definitions
      false existing = .ok result := by
  have hkeys : checkKeys projectId definitions [(e.key, value)] = .ok () := by
    have hscope : ¬ e.projectId.any (· ≠ projectId) = true := by
      cases hp : e.projectId with
      | none => simp
      | some p => simpa [hp] using hproject
    unfold checkKeys
    rw [forIn_total fun a ha => ?_, forIn_total fun a ha => ?_]
    · rfl
    · cases List.mem_singleton.mp ha
      dsimp only
      rw [if_pos hkey, hdef]
      exact if_neg hscope
    · cases List.mem_singleton.mp ha
      dsimp only
      rw [if_pos hkey, hdef]
      rfl
  have hfield : ∀ r, applyField rt false definitions r (e.key, value) =
      .ok (assign r e.key w) := by
    intro r
    unfold applyField
    rw [if_neg hkey, hdef]
    cases value with
    | undefined => exact absurd trivial hvalue
    | null => exact absurd trivial hvalue
    | boolean | number | string | date | array | object =>
      simp only [hw]
      rfl
  have hfold : [(e.key, value)].foldlM (applyField rt false definitions)
      (merged false existing [(e.key, value)]) =
        .ok (assign (merged false existing [(e.key, value)]) e.key w) := by
    rw [List.foldlM_cons, hfield]
    rfl
  exact ⟨_, bind_ok.mpr ⟨(), hkeys, bind_ok.mpr ⟨_, hfold, rfl⟩⟩⟩

/-- **Options**: the value of an option is stored as it is if and only if no earlier option has it as
its label, and the key is not `__proto__` in a record without such a key.  This is so for a new
selection and for a record that is saved again; a new selection for the project is never refused. -/
theorem option_stored_iff (haccepted : validateCustomFieldDefinition raw = .ok df)
    (htype : df.type = .singleSelect) (hoptions : df.options = before ++ o :: after) (rt : Runtime)
    (projectId : Uuid) (definitions : List CustomFieldRow) (existing : JsObject)
    (hdef : defByKey definitions df.key = some df.row) :
    (∀ input isCreate result, (input.map Prod.fst).Nodup → (df.key, .string o.value) ∈ input →
      validateAndNormalizeTaskCustomFields rt projectId (some input) definitions isCreate existing =
        .ok result →
      (JsObject.get? result df.key = some (.string o.value) ↔
        (∀ p ∈ before, p.label ≠ o.value) ∧ (df.key = "__proto__" →
          isCreate = false ∧ (JsObject.get? existing df.key).isSome = true))) ∧
    (df.projectId.all (· = projectId) = true →
      ∃ result, validateAndNormalizeTaskCustomFields rt projectId
        (some [(df.key, .string o.value)]) definitions false existing = .ok result) := by
  have hvalid := valid_of_accepted haccepted
  have hmem : o ∈ df.options := hoptions ▸ List.mem_append_right before List.mem_cons_self
  obtain ⟨htrim, hne⟩ := hvalid.values o hmem
  have hvalue : ¬ Blank (.string o.value) := fun hblank => hne (htrim.symm.trans hblank)
  obtain ⟨m, hm, hiff⟩ := chosen_option haccepted hoptions
  have hselect : normalizeAndValidateFieldValue rt df.row (.string o.value) =
      .ok (some (.string m.value)) := normalize_select rt htype hvalue hm
  refine ⟨fun input isCreate result hnodup hin h => ?_, fun hproject => ?_⟩
  · obtain ⟨-, hfold, -⟩ := validated_ok h
    obtain ⟨w, hw, hget⟩ := written_value hvalid.key_free hdef hnodup hin hfold
    cases hselect.symm.trans hw
    have hcan : ¬ Ignored (merged isCreate existing input) df.key ↔ _ :=
      not_ignored_merged_iff hvalid.key_free
    rw [hget, ← hiff, ← hcan, Option.getD_some]
    by_cases hignored : Ignored (merged isCreate existing input) df.key
    · simp [hignored]
    · simp [hignored]
  · exact update_one hvalid.key_free hdef hproject hvalue hselect

/-! The second option has the label of the first one as its value. -/

def optionInput (label value : String) : JsValue :=
  .object [("label", .string label), ("value", .string value)]

def stageInput : CreateCustomFieldInput where
  name := .string "Stage"
  key := .string "stage"
  type := .string "single_select"
  options := .array [optionInput "b" "a", optionInput "c" "b"]

def stageField : CustomFieldDefinition where
  name := "Stage"
  key := "stage"
  type := .singleSelect
  projectId := none
  description := none
  required := false
  sensitive := false
  options := [{ label := "b", value := "a" }, { label := "c", value := "b" }]
  order := .fin 10

theorem option_stored_first : ∃ result,
    validateAndNormalizeTaskCustomFields utcRuntime 7 (some [("stage", .string "a")]) [stageField.row]
      false [("stage", .string "b")] = .ok result ∧
    JsObject.get? result "stage" = some (.string "a") := by
  have haccepted : validateCustomFieldDefinition stageInput = .ok stageField := by decide
  have hoptions : stageField.options = [] ++ { label := "b", value := "a" } ::
      [{ label := "c", value := "b" }] := rfl
  obtain ⟨hstored, htotal⟩ := option_stored_iff haccepted rfl hoptions utcRuntime 7 [stageField.row]
    [("stage", .string "b")] rfl
  obtain ⟨result, hresult⟩ := htotal rfl
  refine ⟨result, hresult, (hstored _ false result (by simp) List.mem_cons_self hresult).mpr ⟨?_, ?_⟩⟩
  · simp
  · decide

/-- Option `b` cannot be selected, and a stored `b` becomes `a` when the record is saved again. -/
theorem option_replaced :
    validateCustomFieldDefinition stageInput = .ok stageField ∧
    validateAndNormalizeTaskCustomFields utcRuntime 7 (some [("stage", .string "b")]) [stageField.row]
      true [] = .ok [("stage", .string "a")] ∧
    validateAndNormalizeTaskCustomFields utcRuntime 7 (some [("stage", .string "b")]) [stageField.row]
      false [("stage", .string "b")] = .ok [("stage", .string "a")] :=
  ⟨by decide, rfl, rfl⟩

end CalmBoard.CustomFields
