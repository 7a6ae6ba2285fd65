import CalmBoard.CustomFields.Query
import CalmBoard.CustomFields.Record

/-!
# CalmBoard.CustomFields.QueryKept — filter values that are checked again

A filter is checked when it is stored and again when it is used, so the second check sees what the
first one made of a value.

* `queryValue_text`, `queryValue_date`, `queryValue_select`: what a check accepts, by type.
* `queryValue_again`: when a checked value is accepted again, and as itself.
* `customFilter_again`: the same for a filter on one custom field.
-/

namespace CalmBoard.CustomFields

open Text Fallible

section Value

variable {rt : Runtime} {df : CustomFieldRow} {op : FilterOperator} {raw v : JsValue}

theorem queryValue_text (htype : df.type = .shortText ∨ df.type = .url) (hop : ¬ op.Valueless) :
    validateAndNormalizeCustomFilterValue rt df op raw = .ok v ↔
      ∃ s, raw = .string s ∧ v = .string (trim s) ∧
        (trim s = "" → op = .equals ∨ op = .notEquals) ∧ utf16Length (trim s) ≤ 10000 := by
  unfold validateAndNormalizeCustomFilterValue
  rw [if_neg hop]
  cases raw with
  | string s =>
    have hzero : utf16Length "" = 0 := rfl
    by_cases hs : trim s = ""
    · by_cases heq : op = .equals ∨ op = .notEquals
      · rcases htype with htype | htype <;> simp [htype, hs, heq, hzero, eq_comm (a := v)]
      · rcases htype with htype | htype <;> simp [htype, hs, heq]
    · by_cases hlen : utf16Length (trim s) > 10000
      · rcases htype with htype | htype <;> simp [htype, hs, hlen]
      · rcases htype with htype | htype <;> simp [htype, hs, hlen, not_lt.mp hlen, eq_comm (a := v)]
  | _ => rcases htype with htype | htype <;> simp [htype]

theorem queryValue_date (htype : df.type = .date) (hop : ¬ op.Valueless) :
    validateAndNormalizeCustomFilterValue rt df op raw = .ok v ↔
      ∃ ms, isoTimeOf raw = some ms ∧ v = isoValue ms := by
  unfold validateAndNormalizeCustomFilterValue
  rw [if_neg hop]
  cases raw with
  | string s =>
    simp only [htype, isoTimeOf, parseAndValidateIsoDate_eq]
    split_ifs with hs
    · have hnone : isoTime (trim s).toList = none := by rw [hs]; rfl
      rw [hnone]
      simp
    · cases isoTime (trim s).toList with
      | none => simp
      | some ms => simp [isoValue, eq_comm (a := v)]
  | date d =>
    cases d with
    | invalid => simp [htype, isoTimeOf]
    | time ms => simp [htype, isoTimeOf, isoValue, eq_comm (a := v)]
  | _ => simp [htype, isoTimeOf]

theorem queryValue_select (htype : df.type = .singleSelect) (hop : ¬ op.Valueless) :
    validateAndNormalizeCustomFilterValue rt df op raw = .ok v ↔
      ∃ s o, raw = .string s ∧ trim s ≠ "" ∧ chosen df s = some o ∧ v = .string o.value := by
  unfold validateAndNormalizeCustomFilterValue
  rw [if_neg hop]
  cases raw with
  | string s =>
    simp only [htype]
    split_ifs with hs
    · simp [hs]
    · unfold chosen
      cases hfind : df.options.find? fun opt => opt.value = trim s || opt.label = trim s with
      | none => simp [hfind]
      | some o => simp [hs, hfind, eq_comm (a := v)]
  | _ => simp [htype]

/-! ### Checked again -/

variable (df) in
/-- The option that a text stands for has a value that stands for an option of that value. -/
def OptionKept (s : String) : Prop :=
  ∀ o ∈ chosen df s, trim o.value ≠ "" ∧
    (chosen df o.value).map CustomFieldOption.value = some o.value

instance (s : String) : Decidable (OptionKept df s) := inferInstanceAs (Decidable (∀ _, _ → _))

variable (df raw) in
/-- What is accepted of the value is accepted again, and as itself. -/
def QueryValueKept : Prop :=
  match df.type, raw with
  | .date, raw => ∀ ms ∈ isoTimeOf raw, FourDigits ms
  | .singleSelect, .string s => OptionKept df s
  | _, _ => True

instance : Decidable (QueryValueKept df raw) := by
  unfold QueryValueKept
  match df.type, raw with
  | .date, _ | .singleSelect, .string _ => dsimp only; infer_instance
  | .singleSelect, .undefined | .singleSelect, .null | .singleSelect, .boolean _
  | .singleSelect, .number _ | .singleSelect, .date _ | .singleSelect, .array _
  | .singleSelect, .object _ => exact .isTrue trivial
  | .shortText, _ | .number, _ | .checkbox, _ | .url, _ => exact .isTrue trivial

theorem queryValue_finite {q : ℚ} (htype : df.type = .number) (hop : ¬ op.Valueless) :
    validateAndNormalizeCustomFilterValue rt df op (.number (.fin q)) = .ok (.number (.fin q)) := by
  unfold validateAndNormalizeCustomFilterValue
  rw [if_neg hop]
  simp only [htype]

theorem queryValue_number (htype : df.type = .number) (hop : ¬ op.Valueless)
    (h : validateAndNormalizeCustomFilterValue rt df op raw = .ok v) : ∃ q, v = .number (.fin q) := by
  unfold validateAndNormalizeCustomFilterValue at h
  rw [if_neg hop] at h
  cases raw with
  | number n =>
    cases n with
    | fin q =>
      simp only [htype] at h
      cases h
      exact ⟨q, rfl⟩
    | _ => simp [htype] at h
  | string s =>
    simp only [htype] at h
    split_ifs at h with hs
    cases h
    rw [Bool.and_eq_true] at hs
    cases hn : stringToNumber rt (trim s) with
    | fin q => exact ⟨q, rfl⟩
    | _ =>
      rw [hn] at hs
      cases hs.2
  | _ => simp [htype] at h

theorem queryValue_checkbox (htype : df.type = .checkbox) (hop : ¬ op.Valueless)
    (h : validateAndNormalizeCustomFilterValue rt df op raw = .ok v) :
    validateAndNormalizeCustomFilterValue rt df op v = .ok v := by
  have hbool : ∃ b, v = .boolean b := by
    unfold validateAndNormalizeCustomFilterValue at h
    rw [if_neg hop] at h
    cases raw with
    | boolean b =>
      simp only [htype] at h
      cases h
      exact ⟨b, rfl⟩
    | string s =>
      simp only [htype] at h
      split_ifs at h
      · cases h
        exact ⟨true, rfl⟩
      · cases h
        exact ⟨false, rfl⟩
    | _ => simp [htype] at h
  obtain ⟨b, rfl⟩ := hbool
  unfold validateAndNormalizeCustomFilterValue
  rw [if_neg hop]
  simp only [htype]

/-- **A value checked twice.** -/
theorem queryValue_again (h : validateAndNormalizeCustomFilterValue rt df op raw = .ok v) :
    validateAndNormalizeCustomFilterValue rt df op v = .ok v ↔
      (¬ op.Valueless → QueryValueKept df raw) := by
  by_cases hop : op.Valueless
  · have hv : v = .undefined := by
      unfold validateAndNormalizeCustomFilterValue at h
      rw [if_pos hop] at h
      cases h
      rfl
    unfold validateAndNormalizeCustomFilterValue
    rw [if_pos hop, hv]
    exact ⟨fun _ hno => absurd hop hno, fun _ => rfl⟩
  · have hkept : ∀ {P : Prop}, (P ↔ QueryValueKept df raw) →
        (P ↔ (¬ op.Valueless → QueryValueKept df raw)) := by
      intro P hP
      rw [hP]
      exact ⟨fun hk _ => hk, fun hk => hk hop⟩
    apply hkept
    unfold QueryValueKept
    cases htype : df.type with
    | shortText =>
      obtain ⟨s, -, rfl, hs⟩ := (queryValue_text (Or.inl htype) hop).mp h
      rw [queryValue_text (Or.inl htype) hop]
      simpa using hs
    | url =>
      obtain ⟨s, -, rfl, hs⟩ := (queryValue_text (Or.inr htype) hop).mp h
      rw [queryValue_text (Or.inr htype) hop]
      simpa using hs
    | number =>
      obtain ⟨q, rfl⟩ := queryValue_number htype hop h
      simpa using queryValue_finite htype hop
    | checkbox => simpa using queryValue_checkbox htype hop h
    | date =>
      obtain ⟨ms, hms, rfl⟩ := (queryValue_date htype hop).mp h
      rw [queryValue_date htype hop, isoTimeOf_isoValue]
      by_cases hfour : FourDigits ms
      · simp [hfour, hms]
      · simp [hfour, hms]
    | singleSelect =>
      obtain ⟨s, o, rfl, -, ho, rfl⟩ := (queryValue_select htype hop).mp h
      rw [queryValue_select htype hop]
      have hoption : OptionKept df s ↔
          trim o.value ≠ "" ∧ (chosen df o.value).map CustomFieldOption.value = some o.value := by
        unfold OptionKept
        simp [ho]
      simp only [hoption, Option.map_eq_some_iff]
      constructor
      · rintro ⟨s', o', hs', hne, ho', hsame⟩
        cases hs'
        exact ⟨hne, o', ho', (JsValue.string.inj hsame).symm⟩
      · rintro ⟨hne, o', ho', hsame⟩
        exact ⟨o.value, o', rfl, hne, ho', congrArg JsValue.string hsame.symm⟩

end Value

/-! ### Filters checked again -/

variable {key : String}

theorem fieldKey_again {raw : JsValue} (h : validateCustomFieldKey raw = .ok key) :
    trim key = key ∧ key ≠ "" ∧ validateCustomFieldKey (.string key) = .ok key := by
  unfold validateCustomFieldKey at h
  simp only [throw_bind, guard_ok, pure_ok] at h
  obtain ⟨hne, hlen, hchars, hfree, hkey⟩ := h
  have htrim := trim_trimmedText (some raw)
  rw [hkey] at hne hlen hchars hfree htrim
  have hagain : trimmedText (some (.string key)) = key := htrim
  refine ⟨htrim, hne, ?_⟩
  unfold validateCustomFieldKey
  simp only [throw_bind, guard_ok, pure_ok]
  rw [hagain]
  exact ⟨hne, hlen, hchars, hfree, rfl⟩

theorem customOperator_mem {raw : JsValue} {type : CustomFieldType} {op : FilterOperator}
    (h : validateAndNormalizeCustomFieldOperator raw type key = .ok op) :
    op ∈ operatorsByType type := by
  unfold validateAndNormalizeCustomFieldOperator at h
  split at h
  · split at h
    · rename_i hop
      cases h
      exact operatorOf_mem hop
    · cases h
  · cases h

theorem customOperator_name {type : CustomFieldType} {op : FilterOperator}
    (h : op ∈ operatorsByType type) :
    validateAndNormalizeCustomFieldOperator (.string op.name) type key = .ok op := by
  unfold validateAndNormalizeCustomFieldOperator
  simp only [op.lowered_name, operatorOf_name h]

section Filter

variable {rt : Runtime} {defsByKey : DefsByKey} {organizationId workspaceId : Uuid}
  {projectId : Option Uuid}

theorem customFilter_ok {key' : String} {df : FilterDefinition} {operator value v : JsValue}
    {op : FilterOperator} (hkey : validateCustomFieldKey (.string key) = .ok key)
    (hdf : defsByKey key = some df)
    (h : validateAndNormalizeCustomFieldFilter rt defsByKey organizationId workspaceId projectId
      (.string key) operator value = .ok (key', op, v)) :
    key' = key ∧ validateAndNormalizeCustomFieldOperator operator df.type key = .ok op := by
  unfold validateAndNormalizeCustomFieldFilter at h
  simp only [hkey, bind_ok, Except.ok.injEq, exists_eq_left', hdf, throw_bind, guard_ok, pure_ok,
    Prod.mk.injEq] at h
  obtain ⟨-, -, -, -, op', hop, v', -, rfl, rfl, rfl⟩ := h
  exact ⟨rfl, hop⟩

/-- **A filter checked twice**: only the value can be taken for something else. -/
theorem customFilter_again {df : FilterDefinition} {operator value v : JsValue}
    {op : FilterOperator} (hkey : validateCustomFieldKey (.string key) = .ok key)
    (hdf : defsByKey key = some df)
    (h : validateAndNormalizeCustomFieldFilter rt defsByKey organizationId workspaceId projectId
      (.string key) operator value = .ok (key, op, v)) :
    validateAndNormalizeCustomFieldFilter rt defsByKey organizationId workspaceId projectId
        (.string key) (.string op.name) v = .ok (key, op, v) ↔
      (¬ op.Valueless → QueryValueKept df.toCustomFieldRow value) := by
  unfold validateAndNormalizeCustomFieldFilter at h ⊢
  simp only [hkey, bind_ok, Except.ok.injEq, exists_eq_left', hdf, throw_bind, guard_ok, pure_ok,
    Prod.mk.injEq, true_and] at h ⊢
  obtain ⟨hplace, hproject, hlive, hopen, op', hop, v', hv, rfl, rfl⟩ := h
  rw [← queryValue_again hv]
  simp only [hplace, hproject, hlive, hopen, customOperator_name (customOperator_mem hop),
    Except.ok.injEq, exists_eq_left', Bool.false_eq_true, not_false_eq_true, true_and,
    exists_eq_right]

end Filter

end CalmBoard.CustomFields
