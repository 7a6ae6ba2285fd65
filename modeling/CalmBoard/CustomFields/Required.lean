import CalmBoard.CustomFields.Record
import CalmBoard.System

/-!
# CalmBoard.CustomFields.Required — what creates and updates of a task keep

* `Merged`, `merged_of_ok`: the record after a call that succeeds.
* `RequiredFilled`: every required field that applies has a value.
* `custom_fields_kept`: a create and any updates after it.

A definition of the workspace and one of the project may have the same key; the later one is looked up
where a value is written.
-/

namespace CalmBoard.CustomFields

open Text Fallible

variable {rt : Runtime} {projectId : Uuid} {definitions : List CustomFieldRow} {isCreate : Bool}
variable {existing input result : JsObject}

/-! ### The merged record -/

variable {customFieldsInput : Option JsObject}

/-- What a call that succeeds leaves under each key. -/
structure Merged (rt : Runtime) (projectId : Uuid) (definitions : List CustomFieldRow) (isCreate : Bool)
    (existing input result : JsObject) : Prop where
  kept : isCreate = false → ∀ key ∉ input.map Prod.fst,
    JsObject.get? result key = JsObject.get? existing key
  fresh : isCreate = true → ∀ key ∉ input.map Prod.fst, key ∉ systemMetadataKeys →
    JsObject.get? result key = none
  metadata_kept : ∀ key ∈ systemMetadataKeys, key ∉ input.map Prod.fst →
    JsObject.get? result key = JsObject.get? existing key
  metadata_given : ∀ key ∈ systemMetadataKeys, key ∈ input.map Prod.fst →
    ∃ value, (key, value) ∈ input ∧ JsObject.get? result key = some value
  written : ∀ key ∈ input.map Prod.fst, key ∉ systemMetadataKeys →
    ∃ df, defByKey definitions key = some df ∧ df.projectId.all (· = projectId) = true ∧
      ∀ value, JsObject.get? result key = some value → NormalForm rt df value

theorem form_of_applied {r r' : JsObject} {entry : String × JsValue} {df : CustomFieldRow}
    (hkey : entry.1 ∉ systemMetadataKeys) (hdef : defByKey definitions entry.1 = some df)
    (h : applyField rt isCreate definitions r entry = .ok r') {value : JsValue}
    (hvalue : JsObject.get? r' entry.1 = some value) : NormalForm rt df value := by
  obtain ⟨w, hw, rfl⟩ := applyField_ok hkey hdef h
  rw [get?_store] at hvalue
  split at hvalue
  · cases hvalue
  · exact ((normalize_ok hw).stored value hvalue).1

/-- **The merged record.** -/
theorem merged_of_ok
    (h : validateAndNormalizeTaskCustomFields rt projectId customFieldsInput definitions isCreate
      existing = .ok result) :
    Merged rt projectId definitions isCreate existing (customFieldsInput.getD []) result := by
  obtain ⟨hkeys, hfold, -⟩ := validated_ok h
  generalize customFieldsInput.getD [] = input at hkeys hfold ⊢
  have hout : ∀ key ∉ input.map Prod.fst, JsObject.get? result key =
      JsObject.get? (merged isCreate existing input) key :=
    fun key hkey => applyFields_frame (Or.inr hkey) hfold
  have hsystem : ∀ key ∈ systemMetadataKeys, JsObject.get? result key =
      (JsObject.get? input.reverse key).or (JsObject.get? existing key) :=
    fun key hkey => (applyFields_frame (Or.inl hkey) hfold).trans (get?_merged_system hkey)
  have hmetadata : ∀ key ∈ systemMetadataKeys, key ∉ input.map Prod.fst →
      JsObject.get? result key = JsObject.get? existing key := by
    intro key hkey hnot
    rw [hsystem key hkey, get?_reverse_eq_none hnot, Option.none_or]
  refine ⟨fun hupdate key hkey => ?_, fun hcreate key hkey hnot => ?_, hmetadata,
    fun key hkey hgiven => ?_, fun key hkey hnot => ?_⟩
  · by_cases hin : key ∈ systemMetadataKeys
    · exact hmetadata key hin hkey
    · rw [hout key hkey, get?_merged hin, hupdate]
      rfl
  · rw [hout key hkey, get?_merged hnot, hcreate]
    rfl
  · cases hget : JsObject.get? input.reverse key with
    | none =>
      rw [get?_eq_none_iff, List.map_reverse, List.mem_reverse] at hget
      exact absurd hgiven hget
    | some value =>
      refine ⟨value, List.mem_reverse.mp (mem_of_get? hget), ?_⟩
      rw [hsystem key hkey, hget, Option.some_or]
  · obtain ⟨df, hdef, hproject⟩ := checkKeys_ok hkeys hkey hnot
    obtain ⟨entry, hentry, rfl⟩ := List.mem_map.mp hkey
    refine ⟨df, hdef, hproject, ?_⟩
    refine foldlM_reaches (I := fun _ => True)
      (G := fun r => ∀ value, JsObject.get? r entry.1 = some value → NormalForm rt df value) hentry hfold
      trivial (fun _ _ _ _ _ _ => trivial) (fun r t _ ht value => form_of_applied hnot hdef ht) ?_
    intro r e t _ hr ht value hvalue
    by_cases hsame : e.1 = entry.1
    · rw [← hsame] at hvalue hnot hdef
      exact form_of_applied hnot hdef ht hvalue
    · exact hr value ((applyField_frame (Or.inr hsame) ht).symm.trans hvalue)

/-! ### Required fields -/

/-- Under the key is a value that is not blank. -/
def Filled (o : JsObject) (key : String) : Prop :=
  ∃ value, JsObject.get? o key = some value ∧ ¬ Blank value

def RequiredFilled (projectId : Uuid) (definitions : List CustomFieldRow) (o : JsObject) : Prop :=
  ∀ df ∈ definitions, RequiredIn projectId df → Filled o df.key

theorem filled_of_valid {df : CustomFieldRow} {o : JsObject}
    (h : isValidNonEmptyValue df (JsObject.get? o df.key) = true) : Filled o df.key := by
  unfold isValidNonEmptyValue at h
  split at h
  · cases h
  · cases h
  · cases h
  · rename_i hget
    exact ⟨_, hget, not_blank_boolean _⟩
  · rename_i hget
    exact ⟨_, hget, not_blank_number _⟩
  · rename_i hget
    exact ⟨_, hget, of_decide_eq_true h⟩
  · rename_i hget
    exact ⟨_, hget, of_decide_eq_true h⟩
  · rename_i hget
    exact ⟨_, hget, of_decide_eq_true h⟩
  · rename_i hget
    rw [Bool.and_eq_true] at h
    exact ⟨_, hget, of_decide_eq_true h.1⟩
  · rename_i hget
    exact ⟨_, hget, not_blank_date _⟩
  · cases h

theorem create_fills
    (h : validateAndNormalizeTaskCustomFields rt projectId customFieldsInput definitions true
      existing = .ok result) : RequiredFilled projectId definitions result :=
  fun df hdf hrequired => filled_of_valid ((validated_ok h).2.2 rfl df hdf hrequired)

/-- An update with this value does not empty the key, or is refused. -/
def Fills (definitions : List CustomFieldRow) (key : String) (value : JsValue) : Prop :=
  (key ∈ systemMetadataKeys → ¬ Blank value) ∧
    (key ∉ systemMetadataKeys → ∀ df, defByKey definitions key = some df →
      (Blank value → df.required = true) ∧ ¬ ChosenBlank df value)

/-- The update does not empty a required field, or is refused. -/
def FillsRequired (projectId : Uuid) (definitions : List CustomFieldRow) (input : JsObject) : Prop :=
  ∀ df ∈ definitions, RequiredIn projectId df → ∀ value, (df.key, value) ∈ input →
    Fills definitions df.key value

theorem applyField_fills {r r' : JsObject} {entry : String × JsValue} {key : String}
    (hkey : key ∉ systemMetadataKeys) (hfills : entry.1 = key → Fills definitions key entry.2)
    (hr : Filled r key) (h : applyField rt isCreate definitions r entry = .ok r') :
    Filled r' key := by
  by_cases hsame : entry.1 = key
  · subst hsame
    cases hdef : defByKey definitions entry.1 with
    | none =>
      unfold applyField at h
      rw [if_neg hkey, hdef] at h
      cases h
      exact hr
    | some df =>
      obtain ⟨w, hw, rfl⟩ := applyField_ok hkey hdef h
      obtain ⟨old, hold, -⟩ := hr
      obtain ⟨hrequired, hchosen⟩ := (hfills rfl).2 hkey df hdef
      cases w with
      | none =>
        obtain ⟨hnot, hblank⟩ := (normalize_ok hw).removed rfl
        rw [hrequired hblank] at hnot
        cases hnot
      | some value =>
        refine ⟨value, ?_, fun hblank => hchosen (((normalize_ok hw).stored value rfl).2.2 hblank)⟩
        rw [get?_store, if_neg (not_ignored_of_some hold)]
  · obtain ⟨value, hget, hvalue⟩ := hr
    exact ⟨value, (applyField_frame (Or.inr hsame) h).trans hget, hvalue⟩

theorem update_fills (hexisting : RequiredFilled projectId definitions existing)
    (hfills : FillsRequired projectId definitions (customFieldsInput.getD []))
    (h : validateAndNormalizeTaskCustomFields rt projectId customFieldsInput definitions false
      existing = .ok result) : RequiredFilled projectId definitions result := by
  obtain ⟨-, hfold, -⟩ := validated_ok h
  generalize customFieldsInput.getD [] = input at hfills hfold
  intro df hdf hrequired
  have hfilled := hexisting df hdf hrequired
  by_cases hkey : df.key ∈ systemMetadataKeys
  · have hget := (applyFields_frame (Or.inl hkey) hfold).trans (get?_merged_system hkey)
    cases hgiven : JsObject.get? input.reverse df.key with
    | none =>
      obtain ⟨value, hold, hvalue⟩ := hfilled
      rw [hgiven, Option.none_or] at hget
      exact ⟨value, hget.trans hold, hvalue⟩
    | some value =>
      have hmem := List.mem_reverse.mp (mem_of_get? hgiven)
      rw [hgiven, Option.some_or] at hget
      exact ⟨value, hget, (hfills df hdf hrequired value hmem).1 hkey⟩
  · have hstart : Filled (merged false existing input) df.key := by
      obtain ⟨value, hold, hvalue⟩ := hfilled
      exact ⟨value, (get?_merged hkey).trans hold, hvalue⟩
    refine foldlM_ok (I := fun r => Filled r df.key) hfold hstart ?_
    intro r entry t hentry hr ht
    exact applyField_fills hkey (fun hsame => hfills df hdf hrequired entry.2 (hsame ▸ hentry)) hr ht

/-! ### A create and its updates -/

/-- An update of the stored record; one that is refused leaves it as it is. -/
def updateCustomFields (rt : Runtime) (projectId : Uuid) (definitions : List CustomFieldRow)
    (customFieldsInput : Option JsObject) (record : JsObject) : Except RepoError JsObject :=
  validateAndNormalizeTaskCustomFields rt projectId customFieldsInput definitions false record

/-- **Custom fields**: what every call that succeeds leaves, and that a create and its updates keep the
required fields filled, where no update empties a key that is looked up in another definition. -/
theorem custom_fields_kept (rt : Runtime) (projectId : Uuid) (definitions : List CustomFieldRow) :
    (∀ customFieldsInput isCreate existing result,
      validateAndNormalizeTaskCustomFields rt projectId customFieldsInput definitions isCreate
        existing = .ok result →
      Merged rt projectId definitions isCreate existing (customFieldsInput.getD []) result) ∧
    ∀ customFieldsInput existing record updates,
      validateAndNormalizeTaskCustomFields rt projectId customFieldsInput definitions true
        existing = .ok record →
      (∀ update ∈ updates, FillsRequired projectId definitions (Option.getD update [])) →
      RequiredFilled projectId definitions
        (Runs.run (updateCustomFields rt projectId definitions) record updates) := by
  refine ⟨fun _ _ _ _ h => merged_of_ok h, fun _ _ record updates hcreate hupdates => ?_⟩
  have hstart := create_fills hcreate
  clear hcreate
  induction updates generalizing record with
  | nil => exact hstart
  | cons update updates ih =>
    refine ih _ (fun u hu => hupdates u (List.mem_cons_of_mem update hu)) ?_
    unfold Runs.exec
    split
    · rename_i next hnext
      exact update_fills hstart (hupdates update List.mem_cons_self) hnext
    · exact hstart

/-! Field `k` is required in the workspace and not in project `7`. -/

def sharedKey : List CustomFieldRow :=
  [{ key := "k", type := .shortText, required := true },
    { projectId := some 7, key := "k", type := .shortText }]

theorem sharedKey_fills {update : Option JsObject} (hkeys : ∀ p ∈ update.getD [], p.1 = "k")
    (hvalues : ∀ p ∈ update.getD [], ¬ Blank p.2) : FillsRequired 7 sharedKey (update.getD []) := by
  intro df hdf hrequired value hmem
  have hkey : df.key = "k" := hkeys _ hmem
  have hvalue : ¬ Blank value := hvalues _ hmem
  rw [hkey]
  refine ⟨fun _ => hvalue, fun _ e hdef => ⟨fun hblank => absurd hblank hvalue, ?_⟩⟩
  have hlast : defByKey sharedKey "k" = some { projectId := some 7, key := "k", type := .shortText } :=
    rfl
  cases hlast.symm.trans hdef
  rintro ⟨s, o, -, htype, -⟩
  cases htype

theorem custom_fields_kept_shared :
    RequiredFilled 7 sharedKey (Runs.run (updateCustomFields utcRuntime 7 sharedKey)
      [("k", .string "x")] [some [("k", .string " y ")], some [("k", .number (.fin 1))], none]) := by
  refine (custom_fields_kept utcRuntime 7 sharedKey).2 (some [("k", .string "x")]) [] _ _ rfl ?_
  refine List.forall_mem_cons.mpr ⟨?_, List.forall_mem_cons.mpr ⟨?_, List.forall_mem_cons.mpr ⟨?_, ?_⟩⟩⟩
  · exact sharedKey_fills (by simp) (List.forall_mem_singleton.mpr (by decide))
  · exact sharedKey_fills (by simp) (List.forall_mem_singleton.mpr (not_blank_number _))
  · exact sharedKey_fills (by simp) (by simp)
  · simp

/-- What the definition of the workspace requires is removed by way of that of the project. -/
theorem shared_key_cleared :
    validateAndNormalizeTaskCustomFields utcRuntime 7 (some [("k", .string "x")]) sharedKey true [] =
      .ok [("k", .string "x")] ∧
    updateCustomFields utcRuntime 7 sharedKey (some [("k", .null)]) [("k", .string "x")] = .ok [] ∧
    ¬ RequiredFilled 7 sharedKey [] := by
  refine ⟨rfl, rfl, fun h => ?_⟩
  obtain ⟨value, hget, -⟩ := h _ List.mem_cons_self ⟨rfl, rfl⟩
  cases hget

end CalmBoard.CustomFields
