import CalmBoard.CustomFields.Definitions
import CalmBoard.Lib.Keyed
import CalmBoard.Lib.Runs

/-!
# CalmBoard.CustomFields.Record — the record of a task, merged and kept

* `get?_set`, `get?_restrict`, `get?_delete`, `get?_spread`: what is read after a write.
* `applyField_ok`: one entry of the input.
* `validated_ok`: the parts of a call that succeeds.
-/

namespace CalmBoard.CustomFields

open Text Fallible

/-! ### Own properties -/

variable {key : String} {value : JsValue} {o : JsObject}

theorem get?_set (o : JsObject) (key key' : String) (value : JsValue) :
    JsObject.get? (JsObject.set o key value) key' =
      if key = key' then some value else JsObject.get? o key' := by
  have hfind : (JsObject.set o key value).find? (fun p => p.1 = key') =
      if key = key' then some (key, value) else o.find? fun p => p.1 = key' :=
    Keyed.find?_put o (key, value) key'
  unfold JsObject.get?
  rw [hfind]
  split <;> rfl

theorem get?_restrict (p : String → Prop) [DecidablePred p] (o : JsObject) (key : String) :
    JsObject.get? (o.filter fun q => p q.1) key = if p key then JsObject.get? o key else none := by
  have hfind : (o.filter fun q => p q.1).find? (fun q => q.1 = key) =
      if p key then o.find? fun q => q.1 = key else none :=
    Keyed.find?_restrict p o key
  unfold JsObject.get?
  rw [hfind]
  split <;> rfl

theorem get?_delete (o : JsObject) (key key' : String) :
    JsObject.get? (JsObject.delete o key) key' =
      if key = key' then none else JsObject.get? o key' := by
  have hrestrict := get?_restrict (fun k => k ≠ key) o key'
  unfold JsObject.delete
  rw [hrestrict]
  by_cases hkey : key = key'
  · rw [if_pos hkey, if_neg fun hne => hne hkey.symm]
  · rw [if_neg hkey, if_pos fun hsame => hkey hsame.symm]

theorem get?_spread (o p : JsObject) (key : String) :
    JsObject.get? (JsObject.spread o p) key =
      (JsObject.get? p.reverse key).or (JsObject.get? o key) := by
  have hfind : (JsObject.spread o p).find? (fun q => q.1 = key) =
      (p.reverse.find? fun q => q.1 = key).or (o.find? fun q => q.1 = key) :=
    Keyed.find?_puts p o key
  unfold JsObject.get?
  rw [hfind]
  cases p.reverse.find? fun q => q.1 = key <;> rfl

theorem mem_of_get? (h : JsObject.get? o key = some value) : (key, value) ∈ o := by
  obtain ⟨⟨key', value'⟩, hfind, rfl⟩ := Option.map_eq_some_iff.mp h
  have hkey := List.find?_some hfind
  rw [decide_eq_true_eq] at hkey
  exact hkey ▸ List.mem_of_find?_eq_some hfind

theorem get?_eq_none_iff : JsObject.get? o key = none ↔ key ∉ o.map Prod.fst := by
  unfold JsObject.get?
  rw [Option.map_eq_none_iff, List.find?_eq_none]
  constructor
  · intro h hmem
    obtain ⟨p, hp, rfl⟩ := List.mem_map.mp hmem
    exact h p hp (decide_eq_true rfl)
  · intro h p hp hkey
    exact h (of_decide_eq_true hkey ▸ List.mem_map_of_mem hp)

/-- `__proto__`, where there is no own property of that name. -/
def Ignored (o : JsObject) (key : String) : Prop :=
  key = "__proto__" ∧ (JsObject.get? o key).isNone = true

instance (o : JsObject) (key : String) : Decidable (Ignored o key) :=
  inferInstanceAs (Decidable (_ ∧ _))

theorem assign_of_ignored (h : Ignored o key) (value : JsValue) :
    assign o key value = o := if_pos h

theorem assign_of_not_ignored (h : ¬ Ignored o key) (value : JsValue) :
    assign o key value = JsObject.set o key value := if_neg h

theorem get?_assign (o : JsObject) (key key' : String) (value : JsValue) :
    JsObject.get? (assign o key value) key' =
      if key = key' ∧ ¬ Ignored o key then some value else JsObject.get? o key' := by
  by_cases hproto : Ignored o key
  · rw [assign_of_ignored hproto, if_neg fun h => h.2 hproto]
  · rw [assign_of_not_ignored hproto, get?_set]
    exact if_congr ⟨fun h => ⟨h, hproto⟩, fun h => h.1⟩ rfl rfl

/-! ### One value -/

variable {w : Option JsValue}

/-- No value, or a text of white space. -/
def Blank : JsValue → Prop
  | .undefined | .null => True
  | .string s => trim s = ""
  | _ => False

instance : DecidablePred Blank := fun value => by
  unfold Blank
  split <;> infer_instance

theorem not_blank_number (n : Number) : ¬ Blank (.number n) := id

theorem not_blank_boolean (b : Bool) : ¬ Blank (.boolean b) := id

theorem not_blank_date (d : JsDate) : ¬ Blank (.date d) := id

section Value

variable (rt : Runtime) (df : CustomFieldRow)

/-- A value as it is stored. -/
def NormalForm (value : JsValue) : Prop :=
  match df.type, value with
  | .shortText, .string s => trim s = s ∧ s ≠ "" ∧ utf16Length s ≤ 10000
  | .number, .number n => n.isFinite
  | .date, .string s => ∃ ms, s = String.ofList (IsoDate.toISOString ms)
  | .singleSelect, .string s => ∃ o ∈ df.options, o.value = s
  | .checkbox, .boolean _ => True
  | .url, .string s => trim s = s ∧ s ≠ "" ∧ rt.httpUrl s = true
  | _, _ => False

variable {rt df}

theorem parsed_iso {trimmed iso : List Char} (h : parseAndValidateIsoDate trimmed = some iso) :
    ∃ ms, iso = IsoDate.toISOString ms := by
  unfold parseAndValidateIsoDate at h
  split at h
  · split at h
    · cases h
      exact ⟨_, rfl⟩
    · cases h
  · split at h
    · split at h
      · obtain ⟨ms, -, rfl⟩ := Option.map_eq_some_iff.mp h
        exact ⟨ms, rfl⟩
      · cases h
    · cases h

variable (df) in
/-- The option that a text stands for. -/
def chosen (s : String) : Option CustomFieldOption :=
  df.options.find? fun opt => opt.value = trim s || opt.label = trim s

variable (df) in
/-- A text that stands for an option with a blank value. -/
def ChosenBlank (value : JsValue) : Prop :=
  ∃ s o, value = .string s ∧ df.type = .singleSelect ∧ chosen df s = some o ∧ trim o.value = ""

theorem not_blank_iso (ms : ℤ) : ¬ Blank (.string (String.ofList (IsoDate.toISOString ms))) := by
  intro h
  have hmem : 'T' ∈ (String.ofList (IsoDate.toISOString ms)).toList := by
    rw [String.toList_ofList]
    simp [IsoDate.toISOString]
  exact absurd (isSpace_of_trim_eq h 'T' hmem) (by decide)

structure Accepted (rt : Runtime) (df : CustomFieldRow) (value : JsValue) (w : Option JsValue) :
    Prop where
  stored : ∀ v, w = some v → NormalForm rt df v ∧ ¬ Blank value ∧ (Blank v → ChosenBlank df value)
  removed : w = none → df.required = false ∧ Blank value

theorem Accepted.ofSome {v : JsValue} (hform : NormalForm rt df v) (hvalue : ¬ Blank value)
    (hblank : Blank v → ChosenBlank df value) : Accepted rt df value (some v) :=
  ⟨fun _ h => by cases h; exact ⟨hform, hvalue, hblank⟩, fun h => by cases h⟩

theorem Accepted.ofNone (hrequired : df.required = false) (hvalue : Blank value) :
    Accepted rt df value none :=
  ⟨fun _ h => (by cases h), fun _ => ⟨hrequired, hvalue⟩⟩

theorem Accepted.ofForm {v : JsValue} (hvalue : ¬ Blank value) (hv : ¬ Blank v)
    (hform : NormalForm rt df v) : Accepted rt df value (some v) :=
  .ofSome hform hvalue fun hblank => absurd hblank hv

theorem accepted_missing {e : RepoError} (hvalue : Blank value)
    (h : (if df.required then .error e else .ok none) = Except.ok w) : Accepted rt df value w := by
  split at h
  · cases h
  · rename_i hrequired
    cases h
    exact .ofNone (by simpa using hrequired) hvalue

theorem accepted_text {s : String} {x : Except RepoError (Option JsValue)}
    (h : (if trim s = "" then emptyText df else x) = .ok w)
    (hx : trim s ≠ "" → x = .ok w → ∃ v, w = some v ∧ NormalForm rt df v ∧
      (Blank v → ChosenBlank df (.string s))) : Accepted rt df (.string s) w := by
  split at h
  · rename_i hblank
    exact accepted_missing hblank h
  · rename_i hne
    obtain ⟨v, rfl, hform, hblank⟩ := hx hne h
    have hvalue : ¬ Blank (.string s) := hne
    exact .ofSome hform hvalue hblank

/-- **One value**: it is brought to the form of its type, or was blank and is not required. -/
theorem normalize_ok (h : normalizeAndValidateFieldValue rt df value = .ok w) :
    Accepted rt df value w := by
  unfold normalizeAndValidateFieldValue at h
  split at h
  · exact accepted_missing trivial h
  · exact accepted_missing trivial h
  · split at h
    · rename_i htype
      split at h
      · refine accepted_text h fun hne hx => ?_
        split at hx
        · cases hx
        · rename_i hlen
          cases hx
          refine ⟨_, rfl, ?_, fun hblank => absurd ((trim_trim _).symm.trans hblank) hne⟩
          unfold NormalForm
          rw [htype]
          exact ⟨trim_trim _, hne, Nat.le_of_not_lt hlen⟩
      · cases h
    · rename_i htype
      split at h
      · cases h
        refine .ofForm (not_blank_number _) (not_blank_number _) ?_
        unfold NormalForm
        rw [htype]
        rfl
      · cases h
    · rename_i htype
      have hform : ∀ ms, NormalForm rt df (.string (String.ofList (IsoDate.toISOString ms))) := by
        intro ms
        unfold NormalForm
        rw [htype]
        exact ⟨ms, rfl⟩
      split at h
      · cases h
        exact .ofForm (not_blank_date _) (not_blank_iso _) (hform _)
      · refine accepted_text h fun _ hx => ?_
        split at hx
        · rename_i iso hiso
          cases hx
          obtain ⟨ms, rfl⟩ := parsed_iso hiso
          exact ⟨_, rfl, hform ms, fun hblank => absurd hblank (not_blank_iso ms)⟩
        · cases hx
      · cases h
    · rename_i htype
      split at h
      · refine accepted_text h fun _ hx => ?_
        split at hx
        · rename_i o ho
          cases hx
          refine ⟨_, rfl, ?_, fun hblank => ⟨_, o, rfl, htype, ho, hblank⟩⟩
          unfold NormalForm
          rw [htype]
          exact ⟨o, List.mem_of_find?_eq_some ho, rfl⟩
        · cases hx
      · cases h
    · rename_i htype
      split at h
      · cases h
        refine .ofForm (not_blank_boolean _) (not_blank_boolean _) ?_
        unfold NormalForm
        rw [htype]
        trivial
      · cases h
    · rename_i htype
      split at h
      · refine accepted_text h fun hne hx => ?_
        split at hx
        · rename_i hurl
          cases hx
          refine ⟨_, rfl, ?_, fun hblank => absurd ((trim_trim _).symm.trans hblank) hne⟩
          unfold NormalForm
          rw [htype]
          exact ⟨trim_trim _, hne, hurl⟩
        · cases hx
      · cases h

theorem normalize_select (rt : Runtime) {s : String} {o : CustomFieldOption}
    (htype : df.type = .singleSelect) (hs : trim s ≠ "") (ho : chosen df s = some o) :
    normalizeAndValidateFieldValue rt df (.string s) = .ok (some (.string o.value)) := by
  unfold chosen at ho
  unfold normalizeAndValidateFieldValue
  simp only [htype, if_neg hs, ho]

end Value

/-! ### One entry -/

def store (o : JsObject) (key : String) : Option JsValue → JsObject
  | none => JsObject.delete o key
  | some v => assign o key v

theorem get?_store_of_ne {key' : String} (h : key ≠ key') (w : Option JsValue) :
    JsObject.get? (store o key w) key' = JsObject.get? o key' := by
  unfold store
  split
  · rw [get?_delete, if_neg h]
  · rw [get?_assign, if_neg fun hk => h hk.1]

theorem get?_store (o : JsObject) (key : String) (w : Option JsValue) :
    JsObject.get? (store o key w) key = if Ignored o key then none else w := by
  unfold store
  split
  · rw [get?_delete, if_pos rfl, ite_self]
  · rw [get?_assign]
    by_cases hproto : Ignored o key
    · rw [if_pos hproto, if_neg fun h => h.2 hproto]
      exact Option.isNone_iff_eq_none.mp hproto.2
    · rw [if_neg hproto, if_pos ⟨rfl, hproto⟩]

section Merge

variable {rt : Runtime} {projectId : Uuid} {definitions : List CustomFieldRow} {isCreate : Bool}
variable {existing input r r' result : JsObject}

theorem mem_of_defByKey {df : CustomFieldRow} (h : defByKey definitions key = some df) :
    df ∈ definitions ∧ df.key = key := by
  have hkey := List.find?_some h
  rw [decide_eq_true_eq] at hkey
  exact ⟨List.mem_reverse.mp (List.mem_of_find?_eq_some h), hkey⟩

theorem missing_ok {df : CustomFieldRow} {e : RepoError}
    (h : (if df.required then Except.error e else .ok r) = .ok r') : df.required = false ∧ r' = r := by
  split at h
  · cases h
  · rename_i hrequired
    cases h
    exact ⟨by simpa using hrequired, rfl⟩

theorem applyField_ok {entry : String × JsValue} {df : CustomFieldRow}
    (hkey : entry.1 ∉ systemMetadataKeys) (hdef : defByKey definitions entry.1 = some df)
    (h : applyField rt isCreate definitions r entry = .ok r') :
    ∃ w, normalizeAndValidateFieldValue rt df entry.2 = .ok w ∧ r' = store r entry.1 w := by
  obtain ⟨key, value⟩ := entry
  have hsame : df.key = key := (mem_of_defByKey hdef).2
  unfold applyField at h
  rw [if_neg hkey] at h
  dsimp only at h hdef ⊢
  rw [hdef] at h
  split at h
  · rename_i hnone
    cases hnone
  · rename_i hsome
    cases hsome
    obtain ⟨hrequired, rfl⟩ := missing_ok h
    exact ⟨none, if_neg (by simp [hrequired]), rfl⟩
  · rename_i hsome
    cases hsome
    obtain ⟨hrequired, rfl⟩ := missing_ok h
    exact ⟨none, if_neg (by simp [hrequired]), rfl⟩
  · rename_i hsome _ _
    cases hsome
    rw [bind_ok] at h
    obtain ⟨w, hw, h⟩ := h
    refine ⟨w, hw, ?_⟩
    rw [hsame] at h
    split at h <;> cases h <;> rfl

theorem applyField_frame {entry : String × JsValue}
    (hkey : key ∈ systemMetadataKeys ∨ entry.1 ≠ key)
    (h : applyField rt isCreate definitions r entry = .ok r') :
    JsObject.get? r' key = JsObject.get? r key := by
  by_cases hsystem : entry.1 ∈ systemMetadataKeys
  · unfold applyField at h
    rw [if_pos hsystem] at h
    cases h
    rfl
  · cases hdef : defByKey definitions entry.1 with
    | none =>
      unfold applyField at h
      rw [if_neg hsystem, hdef] at h
      cases h
      rfl
    | some df =>
      obtain ⟨w, -, rfl⟩ := applyField_ok hsystem hdef h
      refine get?_store_of_ne (fun hsame => ?_) w
      rcases hkey with hkey | hkey
      · exact hsystem (hsame ▸ hkey)
      · exact hkey hsame

theorem applyFields_frame (hkey : key ∈ systemMetadataKeys ∨ key ∉ input.map Prod.fst)
    (h : input.foldlM (applyField rt isCreate definitions) r = .ok r') :
    JsObject.get? r' key = JsObject.get? r key := by
  refine foldlM_ok (I := fun s => JsObject.get? s key = JsObject.get? r key) h rfl ?_
  intro s entry t hentry hs ht
  refine (applyField_frame (hkey.imp id fun hout hsame => ?_) ht).trans hs
  exact hout (hsame ▸ List.mem_map_of_mem hentry)

theorem not_ignored_of_some (h : JsObject.get? o key = some value) : ¬ Ignored o key := by
  intro hignored
  have hnone := hignored.2
  rw [h] at hnone
  cases hnone

theorem ignored_congr {p : JsObject} (h : JsObject.get? o key = JsObject.get? p key) :
    Ignored o key ↔ Ignored p key := by
  unfold Ignored
  rw [h]

/-- **A written value**: with one entry under its key, the record has the value of that entry. -/
theorem written_value {df : CustomFieldRow} (hkey : key ∉ systemMetadataKeys)
    (hdef : defByKey definitions key = some df) (hnodup : (input.map Prod.fst).Nodup)
    (hmem : (key, value) ∈ input)
    (h : input.foldlM (applyField rt isCreate definitions) r = .ok r') :
    ∃ w, normalizeAndValidateFieldValue rt df value = .ok w ∧
      JsObject.get? r' key = if Ignored r key then none else w := by
  obtain ⟨before, after, rfl⟩ := List.append_of_mem hmem
  rw [List.map_append, List.map_cons, List.nodup_append, List.nodup_cons] at hnodup
  obtain ⟨-, ⟨hafter, -⟩, hapart⟩ := hnodup
  have hbefore : key ∉ before.map Prod.fst := fun hin => hapart key hin key List.mem_cons_self rfl
  rw [List.foldlM_append, bind_ok] at h
  obtain ⟨s, hs, h⟩ := h
  rw [List.foldlM_cons, bind_ok] at h
  obtain ⟨t, ht, h⟩ := h
  obtain ⟨w, hw, rfl⟩ := applyField_ok hkey hdef ht
  refine ⟨w, hw, ?_⟩
  rw [applyFields_frame (Or.inr hafter) h, get?_store]
  exact if_congr (ignored_congr (applyFields_frame (Or.inr hbefore) hs)) rfl rfl

/-! ### The record -/

theorem all_of_not_any {o : Option Uuid} (h : ¬ o.any (· ≠ projectId) = true) :
    o.all (· = projectId) = true := by
  cases o with
  | none => rfl
  | some p => simpa using h

theorem checkKeys_ok (h : checkKeys projectId definitions input = .ok ())
    (hkey : key ∈ input.map Prod.fst) (hsystem : key ∉ systemMetadataKeys) :
    ∃ df, defByKey definitions key = some df ∧ df.projectId.all (· = projectId) = true := by
  obtain ⟨entry, hentry, rfl⟩ := List.mem_map.mp hkey
  unfold checkKeys at h
  simp only [bind_ok] at h
  obtain ⟨_, hknown, _, hscope, -⟩ := h
  have hsome : (defByKey definitions entry.1).isSome = true := by
    refine forIn_ok (P := fun e : String × JsValue => e.1 ∉ systemMetadataKeys →
      (defByKey definitions e.1).isSome = true) (fun e u t ht => ?_) hknown entry hentry hsystem
    split at ht
    · rename_i he
      simp only [throw_bind, guard_ok, pure_ok] at ht
      exact ⟨ht.2.symm, fun _ => by simpa [Option.isSome_iff_ne_none] using ht.1⟩
    · rename_i he
      cases ht
      exact ⟨rfl, fun hnot => absurd hnot he⟩
  obtain ⟨df, hdef⟩ := Option.isSome_iff_exists.mp hsome
  refine ⟨df, hdef, ?_⟩
  refine forIn_ok (P := fun e : String × JsValue => e.1 ∉ systemMetadataKeys →
    ∀ df, defByKey definitions e.1 = some df → df.projectId.all (· = projectId) = true)
    (fun e u t ht => ?_) hscope entry hentry hsystem df hdef
  split at ht
  · split at ht
    · rename_i hdef
      simp only [throw_bind, guard_ok, pure_ok] at ht
      refine ⟨ht.2.symm, fun _ df' hdf' => ?_⟩
      cases hdef.symm.trans hdf'
      exact all_of_not_any ht.1
    · rename_i hnone
      cases ht
      exact ⟨rfl, fun _ df' hdf' => absurd hdf' (hnone df')⟩
  · rename_i he
    cases ht
    exact ⟨rfl, fun hnot => absurd hnot he⟩

/-- The record before the entries of the input are applied. -/
def merged (isCreate : Bool) (existing input : JsObject) : JsObject :=
  JsObject.spread (if isCreate then existing.filter fun p => p.1 ∈ systemMetadataKeys else existing)
    (input.filter fun p => p.1 ∈ systemMetadataKeys)

theorem get?_reverse_eq_none (h : key ∉ input.map Prod.fst) :
    JsObject.get? input.reverse key = none := by
  rw [get?_eq_none_iff, List.map_reverse, List.mem_reverse]
  exact h

theorem get?_merged_system (hkey : key ∈ systemMetadataKeys) :
    JsObject.get? (merged isCreate existing input) key =
      (JsObject.get? input.reverse key).or (JsObject.get? existing key) := by
  unfold merged
  rw [get?_spread, ← List.filter_reverse, get?_restrict (· ∈ systemMetadataKeys), if_pos hkey]
  cases isCreate with
  | false => rfl
  | true =>
    congr 1
    exact (get?_restrict (· ∈ systemMetadataKeys) existing key).trans (if_pos hkey)

theorem get?_merged (hkey : key ∉ systemMetadataKeys) :
    JsObject.get? (merged isCreate existing input) key =
      if isCreate then none else JsObject.get? existing key := by
  unfold merged
  rw [get?_spread, ← List.filter_reverse, get?_restrict (· ∈ systemMetadataKeys), if_neg hkey,
    Option.none_or]
  cases isCreate with
  | false => rfl
  | true => exact (get?_restrict (· ∈ systemMetadataKeys) existing key).trans (if_neg hkey)

/-- A required definition that applies to the project. -/
structure RequiredIn (projectId : Uuid) (df : CustomFieldRow) : Prop where
  project : df.projectId.all (· = projectId) = true
  required : df.required = true

theorem sweep_ok {u : Unit} (h : (forIn definitions () fun df _ =>
      if (df.projectId.all (· = projectId) && df.required) = true then
        if (!isValidNonEmptyValue df (JsObject.get? r df.key)) = true then
          (throw (requiredMissing df) : Except RepoError Unit) >>= fun _ => pure (ForInStep.yield ())
        else pure (ForInStep.yield ())
      else pure (ForInStep.yield ())) = Except.ok u) :
    ∀ df ∈ definitions, RequiredIn projectId df →
      isValidNonEmptyValue df (JsObject.get? r df.key) = true := by
  refine forIn_ok (fun df u t ht => ?_) h
  split at ht
  · simp only [throw_bind, guard_ok, pure_ok] at ht
    exact ⟨ht.2.symm, fun _ => by simpa using ht.1⟩
  · rename_i hnot
    cases ht
    exact ⟨rfl, fun hdf => absurd (by rw [hdf.project, hdf.required]; rfl) hnot⟩

theorem validated_ok {customFieldsInput : Option JsObject}
    (h : validateAndNormalizeTaskCustomFields rt projectId customFieldsInput definitions isCreate
      existing = .ok result) :
    checkKeys projectId definitions (customFieldsInput.getD []) = .ok () ∧
      (customFieldsInput.getD []).foldlM (applyField rt isCreate definitions)
        (merged isCreate existing (customFieldsInput.getD [])) = .ok result ∧
      (isCreate = true → ∀ df ∈ definitions, RequiredIn projectId df →
        isValidNonEmptyValue df (JsObject.get? result df.key) = true) := by
  unfold validateAndNormalizeTaskCustomFields at h
  split at h
  · cases h
    exact ⟨rfl, rfl, fun h => by cases h⟩
  · simp only [bind_ok] at h
    obtain ⟨_, hkeys, r, hr, h⟩ := h
    split at h
    · rw [bind_ok] at h
      obtain ⟨_, hsweep, h⟩ := h
      cases h
      exact ⟨hkeys, hr, fun _ => sweep_ok hsweep⟩
    · rename_i hupdate
      cases h
      exact ⟨hkeys, hr, fun hcreate => absurd hcreate hupdate⟩

end Merge

end CalmBoard.CustomFields
