import CalmBoard.Filters.Normalize
import CalmBoard.CustomFields.QueryKept

/-!
# CalmBoard.Filters.ValuesKept — values of predicates that are checked again

* `normalizeItems_again`: an array of checked items.
* `commonValue_again`: when a checked value of a field of tasks is accepted again, and as itself.
-/

namespace CalmBoard.Filters

open Text CustomFields Fallible

/-! ### Items -/

variable {item : JsValue → Except RepoError String}

theorem eraseDups_eraseDups (l : List String) : l.eraseDups.eraseDups = l.eraseDups := by
  cases l with
  | nil => rfl
  | cons a l =>
    have hkeep : (l.filter fun b => !b == a).eraseDups.filter (fun b => !b == a) =
        (l.filter fun b => !b == a).eraseDups := by
      rw [List.filter_eq_self]
      intro b hb
      rw [List.mem_eraseDups] at hb
      exact (List.mem_filter.mp hb).2
    rw [List.eraseDups_cons, List.eraseDups_cons, hkeep, eraseDups_eraseDups]
termination_by l.length
decreasing_by
  have hle := List.length_filter_le (fun b => !b == a) l
  rw [List.length_cons]
  omega

section Value

variable {rt : Runtime} {field : CommonTaskField} {op : FilterOperator} {raw v : JsValue}

theorem normalizeItems_again (hitem : ∀ x s, item x = .ok s → item (.string s) = .ok s)
    (h : normalizeItems field op item raw = .ok v) : normalizeItems field op item v = .ok v := by
  unfold normalizeItems at h
  split at h
  · rename_i x xs
    simp only [bind_ok, pure_ok] at h
    obtain ⟨values, hvalues, rfl⟩ := h
    have hagain : (values.eraseDups.map JsValue.string).mapM item = .ok values.eraseDups := by
      refine mapM_map_ok fun s hs => ?_
      obtain ⟨y, -, hy⟩ := mem_mapM_ok hvalues (List.mem_eraseDups.mp hs)
      exact hitem y s hy
    cases values with
    | nil =>
      simp only [List.mapM_cons, bind_ok, pure_ok] at hvalues
      obtain ⟨s, -, ss, -, hnil⟩ := hvalues
      cases hnil
    | cons s values =>
      have hdups := eraseDups_eraseDups (s :: values)
      rw [List.eraseDups_cons] at hagain hdups ⊢
      unfold normalizeItems
      simp only [List.map_cons] at hagain ⊢
      rw [hagain]
      exact congrArg (fun l => Except.ok (JsValue.array (l.map JsValue.string))) hdups
  · cases h

/-! ### Single values -/

theorem enumItem_again {x : JsValue} {s : String} (h : enumItem rt field x = .ok s) :
    enumItem rt field (.string s) = .ok s := by
  have hlow : ∀ val ∈ allowedSet field, lowered val = val := by
    have hall : (∀ val ∈ taskStatuses, lowered val = val) ∧ ∀ val ∈ taskPriorities, lowered val = val := by
      decide
    unfold allowedSet
    split
    · exact hall.1
    · exact hall.2
  unfold enumItem at h ⊢
  simp only at h ⊢
  split_ifs at h with hmem
  cases h
  have hsame : loweredText (.string (loweredText x)) = loweredText x := hlow _ hmem
  rw [hsame, if_pos hmem]

theorem textItem_again {error : RepoError} {x : JsValue} {s : String}
    (h : textItem error x = .ok s) : textItem error (.string s) = .ok s := by
  unfold textItem at h
  split at h
  · split_ifs at h with hs
    cases h
    unfold textItem
    dsimp only
    rw [trim_trim, if_neg hs]
  · cases h

theorem map_item_again (hitem : ∀ x s, item x = .ok s → item (.string s) = .ok s)
    (h : JsValue.string <$> item raw = .ok v) : JsValue.string <$> item v = .ok v := by
  obtain ⟨s, hs, rfl⟩ := map_ok.mp h
  rw [hitem raw s hs]
  rfl

theorem normalizeText_again (h : normalizeText rt field raw = .ok v) :
    normalizeText rt field v = .ok v := by
  unfold normalizeText at h
  split at h
  · cases h
    exact congrArg (fun t => Except.ok (JsValue.string t)) (trim_trim _)
  · cases h
    exact congrArg (fun t => Except.ok (JsValue.string t)) (trim_trim _)
  · cases h

theorem normalizeBoolean_again (h : normalizeBoolean field raw = .ok v) :
    normalizeBoolean field v = .ok v := by
  have hbool : ∃ b, v = .boolean b := by
    unfold normalizeBoolean at h
    split at h
    · cases h
      exact ⟨_, rfl⟩
    · split_ifs at h
      · cases h
        exact ⟨true, rfl⟩
      · cases h
        exact ⟨false, rfl⟩
    · cases h
  obtain ⟨b, rfl⟩ := hbool
  rfl

/-! ### Ranges -/

theorem rangeBounds_range (min max : JsValue) : rangeBounds (range min max) = some (min, max) := rfl

theorem normalizeNumberRange_again (h : normalizeNumberRange rt raw = .ok v) :
    normalizeNumberRange rt v = .ok v := by
  unfold normalizeNumberRange at h
  split at h
  · cases h
  · split at h
    · split_ifs at h with hle
      cases h
      unfold normalizeNumberRange
      rw [rangeBounds_range]
      simp only [toNumber, if_neg hle]
    · cases h

/-- The values whose times a predicate compares with. -/
def dateItems (op : FilterOperator) (raw : JsValue) : List JsValue :=
  if op = .between then
    match rangeBounds raw with
    | some (min, max) => [min, max]
    | none => []
  else [raw]

theorem normalizeDateRange_again (h : normalizeDateRange raw = .ok v) :
    normalizeDateRange v = .ok v ↔
      ∀ item ∈ dateItems .between raw, ∀ ms ∈ isoTimeOf item, FourDigits ms := by
  unfold normalizeDateRange at h
  split at h
  · cases h
  · rename_i minVal maxVal hbounds
    split at h
    · rename_i min max hmin hmax
      split_ifs at h with hle
      cases h
      unfold normalizeDateRange
      rw [rangeBounds_range]
      simp only [isoTimeOf_isoValue, dateItems, if_true, hbounds, List.mem_cons, List.not_mem_nil,
        or_false, forall_eq_or_imp, forall_eq, hmin, hmax, Option.mem_some_iff, forall_eq']
      by_cases hfour : FourDigits min
      · by_cases hfour' : FourDigits max
        · simp only [hfour, hfour', if_true, if_neg hle, and_self]
        · simp [hfour, hfour']
      · simp [hfour]
    · cases h

/-! ### Values of a field -/

/-- Dates of which the years have four digits. -/
def CommonValueKept (field : CommonTaskField) (op : FilterOperator) (raw : JsValue) : Prop :=
  field.dataType = .date → ∀ item ∈ dateItems op raw, ∀ ms ∈ isoTimeOf item, FourDigits ms

instance : Decidable (CommonValueKept field op raw) := inferInstanceAs (Decidable (_ → _))

/-- **A value checked twice.** -/
theorem commonValue_again (h : normalizeCommonFieldValue rt field op raw = .ok v) :
    normalizeCommonFieldValue rt field op v = .ok v ↔
      (¬ op.Valueless → CommonValueKept field op raw) := by
  unfold normalizeCommonFieldValue at h ⊢
  by_cases hop : op.Valueless
  · rw [if_pos hop] at h ⊢
    cases h
    exact ⟨fun _ hno => absurd hop hno, fun _ => rfl⟩
  · rw [if_neg hop] at h ⊢
    simp only [hop, not_false_eq_true, forall_const, CommonValueKept]
    cases htype : field.dataType with
    | text =>
      simp only [htype] at h
      simpa using normalizeText_again h
    | search =>
      simp only [htype] at h
      simpa using normalizeText_again h
    | enum =>
      simp only [htype] at h
      simp only [reduceCtorEq, false_implies, iff_true]
      split_ifs at h ⊢
      · exact normalizeItems_again (fun x s => enumItem_again) h
      · exact map_item_again (fun x s => enumItem_again) h
    | id =>
      simp only [htype] at h
      simp only [reduceCtorEq, false_implies, iff_true]
      split_ifs at h ⊢
      · exact normalizeItems_again (fun x s => textItem_again) h
      · exact map_item_again (fun x s => textItem_again) h
    | tags =>
      simp only [htype] at h
      simp only [reduceCtorEq, false_implies, iff_true]
      split_ifs at h ⊢
      · exact normalizeItems_again (fun x s => textItem_again) h
      · exact map_item_again (fun x s => textItem_again) h
    | number =>
      simp only [htype] at h
      simp only [reduceCtorEq, false_implies, iff_true]
      split_ifs at h ⊢
      · exact normalizeNumberRange_again h
      · split at h
        · cases h
          rfl
        · cases h
    | boolean =>
      simp only [htype] at h
      simpa using normalizeBoolean_again h
    | date =>
      simp only [htype] at h
      simp only [forall_const]
      split_ifs at h ⊢ with hbetween
      · subst hbetween
        exact normalizeDateRange_again h
      · cases hms : isoTimeOf raw with
        | none =>
          rw [hms] at h
          cases h
        | some ms =>
          rw [hms] at h
          cases h
          simp only [isoTimeOf_isoValue, dateItems, if_neg hbetween, List.mem_singleton, forall_eq,
            hms, Option.mem_some_iff, forall_eq']
          by_cases hfour : FourDigits ms
          · simp only [hfour, if_true]
          · simp [hfour]

end Value

end CalmBoard.Filters
