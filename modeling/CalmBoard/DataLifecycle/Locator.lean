import CalmBoard.Lib.Fallible
import CalmBoard.Lib.Json
import Mathlib.Data.Finset.BooleanAlgebra
import Mathlib.Data.Fintype.Card
import Mathlib.Logic.Relation

/-!
# CalmBoard.DataLifecycle.Locator — the canonical text of a purge locator

Objects are addressed in a heap, since `serializeCanonicalJson` tells a shared object from a cycle.

* `Value`, `Cell`: values, and the objects they refer to.
* `canonicalJson`, `purgeLocatorPreimage`: what is hashed.
* `Represents`: the JSON value at a place of the heap.
* `canonicalJson_ok_iff`: what is accepted.
* `canonicalJson_identifies`: the text identifies the value, and the preimage the locator.
-/

namespace CalmBoard.DataLifecycle

open Fallible Json Relation

/-! ### The heap -/

/-- `other` is what JSON has no form for, with its `typeof`. -/
inductive Value (ν α : Type) where
  | null
  | bool (b : Bool)
  | num (n : ν)
  | str (s : Text16)
  | other (type : String)
  | ref (a : α)

/-- What an address holds.  A slot of an array may be missing, and an array may have enumerable keys
beside the indices below its length; `plain` says that the prototype is `Object.prototype` or `null`. -/
inductive Cell (ν α : Type) where
  | array (slots : List (Option (Value ν α))) (named : List Text16)
  | object (plain : Bool) (fields : List (Text16 × Value ν α)) (distinct : (fields.map Prod.fst).Nodup)

abbrev Heap (ν α : Type) := α → Cell ν α

variable {ν α : Type}

/-! ### The JSON value at a place -/

/-- The values that an object holds. -/
def Child (heap : Heap ν α) (v w : Value ν α) : Prop :=
  ∃ a, v = .ref a ∧ match heap a with
    | .array slots _ => some w ∈ slots
    | .object _ fields _ => ∃ f ∈ fields, f.2 = w

/-- Finite numbers, arrays without holes and named properties, plain objects. -/
def Plain (D : Doubles ν) (heap : Heap ν α) : Value ν α → Prop
  | .num n => D.isFinite n = true
  | .other _ => False
  | .ref a =>
    match heap a with
    | .array slots named => none ∉ slots ∧ named = []
    | .object plain _ _ => plain = true
  | _ => True

variable {D : Doubles ν} {heap : Heap ν α} {v w : Value ν α} {j : Json ν}

/-- What stands at a place of the heap is this JSON value. -/
def Represents (heap : Heap ν α) : Json ν → Value ν α → Prop
  | .null, v => v = .null
  | .bool b, v => v = .bool b
  | .num n, v => v = .num n
  | .str s, v => v = .str s
  | .arr xs, v => ∃ a vs, v = .ref a ∧ heap a = .array (vs.map some) [] ∧ vs.length = xs.length ∧
      ∀ q ∈ xs.zip vs, Represents heap q.1 q.2
  | .obj o, v => ∃ a fields distinct, v = .ref a ∧ heap a = .object true fields distinct ∧
      fields.map Prod.fst = o.map Prod.fst ∧
        ∀ f ∈ o, ∀ g ∈ fields, g.1 = f.1 → Represents heap f.2 g.2
termination_by j => sizeOf j
decreasing_by
  · exact sizeOf_item (List.of_mem_zip ‹_ ∈ _›).1
  · exact sizeOf_field ‹_›

theorem represents_child (h : Represents heap j v) {p : ν → Prop} (hj : j.Valid p)
    (hw : Child heap v w) : ∃ k : Json ν, sizeOf k < sizeOf j ∧ Represents heap k w ∧ k.Valid p := by
  obtain ⟨b, rfl, hw⟩ := hw
  cases j with
  | null | bool | num | str =>
    rw [Represents] at h
    cases h
  | arr xs =>
    rw [Represents] at h
    rw [Valid] at hj
    obtain ⟨a, vs, ⟨⟩, hcell, hlength, hall⟩ := h
    rw [hcell] at hw
    obtain ⟨v, hv, ⟨⟩⟩ := List.mem_map.mp hw
    obtain ⟨i, hi, rfl⟩ := List.mem_iff_getElem.mp hv
    have hx : i < xs.length := hlength ▸ hi
    have hq : (xs[i], vs[i]) ∈ xs.zip vs :=
      List.mem_iff_getElem.mpr ⟨i, by simp [hx, hi], List.getElem_zip ..⟩
    exact ⟨xs[i], sizeOf_item (List.getElem_mem hx), hall _ hq, hj _ (List.getElem_mem hx)⟩
  | obj o =>
    rw [Represents] at h
    rw [Valid] at hj
    obtain ⟨a, fields, distinct, ⟨⟩, hcell, hkeys, hall⟩ := h
    rw [hcell] at hw
    obtain ⟨g, hg, rfl⟩ := hw
    obtain ⟨f, hf, hfg⟩ := List.mem_map.mp (hkeys ▸ List.mem_map_of_mem hg)
    exact ⟨f.2, sizeOf_field hf, hall f hf g hg hfg.symm, hj.2 f hf⟩

theorem represents_transGen (h : Represents heap j v) {p : ν → Prop} (hj : j.Valid p)
    (hw : TransGen (Child heap) v w) :
    ∃ k : Json ν, sizeOf k < sizeOf j ∧ Represents heap k w ∧ k.Valid p := by
  induction hw with
  | single hchild => exact represents_child h hj hchild
  | tail _ hchild ih =>
    obtain ⟨k, hlt, hk, hvalid⟩ := ih
    obtain ⟨l, hless, hl⟩ := represents_child hk hvalid hchild
    exact ⟨l, hless.trans hlt, hl⟩

/-- Round a cycle, the values would become smaller and smaller. -/
theorem represents_acyclic (h : Represents heap j v) {p : ν → Prop} (hj : j.Valid p) :
    ¬TransGen (Child heap) v v := by
  intro hcycle
  induction hn : sizeOf j using Nat.strong_induction_on generalizing j with
  | _ n ih =>
    obtain ⟨k, hlt, hk, hvalid⟩ := represents_transGen h hj hcycle
    exact ih _ (hn ▸ hlt) hk hvalid rfl

theorem represents_plain (h : Represents heap j v) (hj : j.Valid fun n => D.isFinite n = true) :
    Plain D heap v := by
  cases j with
  | null | bool | str =>
    rw [Represents] at h
    subst h
    trivial
  | num n =>
    rw [Represents] at h
    subst h
    rwa [Valid] at hj
  | arr xs =>
    rw [Represents] at h
    obtain ⟨a, vs, rfl, hcell, -⟩ := h
    simp [Plain, hcell]
  | obj o =>
    rw [Represents] at h
    obtain ⟨a, fields, distinct, rfl, hcell, -⟩ := h
    simp [Plain, hcell]

/-! ### Serializing -/

variable [DecidableEq ν] [DecidableEq α] {ancestors : Finset α}

theorem card_compl_insert_lt [Fintype α] {a : α} (h : a ∉ ancestors) :
    (insert a ancestors)ᶜ.card < ancestorsᶜ.card := by
  refine Finset.card_lt_card (Finset.ssubset_iff_subset_ne.mpr ⟨?_, fun heq => ?_⟩)
  · exact Finset.compl_subset_compl.mpr (Finset.subset_insert a ancestors)
  · exact h (compl_injective heq ▸ Finset.mem_insert_self a ancestors)

/-- A `TypeError` is its message. -/
def serializeCanonicalJson [Fintype α] (D : Doubles ν) (heap : Heap ν α) (value : Value ν α)
    (ancestors : Finset α) : Except String Text16 :=
  match value with
  | .null => .ok nullText
  | .bool b => .ok (boolText b)
  | .str s => .ok (quote s)
  | .num n =>
    if !D.isFinite n then .error "Canonical JSON does not support non-finite numbers"
    else if n = D.negZero then .ok [unit '0']
    else .ok (D.text n)
  | .other type => .error s!"Canonical JSON does not support {type}"
  | .ref a =>
    if _h : a ∈ ancestors then .error "Canonical JSON does not support cyclic values"
    else
      match heap a with
      | .array slots named => do
        if named ≠ [] then throw "Canonical JSON arrays cannot have named properties"
        let texts ← slots.mapM fun slot =>
          match slot with
          | none => throw "Canonical JSON arrays cannot be sparse"
          | some v => serializeCanonicalJson D heap v (insert a ancestors)
        return unit '[' :: join texts ++ [unit ']']
      | .object plain fields _ => do
        if !plain then throw "Canonical JSON accepts only plain objects"
        let texts ← (sortKeys fields).mapM fun f => do
          let text ← serializeCanonicalJson D heap f.2 (insert a ancestors)
          return quote f.1 ++ unit ':' :: text
        return unit '\x7b' :: join texts ++ [unit '\x7d']
termination_by ancestorsᶜ.card
decreasing_by
  all_goals exact card_compl_insert_lt _h

variable [Fintype α]

def canonicalJson (D : Doubles ν) (heap : Heap ν α) (value : Value ν α) : Except String Text16 :=
  serializeCanonicalJson D heap value ∅

/-! ### What is accepted -/

theorem exists_return {ε β γ : Type} {x : Except ε β} {g : β → γ} :
    (∃ c, (x >>= fun b => pure (g b)) = .ok c) ↔ ∃ b, x = .ok b := by
  simp only [bind_ok, pure_ok]
  constructor
  · rintro ⟨c, b, hb, -⟩
    exact ⟨b, hb⟩
  · rintro ⟨b, hb⟩
    exact ⟨g b, b, hb, rfl⟩

/-- **One value** is accepted if it is plain, is none of its ancestors, and all it holds is accepted. -/
theorem serialize_ok_iff :
    (∃ t, serializeCanonicalJson D heap v ancestors = .ok t) ↔ Plain D heap v ∧
      ∀ a, v = .ref a → a ∉ ancestors ∧ ∀ w, Child heap v w →
        ∃ t, serializeCanonicalJson D heap w (insert a ancestors) = .ok t := by
  rw [serializeCanonicalJson.eq_def]
  cases v with
  | null | bool | str | other => simp [Plain]
  | num n =>
    cases hfinite : D.isFinite n with
    | true =>
      dsimp only
      split_ifs <;> simp_all [Plain]
    | false => simp [Plain, hfinite]
  | ref a =>
    dsimp only
    by_cases ha : a ∈ ancestors
    · simp [ha]
    rw [dif_neg ha]
    simp only [Plain, Value.ref.injEq, forall_eq', ha, not_false_eq_true, true_and, Child,
      exists_eq_left']
    cases heap a with
    | array slots named =>
      dsimp only
      by_cases hnamed : named = []
      · rw [if_neg (not_not.mpr hnamed)]
        refine exists_return.trans (exists_mapM_ok.trans ⟨fun h => ?_, fun h slot hslot => ?_⟩)
        · exact ⟨⟨fun hnone => (h none hnone).elim nofun, hnamed⟩, fun w hw => h (some w) hw⟩
        · cases slot with
          | none => exact absurd hslot h.1.1
          | some w => exact h.2 w hslot
      · simp [hnamed]
    | object plain fields distinct =>
      dsimp only
      cases plain with
      | false => simp
      | true =>
        rw [if_neg (by decide)]
        refine exists_return.trans (exists_mapM_ok.trans ?_)
        simp only [exists_return, (sortKeys_perm fields).mem_iff]
        exact ⟨fun h => ⟨trivial, fun w ⟨f, hf, hw⟩ => hw ▸ h f hf⟩, fun h f hf => h.2 f.2 ⟨f, hf, rfl⟩⟩

theorem exists_serialize (h : ∃ t, serializeCanonicalJson D heap v ancestors = .ok t)
    (hw : ReflTransGen (Child heap) v w) :
    ∃ open' ⊇ ancestors, ∃ t, serializeCanonicalJson D heap w open' = .ok t := by
  induction hw with
  | refl => exact ⟨ancestors, subset_rfl, h⟩
  | tail _ hchild ih =>
    obtain ⟨open', hsub, hok⟩ := ih
    obtain ⟨a, rfl, -⟩ := id hchild
    obtain ⟨-, hchildren⟩ := (serialize_ok_iff.mp hok).2 a rfl
    exact ⟨insert a open', hsub.trans (Finset.subset_insert a open'), hchildren _ hchild⟩

theorem serialize_total
    (h : ∀ w, ReflTransGen (Child heap) v w → Plain D heap w ∧ ¬TransGen (Child heap) w w)
    (hopen : ∀ a ∈ ancestors, ¬ReflTransGen (Child heap) v (.ref a)) :
    ∃ t, serializeCanonicalJson D heap v ancestors = .ok t := by
  induction hn : ancestorsᶜ.card using Nat.strong_induction_on generalizing ancestors v with
  | _ n ih =>
    refine serialize_ok_iff.mpr ⟨(h v .refl).1, ?_⟩
    rintro a rfl
    have ha : a ∉ ancestors := fun ha => hopen a ha .refl
    refine ⟨ha, fun w hw => ih _ (hn ▸ card_compl_insert_lt ha)
      (fun x hx => h x (.head hw hx)) (fun b hb hreach => ?_) rfl⟩
    rcases Finset.mem_insert.mp hb with rfl | hb
    · exact (h _ .refl).2 (.head' hw hreach)
    · exact hopen b hb (.head hw hreach)

/-- **What is accepted**: all that can be reached is plain, and nothing holds itself. -/
theorem canonicalJson_ok_iff : (∃ t, canonicalJson D heap v = .ok t) ↔
    ∀ w, ReflTransGen (Child heap) v w → Plain D heap w ∧ ¬TransGen (Child heap) w w := by
  constructor
  · intro h w hw
    obtain ⟨_, -, hok⟩ := exists_serialize h hw
    refine ⟨(serialize_ok_iff.mp hok).1, fun hcycle => ?_⟩
    obtain ⟨c, hchild, hback⟩ := TransGen.head'_iff.mp hcycle
    obtain ⟨a, rfl, -⟩ := id hchild
    obtain ⟨-, hchildren⟩ := (serialize_ok_iff.mp hok).2 a rfl
    -- back at `a`, it is among its own ancestors
    obtain ⟨_, hsub, hagain⟩ := exists_serialize (hchildren c hchild) hback
    exact ((serialize_ok_iff.mp hagain).2 a rfl).1 (hsub (Finset.mem_insert_self a _))
  · exact fun h => serialize_total h (by simp)

/-- JSON values are accepted, however much of them is shared. -/
theorem represents_ok (h : Represents heap j v) (hj : j.Valid fun n => D.isFinite n = true) :
    ∃ t, canonicalJson D heap v = .ok t := by
  refine canonicalJson_ok_iff.mpr fun w hw => ?_
  rcases reflTransGen_iff_eq_or_transGen.mp hw with rfl | hw
  · exact ⟨represents_plain h hj, represents_acyclic h hj⟩
  · obtain ⟨k, -, hk, hvalid⟩ := represents_transGen h hj hw
    exact ⟨represents_plain hk hvalid, represents_acyclic hk hvalid⟩

theorem texts_eq {β γ : Type} {P : γ → Text16 → Prop} {g : β → Text16} {vs : List γ}
    {texts : List Text16} (h : List.Forall₂ P vs texts) {xs : List β} (hlength : vs.length = xs.length)
    (hall : ∀ q ∈ xs.zip vs, ∀ t, P q.2 t → t = g q.1) : texts = xs.map g := by
  induction h generalizing xs with
  | nil => rw [List.eq_nil_of_length_eq_zero hlength.symm]; rfl
  | cons hfirst _ ih =>
    cases xs with
    | nil => cases hlength
    | cons x xs =>
      rw [List.map_cons, hall (x, _) List.mem_cons_self _ hfirst,
        ih (Nat.succ.inj hlength) fun q hq => hall q (List.mem_cons_of_mem _ hq)]

/-- **The text** of a value is that of its normal form. -/
theorem serialize_text (hD : D.Lawful) (h : Represents heap j v)
    (hj : j.Valid fun n => D.isFinite n = true) {t : Text16}
    (ht : serializeCanonicalJson D heap v ancestors = .ok t) :
    t = print D.toNumerals (j.normalize D.unsigned byKeys) := by
  induction j using ind generalizing v ancestors t with
  | null | bool b | str s =>
    rw [Represents] at h
    subst h
    rw [serializeCanonicalJson.eq_def] at ht
    cases ht
    rw [Json.normalize] <;> simp [print]
  | num n =>
    rw [Represents] at h
    rw [Valid] at hj
    subst h
    rw [serializeCanonicalJson.eq_def] at ht
    dsimp only at ht
    rw [if_neg (by simp [hj])] at ht
    rw [Json.normalize, print, (hD.unsigned hj).2]
    split_ifs at ht with hzero
    · cases ht
      rw [hzero, hD.text_negZero]
    · cases ht
      rfl
  | arr xs ih =>
    rw [Represents] at h
    rw [Valid] at hj
    obtain ⟨a, vs, rfl, hcell, hlength, hall⟩ := h
    rw [serializeCanonicalJson.eq_def] at ht
    dsimp only at ht
    rw [hcell] at ht
    dsimp only at ht
    split at ht
    · cases ht
    rw [if_neg (not_not.mpr rfl), bind_ok] at ht
    obtain ⟨texts, htexts, ht⟩ := ht
    cases pure_ok.mp ht
    have htexts := mapM_ok (P := fun slot text => ∀ w, slot = some w →
      serializeCanonicalJson D heap w (insert a ancestors) = .ok text)
      (fun slot text hslot w hw => by rw [hw] at hslot; exact hslot) htexts
    rw [List.forall₂_map_left_iff] at htexts
    have htext := texts_eq (g := fun x => print D.toNumerals (x.normalize D.unsigned byKeys)) htexts
      hlength fun q hq t ht =>
        ih q.1 (List.of_mem_zip hq).1 (hall q hq) (hj q.1 (List.of_mem_zip hq).1) (ht q.2 rfl)
    rw [Json.normalize, print, List.map_map, htext]
    rfl
  | obj o ih =>
    rw [Represents] at h
    rw [Valid] at hj
    obtain ⟨a, fields, distinct, rfl, hcell, hkeys, hall⟩ := h
    rw [serializeCanonicalJson.eq_def] at ht
    dsimp only at ht
    rw [hcell] at ht
    dsimp only at ht
    split at ht
    · cases ht
    rw [if_neg (by decide), bind_ok] at ht
    obtain ⟨texts, htexts, ht⟩ := ht
    cases pure_ok.mp ht
    have htexts := mapM_ok (P := fun f text => ∃ s,
      serializeCanonicalJson D heap f.2 (insert a ancestors) = .ok s ∧ text = quote f.1 ++ unit ':' :: s)
      (fun f text hf => by
        obtain ⟨s, hs, htext⟩ := bind_ok.mp hf
        exact ⟨s, hs, (pure_ok.mp htext).symm⟩) htexts
    have hsorted : (sortKeys fields).map Prod.fst = (sortKeys o).map Prod.fst := by
      rw [keys_sortKeys, keys_sortKeys, hkeys]
    have hlength : (sortKeys fields).length = (sortKeys o).length := by
      simpa using congrArg List.length hsorted
    have htext := texts_eq (g := fun f => quote f.1 ++ unit ':' ::
      print D.toNumerals (f.2.normalize D.unsigned byKeys)) htexts hlength (by
        rintro q hq t ⟨s, hs, rfl⟩
        obtain ⟨hleft, hright⟩ := List.of_mem_zip hq
        have hf := (sortKeys_perm o).subset hleft
        have hg := (sortKeys_perm fields).subset hright
        have hkey : q.2.1 = q.1.1 := by
          obtain ⟨i, hi, rfl⟩ := List.mem_iff_getElem.mp hq
          have hi' : i < (sortKeys fields).length := by simp at hi; omega
          have hget := List.getElem_of_eq hsorted (i := i) (by simpa using hi')
          simpa using hget
        rw [hkey, ih q.1 hf (hall q.1 hf q.2 hg hkey) (hj.2 q.1 hf) hs])
    rw [Json.normalize, print, htext, show byKeys.arrange (o.map fun f => (f.1, f.2.normalize D.unsigned
      byKeys)) = _ from sortKeys_map _ o, List.map_map]
    rfl

/-! ### Fingerprints -/

inductive PurgeDomain where
  | accountSecurity
  | accountProfile
  | accountMemberships
  | organizationRelational
  | attachments
  | attachmentPreviews
  | documents
  | exports
  | reports
  | integrationOauth
  | billingProvider
  | finalVerification
  deriving DecidableEq

def PurgeDomain.label : PurgeDomain → String
  | .accountSecurity => "account_security"
  | .accountProfile => "account_profile"
  | .accountMemberships => "account_memberships"
  | .organizationRelational => "organization_relational"
  | .attachments => "attachments"
  | .attachmentPreviews => "attachment_previews"
  | .documents => "documents"
  | .exports => "exports"
  | .reports => "reports"
  | .integrationOauth => "integration_oauth"
  | .billingProvider => "billing_provider"
  | .finalVerification => "final_verification"

inductive PurgeLocatorKind where
  | sqlKeyset
  | objectKey
  | providerResource
  deriving DecidableEq

def PurgeLocatorKind.label : PurgeLocatorKind → String
  | .sqlKeyset => "sql_keyset"
  | .objectKey => "object_key"
  | .providerResource => "provider_resource"

def ascii (s : String) : Text16 := s.toList.map unit

/-- What `purgeLocatorFingerprint` hashes. -/
def purgeLocatorPreimage (D : Doubles ν) (domain : PurgeDomain) (locatorKind : PurgeLocatorKind)
    (heap : Heap ν α) (locator : Value ν α) : Except String Text16 := do
  let canonicalLocator ← canonicalJson D heap locator
  return ascii domain.label ++ unit '\n' :: ascii locatorKind.label ++ unit '\n' :: canonicalLocator

def purgeDomains : List PurgeDomain :=
  [.accountSecurity, .accountProfile, .accountMemberships, .organizationRelational, .attachments,
    .attachmentPreviews, .documents, .exports, .reports, .integrationOauth, .billingProvider,
    .finalVerification]

theorem mem_purgeDomains (d : PurgeDomain) : d ∈ purgeDomains := by
  cases d <;> decide

theorem domain_label (d d' : PurgeDomain) : unit '\n' ∉ ascii d.label ∧
    (ascii d.label = ascii d'.label → d = d') := by
  have hplain : ∀ d ∈ purgeDomains, unit '\n' ∉ ascii d.label := by decide
  have hdistinct : (purgeDomains.map fun d => ascii d.label).Nodup := by decide
  exact ⟨hplain d (mem_purgeDomains d),
    List.inj_on_of_nodup_map hdistinct (mem_purgeDomains d) (mem_purgeDomains d')⟩

theorem kind_label (k k' : PurgeLocatorKind) : unit '\n' ∉ ascii k.label ∧
    (ascii k.label = ascii k'.label → k = k') := by
  cases k <;> cases k' <;> decide

theorem append_cons_inj {u : CodeUnit} {s s' t t' : Text16} (hs : u ∉ s) (hs' : u ∉ s')
    (h : s ++ u :: t = s' ++ u :: t') : s = s' ∧ t = t' := by
  induction s generalizing s' with
  | nil =>
    cases s' with
    | nil => exact ⟨rfl, (List.cons.inj h).2⟩
    | cons x s' => exact absurd (List.cons.inj h).1 (List.ne_of_not_mem_cons hs')
  | cons y s ih =>
    cases s' with
    | nil => exact absurd (List.cons.inj h).1.symm (List.ne_of_not_mem_cons hs)
    | cons x s' =>
      obtain ⟨hhead, htail⟩ := List.cons.inj h
      obtain ⟨heq, ht⟩ := ih (List.not_mem_of_not_mem_cons hs) (List.not_mem_of_not_mem_cons hs') htail
      exact ⟨by rw [hhead, heq], ht⟩

/-- A JSON value, with finite numbers, stands at a place of the heap. -/
def HoldsJson (D : Doubles ν) (heap : Heap ν α) (v : Value ν α) (a : Json ν) : Prop :=
  Represents heap a v ∧ a.Valid fun n => D.isFinite n = true

theorem canonicalJson_holds (hD : D.Lawful) {a : Json ν} (ha : HoldsJson D heap v a) :
    canonicalJson D heap v = .ok (print D.toNumerals (a.normalize D.unsigned byKeys)) ∧
      parse D.toNumerals (print D.toNumerals (a.normalize D.unsigned byKeys)) =
        some (a.normalize D.unsigned byKeys) := by
  obtain ⟨t, ht⟩ := represents_ok ha.1 ha.2
  exact ⟨serialize_text hD ha.1 ha.2 ht ▸ ht,
    parse_print (ha.2.normalize fun _ hn => (hD.unsigned hn).1)⟩

/-- What the canonical texts of two JSON values say about them, and about what has one. -/
structure Identified (D : Doubles ν) {β : Type} [Fintype β] [DecidableEq β] (heap : Heap ν α)
    (heap' : Heap ν β) (v : Value ν α) (w : Value ν β) (a b : Json ν) : Prop where
  text : ∃ s t, canonicalJson D heap v = .ok s ∧ canonicalJson D heap' w = .ok t ∧
    (s = t ↔ Same (fun _ => true) D.unsigned a b)
  parsed : ∃ s c, canonicalJson D heap v = .ok s ∧ parse D.toNumerals s = some c ∧
    Same (fun _ => true) D.unsigned a c
  accepted : ∀ u, (∃ t, canonicalJson D heap u = .ok t) ↔
    ∀ x, ReflTransGen (Child heap) u x → Plain D heap x ∧ ¬TransGen (Child heap) x x
  preimage : ∀ d d' k k', ∃ s t, purgeLocatorPreimage D d k heap v = .ok s ∧
    purgeLocatorPreimage D d' k' heap' w = .ok t ∧
      (s = t ↔ d = d' ∧ k = k' ∧ Same (fun _ => true) D.unsigned a b)

/-- **Canonical locators**: the text of a JSON value is that of the same values only, and is read as the
value; the preimage also tells the domain and the kind.  What is cyclic, sparse, not plain or not finite
is refused, and nothing else. -/
theorem locators_identified (hD : D.Lawful) {β : Type} [Fintype β] [DecidableEq β] {heap' : Heap ν β}
    {w : Value ν β} {a b : Json ν} (ha : HoldsJson D heap v a) (hb : HoldsJson D heap' w b) :
    Identified D heap heap' v w a b := by
  obtain ⟨hs, hparse⟩ := canonicalJson_holds hD ha
  obtain ⟨ht, hparse'⟩ := canonicalJson_holds hD hb
  have hsame : print D.toNumerals (a.normalize D.unsigned byKeys) =
      print D.toNumerals (b.normalize D.unsigned byKeys) ↔ Same (fun _ => true) D.unsigned a b := by
    rw [← normalize_eq_iff ha.2 hb.2]
    refine ⟨fun h => ?_, congrArg _⟩
    rw [h, hparse'] at hparse
    exact (Option.some.inj hparse).symm
  refine ⟨⟨_, _, hs, ht, hsame⟩, ⟨_, _, hs, hparse, same_normalize D.unsigned_unsigned a⟩,
    fun _ => canonicalJson_ok_iff,
    fun d d' k k' => ⟨_, _, map_ok.mpr ⟨_, hs, rfl⟩, map_ok.mpr ⟨_, ht, rfl⟩, ?_⟩⟩
  rw [← hsame]
  constructor
  · intro h
    simp only [List.append_assoc, List.cons_append] at h
    obtain ⟨hdomain, h⟩ := append_cons_inj (domain_label d d').1 (domain_label d' d).1 h
    obtain ⟨hkind, h⟩ := append_cons_inj (kind_label k k').1 (kind_label k' k).1 h
    exact ⟨(domain_label d d').2 hdomain, (kind_label k k').2 hkind, h⟩
  · rintro ⟨rfl, rfl, h⟩
    rw [h]

/-- Two properties share an array. -/
def sampleHeap : Heap (Fin 12) (Fin 2) := fun a =>
  if a = 0 then .object true [([unit 'b'], .ref 1), ([unit 'a'], .ref 1)] (by decide)
  else .array [some (.num 7)] []

def sampleJson : Json (Fin 12) := .obj [([unit 'b'], .arr [.num 7]), ([unit 'a'], .arr [.num 7])]

theorem sampleHeap_holds : HoldsJson digitDoubles sampleHeap (.ref 0) sampleJson := by
  have harr : Represents sampleHeap (.arr [.num 7]) (.ref 1) := by
    rw [Represents]
    refine ⟨1, [.num 7], rfl, rfl, rfl, fun q hq => ?_⟩
    cases List.mem_singleton.mp hq
    rw [Represents]
  constructor
  · rw [sampleJson, Represents]
    refine ⟨0, [([unit 'b'], .ref 1), ([unit 'a'], .ref 1)], by decide, rfl, rfl, rfl, ?_⟩
    simp [harr]
  · simp [sampleJson, Valid, digitDoubles]
    decide

theorem locators_identified_shared : Identified digitDoubles sampleHeap sampleHeap (.ref 0) (.ref 0)
    sampleJson sampleJson :=
  locators_identified digitDoubles_lawful sampleHeap_holds sampleHeap_holds

end CalmBoard.DataLifecycle
