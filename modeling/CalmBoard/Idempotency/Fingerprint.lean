import CalmBoard.Lib.Json
import CalmBoard.Values
import CalmBoard.Lib.Fallible

/-!
# CalmBoard.Idempotency.Fingerprint — what identifies a request

The requests are values that `JSON.parse` returns, so nothing in them is shared, a date or `undefined`.
Their texts are code units, since any text can be a key.

* `canonicalize`, `requestText`: the value and the text that `hashIdempotencyRequest` makes of a request.
* `ownOrder`: how the properties of the result are arranged.
* `canonicalize_ok`: it is the normal form under this arrangement, if all numbers are finite.
* `identifies_iff`: which pairs of requests are told apart.
-/

namespace CalmBoard.Idempotency.Fingerprint

open Fallible Json

variable {ν : Type}

/-! ### Plain objects -/

def proto : Text16 := "__proto__".toList.map unit

/-- `result[key] = entry`: the key `__proto__` sets the prototype, which makes no property. -/
def assign {α : Type} (result : List (Text16 × α)) (key : Text16) (entry : α) : List (Text16 × α) :=
  if key = proto then result else result ++ [(key, entry)]

/-- The index of an array that a key is. -/
def arrayIndex? (key : Text16) : Option ℕ :=
  let n := key.foldl (fun n u => 10 * n + (u.val - 48)) 0
  if key ≠ [] ∧ (∀ u ∈ key.map Fin.val, 48 ≤ u ∧ u < 58) ∧ (key.head? = some 48 → key.length = 1) ∧
    n < 4294967295 then some n else none

def indexLe {α : Type} (f g : Text16 × α) : Prop :=
  (arrayIndex? f.1).getD 0 ≤ (arrayIndex? g.1).getD 0

instance {α : Type} : DecidableRel (indexLe (α := α)) := fun _ _ => Nat.decLe _ _

/-- How the properties of an object are listed: the indices, then the others as they were created. -/
def listed {α : Type} (o : List (Text16 × α)) : List (Text16 × α) :=
  (o.filter fun f => (arrayIndex? f.1).isSome).insertionSort indexLe ++
    o.filter fun f => !(arrayIndex? f.1).isSome

/-- The object that is built from the entries of another. -/
def collect (entries : List (Text16 × Except RepoError (Json ν))) : Except RepoError (Json ν) := do
  let fields ← (sortKeys entries).mapM fun f => (fun entry => (f.1, entry)) <$> f.2
  return .obj (listed (fields.foldl (fun result f => assign result f.1 f.2) []))

def canonicalize (D : Doubles ν) : Json ν → Except RepoError (Json ν)
  | .num n =>
    if !D.isFinite n then .error (.conflict "idempotency request contains a non-finite number")
    else .ok (.num n)
  | .arr xs => .arr <$> xs.mapM (canonicalize D)
  | .obj o => collect (o.map fun f => (f.1, canonicalize D f.2))
  | v => .ok v
termination_by v => sizeOf v
decreasing_by
  · decreasing_tactic
  · exact sizeOf_field ‹_›

/-- `JSON.stringify(canonicalize(value))` -/
def requestText (D : Doubles ν) (value : Json ν) : Except RepoError Text16 :=
  print D.toNumerals <$> canonicalize D value

/-! ### The arrangement -/

def kept (key : Text16) : Bool := key ≠ proto

theorem listed_perm {α : Type} (o : List (Text16 × α)) : (listed o).Perm o :=
  ((List.perm_insertionSort _ _).append_right _).trans (List.filter_append_perm _ o)

theorem listed_map {α β : Type} (g : α → β) (o : List (Text16 × α)) :
    listed (o.map fun f => (f.1, g f.2)) = (listed o).map fun f => (f.1, g f.2) := by
  unfold listed
  rw [List.filter_map, List.filter_map, List.map_append,
    List.map_insertionSort indexLe indexLe (fun f : Text16 × α => (f.1, g f.2)) _
      fun _ _ _ _ => Iff.rfl]
  rfl

/-- The properties but `__proto__`, as an object lists them. -/
def ownOrder : Arrangement kept ν where
  arrange o := listed (sortKeys (o.filter fun f => kept f.1))
  perm o := (listed_perm _).trans (sortKeys_perm _)
  congr o p ho h := by
    rw [sortKeys_congr ((List.filter_sublist.map _).nodup ho) h]
  map g o := by
    rw [List.filter_map, ← listed_map, ← sortKeys_map]
    rfl

theorem foldl_assign {α : Type} (o acc : List (Text16 × α)) :
    o.foldl (fun result f => assign result f.1 f.2) acc = acc ++ o.filter fun f => kept f.1 := by
  induction o generalizing acc with
  | nil => simp
  | cons f o ih =>
    rw [List.foldl_cons, ih]
    by_cases hproto : f.1 = proto <;> simp [assign, kept, hproto]

theorem collect_ok {o : List (Text16 × Json ν)} (ho : (o.map Prod.fst).Nodup) :
    collect (o.map fun f => (f.1, (.ok f.2 : Except RepoError (Json ν)))) =
      .ok (.obj (ownOrder.arrange o)) := by
  have hmap : ((sortKeys o).map fun f => (f.1, (.ok f.2 : Except RepoError (Json ν)))).mapM
      (fun f => (fun entry => (f.1, entry)) <$> f.2) = .ok (sortKeys o) := mapM_map_ok fun _ _ => rfl
  unfold collect
  rw [sortKeys_map (fun v => (.ok v : Except RepoError (Json ν))) o, hmap]
  refine congrArg (fun o => Except.ok (obj (listed o))) ?_
  rw [foldl_assign, List.nil_append, filter_sortKeys kept ho]

variable {D : Doubles ν} {a b : Json ν}

/-- A request has a canonical form if all its numbers are finite. -/
theorem canonicalize_ok (ha : a.Valid fun _ => True) :
    (∀ c, canonicalize D a = .ok c → a.Valid fun n => D.isFinite n = true) ∧
      ((a.Valid fun n => D.isFinite n = true) → canonicalize D a = .ok (a.normalize id ownOrder)) := by
  induction a using ind with
  | null | bool | str => simp [canonicalize, Valid, Json.normalize]
  | num n =>
    rw [canonicalize, Valid, Json.normalize, id]
    cases D.isFinite n <;> simp
  | arr xs ih =>
    rw [Valid] at ha
    rw [canonicalize, Valid, Json.normalize]
    refine ⟨fun c hc x hx => ?_, fun h => ?_⟩
    · obtain ⟨ys, hys, -⟩ := map_ok.mp hc
      obtain ⟨y, hy⟩ := exists_mapM_ok.mp ⟨ys, hys⟩ x hx
      exact (ih x hx (ha x hx)).1 y hy
    · rw [mapM_of_ok fun x hx => (ih x hx (ha x hx)).2 (h x hx)]
      rfl
  | obj o ih =>
    rw [Valid] at ha
    rw [canonicalize, Valid, Json.normalize]
    refine ⟨fun c hc => ⟨ha.1, fun f hf => ?_⟩, fun h => ?_⟩
    · obtain ⟨fields, hfields, -⟩ := bind_ok.mp hc
      have hmem : (f.1, canonicalize D f.2) ∈ sortKeys (o.map fun f => (f.1, canonicalize D f.2)) :=
        (sortKeys_perm _).symm.subset (List.mem_map_of_mem hf)
      obtain ⟨y, hy⟩ := exists_mapM_ok.mp ⟨fields, hfields⟩ _ hmem
      obtain ⟨entry, hentry, -⟩ := map_ok.mp hy
      exact (ih f hf (ha.2 f hf)).1 entry hentry
    · rw [← collect_ok (by rw [keys_normalize]; exact ha.1), List.map_map]
      refine congrArg collect (List.map_congr_left fun f hf => ?_)
      rw [(ih f hf (ha.2 f hf)).2 (h.2 f hf)]
      rfl

/-- The text tells two requests apart, up to the order of properties. -/
def Identifies [DecidableEq ν] (D : Doubles ν) (a b : Json ν) : Prop :=
  (∃ t, requestText D a = .ok t ∧ requestText D b = .ok t) ↔ Same (fun _ => true) D.unsigned a b

def Finite (D : Doubles ν) (a : Json ν) : Prop := a.Valid fun n => D.isFinite n = true

/-- What is the same up to the order of properties is the same up to `__proto__`. -/
theorem Same.kept [DecidableEq ν] (ha : a.Valid fun _ => True) (hb : b.Valid fun _ => True)
    (h : Same (fun _ => true) D.unsigned a b) : Same kept D.unsigned a b := by
  have hnormal := (normalize_eq_iff (A := byKeys) ha hb).mpr h
  have hsame : ∀ {v : Json ν}, (v.Valid fun _ => True) → v.normalize D.unsigned ownOrder =
      (v.normalize D.unsigned byKeys).normalize D.unsigned ownOrder := fun hv =>
    (normalize_eq_iff hv (hv.normalize (q := fun _ => True) fun _ _ => trivial)).mpr (same_normalize D.unsigned_unsigned _)
  rw [← normalize_eq_iff (A := ownOrder) ha hb, hsame ha, hsame hb, hnormal]

theorem requestText_eq [DecidableEq ν] (hD : D.Lawful) (ha : a.Valid fun _ => True)
    (hb : b.Valid fun _ => True) : (∃ t, requestText D a = .ok t ∧ requestText D b = .ok t) ↔
      Finite D a ∧ Finite D b ∧ Same kept D.unsigned a b := by
  have htext : ∀ {v : Json ν}, (v.Valid fun _ => True) → Finite D v → requestText D v =
      .ok (print D.toNumerals (v.normalize D.unsigned ownOrder)) := fun hv hfinite => by
    rw [requestText, (canonicalize_ok hv).2 hfinite,
      print_normalize D.toNumerals hfinite fun n hn => (hD.unsigned hn).2]
    rfl
  have hparse : ∀ {v : Json ν}, Finite D v → parse D.toNumerals (print D.toNumerals
      (v.normalize D.unsigned ownOrder)) = some (v.normalize D.unsigned ownOrder) := fun hfinite =>
    parse_print (hfinite.normalize fun _ hn => (hD.unsigned hn).1)
  rw [← normalize_eq_iff (A := ownOrder) ha hb]
  constructor
  · rintro ⟨t, hta, htb⟩
    obtain ⟨c, hc, -⟩ := map_ok.mp hta
    obtain ⟨d, hd, -⟩ := map_ok.mp htb
    have hfa := (canonicalize_ok ha).1 c hc
    have hfb := (canonicalize_ok hb).1 d hd
    have hsame := Except.ok.inj ((htext ha hfa).symm.trans (hta.trans (htb.symm.trans (htext hb hfb))))
    refine ⟨hfa, hfb, Option.some.inj ?_⟩
    rw [← hparse hfa, ← hparse hfb, hsame]
  · rintro ⟨hfa, hfb, h⟩
    exact ⟨_, htext ha hfa, by rw [htext hb hfb, h]⟩

/-- **Fingerprints**: they identify two requests exactly if these do not differ in properties named
`__proto__` only, and all their numbers are finite if they are equal. -/
theorem identifies_iff [DecidableEq ν] (hD : D.Lawful) (ha : a.Valid fun _ => True)
    (hb : b.Valid fun _ => True) : Identifies D a b ↔
      (Finite D a → Finite D b → Same kept D.unsigned a b → Same (fun _ => true) D.unsigned a b) ∧
        (Same (fun _ => true) D.unsigned a b → Finite D a ∧ Finite D b) := by
  rw [Identifies, requestText_eq hD ha hb]
  constructor
  · exact fun h => ⟨fun hfa hfb hs => h.mp ⟨hfa, hfb, hs⟩, fun hs => ⟨(h.mpr hs).1, (h.mpr hs).2.1⟩⟩
  · rintro ⟨hproto, hfinite⟩
    exact ⟨fun ⟨hfa, hfb, hs⟩ => hproto hfa hfb hs,
      fun hs => ⟨(hfinite hs).1, (hfinite hs).2, Same.kept ha hb hs⟩⟩

def protoRequest : Json (Fin 12) := .obj [(proto, .num 1)]

theorem identifies_iff_proto : Identifies digitDoubles protoRequest (.obj []) ↔
    (Finite digitDoubles protoRequest → Finite digitDoubles (.obj []) →
      Same kept digitDoubles.unsigned protoRequest (.obj []) →
        Same (fun _ => true) digitDoubles.unsigned protoRequest (.obj [])) ∧
      (Same (fun _ => true) digitDoubles.unsigned protoRequest (.obj []) →
        Finite digitDoubles protoRequest ∧ Finite digitDoubles (.obj [])) :=
  identifies_iff digitDoubles_lawful (by simp [protoRequest, Valid]) (by simp [Valid])

/-- `\x7b"__proto__":1\x7d` and `\x7b\x7d` -/
theorem proto_collides : ¬Identifies digitDoubles protoRequest (.obj []) := by
  have hempty : canonicalize digitDoubles (.obj []) = .ok (.obj []) := by
    rw [canonicalize]
    rfl
  have hproto : canonicalize digitDoubles protoRequest = .ok (.obj []) := by
    rw [protoRequest, canonicalize, List.map_singleton, canonicalize, if_neg (by decide)]
    rfl
  intro h
  have hsame := h.mp ⟨_, map_ok.mpr ⟨_, hproto, rfl⟩, map_ok.mpr ⟨_, hempty, rfl⟩⟩
  rw [protoRequest, Same] at hsame
  exact absurd hsame.1 (by decide)

end CalmBoard.Idempotency.Fingerprint
