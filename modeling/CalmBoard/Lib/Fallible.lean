import Mathlib.Data.List.Basic

/-!
# CalmBoard.Lib.Fallible — what a computation that succeeded went through

A fallible function is a chain of checks and steps in `Except`.  The lemmas here take an equation
`… = .ok b` apart, one link at a time.

* `bind_ok`, `then_ok`, `guard_ok`, `map_ok`, `mapM_ok`: sequencing, a check, a check that throws, a
  mapped result, a mapped list.
* `foldlM_ok`, `foldlM_total`, `foldlM_reaches`: the invariant rule for a loop that may fail, its
  variant for success, and the one for what an element of the list establishes.
* `foldlM_each`, `foldlM_ok_iff`: loops over elements that leave each other alone.
* `forIn_ok`, `forIn_total`: loops that only check.
* `foldlM_congr`, `foldlM_same`: loops whose steps agree, or do nothing.
* `Returns`: a postcondition for the result and one for the error, with a rule for every form of a
  computation.
-/

namespace CalmBoard.Fallible

theorem bind_ok {ε α β : Type} {x : Except ε α} {f : α → Except ε β} {b : β} :
    (x >>= f) = .ok b ↔ ∃ a, x = .ok a ∧ f a = .ok b := by
  cases x with
  | error e => simp [bind, Except.bind]
  | ok a => simp [bind, Except.bind]

theorem map_ok {ε α β : Type} {x : Except ε α} {f : α → β} {b : β} :
    f <$> x = .ok b ↔ ∃ a, x = .ok a ∧ f a = b := by
  cases x with
  | error e => simp [Functor.map, Except.map]
  | ok a => simp [Functor.map, Except.map]

@[simp] theorem pure_ok {ε α : Type} {a b : α} : (pure a : Except ε α) = .ok b ↔ a = b := by
  simp [pure, Except.pure]

@[simp] theorem throw_ok {ε α : Type} {e : ε} {a : α} : (throw e : Except ε α) = .ok a ↔ False := by
  simp [throw, throwThe, MonadExceptOf.throw]

@[simp] theorem throw_bind {ε α β : Type} {e : ε} {f : α → Except ε β} :
    (throw e >>= f : Except ε β) = throw e := rfl

/-- A check, then the rest. -/
theorem then_ok {ε β : Type} {x : Except ε Unit} {rest : Except ε β} {b : β} :
    (x >>= fun _ => rest) = .ok b ↔ x = .ok () ∧ rest = .ok b := by
  cases x with
  | error e => simp [bind, Except.bind]
  | ok u => simp [bind, Except.bind]

/-- A rest that does nothing. -/
theorem bind_same {ε α : Type} {x : Except ε α} {f : α → Except ε α} (h : ∀ a, f a = .ok a) :
    (x >>= f) = x := by
  cases x with
  | error e => rfl
  | ok a => exact h a

/-- A check that throws, then the rest. -/
theorem guard_ok {ε β : Type} {p : Prop} [Decidable p] {e : ε} {rest : Except ε β} {b : β} :
    (if p then throw e else rest) = .ok b ↔ ¬p ∧ rest = .ok b := by
  by_cases hp : p <;> simp [hp]

/-- A check that is made in one case only, then the rest. -/
theorem rest_ok {ε α β : Type} {p : Prop} [Decidable p] {x : Except ε α} {rest : Except ε β} {b : β}
    (h : (if p then x >>= fun _ => rest else rest) = .ok b) : rest = .ok b := by
  split at h
  · obtain ⟨-, -, h⟩ := bind_ok.mp h
    exact h
  · exact h

theorem mapError_ok {ε ε' α : Type} {x : Except ε α} {f : ε → ε'} {a : α} :
    x.mapError f = .ok a ↔ x = .ok a := by
  cases x <;> simp [Except.mapError]

/-- A list that is mapped, element by element. -/
theorem mapM_ok {ε α β : Type} {f : α → Except ε β} {P : α → β → Prop}
    (hf : ∀ a b, f a = .ok b → P a b) :
    ∀ {l : List α} {l' : List β}, l.mapM f = .ok l' → List.Forall₂ P l l'
  | [], l', h => by
    rw [List.mapM_nil, pure_ok] at h
    exact h ▸ .nil
  | a :: l, l', h => by
    simp only [List.mapM_cons, bind_ok, pure_ok] at h
    obtain ⟨b, hb, bs, hbs, rfl⟩ := h
    exact .cons (hf a b hb) (mapM_ok hf hbs)

theorem mapM_of_ok {ε α β : Type} {f : α → Except ε β} {g : α → β} {l : List α}
    (h : ∀ a ∈ l, f a = .ok (g a)) : l.mapM f = .ok (l.map g) := by
  induction l with
  | nil => rfl
  | cons a l ih =>
    rw [List.mapM_cons, h a List.mem_cons_self, ih fun b hb => h b (List.mem_cons_of_mem a hb)]
    rfl

/-- A list whose elements are mapped back. -/
theorem mapM_map_ok {ε α β : Type} {f : α → Except ε β} {g : β → α} {l : List β}
    (h : ∀ b ∈ l, f (g b) = .ok b) : (l.map g).mapM f = .ok l := by
  rw [List.mapM_map]
  exact (mapM_of_ok h).trans (by rw [List.map_id'])

/-- A list is mapped if every element is. -/
theorem exists_mapM_ok {ε α β : Type} {f : α → Except ε β} {l : List α} :
    (∃ l', l.mapM f = .ok l') ↔ ∀ a ∈ l, ∃ b, f a = .ok b := by
  induction l with
  | nil => exact ⟨fun _ _ h => absurd h List.not_mem_nil, fun _ => ⟨[], rfl⟩⟩
  | cons a l ih =>
    rw [List.forall_mem_cons, ← ih]
    simp only [List.mapM_cons, bind_ok, pure_ok]
    exact ⟨fun ⟨_, b, hb, l', hl, _⟩ => ⟨⟨b, hb⟩, l', hl⟩,
      fun ⟨⟨b, hb⟩, l', hl⟩ => ⟨_, b, hb, l', hl, rfl⟩⟩

/-- An element of the result comes from an element of the list. -/
theorem mem_mapM_ok {ε α β : Type} {f : α → Except ε β} {l : List α} {l' : List β} {b : β}
    (h : l.mapM f = .ok l') (hb : b ∈ l') : ∃ a ∈ l, f a = .ok b := by
  have hall := mapM_ok (P := fun a b => f a = .ok b) (fun _ _ h => h) h
  clear h
  induction hall with
  | nil => cases hb
  | cons hfirst _ ih =>
    rcases List.mem_cons.mp hb with rfl | hb
    · exact ⟨_, List.mem_cons_self, hfirst⟩
    · obtain ⟨a, ha, hfa⟩ := ih hb
      exact ⟨a, List.mem_cons_of_mem _ ha, hfa⟩

/-- A computation that is evaluated: it succeeds, with a result that passes a test. -/
theorem exists_ok {ε α : Type} {x : Except ε α} {p : α → Bool} (h : x.toOption.any p = true) :
    ∃ a, x = .ok a ∧ p a = true := by
  cases x with
  | error e => cases h
  | ok a => exact ⟨a, rfl, h⟩

def error? {ε α : Type} : Except ε α → Option ε
  | .ok _ => none
  | .error e => some e

theorem error?_eq_some {ε α : Type} {x : Except ε α} {e : ε} : error? x = some e ↔ x = .error e := by
  cases x <;> simp [error?]

/-- What a computation returns can be checked by running it. -/
instance decidableForallOk {ε α : Type} {p : α → Prop} [DecidablePred p] (x : Except ε α) :
    Decidable (∀ a, x = .ok a → p a) :=
  match x with
  | .ok a => decidable_of_iff (p a) (by simp)
  | .error _ => isTrue (by simp)

/-- **Invariant rule** for a loop: what every successful step keeps, a successful loop keeps. -/
theorem foldlM_ok {ε σ α : Type} {f : σ → α → Except ε σ} {I : σ → Prop} :
    ∀ {l : List α} {s s' : σ}, l.foldlM f s = .ok s' → I s →
      (∀ s a t, a ∈ l → I s → f s a = .ok t → I t) → I s'
  | [], s, s', h, hs, _ => by
    rw [List.foldlM_nil, pure_ok] at h
    exact h ▸ hs
  | a :: l, s, s', h, hs, hf => by
    rw [List.foldlM_cons, bind_ok] at h
    obtain ⟨t, ht, h⟩ := h
    exact foldlM_ok h (hf s a t List.mem_cons_self hs ht)
      fun s b t hb => hf s b t (List.mem_cons_of_mem a hb)

/-- The same rule for success: a loop whose steps succeed under the invariant succeeds. -/
theorem foldlM_total {ε σ α : Type} {f : σ → α → Except ε σ} {I : σ → Prop} :
    ∀ {l : List α} {s : σ}, I s → (∀ s a, a ∈ l → I s → ∃ t, f s a = .ok t ∧ I t) →
      ∃ s', l.foldlM f s = .ok s' ∧ I s'
  | [], s, hs, _ => ⟨s, rfl, hs⟩
  | a :: l, s, hs, hf => by
    obtain ⟨t, ht, hIt⟩ := hf s a List.mem_cons_self hs
    obtain ⟨s', hs', hI⟩ := foldlM_total hIt fun s b hb => hf s b (List.mem_cons_of_mem a hb)
    exact ⟨s', by rw [List.foldlM_cons, ht]; exact hs', hI⟩

theorem foldlM_congr {ε σ α : Type} {f g : σ → α → Except ε σ} :
    ∀ {l : List α} {s : σ}, (∀ s a, a ∈ l → f s a = g s a) → l.foldlM f s = l.foldlM g s
  | [], _, _ => rfl
  | a :: l, s, h => by
    rw [List.foldlM_cons, List.foldlM_cons, h s a List.mem_cons_self]
    refine congrArg (g s a >>= ·) (funext fun t => ?_)
    exact foldlM_congr fun s b hb => h s b (List.mem_cons_of_mem a hb)

/-- A loop whose steps do nothing. -/
theorem foldlM_same {ε σ α : Type} {f : σ → α → Except ε σ} {l : List α} {s : σ}
    (h : ∀ s a, a ∈ l → f s a = .ok s) : l.foldlM f s = .ok s := by
  rw [foldlM_congr (g := fun s _ => pure s) fun s a ha => h s a ha]
  induction l with
  | nil => rfl
  | cons a l ih => exact ih fun s b hb => h s b (List.mem_cons_of_mem a hb)

/-- **Loop over independent elements**: a step for one of them leaves alone what is known of the
others. -/
theorem foldlM_each {ε σ α : Type} {f : σ → α → Except ε σ} {R : α → α → Prop}
    {Before After : σ → α → Prop} (hstep : ∀ s a t, Before s a → f s a = .ok t → After t a)
    (hbefore : ∀ s a b t, R b a → Before s a → f s b = .ok t → Before t a)
    (hafter : ∀ s a b t, R a b → After s a → f s b = .ok t → After t a) :
    ∀ {l : List α} {s s' : σ}, l.Pairwise R → l.foldlM f s = .ok s' →
      (∀ a ∈ l, Before s a) → ∀ a ∈ l, After s' a
  | [], _, _, _, _, _ => fun a ha => (by cases ha)
  | b :: l, s, s', hl, h, hs => by
    obtain ⟨hb, hl⟩ := List.pairwise_cons.mp hl
    rw [List.foldlM_cons, bind_ok] at h
    obtain ⟨t, ht, h⟩ := h
    intro a ha
    rcases List.mem_cons.mp ha with rfl | ha
    · refine foldlM_ok (I := fun u => After u a) h (hstep s a t (hs a List.mem_cons_self) ht) ?_
      exact fun u c v hc hu => hafter u a c v (hb c hc) hu
    · refine foldlM_each hstep hbefore hafter hl h (fun c hc => ?_) a ha
      exact hbefore s c b t (hb c hc) (hs c (List.mem_cons_of_mem b hc)) ht

/-- It succeeds exactly when every element is ready at the start. -/
theorem foldlM_ok_iff {ε σ α : Type} {f : σ → α → Except ε σ} {R : α → α → Prop}
    {Known Ready : σ → α → Prop} (hstep : ∀ s a, Known s a → ((∃ t, f s a = .ok t) ↔ Ready s a))
    (hknown : ∀ s a b t, R b a → Known s a → f s b = .ok t → Known t a)
    (hready : ∀ s a b t, R b a → Known s a → f s b = .ok t → (Ready t a ↔ Ready s a)) :
    ∀ {l : List α} {s : σ}, l.Pairwise R → (∀ a ∈ l, Known s a) →
      ((∃ s', l.foldlM f s = .ok s') ↔ ∀ a ∈ l, Ready s a)
  | [], s, _, _ => ⟨fun _ a ha => (by cases ha), fun _ => ⟨s, rfl⟩⟩
  | b :: l, s, hl, hs => by
    obtain ⟨hb, hl⟩ := List.pairwise_cons.mp hl
    have hhead := hstep s b (hs b List.mem_cons_self)
    have htail : ∀ t, f s b = .ok t →
        ((∃ s', l.foldlM f t = .ok s') ↔ ∀ a ∈ l, Ready s a) := by
      intro t ht
      rw [foldlM_ok_iff hstep hknown hready hl fun a ha =>
        hknown s a b t (hb a ha) (hs a (List.mem_cons_of_mem b ha)) ht]
      refine forall₂_congr fun a ha => ?_
      exact hready s a b t (hb a ha) (hs a (List.mem_cons_of_mem b ha)) ht
    constructor
    · rintro ⟨s', h⟩
      rw [List.foldlM_cons, bind_ok] at h
      obtain ⟨t, ht, h⟩ := h
      refine List.forall_mem_cons.mpr ⟨hhead.mp ⟨t, ht⟩, (htail t ht).mp ⟨s', h⟩⟩
    · intro hready
      obtain ⟨hb', hl'⟩ := List.forall_mem_cons.mp hready
      obtain ⟨t, ht⟩ := hhead.mpr hb'
      obtain ⟨s', h⟩ := (htail t ht).mpr hl'
      exact ⟨s', by rw [List.foldlM_cons, ht]; exact h⟩

theorem foldlM_reaches {ε σ α : Type} {f : σ → α → Except ε σ} {I G : σ → Prop} {a : α} :
    ∀ {l : List α} {s s' : σ}, a ∈ l → l.foldlM f s = .ok s' → I s →
      (∀ s b t, b ∈ l → I s → f s b = .ok t → I t) →
      (∀ s t, I s → f s a = .ok t → G t) →
      (∀ s b t, b ∈ l → G s → f s b = .ok t → G t) → G s'
  | b :: l, s, s', ha, h, hs, hinv, hgoal, hkeep => by
    rw [List.foldlM_cons, bind_ok] at h
    obtain ⟨t, ht, h⟩ := h
    by_cases hb : a = b
    · subst hb
      exact foldlM_ok h (hgoal s t hs ht) fun s c t hc => hkeep s c t (List.mem_cons_of_mem _ hc)
    · have ha' : a ∈ l := by simpa [hb] using ha
      exact foldlM_reaches ha' h (hinv s b t List.mem_cons_self hs ht)
        (fun s c t hc => hinv s c t (List.mem_cons_of_mem _ hc)) hgoal
        fun s c t hc => hkeep s c t (List.mem_cons_of_mem _ hc)

/-! ### Loops that only check -/

/-- What a loop checks of every element it reaches. -/
theorem forIn_ok {ε α : Type} {f : α → Unit → Except ε (ForInStep Unit)} {P : α → Prop}
    (hf : ∀ a u t, f a u = .ok t → t = .yield () ∧ P a) :
    ∀ {l : List α} {v : Unit}, forIn l () f = .ok v → ∀ a ∈ l, P a
  | [], _, _, a, ha => absurd ha List.not_mem_nil
  | b :: l, v, h, a, ha => by
    rw [List.forIn_cons, bind_ok] at h
    obtain ⟨t, ht, h⟩ := h
    obtain ⟨rfl, hb⟩ := hf b _ t ht
    rcases List.mem_cons.mp ha with rfl | ha
    · exact hb
    · exact forIn_ok hf h a ha

theorem forIn_total {ε α : Type} {f : α → Unit → Except ε (ForInStep Unit)} :
    ∀ {l : List α}, (∀ a ∈ l, f a () = .ok (.yield ())) →
      forIn l () f = .ok ()
  | [], _ => rfl
  | a :: l, h => by
    rw [List.forIn_cons, h a List.mem_cons_self]
    exact forIn_total fun b hb => h b (List.mem_cons_of_mem a hb)

/-! ### Postconditions -/

/-- `Q` holds of the result, or `E` of the error. -/
def Returns {ε α : Type} (Q : α → Prop) (E : ε → Prop) : Except ε α → Prop
  | .ok a => Q a
  | .error e => E e

section Returns

variable {ε α β σ : Type} {Q Q' : α → Prop} {R : β → Prop} {E : ε → Prop} {x : Except ε α}

theorem Returns.ok {a : α} (h : Returns Q E x) (hx : x = .ok a) : Q a := by
  subst hx
  exact h

theorem Returns.error {e : ε} (h : Returns Q E x) (hx : x = .error e) : E e := by
  subst hx
  exact h

/-- The two halves, one at a time. -/
theorem returns_of (hok : ∀ a, x = .ok a → Q a) (herror : ∀ e, x = .error e → E e) :
    Returns Q E x := by
  cases x with
  | ok a => exact hok a rfl
  | error e => exact herror e rfl

theorem Returns.mono (h : Returns Q E x) (hQ : ∀ a, Q a → Q' a) : Returns Q' E x :=
  returns_of (fun _ hx => hQ _ (h.ok hx)) fun _ hx => h.error hx

/-- **Sequence rule**. -/
theorem Returns.bind {f : α → Except ε β} (hx : Returns Q E x)
    (hf : ∀ a, x = .ok a → Q a → Returns R E (f a)) : Returns R E (x >>= f) := by
  cases x with
  | ok a => exact hf a rfl hx
  | error e => exact hx

theorem returns_throw_bind {e : ε} {f : α → Except ε β} (he : E e) :
    Returns R E (throw e >>= f) := he

/-- A check that throws, then the rest. -/
theorem Returns.guard {p : Prop} [Decidable p] {e : ε} (he : E e) (h : ¬p → Returns Q E x) :
    Returns Q E (if p then throw e else x) := by
  by_cases hp : p
  · rw [if_pos hp]
    exact he
  · rw [if_neg hp]
    exact h hp

/-- A rest that is chosen. -/
theorem Returns.ite {p : Prop} [Decidable p] {y : Except ε α} (hx : p → Returns Q E x)
    (hy : ¬p → Returns Q E y) : Returns Q E (if p then x else y) := by
  by_cases hp : p
  · rw [if_pos hp]
    exact hx hp
  · rw [if_neg hp]
    exact hy hp

end Returns

end CalmBoard.Fallible
