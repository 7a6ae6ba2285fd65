import Mathlib.Data.List.Forall2
import Mathlib.Logic.Function.Basic

/-!
# CalmBoard.Lib.Memo — a function that remembers its answers

* `Cache`, `Cache.set`: the answers so far.
* `Cache.Sound`: every remembered answer is right.
* `ask`, `ask_right`: queries one after the other, each with the cache of the ones before it; if one
  query answers rightly and keeps the cache sound, all of them answer rightly, in any order.
-/

namespace CalmBoard.Memo

variable {κ ν ε : Type*} [DecidableEq κ] {R : κ → ν → Prop} {cache : κ → Option ν}

/-- What is remembered for each key. -/
abbrev Cache (κ ν : Type*) := κ → Option ν

def Cache.empty : Cache κ ν := fun _ => none

def Cache.set (cache : Cache κ ν) (k : κ) (v : ν) : Cache κ ν := Function.update cache k (some v)

/-- Every remembered answer is right. -/
def Cache.Sound (R : κ → ν → Prop) (cache : Cache κ ν) : Prop :=
  ∀ k v, cache k = some v → R k v

omit [DecidableEq κ] in
theorem Cache.sound_empty : (Cache.empty : Cache κ ν).Sound R := by
  intro k v h
  cases h

theorem Cache.Sound.set {cache : Cache κ ν} (h : cache.Sound R) {k : κ} {v : ν} (hv : R k v) :
    (cache.set k v).Sound R := by
  intro j w hw
  by_cases hj : j = k
  · subst hj
    rw [Cache.set, Function.update_self] at hw
    exact Option.some.inj hw ▸ hv
  · rw [Cache.set, Function.update_of_ne hj] at hw
    exact h j w hw

/-- Queries one after the other. -/
def ask (f : κ → Cache κ ν → Except ε (ν × Cache κ ν)) :
    List κ → Cache κ ν → Except ε (List ν × Cache κ ν)
  | [], cache => return ([], cache)
  | k :: ks, cache => do
    let (v, cache) ← f k cache
    let (vs, cache) ← ask f ks cache
    return (v :: vs, cache)

omit [DecidableEq κ] in
theorem ask_right {f : κ → Cache κ ν → Except ε (ν × Cache κ ν)}
    (hf : ∀ k (cache : Cache κ ν), cache.Sound R →
      ∃ v cache', f k cache = .ok (v, cache') ∧ R k v ∧ cache'.Sound R) :
    ∀ (ks : List κ) (cache : Cache κ ν), cache.Sound R →
      ∃ vs cache', ask f ks cache = .ok (vs, cache') ∧ List.Forall₂ R ks vs ∧ cache'.Sound R
  | [], cache, h => ⟨[], cache, rfl, .nil, h⟩
  | k :: ks, cache, h => by
    obtain ⟨v, cache₁, hfirst, hv, h₁⟩ := hf k cache h
    obtain ⟨vs, cache₂, hrest, hvs, h₂⟩ := ask_right hf ks cache₁ h₁
    refine ⟨v :: vs, cache₂, ?_, .cons hv hvs, h₂⟩
    rw [ask, hfirst]
    show (do let (vs, cache) ← ask f ks cache₁; return (v :: vs, cache)) = Except.ok (v :: vs, cache₂)
    rw [hrest]
    rfl

end CalmBoard.Memo
