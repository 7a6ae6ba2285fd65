import Mathlib.Algebra.BigOperators.Group.Finset.Basic

/-!
# CalmBoard.Lib.Keywise — writes that act key by key

A store is read key by key.  A write leaves the keys alone that it does not touch, and what it leaves
at a key depends on what was there.

* `Acts`: such writes.
* `exchange`, `sum_exchange`: two sequences of writes without a common key do not see each other.
-/

namespace CalmBoard.Keywise

variable {σ κ β ω : Type*}

/-- The store after a sequence of writes. -/
def applyAll (apply : ω → σ → σ) (ws : List ω) (s : σ) : σ := ws.foldl (fun s w => apply w s) s

/-- A key that no write of the sequence touches. -/
def Untouched (keys : ω → List κ) (ws : List ω) (k : κ) : Prop := ∀ w ∈ ws, k ∉ keys w

structure Acts (read : σ → κ → β) (apply : ω → σ → σ) (keys : ω → List κ) : Prop where
  frame : ∀ w s k, k ∉ keys w → read (apply w s) k = read s k
  congr : ∀ w s s' k, read s k = read s' k → read (apply w s) k = read (apply w s') k

variable {read : σ → κ → β} {apply : ω → σ → σ} {keys : ω → List κ} {vs ws : List ω}

theorem Acts.frame_all (h : Acts read apply keys) {k : κ} :
    ∀ {ws : List ω} (s : σ), Untouched keys ws k → read (applyAll apply ws s) k = read s k
  | [], _, _ => rfl
  | w :: ws, s, hk => by
    have hrest := h.frame_all (apply w s) fun v hv => hk v (List.mem_cons_of_mem w hv)
    exact hrest.trans (h.frame w s k (hk w List.mem_cons_self))

theorem Acts.congr_all (h : Acts read apply keys) {k : κ} :
    ∀ (ws : List ω) {s s' : σ}, read s k = read s' k →
      read (applyAll apply ws s) k = read (applyAll apply ws s') k
  | [], _, _, hs => hs
  | w :: ws, s, s', hs => h.congr_all ws (h.congr w s s' k hs)

/-- Two sequences of writes without a common key. -/
def Apart (keys : ω → List κ) (vs ws : List ω) : Prop :=
  ∀ k, Untouched keys vs k ∨ Untouched keys ws k

/-- **Exchange**: at every key, one of two sequences without a common key has no effect. -/
theorem Acts.exchange (h : Acts read apply keys) (hapart : Apart keys vs ws) (s : σ) (k : κ) :
    read (applyAll apply ws (applyAll apply vs s)) k = read (applyAll apply ws s) k ∧
        read (applyAll apply vs s) k = read s k ∨
      read (applyAll apply ws (applyAll apply vs s)) k = read (applyAll apply vs s) k ∧
        read (applyAll apply ws s) k = read s k := by
  rcases hapart k with hk | hk
  · have hfirst := h.frame_all s hk
    exact Or.inl ⟨h.congr_all ws hfirst, hfirst⟩
  · exact Or.inr ⟨h.frame_all (applyAll apply vs s) hk, h.frame_all s hk⟩

/-- What the second sequence adds to a sum over keys does not depend on the first. -/
theorem Acts.sum_exchange {M : Type*} [AddCommGroup M] (h : Acts read apply keys)
    (hapart : Apart keys vs ws) (s : σ) (g : β → M) (K : Finset κ) :
    (K.sum fun k => g (read (applyAll apply ws (applyAll apply vs s)) k)) -
        (K.sum fun k => g (read (applyAll apply vs s) k)) =
      (K.sum fun k => g (read (applyAll apply ws s) k)) - K.sum fun k => g (read s k) := by
  rw [← Finset.sum_sub_distrib, ← Finset.sum_sub_distrib]
  refine Finset.sum_congr rfl fun k _ => ?_
  rcases h.exchange hapart s k with ⟨hboth, hfirst⟩ | ⟨hboth, hsecond⟩
  · rw [hboth, hfirst]
  · rw [hboth, hsecond, sub_self, sub_self]

end CalmBoard.Keywise
