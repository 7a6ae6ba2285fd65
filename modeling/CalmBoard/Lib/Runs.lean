import Mathlib.Data.List.Basic

/-!
# CalmBoard.Lib.Runs — sequences of requests against a store

A request either succeeds with a new state or fails; a failed request is rolled back and leaves the
state as it was.  `run` plays a list of requests, `Guarded` says that a condition on the state and
the request holds at every step.

* `run_induction`: a property that guarded successful requests keep holds after every guarded run.
* `run_invariant`: the same without a condition.
-/

namespace CalmBoard.Runs

variable {σ α ε : Type*} (step : α → σ → Except ε σ)

/-- One request; a failure is rolled back. -/
def exec (s : σ) (a : α) : σ :=
  match step a s with
  | .ok s' => s'
  | .error _ => s

def run (s : σ) (requests : List α) : σ := requests.foldl (exec step) s

/-- `guard` holds of every request in the state it meets. -/
def Guarded (guard : σ → α → Prop) : σ → List α → Prop
  | _, [] => True
  | s, a :: requests => guard s a ∧ Guarded guard (exec step s a) requests

instance (guard : σ → α → Prop) [∀ s a, Decidable (guard s a)] :
    ∀ (s : σ) (requests : List α), Decidable (Guarded step guard s requests)
  | _, [] => inferInstanceAs (Decidable True)
  | s, a :: requests =>
    @instDecidableAnd _ _ _ (instDecidableGuarded guard (exec step s a) requests)

variable {step} {guard : σ → α → Prop}

theorem exec_of_ok {s s' : σ} {a : α} (h : step a s = .ok s') : exec step s a = s' := by
  unfold exec
  rw [h]

theorem guarded_true : ∀ (requests : List α) (s : σ), Guarded step (fun _ _ => True) s requests
  | [], _ => trivial
  | a :: requests, s => ⟨trivial, guarded_true requests (exec step s a)⟩

theorem guarded_of_append :
    ∀ {requests more : List α} {s : σ}, Guarded step guard s (requests ++ more) →
      Guarded step guard s requests
  | [], _, _, _ => trivial
  | _ :: _, _, _, h => ⟨h.1, guarded_of_append h.2⟩

theorem guarded_drop :
    ∀ {requests more : List α} {s : σ}, Guarded step guard s (requests ++ more) →
      Guarded step guard (run step s requests) more
  | [], _, _, h => h
  | a :: _, _, s, h => guarded_drop (s := exec step s a) h.2

theorem guarded_last {a : α} :
    ∀ {requests : List α} {s : σ}, Guarded step guard s (requests ++ [a]) →
      guard (run step s requests) a
  | [], _, h => h.1
  | b :: requests, s, h =>
    guarded_last (s := exec step s b) (h.2 : Guarded step guard _ (requests ++ [a]))

/-- **Invariant rule** for guarded runs. -/
theorem run_induction {I : σ → Prop}
    (hstep : ∀ s a s', I s → guard s a → step a s = .ok s' → I s') :
    ∀ (requests : List α) (s : σ), I s → Guarded step guard s requests →
      I (run step s requests)
  | [], _, hs, _ => hs
  | a :: requests, s, hs, hg => by
    have hexec : I (exec step s a) := by
      unfold exec
      cases hr : step a s with
      | ok s' => exact hstep s a s' hs hg.1 hr
      | error e => exact hs
    exact run_induction hstep requests (exec step s a) hexec hg.2

/-- **Invariant rule** for all runs. -/
theorem run_invariant {I : σ → Prop} (hstep : ∀ s a s', I s → step a s = .ok s' → I s')
    (requests : List α) (s : σ) (hs : I s) : I (run step s requests) :=
  run_induction (fun s a s' hs _ h => hstep s a s' hs h) requests s hs (guarded_true requests s)

end CalmBoard.Runs
