import Mathlib.Data.List.Basic
import Mathlib.Data.List.Nodup
import Mathlib.Order.Basic
import Mathlib.Data.Int.Order.Basic

/-!
# CalmBoard.Lib.Lease — work that is claimed for a time

A piece of work waits until somebody claims it.  A claim carries a token and the time it was made;
whoever has the token finishes the work or gives it back, and once the claim has expired the work can
be claimed anew.  Each claim counts as an attempt, and the number of attempts is limited.

* `Lease`, `claimable`, `claim`, `finish`, `release`, `retry`: the columns of such a row.
* `Moves`: what can happen to a row; `Moves.of_terminal`: what is finished or dead stays so.
* `batch`: the rows that one statement claims.
-/

namespace CalmBoard.Queue

inductive Status (τ φ : Type) where
  | pending
  | processing (claimedAt : ℤ) (claimToken : τ)
  | closed (outcome : φ)
  | dead
  deriving DecidableEq

/-- The columns of a claim; a claimed row, and no other, has a time and a token. -/
structure Lease (τ φ : Type) where
  status : Status τ φ
  attempts : ℕ
  maxAttempts : ℕ
  availableAt : ℤ

variable {τ φ : Type}

/-- A claim was made before `timeout`. -/
def Status.expired (timeout now : ℤ) : Status τ φ → Bool
  | .processing claimedAt _ => claimedAt < now - timeout
  | _ => false

def Status.isPending : Status τ φ → Bool
  | .pending => true
  | _ => false

def claimable (timeout now : ℤ) (l : Lease τ φ) : Bool :=
  l.attempts < l.maxAttempts && l.availableAt ≤ now &&
    (l.status.isPending || l.status.expired timeout now)

def claim (now : ℤ) (token : τ) (l : Lease τ φ) : Lease τ φ :=
  { l with status := .processing now token, attempts := l.attempts + 1 }

/-- The row is claimed with this token. -/
def owned [DecidableEq τ] (token : τ) (l : Lease τ φ) : Bool :=
  match l.status with
  | .processing _ t => t = token
  | _ => false

def finish (outcome : φ) (l : Lease τ φ) : Lease τ φ := { l with status := .closed outcome }

/-- Give the work back, to be available after `backoff`; after the last attempt it is dead. -/
def release (now backoff : ℤ) (l : Lease τ φ) : Lease τ φ :=
  if l.maxAttempts ≤ l.attempts then { l with status := .dead }
  else { l with status := .pending, availableAt := now + backoff }

/-- Allow a dead row five more attempts. -/
def retry (now : ℤ) (l : Lease τ φ) : Lease τ φ :=
  match l.status with
  | .dead => { l with status := .pending, maxAttempts := l.maxAttempts + 5, availableAt := now }
  | _ => l

/-! ### Batches -/

section Batch

variable {ρ : Type} (lease : ρ → Lease τ φ) (le : ρ → ρ → Bool)

/-- The rows that one statement claims: the first ones in the order of the queue, less those that
others have locked. -/
def batch (rows : List ρ) (timeout now : ℤ) (limit : ℕ) (skipped : ρ → Bool) : List ρ :=
  ((rows.filter fun r => claimable timeout now (lease r) && !skipped r).mergeSort le).take limit

variable {lease le}

theorem mem_batch {rows : List ρ} {timeout now : ℤ} {limit : ℕ} {skipped : ρ → Bool} {r : ρ}
    (h : r ∈ batch lease le rows timeout now limit skipped) :
    r ∈ rows ∧ claimable timeout now (lease r) = true := by
  have hmem := List.mem_of_mem_take h
  rw [List.mem_mergeSort, List.mem_filter, Bool.and_eq_true] at hmem
  exact ⟨hmem.1, hmem.2.1⟩

end Batch

/-! ### What can happen to a row -/

/-- The row stays, is claimed, or is finished or released by the one who has claimed it. -/
inductive Moves [DecidableEq τ] : Lease τ φ → Lease τ φ → Prop
  | stay (l) : Moves l l
  | claim {l} (timeout now : ℤ) (token : τ) (h : claimable timeout now l = true) :
    Moves l (claim now token l)
  | finish {l} (token : τ) (outcome : φ) (h : owned token l = true) : Moves l (finish outcome l)
  | release {l} (token : τ) (now backoff : ℤ) (h : owned token l = true) :
    Moves l (release now backoff l)

theorem open_of_claimable {timeout now : ℤ} {l : Lease τ φ} (h : claimable timeout now l = true) :
    l.status = .pending ∨ ∃ claimedAt token, l.status = .processing claimedAt token := by
  unfold claimable at h
  rw [Bool.and_eq_true, Bool.or_eq_true] at h
  cases hs : l.status with
  | pending => exact Or.inl rfl
  | processing claimedAt token => exact Or.inr ⟨claimedAt, token, rfl⟩
  | closed outcome =>
    rw [hs] at h
    rcases h.2 with h | h <;> cases h
  | dead =>
    rw [hs] at h
    rcases h.2 with h | h <;> cases h

/-- The statuses that end the work. -/
def Status.terminal : Status τ φ → Bool
  | .closed _ | .dead => true
  | _ => false

theorem not_terminal_of_claimable {timeout now : ℤ} {l : Lease τ φ}
    (h : claimable timeout now l = true) : l.status.terminal = false := by
  rcases open_of_claimable h with hs | ⟨claimedAt, token, hs⟩
  · rw [hs]
    rfl
  · rw [hs]
    rfl

variable [DecidableEq τ]

theorem processing_of_owned {token : τ} {l : Lease τ φ} (h : owned token l = true) :
    ∃ claimedAt, l.status = .processing claimedAt token := by
  unfold owned at h
  split at h
  · next claimedAt t hs => exact ⟨claimedAt, hs.trans (by rw [of_decide_eq_true h])⟩
  · cases h

theorem not_terminal_of_owned {token : τ} {l : Lease τ φ} (h : owned token l = true) :
    l.status.terminal = false := by
  obtain ⟨claimedAt, hs⟩ := processing_of_owned h
  rw [hs]
  rfl

/-- What has ended stays as it is. -/
theorem Moves.of_terminal {l l' : Lease τ φ} (h : Moves l l') (ht : l.status.terminal = true) :
    l' = l := by
  cases h with
  | stay => rfl
  | claim timeout now token h =>
    rw [not_terminal_of_claimable h] at ht
    cases ht
  | finish token outcome h =>
    rw [not_terminal_of_owned h] at ht
    cases ht
  | release token now backoff h =>
    rw [not_terminal_of_owned h] at ht
    cases ht

end CalmBoard.Queue
