import Mathlib.Data.List.Basic

/-!
# CalmBoard.Lib.Savepoints — programs that send statements over one connection

A failed statement aborts the transaction it is in: every later statement is refused up to the
savepoint the program returns to, and the commit of an aborted transaction is a rollback without an
error.  The program may catch the error; the transaction stays aborted.

* `Program`, `statement`, `transaction`, `attempt`: programs and the ways to build them.
* `Flat`: programs without a savepoint; an error that is caught leaves the transaction aborted.
* `Accepted`, `Keeps`, `Sends`: what a program reaches without errors, what it leaves alone, and which
  statements it sends.
-/

namespace CalmBoard.Savepoints

/-- An error of the database, or one that the program raises. -/
inductive Failure (ε : Type) where
  | database
  | raised (error : ε)
  deriving DecidableEq

/-- A connection: the store as its statements see it, and whether they run in a transaction. -/
structure Connection (σ : Type) where
  store : σ
  inside : Bool := false
  aborted : Bool := false

/-- What a program leads to; `sent` are the statements the database has tried. -/
structure Outcome (ℓ σ ε α : Type) where
  result : Except (Failure ε) α
  connection : Connection σ
  sent : List ℓ

/-- A program, given the statements the database raises an error for. -/
structure Program (ℓ σ ε α : Type) where
  run : (ℓ → Bool) → Connection σ → Outcome ℓ σ ε α

variable {ℓ σ ε α β γ : Type} {f : σ → Option (α × σ)} {handle : Failure ε → Program ℓ σ ε α}
  {l : ℓ}

/-- A result without a statement. -/
def done (r : Except (Failure ε) α) : Program ℓ σ ε α := ⟨fun _ c => ⟨r, c, []⟩⟩

/-- What follows on a result, be it a value or an error. -/
def andThen (p : Program ℓ σ ε α) (k : Except (Failure ε) α → Program ℓ σ ε β) :
    Program ℓ σ ε β where
  run faults c :=
    let o := p.run faults c
    let o' := (k o.result).run faults o.connection
    ⟨o'.result, o'.connection, o.sent ++ o'.sent⟩

instance : Monad (Program ℓ σ ε) where
  pure a := done (.ok a)
  bind p f := andThen p fun
    | .ok a => f a
    | .error e => done (.error e)

def raise (e : ε) : Program ℓ σ ε α := done (.error (.raised e))

/-- `try … catch` -/
def attempt (p : Program ℓ σ ε α) (handle : Failure ε → Program ℓ σ ε α) : Program ℓ σ ε α :=
  andThen p fun
    | .ok a => done (.ok a)
    | .error e => handle e

/-- A statement; `f` refuses what a constraint or a trigger forbids. -/
def statement (l : ℓ) (f : σ → Option (α × σ)) : Program ℓ σ ε α where
  run faults c :=
    if c.aborted then ⟨.error .database, c, []⟩
    else
      match if faults l then none else f c.store with
      | none => ⟨.error .database, { c with aborted := c.inside }, [l]⟩
      | some (a, s) => ⟨.ok a, { c with store := s }, [l]⟩

def select (l : ℓ) (f : σ → α) : Program ℓ σ ε α := statement l fun s => some (f s, s)

/-- A transaction, or a savepoint of the one that is open. -/
def transaction (p : Program ℓ σ ε α) : Program ℓ σ ε α where
  run faults c :=
    if c.aborted then ⟨.error .database, c, []⟩
    else
      let o := p.run faults { c with inside := true }
      match o.result with
      | .error e => ⟨.error e, c, o.sent⟩
      | .ok a =>
        if o.connection.aborted then
          -- `RELEASE SAVEPOINT` fails; `COMMIT` rolls back without an error
          ⟨if c.inside then .error .database else .ok a, c, o.sent⟩
        else ⟨.ok a, { c with store := o.connection.store }, o.sent⟩

/-- A database that raises no error of its own accord. -/
def healthy : ℓ → Bool := fun _ => false

/-- The statements that are tried when none of them meets an error. -/
def statements (p : Program ℓ σ ε α) (c : Connection σ) : List ℓ := (p.run healthy c).sent

/-- A transaction that fails leaves the connection as it was. -/
theorem transaction_error {p : Program ℓ σ ε α} {faults : ℓ → Bool} {c : Connection σ}
    {e : Failure ε} (h : ((transaction p).run faults c).result = .error e) :
    ((transaction p).run faults c).connection = c := by
  simp only [transaction] at h ⊢
  by_cases hc : c.aborted = true
  · rw [if_pos hc]
  · rw [if_neg hc] at h ⊢
    cases hr : (p.run faults { c with inside := true }).result with
    | error e => simp
    | ok a =>
      by_cases hab : (p.run faults { c with inside := true }).connection.aborted = true
      · simp [hab]
      · simp [hr, hab] at h

section Steps

variable {faults : ℓ → Bool} {c : Connection σ} {p : Program ℓ σ ε α}

@[simp] theorem run_done (r : Except (Failure ε) α) :
    (done r : Program ℓ σ ε α).run faults c = ⟨r, c, []⟩ := rfl

@[simp] theorem run_pure (a : α) : (pure a : Program ℓ σ ε α).run faults c = ⟨.ok a, c, []⟩ := rfl

theorem bind_ok {f : α → Program ℓ σ ε β} {a : α} (h : (p.run faults c).result = .ok a) :
    ((p >>= f).run faults c).result = ((f a).run faults (p.run faults c).connection).result ∧
      ((p >>= f).run faults c).connection =
        ((f a).run faults (p.run faults c).connection).connection := by
  simp only [Bind.bind, andThen, h, and_self]

theorem bind_error {f : α → Program ℓ σ ε β} {e : Failure ε}
    (h : (p.run faults c).result = .error e) :
    ((p >>= f).run faults c).result = .error e ∧
      ((p >>= f).run faults c).connection = (p.run faults c).connection := by
  simp only [Bind.bind, andThen, h, run_done, and_self]

theorem attempt_error {e : Failure ε} (h : (p.run faults c).result = .error e) :
    ((attempt p handle).run faults c).result =
        ((handle e).run faults (p.run faults c).connection).result ∧
      ((attempt p handle).run faults c).connection =
        ((handle e).run faults (p.run faults c).connection).connection := by
  simp only [attempt, andThen, h, and_self]

theorem statement_result {r : Except (Failure ε) α}
    (h : ((statement l f : Program ℓ σ ε α).run faults c).result = r) :
    r = .error .database ∨ ∃ a s, r = .ok a ∧ f c.store = some (a, s) ∧
      ((statement l f : Program ℓ σ ε α).run faults c).connection = { c with store := s } := by
  subst h
  simp only [statement]
  by_cases ha : c.aborted = true
  · exact .inl (by rw [if_pos ha])
  · rw [if_neg ha]
    cases hf : (if faults l then none else f c.store) with
    | none => exact .inl rfl
    | some as =>
      refine .inr ⟨as.1, as.2, rfl, ?_, rfl⟩
      by_cases hl : faults l = true
      · simp [hl] at hf
      · simpa [hl] using hf

/-- Unless the database fails it, a program that starts with a statement gets past it. -/
theorem statement_bind {k : α → Program ℓ σ ε β} {r : Except (Failure ε) β}
    (h : ((statement l f >>= k : Program ℓ σ ε β).run faults c).result = r)
    (hr : r ≠ .error .database) :
    ∃ a s, f c.store = some (a, s) ∧ ((k a).run faults { c with store := s }).result = r ∧
      ((statement l f >>= k : Program ℓ σ ε β).run faults c).connection =
        ((k a).run faults { c with store := s }).connection := by
  obtain herr | ⟨a, s, hok, hf, hc⟩ :=
    statement_result (rfl : ((statement l f : Program ℓ σ ε α).run faults c).result = _)
  · simp only [Bind.bind, andThen, herr, done] at h
    exact absurd h.symm hr
  · refine ⟨a, s, hf, ?_, ?_⟩
    · simpa only [Bind.bind, andThen, hok, hc] using h
    · simp only [Bind.bind, andThen, hok, hc]

end Steps

section Commit

variable {p : Program ℓ σ ε α} {faults : ℓ → Bool} {s : σ}

/-- The answer of a request's transaction is that of its program, committed or not. -/
theorem transaction_result : ((transaction p).run faults ⟨s, false, false⟩).result =
    (p.run faults ⟨s, true, false⟩).result := by
  simp only [transaction, Bool.false_eq_true, if_false]
  split
  · next h => exact h.symm
  · next h => split <;> exact h.symm

/-- What a request's transaction commits. -/
theorem transaction_store {a : α} (h : (p.run faults ⟨s, true, false⟩).result = .ok a) :
    ((transaction p).run faults ⟨s, false, false⟩).connection.store =
      if (p.run faults ⟨s, true, false⟩).connection.aborted then s
      else (p.run faults ⟨s, true, false⟩).connection.store := by
  simp only [transaction, Bool.false_eq_true, if_false, h]
  split <;> rfl

end Commit

/-! ### Properties of programs by the way they are built -/

/-- What holds of a program if it holds of its parts. -/
structure Closed (C : ∀ α : Type, Program ℓ σ ε α → Prop) : Prop where
  done : ∀ {α : Type} (r : Except (Failure ε) α), C α (Savepoints.done r)
  andThen : ∀ {α β : Type} {p : Program ℓ σ ε α} {k : Except (Failure ε) α → Program ℓ σ ε β},
    C α p → (∀ r, C β (k r)) → C β (Savepoints.andThen p k)

namespace Closed

variable {C : ∀ α : Type, Program ℓ σ ε α → Prop}

theorem bind (hC : Closed C) {p : Program ℓ σ ε α} {f : α → Program ℓ σ ε β} (hp : C α p)
    (hf : ∀ a, C β (f a)) : C β (p >>= f) :=
  hC.andThen hp fun
    | .ok a => hf a
    | .error _ => hC.done _

theorem attempt (hC : Closed C) {p : Program ℓ σ ε α} (hp : C α p) (hh : ∀ e, C α (handle e)) :
    C α (Savepoints.attempt p handle) :=
  hC.andThen hp fun
    | .ok _ => hC.done _
    | .error e => hh e

theorem foldlM (hC : Closed C) {f : β → α → Program ℓ σ ε β} (hf : ∀ b a, C β (f b a))
    (l : List α) (b : β) : C β (l.foldlM f b) := by
  induction l generalizing b with
  | nil => exact hC.done _
  | cons a l ih =>
    rw [List.foldlM_cons]
    exact hC.bind (hf b a) ih

end Closed

/-! ### Programs without a savepoint -/

variable {k : Except (Failure ε) α → Program ℓ σ ε β}

/-- In an aborted transaction nothing happens; else the transaction is aborted for good by the first
statement that meets an error, and without one the program runs as on a healthy database. -/
structure Flat (p : Program ℓ σ ε α) : Prop where
  inert : ∀ c, c.inside = true → c.aborted = true → ∃ r, ∀ faults, p.run faults c = ⟨r, c, []⟩
  inside : ∀ faults c, c.inside = true → (p.run faults c).connection.inside = true
  fails : ∀ faults c, c.inside = true → c.aborted = false → (∃ l ∈ statements p c, faults l) →
    (p.run faults c).connection.aborted = true
  agrees : ∀ faults c, c.inside = true → c.aborted = false → (∀ l ∈ statements p c, ¬ faults l) →
    p.run faults c = p.run healthy c

namespace Flat

theorem done (r : Except (Failure ε) α) : Flat (Savepoints.done r : Program ℓ σ ε α) where
  inert _ _ _ := ⟨r, fun _ => rfl⟩
  inside _ _ h := h
  fails _ _ _ _ := by
    rintro ⟨_, hl, _⟩
    cases hl
  agrees _ _ _ _ _ := rfl

theorem statement (l : ℓ) (f : σ → Option (α × σ)) :
    Flat (Savepoints.statement l f : Program ℓ σ ε α) := by
  have hsent : ∀ c : Connection σ, c.aborted = false →
      statements (Savepoints.statement l f : Program ℓ σ ε α) c = [l] := by
    intro c ha
    simp only [statements, Savepoints.statement, ha, Bool.false_eq_true, if_false]
    split <;> rfl
  refine ⟨?_, ?_, ?_, ?_⟩
  · intro c _ h
    exact ⟨.error .database, fun _ => by simp [Savepoints.statement, h]⟩
  · intro faults c h
    simp only [Savepoints.statement]
    split
    · exact h
    · split <;> exact h
  · intro faults c hc ha h
    have hl : faults l = true := by simpa [hsent c ha] using h
    simp [Savepoints.statement, ha, hl, hc]
  · intro faults c _ ha h
    have hl : faults l = false := by simpa [hsent c ha] using h
    simp [Savepoints.statement, ha, hl, healthy]

/-- Once aborted, a flat program changes nothing. -/
theorem stays {p : Program ℓ σ ε α} (hp : Flat p) {faults : ℓ → Bool} {c : Connection σ}
    (hc : c.inside = true) (ha : c.aborted = true) : (p.run faults c).connection = c := by
  obtain ⟨r, hr⟩ := hp.inert c hc ha
  rw [hr]

theorem andThen {p : Program ℓ σ ε α} (hp : Flat p) (hk : ∀ r, Flat (k r)) :
    Flat (Savepoints.andThen p k) where
  inert c hc ha := by
    obtain ⟨r, hr⟩ := hp.inert c hc ha
    obtain ⟨r', hr'⟩ := (hk r).inert c hc ha
    exact ⟨r', fun faults => by simp [Savepoints.andThen, hr, hr']⟩
  inside faults c hc := (hk _).inside _ _ (hp.inside _ _ hc)
  fails faults c hc ha := by
    rintro ⟨l, hl, hf⟩
    have hin := hp.inside faults c hc
    by_cases hfirst : ∃ l ∈ statements p c, faults l
    · -- the first part has aborted the transaction
      have hab := hp.fails faults c hc ha hfirst
      show ((k _).run faults (p.run faults c).connection).connection.aborted = true
      rw [(hk _).stays hin hab]
      exact hab
    · have hsame : p.run faults c = p.run healthy c := by
        refine hp.agrees faults c hc ha fun l hl hf => hfirst ⟨l, hl, hf⟩
      show ((k (p.run faults c).result).run faults (p.run faults c).connection).connection.aborted = true
      rw [hsame] at hin ⊢
      rcases List.mem_append.mp hl with hl | hl
      · exact absurd ⟨l, hl, hf⟩ hfirst
      · cases hab : (p.run healthy c).connection.aborted with
        | true =>
          obtain ⟨r, hr⟩ := (hk (p.run healthy c).result).inert _ hin hab
          rw [hr] at hl
          cases hl
        | false => exact (hk _).fails faults _ hin hab ⟨l, hl, hf⟩
  agrees faults c hc ha h := by
    have hsame : p.run faults c = p.run healthy c :=
      hp.agrees faults c hc ha fun l hl => h l (List.mem_append_left _ hl)
    have hin := hp.inside healthy c hc
    have hrest : (k (p.run healthy c).result).run faults (p.run healthy c).connection =
        (k (p.run healthy c).result).run healthy (p.run healthy c).connection := by
      cases hab : (p.run healthy c).connection.aborted with
      | true =>
        obtain ⟨r, hr⟩ := (hk (p.run healthy c).result).inert _ hin hab
        rw [hr, hr]
      | false =>
        exact (hk _).agrees faults _ hin hab fun l hl => h l (List.mem_append_right _ hl)
    simp only [Savepoints.andThen, hsame, hrest]

theorem closed : Closed (@Flat ℓ σ ε) := ⟨done, andThen⟩

end Flat

/-! ### Programs that are refused nothing -/

variable {M : Except (Failure ε) α → σ → Prop} {Q : Except (Failure ε) β → σ → Prop}

/-- Started with `P` on a healthy database, the program is refused nothing and ends with `Q`. -/
def Accepted (P : σ → Prop) (p : Program ℓ σ ε α) (Q : Except (Failure ε) α → σ → Prop) : Prop :=
  ∀ c, c.aborted = false → P c.store →
    (p.run healthy c).connection.aborted = false ∧ Q (p.run healthy c).result (p.run healthy c).connection.store

namespace Accepted

theorem statement {P : σ → Prop} {Q : Except (Failure ε) α → σ → Prop}
    (h : ∀ s, P s → ∃ a s', f s = some (a, s') ∧ Q (.ok a) s') :
    Accepted P (Savepoints.statement l f : Program ℓ σ ε α) Q := by
  intro c ha hs
  obtain ⟨a, s', hf, hq⟩ := h c.store hs
  simp [Savepoints.statement, ha, healthy, hf, hq]

theorem andThen {p : Program ℓ σ ε α} {P : σ → Prop} (hp : Accepted P p M)
    (hk : ∀ r, Accepted (M r) (k r) Q) : Accepted P (Savepoints.andThen p k) Q := by
  intro c ha hs
  obtain ⟨hab, hm⟩ := hp c ha hs
  exact hk _ _ hab hm

theorem bind {p : Program ℓ σ ε α} {f : α → Program ℓ σ ε β} {P : σ → Prop} (hp : Accepted P p M)
    (hf : ∀ a, Accepted (M (.ok a)) (f a) Q) (he : ∀ e s, M (.error e) s → Q (.error e) s) :
    Accepted P (p >>= f) Q :=
  hp.andThen fun
    | .ok a => hf a
    | .error e => fun _ ha h => ⟨ha, he e _ h⟩

theorem mono {p : Program ℓ σ ε α} {P P' : σ → Prop} {Q Q' : Except (Failure ε) α → σ → Prop}
    (h : Accepted P p Q) (hP : ∀ s, P' s → P s) (hQ : ∀ r s, Q r s → Q' r s) :
    Accepted P' p Q' := fun c ha hs => (h c ha (hP _ hs)).imp_right (hQ _ _)

end Accepted

/-! ### What a program leaves alone -/

/-- The part `g` of the store is not written. -/
def Keeps (g : σ → γ) (p : Program ℓ σ ε α) : Prop :=
  ∀ faults c, g (p.run faults c).connection.store = g c.store

namespace Keeps

variable {g : σ → γ}

theorem done (r : Except (Failure ε) α) : Keeps g (Savepoints.done r : Program ℓ σ ε α) :=
  fun _ _ => rfl

theorem statement (h : ∀ s a s', f s = some (a, s') → g s' = g s) :
    Keeps g (Savepoints.statement l f : Program ℓ σ ε α) := by
  intro faults c
  simp only [Savepoints.statement]
  split
  · rfl
  · split
    · rfl
    · next a s hs =>
      split at hs
      · cases hs
      · exact h _ a s hs

theorem andThen {p : Program ℓ σ ε α} (hp : Keeps g p) (hk : ∀ r, Keeps g (k r)) :
    Keeps g (Savepoints.andThen p k) :=
  fun faults c => (hk _ faults _).trans (hp faults c)

theorem closed : Closed fun α (p : Program ℓ σ ε α) => Keeps g p := ⟨done, andThen⟩

end Keeps

/-! ### What a program sends -/

/-- Every statement of the program is one of `P`. -/
def Sends (P : ℓ → Prop) (p : Program ℓ σ ε α) : Prop :=
  ∀ faults c, ∀ l ∈ (p.run faults c).sent, P l

namespace Sends

variable {P : ℓ → Prop}

theorem done (r : Except (Failure ε) α) : Sends P (Savepoints.done r : Program ℓ σ ε α) := by
  intro faults c l hl
  cases hl

theorem statement (h : P l) : Sends P (Savepoints.statement l f : Program ℓ σ ε α) := by
  intro faults c l' hl'
  have hsent : ((Savepoints.statement l f : Program ℓ σ ε α).run faults c).sent = [] ∨
      ((Savepoints.statement l f : Program ℓ σ ε α).run faults c).sent = [l] := by
    simp only [Savepoints.statement]
    split
    · exact .inl rfl
    · split <;> exact .inr rfl
  rcases hsent with hsent | hsent <;> rw [hsent] at hl'
  · cases hl'
  · rw [List.mem_singleton.mp hl']
    exact h

theorem andThen {p : Program ℓ σ ε α} (hp : Sends P p) (hk : ∀ r, Sends P (k r)) :
    Sends P (Savepoints.andThen p k) := by
  intro faults c l hl
  rcases List.mem_append.mp hl with hl | hl
  · exact hp faults c l hl
  · exact hk _ faults _ l hl

theorem closed : Closed fun α (p : Program ℓ σ ε α) => Sends P p := ⟨done, andThen⟩

end Sends

end CalmBoard.Savepoints
