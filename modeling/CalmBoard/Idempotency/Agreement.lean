import CalmBoard.Idempotency.Statements

/-!
# CalmBoard.Idempotency.Agreement — calls with one key agree

* `move_writes`: any statement keeps what the other calls know.
* `Agree`: two calls that have returned the response of one row.
* `execute_agrees`: between two expiries of a key one call at most returns a result of its own, the
  others return what that call has recorded.
-/

namespace CalmBoard.Idempotency

open Sessions

variable {env : Env} {s s' : Store} {l l' : Local} {p : Prepared}

/-! ### Calls together -/

section Executes

variable {owned row : KeyRow} {body responseBody : Unknown} {statusCode : ℤ}

theorem Executes.completes (h : Executes s s' l l' p owned body statusCode responseBody row) :
    ∃ done ∈ s'.keys.rows, done.id = owned.id ∧ done.name = row.name ∧
      done.state.response = some (statusCode, toColumn responseBody) := by
  obtain ⟨t, hput⟩ := h.put
  refine ⟨{ row with state := .completed statusCode (toColumn responseBody) t }, ?_, h.id, rfl, rfl⟩
  rw [hput, Table.rows_put]
  exact List.mem_map.mpr ⟨row, h.mem, if_pos rfl⟩

theorem Executes.writes (h : Executes s s' l l' p owned body statusCode responseBody row) :
    Writes env s s' := by
  obtain ⟨t, hput⟩ := h.put
  refine writes_put hput h.mem ⟨rfl, rfl, rfl, fun hc => ?_⟩ h.drawn.ge
  rw [h.open_] at hc
  cases hc

theorem Executes.recorded (h : Executes s s' l l' p owned body statusCode responseBody row)
    {r : KeyRow} (hr : r ∈ s'.keys.rows) : r.id = owned.id ∨ r ∈ s.keys.rows := by
  obtain ⟨t, hput⟩ := h.put
  rw [hput] at hr
  rcases Table.mem_put hr with rfl | hr
  · exact Or.inl h.id
  · exact Or.inr hr

theorem Executes.knows (hk : Knows env s l) (h : Executes s s' l l' p owned body statusCode responseBody row) :
    Knows env s' l' := by
  have hw : Writes env s s' := h.writes
  obtain ⟨done, hdone, hid, -, hresponse⟩ := h.completes
  have hmine : Mine env s p owned := hk.mine p owned (by rw [h.held]; rfl)
  have hnormal := hk.normalized
  rw [h.held] at hnormal
  rw [h.moved]
  refine ⟨fun p' row' he => ?_, fun id r he => ?_, hnormal⟩
  · cases he
    exact hmine.writes hw
  · cases he
    refine ⟨hmine.past.mono hw.drawn, fun q hq hqid => ?_⟩
    rw [Table.eq_of_mem hq hdone (hqid.trans hid.symm)]
    exact hresponse

end Executes

theorem response_of_returnedFor (h : l.returnedFor = none) : l.response = none := by
  cases l with
  | replayed => cases h
  | executed => cases h
  | _ => rfl

theorem Quiet.knows (h : Quiet env s s' l') : Knows env s' l' := by
  refine ⟨h.mine, fun id r hr => ?_, h.normalized⟩
  rw [response_of_returnedFor h.returned] at hr
  cases hr

theorem Replays.knows {existing : KeyRow} (hs : Sound env s) (h : Replays s s' l' p existing) :
    Knows env s' l' := by
  obtain ⟨rfl, rfl, hmem, hname, hhash, hcompleted⟩ := h
  refine ⟨fun p' row he => ?_, fun id r he => ?_, hcompleted⟩
  · cases he
    exact mine_of_mem hs hmem hhash hname
  · obtain ⟨r', hr', he⟩ := Option.map_eq_some_iff.mp he
    cases he
    refine ⟨hs.past existing hmem, fun q hq hid => ?_⟩
    rw [Table.eq_of_mem hq hmem hid]
    exact hr'

theorem move_writes {a : Action} (hinj : Function.Injective env.uuid) (hs : Sound env s)
    (hk : Knows env s l) (h : move env a s l = some (s', l')) :
    Writes env s s' ∧ Knows env s' l' := by
  rcases move_cases hinj hs hk h with hq | ⟨p, existing, hr⟩ | ⟨p, owned, b, c, nb, row, he⟩
  · exact ⟨hq.writes, hq.knows⟩
  · have hw : Writes env s s' := hr.store ▸ writes_same rfl le_rfl
    exact ⟨hw, hr.knows hs⟩
  · exact ⟨he.writes, he.knows hk⟩

theorem rules (hinj : Function.Injective env.uuid) :
    Rules (program env) (fun _ _ _ => True) (Sound env) (Knows env) where
  enter s call _ := ⟨fun _ _ h => (by cases h), fun _ _ h => (by cases h), trivial⟩
  own s l a s' l' hs hk _ hmove := by
    obtain ⟨hw, hk'⟩ := move_writes hinj hs hk hmove
    exact ⟨hw.sound hinj hs, hk'⟩
  other s l a s' l' m hs hk hm _ _ hmove := hm.writes (move_writes hinj hs hk hmove).1

/-- Two calls that have returned the response of one row agree, and one of them at most has run its
operation for it. -/
def Agree (l m : Local) : Prop :=
  ∀ id r r', l.response = some (id, r) → m.response = some (id, r') →
    r = r' ∧ ¬(l.isExecuted = true ∧ m.isExecuted = true)

theorem agree_of_none (h : l.response = none) (m : Local) : Agree l m := by
  intro id r r' hr
  rw [h] at hr
  cases hr

theorem pairRules (hinj : Function.Injective env.uuid) :
    PairRules (program env) (Sound env) (Knows env) Agree where
  symm l m h id r r' hr hr' := by
    obtain ⟨he, hn⟩ := h id r' r hr' hr
    exact ⟨he.symm, fun hx => hn hx.symm⟩
  enter call m := agree_of_none rfl m
  act s l a s' l' m hs hk hm hR hmove := by
    rcases move_cases hinj hs hk hmove with hq | ⟨p, existing, hr⟩ | ⟨p, owned, b, c, nb, row, he⟩
    · exact agree_of_none (response_of_returnedFor hq.returned) m
    · -- the row that is replayed is the one the other call has seen
      obtain ⟨-, rfl, hmem, -, -, -⟩ := hr
      intro id r r' hr hr'
      obtain ⟨r₀, hr₀, he⟩ := Option.map_eq_some_iff.mp hr
      cases he
      have hkept := (hm.kept _ _ hr').2 existing hmem rfl
      rw [hr₀] at hkept
      exact ⟨Option.some.inj hkept, fun hx => by cases hx.1⟩
    · -- the row that is completed was not, so the other call has not seen it completed
      obtain ⟨-, rfl, hmem, hid, hopen, -, -⟩ := he
      intro id r r' hr hr'
      cases hr
      have hkept := (hm.kept _ _ hr').2 row hmem hid
      rw [isCompleted_of_response hkept] at hopen
      cases hopen

/-! ### Between two expiries -/

abbrev Race := World Store Local

/-- The world after a sequence of events. -/
def after (env : Env) (setup : Store) (events : List (Event Call Action)) : Race :=
  run (program env) (.closed setup) events

/-- The event does not delete the row of a key. -/
def KeepsRow (env : Env) (k : KeyName) (w : Race) (e : Event Call Action) : Prop :=
  ∀ row ∈ w.store.keys.rows, row.name = k →
    ∃ r ∈ (Runs.exec (step (program env)) w e).store.keys.rows, r.id = row.id

/-- No response is recorded for a key. -/
def Store.Open (s : Store) (k : KeyName) : Prop :=
  ∀ row ∈ s.keys.rows, row.name = k → row.state.isCompleted = false

/-- A call that had not returned in `w₀`. -/
def Pending (w₀ : Race) (i : ℕ) : Prop := ∀ l, w₀.sessions[i]? = some l → l.returnedFor = none

/-- A call for a key that returns between `w₀` and `w` resolves to an outcome. -/
def Returns (env : Env) (k : KeyName) (w₀ w : Race) (i : ℕ) (o : Outcome) : Prop :=
  Pending w₀ i ∧ ∃ l, w.sessions[i]? = some l ∧ l.returnedFor = some k ∧ l.outcome env = some o

theorem stuck_of_returnedFor (h : l.returnedFor ≠ none) (a : Action) (s : Store) :
    (program env).move a s l = none := by
  cases l with
  | replayed => rfl
  | executed => rfl
  | _ => exact absurd rfl h

/-- Calls that have returned since `w₀` have the row that is there. -/
def Present (k : KeyName) (w₀ w : Race) : Prop :=
  ∀ i l, w.sessions[i]? = some l → l.returnedFor = some k → Pending w₀ i →
    ∃ row ∈ w.store.keys.rows, row.name = k ∧ ∃ r, l.response = some (row.id, r)

/-- A recorded response is that of a call that has returned it since `w₀`. -/
def Origin (k : KeyName) (w₀ w : Race) : Prop :=
  ∀ row ∈ w.store.keys.rows, row.name = k → row.state.isCompleted = true →
    ∃ x l, Pending w₀ x ∧ w.sessions[x]? = some l ∧ l.isExecuted = true ∧
      l.returnedFor = some k ∧ ∃ r, l.response = some (row.id, r)

theorem response_of_isCompleted {st : KeyState} (h : st.isCompleted = true) :
    ∃ r, st.response = some r := by
  cases st with
  | completed c b t => exact ⟨(c, b), rfl⟩
  | _ => cases h

section Steps

variable {k : KeyName} {w w' : Race} {e : Event Call Action} (hinj : Function.Injective env.uuid)
  (hw : w.Holds (program env) (Sound env) (Knows env)) (hok : step (program env) e w = .ok w')

include hinj hw hok

theorem step_writes : Writes env w.store w'.store := by
  cases e with
  | enter call =>
    cases hok
    exact writes_same rfl le_rfl
  | act i a =>
    obtain ⟨l, l', s, hl, hmove, -, rfl⟩ := step_act hok
    exact (move_writes hinj hw.store (hw.sessions i l hl) hmove).1

theorem step_returned {i : ℕ} {l : Local} (hi : w'.sessions[i]? = some l)
    (hk : l.returnedFor = some k) : w.sessions[i]? = some l ∨
      ∃ row ∈ w'.store.keys.rows, row.name = k ∧ ∃ r, l.response = some (row.id, r) := by
  cases e with
  | enter call =>
    cases hok
    rcases getElem?_enter hi with hi | ⟨-, rfl⟩
    · exact Or.inl hi
    · cases hk
  | act j a =>
    obtain ⟨l₀, l', s, hl₀, hmove, -, rfl⟩ := step_act hok
    rcases getElem?_act hi with ⟨-, hi⟩ | ⟨rfl, rfl⟩
    · exact Or.inl hi
    right
    have hknows := hw.sessions i l₀ hl₀
    rcases move_cases hinj hw.store hknows hmove with
      hq | ⟨p, existing, hr⟩ | ⟨p, owned, b, c, nb, row, he⟩
    · rw [hq.returned] at hk
      cases hk
    · obtain ⟨rfl, rfl, hmem, hname, -, hc⟩ := hr
      obtain ⟨r, hr⟩ := response_of_isCompleted hc
      refine ⟨existing, hmem, hname.trans (Option.some.inj hk), r, ?_⟩
      exact Option.map_eq_some_iff.mpr ⟨r, hr, rfl⟩
    · obtain ⟨done, hdone, hid, hname, -⟩ := he.completes
      have hmine : Mine env w.store p owned := hknows.mine p owned (by rw [he.held]; rfl)
      rw [he.moved] at hk
      refine ⟨done, hdone, ?_, (c, toColumn nb), by rw [he.moved, hid]; rfl⟩
      rw [hname, (hmine.rows row he.mem he.id).2]
      exact Option.some.inj hk

theorem step_recorded {row : KeyRow} (hrow : row ∈ w'.store.keys.rows)
    (hc : row.state.isCompleted = true) : row ∈ w.store.keys.rows ∨
      ∃ (x : ℕ) (l₀ l : Local), w.sessions[x]? = some l₀ ∧ l₀.returnedFor = none ∧
        w'.sessions[x]? = some l ∧ l.isExecuted = true ∧ l.returnedFor = some row.name ∧
          ∃ r, l.response = some (row.id, r) := by
  cases e with
  | enter call =>
    cases hok
    exact Or.inl hrow
  | act i a =>
    obtain ⟨l₀, l', s, hl₀, hmove, -, rfl⟩ := step_act hok
    have hi : i < w.sessions.length := (List.getElem?_eq_some_iff.mp hl₀).1
    have hknows := hw.sessions i l₀ hl₀
    rcases move_cases hinj hw.store hknows hmove with
      hq | ⟨p, existing, hr⟩ | ⟨p, owned, b, c, nb, old, he⟩
    · exact Or.inl (hq.recorded row hrow hc)
    · exact Or.inl (hr.store ▸ hrow)
    · rcases he.recorded hrow with hid | hrow
      · right
        have hmine : Mine env s p owned := (he.knows hknows).mine p owned (by rw [he.moved]; rfl)
        refine ⟨i, l₀, l', hl₀, by rw [he.held]; rfl, List.getElem?_set_self hi,
          by rw [he.moved]; rfl, ?_, (c, toColumn nb), ?_⟩
        · rw [he.moved, (hmine.rows row hrow hid).2]
          rfl
        · rw [he.moved, hid]
          rfl
      · exact Or.inl hrow

theorem step_keeps (hkeep : KeepsRow env k w e) {row : KeyRow} (hrow : row ∈ w.store.keys.rows)
    (hname : row.name = k) : ∃ r ∈ w'.store.keys.rows, r.id = row.id ∧ r.name = k := by
  obtain ⟨r, hr, hid⟩ := hkeep row hrow hname
  rw [Runs.exec_of_ok hok] at hr
  obtain ⟨q, hq, hqid, hgoes⟩ :=
    (step_writes hinj hw hok).goes hr hid (hw.store.past row hrow)
  refine ⟨r, hr, hid, ?_⟩
  rw [hgoes.name, Table.eq_of_mem hq hrow hqid, hname]

end Steps

/-- What holds of every world since `w₀`. -/
structure Stretch (env : Env) (k : KeyName) (w₀ w : Race) : Prop where
  holds : w.Holds (program env) (Sound env) (Knows env)
  settled : ∀ (i : ℕ) (l : Local), w₀.sessions[i]? = some l → l.returnedFor ≠ none →
    w.sessions[i]? = some l
  present : Present k w₀ w

section Stretch

variable {k : KeyName} {w₀ w w' : Race} {e : Event Call Action} (hinj : Function.Injective env.uuid)

include hinj

theorem Stretch.step (h : Stretch env k w₀ w) (hkeep : KeepsRow env k w e)
    (hok : Sessions.step (program env) e w = .ok w') : Stretch env k w₀ w' := by
  refine ⟨h.holds.step_always (rules hinj) hok,
    fun i l hl hr => step_stuck (stuck_of_returnedFor hr) (h.settled i l hl hr) hok,
    fun i l hi hk hpending => ?_⟩
  rcases step_returned hinj h.holds hok hi hk with hi | hnew
  · obtain ⟨row, hrow, hname, r, hr⟩ := h.present i l hi hk hpending
    obtain ⟨row', hrow', hid, hname'⟩ := step_keeps hinj h.holds hok hkeep hrow hname
    exact ⟨row', hrow', hname', r, hid ▸ hr⟩
  · exact hnew

theorem Origin.step (ho : Origin k w₀ w) (h : Stretch env k w₀ w)
    (hok : Sessions.step (program env) e w = .ok w') : Origin k w₀ w' := by
  intro row hrow hname hc
  rcases step_recorded hinj h.holds hok hrow hc with hrow | ⟨x, l₀, l, hl₀, hnone, hl, hx, hk, hr⟩
  · obtain ⟨x, l, hpending, hl, hx, hk, hr⟩ := ho row hrow hname hc
    have hreturned : l.returnedFor ≠ none := by
      rw [hk]
      exact Option.some_ne_none k
    exact ⟨x, l, hpending, step_stuck (stuck_of_returnedFor hreturned) hl hok, hx, hk, hr⟩
  · refine ⟨x, l, fun l₁ hl₁ => ?_, hl, hx, hname ▸ hk, hr⟩
    by_contra hsettled
    have hsame := h.settled x l₁ hl₁ hsettled
    rw [hl₀] at hsame
    exact hsettled (Option.some.inj hsame ▸ hnone)

end Stretch

/-! ### Runs -/

/-- The ids that are drawn are new. -/
structure FreshIds (env : Env) (setup : Store) : Prop where
  injective : Function.Injective env.uuid
  new : ∀ row ∈ setup.keys.rows, Past env setup row.id

section Runs

variable {setup : Store} {k : KeyName} {w₀ w : Race} (hids : FreshIds env setup)
  (hunique : setup.Unique) (events : List (Event Call Action))

include hids hunique

theorem holds_after : (after env setup events).Holds (program env) (Sound env) (Knows env) :=
  run_always (rules hids.injective) events (World.holds_closed ⟨hids.new, hunique⟩)

theorem agree_after : (after env setup events).Pairs Agree :=
  run_pairs (rules hids.injective) (pairRules hids.injective) events
    (World.holds_closed ⟨hids.new, hunique⟩) fun _ _ _ _ _ hi => by cases hi

theorem starts_own {e : Event Call Action} {w' : Race}
    (hok : step (program env) e (after env setup events) = .ok w') {i : ℕ} {p : Prepared}
    {owned : KeyRow} (hi : w'.sessions[i]? = some (.running p owned))
    (hnew : (after env setup events).sessions[i]? ≠ some (.running p owned)) {row : KeyRow}
    (hrow : row ∈ w'.store.keys.rows) (hname : row.name = p.name) :
    row.requestHash = p.requestHash := by
  have hw := holds_after hids hunique events
  have hw' := hw.step_always (rules hids.injective) hok
  have hmine : Mine env w'.store p owned := (hw'.sessions i _ hi).mine p owned rfl
  have howned : owned ∈ w'.store.keys.rows := by
    cases e with
    | enter call =>
      cases hok
      rcases getElem?_enter hi with hi | ⟨-, he⟩
      · exact absurd hi hnew
      · cases he
    | act j a =>
      obtain ⟨l, l', s, hl, hmove, -, rfl⟩ := step_act hok
      rcases getElem?_act hi with ⟨-, hi⟩ | ⟨-, he⟩
      · exact absurd hi hnew
      rcases move_cases hids.injective hw.store (hw.sessions j l hl) hmove with
        hq | ⟨p', existing, hr⟩ | ⟨p', owned', b, c, nb, old, hx⟩
      · exact hq.running p owned he.symm
      · rw [hr.moved] at he
        cases he
      · rw [hx.moved] at he
        cases he
  rw [hw'.store.unique row hrow owned howned (hname.trans hmine.name.symm)]
  exact hmine.hash

theorem stretch_run (h₀ : w₀ = after env setup events) (more : List (Event Call Action))
    (hkept : Runs.Guarded (step (program env)) (KeepsRow env k) w₀ more) :
    Stretch env k w₀ (run (program env) w₀ more) := by
  refine Runs.run_induction (fun w e w' h hkeep hok => h.step hids.injective hkeep hok) more w₀
    ⟨h₀ ▸ holds_after hids hunique events, fun _ _ hi _ => hi, fun i l hi hk hpending => ?_⟩ hkept
  rw [hpending l hi] at hk
  cases hk

theorem origin_run (h₀ : w₀ = after env setup events) (hopen : w₀.store.Open k)
    (more : List (Event Call Action))
    (hkept : Runs.Guarded (step (program env)) (KeepsRow env k) w₀ more) :
    Origin k w₀ (run (program env) w₀ more) := by
  have hstart : Stretch env k w₀ w₀ := stretch_run hids hunique events h₀ [] trivial
  refine (Runs.run_induction (I := fun w => Stretch env k w₀ w ∧ Origin k w₀ w)
    (fun w e w' h hkeep hok => ⟨h.1.step hids.injective hkeep hok,
      h.2.step hids.injective h.1 hok⟩) more w₀ ⟨hstart, fun row hrow hname hc => ?_⟩ hkept).2
  rw [hopen row hrow hname] at hc
  cases hc

end Runs

theorem executed_of_outcome {o : Outcome} (ho : l.outcome env = some o)
    (hr : o.replayed = false) : l.isExecuted = true := by
  cases l with
  | replayed p existing =>
    obtain ⟨r, -, rfl⟩ := Option.map_eq_some_iff.mp ho
    cases hr
  | executed => rfl
  | _ => cases ho

theorem outcome_of_response {o : Outcome} {id : Uuid} {r : ℤ × Option Unknown}
    (ho : l.outcome env = some o) (hr : l.response = some (id, r)) :
    o.statusCode = r.1 ∧ (o.replayed = true → o.body = fromColumn env r.2) := by
  cases l with
  | replayed p existing =>
    obtain ⟨r', hr', he⟩ := Option.map_eq_some_iff.mp hr
    obtain ⟨r'', hr'', rfl⟩ := Option.map_eq_some_iff.mp ho
    rw [hr'] at hr''
    cases hr''
    cases he
    exact ⟨rfl, fun _ => rfl⟩
  | executed p owned body code nb =>
    cases ho
    cases hr
    exact ⟨rfl, fun h => by cases h⟩
  | _ => cases ho

/-- **Agreement**: an operation runs only for the request of the row of its key; and in any part of
any run that does not delete the row of a key, of the calls for it that return in that part one at
most returns a result of its own, and if no response was recorded before, every other one returns
the status code and the body that call has recorded. -/
theorem execute_agrees (env : Env) (setup : Store) (hids : FreshIds env setup)
    (hunique : setup.Unique) (events more : List (Event Call Action)) (k : KeyName) (w₀ w : Race)
    (h₀ : w₀ = after env setup events) (hw : w = run (program env) w₀ more)
    (hkept : Runs.Guarded (step (program env)) (KeepsRow env k) w₀ more) :
    (∀ e w', step (program env) e w₀ = .ok w' → ∀ (i : ℕ) (p : Prepared) (owned : KeyRow),
      w'.sessions[i]? = some (.running p owned) → w₀.sessions[i]? ≠ some (.running p owned) →
        ∀ row ∈ w'.store.keys.rows, row.name = p.name → row.requestHash = p.requestHash) ∧
    (∀ i j o o', Returns env k w₀ w i o → Returns env k w₀ w j o' →
      o.replayed = false → o'.replayed = false → i = j) ∧
    (w₀.store.Open k → ∀ i o, Returns env k w₀ w i o → ∃ x o' responseBody,
      Returns env k w₀ w x o' ∧ o'.replayed = false ∧ o.statusCode = o'.statusCode ∧
      normalizeJsonResponse o'.body = .ok responseBody ∧
      (o.replayed = true → o.body = fromColumn env (toColumn responseBody))) := by
  have hstretch : Stretch env k w₀ w := hw ▸ stretch_run hids hunique events h₀ more hkept
  have hagree : w.Pairs Agree := by
    rw [hw, h₀, after, ← run_append]
    exact agree_after hids hunique (events ++ more)
  refine ⟨?_, ?_, ?_⟩
  · intro e w' hok i p owned hi hnew row hrow hname
    rw [h₀] at hok hnew
    exact starts_own hids hunique events hok hi hnew hrow hname
  · rintro i j o o' ⟨hpi, l, hl, hlk, hlo⟩ ⟨hpj, m, hm, hmk, hmo⟩ ho ho'
    by_contra hij
    obtain ⟨row, hrow, hname, r, hr⟩ := hstretch.present i l hl hlk hpi
    obtain ⟨row', hrow', hname', r', hr'⟩ := hstretch.present j m hm hmk hpj
    have hsame : row = row' :=
      hstretch.holds.store.unique row hrow row' hrow' (hname.trans hname'.symm)
    rw [← hsame] at hr'
    exact (hagree i j l m hij hl hm row.id r r' hr hr').2
      ⟨executed_of_outcome hlo ho, executed_of_outcome hmo ho'⟩
  · rintro hopen i o ⟨hpi, l, hl, hlk, hlo⟩
    obtain ⟨row, hrow, hname, r, hr⟩ := hstretch.present i l hl hlk hpi
    have hkl := hstretch.holds.sessions i l hl
    have hrecorded : row.state.response = some r := (hkl.kept row.id r hr).2 row hrow rfl
    have horigin : Origin k w₀ w := hw ▸ origin_run hids hunique events h₀ hopen more hkept
    obtain ⟨x, m, hpx, hm, hx, hmk, r', hr'⟩ :=
      horigin row hrow hname (isCompleted_of_response hrecorded)
    have hkm := hstretch.holds.sessions x m hm
    have hsame : r' = r := by
      have hrecorded' := (hkm.kept row.id r' hr').2 row hrow rfl
      rw [hrecorded] at hrecorded'
      exact (Option.some.inj hrecorded').symm
    rw [← hsame] at hr
    cases m with
    | executed p owned body code nb =>
      obtain ⟨-, hresponse⟩ := Prod.mk.inj (Option.some.inj hr')
      rw [← hresponse] at hr
      obtain ⟨hcode, hbody⟩ := outcome_of_response hlo hr
      exact ⟨x, ⟨body, code, false⟩, nb, ⟨hpx, _, hm, hmk, rfl⟩, rfl, hcode, hkm.normalized, hbody⟩
    | _ => cases hx

/-! ### A run -/

instance (k : KeyName) (w : Race) (e : Event Call Action) : Decidable (KeepsRow env k w e) :=
  inferInstanceAs (Decidable (∀ row ∈ w.store.keys.rows, row.name = k →
    ∃ r ∈ (Runs.exec (step (program env)) w e).store.keys.rows, r.id = row.id))

/-- The hash is that of the one request below. -/
def stable : Env where
  lower := String.toLower
  sha256 _ := "6d795a65fd7b3eacf2f0d4e1cd74ef05d369806fb27a0bdfcdd4e543d1abe0aa"
  uuid n := 100 + n
  jsonb := id

def stableCall : Call :=
  .execute { context := { organizationId := 3 }, key := "create-task-1", scope := "tasks.create"
             request := .object [("title", .string "Stable")] }

def stableKey : KeyName := ⟨3, "tasks.create", "create-task-1"⟩

def unused : Store := ⟨Table.empty, 0⟩

theorem freshIds_unused : FreshIds stable unused where
  injective _ _ h := Nat.add_left_cancel h
  new _ hrow := absurd hrow List.not_mem_nil

theorem unique_unused : unused.Unique := fun _ hq => absurd hq List.not_mem_nil

def statement (i : ℕ) (now : ℤ) : Event Call Action := .act i (.next now (.ofMillis now))

/-- A call is taken over while its operation runs; a third call comes when both have ended. -/
def takenOver : List (Event Call Action) :=
  [.enter stableCall, statement 0 0, .enter stableCall, statement 1 200000, statement 1 200000,
    statement 1 200000, .act 1 (.operation (.ok
      { body := .object [("id", .string "task-1")], statusCode := some (.fin 201) })),
    statement 1 200000, .act 0 (.operation (.ok { body := .null })), statement 0 200000,
    statement 0 200000, .enter stableCall, statement 2 200000, statement 2 200000]

theorem execute_agrees_taken_over : ∃ o x o' responseBody,
    Returns stable stableKey (.closed unused) (after stable unused takenOver) 2 o ∧
      Returns stable stableKey (.closed unused) (after stable unused takenOver) x o' ∧
        o.replayed = true ∧ o'.replayed = false ∧ o.statusCode = o'.statusCode ∧
        normalizeJsonResponse o'.body = .ok responseBody ∧
        o.body = fromColumn stable (toColumn responseBody) := by
  have hreturns : ((after stable unused takenOver).sessions[2]?.any fun l =>
      l.returnedFor = some stableKey && (l.outcome stable).any fun o => o.replayed) = true := by
    decide +kernel
  obtain ⟨l, hl, h⟩ := (Option.any_eq_true _ _).mp hreturns
  simp only [Bool.and_eq_true, decide_eq_true_eq] at h
  obtain ⟨o, ho, hreplayed⟩ := (Option.any_eq_true _ _).mp h.2
  have hreturn : Returns stable stableKey (.closed unused) (after stable unused takenOver) 2 o :=
    ⟨fun _ hi => (by cases hi), l, hl, h.1, ho⟩
  obtain ⟨x, o', nb, hx, ho', hcode, hnb, hbody⟩ :=
    (execute_agrees stable unused freshIds_unused unique_unused [] takenOver stableKey _ _ rfl rfl
      (by decide +kernel)).2.2 (fun _ hrow => absurd hrow List.not_mem_nil) 2 o hreturn
  exact ⟨o, x, o', nb, hreturn, hx, hreplayed, ho', hcode, hnb, hbody hreplayed⟩

/-- A call whose operation returns a date. -/
def returnsDate : List (Event Call Action) :=
  [.enter stableCall, statement 0 0, .act 0 (.operation (.ok { body := .date (.time 0) })), statement 0 0]

/-- The call that runs its operation returns its result as it is, not as it is recorded. -/
theorem own_result_not_normalized : ¬∀ i o x o' responseBody,
    Returns stable stableKey (.closed unused) (after stable unused returnsDate) i o →
    Returns stable stableKey (.closed unused) (after stable unused returnsDate) x o' →
      o'.replayed = false → normalizeJsonResponse o'.body = .ok responseBody →
        o.body = fromColumn stable (toColumn responseBody) := by
  intro hclaim
  have hreturns : ((after stable unused returnsDate).sessions[0]?.any fun l =>
      l.returnedFor = some stableKey && (l.outcome stable).any fun o =>
        !o.replayed && o.body matches .date _) = true := by
    decide +kernel
  obtain ⟨l, hl, h⟩ := (Option.any_eq_true _ _).mp hreturns
  simp only [Bool.and_eq_true, decide_eq_true_eq] at h
  obtain ⟨⟨body, code, replayed⟩, ho, hdate⟩ := (Option.any_eq_true _ _).mp h.2
  simp only [Bool.and_eq_true, Bool.not_eq_true'] at hdate
  have hreturn := (⟨fun _ hi => (by cases hi), l, hl, h.1, ho⟩ :
    Returns stable stableKey (.closed unused) (after stable unused returnsDate) 0 _)
  cases body with
  | date d =>
    cases d with
    | invalid =>
      have hbody := hclaim 0 _ 0 _ .null hreturn hreturn hdate.1 rfl
      cases hbody
    | time ms =>
      have hbody := hclaim 0 _ 0 _ _ hreturn hreturn hdate.1 rfl
      cases hbody
  | _ => cases hdate.2

end CalmBoard.Idempotency
