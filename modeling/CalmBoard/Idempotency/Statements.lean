import CalmBoard.Idempotency.Repository

/-!
# CalmBoard.Idempotency.Statements — what a statement of a call can do

* `Writes`: each row is an earlier one that goes on, or has a new id.
* `Knows`: what a call knows of the row it holds and of the response it has returned.
* `move_cases`: a statement records nothing, replays a row, or completes the row a call owns.
-/

namespace CalmBoard.Idempotency

open Sessions Fallible

variable {env : Env} {s s' : Store} {l l' : Local} {p : Prepared}

/-! ### Rows -/

/-- An id that is not drawn any more. -/
def Past (env : Env) (s : Store) (id : Uuid) : Prop := ∀ n, s.drawn ≤ n → env.uuid n ≠ id

/-- One row for each key. -/
def Store.Unique (s : Store) : Prop :=
  ∀ q ∈ s.keys.rows, ∀ r ∈ s.keys.rows, q.name = r.name → q = r

structure Sound (env : Env) (s : Store) : Prop where
  past : ∀ q ∈ s.keys.rows, Past env s q.id
  unique : s.Unique

/-- A row goes on as another one: a completed row as it is. -/
structure Goes (q r : KeyRow) : Prop where
  id : r.id = q.id
  hash : r.requestHash = q.requestHash
  name : r.name = q.name
  completed : q.state.isCompleted = true → r = q

theorem Goes.refl (q : KeyRow) : Goes q q := ⟨rfl, rfl, rfl, fun _ => rfl⟩

/-- What a statement does to the rows: each of them is an earlier one that goes on, or has a new
id. -/
structure Writes (env : Env) (s s' : Store) : Prop where
  drawn : s.drawn ≤ s'.drawn
  rows : ∀ r ∈ s'.keys.rows, (∃ n, s.drawn ≤ n ∧ n < s'.drawn ∧ r.id = env.uuid n) ∨
    ∃ q ∈ s.keys.rows, Goes q r
  unique : s.Unique → s'.Unique

theorem Past.mono {id : Uuid} (h : Past env s id) (hle : s.drawn ≤ s'.drawn) : Past env s' id :=
  fun n hn => h n (hle.trans hn)

theorem Writes.sound (hinj : Function.Injective env.uuid) (h : Writes env s s')
    (hs : Sound env s) : Sound env s' := by
  refine ⟨fun r hr => ?_, h.unique hs.unique⟩
  rcases h.rows r hr with ⟨n, -, hn, hid⟩ | ⟨q, hq, hgoes⟩
  · intro k hk he
    have hkn : k = n := hinj (he.trans hid)
    omega
  · rw [hgoes.id]
    exact (hs.past q hq).mono h.drawn

theorem Writes.goes (h : Writes env s s') {r : KeyRow} {id : Uuid} (hr : r ∈ s'.keys.rows)
    (hid : r.id = id) (hpast : Past env s id) : ∃ q ∈ s.keys.rows, q.id = id ∧ Goes q r := by
  rcases h.rows r hr with ⟨n, hn, -, hn'⟩ | ⟨q, hq, hgoes⟩
  · exact absurd (hn'.symm.trans hid) (hpast n hn)
  · exact ⟨q, hq, hgoes.id.symm.trans hid, hgoes⟩

theorem writes_same (hkeys : s'.keys = s.keys) (hdrawn : s.drawn ≤ s'.drawn) : Writes env s s' := by
  refine ⟨hdrawn, fun r hr => Or.inr ⟨r, hkeys ▸ hr, Goes.refl r⟩, fun h => ?_⟩
  unfold Store.Unique
  rw [hkeys]
  exact h

theorem writes_put {old new : KeyRow} (hkeys : s'.keys = s.keys.put new) (hold : old ∈ s.keys.rows)
    (hgoes : Goes old new) (hdrawn : s.drawn ≤ s'.drawn) : Writes env s s' := by
  have hfrom : ∀ r ∈ s'.keys.rows, ∃ q ∈ s.keys.rows, Goes q r := by
    intro r hr
    rw [hkeys] at hr
    rcases Table.mem_put hr with rfl | hr
    · exact ⟨old, hold, hgoes⟩
    · exact ⟨r, hr, Goes.refl r⟩
  refine ⟨hdrawn, fun r hr => Or.inr (hfrom r hr), fun h q hq r hr hname => ?_⟩
  obtain ⟨q₀, hq₀, hgq⟩ := hfrom q hq
  obtain ⟨r₀, hr₀, hgr⟩ := hfrom r hr
  have hsame : q₀ = r₀ := h q₀ hq₀ r₀ hr₀ (hgq.name.symm.trans (hname.trans hgr.name))
  exact Table.eq_of_mem hq hr (hgq.id.trans (hsame ▸ hgr.id.symm))

theorem writes_remove {deletes : KeyRow → Bool} (hkeys : s'.keys = s.keys.remove deletes)
    (hdrawn : s.drawn ≤ s'.drawn) : Writes env s s' := by
  have hfrom : ∀ r ∈ s'.keys.rows, r ∈ s.keys.rows := by
    intro r hr
    rw [hkeys, Table.rows_remove] at hr
    exact (List.mem_filter.mp hr).1
  exact ⟨hdrawn, fun r hr => Or.inr ⟨r, hfrom r hr, Goes.refl r⟩,
    fun h q hq r hr hname => h q (hfrom q hq) r (hfrom r hr) hname⟩

theorem writes_insert {row : KeyRow} {n : ℕ} (hrows : s'.keys.rows = s.keys.rows ++ [row])
    (hid : row.id = env.uuid n) (hn : s.drawn ≤ n) (hn' : n < s'.drawn)
    (hnew : ∀ q ∈ s.keys.rows, q.name ≠ row.name) : Writes env s s' := by
  refine ⟨by omega, fun r hr => ?_, fun h q hq r hr hname => ?_⟩
  · rw [hrows] at hr
    rcases List.mem_append.mp hr with hr | hr
    · exact Or.inr ⟨r, hr, Goes.refl r⟩
    · rw [List.mem_singleton.mp hr]
      exact Or.inl ⟨n, hn, hn', hid⟩
  · rw [hrows] at hq hr
    rcases List.mem_append.mp hq with hq | hq <;> rcases List.mem_append.mp hr with hr | hr
    · exact h q hq r hr hname
    · exact absurd (List.mem_singleton.mp hr ▸ hname) (hnew q hq)
    · exact absurd (List.mem_singleton.mp hq ▸ hname).symm (hnew r hr)
    · rw [List.mem_singleton.mp hq, List.mem_singleton.mp hr]

/-! ### What a call knows -/

/-- A row of the key of a call, with the hash of its request. -/
structure Mine (env : Env) (s : Store) (p : Prepared) (row : KeyRow) : Prop where
  past : Past env s row.id
  hash : row.requestHash = p.requestHash
  name : row.name = p.name
  rows : ∀ q ∈ s.keys.rows, q.id = row.id → q.requestHash = p.requestHash ∧ q.name = p.name

/-- The row a call holds. -/
def Local.row : Local → Option (Prepared × KeyRow)
  | .takeover p row _ | .running p row | .completing p row .. | .failing p row _ | .replayed p row
  | .executed p row .. => some (p, row)
  | _ => none

/-- The row whose response a call has returned, with that response. -/
def Local.response : Local → Option (Uuid × ℤ × Option Unknown)
  | .replayed _ existing => existing.state.response.map fun r => (existing.id, r)
  | .executed _ owned _ statusCode responseBody => some (owned.id, statusCode, toColumn responseBody)
  | _ => none

def Local.isExecuted : Local → Bool
  | .executed .. => true
  | _ => false

/-- A recorded body is the normal form of the result; a replayed row is completed. -/
def Local.Normalized : Local → Prop
  | .completing _ _ body _ responseBody | .executed _ _ body _ responseBody =>
    normalizeJsonResponse body = .ok responseBody
  | .replayed _ existing => existing.state.isCompleted = true
  | _ => True

structure Knows (env : Env) (s : Store) (l : Local) : Prop where
  mine : ∀ p row, l.row = some (p, row) → Mine env s p row
  kept : ∀ id r, l.response = some (id, r) →
    Past env s id ∧ ∀ q ∈ s.keys.rows, q.id = id → q.state.response = some r
  normalized : l.Normalized

theorem Mine.writes {row : KeyRow} (h : Mine env s p row) (hw : Writes env s s') :
    Mine env s' p row := by
  refine ⟨h.past.mono hw.drawn, h.hash, h.name, fun r hr hid => ?_⟩
  obtain ⟨q, hq, hqid, hgoes⟩ := hw.goes hr hid h.past
  rw [hgoes.hash, hgoes.name]
  exact h.rows q hq hqid

theorem mine_of_mem {row : KeyRow} (hs : Sound env s) (hrow : row ∈ s.keys.rows)
    (hhash : row.requestHash = p.requestHash) (hname : row.name = p.name) : Mine env s p row := by
  refine ⟨hs.past row hrow, hhash, hname, fun q hq hid => ?_⟩
  rw [Table.eq_of_mem hq hrow hid]
  exact ⟨hhash, hname⟩

theorem isCompleted_of_response {st : KeyState} {r : ℤ × Option Unknown} (h : st.response = some r) :
    st.isCompleted = true := by
  cases st with
  | completed => rfl
  | _ => cases h

theorem Knows.writes (h : Knows env s l) (hw : Writes env s s') : Knows env s' l := by
  refine ⟨fun p row hrow => (h.mine p row hrow).writes hw, fun id r hr => ?_, h.normalized⟩
  obtain ⟨hpast, hkept⟩ := h.kept id r hr
  refine ⟨hpast.mono hw.drawn, fun q hq hid => ?_⟩
  obtain ⟨q₀, hq₀, hid₀, hgoes⟩ := hw.goes hq hid hpast
  have hr₀ := hkept q₀ hq₀ hid₀
  rw [hgoes.completed (isCompleted_of_response hr₀)]
  exact hr₀

/-! ### Statements -/

variable {owned : KeyRow} {e : RepoError} {now : ℤ}

/-- A statement that records no response. -/
structure Quiet (env : Env) (s s' : Store) (l' : Local) : Prop where
  writes : Writes env s s'
  recorded : ∀ r ∈ s'.keys.rows, r.state.isCompleted = true → r ∈ s.keys.rows
  returned : l'.returnedFor = none
  mine : ∀ p row, l'.row = some (p, row) → Mine env s' p row
  normalized : l'.Normalized
  running : ∀ p owned, l' = .running p owned → owned ∈ s'.keys.rows

theorem quiet_same (hkeys : s'.keys = s.keys) (hdrawn : s.drawn ≤ s'.drawn)
    (hreturned : l'.returnedFor = none) (hnormalized : l'.Normalized)
    (hmine : ∀ p row, l'.row = some (p, row) → Mine env s p row)
    (hrunning : ∀ p owned, l' ≠ .running p owned) : Quiet env s s' l' where
  writes := writes_same hkeys hdrawn
  recorded _ hr _ := hkeys ▸ hr
  returned := hreturned
  mine p row hrow := (hmine p row hrow).writes (writes_same hkeys hdrawn)
  normalized := hnormalized
  running p owned he := absurd he (hrunning p owned)

theorem quiet_thrown (hkeys : s'.keys = s.keys) (hdrawn : s.drawn ≤ s'.drawn) :
    Quiet env s s' (.thrown e) :=
  quiet_same hkeys hdrawn rfl trivial (fun _ _ h => by cases h) fun _ _ h => by cases h

theorem quiet_failing (h : Mine env s p owned) : Quiet env s s (.failing p owned e) :=
  quiet_same rfl le_rfl rfl trivial (fun _ _ he => by cases he; exact h) fun _ _ he => by cases he

theorem quiet_insert {dbNow : Timestamptz} (hinj : Function.Injective env.uuid) (hs : Sound env s)
    (h : insert env p now dbNow s = (s', l')) : Quiet env s s' l' := by
  unfold insert at h
  split at h
  · cases h
    exact quiet_thrown rfl le_rfl
  · dsimp only at h
    split at h
    · split at h
      · cases h
        exact quiet_same rfl (Nat.le_add_right _ _) rfl trivial (fun _ _ he => by cases he)
          fun _ _ he => by cases he
      · next hfree =>
        split at h
        · cases h
          exact quiet_thrown rfl (Nat.le_add_right _ _)
        · next keys hinsert =>
          cases h
          have hnew : ∀ q ∈ s.keys.rows, q.name ≠ p.name := by
            simpa using hfree
          have hrows := (Table.insert?_eq_some hinsert).2
          have hwrites : Writes env s { s with keys := keys, drawn := s.drawn + 2 } :=
            writes_insert hrows rfl (Nat.le_succ _) (Nat.lt_succ_self _) hnew
          have hsound := hwrites.sound hinj hs
          refine ⟨hwrites, fun r hr hc => ?_, rfl, fun p' row he => ?_, trivial, fun p' row he => ?_⟩
          · rw [hrows] at hr
            rcases List.mem_append.mp hr with hr | hr
            · exact hr
            · rw [List.mem_singleton.mp hr] at hc
              cases hc
          · cases he
            refine mine_of_mem hsound ?_ rfl rfl
            rw [hrows]
            exact List.mem_append_right _ List.mem_cons_self
          · cases he
            rw [hrows]
            exact List.mem_append_right _ List.mem_cons_self
    · cases h
      exact quiet_thrown rfl (Nat.le_add_right _ _)

/-- A row of the key whose response is returned. -/
structure Replays (s s' : Store) (l' : Local) (p : Prepared) (existing : KeyRow) : Prop where
  store : s' = s
  moved : l' = .replayed p existing
  mem : existing ∈ s.keys.rows
  name : existing.name = p.name
  hash : existing.requestHash = p.requestHash
  completed : existing.state.isCompleted = true

theorem select_cases (hs : Sound env s) :
    Quiet env s s (select p now s) ∨ ∃ existing, Replays s s (select p now s) p existing := by
  unfold select
  split
  · exact Or.inl (quiet_thrown rfl le_rfl)
  · next existing hfind =>
    have hmem : existing ∈ s.keys.rows := List.mem_of_find?_eq_some hfind
    have hsel : p.selects existing = true := List.find?_some hfind
    have hname : existing.name = p.name := by
      unfold Prepared.selects at hsel
      simp only [Bool.and_eq_true, decide_eq_true_eq] at hsel
      exact hsel.1
    split
    · exact Or.inl (quiet_same rfl le_rfl rfl trivial (fun _ _ he => by cases he)
        fun _ _ he => by cases he)
    split
    · exact Or.inl (quiet_thrown rfl le_rfl)
    next hhash =>
    have hhash : existing.requestHash = p.requestHash := not_not.mp hhash
    split
    · next hc => exact Or.inr ⟨existing, rfl, rfl, hmem, hname, hhash, hc⟩
    · left
      refine quiet_same rfl le_rfl rfl trivial (fun _ _ he => ?_) fun _ _ he => by cases he
      cases he
      exact mine_of_mem hs hmem hhash hname

theorem quiet_deleteExpired {existing : KeyRow} (h : deleteExpired p existing now s = (s', l')) :
    Quiet env s s' l' := by
  unfold deleteExpired at h
  dsimp only at h
  split at h
  · cases h
    refine ⟨writes_remove rfl le_rfl, fun r hr _ => ?_, rfl, fun _ _ he => (by cases he), trivial,
      fun _ _ he => by cases he⟩
    exact (List.mem_filter.mp hr).1
  · cases h
    exact quiet_thrown rfl le_rfl

theorem quiet_put {old new : KeyRow} (hkeys : s'.keys = s.keys.put new) (hs : Sound env s)
    (hinj : Function.Injective env.uuid) (hold : old ∈ s.keys.rows) (hgoes : Goes old new)
    (hopen : new.state.isCompleted = false) (hdrawn : s.drawn ≤ s'.drawn)
    (hl : (∃ e, l' = .thrown e) ∨ (l' = .running p new ∧ new.requestHash = p.requestHash ∧
      new.name = p.name)) : Quiet env s s' l' := by
  have hwrites : Writes env s s' := writes_put hkeys hold hgoes hdrawn
  have hmem : new ∈ s'.keys.rows := by
    rw [hkeys, Table.rows_put]
    exact List.mem_map.mpr ⟨old, hold, if_pos hgoes.id.symm⟩
  have hrecorded : ∀ r ∈ s'.keys.rows, r.state.isCompleted = true → r ∈ s.keys.rows := by
    intro r hr hc
    rw [hkeys] at hr
    rcases Table.mem_put hr with rfl | hr
    · rw [hopen] at hc
      cases hc
    · exact hr
  rcases hl with ⟨e, rfl⟩ | ⟨rfl, hhash, hname⟩
  · exact ⟨hwrites, hrecorded, rfl, fun _ _ he => (by cases he), trivial, fun _ _ he => by cases he⟩
  · refine ⟨hwrites, hrecorded, rfl, fun _ _ he => ?_, trivial, fun _ _ he => ?_⟩
    · cases he
      exact mine_of_mem (hwrites.sound hinj hs) hmem hhash hname
    · cases he
      exact hmem

theorem quiet_takeOver {existing : KeyRow} (hinj : Function.Injective env.uuid) (hs : Sound env s)
    (hmine : Mine env s p existing) (h : takeOver env p existing now s = (s', l')) :
    Quiet env s s' l' := by
  unfold takeOver at h
  split at h
  · dsimp only at h
    split at h
    · cases h
      exact quiet_thrown rfl (Nat.le_succ _)
    · next row hfind =>
      have hmem : row ∈ s.keys.rows := List.mem_of_find?_eq_some hfind
      have hid : row.id = existing.id := by
        have hsel := List.find?_some hfind
        simp only [Bool.and_eq_true, decide_eq_true_eq] at hsel
        exact hsel.1.1.1
      split at h
      · cases h
        exact quiet_thrown rfl (Nat.le_succ _)
      next hopen =>
      split at h
      · cases h
        exact quiet_thrown rfl (Nat.le_succ _)
      split at h
      · cases h
        refine quiet_put rfl hs hinj hmem ⟨rfl, rfl, rfl, fun hc => absurd hc hopen⟩ rfl
          (Nat.le_succ _) (Or.inr ⟨rfl, ?_⟩)
        exact hmine.rows row hmem hid
      · cases h
        exact quiet_thrown rfl (Nat.le_succ _)
  · cases h
    exact quiet_thrown rfl le_rfl
  · cases h
    exact quiet_thrown rfl le_rfl

theorem quiet_respond {result : OperationResult} (hmine : Mine env s p owned) :
    Quiet env s s (respond p owned result) := by
  unfold respond
  split
  · exact quiet_failing hmine
  · split
    · exact quiet_failing hmine
    · next hnormal =>
      refine quiet_same rfl le_rfl rfl hnormal (fun _ _ he => ?_) fun _ _ he => by cases he
      cases he
      exact hmine

theorem owns_of_find {row : KeyRow} (h : s.keys.rows.find? (p.owns owned) = some row) :
    row ∈ s.keys.rows ∧ row.id = owned.id ∧ row.state.isProcessing = true := by
  have hsel : p.owns owned row = true := List.find?_some h
  unfold Prepared.owns at hsel
  simp only [Bool.and_eq_true, decide_eq_true_eq] at hsel
  exact ⟨List.mem_of_find?_eq_some h, hsel.1.1.1, hsel.1.2⟩

theorem not_completed {st : KeyState} (h : st.isProcessing = true) : st.isCompleted = false := by
  cases st with
  | processing => rfl
  | _ => cases h

/-- The row a call owns is completed with the result of its operation. -/
structure Executes (s s' : Store) (l l' : Local) (p : Prepared) (owned : KeyRow) (body : Unknown)
    (statusCode : ℤ) (responseBody : Unknown) (row : KeyRow) : Prop where
  held : l = .completing p owned body statusCode responseBody
  moved : l' = .executed p owned body statusCode responseBody
  mem : row ∈ s.keys.rows
  id : row.id = owned.id
  open_ : row.state.isCompleted = false
  drawn : s'.drawn = s.drawn
  put : ∃ t, s'.keys = s.keys.put { row with state := .completed statusCode (toColumn responseBody) t }

theorem complete_cases {body responseBody : Unknown} {statusCode : ℤ}
    (hl : l = .completing p owned body statusCode responseBody) (hmine : Mine env s p owned)
    (h : complete p owned body statusCode responseBody now s = (s', l')) :
    Quiet env s s' l' ∨ ∃ row, Executes s s' l l' p owned body statusCode responseBody row := by
  unfold complete at h
  split at h
  · cases h
    exact Or.inl (quiet_failing hmine)
  · next row hfind =>
    cases h
    obtain ⟨hmem, hid, hprocessing⟩ := owns_of_find hfind
    exact Or.inr ⟨row, hl, rfl, hmem, hid, not_completed hprocessing, rfl, _, rfl⟩

theorem quiet_markFailed (hinj : Function.Injective env.uuid) (hs : Sound env s)
    (h : markFailed p owned e s = (s', l')) : Quiet env s s' l' := by
  unfold markFailed at h
  split at h
  · cases h
    exact quiet_thrown rfl le_rfl
  · next row hfind =>
    cases h
    obtain ⟨hmem, -, hprocessing⟩ := owns_of_find hfind
    refine quiet_put (p := p) rfl hs hinj hmem ⟨rfl, rfl, rfl, fun hc => ?_⟩ rfl le_rfl
      (Or.inl ⟨e, rfl⟩)
    rw [not_completed hprocessing] at hc
    cases hc

theorem quiet_begin {call : Call} {dbNow : Timestamptz} (hinj : Function.Injective env.uuid)
    (hs : Sound env s) (h : begin env call now dbNow s = (s', l')) : Quiet env s s' l' := by
  unfold begin at h
  split at h
  · split at h
    · cases h
      exact quiet_thrown rfl le_rfl
    · exact quiet_insert hinj hs h
  · cases h
    refine ⟨writes_remove rfl le_rfl, fun r hr _ => ?_, rfl, fun _ _ he => (by cases he), trivial,
      fun _ _ he => by cases he⟩
    exact (List.mem_filter.mp hr).1

/-- A statement fails: the call goes on in its `catch` block, or has thrown. -/
theorem quiet_fails (hk : Knows env s l) : Quiet env s s (l.fails e) := by
  cases l with
  | completing p owned => exact quiet_failing (hk.mine p owned rfl)
  | _ => exact quiet_thrown rfl le_rfl

/-- **Statements**: they record nothing, or return a recorded response, or record one. -/
theorem move_cases {a : Action} (hinj : Function.Injective env.uuid) (hs : Sound env s)
    (hk : Knows env s l) (h : move env a s l = some (s', l')) :
    Quiet env s s' l' ∨ (∃ p existing, Replays s s' l' p existing) ∨
      ∃ p owned body statusCode responseBody row,
        Executes s s' l l' p owned body statusCode responseBody row := by
  unfold move at h
  split at h
  · cases h
  · cases h
  · cases h
  · cases h
  · cases h
    exact Or.inl (quiet_respond (hk.mine _ _ rfl))
  · cases h
    exact Or.inl (quiet_failing (hk.mine _ _ rfl))
  · cases h
  · cases h
    exact Or.inl (quiet_fails hk)
  · exact Or.inl (quiet_begin hinj hs (Option.some.inj h))
  · next p now _ _ =>
    cases h
    rcases select_cases hs with hq | ⟨existing, hr⟩
    · exact Or.inl hq
    · exact Or.inr (Or.inl ⟨p, existing, hr⟩)
  · exact Or.inl (quiet_deleteExpired (Option.some.inj h))
  · exact Or.inl (quiet_takeOver hinj hs (hk.mine _ _ rfl) (Option.some.inj h))
  · rcases complete_cases rfl (hk.mine _ _ rfl) (Option.some.inj h) with hq | ⟨row, he⟩
    · exact Or.inl hq
    · exact Or.inr (Or.inr ⟨_, _, _, _, _, row, he⟩)
  · exact Or.inl (quiet_markFailed hinj hs (Option.some.inj h))
  · cases h

end CalmBoard.Idempotency
