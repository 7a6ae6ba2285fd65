import CalmBoard.Queues.Workers

/-!
# CalmBoard.Queues.Stranded — claims that nobody ends

* `move_rows`: what a statement does to a row, and to the claims its worker holds.
* `stranded_of_refused`: an expired claim is stranded when updates of its row raise.
* `stranded_iff`: where they do not, it is stranded when it was the last one permitted and no worker is
  left that holds it.
* `never_stranded`: this happens only where a worker is lost during a last attempt, or a schedule gets
  another format than an open export of it.
* `stranded_after_crashes`: a row whose workers are lost at every attempt.
-/

namespace CalmBoard.Queues

open Queue Sessions

variable {s s' : Tables} {l l' : Local} {a : Action} {r r' : Work} {source : Source} {c : Candidate}
  {rest : List Candidate}

/-- A candidate that the worker still has owns the row. -/
def Local.holds (l : Local) (r : Work) : Bool :=
  match l with
  | .working source rest => rest.any fun c => c.owns source r
  | _ => false

/-- No further claim is permitted. -/
def Work.exhausted (r : Work) : Bool := r.lease.maxAttempts ≤ r.lease.attempts

/-- What the rows keep: a claim is made of a row that is due, and the payload is there until the
end. -/
structure Work.Sound (r : Work) : Prop where
  due : ∀ claimedAt token, r.lease.status = .processing claimedAt token →
    r.lease.availableAt ≤ claimedAt
  payload : r.payload = true ∨ ∃ outcome, r.lease.status = .closed outcome

theorem holds_cons :
    (Local.working source (c :: rest)).holds r =
      (c.owns source r || (Local.working source rest).holds r) := rfl

/-! ### Rows -/

variable {options : Options} {now : ℤ}

theorem owns_iff :
    c.owns source r = true ↔ r.key = (source, c.id) ∧ owned c.claimToken r.lease = true := by
  unfold Candidate.owns
  rw [Bool.and_eq_true, decide_eq_true_iff]

theorem claimable_iff :
    r.claimable options now = true ↔ Queue.claimable options.timeout now r.lease = true ∧
      (r.source.table.payloadCleared = false ∨ r.payload = true) := by
  unfold Work.claimable
  rw [Bool.and_eq_true, Bool.or_eq_true, Bool.not_eq_true']

theorem not_exhausted_of_claimable (h : r.claimable options now = true) : r.exhausted = false := by
  have hlease := (claimable_iff.mp h).1
  unfold Queue.claimable at hlease
  simp only [Bool.and_eq_true, decide_eq_true_eq] at hlease
  unfold Work.exhausted
  rw [decide_eq_false_iff_not]
  omega

theorem sound_claimed {token : Uuid} (h : r.Sound) (hc : r.claimable options now = true) :
    (r.claimed now token).Sound := by
  have hlease := (claimable_iff.mp hc).1
  constructor
  · intro claimedAt t hs
    have hdue : r.lease.availableAt ≤ now := by
      unfold Queue.claimable at hlease
      simp only [Bool.and_eq_true, decide_eq_true_eq] at hlease
      exact hlease.1.2
    cases hs
    exact hdue
  · rcases h.payload with hp | ⟨outcome, hs⟩
    · exact Or.inl hp
    · have hopen := not_terminal_of_claimable hlease
      rw [hs] at hopen
      cases hopen

theorem sound_finished {outcome : Outcome} : (r.finished outcome).Sound :=
  ⟨fun _ _ hs => (by cases hs), Or.inr ⟨outcome, rfl⟩⟩

theorem payload_of_owned {token : Uuid} (h : r.Sound) (ho : owned token r.lease = true) :
    r.payload = true := by
  rcases h.payload with hp | ⟨outcome, hs⟩
  · exact hp
  · have hopen := not_terminal_of_owned ho
    rw [hs] at hopen
    cases hopen

theorem status_released :
    (r.released now source c).lease.status = if r.exhausted = true then .dead else .pending := by
  unfold Work.released release Work.exhausted
  split
  · next h => rw [if_pos (decide_eq_true h)]
  · next h => rw [if_neg (by simpa using h)]

theorem sound_released (h : r.Sound) (hc : c.owns source r = true) :
    (r.released now source c).Sound := by
  have hpayload : r.payload = true := payload_of_owned h (owns_iff.mp hc).2
  refine ⟨fun claimedAt t hs => ?_, Or.inl hpayload⟩
  rw [status_released] at hs
  split at hs
  · cases hs
  · cases hs

theorem sound_retried (h : r.Sound) : (r.retried now).Sound := by
  unfold Work.retried retry
  split
  · next hdead =>
    refine ⟨fun _ _ hs => (by cases hs), Or.inl ?_⟩
    rcases h.payload with hp | ⟨outcome, hs⟩
    · exact hp
    · rw [hdead] at hs
      cases hs
  · exact h

theorem sound_newWork {id : Uuid} {scheduled : Option (Uuid × String)} :
    Work.Sound { newWork source id now with scheduled } :=
  ⟨fun _ _ hs => (by cases hs), Or.inl rfl⟩

/-! ### The trigger of the export jobs -/

theorem accepts_congr (hscheduled : r'.scheduled = r.scheduled)
    (hformat : s'.scheduleFormat = s.scheduleFormat) : s'.accepts r' = s.accepts r := by
  unfold Tables.accepts
  rw [hscheduled, hformat]

theorem accepts_of_not_refused (h : s.refuses source c = false) (hr : r ∈ s.rows)
    (hc : c.owns source r = true) : s.accepts r = true := by
  have hnone := List.any_eq_false.mp h r hr
  rwa [hc, Bool.true_and, Bool.not_eq_true', Bool.not_eq_false] at hnone

/-- Updates of the open rows pass. -/
def Tables.Accepted (s : Tables) : Prop :=
  ∀ r ∈ s.rows, r.lease.status.terminal = false → s.accepts r = true

theorem not_refused (h : s.Accepted) (source : Source) (c : Candidate) : s.refuses source c = false := by
  refine List.any_eq_false.mpr fun r hr => ?_
  by_cases hc : c.owns source r = true
  · rw [h r hr (not_terminal_of_owned (owns_iff.mp hc).2), Bool.not_true, Bool.and_false]
    exact Bool.false_ne_true
  · rw [Bool.eq_false_of_not_eq_true hc, Bool.false_and]
    exact Bool.false_ne_true

/-! ### Statements -/

variable {skipped : List Uuid}

/-- What becomes of a row: it stays, with the worker that holds it unless that one stops; it is claimed
and the worker holds it; the worker that holds it ends its claim; or it was dead and is retried. -/
inductive Fate (a : Action) (l l' : Local) : Work → Work → Prop
  | stays {r : Work} (h : l.holds r = true → l'.holds r = true ∨ l' = .stopped) : Fate a l l' r r
  | claimed {r : Work} (options : Options) (now : ℤ) (token : Uuid) (h : r.claimable options now = true)
    (hheld : l'.holds (r.claimed now token) = true) : Fate a l l' r (r.claimed now token)
  | finished {r : Work} (outcome : Outcome) (h : l.holds r = true) : Fate a l l' r (r.finished outcome)
  | released {r : Work} (source : Source) (c : Candidate) (now : ℤ) (h : l.holds r = true)
    (hc : c.owns source r = true) : Fate a l l' r (r.released now source c)
  | retried {r : Work} (now : ℤ) (h : r.lease.status = .dead) : Fate a l l' r (r.retried now)

/-- A row after a statement: it was there before, and the trigger lets it change, or it is new. -/
def Comes (a : Action) (s : Tables) (l l' : Local) (r' : Work) : Prop :=
  (∃ r ∈ s.rows, r.key = r'.key ∧ Fate a l l' r r' ∧ (r' = r ∨ s.accepts r = true)) ∨
    (s.find? r'.key = none ∧ s.accepts r' = true ∧
      ∃ source id now scheduled, r' = { newWork source id now with scheduled })

theorem comes_same (hr : r ∈ s.rows) (h : l.holds r = true → l'.holds r = true ∨ l' = .stopped) :
    Comes a s l l' r := Or.inl ⟨r, hr, rfl, .stays h, Or.inl rfl⟩

theorem mem_claimBatch (h : r ∈ claimBatch source options now skipped s.toTable) :
    r ∈ s.rows ∧ r.source = source ∧ r.claimable options now = true := by
  have hmem := (mem_batch h).1
  rw [List.mem_filter, Bool.and_eq_true, decide_eq_true_iff] at hmem
  exact hmem

theorem holds_candidates {token : Uuid → Uuid}
    (h : r ∈ claimBatch source options now skipped s.toTable) :
    (Local.working source
      (candidates (claimBatch source options now skipped s.toTable) token)).holds
        (r.claimed now (token r.id)) = true := by
  obtain ⟨-, hsource, -⟩ := mem_claimBatch h
  refine List.any_eq_true.mpr ⟨_, List.mem_map_of_mem h, owns_iff.mpr ⟨?_, ?_⟩⟩
  · unfold Work.key Work.claimed
    rw [hsource]
  · simp [owned, Work.claimed, claim]

theorem comes_commitClaim {token : Uuid → Uuid}
    (hpass : (claimBatch source options now skipped s.toTable).all s.accepts = true)
    (h : r' ∈ (commitClaim (claimBatch source options now skipped s.toTable) now token
      s.toTable).rows) :
    Comes a s (.called (.work source options)) (.working source
      (candidates (claimBatch source options now skipped s.toTable) token)) r' := by
  unfold commitClaim at h
  rw [Table.mem_update] at h
  obtain ⟨r, hr, rfl⟩ := h
  split
  · next hp =>
    rw [List.contains_iff_mem, List.mem_map] at hp
    obtain ⟨x, hx, hkey⟩ := hp
    obtain ⟨hxs, -, hclaimable⟩ := mem_claimBatch hx
    obtain rfl := Table.eq_of_mem hxs hr hkey
    exact Or.inl ⟨x, hr, rfl, .claimed options now _ hclaimable (holds_candidates hx),
      Or.inr (List.all_eq_true.mp hpass x hx)⟩
  · exact comes_same hr fun hh => (by cases hh)

theorem comes_settle {f : Work → Work} (hf : ∀ r, (f r).key = r.key)
    (hpass : s.refuses source c = false) (h : r' ∈ (s.update (c.owns source) f hf).rows)
    (hfate : ∀ r, c.owns source r = true →
      Fate a (.working source (c :: rest)) (.working source rest) r (f r)) :
    Comes a s (.working source (c :: rest)) (.working source rest) r' := by
  rw [Table.mem_update] at h
  obtain ⟨r, hr, rfl⟩ := h
  split
  · next hp =>
    exact Or.inl ⟨r, hr, (hf r).symm, hfate r hp, Or.inr (accepts_of_not_refused hpass hr hp)⟩
  · next hp =>
    refine comes_same hr fun hh => Or.inl ?_
    rwa [holds_cons, Bool.eq_false_of_not_eq_true hp, Bool.false_or] at hh

theorem holds_head (h : c.owns source r = true) :
    (Local.working source (c :: rest)).holds r = true := by
  rw [holds_cons, h, Bool.true_or]

theorem comes_retryDeadLetter {id : Uuid} {table : Store}
    (hpass : (s.find? (source, id)).all (fun r => r.lease.status ≠ .dead || s.accepts r) = true)
    (hs : retryDeadLetter source id now s.toTable = some table) (h : r' ∈ table.rows) :
    Comes a s (.called (.retryDeadLetter source id)) .stopped r' := by
  unfold retryDeadLetter at hs
  split at hs
  · cases hs
    rw [Table.mem_update] at h
    obtain ⟨r, hr, rfl⟩ := h
    have hsame : Comes a s (.called (.retryDeadLetter source id)) .stopped r :=
      comes_same hr fun hh => (by cases hh)
    split
    · next hkey =>
      by_cases hdead : r.lease.status = .dead
      · have hfind := Table.find?_of_mem hr
        rw [of_decide_eq_true hkey] at hfind
        rw [hfind, Option.all_some, hdead] at hpass
        exact Or.inl ⟨r, hr, rfl, .retried now hdead, Or.inr (by simpa using hpass)⟩
      · have hretried : r.retried now = r := by
          unfold Work.retried retry
          split
          · next h => exact absurd h hdead
          · rfl
        rwa [hretried]
    · exact hsame
  · cases hs

theorem comes_insert {id : Uuid} {scheduled : Option (Uuid × String)} {call : Call} {table : Store}
    (hinsert : s.insert? { newWork source id now with scheduled } = some table)
    (hpass : s.accepts { newWork source id now with scheduled } = true) (h : r' ∈ table.rows) :
    Comes a s (.called call) .stopped r' := by
  obtain ⟨hfresh, hrows⟩ := Table.insert?_eq_some hinsert
  rw [hrows] at h
  rcases List.mem_append.mp h with h | h
  · exact comes_same h fun hh => (by cases hh)
  · rw [List.mem_singleton.mp h]
    exact Or.inr ⟨hfresh, hpass, _, _, _, _, rfl⟩

/-- **Rows**: what a statement does to them. -/
theorem move_rows (h : move a s l = some (s', l')) (hr : r' ∈ s'.rows) : Comes a s l l' r' := by
  unfold move at h
  split at h
  · cases h
    exact comes_same hr fun _ => Or.inr rfl
  · have hclaim := Option.some.inj h
    unfold claimNext at hclaim
    split at hclaim
    · next hpass =>
      cases hclaim
      exact comes_commitClaim hpass hr
    · cases hclaim
      exact comes_same hr fun _ => Or.inr rfl
  · split at h
    · split at h
      · cases h
        exact comes_same hr Or.inl
      · next hpass =>
        cases h
        exact comes_settle (Work.finished_key _) (Bool.eq_false_of_not_eq_true hpass) hr
          fun r hc => .finished _ (holds_head hc)
    · cases h
  · split at h
    · cases h
      exact comes_same hr fun _ => Or.inr rfl
    · next hpass =>
      cases h
      exact comes_settle (Work.released_key _ _ _) (Bool.eq_false_of_not_eq_true hpass) hr
        fun r hc => .released _ _ _ (holds_head hc) hc
  · obtain ⟨t, hinsert, ht⟩ := Option.map_eq_some_iff.mp h
    cases ht
    exact comes_insert hinsert rfl hr
  · obtain ⟨t, henqueue, ht⟩ := Option.map_eq_some_iff.mp h
    cases ht
    obtain ⟨format, hformat, h⟩ := Option.bind_eq_some_iff.mp henqueue
    obtain ⟨table, hinsert, h⟩ := Option.bind_eq_some_iff.mp h
    cases h
    exact comes_insert hinsert (decide_eq_true hformat) hr
  · split at h
    · next hpass =>
      obtain ⟨t, hretry, ht⟩ := Option.map_eq_some_iff.mp h
      cases ht
      exact comes_retryDeadLetter hpass hretry hr
    · cases h
  · cases h
    exact comes_same hr fun _ => Or.inr rfl
  · cases h

theorem scheduled_of_fate (h : Fate a l l' r r') : r'.scheduled = r.scheduled := by
  cases h <;> rfl

theorem move_keeps (h : move a s l = some (s', l')) (hr : r ∈ s.rows) :
    ∃ r' ∈ s'.rows, r'.key = r.key := by
  have hupdate : ∀ (p : Work → Bool) (f : Work → Work) (hf : ∀ r, (f r).key = r.key),
      ∃ r' ∈ (s.withRows (s.update p f hf)).rows, r'.key = r.key := by
    intro p f hf
    show ∃ r' ∈ (s.update p f hf).rows, r'.key = r.key
    by_cases hp : p r = true
    · exact ⟨f r, Table.mem_update.mpr ⟨r, hr, if_pos hp⟩, hf r⟩
    · exact ⟨r, Table.mem_update.mpr ⟨r, hr, if_neg hp⟩, rfl⟩
  have hinsert : ∀ (x : Work) (table : Store), s.insert? x = some table →
      ∃ r' ∈ (s.withRows table).rows, r'.key = r.key := by
    intro x table hx
    refine ⟨r, ?_, rfl⟩
    show r ∈ table.rows
    rw [(Table.insert?_eq_some hx).2]
    exact List.mem_append_left _ hr
  unfold move at h
  split at h
  · cases h
    exact ⟨r, hr, rfl⟩
  · have hclaim := Option.some.inj h
    unfold claimNext at hclaim
    split at hclaim
    · cases hclaim
      exact hupdate _ _ _
    · cases hclaim
      exact ⟨r, hr, rfl⟩
  · split at h
    · split at h
      · cases h
        exact ⟨r, hr, rfl⟩
      · cases h
        exact hupdate _ _ _
    · cases h
  · split at h
    · cases h
      exact ⟨r, hr, rfl⟩
    · cases h
      exact hupdate _ _ _
  · obtain ⟨t, hx, ht⟩ := Option.map_eq_some_iff.mp h
    cases ht
    exact hinsert _ _ hx
  · obtain ⟨t, henqueue, ht⟩ := Option.map_eq_some_iff.mp h
    cases ht
    obtain ⟨format, -, h⟩ := Option.bind_eq_some_iff.mp henqueue
    obtain ⟨table, hx, h⟩ := Option.bind_eq_some_iff.mp h
    cases h
    exact hinsert _ _ hx
  · split at h
    · obtain ⟨t, hretry, ht⟩ := Option.map_eq_some_iff.mp h
      cases ht
      unfold retryDeadLetter at hretry
      split at hretry
      · cases hretry
        exact hupdate _ _ _
      · cases hretry
    · cases h
  · cases h
    exact ⟨r, hr, rfl⟩
  · cases h

/-- Only a schedule that is written has another format afterwards. -/
theorem move_formats (h : move a s l = some (s', l')) :
    s'.scheduleFormat = s.scheduleFormat ∨ ∃ schedule format, a = .reformat ∧
      l = .called (.reformat schedule format) ∧ s' = reformat schedule format s := by
  unfold move at h
  split at h
  · cases h
    exact Or.inl rfl
  · have hclaim := Option.some.inj h
    unfold claimNext at hclaim
    split at hclaim
    · cases hclaim
      exact Or.inl rfl
    · cases hclaim
      exact Or.inl rfl
  · split at h
    · split at h
      · cases h
        exact Or.inl rfl
      · cases h
        exact Or.inl rfl
    · cases h
  · split at h
    · cases h
      exact Or.inl rfl
    · cases h
      exact Or.inl rfl
  · obtain ⟨t, -, ht⟩ := Option.map_eq_some_iff.mp h
    cases ht
    exact Or.inl rfl
  · obtain ⟨t, henqueue, ht⟩ := Option.map_eq_some_iff.mp h
    cases ht
    obtain ⟨format, -, h⟩ := Option.bind_eq_some_iff.mp henqueue
    obtain ⟨table, -, h⟩ := Option.bind_eq_some_iff.mp h
    cases h
    exact Or.inl rfl
  · split at h
    · obtain ⟨t, -, ht⟩ := Option.map_eq_some_iff.mp h
      cases ht
      exact Or.inl rfl
    · cases h
  · cases h
    exact Or.inr ⟨_, _, rfl, rfl, rfl⟩
  · cases h

theorem move_holds (h : move a s l = some (s', l')) (hr : r ∈ s.rows) (hh : l'.holds r = true) :
    l.holds r = true ∨ r.exhausted = false := by
  unfold move at h
  split at h
  · cases h
    cases hh
  · next source options =>
    have hclaim := Option.some.inj h
    unfold claimNext at hclaim
    split at hclaim
    · cases hclaim
      obtain ⟨c, hc, howns⟩ := List.any_eq_true.mp hh
      obtain ⟨x, hx, rfl⟩ := List.mem_map.mp hc
      obtain ⟨hxs, hsource, hclaimable⟩ := mem_claimBatch hx
      have hkey : x.key = r.key := by
        rw [(owns_iff.mp howns).1, ← hsource]
        rfl
      rw [← Table.eq_of_mem hxs hr hkey]
      exact Or.inr (not_exhausted_of_claimable hclaimable)
    · cases hclaim
      cases hh
  · split at h
    · split at h
      · cases h
        exact Or.inl hh
      · cases h
        exact Or.inl (by rw [holds_cons, hh, Bool.or_true])
    · cases h
  · split at h
    · cases h
      cases hh
    · cases h
      exact Or.inl (by rw [holds_cons, hh, Bool.or_true])
  · obtain ⟨t, -, ht⟩ := Option.map_eq_some_iff.mp h
    cases ht
    cases hh
  · obtain ⟨t, -, ht⟩ := Option.map_eq_some_iff.mp h
    cases ht
    cases hh
  · split at h
    · obtain ⟨t, -, ht⟩ := Option.map_eq_some_iff.mp h
      cases ht
      cases hh
    · cases h
  · cases h
    cases hh
  · cases h

/-- A worker that holds rows stops where it is lost, or where the trigger refuses to let it give one
back. -/
theorem move_stops (h : move a s l = some (s', .stopped)) (hh : l.holds r = true) :
    a = .crash ∨ ∃ source c rest, l = .working source (c :: rest) ∧ s.refuses source c = true := by
  unfold move at h
  split at h
  · exact Or.inl rfl
  · cases hh
  · split at h
    · split at h
      · cases h
      · cases h
    · cases h
  · split at h
    · next hrefused => exact Or.inr ⟨_, _, _, rfl, hrefused⟩
    · cases h
  · cases hh
  · cases hh
  · cases hh
  · cases hh
  · cases h

theorem sound_of_comes (hs : ∀ r ∈ s.rows, r.Sound) (h : Comes a s l l' r') : r'.Sound := by
  rcases h with ⟨r, hr, -, hfate, -⟩ | ⟨-, -, source, id, now, scheduled, rfl⟩
  · have hsound := hs r hr
    cases hfate with
    | stays => exact hsound
    | claimed options now token hc => exact sound_claimed hsound hc
    | finished => exact sound_finished
    | released source c now _ hc => exact sound_released hsound hc
    | retried => exact sound_retried hsound
  · exact sound_newWork

/-! ### Lost claims -/

/-- No worker holds the row. -/
def Unheld (w : World Tables Local) (r : Work) : Prop :=
  ∀ (i : ℕ) (l : Local), w.sessions[i]? = some l → l.holds r = false

/-- A row that is still processing after its last permitted claim, and that nobody holds. -/
structure Lost (w : World Tables Local) (r : Work) : Prop where
  processing : r.lease.status.terminal = false ∧ r.lease.status.isPending = false
  exhausted : r.exhausted = true
  unheld : Unheld w r

variable {w w' : World Tables Local} {key : Source × Uuid} {e : Event Call Action}

theorem Lost.step (h : Lost w r) (hmem : r ∈ w.store.rows)
    (hok : Sessions.step program e w = .ok w') : r ∈ w'.store.rows ∧ Lost w' r := by
  cases e with
  | enter call =>
    cases hok
    refine ⟨hmem, h.processing, h.exhausted, fun i l hl => ?_⟩
    rcases getElem?_enter hl with hl | ⟨-, rfl⟩
    · exact h.unheld i l hl
    · rfl
  | act k a =>
    obtain ⟨l, l', s, hl, hmove, -, rfl⟩ := step_act hok
    have hfree : l.holds r = false := h.unheld k l hl
    obtain ⟨x, hx, hkey⟩ := move_keeps hmove hmem
    have hsame : x = r := by
      rcases move_rows hmove hx with ⟨y, hy, hykey, hfate, -⟩ | ⟨hfresh, -⟩
      · obtain rfl := Table.eq_of_mem hy hmem (hykey.trans hkey)
        cases hfate with
        | stays => rfl
        | claimed options now token hc =>
          cases h.exhausted.symm.trans (not_exhausted_of_claimable hc)
        | finished outcome hh => cases hfree.symm.trans hh
        | released source c now hh => cases hfree.symm.trans hh
        | retried now hdead =>
          have hopen := h.processing.1
          rw [hdead] at hopen
          cases hopen
      · rw [hkey, Table.find?_of_mem hmem] at hfresh
        cases hfresh
    refine ⟨hsame ▸ hx, h.processing, h.exhausted, fun i m hm => ?_⟩
    rcases getElem?_act hm with ⟨-, hm⟩ | ⟨-, rfl⟩
    · exact h.unheld i m hm
    · rw [Bool.eq_false_iff]
      intro hh
      rcases move_holds hmove hmem hh with hh | hh
      · cases hfree.symm.trans hh
      · cases h.exhausted.symm.trans hh

theorem Lost.run (h : Lost w r) (hmem : r ∈ w.store.rows) (events : List (Event Call Action)) :
    r ∈ (run program w events).store.rows ∧ Lost (run program w events) r :=
  Runs.run_invariant (I := fun w => r ∈ (World.store w).rows ∧ Lost w r)
    (fun _ _ _ hw hok => hw.2.step hw.1 hok) events w ⟨hmem, h⟩

theorem mem_releaseRow {table : Store} {x : Work} :
    x ∈ (releaseRow source c now table).rows ↔
      ∃ r ∈ table.rows, (if c.owns source r = true then r.released now source c else r) = x := by
  unfold releaseRow
  exact Table.mem_update

theorem accepted_releaseRow (h : s.Accepted) :
    (s.withRows (releaseRow source c now s.toTable)).Accepted := by
  intro x hx hopen
  obtain ⟨r, hr, rfl⟩ := mem_releaseRow.mp hx
  split at hopen
  · next hc =>
    rw [if_pos hc]
    have hpass : s.accepts r = true := h r hr (not_terminal_of_owned (owns_iff.mp hc).2)
    exact hpass
  · next hc =>
    rw [if_neg hc]
    have hpass : s.accepts r = true := h r hr hopen
    exact hpass

/-- No schedule gets another format. -/
def keepsFormats : Event Call Action → Bool
  | .act _ .reformat => false
  | _ => true

theorem ends_of_held {i : ℕ} : ∀ (rest : List Candidate) (w : World Tables Local),
    w.store.Accepted → w.sessions[i]? = some (.working source rest) → r ∈ w.store.rows →
    r.exhausted = true → (Local.working source rest).holds r = true →
    ∃ events, (∀ e ∈ events, keepsFormats e = true) ∧ ∃ x ∈ (run program w events).store.rows,
      x.key = r.key ∧ x.lease.status.terminal = true
  | [], _, _, _, _, _, hh => by cases hh
  | c :: rest, w, hpass, hi, hmem, hlast, hh => by
    let w₁ : World Tables Local :=
      ⟨w.store.withRows (releaseRow source c 0 w.store.toTable),
        w.sessions.set i (.working source rest)⟩
    have hmove : program.move (.release 0) w.store (.working source (c :: rest)) =
        some (w₁.store, .working source rest) := if_neg (Bool.eq_false_iff.mp (not_refused hpass source c))
    have hok : Sessions.step program (.act i (.release 0)) w = .ok w₁ := step_of_move hi hmove rfl
    have hrun : ∀ events, run program w (.act i (.release 0) :: events) = run program w₁ events :=
      fun events => congrArg (fun v => Sessions.run program v events) (Runs.exec_of_ok hok)
    by_cases hc : c.owns source r = true
    · refine ⟨[.act i (.release 0)], by simp [keepsFormats], r.released 0 source c, ?_, rfl, ?_⟩
      · rw [hrun]
        exact mem_releaseRow.mpr ⟨r, hmem, if_pos hc⟩
      · rw [status_released, if_pos hlast]
        rfl
    · rw [holds_cons, Bool.eq_false_of_not_eq_true hc, Bool.false_or] at hh
      have hi₁ : w₁.sessions[i]? = some (.working source rest) :=
        List.getElem?_set_self (List.getElem?_eq_some_iff.mp hi).1
      have hmem₁ : r ∈ w₁.store.rows := mem_releaseRow.mpr ⟨r, hmem, if_neg hc⟩
      obtain ⟨events, hkeeps, x, hx, hkey, hended⟩ :=
        ends_of_held rest w₁ (accepted_releaseRow hpass) hi₁ hmem₁ hlast hh
      exact ⟨_ :: events, List.forall_mem_cons.mpr ⟨rfl, hkeeps⟩, x, by rwa [hrun], hkey, hended⟩

/-- An expired claim that nobody can make again, now or later, and that never ends: in every
continuation in which the schedules keep their formats, an update that would claim the row does not take
it or raises, and the row neither has been sent, skipped or completed nor is dead. -/
structure Stranded (w : World Tables Local) (key : Source × Uuid) (options : Options) (now : ℤ) :
    Prop where
  expired : ∃ r, w.store.find? key = some r ∧ r.lease.status.expired options.timeout now = true
  unclaimable : ∀ events, (∀ e ∈ events, keepsFormats e = true) → ∀ r later,
    (run program w events).store.find? key = some r → now ≤ later →
      ¬ (r.claimable options later = true ∧ (run program w events).store.accepts r = true)
  unending : ∀ events, (∀ e ∈ events, keepsFormats e = true) → ∀ r,
    (run program w events).store.find? key = some r → r.lease.status.terminal = false

theorem open_iff_of_expired (h : r.lease.status.expired options.timeout now = true) :
    ∃ claimedAt token, r.lease.status = .processing claimedAt token ∧
      claimedAt < now - options.timeout := by
  cases hs : r.lease.status with
  | processing claimedAt token =>
    rw [hs] at h
    exact ⟨claimedAt, token, rfl, of_decide_eq_true h⟩
  | pending | closed | dead =>
    rw [hs] at h
    cases h

theorem claimable_of_expired (hs : r.Sound) (h : r.lease.status.expired options.timeout now = true)
    (hlast : r.exhausted = false) : r.claimable options now = true := by
  obtain ⟨claimedAt, token, hstatus, hlate⟩ := open_iff_of_expired h
  have hdue : r.lease.availableAt ≤ claimedAt := hs.due claimedAt token hstatus
  have htimeout : 0 ≤ options.timeout := by
    unfold Options.timeout
    omega
  have hpayload : r.payload = true := by
    rcases hs.payload with hp | ⟨outcome, hclosed⟩
    · exact hp
    · rw [hclosed] at hstatus
      cases hstatus
  refine claimable_iff.mpr ⟨?_, Or.inr hpayload⟩
  unfold Work.exhausted at hlast
  rw [decide_eq_false_iff_not] at hlast
  unfold Queue.claimable
  rw [h, Bool.or_true, Bool.and_true, Bool.and_eq_true, decide_eq_true_iff, decide_eq_true_iff]
  constructor
  · omega
  · omega

theorem stranded_of_lost (hr : w.store.find? key = some r)
    (hexpired : r.lease.status.expired options.timeout now = true) (hlost : Lost w r) :
    Stranded w key options now := by
  obtain ⟨hmem, rfl⟩ := Table.find?_eq_some_iff.mp hr
  have hsame : ∀ events x, (run program w events).store.find? r.key = some x → x = r := by
    intro events x hx
    rw [Table.find?_of_mem (hlost.run hmem events).1] at hx
    exact (Option.some.inj hx).symm
  refine ⟨⟨r, hr, hexpired⟩, fun events _ x later hx _ => ?_, fun events _ x hx => ?_⟩
  · rw [hsame events x hx]
    rintro ⟨hc, -⟩
    cases hlost.exhausted.symm.trans (not_exhausted_of_claimable hc)
  · rw [hsame events x hx]
    exact hlost.processing.1

/-- A row that no update passes any more. -/
structure Refused (w : World Tables Local) (r : Work) : Prop where
  mem : r ∈ w.store.rows
  refused : w.store.accepts r = false

theorem Refused.step (h : Refused w r) (hkeeps : keepsFormats e = true)
    (hok : Sessions.step program e w = .ok w') : Refused w' r := by
  cases e with
  | enter call =>
    cases hok
    exact ⟨h.mem, h.refused⟩
  | act k a =>
    obtain ⟨l, l', s, hl, hmove, -, rfl⟩ := step_act hok
    obtain ⟨x, hx, hkey⟩ := move_keeps hmove h.mem
    have hsame : x = r := by
      rcases move_rows hmove hx with ⟨y, hy, hykey, -, hpass⟩ | ⟨hfresh, -⟩
      · obtain rfl := Table.eq_of_mem hy h.mem (hykey.trans hkey)
        rcases hpass with rfl | hpass
        · rfl
        · cases hpass.symm.trans h.refused
      · rw [hkey, Table.find?_of_mem h.mem] at hfresh
        cases hfresh
    have hformat : s.scheduleFormat = w.store.scheduleFormat := by
      rcases move_formats hmove with hsame | ⟨_, _, rfl, -⟩
      · exact hsame
      · cases hkeeps
    exact ⟨hsame ▸ hx, (accepts_congr rfl hformat).trans h.refused⟩

theorem guarded_keeps : ∀ (events : List (Event Call Action)) (w : World Tables Local),
    (∀ e ∈ events, keepsFormats e = true) →
      Runs.Guarded (Sessions.step program) (fun _ e => keepsFormats e = true) w events
  | [], _, _ => trivial
  | e :: events, _, h =>
    ⟨h e List.mem_cons_self, guarded_keeps events _ fun e' he' => h e' (List.mem_cons_of_mem e he')⟩

theorem Refused.run (h : Refused w r) (events : List (Event Call Action))
    (hkeeps : ∀ e ∈ events, keepsFormats e = true) : Refused (run program w events) r :=
  Runs.run_induction (I := fun w => Refused w r) (fun _ _ _ hw hkeeps hok => hw.step hkeeps hok) events w h
    (guarded_keeps events w hkeeps)

/-- **Refused rows**: an expired claim of an export whose schedule has another format now is stranded. -/
theorem stranded_of_refused (hr : w.store.find? key = some r)
    (hexpired : r.lease.status.expired options.timeout now = true)
    (hrefused : w.store.accepts r = false) : Stranded w key options now := by
  obtain ⟨hmem, rfl⟩ := Table.find?_eq_some_iff.mp hr
  have hrun : ∀ events, (∀ e ∈ events, keepsFormats e = true) → Refused (Sessions.run program w events) r :=
    fun events hkeeps => Refused.run ⟨hmem, hrefused⟩ events hkeeps
  have hsame : ∀ events, (∀ e ∈ events, keepsFormats e = true) → ∀ x,
      (Sessions.run program w events).store.find? r.key = some x → x = r := by
    intro events hkeeps x hx
    rw [Table.find?_of_mem (hrun events hkeeps).mem] at hx
    exact (Option.some.inj hx).symm
  refine ⟨⟨r, hr, hexpired⟩, fun events hkeeps x later hx _ => ?_, fun events hkeeps x hx => ?_⟩
  · rw [hsame events hkeeps x hx]
    rintro ⟨-, hpass⟩
    cases hpass.symm.trans (hrun events hkeeps).refused
  · obtain ⟨claimedAt, token, hstatus, -⟩ := open_iff_of_expired hexpired
    rw [hsame events hkeeps x hx, hstatus]
    rfl

/-- **Stranded rows**: where no open export has another format than its schedule, an expired claim is
stranded exactly when it was the last one permitted and no worker holds it any more. -/
theorem stranded_iff (hsound : ∀ r ∈ w.store.rows, r.Sound) (hpass : w.store.Accepted)
    (options : Options) (now : ℤ) :
    Stranded w key options now ↔ ∃ r, w.store.find? key = some r ∧
      r.lease.status.expired options.timeout now = true ∧ Lost w r := by
  constructor
  · intro h
    obtain ⟨r, hr, hexpired⟩ := h.expired
    obtain ⟨hmem, hkey⟩ := Table.find?_eq_some_iff.mp hr
    obtain ⟨claimedAt, token, hstatus, -⟩ := open_iff_of_expired hexpired
    have hlast : r.exhausted = true := by
      by_contra hlast
      rw [Bool.not_eq_true] at hlast
      refine h.unclaimable [] (fun _ he => (by cases he)) r now hr le_rfl ⟨?_, ?_⟩
      · exact claimable_of_expired (hsound r hmem) hexpired hlast
      · exact hpass r hmem (by rw [hstatus]; rfl)
    refine ⟨r, hr, hexpired, ⟨?_, ?_⟩, hlast, fun i l hl => ?_⟩
    · rw [hstatus]
      rfl
    · rw [hstatus]
      rfl
    · rw [Bool.eq_false_iff]
      intro hh
      cases l with
      | called call => cases hh
      | stopped => cases hh
      | working source rest =>
        obtain ⟨events, hkeeps, x, hx, hxkey, hended⟩ := ends_of_held rest w hpass hl hmem hlast hh
        have hfind := Table.find?_of_mem hx
        rw [hxkey, hkey] at hfind
        cases hended.symm.trans (h.unending events hkeeps x hfind)
  · rintro ⟨r, hr, hexpired, hlost⟩
    exact stranded_of_lost hr hexpired hlost

/-! ### Runs -/

def Action.crashes : Action → Bool
  | .crash => true
  | _ => false

/-- A schedule gets another format than an export of it that is waiting or processing. -/
def breaksFormat (s : Tables) (l : Local) (a : Action) : Bool :=
  match a, l with
  | .reformat, .called (.reformat schedule format) =>
    s.rows.any fun r => !r.lease.status.terminal &&
      r.scheduled.any fun x => x.1 = schedule && x.2 ≠ format
  | _, _ => false

/-- A worker is lost only while every row it holds may be claimed again, and the schedules of open exports
keep their formats. -/
def Careful (s : Tables) (l : Local) (a : Action) : Prop :=
  (a.crashes = true → ∀ r ∈ s.rows, l.holds r = true → r.exhausted = false) ∧
    breaksFormat s l a = false

instance (s : Tables) (l : Local) (a : Action) : Decidable (Careful s l a) :=
  inferInstanceAs (Decidable ((_ → ∀ r ∈ s.rows, _ → _) ∧ _))

/-- Some worker holds every row that is processing after its last permitted claim. -/
structure Covered (w : World Tables Local) : Prop where
  sound : ∀ r ∈ w.store.rows, r.Sound
  accepted : w.store.Accepted
  held : ∀ r ∈ w.store.rows, r.lease.status.terminal = false → r.lease.status.isPending = false →
    r.exhausted = true → ∃ (i : ℕ) (l : Local), w.sessions[i]? = some l ∧ l.holds r = true

theorem accepted_move (h : move a s l = some (s', l')) (hg : Careful s l a) (hs : s.Accepted) :
    s'.Accepted := by
  intro x hx hopen
  rcases move_formats h with hsame | ⟨schedule, format, rfl, rfl, rfl⟩
  · rcases move_rows h hx with ⟨r, hr, -, hfate, hpass⟩ | ⟨-, hpass, -⟩
    · have hopen' : r.lease.status.terminal = false ∨ s.accepts r = true := by
        rcases hpass with rfl | hpass
        · exact Or.inl hopen
        · exact Or.inr hpass
      have hrow : s.accepts r = true := hopen'.elim (hs r hr) id
      exact (accepts_congr (scheduled_of_fate hfate) hsame).trans hrow
    · exact (accepts_congr rfl hsame).trans hpass
  · have hpass := hs x hx hopen
    have hkept := List.any_eq_false.mp hg.2 x hx
    cases hx : x.scheduled with
    | none => simp [Tables.accepts, hx]
    | some y =>
      have hkept : y.1 = schedule → y.2 = format := by
        simpa [hopen, hx] using hkept
      have hformat : s.scheduleFormat y.1 = some y.2 := by
        simpa [Tables.accepts, hx] using hpass
      by_cases hy : y.1 = schedule
      · simp [Tables.accepts, hx, reformat, hy, hkept hy]
      · simp [Tables.accepts, hx, reformat, Function.update_of_ne hy, hformat]

theorem Covered.step (h : Covered w) (hg : w.Meets Careful e)
    (hok : Sessions.step program e w = .ok w') : Covered w' := by
  cases e with
  | enter call =>
    cases hok
    refine ⟨h.sound, h.accepted, fun r hr hopen hpending hlast => ?_⟩
    obtain ⟨i, l, hl, hh⟩ := h.held r hr hopen hpending hlast
    refine ⟨i, l, ?_, hh⟩
    show (w.sessions ++ [program.start call])[i]? = some l
    rw [List.getElem?_append_left (List.getElem?_eq_some_iff.mp hl).1, hl]
  | act k a =>
    obtain ⟨l, l', s, hl, hmove, -, rfl⟩ := step_act hok
    have hcareful : Careful w.store l a := by
      unfold World.Meets at hg
      simpa only [hl] using hg
    have hk : k < w.sessions.length := (List.getElem?_eq_some_iff.mp hl).1
    have hself : (w.sessions.set k l')[k]? = some l' := List.getElem?_set_self hk
    refine ⟨fun x hx => sound_of_comes h.sound (move_rows hmove hx),
      accepted_move hmove hcareful h.accepted, ?_⟩
    intro x hx hopen hpending hlast
    rcases move_rows hmove hx with ⟨r, hr, -, hfate, -⟩ | ⟨-, -, source, id, now, scheduled, rfl⟩
    · cases hfate with
      | stays hkeeps =>
        obtain ⟨i, m, hm, hh⟩ := h.held x hr hopen hpending hlast
        by_cases hik : k = i
        · rw [← hik, hl] at hm
          cases hm
          rcases hkeeps hh with hh' | rfl
          · exact ⟨k, l', hself, hh'⟩
          · rcases move_stops hmove hh with rfl | ⟨source, c, rest, -, hrefused⟩
            · cases hlast.symm.trans (hcareful.1 rfl x hr hh)
            · cases hrefused.symm.trans (not_refused h.accepted source c)
        · exact ⟨i, m, (List.getElem?_set_ne hik).trans hm, hh⟩
      | claimed options now token hc hheld => exact ⟨k, l', hself, hheld⟩
      | finished => cases hopen
      | released source c now hh hc =>
        rw [status_released] at hopen hpending
        split at hopen
        · cases hopen
        · next hlive =>
          rw [if_neg hlive] at hpending
          cases hpending
      | retried now hdead =>
        unfold Work.retried retry at hpending
        rw [hdead] at hpending
        cases hpending
    · cases hpending

theorem covered_closed : Covered (World.closed Tables.empty) :=
  ⟨fun _ hr => (by cases hr), fun _ hr => (by cases hr), fun _ hr => (by cases hr)⟩

/-- **Queued work**: where a worker is lost only during an attempt that is not the last one, and no
schedule gets another format than an open export of it, no claim is ever stranded, whatever the workers
do in whatever order. -/
theorem never_stranded (events : List (Event Call Action))
    (hg : Runs.Guarded (Sessions.step program) (World.Meets Careful) (World.closed Tables.empty)
      events) (key : Source × Uuid) (options : Options) (now : ℤ) :
    ¬ Stranded (run program (World.closed Tables.empty) events) key options now := by
  intro hstranded
  have hw : Covered (run program (World.closed Tables.empty) events) :=
    Runs.run_induction (fun _ _ _ hw hmeets hok => hw.step hmeets hok) events _ covered_closed hg
  obtain ⟨r, hr, hexpired, hlost⟩ := (stranded_iff hw.sound hw.accepted options now).mp hstranded
  obtain ⟨hmem, -⟩ := Table.find?_eq_some_iff.mp hr
  obtain ⟨i, l, hl, hh⟩ :=
    hw.held r hmem hlost.processing.1 hlost.processing.2 hlost.exhausted
  cases (hlost.unheld i l hl).symm.trans hh

/-! An automation event whose workers are lost at each of its eight attempts. -/

def sampleOptions : Options := { batchSize := 25, claimTimeoutMinutes := 15 }

/-- A worker comes and claims at the time `1000000 * n`. -/
def claimEvents (n : ℕ) : List (Event Call Action) :=
  [.enter (.work .automationEvent sampleOptions),
    .act n (.claim (1000000 * n) [] fun _ => 100 + n)]

def crashEvents : List (Event Call Action) :=
  [.enter (.enqueue .automationEvent 1), .act 0 (.perform 0)] ++
    (List.range 8).flatMap fun n => claimEvents (n + 1) ++ [.act (n + 1) .crash]

theorem stranded_after_crashes :
    Stranded (run program (World.closed Tables.empty) crashEvents) (.automationEvent, 1)
      sampleOptions 10000000 := by
  have hrow : ∃ r ∈ (run program (World.closed Tables.empty) crashEvents).store.rows,
      r.key = (.automationEvent, 1) ∧
      r.lease.status.expired sampleOptions.timeout 10000000 = true ∧
      r.lease.status.terminal = false ∧ r.lease.status.isPending = false ∧ r.exhausted = true ∧
      ∀ l ∈ (run program (World.closed Tables.empty) crashEvents).sessions, l.holds r = false := by
    decide +kernel
  obtain ⟨r, hr, hkey, hexpired, hopen, hpending, hlast, hfree⟩ := hrow
  refine stranded_of_lost (Table.find?_eq_some_iff.mpr ⟨hr, hkey⟩) hexpired
    ⟨⟨hopen, hpending⟩, hlast, ?_⟩
  intro i l hl
  exact hfree l (List.mem_of_getElem? hl)

/-- The same with a worker that survives its eighth attempt. -/
def survivedEvents : List (Event Call Action) :=
  [.enter (.enqueue .automationEvent 1), .act 0 (.perform 0)] ++
    ((List.range 7).flatMap fun n => claimEvents (n + 1) ++ [.act (n + 1) .crash]) ++
    claimEvents 8

theorem never_stranded_survived :
    ¬ Stranded (run program (World.closed Tables.empty) survivedEvents) (.automationEvent, 1)
      sampleOptions 10000000 :=
  never_stranded survivedEvents (by decide +kernel) (.automationEvent, 1) sampleOptions 10000000

end CalmBoard.Queues
