import CalmBoard.Automations.Worker

/-!
# CalmBoard.Automations.Once — a rule runs once for an event

* `Frame`: what a statement leaves as it is of events, runs and rules that it has not locked.
* `move_spec`: every statement is framed, and keeps what the store and the run know.
* `exactly_once`: the effects of a rule for an event are committed at most once.
-/

namespace CalmBoard.Automations

open Queue Sessions

variable {texts : Texts} {io : Io} {s s' : Store} {l l' : Local} {a : Action}

/-- A run that has ended. -/
def RunRow.final (r : RunRow) : Prop := r.status = .success ∨ r.status = .skipped

/-- Committed runs have ended; what rules have done is recorded once, with its run and its rule,
and counted by the rule. -/
structure Consistent (s : Store) : Prop where
  final : ∀ r ∈ s.runs.rows, r.final
  once : (s.applied.map Applied.pair).Nodup
  recorded : ∀ x ∈ s.applied, (s.runs.find? x.pair).isSome = true
  ruled : ∀ x ∈ s.applied, (s.rules.find? x.ruleId).isSome = true
  counted : ∀ r ∈ s.rules.rows,
    r.runs = (s.applied.filter fun x => decide (x.ruleId = r.id) && x.counts).length

/-- The event of a candidate is still claimed for it. -/
def Claims (s : Store) (c : Candidate) : Prop :=
  ∃ e, s.events.find? c.id = some e ∧ owned c.claimToken e.lease = true

def Unrun (s : Store) (c : Candidate) (ruleId : Uuid) : Prop := s.runs.find? (c.id, ruleId) = none

/-- What a run knows of what it has locked. -/
def Knows (s : Store) : Local → Prop
  | .claiming ids now _ => ∃ timeout, ∀ id ∈ ids, ∃ e, s.events.find? id = some e ∧
      claimable timeout now e.lease = true
  | .fenced job _ => Claims s job.c
  | .gated job ruleId | .skipping job ruleId => Claims s job.c ∧ Unrun s job.c ruleId
  | .loaded job rule _ =>
    Claims s job.c ∧ Unrun s job.c rule.id ∧ (s.rules.find? rule.id).isSome = true
  | .written job ruleId _ =>
    Claims s job.c ∧ Unrun s job.c ruleId ∧ (s.rules.find? ruleId).isSome = true
  | .closing c _ _ | .releasing c _ => Claims s c
  | _ => True

/-! ### What a statement leaves -/

variable {c : Candidate} {ruleId : Uuid} {status : RunStatus} {rule : RuleRow} {effects : Effects}
  {job : Job}

/-- Events keep everything but their lease, and that too where they are not locked; runs that have
ended stay, and only the holder of an event adds runs to it; rules stay. -/
structure Frame (s s' : Store) (l : Local) : Prop where
  events : ∀ e ∈ s.events.rows, ∃ lease, { e with lease } ∈ s'.events.rows ∧
    Moves e.lease lease ∧ (Lock.event e.id ∉ l.locks → lease = e.lease)
  ended : ∀ r ∈ s.runs.rows, r.final → r ∈ s'.runs.rows
  unrun : ∀ c ruleId, Unrun s c ruleId → Lock.event c.id ∉ l.locks → Unrun s' c ruleId
  rules : ∀ id, (s.rules.find? id).isSome = true → (s'.rules.find? id).isSome = true

theorem kept_events (h : ∀ e ∈ s.events.rows, e ∈ s'.events.rows) :
    ∀ e ∈ s.events.rows, ∃ lease, { e with lease } ∈ s'.events.rows ∧
      Moves e.lease lease ∧ (Lock.event e.id ∉ l.locks → lease = e.lease) :=
  fun e he => ⟨e.lease, h e he, .stay e.lease, fun _ => rfl⟩

theorem Frame.refl (s : Store) (l : Local) : Frame s s l :=
  ⟨kept_events fun _ he => he, fun _ hr _ => hr, fun _ _ h _ => h, fun _ h => h⟩

theorem frame_leases {p : EventRow → Bool} {f : EventRow → Lease Uuid Closed → Lease Uuid Closed}
    (hp : ∀ e ∈ s.events.rows, p e = true →
      Lock.event e.id ∈ l.locks ∧ Moves e.lease (f e e.lease)) :
    Frame s { s with
      events := s.events.update p (fun e => e.withLease (f e)) fun e => e.withLease_id (f e) } l := by
  have hrows : ∀ x, x ∈ (s.events.update p (fun e => e.withLease (f e))
      fun e => e.withLease_id (f e)).rows ↔
        ∃ e ∈ s.events.rows, (if p e = true then e.withLease (f e) else e) = x :=
    fun _ => Table.mem_update
  refine ⟨fun e he => ?_, fun _ hr _ => hr, fun _ _ h _ => h, fun _ h => h⟩
  by_cases hpe : p e = true
  · obtain ⟨hlock, hmoves⟩ := hp e he hpe
    refine ⟨f e e.lease, (hrows _).mpr ⟨e, he, if_pos hpe⟩, hmoves, fun hfree => ?_⟩
    exact absurd hlock hfree
  · exact ⟨e.lease, (hrows _).mpr ⟨e, he, if_neg hpe⟩, .stay e.lease, fun _ => rfl⟩

theorem frame_commitClaim {ids : List Uuid} {now : ℤ} {token : Uuid → Uuid}
    (hk : Knows s (.claiming ids now token)) :
    Frame s (commitClaim ids now token s) (.claiming ids now token) := by
  obtain ⟨timeout, hids⟩ := hk
  refine frame_leases fun e he hp => ?_
  have hid : e.id ∈ ids := by simpa using hp
  obtain ⟨e', he', hclaimable⟩ := hids e.id hid
  rw [Table.find?_of_mem he] at he'
  cases he'
  exact ⟨List.mem_map_of_mem hid, .claim timeout now _ hclaimable⟩

theorem frame_updateClaimed {f : Lease Uuid Closed → Lease Uuid Closed}
    (hlock : Lock.event c.id ∈ l.locks)
    (hf : ∀ lease, owned c.claimToken lease = true → Moves lease (f lease)) :
    Frame s (updateClaimed c f s) l := by
  refine frame_leases fun e _ hp => ?_
  rw [Bool.and_eq_true, decide_eq_true_iff] at hp
  exact ⟨hp.1 ▸ hlock, hf e.lease hp.2⟩

theorem rows_upsertRun (hu : Unrun s c ruleId) :
    (s.runs.upsert (runRow c ruleId status)).rows = s.runs.rows ++ [runRow c ruleId status] :=
  Table.rows_upsert hu

theorem unrun_upsert {c' : Candidate} {ruleId' : Uuid} (h : Unrun s c' ruleId')
    (hne : c'.id ≠ c.id) :
    (s.runs.upsert (runRow c ruleId status)).find? (c'.id, ruleId') = none := by
  rw [Table.find?_upsert, if_neg]
  · exact h
  · intro he
    exact hne (Prod.mk.inj he).1.symm

theorem frame_commitRun (hu : Unrun s job.c ruleId) (hlock : Lock.event job.c.id ∈ l.locks) :
    Frame s (commitRun job.c ruleId status s) l := by
  refine ⟨kept_events fun _ he => he, fun r hr _ => ?_, fun c' r' h hfree => ?_, fun _ h => h⟩
  · show r ∈ (s.runs.upsert _).rows
    rw [rows_upsertRun hu]
    exact List.mem_append_left _ hr
  · exact unrun_upsert h fun he => hfree (he ▸ hlock)

theorem insertEvents?_rows : ∀ {new : List EventRow} {T U : Table EventRow EventRow.id},
    insertEvents? new T = some U → U.rows = T.rows ++ new
  | [], T, U, h => by
    cases h
    rw [List.append_nil]
  | e :: rest, T, U, h => by
    unfold insertEvents? at h
    split at h
    · cases h
    · obtain ⟨V, hV, hrest⟩ := Option.bind_eq_some_iff.mp h
      rw [insertEvents?_rows hrest, (Table.insert?_eq_some hV).2, List.append_assoc]
      rfl

theorem commitRule_cases (h : commitRule c ruleId effects s = some s') :
    s'.events.rows = s.events.rows ++ effects.events ∧
    s'.runs = s.runs.upsert (runRow c ruleId (if effects.noop then .skipped else .success)) ∧
    s'.rules = s.rules.update (fun r => r.id = ruleId && Applied.counts ⟨c.id, ruleId, effects⟩)
      RuleRow.counted RuleRow.counted_id ∧
    s'.applied = s.applied ++ [⟨c.id, ruleId, effects⟩] := by
  unfold commitRule at h
  obtain ⟨events, hevents, hs⟩ := Option.bind_eq_some_iff.mp h
  cases hs
  exact ⟨insertEvents?_rows hevents, rfl, rfl, rfl⟩

theorem isSome_update {p : RuleRow → Bool} {f : RuleRow → RuleRow} {hf : ∀ r, (f r).id = r.id}
    {id : Uuid} (h : (s.rules.find? id).isSome = true) :
    ((s.rules.update p f hf).find? id).isSome = true := by
  rwa [Table.find?_update, Option.isSome_map]

theorem frame_commitRule (h : commitRule job.c ruleId effects s = some s')
    (hu : Unrun s job.c ruleId) (hlock : Lock.event job.c.id ∈ l.locks) : Frame s s' l := by
  obtain ⟨hevents, hruns, hrules, -⟩ := commitRule_cases h
  refine ⟨kept_events fun e he => ?_, fun r hr _ => ?_, fun c' r' hc' hfree => ?_, fun id hid => ?_⟩
  · rw [hevents]
    exact List.mem_append_left _ he
  · rw [hruns, rows_upsertRun hu]
    exact List.mem_append_left _ hr
  · unfold Unrun
    rw [hruns]
    exact unrun_upsert hc' fun he => hfree (he ▸ hlock)
  · rw [hrules]
    exact isSome_update hid

theorem failRun_eq (hs : Consistent s) (c : Candidate) (ruleId : Uuid) : failRun c ruleId s = s := by
  have hruns : s.runs.update (fun r => r.key = (c.id, ruleId) && r.claimToken = c.claimToken &&
      r.status = .running) RunRow.fail RunRow.fail_key = s.runs := by
    apply Table.ext_rows
    rw [Table.rows_update, List.map_congr_left (g := id), List.map_id]
    intro r hr
    rw [if_neg]
    · rfl
    · intro hp
      simp only [Bool.and_eq_true, decide_eq_true_eq] at hp
      rcases hs.final r hr with h | h
      · cases hp.2.symm.trans h
      · cases hp.2.symm.trans h
  unfold failRun
  rw [hruns]

theorem isSome_upsert {id : Uuid} (h : (s.rules.find? id).isSome = true) :
    ((s.rules.upsert rule).find? id).isSome = true := by
  rw [Table.find?_upsert]
  split
  · rfl
  · exact h

theorem commitChange_cases {change : Change} (h : commitChange change s = some s') :
    (∃ new, s'.events.rows = s.events.rows ++ new) ∧ s'.runs = s.runs ∧ s'.applied = s.applied ∧
      (s'.rules = s.rules ∨ ∃ rule, s'.rules = s.rules.upsert (savedRule rule s)) := by
  unfold commitChange at h
  split at h
  · cases h
    exact ⟨⟨[], (List.append_nil _).symm⟩, rfl, rfl, Or.inr ⟨_, rfl⟩⟩
  all_goals
    obtain ⟨events, hevents, hs⟩ := Option.map_eq_some_iff.mp h
    cases hs
    exact ⟨⟨_, insertEvents?_rows hevents⟩, rfl, rfl, Or.inl rfl⟩

theorem frame_commitChange {change : Change} (h : commitChange change s = some s') :
    Frame s s' l := by
  obtain ⟨⟨new, hevents⟩, hruns, -, hrules⟩ := commitChange_cases h
  refine ⟨kept_events fun e he => ?_, fun r hr _ => ?_, fun c' r' hc' _ => ?_, fun id hid => ?_⟩
  · rw [hevents]
    exact List.mem_append_left _ he
  · rwa [hruns]
  · unfold Unrun
    rwa [hruns]
  · rcases hrules with hrules | ⟨rule, hrules⟩
    · rwa [hrules]
    · rw [hrules]
      exact isSome_upsert hid

/-! ### What the store keeps -/

theorem consistent_of_same (hs : Consistent s) (hruns : s'.runs = s.runs) (hrules : s'.rules = s.rules)
    (happlied : s'.applied = s.applied) : Consistent s' := by
  constructor
  · rw [hruns]
    exact hs.final
  · rw [happlied]
    exact hs.once
  · rw [happlied, hruns]
    exact hs.recorded
  · rw [happlied, hrules]
    exact hs.ruled
  · rw [happlied, hrules]
    exact hs.counted

theorem final_upsertRun (hs : ∀ r ∈ s.runs.rows, r.final) (hu : Unrun s c ruleId)
    (hstatus : (runRow c ruleId status).final) :
    ∀ r ∈ (s.runs.upsert (runRow c ruleId status)).rows, r.final := by
  intro r hr
  rw [rows_upsertRun hu] at hr
  rcases List.mem_append.mp hr with hr | hr
  · exact hs r hr
  · rwa [List.mem_singleton.mp hr]

theorem recorded_upsertRun {r : RunRow} {key : Uuid × Uuid}
    (h : (s.runs.find? key).isSome = true) : ((s.runs.upsert r).find? key).isSome = true := by
  rw [Table.find?_upsert]
  split
  · rfl
  · exact h

theorem consistent_commitRun (hs : Consistent s) (hu : Unrun s c ruleId) :
    Consistent (commitRun c ruleId .skipped s) :=
  ⟨final_upsertRun hs.final hu (Or.inr rfl), hs.once, fun x hx => recorded_upsertRun (hs.recorded x hx),
    hs.ruled, hs.counted⟩

theorem consistent_commitRule (hs : Consistent s) (hu : Unrun s c ruleId)
    (hrule : (s.rules.find? ruleId).isSome = true) (h : commitRule c ruleId effects s = some s') :
    Consistent s' := by
  obtain ⟨-, hruns, hrules, happlied⟩ := commitRule_cases h
  constructor
  · rw [hruns]
    refine final_upsertRun hs.final hu ?_
    unfold RunRow.final runRow
    cases effects.noop with
    | true => exact Or.inr rfl
    | false => exact Or.inl rfl
  · rw [happlied, List.map_append, List.map_singleton, List.nodup_append]
    refine ⟨hs.once, List.nodup_singleton _, ?_⟩
    rintro k hk k' hk' rfl
    -- what has been recorded has a run, and this one had none
    rw [List.mem_singleton] at hk'
    obtain ⟨x, hx, hxk⟩ := List.mem_map.mp hk
    have hrun := hs.recorded x hx
    rw [hxk, hk'] at hrun
    unfold Unrun at hu
    rw [show Applied.pair ⟨c.id, ruleId, effects⟩ = (c.id, ruleId) from rfl, hu] at hrun
    cases hrun
  · intro x hx
    rw [hruns]
    rw [happlied] at hx
    rcases List.mem_append.mp hx with hx | hx
    · exact recorded_upsertRun (hs.recorded x hx)
    · rw [List.mem_singleton.mp hx, Table.find?_upsert]
      simp [RunRow.key, Applied.pair, runRow]
  · intro x hx
    rw [hrules]
    rw [happlied] at hx
    rcases List.mem_append.mp hx with hx | hx
    · exact isSome_update (hs.ruled x hx)
    · rw [List.mem_singleton.mp hx]
      exact isSome_update hrule
  · intro r hr
    rw [hrules, Table.mem_update] at hr
    obtain ⟨r₀, hr₀, rfl⟩ := hr
    rw [happlied, List.filter_append, List.length_append]
    have hold := hs.counted r₀ hr₀
    by_cases hcounts : r₀.id = ruleId ∧ Applied.counts ⟨c.id, ruleId, effects⟩ = true
    · rw [if_pos (by simpa using hcounts)]
      show r₀.runs + 1 = _
      rw [hold]
      simp [RuleRow.counted, hcounts.1, hcounts.2]
    · rw [if_neg (by simpa using hcounts), hold]
      have hnone : [Applied.mk c.id ruleId effects].filter
          (fun x => decide (x.ruleId = r₀.id) && x.counts) = [] := by
        rw [List.filter_eq_nil_iff]
        intro x hx hp
        rw [List.mem_singleton.mp hx, Bool.and_eq_true, decide_eq_true_iff] at hp
        exact hcounts ⟨hp.1.symm, hp.2⟩
      rw [hnone]
      rfl

theorem consistent_saveRule (hs : Consistent s) (hruns : s'.runs = s.runs)
    (happlied : s'.applied = s.applied) (hrules : s'.rules = s.rules.upsert (savedRule rule s)) :
    Consistent s' := by
  constructor
  · rw [hruns]
    exact hs.final
  · rw [happlied]
    exact hs.once
  · rw [happlied, hruns]
    exact hs.recorded
  · intro x hx
    rw [hrules]
    exact isSome_upsert (hs.ruled x (happlied ▸ hx))
  · intro r hr
    have hfind := Table.find?_of_mem hr
    rw [hrules, Table.find?_upsert] at hfind
    rw [happlied]
    split at hfind
    · next hid =>
      obtain rfl := Option.some.inj hfind
      cases hold : s.rules.find? rule.id with
      | some r₀ =>
        obtain ⟨hr₀, hid₀⟩ := Table.find?_eq_some_iff.mp hold
        have hcount := hs.counted r₀ hr₀
        rw [hid₀] at hcount
        unfold savedRule
        rw [hold]
        exact hcount
      | none =>
        -- a new rule has not run
        have hnone : s.applied.filter (fun x => decide (x.ruleId = rule.id) && x.counts) = [] := by
          rw [List.filter_eq_nil_iff]
          intro x hx hp
          rw [Bool.and_eq_true, decide_eq_true_iff] at hp
          have hruled := hs.ruled x hx
          rw [hp.1, hold] at hruled
          cases hruled
        unfold savedRule
        rw [hold]
        show 0 = (s.applied.filter (fun x => decide (x.ruleId = rule.id) && x.counts)).length
        rw [hnone]
        rfl
    · exact hs.counted r (Table.mem_of_find? hfind)

theorem consistent_commitChange {change : Change} (hs : Consistent s)
    (h : commitChange change s = some s') : Consistent s' := by
  obtain ⟨-, hruns, happlied, hrules⟩ := commitChange_cases h
  rcases hrules with hrules | ⟨rule, hrules⟩
  · exact consistent_of_same hs hruns hrules happlied
  · exact consistent_saveRule hs hruns happlied hrules

/-! ### Statements -/

variable {rest : List Candidate}

theorem claims_of_check (h : claimCheck c s = true) : Claims s c := by
  obtain ⟨e, he, howned⟩ := (Option.any_eq_true _ _).mp h
  exact ⟨e, he, howned⟩

theorem knows_claimBatch {options : AutomationEventOptions} {now : ℤ} {skipped : List Uuid}
    {token : Uuid → Uuid} : Knows s (.claiming (claimBatch options now skipped s) now token) := by
  refine ⟨options.timeout, fun id hid => ?_⟩
  obtain ⟨e, he, rfl⟩ := List.mem_map.mp hid
  obtain ⟨hmem, hclaimable⟩ := mem_batch he
  exact ⟨e, Table.find?_of_mem hmem, hclaimable⟩

theorem unrun_of_gateOpen (hs : Consistent s) (h : gateOpen c ruleId s = true) :
    Unrun s c ruleId := by
  unfold gateOpen at h
  split at h
  · next hnone => exact hnone
  · next r hr =>
    have hfinal := hs.final r (Table.mem_of_find? hr)
    simp only [Bool.and_eq_true, decide_eq_true_eq] at h
    rcases hfinal with hfinal | hfinal
    · exact absurd hfinal h.1.1
    · exact absurd hfinal h.1.2

theorem loadRule_some {task : TaskRow} (h : loadRule c ruleId s = some (rule, task)) :
    rule.id = ruleId ∧ s.rules.find? ruleId = some rule ∧ s.tasks.find? c.taskId = some task := by
  unfold loadRule at h
  obtain ⟨r, hr, h⟩ := Option.bind_eq_some_iff.mp h
  obtain ⟨t, ht, h⟩ := Option.bind_eq_some_iff.mp h
  cases h
  have hrule := (Option.filter_eq_some_iff.mp hr).1
  exact ⟨Table.key_of_find? hrule, hrule, (Option.filter_eq_some_iff.mp ht).1⟩

theorem knows_nextRule : Knows s (nextRule job s) := by
  unfold nextRule
  split
  · split
    · trivial
    · trivial
  · split
    · next h => exact claims_of_check h
    · trivial

theorem knows_openRule (hk : Knows s (.gated job ruleId)) :
    Knows s (openRule texts job ruleId s) := by
  unfold openRule
  split
  · exact hk
  · next rule task hload =>
    obtain ⟨rfl, hrule, -⟩ := loadRule_some hload
    split
    · exact ⟨hk.1, hk.2, by rw [hrule]; rfl⟩
    · exact hk

theorem knows_applyRule {task : TaskRow} (hk : Knows s (.loaded job rule task)) :
    Knows s (applyRule texts io job rule task s) := by
  unfold applyRule
  split
  · exact hk
  · trivial

theorem knows_completeEvent {outcome : Closed} : Knows s (completeEvent c outcome rest s) := by
  unfold completeEvent
  split
  · trivial
  · split
    · next h => exact claims_of_check h
    · trivial

theorem knows_giveBack : Knows s (giveBack c rest s) := by
  unfold giveBack
  split
  · trivial
  · split
    · next h => exact claims_of_check h
    · trivial

theorem knows_fail : Knows s (fail l) := by
  unfold fail
  split
  · trivial
  · trivial
  · trivial
  · unfold failNext
    split
    · trivial
    · trivial
  all_goals trivial

theorem knows_startEvent : Knows s (startEvent c rest s) := by
  unfold startEvent
  split
  · trivial
  · split
    · trivial
    · trivial

/-- **Statements**: what one leaves, and what the store and its run know after it. -/
theorem move_spec (hs : Consistent s) (hk : Knows s l) (h : move texts a s l = some (s', l')) :
    Frame s s' l ∧ Consistent s' ∧ Knows s' l' := by
  have same : ∀ {m : Local}, Knows s m → Frame s s l ∧ Consistent s ∧ Knows s m :=
    fun hm => ⟨Frame.refl s l, hs, hm⟩
  unfold move at h
  split at h
  · cases h
  · cases h
    exact same trivial
  · cases h
    exact same knows_fail
  · cases h
    exact same knows_claimBatch
  · unfold proceed at h
    split at h
    · cases h
      exact ⟨frame_commitClaim hk, consistent_of_same hs rfl rfl rfl, trivial⟩
    · cases h
      exact same trivial
    · cases h
      exact same knows_startEvent
    · cases h
      exact same knows_nextRule
    · cases h
      split
      · next hopen => exact same ⟨hk, unrun_of_gateOpen hs hopen⟩
      · exact same trivial
    · cases h
      exact same (knows_openRule hk)
    · cases h
      exact ⟨frame_commitRun hk.2 (by simp [Local.locks]), consistent_commitRun hs hk.2, trivial⟩
    · cases h
      exact same (knows_applyRule hk)
    · split at h
      · next t ht =>
        cases h
        exact ⟨frame_commitRule ht hk.2.1 (by simp [Local.locks]),
          consistent_commitRule hs hk.2.1 hk.2.2 ht, trivial⟩
      · cases h
        exact same trivial
    · cases h
      rw [failRun_eq hs]
      exact same trivial
    · cases h
      exact same knows_completeEvent
    · next c outcome rest _ =>
      cases h
      exact ⟨frame_updateClaimed (by simp [Local.locks]) fun _ ho => .finish c.claimToken outcome ho,
        consistent_of_same hs rfl rfl rfl, trivial⟩
    · cases h
      exact same knows_giveBack
    · next c rest _ =>
      cases h
      exact ⟨frame_updateClaimed (by simp [Local.locks]) fun _ ho => .release c.claimToken _ _ ho,
        consistent_of_same hs rfl rfl rfl, trivial⟩
    · cases h
      exact same trivial
    · obtain ⟨t, ht, hst⟩ := Option.map_eq_some_iff.mp h
      cases hst
      exact ⟨frame_commitChange ht, consistent_commitChange hs ht, trivial⟩
    · cases h
    · cases h
  · cases h

/-! ### Runs together -/

theorem Claims.of_frame (hc : Claims s c) (h : Frame s s' l) (hfree : Lock.event c.id ∉ l.locks) :
    Claims s' c := by
  obtain ⟨e, he, howned⟩ := hc
  obtain ⟨hmem, hid⟩ := Table.find?_eq_some_iff.mp he
  obtain ⟨lease, hmem', -, hkeep⟩ := h.events e hmem
  rw [hkeep (hid ▸ hfree)] at hmem'
  exact ⟨e, Table.find?_eq_some_iff.mpr ⟨hmem', hid⟩, howned⟩

theorem Knows.of_frame {m : Local} (hm : Knows s m) (h : Frame s s' l)
    (hclash : (program texts).clash l m = false) : Knows s' m := by
  have hfree : ∀ k ∈ m.locks, k ∉ l.locks :=
    fun k hk hl => not_locked (by simp [program]) hclash hl hk
  cases m with
  | claiming ids now token =>
    obtain ⟨timeout, hids⟩ := hm
    refine ⟨timeout, fun id hid => ?_⟩
    obtain ⟨e, he, hclaimable⟩ := hids id hid
    obtain ⟨hmem, hid'⟩ := Table.find?_eq_some_iff.mp he
    obtain ⟨lease, hmem', -, hkeep⟩ := h.events e hmem
    rw [hkeep (hfree _ (hid' ▸ List.mem_map_of_mem hid))] at hmem'
    exact ⟨e, Table.find?_eq_some_iff.mpr ⟨hmem', hid'⟩, hclaimable⟩
  | fenced job | closing c | releasing c =>
    exact Claims.of_frame hm h (hfree _ List.mem_cons_self)
  | gated job ruleId | skipping job ruleId =>
    have hjob := hfree (.event job.c.id) List.mem_cons_self
    exact ⟨hm.1.of_frame h hjob, h.unrun _ _ hm.2 hjob⟩
  | loaded job rule | written job rule =>
    have hjob := hfree (.event job.c.id) List.mem_cons_self
    exact ⟨hm.1.of_frame h hjob, h.unrun _ _ hm.2.1 hjob, h.rules _ hm.2.2⟩
  | called | working | handling | errored | completing | failed | changing | stopped => trivial

theorem rules_of {I : Store → Prop} (hI : ∀ s s' l, I s → Frame s s' l → I s') :
    Rules (program texts) (fun _ _ _ => True) (fun s => Consistent s ∧ I s) Knows where
  enter _ _ _ := trivial
  own s l a s' l' hs hl _ hmove := by
    obtain ⟨hframe, hconsistent, hknows⟩ := move_spec hs.1 hl hmove
    exact ⟨⟨hconsistent, hI s s' l hs.2 hframe⟩, hknows⟩
  other s l a s' l' m hs hl hm hclash _ hmove :=
    hm.of_frame (move_spec hs.1 hl hmove).1 hclash

theorem allowed_of_moves {m m' : Lease Uuid Closed} (h : Moves m m') :
    EventStatus.ofLease m'.status = .ofLease m.status ∨
      EventStatus.ofLease m'.status ∈ allowedTransitions (.ofLease m.status) := by
  cases h with
  | stay => exact Or.inl rfl
  | claim timeout now token h =>
    rcases open_of_claimable h with hs | ⟨claimedAt, t, hs⟩
    · rw [hs]
      exact Or.inr List.mem_cons_self
    · rw [hs]
      exact Or.inl rfl
  | finish token outcome h =>
    obtain ⟨claimedAt, hs⟩ := processing_of_owned h
    rw [hs]
    right
    cases outcome with
    | sent => exact List.mem_cons_self
    | skipped => exact List.mem_cons_of_mem _ List.mem_cons_self
  | release token now backoff h =>
    obtain ⟨claimedAt, hs⟩ := processing_of_owned h
    rw [hs]
    right
    unfold release
    split
    · simp [EventStatus.ofLease, allowedTransitions]
    · simp [EventStatus.ofLease, allowedTransitions]

theorem step_frame {w w' : World Store Local} (hw : w.Holds (program texts) Consistent Knows)
    {e : Event Call Action} (hok : step (program texts) e w = .ok w') :
    ∃ l, Frame w.store w'.store l := by
  cases e with
  | enter call =>
    cases hok
    exact ⟨.stopped, Frame.refl _ _⟩
  | act k a =>
    obtain ⟨l, l', s, hl, hmove, -, rfl⟩ := step_act hok
    exact ⟨l, (move_spec hw.store (hw.sessions k l hl) hmove).1⟩

/-- **Automation rules**: whatever workers and users do in whatever order, the effects of a rule for
an event are committed at most once and counted at most once by the rule, a run that has ended stays
as it is, every step takes the status of an event along an allowed transition or leaves it, and an
event that is sent, skipped or dead stays so. -/
theorem exactly_once (texts : Texts) (s : Store) (hs : Consistent s)
    (events more : List (Event Call Action)) :
    let w := run (program texts) (World.closed s) events
    (w.store.applied.map Applied.pair).Nodup ∧
    (∀ r ∈ w.store.rules.rows,
      r.runs = (w.store.applied.filter fun x => decide (x.ruleId = r.id) && x.counts).length) ∧
    (∀ r ∈ w.store.runs.rows, r.status = .success ∨ r.status = .skipped →
      r ∈ (run (program texts) w more).store.runs.rows) ∧
    (∀ e w', step (program texts) e w = .ok w' → ∀ x ∈ w.store.events.rows,
      ∃ x' ∈ w'.store.events.rows, x'.id = x.id ∧
        (x'.status = x.status ∨ x'.status ∈ allowedTransitions x.status)) ∧
    ∀ x ∈ w.store.events.rows, x.status = .sent ∨ x.status = .skipped ∨ x.status = .dead →
      x ∈ (run (program texts) w more).store.events.rows := by
  intro w
  have hw : World.Holds (program texts) (fun s => Consistent s ∧ True) Knows w :=
    run_always (rules_of fun _ _ _ _ _ => trivial) events (World.holds_closed ⟨hs, trivial⟩)
  have hholds : World.Holds (program texts) Consistent Knows w := ⟨hw.store.1, hw.sessions, hw.apart⟩
  refine ⟨hw.store.1.once, hw.store.1.counted, fun r hr hfinal => ?_, fun e w' hok x hx => ?_,
    fun x hx hended => ?_⟩
  · have hstays := run_always (rules_of (I := fun s => r ∈ s.runs.rows)
      fun s s' l hr hframe => hframe.ended r hr hfinal) more ⟨⟨hw.store.1, hr⟩, hw.sessions, hw.apart⟩
    exact hstays.store.2
  · obtain ⟨l, hframe⟩ := step_frame hholds hok
    obtain ⟨lease, hmem, hmoves, -⟩ := hframe.events x hx
    exact ⟨_, hmem, rfl, allowed_of_moves hmoves⟩
  · have hterminal : x.lease.status.terminal = true := by
      unfold EventRow.status at hended
      cases hs : x.lease.status with
      | pending => simp [hs, EventStatus.ofLease] at hended
      | processing => simp [hs, EventStatus.ofLease] at hended
      | closed => rfl
      | dead => rfl
    have hstays := run_always (rules_of (I := fun s => x ∈ s.events.rows) fun s s' l hx hframe => by
      obtain ⟨lease, hmem, hmoves, -⟩ := hframe.events x hx
      rwa [hmoves.of_terminal hterminal] at hmem) more ⟨⟨hw.store.1, hx⟩, hw.sessions, hw.apart⟩
    exact hstays.store.2

/-! A worker applies a rule and is lost before it completes the event; another one claims the event
again after the timeout. -/

def sampleTexts : Texts :=
  { ofUuid := fun id => s!"{id}", toUuid := fun _ => none, display := fun _ => "" }

def sampleTask : TaskRow :=
  { id := 7, organizationId := 10, workspaceId := 20, serial := "TASK-1041"
    state := { status := .done, priority := .medium, projectId := 30 } }

def sampleRule : RuleRow :=
  { id := 5, organizationId := 10, workspaceId := 20, name := "close", trigger := .taskStatusChanged
    conditions := [("status", .string "done")], actions := [("setPriority", .string "low")] }

def sampleContext : Context :=
  { organizationId := 10, workspaceId := 20, actorId := some 3, automation := none }

/-- The task gets the priority of the rule. -/
def sampleIo : Io :=
  { updateTask := fun u => some (some { sampleTask.state with priority := u.priority.getD .medium })
    eventId := fun _ => 101 }

/-- A user saves a rule and moves a task. -/
def requestEvents : List (Event Call Action) :=
  [.enter (.change (.saveRule sampleRule)), .act 0 (.next {}), .act 0 (.next {}),
    .enter (.change (.saveTask sampleContext sampleTask [.taskStatusChanged] (fun _ => 100) 0)),
    .act 1 (.next {}), .act 1 (.next {})]

/-- The first worker crashes after its rule has been committed. -/
def workerEvents : List (Event Call Action) :=
  [.enter (.process {}), .act 2 (.claim 0 [] fun _ => 200), .act 2 (.next {}), .act 2 (.next {}),
    .act 2 (.next {}), .act 2 (.next {}), .act 2 (.next {}), .act 2 (.next sampleIo),
    .act 2 (.next {}), .act 2 .crash,
    .enter (.process {}), .act 3 (.claim 1000000 [101] fun _ => 300), .act 3 (.next {}),
    .act 3 (.next {}), .act 3 (.next {}), .act 3 (.next {}), .act 3 (.next {}), .act 3 (.next {}),
    .act 3 (.next {})]

theorem consistent_empty : Consistent Store.empty :=
  ⟨fun _ hr => (by cases hr), List.nodup_nil, fun _ hx => (by cases hx), fun _ hx => (by cases hx),
    fun _ hr => (by cases hr)⟩

theorem exactly_once_reclaimed :
    let w := run (program sampleTexts) (World.closed Store.empty) (requestEvents ++ workerEvents)
    (w.store.rules.rows.map RuleRow.runs = [1] ∧
      w.store.events.rows.map EventRow.status = [.sent, .pending]) ∧
    (w.store.applied.map Applied.pair).Nodup := by
  have h := exactly_once sampleTexts Store.empty consistent_empty (requestEvents ++ workerEvents) []
  exact ⟨by decide +kernel, h.1⟩

end CalmBoard.Automations
