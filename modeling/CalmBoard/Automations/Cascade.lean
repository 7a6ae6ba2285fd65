import CalmBoard.Automations.Once
import CalmBoard.Lib.Fallible
import CalmBoard.Lib.Levels

/-!
# CalmBoard.Automations.Cascade — how far events go

* `Graded`: the depth of an event is one more than that of the event whose rule has created it.
* `children_perform`: what a rule creates.
* `cascade_bounded`: events are at most five deep, and there are finitely many of them as long as workers
  alone go on.
* `daily_unbounded`: with a rule for every day, time alone creates events.
-/

namespace CalmBoard.Automations

open Queue Sessions

variable {texts : Texts} {io : Io} {s s' : Store} {l l' : Local} {a : Action} {c : Candidate}
  {task : TaskRow} {e : EventRow}

/-- Events that a rule creates for the event of a candidate. -/
structure Children (c : Candidate) (new : List EventRow) : Prop where
  few : new.length ≤ 4
  depth : ∀ e ∈ new, e.depth = c.depth + 1
  parent : ∀ e ∈ new, e.parentEventId = some c.id

theorem mem_taskEvents {context : Context} {triggers : List Trigger} {ids : Trigger → Uuid}
    {now : ℤ} (h : e ∈ taskEvents context task triggers ids now) :
    e.depth = context.depth ∧ e.parentEventId = context.automation.map Automation.parentEventId := by
  unfold taskEvents at h
  split at h
  · obtain ⟨trigger, -, rfl⟩ := List.mem_map.mp h
    exact ⟨rfl, rfl⟩
  · cases h

theorem mem_commentEvent {context : Context} {comment : CommentRow} {ids : Trigger → Uuid} {now : ℤ}
    (h : e ∈ commentEvent context task comment ids now) :
    e.depth = context.depth ∧ e.parentEventId = context.automation.map Automation.parentEventId := by
  unfold commentEvent at h
  split at h
  · rw [List.mem_singleton.mp h]
    exact ⟨rfl, rfl⟩
  · cases h

theorem length_changeTriggers (before after : TaskState) :
    (changeTriggers before after).length ≤ 3 := by
  unfold changeTriggers
  simp only [List.length_append]
  have hone : ∀ (p : Prop) [Decidable p] (t : Trigger), (if p then [t] else []).length ≤ 1 := by
    intro p _ t
    split <;> simp
  have h₁ := hone (before.status ≠ after.status) .taskStatusChanged
  have h₂ := hone (before.priority ≠ after.priority) .taskPriorityChanged
  have h₃ := hone (before.assigneeId ≠ after.assigneeId ∨ before.assigneeIds ≠ after.assigneeIds)
    .taskAssigneeChanged
  omega

theorem length_taskEvents (context : Context) (task : TaskRow) (triggers : List Trigger)
    (ids : Trigger → Uuid) (now : ℤ) :
    (taskEvents context task triggers ids now).length ≤ triggers.length := by
  unfold taskEvents
  split
  · rw [List.length_map]
  · exact Nat.zero_le _

theorem length_commentEvent (context : Context) (task : TaskRow) (comment : CommentRow)
    (ids : Trigger → Uuid) (now : ℤ) : (commentEvent context task comment ids now).length ≤ 1 := by
  unfold commentEvent
  split
  · rfl
  · exact Nat.zero_le _

theorem children_newEvents {changed : Option TaskState} {comment : Option CommentRow} :
    Children c (newEvents io c task changed comment) := by
  have hmem : ∀ e ∈ newEvents io c task changed comment,
      e.depth = c.depth + 1 ∧ e.parentEventId = some c.id := by
    intro e he
    rcases List.mem_append.mp he with he | he
    · exact mem_taskEvents he
    · cases comment with
      | none => cases he
      | some comment => exact mem_commentEvent he
  refine ⟨?_, fun e he => (hmem e he).1, fun e he => (hmem e he).2⟩
  have hchanges := length_changeTriggers task.state (updated task changed).state
  have htask := length_taskEvents c.context (updated task changed)
    (changeTriggers task.state (updated task changed).state) io.eventId io.now
  unfold newEvents
  rw [List.length_append]
  cases comment with
  | none =>
    simp only [List.length_nil]
    omega
  | some comment =>
    have hcomment :=
      length_commentEvent c.context (updated task changed) comment io.eventId io.now
    simp only
    omega

theorem children_perform {rule : RuleRow} {comments : List CommentRow}
    {notifications : List NotificationRow} {effects : Effects}
    (h : perform texts io c rule task comments notifications = .ok effects) :
    Children c effects.events := by
  unfold perform at h
  obtain ⟨a, -, h⟩ := Fallible.bind_ok.mp h
  obtain ⟨assignTo, -, h⟩ := Fallible.bind_ok.mp h
  obtain ⟨changed, -, h⟩ := Fallible.bind_ok.mp h
  obtain ⟨comment, -, h⟩ := Fallible.bind_ok.mp h
  cases h
  exact children_newEvents

/-! ### Graded stores -/

/-- Every event has a depth of at most five; it is a root, or a rule of its parent has created it;
and rules run only for events that are less deep. -/
structure Graded (s : Store) : Prop where
  depth : ∀ e ∈ s.events.rows, e.depth ≤ MAX_AUTOMATION_DEPTH
  root : ∀ e ∈ s.events.rows, e.parentEventId = none → e.depth = 0
  child : ∀ e ∈ s.events.rows, ∀ p, e.parentEventId = some p →
    (∃ x ∈ s.applied, x.eventId = p ∧ e.id ∈ x.effects.events.map EventRow.id) ∧
      ∃ e' ∈ s.events.rows, e'.id = p ∧ e.depth = e'.depth + 1
  applied : ∀ x ∈ s.applied, x.effects.events.length ≤ 4 ∧
    ∃ e' ∈ s.events.rows, e'.id = x.eventId ∧ e'.depth < MAX_AUTOMATION_DEPTH ∧
      ∀ e ∈ x.effects.events, e.parentEventId = some x.eventId ∧ e.depth = e'.depth + 1
  runs : ∀ r ∈ s.runs.rows,
    ∃ e ∈ s.events.rows, e.id = r.eventId ∧ e.depth < MAX_AUTOMATION_DEPTH

/-- The events that a run has still to work on. -/
def Local.candidates : Local → List Candidate
  | .working rest => rest
  | .handling job | .fenced job _ | .gated job _ | .skipping job _ | .loaded job _ _
  | .written job _ _ | .errored job _ => job.c :: job.rest
  | .completing c _ rest | .closing c _ rest | .failed c rest | .releasing c rest => c :: rest
  | .called _ | .claiming .. | .changing _ | .stopped => []

/-- The event whose rules a run executes. -/
def Local.executes : Local → Option Candidate
  | .handling job | .fenced job _ | .gated job _ | .skipping job _ | .loaded job _ _
  | .written job _ _ | .errored job _ => some job.c
  | _ => none

/-- A candidate has the depth of its event. -/
def Traced (s : Store) (c : Candidate) : Prop :=
  ∃ e ∈ s.events.rows, e.id = c.id ∧ e.depth = c.depth

/-- What a run knows of the events it works on. -/
structure Shallow (s : Store) (l : Local) : Prop where
  traced : ∀ c ∈ l.candidates, Traced s c
  shallow : ∀ c, l.executes = some c → c.depth < MAX_AUTOMATION_DEPTH
  children : ∀ job ruleId effects, l = .written job ruleId effects →
    Children job.c effects.events

theorem Traced.of_frame (h : Traced s c) (hf : Frame s s' l) : Traced s' c := by
  obtain ⟨e, he, hid, hdepth⟩ := h
  obtain ⟨lease, he', -, -⟩ := hf.events e he
  exact ⟨_, he', hid, hdepth⟩

theorem Shallow.of_frame {m : Local} (h : Shallow s m) (hf : Frame s s' l) : Shallow s' m :=
  ⟨fun c hc => (h.traced c hc).of_frame hf, h.shallow, h.children⟩

/-! ### Statements -/

variable {job : Job}

theorem candidates_claimed {ids : List Uuid} {token : Uuid → Uuid}
    (h : c ∈ candidates ids token s) : Traced s c := by
  unfold candidates at h
  obtain ⟨id, -, hc⟩ := List.mem_filterMap.mp h
  obtain ⟨e, he, rfl⟩ := Option.map_eq_some_iff.mp hc
  exact ⟨e, Table.mem_of_find? he, rfl, rfl⟩

theorem Shallow.mono {m : Local} (h : Shallow s l) (hc : ∀ c ∈ m.candidates, c ∈ l.candidates)
    (he : ∀ c, m.executes = some c → l.executes = some c)
    (hw : ∀ job ruleId effects, m ≠ .written job ruleId effects) : Shallow s m :=
  ⟨fun c hm => h.traced c (hc c hm), fun c hm => h.shallow c (he c hm),
    fun job ruleId effects hm => absurd hm (hw job ruleId effects)⟩

theorem Shallow.on {m : Local} (h : Shallow s l) (hc : m.candidates = l.candidates)
    (he : m.executes = l.executes) (hw : ∀ job ruleId effects, m ≠ .written job ruleId effects) :
    Shallow s m :=
  h.mono (fun _ hm => hc ▸ hm) (fun _ hm => he ▸ hm) hw

theorem shallow_startEvent {rest : List Candidate} (h : Shallow s (.working (c :: rest))) :
    Shallow s (startEvent c rest s) := by
  have hcompleting : Shallow s (.completing c .skipped rest) :=
    ⟨h.traced, fun _ hm => (by cases hm), fun _ _ _ hm => (by cases hm)⟩
  unfold startEvent
  split
  · exact hcompleting
  · next hdepth =>
    split
    · exact hcompleting
    · refine ⟨h.traced, fun c' hm => ?_, fun _ _ _ hm => (by cases hm)⟩
      cases hm
      exact Nat.lt_of_not_le hdepth

theorem shallow_nextRule (h : Shallow s (.handling job)) : Shallow s (nextRule job s) := by
  have hkeep : ∀ m : Local, m.candidates = job.c :: job.rest →
      (∀ c, m.executes = some c → c = job.c) →
      (∀ j r e, m ≠ .written j r e) → Shallow s m := by
    intro m hc he hw
    exact h.mono (fun c hm => by rwa [hc] at hm) (fun c hm => by rw [he c hm]; rfl) hw
  unfold nextRule
  split
  · split
    · exact hkeep _ rfl (fun _ hm => by cases hm) (fun _ _ _ hm => by cases hm)
    · exact hkeep _ rfl (fun _ hm => by cases hm) (fun _ _ _ hm => by cases hm)
  · split
    · exact hkeep _ rfl (fun _ hm => by cases hm; rfl) (fun _ _ _ hm => by cases hm)
    · exact hkeep _ rfl (fun _ hm => by cases hm) (fun _ _ _ hm => by cases hm)

theorem shallow_openRule {ruleId : Uuid} (h : Shallow s (.gated job ruleId)) :
    Shallow s (openRule texts job ruleId s) := by
  unfold openRule
  split
  · exact h.on rfl rfl fun _ _ _ hm => (by cases hm)
  · split
    · exact h.on rfl rfl fun _ _ _ hm => (by cases hm)
    · exact h.on rfl rfl fun _ _ _ hm => (by cases hm)

theorem shallow_applyRule {rule : RuleRow} (h : Shallow s (.loaded job rule task)) :
    Shallow s (applyRule texts io job rule task s) := by
  unfold applyRule
  split
  · next effects heffects =>
    refine ⟨h.traced, h.shallow, fun job' ruleId effects' hm => ?_⟩
    cases hm
    exact children_perform heffects
  · exact h.on rfl rfl fun _ _ _ hm => (by cases hm)

theorem shallow_completeEvent {outcome : Closed} {rest : List Candidate}
    (h : Shallow s (.completing c outcome rest)) : Shallow s (completeEvent c outcome rest s) := by
  unfold completeEvent
  split
  · exact h.on rfl rfl fun _ _ _ hm => (by cases hm)
  · split
    · exact h.on rfl rfl fun _ _ _ hm => (by cases hm)
    · exact h.on rfl rfl fun _ _ _ hm => (by cases hm)

theorem shallow_stopped : Shallow s .stopped :=
  ⟨fun _ hm => (by cases hm), fun _ hm => (by cases hm), fun _ _ _ hm => (by cases hm)⟩

theorem Shallow.rest {rest : List Candidate} (h : Shallow s l) (hc : l.candidates = c :: rest) :
    Shallow s (.working rest) :=
  h.mono (fun c' hm => by rw [hc]; exact List.mem_cons_of_mem c hm) (fun _ hm => (by cases hm))
    fun _ _ _ hm => (by cases hm)

theorem shallow_giveBack {rest : List Candidate} (h : Shallow s (.failed c rest)) :
    Shallow s (giveBack c rest s) := by
  unfold giveBack
  split
  · exact shallow_stopped
  · split
    · exact h.on rfl rfl fun _ _ _ hm => (by cases hm)
    · exact h.rest rfl

theorem shallow_fail (h : Shallow s l) : Shallow s (fail l) := by
  cases l with
  | working rest =>
    cases rest with
    | nil => exact shallow_stopped
    | cons c rest => exact h.on rfl rfl fun _ _ _ hm => (by cases hm)
  | handling job =>
    show Shallow s (failNext job)
    unfold failNext
    split
    · exact h.mono (fun _ hm => hm) (fun _ hm => (by cases hm)) fun _ _ _ hm => (by cases hm)
    · exact h.on rfl rfl fun _ _ _ hm => (by cases hm)
  | completing | closing | fenced | gated | skipping | loaded | written | errored =>
    exact h.on rfl rfl fun _ _ _ hm => (by cases hm)
  | called | claiming | failed | releasing | changing | stopped => exact shallow_stopped

/-- **Events of a run**: a statement leaves it with events it has worked on or claimed, and lets it
execute rules only for those that are less than five deep. -/
theorem move_shallow (h : Shallow s l) (hmove : move texts a s l = some (s', l')) :
    Shallow s l' := by
  unfold move at hmove
  split at hmove
  · cases hmove
  · cases hmove
    exact shallow_stopped
  · cases hmove
    exact shallow_fail h
  · cases hmove
    exact h.mono (fun _ hm => hm) (fun _ hm => (by cases hm)) fun _ _ _ hm => (by cases hm)
  · unfold proceed at hmove
    split at hmove
    · cases hmove
      exact ⟨fun _ hm => candidates_claimed hm, fun _ hm => (by cases hm),
        fun _ _ _ hm => (by cases hm)⟩
    · cases hmove
      exact shallow_stopped
    · cases hmove
      exact shallow_startEvent h
    · cases hmove
      exact shallow_nextRule h
    · cases hmove
      split
      · exact h.on rfl rfl fun _ _ _ hm => (by cases hm)
      · exact h.on rfl rfl fun _ _ _ hm => (by cases hm)
    · cases hmove
      exact shallow_openRule h
    · cases hmove
      exact h.on rfl rfl fun _ _ _ hm => (by cases hm)
    · cases hmove
      exact shallow_applyRule h
    · split at hmove
      · cases hmove
        exact h.on rfl rfl fun _ _ _ hm => (by cases hm)
      · cases hmove
        exact h.on rfl rfl fun _ _ _ hm => (by cases hm)
    · cases hmove
      exact h.on rfl rfl fun _ _ _ hm => (by cases hm)
    · cases hmove
      exact shallow_completeEvent h
    · cases hmove
      exact h.rest rfl
    · cases hmove
      exact shallow_giveBack h
    · cases hmove
      exact h.rest rfl
    · cases hmove
      exact h.mono (fun _ hm => hm) (fun _ hm => (by cases hm)) fun _ _ _ hm => (by cases hm)
    · obtain ⟨t, -, ht⟩ := Option.map_eq_some_iff.mp hmove
      cases ht
      exact shallow_stopped
    · cases hmove
    · cases hmove
  · cases hmove

/-- The columns of an event that never change. -/
def EventRow.shape (e : EventRow) : Uuid × ℕ × Option Uuid := (e.id, e.depth, e.parentEventId)

/-- A statement that creates no event and records no effects; the runs it writes are those of the
event whose rule is executed. -/
structure Quiet (s s' : Store) (l : Local) : Prop where
  events : s'.events.rows.map EventRow.shape = s.events.rows.map EventRow.shape
  applied : s'.applied = s.applied
  rules : s'.rules = s.rules
  runs : ∀ r' ∈ s'.runs.rows, (∃ r ∈ s.runs.rows, r.eventId = r'.eventId) ∨
    ∃ c, l.executes = some c ∧ r'.eventId = c.id

theorem Quiet.refl (s : Store) (l : Local) : Quiet s s l :=
  ⟨rfl, rfl, rfl, fun r hr => Or.inl ⟨r, hr, rfl⟩⟩

theorem quiet_leases {p : EventRow → Bool} {f : EventRow → Lease Uuid Closed → Lease Uuid Closed} :
    Quiet s { s with
      events := s.events.update p (fun e => e.withLease (f e)) fun e => e.withLease_id (f e) } l := by
  refine ⟨?_, rfl, rfl, fun r hr => Or.inl ⟨r, hr, rfl⟩⟩
  rw [Table.rows_update, List.map_map]
  refine List.map_congr_left fun e _ => ?_
  rw [Function.comp_apply]
  split
  · rfl
  · rfl

theorem quiet_commitRun {ruleId : Uuid} (hu : Unrun s job.c ruleId) (hl : l.executes = some job.c) :
    Quiet s (commitRun job.c ruleId .skipped s) l := by
  refine ⟨rfl, rfl, rfl, fun r hr => ?_⟩
  unfold commitRun at hr
  rw [rows_upsertRun hu] at hr
  rcases List.mem_append.mp hr with hr | hr
  · exact Or.inl ⟨r, hr, rfl⟩
  · rw [List.mem_singleton.mp hr]
    exact Or.inr ⟨job.c, hl, rfl⟩

/-- **Statements**: they create no event, or commit a rule, or a request of a user. -/
theorem move_cases (hs : Consistent s) (hk : Knows s l)
    (h : move texts a s l = some (s', l')) :
    Quiet s s' l ∨
    (∃ job ruleId effects, l = .written job ruleId effects ∧
      commitRule job.c ruleId effects s = some s') ∨
    ∃ change, l = .changing change ∧ commitChange change s = some s' := by
  unfold move at h
  split at h
  · cases h
  · cases h
    exact Or.inl (Quiet.refl s l)
  · cases h
    exact Or.inl (Quiet.refl s l)
  · cases h
    exact Or.inl (Quiet.refl s _)
  · unfold proceed at h
    split at h
    · cases h
      exact Or.inl quiet_leases
    · cases h
      exact Or.inl (Quiet.refl s _)
    · cases h
      exact Or.inl (Quiet.refl s _)
    · cases h
      exact Or.inl (Quiet.refl s _)
    · cases h
      exact Or.inl (Quiet.refl s _)
    · cases h
      exact Or.inl (Quiet.refl s _)
    · cases h
      exact Or.inl (quiet_commitRun hk.2 rfl)
    · cases h
      exact Or.inl (Quiet.refl s _)
    · split at h
      · next t ht =>
        cases h
        exact Or.inr (Or.inl ⟨_, _, _, rfl, ht⟩)
      · cases h
        exact Or.inl (Quiet.refl s _)
    · cases h
      rw [failRun_eq hs]
      exact Or.inl (Quiet.refl s _)
    · cases h
      exact Or.inl (Quiet.refl s _)
    · cases h
      exact Or.inl quiet_leases
    · cases h
      exact Or.inl (Quiet.refl s _)
    · cases h
      exact Or.inl quiet_leases
    · cases h
      exact Or.inl (Quiet.refl s _)
    · obtain ⟨t, ht, hst⟩ := Option.map_eq_some_iff.mp h
      cases hst
      exact Or.inr (Or.inr ⟨_, rfl, ht⟩)
    · cases h
    · cases h
  · cases h

/-! ### What the store keeps -/

theorem lift_event (hf : Frame s s' l) (he : e ∈ s.events.rows) :
    ∃ e' ∈ s'.events.rows, e'.shape = e.shape := by
  obtain ⟨lease, he', -, -⟩ := hf.events e he
  exact ⟨_, he', rfl⟩

theorem shape_eq {e' : EventRow} (h : e'.shape = e.shape) :
    e'.id = e.id ∧ e'.depth = e.depth ∧ e'.parentEventId = e.parentEventId := by
  obtain ⟨hid, hrest⟩ := Prod.mk.inj h
  exact ⟨hid, Prod.mk.inj hrest⟩

theorem Graded.child_lift (hg : Graded s) (hf : Frame s s' l)
    (happlied : ∀ x ∈ s.applied, x ∈ s'.applied) (he : e ∈ s.events.rows) {p : Uuid}
    (hp : e.parentEventId = some p) :
    (∃ x ∈ s'.applied, x.eventId = p ∧ e.id ∈ x.effects.events.map EventRow.id) ∧
      ∃ e' ∈ s'.events.rows, e'.id = p ∧ e.depth = e'.depth + 1 := by
  obtain ⟨⟨x, hx, hxp, hxe⟩, e₀, he₀, hid, hdepth⟩ := hg.child e he p hp
  obtain ⟨e', he', hshape⟩ := lift_event hf he₀
  obtain ⟨hid', hdepth', -⟩ := shape_eq hshape
  exact ⟨⟨x, happlied x hx, hxp, hxe⟩, e', he', hid'.trans hid, by rw [hdepth', hdepth]⟩

theorem Graded.applied_lift (hg : Graded s) (hf : Frame s s' l) {x : Applied}
    (hx : x ∈ s.applied) : x.effects.events.length ≤ 4 ∧
      ∃ e' ∈ s'.events.rows, e'.id = x.eventId ∧ e'.depth < MAX_AUTOMATION_DEPTH ∧
        ∀ e ∈ x.effects.events, e.parentEventId = some x.eventId ∧ e.depth = e'.depth + 1 := by
  obtain ⟨hfew, e₀, he₀, hid, hdepth, hnew⟩ := hg.applied x hx
  obtain ⟨e', he', hshape⟩ := lift_event hf he₀
  obtain ⟨hid', hdepth', -⟩ := shape_eq hshape
  exact ⟨hfew, e', he', hid'.trans hid, by omega, by rwa [hdepth']⟩

theorem Graded.runs_lift (hg : Graded s) (hf : Frame s s' l) {r : RunRow}
    (hr : r ∈ s.runs.rows) :
    ∃ e ∈ s'.events.rows, e.id = r.eventId ∧ e.depth < MAX_AUTOMATION_DEPTH := by
  obtain ⟨e₀, he₀, hid, hdepth⟩ := hg.runs r hr
  obtain ⟨e', he', hshape⟩ := lift_event hf he₀
  obtain ⟨hid', hdepth', -⟩ := shape_eq hshape
  exact ⟨e', he', hid'.trans hid, by omega⟩

theorem Graded.quiet (hg : Graded s) (hf : Frame s s' l) (hl : Shallow s' l)
    (hc : ∀ c, l.executes = some c → c ∈ l.candidates) (hq : Quiet s s' l) : Graded s' := by
  have hback : ∀ e' ∈ s'.events.rows, ∃ e ∈ s.events.rows, e.shape = e'.shape := by
    intro e' he'
    have hmem := List.mem_map_of_mem (f := EventRow.shape) he'
    rw [hq.events] at hmem
    exact List.mem_map.mp hmem
  constructor
  · intro e' he'
    obtain ⟨e, he, hshape⟩ := hback e' he'
    rw [← (shape_eq hshape).2.1]
    exact hg.depth e he
  · intro e' he' hp
    obtain ⟨e, he, hshape⟩ := hback e' he'
    obtain ⟨-, hdepth, hparent⟩ := shape_eq hshape
    rw [← hdepth]
    exact hg.root e he (hparent.trans hp)
  · intro e' he' p hp
    obtain ⟨e, he, hshape⟩ := hback e' he'
    obtain ⟨hid, hdepth, hparent⟩ := shape_eq hshape
    rw [← hid, ← hdepth]
    exact hg.child_lift hf (fun x hx => hq.applied ▸ hx) he (hparent.trans hp)
  · intro x hx
    exact hg.applied_lift hf (hq.applied ▸ hx)
  · intro r' hr'
    rcases hq.runs r' hr' with ⟨r, hr, hevent⟩ | ⟨c, hexec, hevent⟩
    · rw [← hevent]
      exact hg.runs_lift hf hr
    · obtain ⟨e, he, hid, hdepth⟩ := hl.traced c (hc c hexec)
      exact ⟨e, he, hid.trans hevent.symm, hdepth ▸ hl.shallow c hexec⟩

theorem Graded.commitRule {ruleId : Uuid} {effects : Effects} (hg : Graded s)
    (hf : Frame s s' (.written job ruleId effects)) (hu : Unrun s job.c ruleId)
    (hl : Shallow s' (.written job ruleId effects))
    (h : Automations.commitRule job.c ruleId effects s = some s') : Graded s' := by
  obtain ⟨hevents, hruns, -, happlied⟩ := commitRule_cases h
  obtain ⟨e₀, he₀, hid₀, hdepth₀⟩ := hl.traced job.c List.mem_cons_self
  have hshallow : job.c.depth < MAX_AUTOMATION_DEPTH := hl.shallow job.c rfl
  have hnew : Children job.c effects.events := hl.children job ruleId effects rfl
  have hgrow : ∀ x ∈ s.applied, x ∈ s'.applied := by
    intro x hx
    rw [happlied]
    exact List.mem_append_left _ hx
  have hlast : (⟨job.c.id, ruleId, effects⟩ : Applied) ∈ s'.applied := by
    rw [happlied]
    exact List.mem_append_right _ (List.mem_singleton_self _)
  constructor
  · intro e he
    rw [hevents] at he
    rcases List.mem_append.mp he with he | he
    · exact hg.depth e he
    · rw [hnew.depth e he]
      exact hshallow
  · intro e he hp
    rw [hevents] at he
    rcases List.mem_append.mp he with he | he
    · exact hg.root e he hp
    · rw [hnew.parent e he] at hp
      cases hp
  · intro e he p hp
    rw [hevents] at he
    rcases List.mem_append.mp he with he | he
    · exact hg.child_lift hf hgrow he hp
    · rw [hnew.parent e he] at hp
      cases hp
      refine ⟨⟨_, hlast, rfl, List.mem_map_of_mem he⟩, e₀, he₀, hid₀, ?_⟩
      rw [hnew.depth e he, hdepth₀]
  · intro x hx
    rw [happlied] at hx
    rcases List.mem_append.mp hx with hx | hx
    · exact hg.applied_lift hf hx
    · rw [List.mem_singleton.mp hx]
      refine ⟨hnew.few, e₀, he₀, hid₀, by omega, fun e he => ⟨hnew.parent e he, ?_⟩⟩
      rw [hnew.depth e he, hdepth₀]
  · intro r hr
    rw [hruns, rows_upsertRun hu] at hr
    rcases List.mem_append.mp hr with hr | hr
    · exact hg.runs_lift hf hr
    · rw [List.mem_singleton.mp hr]
      exact ⟨e₀, he₀, hid₀, by omega⟩

theorem commitChange_roots {change : Change} (h : commitChange change s = some s') :
    ∃ new, s'.events.rows = s.events.rows ++ new ∧
      ∀ e ∈ new, e.depth = 0 ∧ e.parentEventId = none := by
  unfold commitChange at h
  split at h
  · cases h
    exact ⟨[], (List.append_nil _).symm, fun _ he => (by cases he)⟩
  · obtain ⟨events, hevents, hs⟩ := Option.map_eq_some_iff.mp h
    cases hs
    exact ⟨_, insertEvents?_rows hevents, fun e he => mem_taskEvents he⟩
  · obtain ⟨events, hevents, hs⟩ := Option.map_eq_some_iff.mp h
    cases hs
    exact ⟨_, insertEvents?_rows hevents, fun e he => mem_commentEvent he⟩
  · obtain ⟨events, hevents, hs⟩ := Option.map_eq_some_iff.mp h
    cases hs
    refine ⟨_, insertEvents?_rows hevents, fun e he => ?_⟩
    obtain ⟨task, -, rfl⟩ := List.mem_map.mp (List.mem_of_mem_filter he)
    exact ⟨rfl, rfl⟩

theorem Graded.commitChange {change : Change} (hg : Graded s) (hf : Frame s s' l)
    (h : Automations.commitChange change s = some s') : Graded s' := by
  obtain ⟨new, hevents, hnew⟩ := commitChange_roots h
  obtain ⟨-, hruns, happlied, -⟩ := commitChange_cases h
  constructor
  · intro e he
    rw [hevents] at he
    rcases List.mem_append.mp he with he | he
    · exact hg.depth e he
    · rw [(hnew e he).1]
      exact Nat.zero_le _
  · intro e he hp
    rw [hevents] at he
    rcases List.mem_append.mp he with he | he
    · exact hg.root e he hp
    · exact (hnew e he).1
  · intro e he p hp
    rw [hevents] at he
    rcases List.mem_append.mp he with he | he
    · exact hg.child_lift hf (fun x hx => happlied ▸ hx) he hp
    · rw [(hnew e he).2] at hp
      cases hp
  · intro x hx
    exact hg.applied_lift hf (happlied ▸ hx)
  · intro r hr
    exact hg.runs_lift hf (hruns ▸ hr)

theorem candidates_of_executes (h : l.executes = some c) : c ∈ l.candidates := by
  cases l with
  | handling | fenced | gated | skipping | loaded | written | errored =>
    cases h
    exact List.mem_cons_self
  | called | claiming | working | completing | closing | failed | releasing | changing | stopped =>
    cases h

theorem rules_graded : Rules (program texts) (fun _ _ _ => True)
    (fun s => Consistent s ∧ Graded s) (fun s l => Knows s l ∧ Shallow s l) where
  enter s call _ := ⟨trivial, fun _ hm => (by cases hm), fun _ hm => (by cases hm),
    fun _ _ _ hm => (by cases hm)⟩
  own s l a s' l' hs hl _ hmove := by
    obtain ⟨hf, hconsistent, hknows⟩ := move_spec hs.1 hl.1 hmove
    have hshallow : Shallow s' l' := (move_shallow hl.2 hmove).of_frame hf
    refine ⟨⟨hconsistent, ?_⟩, hknows, hshallow⟩
    have hl' : Shallow s' l := hl.2.of_frame hf
    rcases move_cases hs.1 hl.1 hmove with hq | ⟨job, ruleId, effects, rfl, h⟩ | ⟨change, rfl, h⟩
    · exact hs.2.quiet hf hl' (fun c hc => candidates_of_executes hc) hq
    · exact hs.2.commitRule hf hl.1.2.1 hl' h
    · exact hs.2.commitChange hf h
  other s l a s' l' m hs hl hm hclash _ hmove := by
    have hf := (move_spec hs.1 hl.1 hmove).1
    exact ⟨hm.1.of_frame hf hclash, hm.2.of_frame hf⟩

/-! ### Counting -/

/-- The events that no rule has created. -/
def roots (s : Store) : ℕ := s.events.rows.countP fun e => e.parentEventId.isNone

def level (s : Store) (d : ℕ) : ℕ := s.events.rows.countP fun e => e.depth = d

theorem level_zero_le (hg : Graded s) : level s 0 ≤ roots s := by
  refine List.countP_mono_left fun e he hdepth => ?_
  cases hp : e.parentEventId with
  | none => rfl
  | some p =>
    obtain ⟨-, e', -, -, hsucc⟩ := hg.child e he p hp
    rw [of_decide_eq_true hdepth] at hsucc
    cases hsucc

/-- What has been applied to the events of one depth. -/
def appliedAt (s : Store) (d : ℕ) : List Applied :=
  s.applied.filter fun x => decide (∃ e ∈ s.events.rows, e.id = x.eventId ∧ e.depth = d)

theorem length_appliedAt (hs : Consistent s) (d : ℕ) :
    (appliedAt s d).length ≤ level s d * s.rules.rows.length := by
  have hnodup : ((appliedAt s d).map Applied.pair).Nodup :=
    hs.once.sublist (List.filter_sublist.map Applied.pair)
  have hle := Levels.length_le_product (s := (s.events.rows.filter fun e => e.depth = d).map EventRow.id)
    (t := s.rules.rows.map RuleRow.id) hnodup ?_
  · rwa [List.length_map, List.length_map, List.length_map, ← List.countP_eq_length_filter] at hle
  · intro p hp
    obtain ⟨x, hx, rfl⟩ := List.mem_map.mp hp
    obtain ⟨happlied, hevent⟩ := List.mem_filter.mp hx
    obtain ⟨e, he, hid, hdepth⟩ := of_decide_eq_true hevent
    obtain ⟨r, hr⟩ := Option.isSome_iff_exists.mp (hs.ruled x happlied)
    obtain ⟨hmem, hrid⟩ := Table.find?_eq_some_iff.mp hr
    constructor
    · exact List.mem_map.mpr ⟨e, List.mem_filter.mpr ⟨he, decide_eq_true hdepth⟩, hid⟩
    · exact List.mem_map.mpr ⟨r, hmem, hrid⟩

theorem level_succ_le (hs : Consistent s) (hg : Graded s) (d : ℕ) :
    level s (d + 1) ≤ 4 * s.rules.rows.length * level s d := by
  have hnodup : ((s.events.rows.filter fun e => e.depth = d + 1).map EventRow.id).Nodup :=
    s.events.nodup.sublist (List.filter_sublist.map EventRow.id)
  have hsubset : (s.events.rows.filter fun e => e.depth = d + 1).map EventRow.id ⊆
      (appliedAt s d).flatMap fun x => x.effects.events.map EventRow.id := by
    intro id hid
    obtain ⟨e, he, rfl⟩ := List.mem_map.mp hid
    obtain ⟨hmem, hdepth⟩ := List.mem_filter.mp he
    have hsucc : e.depth = d + 1 := of_decide_eq_true hdepth
    cases hp : e.parentEventId with
    | none =>
      rw [hg.root e hmem hp] at hsucc
      cases hsucc
    | some p =>
      obtain ⟨⟨x, hx, hxp, hxe⟩, e', he', hid', hdepth'⟩ := hg.child e hmem p hp
      refine List.mem_flatMap.mpr ⟨x, List.mem_filter.mpr ⟨hx, decide_eq_true ?_⟩, hxe⟩
      exact ⟨e', he', hid'.trans hxp.symm, by omega⟩
  have hfew : ∀ x ∈ appliedAt s d, (x.effects.events.map EventRow.id).length ≤ 4 := by
    intro x hx
    rw [List.length_map]
    exact (hg.applied x (List.mem_of_mem_filter hx)).1
  calc level s (d + 1)
      = ((s.events.rows.filter fun e => e.depth = d + 1).map EventRow.id).length := by
        unfold level
        rw [List.length_map, List.countP_eq_length_filter]
    _ ≤ ((appliedAt s d).flatMap fun x => x.effects.events.map EventRow.id).length :=
        (List.subperm_of_subset hnodup hsubset).length_le
    _ ≤ 4 * (appliedAt s d).length := Levels.length_flatMap_le _ hfew
    _ ≤ 4 * (level s d * s.rules.rows.length) :=
        Nat.mul_le_mul_left 4 (length_appliedAt hs d)
    _ = 4 * s.rules.rows.length * level s d := by ring

theorem length_events_le (hs : Consistent s) (hg : Graded s) :
    s.events.rows.length ≤ roots s *
      ∑ d ∈ Finset.range (MAX_AUTOMATION_DEPTH + 1), (4 * s.rules.rows.length) ^ d := by
  have hsum : s.events.rows.length = ∑ d ∈ Finset.range (MAX_AUTOMATION_DEPTH + 1), level s d :=
    Levels.length_eq_sum_levels EventRow.depth _ s.events.rows
      fun e he => Nat.lt_succ_of_le (hg.depth e he)
  rw [hsum]
  exact (Levels.sum_levels_le (level_succ_le hs hg) _).trans
    (Nat.mul_le_mul_right _ (level_zero_le hg))

/-- A request of a user, or the job of the day. -/
def Local.request : Local → Bool
  | .called (.change _) | .changing _ => true
  | _ => false

theorem roots_of_shapes (h : s'.events.rows.map EventRow.shape = s.events.rows.map EventRow.shape) :
    roots s' = roots s := by
  have hcount : ∀ t : Store,
      roots t = (t.events.rows.map EventRow.shape).countP fun x => x.2.2.isNone := by
    intro t
    rw [List.countP_map]
    rfl
  rw [hcount, hcount, h]

theorem worker_roots (hs : Consistent s) (hk : Knows s l) (hl : Shallow s l)
    (hworker : l.request = false) (h : move texts a s l = some (s', l')) :
    roots s' = roots s ∧ s'.rules.rows.length = s.rules.rows.length := by
  rcases move_cases hs hk h with hq | ⟨job, ruleId, effects, rfl, hcommit⟩ | ⟨change, rfl, -⟩
  · exact ⟨roots_of_shapes hq.events, by rw [hq.rules]⟩
  · obtain ⟨hevents, -, hrules, -⟩ := commitRule_cases hcommit
    constructor
    · unfold roots
      rw [hevents, List.countP_append, Nat.add_eq_left, List.countP_eq_zero]
      intro e he
      rw [(hl.children job ruleId effects rfl).parent e he]
      exact Bool.false_ne_true
    · rw [hrules, Table.rows_update, List.length_map]
  · cases hworker

theorem rules_worker (n m : ℕ) : Rules (program texts) (fun _ l _ => l.request = false)
    (fun s => (Consistent s ∧ Graded s) ∧ roots s = n ∧ s.rules.rows.length = m)
    (fun s l => Knows s l ∧ Shallow s l) where
  enter s call hs := rules_graded.enter s call hs.1
  own s l a s' l' hs hl hworker hmove := by
    obtain ⟨hstore, hlocal⟩ := rules_graded.own s l a s' l' hs.1 hl trivial hmove
    obtain ⟨hroots, hrules⟩ := worker_roots hs.1.1 hl.1 hl.2 hworker hmove
    exact ⟨⟨hstore, hroots.trans hs.2.1, hrules.trans hs.2.2⟩, hlocal⟩
  other s l a s' l' m hs hl hm hclash hclash' hmove :=
    rules_graded.other s l a s' l' m hs.1 hl hm hclash hclash' hmove

theorem graded_empty : Graded Store.empty :=
  ⟨fun _ he => (by cases he), fun _ he => (by cases he), fun _ he => (by cases he),
    fun _ hx => (by cases hx), fun _ hr => (by cases hr)⟩

/-- **Cascades**: in every run events are at most five deep, no rule runs for one that is, what a
rule creates is the child of its event and one deeper, and as long as workers alone go on there is a
bound on the number of events, which depends on the roots and the number of rules. -/
theorem cascade_bounded (texts : Texts) (events : List (Event Call Action)) :
    let w := run (program texts) (World.closed Store.empty) events
    (∀ e ∈ w.store.events.rows, e.depth ≤ MAX_AUTOMATION_DEPTH) ∧
    (∀ e ∈ w.store.events.rows, e.depth = MAX_AUTOMATION_DEPTH →
      (∀ r ∈ w.store.runs.rows, r.eventId ≠ e.id) ∧
      ∀ (i : ℕ) l c, w.sessions[i]? = some l → l.executes = some c → c.id ≠ e.id) ∧
    (∀ x ∈ w.store.applied, ∃ p ∈ w.store.events.rows, p.id = x.eventId ∧
      ∀ e ∈ x.effects.events, e.parentEventId = some p.id ∧ e.depth = p.depth + 1) ∧
    (∀ e ∈ w.store.events.rows, ∀ p, e.parentEventId = some p →
      ∃ x ∈ w.store.applied, x.eventId = p ∧ e.id ∈ x.effects.events.map EventRow.id) ∧
    ∀ more, Runs.Guarded (step (program texts)) (World.Meets fun _ l _ => l.request = false) w more →
      (run (program texts) w more).store.events.rows.length ≤ roots w.store *
        ∑ d ∈ Finset.range (MAX_AUTOMATION_DEPTH + 1), (4 * w.store.rules.rows.length) ^ d := by
  intro w
  have hw : World.Holds (program texts) (fun s => Consistent s ∧ Graded s)
      (fun s l => Knows s l ∧ Shallow s l) w :=
    run_always rules_graded events (World.holds_closed ⟨consistent_empty, graded_empty⟩)
  obtain ⟨hs, hg⟩ := hw.store
  refine ⟨hg.depth, fun e he hdeep => ⟨fun r hr hid => ?_, fun i l c hl hc hid => ?_⟩,
    fun x hx => ?_, fun e he p hp => (hg.child e he p hp).1, fun more hmore => ?_⟩
  · obtain ⟨e', he', hid', hdepth⟩ := hg.runs r hr
    rw [Table.eq_of_mem he' he (hid'.trans hid), hdeep] at hdepth
    exact lt_irrefl _ hdepth
  · have hshallow := (hw.sessions i l hl).2
    obtain ⟨e', he', hid', hdepth⟩ := hshallow.traced c (candidates_of_executes hc)
    have hlt := hshallow.shallow c hc
    rw [← hdepth, Table.eq_of_mem he' he (hid'.trans hid), hdeep] at hlt
    exact lt_irrefl _ hlt
  · obtain ⟨-, p, hp, hid, -, hchildren⟩ := hg.applied x hx
    exact ⟨p, hp, hid, fun e he => hid ▸ hchildren e he⟩
  · have hmore := run_rules (rules_worker (roots w.store) w.store.rules.rows.length) more
      ⟨⟨⟨hs, hg⟩, rfl, rfl⟩, hw.sessions, hw.apart⟩ hmore
    obtain ⟨⟨hs', hg'⟩, hroots, hrules⟩ := hmore.store
    have hle := length_events_le hs' hg'
    rwa [hroots, hrules] at hle

theorem cascade_bounded_reclaimed :
    (run (program sampleTexts) (run (program sampleTexts) (World.closed Store.empty) requestEvents)
      workerEvents).store.events.rows.length ≤
        roots (run (program sampleTexts) (World.closed Store.empty) requestEvents).store *
          ∑ d ∈ Finset.range (MAX_AUTOMATION_DEPTH + 1), (4 *
            (run (program sampleTexts) (World.closed Store.empty)
              requestEvents).store.rules.rows.length) ^ d := by
  obtain ⟨-, -, -, -, hbound⟩ := cascade_bounded sampleTexts requestEvents
  exact hbound workerEvents (by decide +kernel)

/-! ### Jobs of the day -/

def dailyRule : RuleRow := { sampleRule with trigger := .scheduleDaily }

/-- A user saves a task and a rule for every day. -/
def dailyRequests : List (Event Call Action) :=
  [.enter (.change (.saveRule dailyRule)), .act 0 (.next {}), .act 0 (.next {}),
    .enter (.change (.saveTask sampleContext sampleTask [] (fun _ => 100) 0)),
    .act 1 (.next {}), .act 1 (.next {})]

/-- The first day of a year. -/
def newYear (k : ℕ) : String := s!"{1970 + k}-01-01"

def dayJob (k : ℕ) : Change := .enqueueDaily (newYear k) (fun _ => 100 + k) 0

/-- The job of a day, as the next session. -/
def dayEvents (k : ℕ) : List (Event Call Action) :=
  [.enter (.change (dayJob k)), .act (2 + k) (.next {}), .act (2 + k) (.next {})]

/-- The jobs of that many days, and nothing else. -/
def days (n : ℕ) : List (Event Call Action) := (List.range n).flatMap dayEvents

def dayRow (k : ℕ) : EventRow := dailyEvent (newYear k) sampleTask (100 + k) 0

theorem newYear_injective {j k : ℕ} (h : (dayRow j).deduplicationKey = (dayRow k).deduplicationKey) :
    j = k := by
  have h' : "schedule-daily/" ++ newYear j ++ "/task/" ++ toString sampleTask.id =
      "schedule-daily/" ++ newYear k ++ "/task/" ++ toString sampleTask.id := h
  rw [String.append_left_inj, String.append_left_inj, String.append_right_inj] at h'
  have hyear : (1970 + j).repr ++ "-01-01" = (1970 + k).repr ++ "-01-01" := h'
  rw [String.append_left_inj] at hyear
  have hdigits : Nat.toDigits 10 (1970 + j) = Nat.toDigits 10 (1970 + k) :=
    String.ofList_injective hyear
  have hsame : 1970 + j = 1970 + k := by
    rw [← Nat.ofDigitChars_ten_toDigits (n := 1970 + j), hdigits, Nat.ofDigitChars_ten_toDigits]
  exact Nat.add_left_cancel hsame

/-- What the days leave behind: one more event each. -/
structure AfterDays (n : ℕ) (w : World Store Local) : Prop where
  sessions : w.sessions.length = 2 + n
  tasks : w.store.tasks.rows = [sampleTask]
  rules : w.store.rules.rows = [dailyRule]
  events : w.store.events.rows = (List.range n).map dayRow

theorem afterDays_zero :
    AfterDays 0 (run (program sampleTexts) (World.closed Store.empty) dailyRequests) :=
  ⟨rfl, rfl, rfl, rfl⟩

theorem commitChange_dayJob {n : ℕ} {s : Store} (htasks : s.tasks.rows = [sampleTask])
    (hrules : s.rules.rows = [dailyRule]) (hevents : s.events.rows = (List.range n).map dayRow) :
    ∃ events : Table EventRow EventRow.id, commitChange (dayJob n) s = some { s with events } ∧
      events.rows = (List.range (n + 1)).map dayRow := by
  have hkey : (s.events.rows.any fun x => x.deduplicationKey = (dayRow n).deduplicationKey) = false := by
    rw [hevents, List.any_eq_false]
    intro x hx
    obtain ⟨k, hk, rfl⟩ := List.mem_map.mp hx
    rw [decide_eq_true_eq]
    exact fun h => (List.mem_range.mp hk).ne (newYear_injective h)
  have hid : s.events.find? (dayRow n).id = none := by
    rw [Table.find?_eq_none_iff, hevents]
    intro x hx
    obtain ⟨k, hk, rfl⟩ := List.mem_map.mp hx
    have hlt := List.mem_range.mp hk
    show 100 + k ≠ 100 + n
    omega
  have hdaily : dailyEvents (newYear n) (fun _ => 100 + n) 0 s = [dayRow n] := by
    unfold dailyEvents dailyTasks
    rw [htasks, hrules]
    show [dayRow n].filter (fun e => !s.events.rows.any fun x => x.deduplicationKey = e.deduplicationKey) =
      [dayRow n]
    rw [List.filter_cons_of_pos (by rw [hkey]; rfl)]
    rfl
  obtain ⟨events, hinsert⟩ : ∃ events, s.events.insert? (dayRow n) = some events := by
    cases hcase : s.events.insert? (dayRow n) with
    | some events => exact ⟨events, rfl⟩
    | none =>
      obtain ⟨x, hx⟩ := Table.insert?_eq_none hcase
      cases hid.symm.trans hx
  refine ⟨events, ?_, ?_⟩
  · show (insertEvents? (dailyEvents (newYear n) (fun _ => 100 + n) 0 s) s.events).map _ = _
    rw [hdaily]
    unfold insertEvents?
    rw [hkey, if_neg Bool.false_ne_true, hinsert]
    rfl
  · rw [(Table.insert?_eq_some hinsert).2, hevents, List.range_succ, List.map_append]
    rfl

theorem afterDays_succ {n : ℕ} {w : World Store Local} (h : AfterDays n w) :
    AfterDays (n + 1) (run (program sampleTexts) w (dayEvents n)) := by
  obtain ⟨events, hcommit, hrows⟩ := commitChange_dayJob h.tasks h.rules h.events
  let w₁ : World Store Local := ⟨w.store, w.sessions ++ [.called (.change (dayJob n))]⟩
  have hcalled : w₁.sessions[2 + n]? = some (.called (.change (dayJob n))) := by
    rw [← h.sessions]
    exact List.getElem?_concat_length
  let w₂ : World Store Local := ⟨w.store, w₁.sessions.set (2 + n) (.changing (dayJob n))⟩
  have hchanging : w₂.sessions[2 + n]? = some (.changing (dayJob n)) :=
    List.getElem?_set_self (List.getElem?_eq_some_iff.mp hcalled).1
  have hlock : step (program sampleTexts) (.act (2 + n) (.next {})) w₁ = .ok w₂ :=
    step_of_move hcalled rfl rfl
  have hmove : (program sampleTexts).move (.next {}) w₂.store (.changing (dayJob n)) =
      some ({ w.store with events }, .stopped) := by
    show (commitChange (dayJob n) w.store).map _ = _
    rw [hcommit]
    rfl
  have hwrite : step (program sampleTexts) (.act (2 + n) (.next {})) w₂ =
      .ok ⟨{ w.store with events }, w₂.sessions.set (2 + n) .stopped⟩ :=
    step_of_move hchanging hmove rfl
  have hrun : run (program sampleTexts) w (dayEvents n) =
      ⟨{ w.store with events }, w₂.sessions.set (2 + n) .stopped⟩ := by
    show Runs.exec _ (Runs.exec _ w₁ _) _ = _
    rw [Runs.exec_of_ok hlock, Runs.exec_of_ok hwrite]
  rw [hrun]
  refine ⟨?_, h.tasks, h.rules, hrows⟩
  rw [List.length_set, List.length_set, List.length_append, h.sessions]
  rfl

theorem afterDays (n : ℕ) : AfterDays n (run (program sampleTexts)
    (run (program sampleTexts) (World.closed Store.empty) dailyRequests) (days n)) := by
  induction n with
  | zero => exact afterDays_zero
  | succ n ih =>
    have hsplit : days (n + 1) = days n ++ dayEvents n := by
      unfold days
      rw [List.range_succ, List.flatMap_append, List.flatMap_singleton]
    rw [hsplit, run_append]
    exact afterDays_succ ih

/-- One task, one rule and no further change of a user, but an event every day. -/
theorem daily_unbounded :
    (run (program sampleTexts) (World.closed Store.empty) dailyRequests).store.rules.rows = [dailyRule] ∧
    ∀ n, (run (program sampleTexts)
      (run (program sampleTexts) (World.closed Store.empty) dailyRequests)
      (days n)).store.events.rows.length = n := by
  refine ⟨afterDays_zero.rules, fun n => ?_⟩
  rw [(afterDays n).events, List.length_map, List.length_range]

end CalmBoard.Automations
