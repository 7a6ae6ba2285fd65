import Mathlib.Data.List.Perm.Subperm
import Mathlib.Data.String.Basic
import CalmBoard.Lib.Fallible
import CalmBoard.Queues.Stranded

/-!
# CalmBoard.Queues.DeadLetters — dead work, listed and retried

* `listDeadLetters`, `retryDeadLetterRow`, `retryAllDeadLetters`: the functions of the database.
* `bounded_of_run`: in every run an attempt is one of those permitted.
* `recoverable_iff`: when all dead work is listed and can be retried.
* `invitation_lost`: a dead invitation e-mail.
-/

namespace CalmBoard.Queues

open Queue Sessions Fallible

/-- A branch of the two unions: the table, its name there, and what is shown of its queue. -/
structure DeadLetterSource where
  table : Source
  source : String
  queue : String
  jobName : String
  deriving DecidableEq

/-- The branches of `list_dead_letters` and of `retry_dead_letter`. -/
def deadLetterSources : List DeadLetterSource :=
  [⟨.notificationEmail, "notification_email", "notification-email", "DeliverNotificationEmail"⟩,
   ⟨.authEmail, "auth_email", "authentication-email", "DeliverAuthenticationEmail"⟩,
   ⟨.automationEvent, "automation_event", "automation-events", "ProcessAutomationEvent"⟩,
   ⟨.workspaceExport, "workspace_export", "workspace-exports", "BuildWorkspaceExport"⟩,
   ⟨.formTaskCreation, "form_task_creation", "form-submissions", "CreateTaskFromFormResponse"⟩]

/-- What the functions read besides the rows: whether the actor is a platform administrator, and
`updated_at`. -/
structure Details where
  platformAdmin : Bool := true
  updatedAt : Source × Uuid → ℤ

/-- A row of `list_dead_letters`. -/
structure DeadLetter where
  source : String
  sourceId : Uuid
  queue : String
  jobName : String
  attempts : ℕ
  maxAttempts : ℕ
  failedAt : ℤ

def Work.dead (r : Work) : Bool :=
  match r.lease.status with
  | .dead => true
  | _ => false

/-- `outbox.updated_at`; a form response has `task_creation_available_at`. -/
def Details.failedAt (d : Details) (r : Work) : ℤ :=
  match r.source with
  | .formTaskCreation => r.lease.availableAt
  | _ => d.updatedAt r.key

/-- The row of the union for a row of its table. -/
def Details.letter? (d : Details) (r : Work) : Option DeadLetter :=
  if r.dead then
    (deadLetterSources.find? fun b => b.table = r.source).map fun b =>
      { source := b.source, sourceId := r.id, queue := b.queue, jobName := b.jobName
        attempts := r.lease.attempts, maxAttempts := r.lease.maxAttempts, failedAt := d.failedAt r }
  else none

/-- `order by failed_at desc, source, source_id` -/
def letterOrder (a b : DeadLetter) : Bool :=
  decide (toLex (-a.failedAt, toLex (a.source, a.sourceId)) ≤
    toLex (-b.failedAt, toLex (b.source, b.sourceId)))

/-- `least(greatest(coalesce(requested_limit, 100), 1), 500)` -/
def letterLimit (requestedLimit : Option ℤ) : ℕ := (min (max (requestedLimit.getD 100) 1) 500).toNat

def listDeadLetters (d : Details) (requestedLimit : Option ℤ) (s : Tables) :
    Except String (List DeadLetter) := do
  if ¬ d.platformAdmin then throw "Platform administrator access is required"
  return ((s.rows.filterMap d.letter?).mergeSort letterOrder).take (letterLimit requestedLimit)

/-- The guards of an update that reopens a dead row let an administrator raise the limit of attempts and
go back to `pending`; `validate_export_job` compares the format with that of the report schedule again.
No organization is taken to be under a write freeze, in which every update raises. -/
def Tables.validateUpdate (s : Tables) (r : Work) : Except String Unit :=
  if ¬ s.accepts r then throw "Scheduled export does not match its report schedule"
  else return ()

def retryDeadLetterRow (d : Details) (now : ℤ) (requestedSource : String) (requestedId : Uuid)
    (s : Tables) : Except String (Tables × Bool) :=
  if ¬ d.platformAdmin then throw "Platform administrator access is required"
  else
    match deadLetterSources.find? fun b => b.source = requestedSource with
    | none => throw "Unsupported dead-letter source"
    | some b =>
      match (s.find? (b.table, requestedId)).filter Work.dead with
      | none => return (s, false)
      | some r => do
        s.validateUpdate r
        return (s.withRows (s.put (r.retried now)), true)

/-- The body of the loop of `retry_all_dead_letters`, with `changed`. -/
def retryEntry (d : Details) (now : ℤ) (x : Tables × ℕ) (entry : DeadLetter) :
    Except String (Tables × ℕ) := do
  let (s, retried) ← retryDeadLetterRow d now entry.source entry.sourceId x.1
  return (s, if retried then x.2 + 1 else x.2)

def retryAllDeadLetters (d : Details) (now : ℤ) (s : Tables) : Except String (Tables × ℕ) := do
  let entries ← listDeadLetters d (some 500) s
  entries.foldlM (retryEntry d now) (s, 0)

/-! ### Rows of a run -/

variable {s s' : Tables} {r r' : Work} {d : Details} {now : ℤ} {e : DeadLetter}
  {listed : List DeadLetter} {key : Source × Uuid}

/-- What the rows keep: the claims are sound, and no more of them than permitted. -/
structure Bounded (s : Tables) : Prop where
  sound : ∀ r ∈ s.rows, r.Sound
  attempts : ∀ r ∈ s.rows, r.lease.attempts ≤ r.lease.maxAttempts

theorem attempts_of_fate {a : Action} {l l' : Local} (h : Fate a l l' r r')
    (hr : r.lease.attempts ≤ r.lease.maxAttempts) : r'.lease.attempts ≤ r'.lease.maxAttempts := by
  cases h with
  | stays => exact hr
  | claimed options now token hc =>
    have hlive := not_exhausted_of_claimable hc
    unfold Work.exhausted at hlive
    rw [decide_eq_false_iff_not] at hlive
    show r.lease.attempts + 1 ≤ r.lease.maxAttempts
    omega
  | finished => exact hr
  | released source c now =>
    unfold Work.released release
    split <;> exact hr
  | retried now hdead =>
    unfold Work.retried retry
    rw [hdead]
    show r.lease.attempts ≤ r.lease.maxAttempts + 5
    omega

theorem bounded_of_step {w w' : World Tables Local} {e : Event Call Action} (h : Bounded w.store)
    (hok : Sessions.step program e w = .ok w') : Bounded w'.store := by
  cases e with
  | enter call =>
    cases hok
    exact h
  | act i a =>
    obtain ⟨l, l', s, hl, hmove, -, rfl⟩ := step_act hok
    refine ⟨fun x hx => sound_of_comes h.sound (move_rows hmove hx), fun x hx => ?_⟩
    rcases move_rows hmove hx with ⟨r, hr, -, hfate, -⟩ | ⟨-, -, source, id, now, scheduled, rfl⟩
    · exact attempts_of_fate hfate (h.attempts r hr)
    · exact Nat.zero_le _

theorem bounded_of_run (events : List (Event Call Action)) :
    Bounded (run program (World.closed Tables.empty) events).store :=
  Runs.run_invariant (I := fun w => Bounded (World.store w)) (fun _ _ _ hw hok => bounded_of_step hw hok)
    events _ ⟨fun _ hr => (by cases hr), fun _ hr => (by cases hr)⟩

/-! ### The list -/

variable {limit : Option ℤ}

/-- The row that a letter is about. -/
def DeadLetter.key? (e : DeadLetter) : Option (Source × Uuid) :=
  (deadLetterSources.find? fun b => b.source = e.source).map fun b => (b.table, e.sourceId)

theorem dead_iff : r.dead = true ↔ r.lease.status = .dead := by
  unfold Work.dead
  split
  · next h => exact iff_of_true rfl h
  · next h => exact iff_of_false Bool.false_ne_true h

theorem letter?_eq_some_iff : (∃ e, d.letter? r = some e) ↔
    r.dead = true ∧ r.source ≠ .invitationEmail := by
  unfold Details.letter?
  cases r.dead with
  | false => simp
  | true => cases r.source <;> simp [deadLetterSources]

theorem key?_of_letter (h : d.letter? r = some e) :
    e.key? = some r.key ∧ r.dead = true ∧ r.source ≠ .invitationEmail := by
  refine ⟨?_, letter?_eq_some_iff.mp ⟨e, h⟩⟩
  unfold Details.letter? at h
  split at h
  · obtain ⟨b, hb, rfl⟩ := Option.map_eq_some_iff.mp h
    have htable : b.table = r.source := by simpa using List.find?_some hb
    have hsource : ∀ b ∈ deadLetterSources,
        (deadLetterSources.find? fun b' => b'.source = b.source) = some b := by decide
    unfold DeadLetter.key?
    dsimp only
    rw [hsource b (List.mem_of_find?_eq_some hb)]
    show some (b.table, r.id) = some (r.source, r.id)
    rw [htable]
  · cases h

/-- All letters, before they are sorted and cut off. -/
def Details.letters (d : Details) (s : Tables) : List DeadLetter := s.rows.filterMap d.letter?

theorem mem_letters : e ∈ d.letters s ↔ ∃ r ∈ s.rows, d.letter? r = some e := List.mem_filterMap

theorem pairwise_letters (d : Details) (s : Tables) :
    (d.letters s).Pairwise fun e e' => e.key? ≠ e'.key? := by
  refine List.pairwise_filterMap.mpr ((List.pairwise_map.mp s.nodup).imp ?_)
  intro r r' hne e he e' he' heq
  rw [(key?_of_letter he).1, (key?_of_letter he').1] at heq
  exact hne (Option.some.inj heq)

theorem listDeadLetters_ok (h : listDeadLetters d limit s = .ok listed) :
    d.platformAdmin = true ∧
      listed = ((d.letters s).mergeSort letterOrder).take (letterLimit limit) := by
  unfold listDeadLetters at h
  obtain ⟨hadmin, h⟩ := guard_ok.mp h
  exact ⟨not_not.mp hadmin, (pure_ok.mp h).symm⟩

theorem listDeadLetters_of_admin (hadmin : d.platformAdmin = true) (limit : Option ℤ) (s : Tables) :
    listDeadLetters d limit s =
      .ok (((d.letters s).mergeSort letterOrder).take (letterLimit limit)) := by
  unfold listDeadLetters
  rw [if_neg (not_not.mpr hadmin)]
  rfl

theorem mem_letters_of_listed (h : listDeadLetters d limit s = .ok listed) (he : e ∈ listed) :
    e ∈ d.letters s := by
  obtain ⟨-, rfl⟩ := listDeadLetters_ok h
  exact List.mem_mergeSort.mp (List.mem_of_mem_take he)

theorem letter?_of_listed (h : listDeadLetters d limit s = .ok listed) (he : e ∈ listed)
    (hr : r ∈ s.rows) (hkey : e.key? = some r.key) : d.letter? r = some e := by
  obtain ⟨q, hq, hletter⟩ := mem_letters.mp (mem_letters_of_listed h he)
  rw [(key?_of_letter hletter).1] at hkey
  rwa [← Table.eq_of_mem hq hr (Option.some.inj hkey)]

theorem letterLimit_le (limit : Option ℤ) : letterLimit limit ≤ 500 := by
  unfold letterLimit
  omega

/-! ### Retries -/

theorem validateUpdate_ok_iff : s.validateUpdate r = .ok () ↔ s.accepts r = true := by
  unfold Tables.validateUpdate
  rw [guard_ok, not_not]
  exact and_iff_left rfl

/-- The next claim of its worker may take the row, and the trigger lets it. -/
def Reclaimable (now : ℤ) (s : Tables) (key : Source × Uuid) : Prop :=
  ∃ r, s.find? key = some r ∧ s.accepts r = true ∧
    ∀ options later, now ≤ later → r.claimable options later = true

theorem claimable_retried {options : Options} {later : ℤ} (hsound : r.Sound)
    (hattempts : r.lease.attempts ≤ r.lease.maxAttempts) (hdead : r.dead = true)
    (hlater : now ≤ later) : (r.retried now).claimable options later = true := by
  have hstatus := dead_iff.mp hdead
  have hpayload : r.payload = true := by
    rcases hsound.payload with hp | ⟨outcome, hclosed⟩
    · exact hp
    · rw [hclosed] at hstatus
      cases hstatus
  refine claimable_iff.mpr ⟨?_, Or.inr hpayload⟩
  unfold Work.retried retry Queue.claimable
  rw [hstatus]
  simp only [Bool.and_eq_true, Bool.or_eq_true, decide_eq_true_eq]
  refine ⟨⟨?_, hlater⟩, Or.inl rfl⟩
  omega

/-- A dead row of `s` that is still there can be claimed once it has been retried. -/
theorem reclaimable_put (hs : Bounded s) (hr : r ∈ s.rows) (hdead : r.dead = true)
    (hfind : s'.find? r.key = some r) (hpass : s'.accepts r = true) :
    Reclaimable now (s'.withRows (s'.put (r.retried now))) r.key := by
  have hold : s'.find? (r.retried now).key = some r := hfind
  refine ⟨r.retried now, (Table.find?_put hold r.key).trans (if_pos rfl),
    (accepts_congr rfl rfl).trans hpass, fun options later hlater => ?_⟩
  exact claimable_retried (hs.sound r hr) (hs.attempts r hr) hdead hlater

theorem retry_ok_iff (hadmin : d.platformAdmin = true) (hkey : e.key? = some r.key)
    (hfind : s.find? r.key = some r) (hdead : r.dead = true) {x : Tables × Bool} :
    retryDeadLetterRow d now e.source e.sourceId s = .ok x ↔
      s.accepts r = true ∧ x = (s.withRows (s.put (r.retried now)), true) := by
  obtain ⟨b, hb, hkey⟩ := Option.map_eq_some_iff.mp hkey
  have htable : b.table = r.source := congrArg Prod.fst hkey
  have hid : e.sourceId = r.id := congrArg Prod.snd hkey
  have hrow : (s.find? (b.table, e.sourceId)).filter Work.dead = some r := by
    rw [hkey, hfind]
    exact Option.filter_eq_some_iff.mpr ⟨rfl, hdead⟩
  unfold retryDeadLetterRow
  rw [if_neg (not_not.mpr hadmin), hb]
  simp only [hrow]
  rw [then_ok, pure_ok, validateUpdate_ok_iff]
  exact and_congr_right fun _ => eq_comm

theorem find?_of_retry {x : Tables × Bool} (h : retryDeadLetterRow d now e.source e.sourceId s = .ok x)
    (hne : e.key? ≠ some key) : x.1.find? key = s.find? key := by
  unfold retryDeadLetterRow at h
  split at h
  · cases h
  · split at h
    · cases h
    · next b hb =>
      split at h
      · cases h
        rfl
      · next r hr =>
        obtain ⟨-, h⟩ := then_ok.mp h
        cases h
        refine Table.find?_put_of_ne fun heq => hne ?_
        have hrow : r.key = (b.table, e.sourceId) :=
          Table.key_of_find? (Option.filter_eq_some_iff.mp hr).1
        unfold DeadLetter.key?
        rw [hb, ← heq, r.retried_key now, hrow]
        rfl

theorem formats_of_retry {source : String} {id : Uuid} {x : Tables × Bool}
    (h : retryDeadLetterRow d now source id s = .ok x) : x.1.scheduleFormat = s.scheduleFormat := by
  unfold retryDeadLetterRow at h
  split at h
  · cases h
  · split at h
    · cases h
    · split at h
      · cases h
        rfl
      · obtain ⟨-, h⟩ := then_ok.mp h
        cases h
        rfl

/-- **One**: a retry that returns is that of the runs. -/
theorem move_of_retry {b : DeadLetterSource} {source : String} {id : Uuid} {x : Tables × Bool}
    (hb : (deadLetterSources.find? fun b => b.source = source) = some b)
    (h : retryDeadLetterRow d now source id s = .ok x) :
    move (.perform now) s (.called (.retryDeadLetter b.table id)) = some (x.1, .stopped) := by
  have hretried : ∀ b ∈ deadLetterSources, b.table.table.retried = true := by decide
  have hsame : ∀ table, s.toTable.update (fun r => r.key = (b.table, id)) (Work.retried now)
      (Work.retried_key now) = table → (∀ r, s.find? (b.table, id) = some r →
        r.lease.status ≠ .dead ∨ s.accepts r = true) →
      move (.perform now) s (.called (.retryDeadLetter b.table id)) =
        some (s.withRows table, .stopped) := by
    rintro table rfl hpass
    have hall : (s.find? (b.table, id)).all
        (fun r => r.lease.status ≠ .dead || s.accepts r) = true := by
      simpa [Option.all_eq_true] using hpass
    unfold move
    simp only [hall, if_true, retryDeadLetter, hretried b (List.mem_of_find?_eq_some hb)]
    rfl
  unfold retryDeadLetterRow at h
  split at h
  · cases h
  · rw [hb] at h
    dsimp only at h
    cases hrow : (s.find? (b.table, id)).filter Work.dead with
    | none =>
      rw [hrow] at h
      cases h
      have halive : ∀ r, s.find? (b.table, id) = some r → r.lease.status ≠ .dead := by
        intro r hr hdead
        rw [hr, Option.filter_some, if_pos (dead_iff.mpr hdead)] at hrow
        cases hrow
      refine hsame s.toTable (Table.ext_rows ?_) fun r hr => Or.inl (halive r hr)
      refine (List.map_congr_left fun r hr => ?_).trans (List.map_id _)
      split
      · next hkey =>
        have hfind := Table.find?_of_mem hr
        rw [of_decide_eq_true hkey] at hfind
        unfold Work.retried retry
        split
        · next hdead => exact absurd hdead (halive r hfind)
        · rfl
      · rfl
    | some r =>
      obtain ⟨hfind, hdead⟩ := Option.filter_eq_some_iff.mp hrow
      rw [hrow] at h
      obtain ⟨hpass, h⟩ := then_ok.mp h
      cases h
      have hkey : r.key = (b.table, id) := Table.key_of_find? hfind
      refine hsame _ (Table.ext_rows ?_) fun q hq => ?_
      · rw [Table.rows_put]
        refine List.map_congr_left fun q hq => ?_
        rw [r.retried_key now, hkey]
        by_cases hqkey : q.key = (b.table, id)
        · rw [if_pos (decide_eq_true hqkey), if_pos hqkey,
            Table.eq_of_mem hq (Table.mem_of_find? hfind) (hqkey.trans hkey.symm)]
        · rw [if_neg (by simpa using hqkey), if_neg hqkey]
      · rw [hfind] at hq
        cases hq
        exact Or.inr (validateUpdate_ok_iff.mp hpass)

/-! ### All at once -/

/-- The dead row of a letter is as it was at the start, and so are the formats. -/
def Untouched (s : Tables) (x : Tables × ℕ) (e : DeadLetter) : Prop :=
  x.1.scheduleFormat = s.scheduleFormat ∧
    ∃ r ∈ s.rows, e.key? = some r.key ∧ r.dead = true ∧ x.1.find? r.key = some r

def Accepted (s : Tables) (e : DeadLetter) : Prop :=
  ∀ r ∈ s.rows, e.key? = some r.key → s.accepts r = true

theorem retryEntry_ok {x y : Tables × ℕ} (h : retryEntry d now x e = .ok y) :
    ∃ z, retryDeadLetterRow d now e.source e.sourceId x.1 = .ok z ∧ y.1 = z.1 := by
  obtain ⟨z, hz, h⟩ := bind_ok.mp h
  cases h
  exact ⟨z, hz, rfl⟩

theorem retryEntry_ok_iff (hadmin : d.platformAdmin = true) {x : Tables × ℕ} (h : Untouched s x e) :
    (∃ y, retryEntry d now x e = .ok y) ↔ Accepted s e := by
  obtain ⟨hformats, r, hr, hkey, hdead, hfind⟩ := h
  have hsame : Accepted s e ↔ x.1.accepts r = true := by
    rw [accepts_congr rfl hformats]
    refine ⟨fun ha => ha r hr hkey, fun ha q hq hq' => ?_⟩
    rw [hkey] at hq'
    rwa [← Table.eq_of_mem hr hq (Option.some.inj hq')]
  rw [hsame]
  constructor
  · rintro ⟨y, hy⟩
    obtain ⟨z, hz, -⟩ := retryEntry_ok hy
    exact ((retry_ok_iff hadmin hkey hfind hdead).mp hz).1
  · intro ha
    have hz : retryDeadLetterRow d now e.source e.sourceId x.1 =
        .ok (x.1.withRows (x.1.put (r.retried now)), true) :=
      (retry_ok_iff hadmin hkey hfind hdead).mpr ⟨ha, rfl⟩
    exact ⟨_, bind_ok.mpr ⟨_, hz, rfl⟩⟩

theorem Untouched.step {x y : Tables × ℕ} {e' : DeadLetter} (h : Untouched s x e)
    (hne : e'.key? ≠ e.key?) (hy : retryEntry d now x e' = .ok y) : Untouched s y e := by
  obtain ⟨hformats, r, hr, hkey, hdead, hfind⟩ := h
  obtain ⟨z, hz, hsame⟩ := retryEntry_ok hy
  refine ⟨?_, r, hr, hkey, hdead, ?_⟩
  · rw [hsame, formats_of_retry hz, hformats]
  · rw [hsame, find?_of_retry hz (hkey ▸ hne), hfind]

theorem reclaimable_of_retryEntry (hadmin : d.platformAdmin = true) (hs : Bounded s)
    {x y : Tables × ℕ} (h : Untouched s x e) (hy : retryEntry d now x e = .ok y) :
    ∀ key, e.key? = some key → Reclaimable now y.1 key := by
  obtain ⟨-, r, hr, hkey, hdead, hfind⟩ := h
  obtain ⟨z, hz, hsame⟩ := retryEntry_ok hy
  intro key hkey'
  rw [hkey] at hkey'
  cases hkey'
  obtain ⟨hpass, hz⟩ := (retry_ok_iff hadmin hkey hfind hdead).mp hz
  rw [hsame, hz]
  exact reclaimable_put hs hr hdead hfind hpass

/-- **All**: the loop goes through exactly when every letter is accepted, and then every one of them has
been retried. -/
theorem retryAll_ok_iff (hadmin : d.platformAdmin = true) (hs : Bounded s)
    (hlisted : listDeadLetters d (some 500) s = .ok listed) :
    ((∃ y, retryAllDeadLetters d now s = .ok y) ↔ ∀ e ∈ listed, Accepted s e) ∧
      ∀ y, retryAllDeadLetters d now s = .ok y →
        ∀ e ∈ listed, ∀ key, e.key? = some key → Reclaimable now y.1 key := by
  have huntouched : ∀ e ∈ listed, Untouched s (s, 0) e := by
    intro e he
    obtain ⟨r, hr, hletter⟩ := mem_letters.mp (mem_letters_of_listed hlisted he)
    obtain ⟨hkey, hdead, -⟩ := key?_of_letter hletter
    exact ⟨rfl, r, hr, hkey, hdead, Table.find?_of_mem hr⟩
  have hapart : listed.Pairwise fun e e' => e.key? ≠ e'.key? := by
    obtain ⟨-, rfl⟩ := listDeadLetters_ok hlisted
    have hsorted : ((d.letters s).mergeSort letterOrder).Pairwise fun e e' => e.key? ≠ e'.key? :=
      (List.mergeSort_perm _ letterOrder).symm.pairwise (pairwise_letters d s) Ne.symm
    exact hsorted.sublist (List.take_sublist ..)
  have hloop : ∀ y, retryAllDeadLetters d now s = .ok y ↔
      listed.foldlM (retryEntry d now) (s, 0) = .ok y := by
    intro y
    unfold retryAllDeadLetters
    rw [hlisted]
    rfl
  have hstep : ∀ x e, Untouched s x e → ((∃ y, retryEntry d now x e = .ok y) ↔ Accepted s e) :=
    fun x e hx => retryEntry_ok_iff hadmin hx
  have hkeep : ∀ x (e e' : DeadLetter) y, e'.key? ≠ e.key? → Untouched s x e →
      retryEntry d now x e' = .ok y → Untouched s y e :=
    fun x e e' y hne hx hy => hx.step hne hy
  constructor
  · simp only [hloop]
    exact foldlM_ok_iff hstep hkeep (fun _ _ _ _ _ _ _ => Iff.rfl) hapart huntouched
  · intro y hy
    have hdone : ∀ x e t, Untouched s x e → retryEntry d now x e = .ok t →
        ∀ key, e.key? = some key → Reclaimable now t.1 key :=
      fun x e t hx ht => reclaimable_of_retryEntry hadmin hs hx ht
    have hafter : ∀ x (e e' : DeadLetter) t, e.key? ≠ e'.key? →
        (∀ key, e.key? = some key → Reclaimable now x.1 key) → retryEntry d now x e' = .ok t →
        ∀ key, e.key? = some key → Reclaimable now t.1 key := by
      intro x e e' t hne hx ht key hkey
      obtain ⟨z, hz, hsame⟩ := retryEntry_ok ht
      obtain ⟨r, hr, hpass, hclaimable⟩ := hx key hkey
      refine ⟨r, ?_, ?_, hclaimable⟩
      · rw [hsame, find?_of_retry hz fun heq => hne (hkey.trans heq.symm), hr]
      · rw [hsame, accepts_congr rfl (formats_of_retry hz), hpass]
    exact foldlM_each hdone hkeep hafter hapart ((hloop y).mp hy) huntouched

/-! ### Everything that is dead -/

/-- Dead work is listed, each row of it can be retried, and all of them at once. -/
structure Recoverable (d : Details) (now : ℤ) (s : Tables) : Prop where
  each : ∃ limit listed, listDeadLetters d limit s = .ok listed ∧
    ∀ r ∈ s.rows, r.lease.status = .dead → ∃ e ∈ listed, e.key? = some r.key ∧
      ∃ s', retryDeadLetterRow d now e.source e.sourceId s = .ok (s', true) ∧
        Reclaimable now s' r.key
  all : ∃ listed s' changed, listDeadLetters d (some 500) s = .ok listed ∧
    retryAllDeadLetters d now s = .ok (s', changed) ∧
    ∀ e ∈ listed, ∀ key, e.key? = some key → Reclaimable now s' key

theorem length_letters_le (d : Details) (s : Tables) :
    (d.letters s).length ≤ (s.rows.filter Work.dead).length := by
  unfold Details.letters
  rw [List.length_filterMap_eq_countP, ← List.countP_eq_length_filter]
  refine List.countP_mono_left fun r _ hletter => ?_
  exact (letter?_eq_some_iff.mp (Option.isSome_iff_exists.mp hletter)).1

theorem listed_all (hadmin : d.platformAdmin = true)
    (hfew : (s.rows.filter Work.dead).length ≤ 500) :
    listDeadLetters d (some 500) s = .ok ((d.letters s).mergeSort letterOrder) := by
  have hshort : ((d.letters s).mergeSort letterOrder).length ≤ 500 := by
    rw [List.length_mergeSort]
    exact (length_letters_le d s).trans hfew
  rw [listDeadLetters_of_admin hadmin, show letterLimit (some 500) = 500 from rfl,
    List.take_of_length_le hshort]

theorem few_of_listed (hlisted : listDeadLetters d limit s = .ok listed)
    (h : ∀ r ∈ s.rows, r.lease.status = .dead → ∃ e ∈ listed, e.key? = some r.key) :
    (s.rows.filter Work.dead).length ≤ 500 := by
  have hnodup : ((s.rows.filter Work.dead).map Work.key).Nodup :=
    s.nodup.sublist (List.filter_sublist.map _)
  have hsub : (s.rows.filter Work.dead).map Work.key ⊆ listed.filterMap DeadLetter.key? := by
    intro key hkey
    obtain ⟨r, hr, rfl⟩ := List.mem_map.mp hkey
    obtain ⟨hr, hdead⟩ := List.mem_filter.mp hr
    obtain ⟨e, he, hkey⟩ := h r hr (dead_iff.mp hdead)
    exact List.mem_filterMap.mpr ⟨e, he, hkey⟩
  obtain ⟨-, rfl⟩ := listDeadLetters_ok hlisted
  calc (s.rows.filter Work.dead).length = ((s.rows.filter Work.dead).map Work.key).length :=
        (List.length_map _).symm
    _ ≤ _ := (List.subperm_of_subset hnodup hsub).length_le
    _ ≤ _ := List.length_filterMap_le _ _
    _ ≤ letterLimit limit := List.length_take_le _ _
    _ ≤ 500 := letterLimit_le limit

/-- **Dead work can be recovered** by a platform administrator, as long as there are at most 500 rows of
it, no invitation e-mail among them, and no export whose schedule has been given another format. -/
theorem recoverable_iff (events : List (Event Call Action)) (d : Details) (now : ℤ) :
    Recoverable d now (run program (World.closed Tables.empty) events).store ↔
      d.platformAdmin = true ∧
        (∀ r ∈ (run program (World.closed Tables.empty) events).store.rows, r.lease.status = .dead →
          r.source ≠ .invitationEmail ∧
            (run program (World.closed Tables.empty) events).store.accepts r = true) ∧
        ((run program (World.closed Tables.empty) events).store.rows.filter Work.dead).length ≤ 500 := by
  have hs := bounded_of_run events
  generalize (run program (World.closed Tables.empty) events).store = s at hs ⊢
  constructor
  · rintro ⟨⟨limit, listed, hlisted, heach⟩, -⟩
    have hadmin := (listDeadLetters_ok hlisted).1
    refine ⟨hadmin, fun r hr hdead => ?_, few_of_listed hlisted fun r hr hdead => ?_⟩
    · obtain ⟨e, he, hkey, s', hretry, -⟩ := heach r hr hdead
      have hretry := (retry_ok_iff hadmin hkey (Table.find?_of_mem hr) (dead_iff.mpr hdead)).mp hretry
      exact ⟨(key?_of_letter (letter?_of_listed hlisted he hr hkey)).2.2, hretry.1⟩
    · obtain ⟨e, he, hkey, -⟩ := heach r hr hdead
      exact ⟨e, he, hkey⟩
  · rintro ⟨hadmin, hrows, hfew⟩
    have hlisted := listed_all hadmin hfew
    have haccepted : ∀ e ∈ (d.letters s).mergeSort letterOrder, Accepted s e := by
      intro e he r hr hkey
      have hdead := (key?_of_letter (letter?_of_listed hlisted he hr hkey)).2.1
      exact (hrows r hr (dead_iff.mp hdead)).2
    constructor
    · refine ⟨some 500, _, hlisted, fun r hr hdead => ?_⟩
      obtain ⟨hsource, hpass⟩ := hrows r hr hdead
      obtain ⟨e, hletter⟩ : ∃ e, d.letter? r = some e :=
        letter?_eq_some_iff.mpr ⟨dead_iff.mpr hdead, hsource⟩
      have hkey := (key?_of_letter hletter).1
      have hfind := Table.find?_of_mem hr
      refine ⟨e, List.mem_mergeSort.mpr (mem_letters.mpr ⟨r, hr, hletter⟩), hkey,
        s.withRows (s.put (r.retried now)), ?_,
        reclaimable_put hs hr (dead_iff.mpr hdead) hfind hpass⟩
      exact (retry_ok_iff hadmin hkey hfind (dead_iff.mpr hdead)).mpr ⟨hpass, rfl⟩
    · obtain ⟨hruns, hdone⟩ := retryAll_ok_iff hadmin hs hlisted
      obtain ⟨⟨s', changed⟩, hall⟩ := hruns.mpr haccepted
      exact ⟨_, s', changed, hlisted, hall, hdone _ hall⟩

/-! An invitation that cannot be delivered in eight attempts. -/

/-- A worker comes, claims at the time `10000000 * n` and fails. -/
def failureEvents (n : ℕ) : List (Event Call Action) :=
  [.enter (.work .invitationEmail sampleOptions),
    .act n (.claim (10000000 * n) [] fun _ => 100 + n), .act n (.release (10000000 * n + 1))]

def invitationEvents : List (Event Call Action) :=
  [.enter (.enqueue .invitationEmail 1), .act 0 (.perform 0)] ++
    (List.range 8).flatMap fun n => failureEvents (n + 1)

def sampleDetails : Details := { updatedAt := fun _ => 80000001 }

theorem invitation_lost :
    ¬ Recoverable sampleDetails 90000000
      (run program (World.closed Tables.empty) invitationEvents).store := by
  rintro ⟨⟨limit, listed, hlisted, heach⟩, -⟩
  have hrow : ∃ r ∈ (run program (World.closed Tables.empty) invitationEvents).store.rows,
      r.lease.status = .dead ∧ r.source = .invitationEmail := by
    decide +kernel
  obtain ⟨r, hr, hdead, hsource⟩ := hrow
  obtain ⟨e, he, hkey, -⟩ := heach r hr hdead
  exact (key?_of_letter (letter?_of_listed hlisted he hr hkey)).2.2 hsource

end CalmBoard.Queues
