import CalmBoard.Forms.Submissions
import CalmBoard.Idempotency.Repository
import CalmBoard.Lib.Requests

/-!
# CalmBoard.Tasks.Serials — the counter of task serials

An organization has one counter.  `allocateTaskSerialNumbers` moves it on, the worker for form responses
has a statement of its own for that, and `synchronizeTaskSerialSequence` lifts it over the tasks that
are there.

* `Operation`, `statement`: transactions of any such statements, with inserts of tasks between them.
* `Advances`: what a statement does to the counter.
* `Sound`, `laws`: the counter is above every number handed out and every number synchronised over.
* `serials_unique`: no number is handed out twice, or after a synchronisation that has seen it.
-/

namespace CalmBoard.Serials

open Requests
open Forms (SequenceRow)
open Tasks (firstTaskSerialNumber)

structure TaskRow where
  organizationId : Uuid
  serial : String
  deriving DecidableEq

/-- A committed statement: the numbers that it handed out, or the tasks that its snapshot held, which
are those that had committed when it began. -/
inductive Entry where
  | allocated (organizationId : Uuid) (numbers : List ℕ)
  | synchronized (organizationId : Uuid) (snapshot : List TaskRow)
  deriving DecidableEq

/-- `log` is no table, it says what has committed. -/
structure Store where
  sequences : Table SequenceRow SequenceRow.organizationId
  tasks : List TaskRow
  log : List Entry := []

/-! ### The statements -/

def maxInteger : ℕ := 2147483647

/-- A counter written to its column, with `task_serial_sequences_next_value_check`. -/
def nextValueColumn (nextValue : ℕ) : Except RepoError ℕ :=
  if maxInteger < nextValue then throw (.database "integer out of range")
  else if nextValue < 1041 then throw (.database "task_serial_sequences_next_value_check")
  else return nextValue

/-- The counter after `amount` more numbers; it starts with the first one. -/
def advance (first amount : ℕ) (row : Option SequenceRow) : ℕ :=
  match row with
  | some row => row.nextValue + amount
  | none => first + amount

/-- `allocateTaskSerialNumbers`: the counter, and the numbers. -/
def allocateTaskSerialNumbers (amount : Number) (row : Option SequenceRow) :
    Except RepoError (ℕ × List ℕ) := do
  match Idempotency.positiveSafeInteger amount with
  | none => throw (.error "Task serial allocation amount must be a positive safe integer")
  | some amount =>
    let nextValue ← nextValueColumn (advance firstTaskSerialNumber amount.toNat row)
    let firstValue := nextValue - amount.toNat
    return (nextValue, (List.range amount.toNat).map fun index => firstValue + index)

/-- The statement in `createTaskForResponse`. -/
def createTaskForResponse (row : Option SequenceRow) : Except RepoError (ℕ × List ℕ) := do
  let nextValue ← nextValueColumn (advance 1041 1 row)
  return (nextValue, [nextValue - 1])

/-- `substring(serial from 6)`, of a serial that matches `^TASK-[0-9]+$` -/
def serialNumber? (serial : String) : Option ℕ :=
  match serial.toList with
  | 'T' :: 'A' :: 'S' :: 'K' :: '-' :: digit :: digits => IsoDate.number? (digit :: digits)
  | _ => none

def serialNumbers (organizationId : Uuid) (tasks : List TaskRow) : List ℕ :=
  (tasks.filter fun t => t.organizationId = organizationId).filterMap fun t => serialNumber? t.serial

/-- `greatest(1041, coalesce(max(…::integer) + 1, 1041))` -/
def synchronizedValue (organizationId : Uuid) (tasks : List TaskRow) : Except RepoError ℕ :=
  match (serialNumbers organizationId tasks).max? with
  | none => return firstTaskSerialNumber
  | some number =>
    if maxInteger < number + 1 then throw (.database "integer out of range")
    else return max firstTaskSerialNumber (number + 1)

/-- `greatest(next_value, excluded.next_value)` -/
def synchronize (nextValue : ℕ) (row : Option SequenceRow) : ℕ :=
  match row with
  | some row => max row.nextValue nextValue
  | none => nextValue

/-! ### Transactions -/

/-- What a transaction does for its organization. -/
inductive Operation where
  | allocateTaskSerialNumbers (amount : Number)
  | createTaskForResponse
  | synchronizeTaskSerialSequence
  | insertTask (serial : String)

structure Call where
  organizationId : Uuid
  operations : List Operation

inductive Point where
  | next (organizationId : Uuid) (rest : List Operation)
  /-- a synchronisation that has evaluated its insert -/
  | excluded (organizationId : Uuid) (snapshot : List TaskRow) (nextValue : ℕ) (rest : List Operation)

inductive Lock where
  | sequence (organizationId : Uuid)
  | serial (organizationId : Uuid) (serial : String)
  deriving DecidableEq

/-- A new version of a row, as its statement has evaluated it. -/
inductive Write where
  | sequence (row : SequenceRow) (entry : Entry)
  | task (task : TaskRow)

def Write.apply : Write → Store → Store
  | .sequence row entry, s =>
    { s with sequences := s.sequences.upsert row, log := s.log ++ [entry] }
  | .task t, s => { s with tasks := s.tasks ++ [t] }

def Write.locks : Write → List Lock
  | .sequence row _ => [.sequence row.organizationId]
  | .task t => [.serial t.organizationId t.serial]

abbrev Result : Type := Outcome Point Lock Write (Except RepoError Unit)

/-- The counter with the numbers handed out. -/
def allocated (organizationId : Uuid) (rest : List Operation) :
    Except RepoError (ℕ × List ℕ) → Result
  | .error e => .fail (.error e)
  | .ok (nextValue, numbers) =>
    .next (.next organizationId rest) [.sequence organizationId]
      [.sequence { organizationId, nextValue } (.allocated organizationId numbers)]

/-- A synchronisation reads the tasks before it waits for the counter. -/
def statement (p : Point) (s : Store) : Result :=
  match p with
  | .next _ [] => .finish (.ok ())
  | .next organizationId (.allocateTaskSerialNumbers amount :: rest) =>
    allocated organizationId rest
      (allocateTaskSerialNumbers amount (s.sequences.find? organizationId))
  | .next organizationId (.createTaskForResponse :: rest) =>
    allocated organizationId rest (createTaskForResponse (s.sequences.find? organizationId))
  | .next organizationId (.synchronizeTaskSerialSequence :: rest) =>
    match synchronizedValue organizationId s.tasks with
    | .error e => .fail (.error e)
    | .ok nextValue => .next (.excluded organizationId s.tasks nextValue rest) [] []
  | .excluded organizationId snapshot excluded rest =>
    match nextValueColumn (synchronize excluded (s.sequences.find? organizationId)) with
    | .error e => .fail (.error e)
    | .ok nextValue =>
      .next (.next organizationId rest) [.sequence organizationId]
        [.sequence { organizationId, nextValue } (.synchronized organizationId snapshot)]
  | .next organizationId (.insertTask serial :: rest) =>
    if (⟨organizationId, serial⟩ : TaskRow) ∈ s.tasks then
      .fail (.error (.database "tasks_organization_serial_unique"))
    else
      .next (.next organizationId rest) [.serial organizationId serial]
        [.task ⟨organizationId, serial⟩]

def script : Script Call Store Unit Point Lock Write (Except RepoError Unit) where
  first call := .next call.organizationId call.operations
  apply := Write.apply
  statement _ := statement
  conflict k k' := k = k'
  conflict_symm k k' := by simp [eq_comm]

abbrev World : Type := Sessions.World Store (Local Point Lock Write (Except RepoError Unit))

abbrev Event : Type := Sessions.Event Call (Action Unit)

/-- Statements of any number of transactions, in any order; a transaction may break off anywhere. -/
def transactions (start : Store) (events : List Event) : World :=
  Sessions.run script.program (Sessions.World.closed { start with log := [] }) events

/-! ### One statement -/

variable {s s' start : Store} {row : SequenceRow} {old : Option SequenceRow} {entry : Entry} {w : Write}
  {ws : List Write} {ks : List Lock} {organizationId : Uuid}

/-- The numbers that a statement handed out for an organization. -/
def Entry.numbers (organizationId : Uuid) : Entry → List ℕ
  | .allocated o numbers => if o = organizationId then numbers else []
  | .synchronized _ _ => []

/-- The numbers of the tasks that it synchronised over. -/
def Entry.seen (organizationId : Uuid) : Entry → List ℕ
  | .allocated _ _ => []
  | .synchronized o snapshot =>
    if o = organizationId then serialNumbers organizationId snapshot else []

def Entry.used (organizationId : Uuid) (e : Entry) : List ℕ :=
  e.numbers organizationId ++ e.seen organizationId

/-- A new version of a counter: above the old one and above what the statement used, and what it handed
out was not below the old one. -/
structure Advances (old : Option SequenceRow) (row : SequenceRow) (entry : Entry) : Prop where
  grows : ∀ r, old = some r → r.nextValue ≤ row.nextValue
  used : ∀ o, ∀ n ∈ entry.used o, o = row.organizationId ∧ n < row.nextValue
  fresh : ∀ r, old = some r → ∀ o, ∀ n ∈ entry.numbers o, r.nextValue ≤ n
  nodup : ∀ o, (entry.numbers o).Nodup

/-- `k` numbers handed out, in order. -/
def Allocates (old : Option SequenceRow) (nextValue : ℕ) (numbers : List ℕ) : Prop :=
  ∃ k, nextValue = advance 1041 k old ∧ numbers = (List.range k).map fun index => nextValue - k + index

theorem nextValueColumn_ok {v v' : ℕ} (h : nextValueColumn v = .ok v') : v' = v := by
  unfold nextValueColumn at h
  split at h
  · cases h
  · split at h
    · cases h
    · cases h
      rfl

theorem allocateTaskSerialNumbers_ok {amount : Number} {nextValue : ℕ} {numbers : List ℕ}
    (h : allocateTaskSerialNumbers amount old = .ok (nextValue, numbers)) :
    Allocates old nextValue numbers := by
  unfold allocateTaskSerialNumbers at h
  split at h
  · cases h
  · next k _ =>
    obtain ⟨v, hv, h⟩ := Fallible.bind_ok.mp h
    cases h
    exact ⟨k.toNat, nextValueColumn_ok hv, rfl⟩

theorem createTaskForResponse_ok {nextValue : ℕ} {numbers : List ℕ}
    (h : createTaskForResponse old = .ok (nextValue, numbers)) : Allocates old nextValue numbers := by
  obtain ⟨v, hv, h⟩ := Fallible.bind_ok.mp h
  cases h
  exact ⟨1, nextValueColumn_ok hv, rfl⟩

theorem advances_allocated {nextValue : ℕ} {numbers : List ℕ} (h : Allocates old nextValue numbers) :
    Advances old ⟨organizationId, nextValue⟩ (.allocated organizationId numbers) := by
  obtain ⟨k, hnext, rfl⟩ := h
  have hk : k ≤ nextValue := by
    rw [hnext]
    unfold advance
    split <;> omega
  have hmem : ∀ o, ∀ n ∈ (Entry.allocated organizationId
      ((List.range k).map fun index => nextValue - k + index)).numbers o,
      o = organizationId ∧ nextValue - k ≤ n ∧ n < nextValue := by
    intro o n hn
    unfold Entry.numbers at hn
    dsimp only at hn
    split at hn
    · next ho =>
      obtain ⟨index, hindex, rfl⟩ := List.mem_map.mp hn
      rw [List.mem_range] at hindex
      exact ⟨ho.symm, by omega, by omega⟩
    · cases hn
  refine ⟨fun r hr => ?_, fun o n hn => ?_, fun r hr o n hn => ?_, fun o => ?_⟩
  · subst hr
    rw [hnext]
    exact Nat.le_add_right r.nextValue k
  · unfold Entry.used Entry.seen at hn
    rw [List.append_nil] at hn
    exact ⟨(hmem o n hn).1, (hmem o n hn).2.2⟩
  · subst hr
    have hold : nextValue = r.nextValue + k := hnext
    have := (hmem o n hn).2.1
    omega
  · unfold Entry.numbers
    dsimp only
    split
    · refine List.nodup_range.map fun a b hab => ?_
      exact Nat.add_left_cancel hab
    · exact List.nodup_nil

theorem synchronizedValue_ok {tasks : List TaskRow} {v : ℕ}
    (h : synchronizedValue organizationId tasks = .ok v) :
    ∀ n ∈ serialNumbers organizationId tasks, n < v := by
  intro n hn
  unfold synchronizedValue at h
  cases hmax : (serialNumbers organizationId tasks).max? with
  | none =>
    rw [List.max?_eq_none_iff.mp hmax] at hn
    cases hn
  | some m =>
    have hle : n ≤ m := (List.max?_eq_some_iff.mp hmax).2 n hn
    rw [hmax] at h
    dsimp only at h
    split at h
    · cases h
    · cases h
      omega

theorem advances_synchronized {snapshot : List TaskRow} {v : ℕ}
    (h : ∀ n ∈ serialNumbers organizationId snapshot, n < v) :
    Advances old ⟨organizationId, synchronize v old⟩ (.synchronized organizationId snapshot) := by
  refine ⟨fun r hr => ?_, fun o n hn => ?_, fun r hr o n hn => (by cases hn), fun o => List.nodup_nil⟩
  · subst hr
    exact Nat.le_max_left r.nextValue v
  · have hseen : n ∈ (Entry.synchronized organizationId snapshot).seen o := hn
    unfold Entry.seen at hseen
    dsimp only at hseen
    split at hseen
    · next ho =>
      refine ⟨ho.symm, Nat.lt_of_lt_of_le (h n (ho ▸ hseen)) ?_⟩
      unfold synchronize
      cases old with
      | none => exact Nat.le_refl v
      | some r => exact Nat.le_max_right r.nextValue v
    · cases hseen

/-- A write fits the counter that its statement has read. -/
def Write.Fits (s : Store) : Write → Prop
  | .sequence row entry => Advances (s.sequences.find? row.organizationId) row entry
  | .task _ => True

/-- What a waiting synchronisation is about to write is above the tasks it has read. -/
def Point.Waits : Point → Prop
  | .next _ _ => True
  | .excluded organizationId snapshot nextValue _ =>
    ∀ n ∈ serialNumbers organizationId snapshot, n < nextValue

theorem allocated_next {rest : List Operation} {x : Except RepoError (ℕ × List ℕ)} {p : Point}
    (hx : ∀ v numbers, x = .ok (v, numbers) → Allocates (s.sequences.find? organizationId) v numbers)
    (h : allocated organizationId rest x = .next p ks ws) :
    p.Waits ∧ ∃ w, ws = [w] ∧ ks = w.locks ∧ w.Fits s := by
  unfold allocated at h
  split at h
  · cases h
  · next v numbers =>
    cases h
    exact ⟨trivial, _, rfl, rfl, advances_allocated (hx v numbers rfl)⟩

theorem statement_next {p p' : Point} (hp : p.Waits) (h : statement p s = .next p' ks ws) :
    p'.Waits ∧ ((ks = [] ∧ ws = []) ∨ ∃ w, ws = [w] ∧ ks = w.locks ∧ w.Fits s) := by
  unfold statement at h
  split at h
  · cases h
  · exact (allocated_next (fun _ _ => allocateTaskSerialNumbers_ok) h).imp_right Or.inr
  · exact (allocated_next (fun _ _ => createTaskForResponse_ok) h).imp_right Or.inr
  · split at h
    · cases h
    · next hv =>
      cases h
      exact ⟨synchronizedValue_ok hv, Or.inl ⟨rfl, rfl⟩⟩
  · split at h
    · cases h
    · next v hv =>
      cases h
      refine ⟨trivial, Or.inr ⟨_, rfl, rfl, ?_⟩⟩
      rw [nextValueColumn_ok hv]
      exact advances_synchronized hp
  · split at h
    · cases h
    · cases h
      exact ⟨trivial, Or.inr ⟨_, rfl, rfl, trivial⟩⟩

theorem statement_commit {p p' : Point} : statement p s ≠ .commit p' := by
  intro h
  unfold statement allocated at h
  repeat' split at h
  all_goals cases h

/-! ### The counter and what has committed -/

/-- A number is below the counter of its organization. -/
def Below (s : Store) (organizationId : Uuid) (n : ℕ) : Prop :=
  ∃ row, s.sequences.find? organizationId = some row ∧ n < row.nextValue

structure Sound (s : Store) : Prop where
  below : ∀ e ∈ s.log, ∀ o, ∀ n ∈ e.used o, Below s o n
  nodup : ∀ e ∈ s.log, ∀ o, (e.numbers o).Nodup
  apart : s.log.Pairwise fun e e' => ∀ o, ∀ n ∈ e.used o, n ∉ e'.numbers o

theorem Sound.apply (hs : Sound s) (h : w.Fits s) : Sound (w.apply s) := by
  cases w with
  | task t => exact ⟨hs.below, hs.nodup, hs.apart⟩
  | sequence row entry =>
    have hfind : ∀ o, (s.sequences.upsert row).find? o =
        if row.organizationId = o then some row else s.sequences.find? o :=
      s.sequences.find?_upsert row
    refine ⟨fun e he o n hn => ?_, fun e he o => ?_, ?_⟩
    · show ∃ r, (s.sequences.upsert row).find? o = some r ∧ n < r.nextValue
      rw [hfind]
      rcases List.mem_append.mp he with he | he
      · obtain ⟨r, hr, hlt⟩ := hs.below e he o n hn
        by_cases ho : row.organizationId = o
        · rw [if_pos ho]
          exact ⟨row, rfl, Nat.lt_of_lt_of_le hlt (h.grows r (ho ▸ hr))⟩
        · rw [if_neg ho]
          exact ⟨r, hr, hlt⟩
      · rw [List.mem_singleton] at he
        subst he
        obtain ⟨ho, hlt⟩ := h.used o n hn
        rw [if_pos ho.symm]
        exact ⟨row, rfl, hlt⟩
    · rcases List.mem_append.mp he with he | he
      · exact hs.nodup e he o
      · rw [List.mem_singleton] at he
        exact he ▸ h.nodup o
    · refine List.pairwise_append.mpr ⟨hs.apart, List.pairwise_singleton .., fun e he e' he' => ?_⟩
      rw [List.mem_singleton] at he'
      subst he'
      intro o n hn hnew
      obtain ⟨r, hr, hlt⟩ := hs.below e he o n hn
      obtain ⟨ho, -⟩ := h.used o n (List.mem_append_left _ hnew)
      have hle := h.fresh r (ho ▸ hr) o n hnew
      omega

/-! ### Any interleaving -/

theorem find?_apply (s : Store) (h : .sequence organizationId ∉ w.locks) :
    (w.apply s).sequences.find? organizationId = s.sequences.find? organizationId := by
  cases w with
  | task t => rfl
  | sequence row entry =>
    have hne : row.organizationId ≠ organizationId := by
      intro heq
      exact h (heq ▸ List.mem_singleton.mpr rfl)
    exact (s.sequences.find?_upsert row organizationId).trans (if_neg hne)

/-- The counters of the organizations that are locked are the same. -/
def Agree (ks : List Lock) (s s' : Store) : Prop :=
  ∀ o, .sequence o ∈ ks → s'.sequences.find? o = s.sequences.find? o

theorem find?_view_congr {o : Uuid} (h : s'.sequences.find? o = s.sequences.find? o) :
    (script.view s' ws).sequences.find? o = (script.view s ws).sequences.find? o := by
  induction ws generalizing s s' with
  | nil => exact h
  | cons w ws ih =>
    refine ih ?_
    show (w.apply s').sequences.find? o = (w.apply s).sequences.find? o
    cases w with
    | task t => exact h
    | sequence row entry =>
      simp only [Write.apply, Table.find?_upsert, h]

theorem Write.Fits.congr (h : w.Fits s)
    (hfind : ∀ o, .sequence o ∈ w.locks → s'.sequences.find? o = s.sequences.find? o) :
    w.Fits s' := by
  cases w with
  | task t => trivial
  | sequence row entry =>
    have hold := hfind row.organizationId (List.mem_singleton.mpr rfl)
    show Advances (s'.sequences.find? row.organizationId) row entry
    rw [hold]
    exact h

/-- What a running transaction knows: its writes are sound wherever its counters are as they stand. -/
structure Holds (s : Store) (p : Point) (ks : List Lock) (ws : List Write) : Prop where
  waits : p.Waits
  covered : Covered Write.locks ks ws
  sound : ∀ s', Agree ks s s' → Sound s' → Sound (script.view s' ws)

theorem Holds.next {p p' : Point} {ks' : List Lock} {ws' : List Write} (h : Holds s p ks ws)
    (hnext : statement p (script.view s ws) = .next p' ks' ws') :
    Holds s p' (ks ++ ks') (ws ++ ws') := by
  obtain ⟨hwaits, ⟨rfl, rfl⟩ | ⟨w, rfl, rfl, hfits⟩⟩ := statement_next h.waits hnext
  · rw [List.append_nil, List.append_nil]
    exact ⟨hwaits, h.covered, h.sound⟩
  · refine ⟨hwaits, h.covered.append (covered_singleton fun k hk => hk), fun s' hagree hs' => ?_⟩
    have hbefore : Agree ks s s' := fun o ho => hagree o (List.mem_append_left _ ho)
    rw [view_append]
    refine (h.sound s' hbefore hs').apply (hfits.congr fun o ho => ?_)
    exact find?_view_congr (hagree o (List.mem_append_right ks ho))

theorem laws : Laws script (fun _ _ _ => True) Sound Holds fun _ _ => True where
  first _ _ _ := ⟨trivial, covered_nil _ _, fun _ _ hs' => hs'⟩
  next _ _ _ _ _ _ _ _ _ h _ hnext := h.next hnext
  commit _ _ _ _ _ _ _ _ _ hcommit := absurd hcommit statement_commit
  finish s _ _ _ _ _ hs h _ _ := ⟨h.sound s (fun _ _ => rfl) hs, trivial⟩
  fail _ _ _ _ _ _ _ _ _ _ := trivial
  other s _ _ ks ws _ ks' ws' _ h _ h' hapart := by
    have hframe : Agree ks' s (script.view s ws) := by
      intro o ho
      refine view_frame (k := .sequence o) (f := fun s : Store => s.sequences.find? o)
        (fun w s hw => find?_apply s hw) h.covered (fun hk => ?_) s
      exact hapart.not_mem (by simp [script]) hk ho
    refine ⟨h'.waits, h'.covered, fun s' hagree hs' => h'.sound s' (fun o ho => ?_) hs'⟩
    exact (hagree o ho).trans (hframe o ho)
  kept _ _ _ _ _ _ _ _ _ _ := trivial

theorem sound_transactions (start : Store) (events : List Event) :
    Sound (transactions start events).store := by
  have hstart : Sound { start with log := [] } :=
    ⟨fun e he => (by cases he), fun e he => (by cases he), List.Pairwise.nil⟩
  exact (Sessions.run_always (rules_always laws) events (Sessions.World.holds_closed hstart)).store

/-- **Serials are unique**: in any interleaving no number is handed out twice, and none after a
synchronisation that is the number of a task in its snapshot. -/
theorem serials_unique (start : Store) (events : List Event) (organizationId : Uuid) :
    ((transactions start events).store.log.flatMap fun e => e.numbers organizationId).Nodup ∧
      ∀ earlier snapshot later,
        (transactions start events).store.log =
            earlier ++ .synchronized organizationId snapshot :: later →
          ∀ t ∈ snapshot, t.organizationId = organizationId →
            ∀ n, serialNumber? t.serial = some n →
              n ∉ later.flatMap fun e => e.numbers organizationId := by
  have hsound := sound_transactions start events
  constructor
  · refine List.nodup_flatMap.mpr ⟨fun e he => hsound.nodup e he organizationId, ?_⟩
    refine hsound.apart.imp fun h n hn => ?_
    exact h organizationId n (List.mem_append_left _ hn)
  · intro earlier snapshot later hlog t ht ho n hn hlater
    obtain ⟨e, he, hn'⟩ := List.mem_flatMap.mp hlater
    have hpair := hsound.apart
    rw [hlog] at hpair
    have hrel := List.rel_of_pairwise_cons (List.pairwise_append.mp hpair).2.1 he
    refine hrel organizationId n (List.mem_append_right _ ?_) hn'
    unfold Entry.seen serialNumbers
    dsimp only
    rw [if_pos rfl]
    refine List.mem_filterMap.mpr ⟨t, List.mem_filter.mpr ⟨ht, ?_⟩, hn⟩
    simpa using ho

/-- A synchronisation over a task, and two allocations of which the second has to wait for the first. -/
example :
    let act (i : ℕ) : Event := .act i (.statement ())
    (transactions ⟨.empty, [⟨1, "TASK-1050"⟩], []⟩
      [.enter ⟨1, [.synchronizeTaskSerialSequence]⟩, act 0, act 0, act 0,
        .enter ⟨1, [.allocateTaskSerialNumbers (.fin 2)]⟩,
        .enter ⟨1, [.createTaskForResponse, .insertTask "TASK-1053"]⟩,
        act 1, act 2, act 1, act 2, act 2, act 2]).store.log =
      [.synchronized 1 [⟨1, "TASK-1050"⟩], .allocated 1 [1051, 1052], .allocated 1 [1053]] := by
  decide

end CalmBoard.Serials
