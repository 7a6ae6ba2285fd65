import CalmBoard.Timesheets.Transactions

/-!
# CalmBoard.Timesheets.Approved — approved time is what was submitted

* `next_adds`: what a statement adds to its transaction.
* `Known`: a timesheet that is written is locked, and goes where its trigger lets it go; a log goes to
  the timesheet its call has read.
* `approved_time_submitted`: approved timesheets and versions in every run, and the logs of a
  submission in runs whose calls of `create` commit while their timesheet is open.
-/

namespace CalmBoard.Timesheets

open Requests Sessions Fallible

variable {rt : Runtime} {i : Input} {s s' : Store} {p p' : Point} {ks ks' : List Lock}
  {vs ws ws' : List Write} {id : Uuid} {r : TimesheetRow} {l : TimeLogRow}

/-- What a call does to timesheets. -/
inductive Kind where
  | create | submit | review

def Point.kind : Point → Kind
  | .create .. | .selectTask _ | .insertTimesheet _ | .selectPeriod _ | .reopen .. | .insertLog ..
  | .addHours .. | .logged _ => .create
  | .submit .. | .selectSubmitted .. | .countLogs .. | .updateSubmitted .. | .submitted => .submit
  | .review .. | .selectReviewed .. | .updateReviewed .. | .reviewed => .review

def Kind.Writes : Kind → TimesheetStatus → Prop
  | .create, status => status = .draft
  | .submit, status => status = .submitted
  | .review, status => status = .approved ∨ status = .rejected

/-- The timesheet that has got a log. -/
def Point.target : Point → Option Uuid
  | .addHours _ period | .logged period => some period.id
  | _ => none

/-- Where the triggers let a timesheet go. -/
structure Follows (old new : TimesheetRow) : Prop where
  unapproved : old.status ≠ .approved
  status : new.status ∈ old.status.next
  version : old.version ≤ new.version

/-- A timesheet as a call of some kind writes it. -/
structure Turn (s : Store) (k : Kind) (r : TimesheetRow) : Prop where
  status : k.Writes r.status
  follows : s.timesheets.find? r.id = none ∧ k = .create ∨
    ∃ old, s.timesheets.find? r.id = some old ∧ Follows old r

/-- What a statement adds to its transaction. -/
inductive Adds (s : Store) (p p' : Point) (ks : List Lock) : List Write → Prop
  | nothing (htarget : p'.target = p.target) : Adds s p p' ks []
  | sheet {r : TimesheetRow} (hr : Turn s p.kind r) (hk : .sheet r.id ∈ ks)
      (htarget : p'.target = p.target) : Adds s p p' ks [.sheet r]
  | log {l : TimeLogRow} (hnone : p.target = none) (htarget : p'.target = some l.timesheetId) :
      Adds s p p' ks [.log l]
  | hours (taskId : Uuid) (minutes : ℤ) (now : Timestamptz) (htarget : p'.target = p.target) :
      Adds s p p' ks [.hours taskId minutes now]

theorem orFail_ok {x : Except RepoError Result} {o : Result} (hfail : ∀ e, o ≠ .fail e)
    (h : orFail x = o) : x = .ok o := by
  cases x with
  | ok o' => exact congrArg _ h
  | error e => exact absurd h.symm (hfail _)

theorem updateSheet_some {selects : TimesheetRow → Bool} {f : TimesheetRow → TimesheetRow}
    (hf : ∀ r, (f r).id = r.id) (h : updateSheet s id selects f = .ok (some r)) :
    ∃ old, s.timesheets.find? r.id = some old ∧ f old = r ∧ Follows old r := by
  unfold updateSheet at h
  split at h
  · cases h
  · next old hold =>
    simp only [then_ok, pure_ok, Option.some.injEq] at h
    obtain ⟨hguard, -, -, rfl⟩ := h
    have hfind := (Option.filter_eq_some_iff.mp hold).1
    have hid : old.id = id := Table.key_of_find? hfind
    refine ⟨old, by rw [hf, hid, hfind], rfl, ?_⟩
    unfold guardTimesheetTransition at hguard
    obtain ⟨-, hguard⟩ := guard_ok.mp hguard
    obtain ⟨hopen, hguard⟩ := guard_ok.mp hguard
    obtain ⟨hstatus, hguard⟩ := guard_ok.mp hguard
    obtain ⟨-, hguard⟩ := guard_ok.mp hguard
    obtain ⟨hversion, -⟩ := guard_ok.mp hguard
    exact ⟨hopen, not_not.mp hstatus, not_lt.mp hversion⟩

theorem updateVersion_next {expectedVersion : ℤ} {f : TimesheetRow → TimesheetRow}
    (hf : ∀ r, (f r).id = r.id)
    (h : updateVersion s id expectedVersion f p = .ok (.next p' ks' ws')) :
    p' = p ∧ ∃ r old, ks' = [.sheet r.id] ∧ ws' = [.sheet r] ∧ f old = r ∧
      s.timesheets.find? r.id = some old ∧ Follows old r := by
  obtain ⟨x, hx, h⟩ := bind_ok.mp h
  cases x with
  | none => cases h
  | some r =>
    cases pure_ok.mp h
    obtain ⟨old, hold, hr, hfollows⟩ := updateSheet_some hf hx
    exact ⟨rfl, r, old, rfl, rfl, hr, hold, hfollows⟩

theorem next_adds (h : statement i p s = .next p' ks' ws') :
    p'.kind = p.kind ∧ Adds s p p' ks' ws' := by
  have hfail : ∀ e, (Outcome.next p' ks' ws' : Result) ≠ .fail e := fun e he => by cases he
  cases p with
  | create actorId input =>
    obtain ⟨c, -, h⟩ := bind_ok.mp (orFail_ok hfail h)
    cases h
  | selectTask c =>
    obtain ⟨_, -, h⟩ := bind_ok.mp (orFail_ok hfail h)
    cases pure_ok.mp h
    exact ⟨rfl, .nothing rfl⟩
  | insertTimesheet c =>
    have h := orFail_ok hfail h
    obtain ⟨periodStart, -, h⟩ := bind_ok.mp h
    obtain ⟨periodEnd, -, h⟩ := bind_ok.mp h
    obtain ⟨_, -, h⟩ := bind_ok.mp h
    obtain ⟨_, -, h⟩ := bind_ok.mp h
    split at h
    · cases pure_ok.mp h
      exact ⟨rfl, .nothing rfl⟩
    · next hnew =>
      cases pure_ok.mp h
      simp only [Bool.or_eq_true, not_or, Bool.not_eq_true, Option.isSome_eq_false_iff,
        Option.isNone_iff_eq_none] at hnew
      exact ⟨rfl, .sheet ⟨rfl, Or.inl ⟨hnew.2, rfl⟩⟩ List.mem_cons_self rfl⟩
  | selectPeriod c =>
    have h := orFail_ok hfail h
    unfold selectPeriod at h
    split at h
    · cases h
    · next period _ =>
      obtain ⟨-, h⟩ := guard_ok.mp h
      cases pure_ok.mp h
      split
      · exact ⟨rfl, .nothing rfl⟩
      · exact ⟨rfl, .nothing rfl⟩
  | reopen c period =>
    obtain ⟨x, hx, h⟩ := bind_ok.mp (orFail_ok hfail h)
    cases x with
    | none =>
      cases pure_ok.mp h
      exact ⟨rfl, .nothing rfl⟩
    | some r =>
      cases pure_ok.mp h
      have hid : ∀ r, (Timesheets.reopen i.now r).id = r.id := fun _ => rfl
      obtain ⟨old, hold, rfl, hfollows⟩ := updateSheet_some hid hx
      exact ⟨rfl, .sheet ⟨rfl, Or.inr ⟨old, hold, hfollows⟩⟩ List.mem_cons_self rfl⟩
  | insertLog c period =>
    have h := orFail_ok hfail h
    obtain ⟨_, -, h⟩ := bind_ok.mp h
    obtain ⟨_, -, h⟩ := bind_ok.mp h
    obtain ⟨-, h⟩ := guard_ok.mp h
    cases pure_ok.mp h
    exact ⟨rfl, .log rfl rfl⟩
  | addHours c period =>
    cases h
    exact ⟨rfl, .hours _ _ _ rfl⟩
  | submit actorId timesheetId expectedVersion =>
    obtain ⟨_, -, h⟩ := bind_ok.mp (orFail_ok hfail h)
    obtain ⟨_, -, h⟩ := bind_ok.mp h
    cases h
  | selectSubmitted actorId timesheetId expectedVersion =>
    have h := orFail_ok hfail h
    unfold selectSubmitted at h
    split at h
    · cases h
    · obtain ⟨-, h⟩ := guard_ok.mp h
      obtain ⟨-, h⟩ := guard_ok.mp h
      split at h
      · cases pure_ok.mp h
      · cases pure_ok.mp h
        exact ⟨rfl, .nothing rfl⟩
  | countLogs period expectedVersion =>
    obtain ⟨-, h⟩ := guard_ok.mp (orFail_ok hfail h)
    cases pure_ok.mp h
    exact ⟨rfl, .nothing rfl⟩
  | updateSubmitted period expectedVersion =>
    have hid : ∀ r, (Timesheets.submitted i.now r).id = r.id := fun _ => rfl
    have h : updateVersion s period.id expectedVersion (Timesheets.submitted i.now) .submitted =
      .ok (.next p' ks' ws') := orFail_ok hfail h
    obtain ⟨rfl, r, old, rfl, rfl, rfl, hold, hfollows⟩ := updateVersion_next hid h
    exact ⟨rfl, .sheet ⟨rfl, Or.inr ⟨old, hold, hfollows⟩⟩ List.mem_cons_self rfl⟩
  | review actorId timesheetId input =>
    obtain ⟨_, -, h⟩ := bind_ok.mp (orFail_ok hfail h)
    obtain ⟨_, -, h⟩ := bind_ok.mp h
    cases h
  | selectReviewed actorId timesheetId input =>
    have h := orFail_ok hfail h
    unfold selectReviewed at h
    split at h
    · cases h
    · obtain ⟨-, h⟩ := guard_ok.mp h
      obtain ⟨-, h⟩ := guard_ok.mp h
      obtain ⟨-, h⟩ := guard_ok.mp h
      obtain ⟨-, h⟩ := guard_ok.mp h
      cases pure_ok.mp h
      exact ⟨rfl, .nothing rfl⟩
  | updateReviewed actorId period input =>
    have hid : ∀ r, (Timesheets.reviewed actorId input.decision
      (Workflows.trimmedOrNull input.reason) i.now r).id = r.id := fun _ => rfl
    have h : updateVersion s period.id input.expectedVersion (Timesheets.reviewed actorId input.decision
      (Workflows.trimmedOrNull input.reason) i.now) .reviewed = .ok (.next p' ks' ws') :=
      orFail_ok hfail h
    obtain ⟨rfl, r, old, rfl, rfl, rfl, hold, hfollows⟩ := updateVersion_next hid h
    refine ⟨rfl, .sheet ⟨?_, Or.inr ⟨old, hold, hfollows⟩⟩ List.mem_cons_self rfl⟩
    cases hd : input.decision with
    | approved => exact Or.inl (by simp [Timesheets.reviewed])
    | rejected => exact Or.inr (by simp [Timesheets.reviewed])
  | logged | submitted | reviewed => cases h

/-! ### What a transaction has written -/

/-- The tables below the writes of a transaction. -/
abbrev seen (rt : Runtime) (s : Store) (ws : List Write) : Store := (script rt).view s ws

theorem seen_append (s : Store) (ws : List Write) (w : Write) :
    seen rt s (ws ++ [w]) = w.apply rt (seen rt s ws) := view_append s ws [w]

theorem find?_seen (s : Store) (ws : List Write) (id : Uuid) :
    ((seen rt s ws).timesheets.find? id = s.timesheets.find? id ∧ ∀ r, .sheet r ∈ ws → r.id ≠ id) ∨
      ∃ r, .sheet r ∈ ws ∧ r.id = id ∧ (seen rt s ws).timesheets.find? id = some r := by
  induction ws using List.reverseRecOn with
  | nil => exact Or.inl ⟨rfl, fun r hr => by cases hr⟩
  | append_singleton ws w ih =>
    rw [seen_append]
    have hrest : (w.apply rt (seen rt s ws)).timesheets.find? id =
        (seen rt s ws).timesheets.find? id → (∀ r, w = .sheet r → r.id ≠ id) →
        ((w.apply rt (seen rt s ws)).timesheets.find? id = s.timesheets.find? id ∧
          ∀ r, .sheet r ∈ ws ++ [w] → r.id ≠ id) ∨
        ∃ r, .sheet r ∈ ws ++ [w] ∧ r.id = id ∧
          (w.apply rt (seen rt s ws)).timesheets.find? id = some r := by
      intro hsame hw
      rcases ih with ⟨hs, hne⟩ | ⟨r, hr, hid, hs⟩
      · refine Or.inl ⟨hsame.trans hs, fun r hr => ?_⟩
        rcases List.mem_append.mp hr with hr | hr
        · exact hne r hr
        · exact hw r (List.mem_singleton.mp hr).symm
      · exact Or.inr ⟨r, List.mem_append_left _ hr, hid, hsame.trans hs⟩
    cases w with
    | sheet r =>
      have hfind : ((Write.sheet r).apply rt (seen rt s ws)).timesheets.find? id =
          if r.id = id then some r else (seen rt s ws).timesheets.find? id :=
        Table.find?_upsert _ r id
      by_cases hid : r.id = id
      · rw [if_pos hid] at hfind
        exact Or.inr ⟨r, List.mem_append_right _ (List.mem_singleton_self _), hid, hfind⟩
      · rw [if_neg hid] at hfind
        refine hrest hfind fun r' hr' => ?_
        cases hr'
        exact hid
    | log l => exact hrest rfl fun r hr => by cases hr
    | hours taskId minutes now => exact hrest rfl fun r hr => by cases hr

theorem mem_logs_seen (h : l ∈ (seen rt s ws).timeLogs.rows) :
    l ∈ s.timeLogs.rows ∨ .log l ∈ ws := by
  induction ws using List.reverseRecOn with
  | nil => exact Or.inl h
  | append_singleton ws w ih =>
    rw [seen_append] at h
    have hearlier : l ∈ (seen rt s ws).timeLogs.rows → l ∈ s.timeLogs.rows ∨ .log l ∈ ws ++ [w] :=
      fun h => (ih h).imp_right (List.mem_append_left _)
    cases w with
    | log l' =>
      rcases Table.mem_upsert h with rfl | h
      · exact Or.inr (List.mem_append_right _ (List.mem_singleton_self _))
      · exact hearlier h
    | sheet r => exact hearlier h
    | hours taskId minutes now => exact hearlier h

/-- What a call knows of its own writes. -/
structure Known (s : Store) (p : Point) (ks : List Lock) (ws : List Write) : Prop where
  sheets : ∀ r, .sheet r ∈ ws → .sheet r.id ∈ ks ∧ Turn s p.kind r
  logs : ∀ l, .log l ∈ ws → p.target = some l.timesheetId

theorem known_nil (s : Store) (p : Point) : Known s p [] [] where
  sheets r hr := by cases hr
  logs l hl := by cases hl

theorem Kind.next_trans {k : Kind} {a b c : TimesheetStatus} (hb : k.Writes b) (hc : k.Writes c)
    (hunapproved : b ≠ .approved) (hab : b ∈ a.next) (hbc : c ∈ b.next) : c ∈ a.next := by
  cases k with
  | create =>
    obtain rfl : b = .draft := hb
    obtain rfl : c = .draft := hc
    exact hab
  | submit =>
    obtain rfl : b = .submitted := hb
    obtain rfl : c = .submitted := hc
    exact hab
  | review =>
    obtain rfl : b = .rejected := hb.resolve_left hunapproved
    rcases hc with rfl | rfl
    · simp [TimesheetStatus.next] at hbc
    · exact hab

theorem Turn.trans {k : Kind} {r' : TimesheetRow} (h : Turn s k r) (hr' : k.Writes r'.status)
    (hid : r'.id = r.id) (hfollows : Follows r r') : Turn s k r' := by
  refine ⟨hr', ?_⟩
  rw [hid]
  rcases h.follows with hnew | ⟨old, hold, hfirst⟩
  · exact Or.inl hnew
  · have hstatus : r'.status ∈ old.status.next :=
      Kind.next_trans h.status hr' hfollows.unapproved hfirst.status hfollows.status
    exact Or.inr ⟨old, hold, hfirst.unapproved, hstatus, hfirst.version.trans hfollows.version⟩

theorem Known.turn (h : Known s p ks ws) (hr : Turn (seen rt s ws) p.kind r) : Turn s p.kind r := by
  rcases find?_seen s ws r.id with ⟨hsame, -⟩ | ⟨r₁, hr₁, hid, hfind⟩
  · exact ⟨hr.status, hsame ▸ hr.follows⟩
  · have hfirst := (h.sheets r₁ hr₁).2
    rcases hr.follows with ⟨hnone, -⟩ | ⟨old, hold, hfollows⟩
    · rw [hfind] at hnone
      cases hnone
    · rw [hfind] at hold
      cases hold
      exact hfirst.trans hr.status hid.symm hfollows

theorem Known.next (h : Known s p ks ws)
    (hnext : statement i p (seen rt s ws) = .next p' ks' ws') :
    Known s p' (ks ++ ks') (ws ++ ws') := by
  obtain ⟨hkind, hadds⟩ := next_adds hnext
  have hsheets : ∀ r, .sheet r ∈ ws → .sheet r.id ∈ ks ++ ks' ∧ Turn s p'.kind r := by
    intro r hr
    rw [hkind]
    exact ⟨List.mem_append_left _ (h.sheets r hr).1, (h.sheets r hr).2⟩
  cases hadds with
  | nothing htarget =>
    rw [List.append_nil]
    exact ⟨hsheets, fun l hl => htarget.trans (h.logs l hl)⟩
  | @sheet r hr hk htarget =>
    refine ⟨fun r' hr' => ?_, fun l hl => ?_⟩
    · rcases List.mem_append.mp hr' with hr' | hr'
      · exact hsheets r' hr'
      · cases List.mem_singleton.mp hr'
        rw [hkind]
        exact ⟨List.mem_append_right _ hk, h.turn hr⟩
    · rcases List.mem_append.mp hl with hl | hl
      · exact htarget.trans (h.logs l hl)
      · cases List.mem_singleton.mp hl
  | @log l hnone htarget =>
    refine ⟨fun r' hr' => ?_, fun l' hl' => ?_⟩
    · rcases List.mem_append.mp hr' with hr' | hr'
      · exact hsheets r' hr'
      · cases List.mem_singleton.mp hr'
    · rcases List.mem_append.mp hl' with hl' | hl'
      · exact absurd (hnone.symm.trans (h.logs l' hl')) (by simp)
      · cases List.mem_singleton.mp hl'
        exact htarget
  | hours taskId minutes now htarget =>
    refine ⟨fun r' hr' => ?_, fun l hl => ?_⟩
    · rcases List.mem_append.mp hr' with hr' | hr'
      · exact hsheets r' hr'
      · cases List.mem_singleton.mp hr'
    · rcases List.mem_append.mp hl with hl | hl
      · exact htarget.trans (h.logs l hl)
      · cases List.mem_singleton.mp hl

/-! ### Commits -/

def Store.statusOf (s : Store) (id : Uuid) : Option TimesheetStatus :=
  (s.timesheets.find? id).map TimesheetRow.status

/-- The timesheet is submitted or approved. -/
def Store.closed (s : Store) (id : Uuid) : Prop :=
  s.statusOf id = some .submitted ∨ s.statusOf id = some .approved

instance (s : Store) (id : Uuid) : Decidable (s.closed id) := inferInstanceAs (Decidable (_ ∨ _))

/-- A call of `create` commits while its timesheet is open. -/
def StillOpen (s : Store) (_ : Input) : Point → Prop
  | .logged period => ¬ s.closed period.id
  | _ => True

instance (s : Store) (i : Input) : DecidablePred (StillOpen s i) := fun p => by
  unfold StillOpen
  split <;> infer_instance

/-- A timesheet has been submitted. -/
def Submits (id : Uuid) (s s' : Store) : Prop :=
  s'.statusOf id = some .submitted ∧ s.statusOf id ≠ some .submitted

/-- Approved timesheets stay, and versions never decrease. -/
def Keeps (s s' : Store) : Prop :=
  ∀ id r, s.timesheets.find? id = some r → ∃ r', s'.timesheets.find? id = some r' ∧
    (r.status = .approved → r' = r) ∧ r.version ≤ r'.version

theorem Keeps.refl (s : Store) : Keeps s s := fun _ r hr => ⟨r, hr, fun _ => rfl, le_rfl⟩

theorem Known.keeps (h : Known s p ks ws) : Keeps s (seen rt s ws) := by
  intro id r hr
  rcases find?_seen s ws id with ⟨hsame, -⟩ | ⟨r', hr', rfl, hfind⟩
  · exact ⟨r, hsame.trans hr, fun _ => rfl, le_rfl⟩
  · rcases (h.sheets r' hr').2.follows with ⟨hnone, -⟩ | ⟨old, hold, hfollows⟩
    · rw [hr] at hnone
      cases hnone
    · rw [hr] at hold
      cases hold
      exact ⟨r', hfind, fun happroved => absurd happroved hfollows.unapproved, hfollows.version⟩

theorem commits_target (h : (script rt).Commits i p s ws) (htarget : p.target = some id) :
    ∃ period, p = .logged period ∧ period.id = id := by
  cases p with
  | logged period => exact ⟨period, rfl, Option.some.inj htarget⟩
  | addHours c period => rcases h with ⟨_, h⟩ | ⟨_, h⟩ <;> cases h
  | _ => cases htarget

/-- The logs of a closed timesheet, after a commit: they were there, and so was the submission, unless
it is made now. -/
theorem Known.closed (h : Known s p ks ws) (hc : (script rt).Commits i p s ws)
    (hopen : StillOpen s i p) (hl : l ∈ (seen rt s ws).timeLogs.rows)
    (hclosed : (seen rt s ws).closed l.timesheetId) :
    l ∈ s.timeLogs.rows ∧ (Submits l.timesheetId s (seen rt s ws) ∨ s.closed l.timesheetId) := by
  have hstatus : ∀ st, (seen rt s ws).statusOf l.timesheetId = some st →
      s.statusOf l.timesheetId = some st ∨ p.kind.Writes st ∧ (p.kind = .create ∨
        ∃ old, s.statusOf l.timesheetId = some old ∧ old ≠ .approved ∧ st ∈ old.next) := by
    intro st hst
    rcases find?_seen s ws l.timesheetId with ⟨hsame, -⟩ | ⟨r, hr, hid, hfind⟩
    · left
      rw [Store.statusOf, ← hsame]
      exact hst
    · right
      rw [Store.statusOf, hfind, Option.map_some, Option.some.injEq] at hst
      have hturn := (h.sheets r hr).2
      refine ⟨hst ▸ hturn.status, ?_⟩
      rcases hturn.follows with ⟨-, hcreate⟩ | ⟨old, hold, hfollows⟩
      · exact Or.inl hcreate
      · refine Or.inr ⟨old.status, ?_, hfollows.unapproved, hst ▸ hfollows.status⟩
        rw [Store.statusOf, ← hid, hold, Option.map_some]
  have hthere : l ∈ s.timeLogs.rows := by
    rcases mem_logs_seen hl with hl | hl
    · exact hl
    · obtain ⟨period, rfl, hid⟩ := commits_target hc (h.logs l hl)
      exfalso
      rcases hclosed with hst | hst
      · rcases hstatus _ hst with hs | ⟨hw, -⟩
        · exact hopen (hid ▸ Or.inl hs)
        · cases hw
      · rcases hstatus _ hst with hs | ⟨hw, -⟩
        · exact hopen (hid ▸ Or.inr hs)
        · cases hw
  refine ⟨hthere, ?_⟩
  rcases hclosed with hst | hst
  · by_cases hs : s.statusOf l.timesheetId = some .submitted
    · exact Or.inr (Or.inl hs)
    · exact Or.inl ⟨hst, hs⟩
  · rcases hstatus _ hst with hs | ⟨hw, hcreate | ⟨old, hold, hunapproved, hnext⟩⟩
    · exact Or.inr (Or.inr hs)
    · rw [hcreate] at hw
      cases hw
    · -- only a submitted timesheet is approved
      refine Or.inr (Or.inl ?_)
      cases old with
      | submitted => exact hold
      | approved => exact absurd rfl hunapproved
      | draft | rejected => simp [TimesheetStatus.next] at hnext

theorem Known.other {q : Point} (h : Known s q ks' ws) (hc : Known s p ks vs)
    (hapart : (script rt).Apart ks ks') : Known (seen rt s vs) q ks' ws where
  sheets r hr := by
    obtain ⟨hlock, hturn⟩ := h.sheets r hr
    have hsame : (seen rt s vs).timesheets.find? r.id = s.timesheets.find? r.id := by
      rcases find?_seen s vs r.id with ⟨hsame, -⟩ | ⟨r', hr', hid, -⟩
      · exact hsame
      · exact absurd hlock (hapart.not_mem (decide_eq_true rfl) (hid ▸ (hc.sheets r' hr').1))
    exact ⟨hlock, hturn.status, hsame ▸ hturn.follows⟩
  logs := h.logs

theorem laws (rt : Runtime) :
    Laws (script rt) (fun _ _ _ => True) (fun _ => True) Known fun _ _ => True where
  first s call _ := by
    cases call with
    | create | submit | review => exact known_nil s _
  next _ _ _ _ _ _ _ _ _ h _ hnext := h.next hnext
  commit _ _ _ _ _ _ _ _ _ _ := ⟨trivial, known_nil _ _⟩
  finish _ _ _ _ _ _ _ _ _ _ := ⟨trivial, trivial⟩
  fail _ _ _ _ _ _ _ _ _ _ := trivial
  other _ _ _ _ _ _ _ _ _ h _ h' hapart := h'.other h hapart
  kept _ _ _ _ _ _ _ _ _ _ := trivial

/-! ### Runs -/

section Runs

variable {w w' : World} {event : Event} {start : Store} {events : List Event}

theorem holds_calls (rt : Runtime) (start : Store) (events : List Event) :
    (calls rt start events).Holds (script rt).program (fun _ => True)
      (Local.Knows Known fun _ _ => True) :=
  run_always (rules_always (laws rt)) events (World.holds_closed trivial)

theorem Keeps.trans {s₁ s₂ s₃ : Store} (h : Keeps s₁ s₂) (h' : Keeps s₂ s₃) : Keeps s₁ s₃ := by
  intro id r hr
  obtain ⟨r', hr', happroved, hversion⟩ := h id r hr
  obtain ⟨r'', hr'', happroved', hversion'⟩ := h' id r' hr'
  refine ⟨r'', hr'', fun hst => ?_, hversion.trans hversion'⟩
  obtain rfl := happroved hst
  exact happroved' hst

theorem keeps_run (hw : w.Holds (script rt).program (fun _ => True)
    (Local.Knows Known fun _ _ => True)) (events : List Event) :
    Keeps w.store (run (script rt).program w events).store := by
  have hstep : ∀ e (v v' : World), (v.Holds (script rt).program (fun _ => True)
      (Local.Knows Known fun _ _ => True) ∧ Keeps w.store v.store) →
      Sessions.step (script rt).program e v = .ok v' → v'.Holds (script rt).program (fun _ => True)
        (Local.Knows Known fun _ _ => True) ∧ Keeps w.store v'.store := by
    rintro e v v' ⟨hv, hkeeps⟩ hok
    refine ⟨hv.step_always (rules_always (laws rt)) hok, ?_⟩
    rcases committed_of_step hv hok with hsame | ⟨i, p, ks, ws, hstore, hknown, -, -⟩
    · rw [hsame]
      exact hkeeps
    · rw [hstore]
      exact hkeeps.trans hknown.keeps
  exact (Runs.run_invariant (fun v e v' hv hok => hstep e v v' hv hok) events w ⟨hw, .refl _⟩).2

theorem closed_step (hw : w.Holds (script rt).program (fun _ => True)
      (Local.Knows Known fun _ _ => True))
    (hg : w.Meets (atStatement StillOpen) event)
    (hok : Sessions.step (script rt).program event w = .ok w') (hl : l ∈ w'.store.timeLogs.rows)
    (hclosed : w'.store.closed l.timesheetId) :
    l ∈ w.store.timeLogs.rows ∧
      (Submits l.timesheetId w.store w'.store ∨ w.store.closed l.timesheetId) := by
  rcases committed_of_step hw hok with hsame | ⟨i, p, ks, ws, hstore, hknown, hcommits, hguard⟩
  · rw [hsame] at hl hclosed
    exact ⟨hl, Or.inr hclosed⟩
  · rw [hstore] at hl hclosed ⊢
    exact hknown.closed hcommits (hguard StillOpen hg) hl hclosed

/-- The log was committed before the transaction of the latest submission of its timesheet. -/
def CommittedBefore (rt : Runtime) (start : Store) (events : List Event) (l : TimeLogRow) : Prop :=
  ∃ before event after, events = before ++ event :: after ∧
    l ∈ (calls rt start before).store.timeLogs.rows ∧
    Submits l.timesheetId (calls rt start before).store
      (calls rt start (before ++ [event])).store ∧
    ∀ more later rest, after = more ++ later :: rest →
      ¬ Submits l.timesheetId (calls rt start (before ++ event :: more)).store
        (calls rt start (before ++ event :: more ++ [later])).store

theorem CommittedBefore.concat (h : CommittedBefore rt start events l)
    (hlast : ¬ Submits l.timesheetId (calls rt start events).store
      (calls rt start (events ++ [event])).store) :
    CommittedBefore rt start (events ++ [event]) l := by
  obtain ⟨before, submission, after, rfl, hl, hsubmits, hlatest⟩ := h
  refine ⟨before, submission, after ++ [event], by simp, hl, hsubmits, ?_⟩
  intro more later rest hsplit
  rcases List.eq_nil_or_concat rest with rfl | ⟨rest, last, rfl⟩
  · obtain ⟨rfl, hlater⟩ := List.append_inj' hsplit rfl
    cases hlater
    exact hlast
  · have hsplit' : after ++ [event] = (more ++ later :: rest) ++ [last] := by simp [hsplit]
    exact hlatest more later rest (List.append_inj' hsplit' rfl).1

theorem calls_concat (rt : Runtime) (start : Store) (events : List Event) (event : Event) :
    calls rt start (events ++ [event]) =
      Runs.exec (Sessions.step (script rt).program) (calls rt start events) event :=
  run_concat _ events event

theorem open_migrated (start : Store) (id : Uuid) : ¬ (calls rt start []).store.closed id := by
  have hstatus : ∀ st, (migrated start).statusOf id = some st → st = .draft := by
    intro st hst
    unfold Store.statusOf migrated at hst
    rw [Table.find?_update, Option.map_map] at hst
    obtain ⟨r, -, hr⟩ := Option.map_eq_some_iff.mp hst
    exact hr.symm
  rintro (h | h)
  · cases hstatus _ h
  · cases hstatus _ h

/-- **Approved time is what was submitted**: approved timesheets do not change and no version
decreases, whatever the order of the statements; the logs of a submitted or approved timesheet were
committed before its submission, where `create` commits only while its timesheet is open. -/
theorem approved_time_submitted (rt : Runtime) (start : Store) (events : List Event) :
    (∀ more, Keeps (calls rt start events).store (calls rt start (events ++ more)).store) ∧
    (Runs.Guarded (Sessions.step (script rt).program) (World.Meets (atStatement StillOpen))
        (World.closed (migrated start)) events →
      ∀ l ∈ (calls rt start events).store.timeLogs.rows,
        (calls rt start events).store.closed l.timesheetId → CommittedBefore rt start events l) := by
  refine ⟨fun more => ?_, fun hg l hl hclosed => ?_⟩
  · have hmore : calls rt start (events ++ more) =
        run (script rt).program (calls rt start events) more := run_append _ events more
    rw [hmore]
    exact keeps_run (holds_calls rt start events) more
  · induction events using List.reverseRecOn with
    | nil => exact absurd hclosed (open_migrated start l.timesheetId)
    | append_singleton events event ih =>
      have hevents := Runs.guarded_of_append hg
      have hlast := Runs.guarded_last hg
      have hstep : l ∈ (calls rt start events).store.timeLogs.rows ∧
          (Submits l.timesheetId (calls rt start events).store
            (calls rt start (events ++ [event])).store ∨
          (calls rt start events).store.closed l.timesheetId) := by
        rw [calls_concat, Runs.exec] at hl hclosed ⊢
        cases hok : Sessions.step (script rt).program event (calls rt start events) with
        | ok w' =>
          rw [hok] at hl hclosed
          exact closed_step (holds_calls rt start events) hlast hok hl hclosed
        | error e =>
          rw [hok] at hl hclosed
          exact ⟨hl, Or.inr hclosed⟩
      obtain ⟨hthere, hbefore⟩ := hstep
      by_cases hsubmits : Submits l.timesheetId (calls rt start events).store
        (calls rt start (events ++ [event])).store
      · exact ⟨events, event, [], rfl, hthere, hsubmits, fun more later rest h => by
          cases more <;> cases h⟩
      · exact (ih hevents hthere (hbefore.resolve_left hsubmits)).concat hsubmits

end Runs

/-! ### Two calls -/

/-- A member, a task, and a week with one log. -/
def oneLog : Store where
  work := Workflows.after utcRuntime smallSetup
    [.workspace (.createTask { projectId := 7, title := "a" })]
  timesheets := ⟨[{ id := 1, userId := 1, periodStart := 4, periodEnd := 10, createdAt := ⟨0⟩
                    updatedAt := ⟨0⟩ }], by decide⟩
  timeLogs := ⟨[{ id := 1, timesheetId := 1, taskId := 100, userId := 1, description := none
                  startedAt := .ofMillis 432000000, endedAt := .ofMillis 435600000
                  durationMinutes := 60, billable := true, createdAt := ⟨0⟩, updatedAt := ⟨0⟩ }],
    by decide⟩

def acts (session : ℕ) (inputs : List Input) : List Event :=
  inputs.map fun i => .act session (.statement i)

def logHour : Call :=
  .create (some 1) { taskId := 100, durationMinutes := .fin 60, startedAt := some (.time 432000000) }

/-- A log is created, then the week is submitted. -/
def inOrder : List Event :=
  .enter logHour :: acts 0 (List.replicate 7 { id := 2 }) ++
    .enter (.submit (some 1) 1 1) :: acts 1 (List.replicate 5 {})

theorem approved_time_submitted_in_order :
    (calls utcRuntime oneLog inOrder).store.timeLogs.rows.map TimeLogRow.id = [1, 2] ∧
    (calls utcRuntime oneLog inOrder).store.statusOf 1 = some .submitted ∧
    (∀ more, Keeps (calls utcRuntime oneLog inOrder).store
      (calls utcRuntime oneLog (inOrder ++ more)).store) ∧
    ∀ l ∈ (calls utcRuntime oneLog inOrder).store.timeLogs.rows,
      (calls utcRuntime oneLog inOrder).store.closed l.timesheetId →
        CommittedBefore utcRuntime oneLog inOrder l :=
  ⟨by decide, by decide,
    (approved_time_submitted utcRuntime oneLog inOrder).1,
    (approved_time_submitted utcRuntime oneLog inOrder).2 (by decide)⟩

/-- The week is submitted between the insert of a log and its commit. -/
def overtaken : List Event :=
  [.enter logHour, .enter (.submit (some 1) 1 1)] ++ acts 0 (List.replicate 5 { id := 2 }) ++
    acts 1 (List.replicate 5 {}) ++ acts 0 (List.replicate 2 {})

/-- The log is committed into the submitted week. -/
theorem log_after_submission :
    (calls utcRuntime oneLog overtaken).store.timeLogs.rows.map (fun l => (l.id, l.timesheetId)) =
      [(1, 1), (2, 1)] ∧
    (calls utcRuntime oneLog overtaken).store.statusOf 1 = some .submitted ∧
    ¬ ∀ l ∈ (calls utcRuntime oneLog overtaken).store.timeLogs.rows,
      (calls utcRuntime oneLog overtaken).store.closed l.timesheetId →
        CommittedBefore utcRuntime oneLog overtaken l := by
  have hrows : (calls utcRuntime oneLog overtaken).store.timeLogs.rows.map
      (fun l => (l.id, l.timesheetId)) = [(1, 1), (2, 1)] := by decide
  have hstatus : (calls utcRuntime oneLog overtaken).store.statusOf 1 = some .submitted := by
    decide
  refine ⟨hrows, hstatus, fun h => ?_⟩
  have hmem : ((2, 1) : Uuid × Uuid) ∈ (calls utcRuntime oneLog overtaken).store.timeLogs.rows.map
      fun l => (l.id, l.timesheetId) := by
    rw [hrows]
    decide
  obtain ⟨l, hl, hids⟩ := List.mem_map.mp hmem
  obtain ⟨hid, hsheet⟩ := Prod.mk.inj hids
  obtain ⟨before, event, after, hsplit, hthere, -⟩ := h l hl (Or.inl (hsheet ▸ hstatus))
  -- before the last event the log is not there
  have hearlier : ∀ n < overtaken.length, ∀ l' ∈
      (calls utcRuntime oneLog (overtaken.take n)).store.timeLogs.rows, l'.id ≠ 2 := by
    decide
  have htake : overtaken.take before.length = before := by simp [hsplit]
  have hshort : before.length < overtaken.length := by
    rw [hsplit, List.length_append, List.length_cons]
    omega
  refine hearlier before.length hshort l ?_ hid
  rw [htake]
  exact hthere

end CalmBoard.Timesheets
