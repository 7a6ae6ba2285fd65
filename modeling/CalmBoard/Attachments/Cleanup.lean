import CalmBoard.Attachments.Repository
import CalmBoard.Usage.Limits

/-!
# CalmBoard.Attachments.Cleanup — a clean-up that runs alone

* `cleanupOrphanAttachments`: the claim, then one candidate after the other.
* `finishCandidate`: the deletion of a row, which the storage counters may refuse.
* `cleanup_done`, `cleanup_refused`: with claim times that survive the way through a date, every candidate
  is finished or released, unless the counters refuse.
* `cleanup_lost`: with others, no row is touched.
* `cleanup_finished_iff`: when what is counted is also done.
-/

namespace CalmBoard.Attachments

open Usage (CountedRow Limits UsageError applyOrganizationUsageDelta enforceDelete)

/-! ### One run -/

/-- What is thrown: an `Error`, or something else. -/
inductive Thrown where
  | error (message : String)
  | other

def Thrown.message : Thrown → String
  | .error message => message
  | .other => "Unknown cleanup error"

/-- `CleanupStorage`, with a state of its own. -/
structure CleanupStorage (σ : Type*) where
  deleteReference : ObjectKey → σ → Except Thrown Unit × σ

variable {σ : Type*} (storage : CleanupStorage σ)

/-- The file, then its preview. -/
def deleteReferences (c : AttachmentCleanupCandidate) (bucket : σ) : Except Thrown Unit × σ :=
  match storage.deleteReference c.url bucket with
  | (.error e, bucket) => (.error e, bucket)
  | (.ok (), bucket) =>
    match c.previewReference with
    | some previewReference => storage.deleteReference previewReference bucket
    | none => (.ok (), bucket)

/-! ### Storage counters -/

instance : CountedRow Attachment where
  id := Attachment.id
  organizationId := Attachment.organizationId
  workspaceId a := some a.workspaceId
  active a := a.deletedAt.isNone
  size := Attachment.fileSize

/-- The message of an error that a trigger of the counters raises. -/
def usageMessage : UsageError → String
  | .limitExceeded .. => "usage limit exceeded"
  | .notConfigured organizationId =>
    "Usage limits are not configured for organization " ++ toString organizationId
  | .database constraint =>
    "new row for relation \"usage_limits\" violates check constraint \"" ++ constraint ++ "\""

/-- `attachments_enforce_usage_delete`, for the deletion of these rows -/
def enforceStorageUsageDelete (limits : Limits) (old : List Attachment) : Except UsageError Limits :=
  enforceDelete .storage limits old

/-- The row of a candidate, where it still carries the claim. -/
def ownedRow (c : AttachmentCleanupCandidate) (s : Store) : Option Attachment :=
  (s.attachments.find? c.id).filter c.owns

def finishCandidate (c : AttachmentCleanupCandidate) (s : Store) (limits : Limits) :
    Except UsageError (Store × Limits) := do
  let limits ← enforceStorageUsageDelete limits (ownedRow c s).toList
  return (deleteCandidate c s, limits)

/-! ### A run -/

structure CleanupRun (σ : Type*) where
  store : Store
  limits : Limits
  bucket : σ
  deleted : ℕ := 0
  failed : ℕ := 0

def CleanupRun.release (run : CleanupRun σ) (c : AttachmentCleanupCandidate) (message : String) :
    CleanupRun σ :=
  { run with store := releaseCandidate c message run.store, failed := run.failed + 1 }

def cleanupCandidate (run : CleanupRun σ) (c : AttachmentCleanupCandidate) : CleanupRun σ :=
  match deleteReferences storage c run.bucket with
  | (.error e, bucket) => { run with bucket }.release c e.message
  | (.ok (), bucket) =>
    match finishCandidate c run.store run.limits with
    | .error e => { run with bucket }.release c (usageMessage e)
    | .ok (store, limits) => { store, limits, bucket, deleted := run.deleted + 1, failed := run.failed }

/-- The candidates of a claim that finds no row locked. -/
def claimed (options : AttachmentCleanupOptions) (now : ℤ) (s : Store) : List AttachmentCleanupCandidate :=
  (claimAttachmentCleanupBatch options now [] s).map (candidateOf now)

/-- The store and the numbers that are returned; the number of candidates is the first of them. -/
def cleanupOrphanAttachments (options : AttachmentCleanupOptions) (now : ℤ) (s : Store) (limits : Limits)
    (bucket : σ) : ℕ × CleanupRun σ :=
  let candidates := claimed options now s
  let store := commitCleanupClaim (candidates.map AttachmentCleanupCandidate.id) now s
  (candidates.length, candidates.foldl (cleanupCandidate storage) { store, limits, bucket })

/-! ### What should come of it -/

/-- Every candidate with what its deletions came to. -/
def outcomes : List AttachmentCleanupCandidate → σ → List (AttachmentCleanupCandidate × Except Thrown Unit)
  | [], _ => []
  | c :: rest, bucket =>
    let (outcome, bucket) := deleteReferences storage c bucket
    (c, outcome) :: outcomes rest bucket

def succeeded (x : AttachmentCleanupCandidate × Except Thrown Unit) : Bool := x.2.isOk

/-- The rows whose files are deleted are gone, the others are free again and say why, and both are
counted. -/
structure Finished (run : CleanupRun σ)
    (results : List (AttachmentCleanupCandidate × Except Thrown Unit)) : Prop where
  gone : ∀ c, (c, .ok ()) ∈ results → ∀ a ∈ run.store.attachments.rows, a.id ≠ c.id
  released : ∀ c e, (c, .error e) ∈ results → ∃ a ∈ run.store.attachments.rows, a.id = c.id ∧
    a.cleanupClaimedAt = none ∧ a.cleanupError = some (String.ofList (e.message.toList.take 2000))
  deleted : run.deleted = results.countP succeeded
  failed : run.failed = results.countP fun x => !succeeded x

theorem outcomes_cons (c : AttachmentCleanupCandidate) (rest : List AttachmentCleanupCandidate)
    (bucket : σ) :
    outcomes storage (c :: rest) bucket = (c, (deleteReferences storage c bucket).1) ::
      outcomes storage rest (deleteReferences storage c bucket).2 := rfl

theorem outcomes_map (candidates : List AttachmentCleanupCandidate) (bucket : σ) :
    (outcomes storage candidates bucket).map Prod.fst = candidates := by
  induction candidates generalizing bucket with
  | nil => rfl
  | cons c rest ih => exact congrArg (c :: ·) (ih _)

/-- The rows whose files are deleted, in the order of the run. -/
def erased (now : ℤ) : List Attachment → σ → List Attachment
  | [], _ => []
  | a :: rest, bucket =>
    let (outcome, bucket) := deleteReferences storage (candidateOf now a) bucket
    if outcome.isOk then a :: erased now rest bucket else erased now rest bucket

/-- The storage counters let rows go, one after the other. -/
def Admits (limits : Limits) : List Attachment → Prop
  | [] => True
  | a :: rest => ∃ limits', enforceStorageUsageDelete limits [a] = .ok limits' ∧ Admits limits' rest

theorem enforceStorageUsageDelete_single (limits : Limits) (a : Attachment) :
    enforceStorageUsageDelete limits [a] =
      if a.deletedAt.isNone then
        applyOrganizationUsageDelta limits a.organizationId .storage (-a.fileSize)
      else .ok limits := by
  have hactive : CountedRow.active a = a.deletedAt.isNone := rfl
  have hsize : CountedRow.size a = a.fileSize := rfl
  have horganization : Usage.TenantRow.organizationId a = a.organizationId := rfl
  unfold enforceStorageUsageDelete enforceDelete Usage.countRows Usage.applyChanges
  by_cases h : a.deletedAt.isNone = true
  · have hone : [a.organizationId].dedup = [a.organizationId] := rfl
    simp [hactive, hsize, horganization, h, Usage.grouped, hone]
  · have hnone : ([] : List Uuid).dedup = [] := rfl
    have hpure : (pure limits : Except UsageError Limits) = .ok limits := rfl
    simp [hactive, h, Usage.grouped, hnone, hpure]

/-- **One row**: it goes if it is soft-deleted or empty, and else if what its organization uses without it
is within the limit. -/
theorem enforceStorageUsageDelete_ok_iff {limits : Limits} {a : Attachment} :
    (∃ limits', enforceStorageUsageDelete limits [a] = .ok limits') ↔
      a.deletedAt.isSome = true ∨ a.fileSize = 0 ∨
        ∃ l, limits.find? a.organizationId = some l ∧
          (l.add .storage (-a.fileSize)).nonnegative = true ∧
          l.currentStorageBytes - a.fileSize ≤ l.maxStorageMb * 1024 * 1024 := by
  rw [enforceStorageUsageDelete_single]
  by_cases hdeleted : a.deletedAt.isNone = true
  · rw [if_pos hdeleted]
    have hnot : ¬ a.deletedAt.isSome = true := by
      rw [Option.isNone_iff_eq_none.mp hdeleted]
      exact Bool.false_ne_true
    unfold applyOrganizationUsageDelta
    by_cases hempty : a.fileSize = 0
    · simp [hempty]
    · have hdelta : (-a.fileSize : ℤ) ≠ 0 := by omega
      rw [if_neg hdelta, if_neg (by decide)]
      cases hfind : limits.find? a.organizationId with
      | none => simp [hnot, hempty, throw, throwThe, MonadExceptOf.throw]
      | some l =>
        have hcurrent : (l.add .storage (-a.fileSize)).current .storage =
            l.currentStorageBytes + -a.fileSize := rfl
        have hlimit : (l.add .storage (-a.fileSize)).configured .storage = l.maxStorageMb * 1024 * 1024 :=
          rfl
        simp only [hnot, hempty, false_or, Option.some.injEq, exists_eq_left', hcurrent, hlimit]
        by_cases hnonnegative : (l.add .storage (-a.fileSize)).nonnegative = true
        · rw [hnonnegative]
          by_cases hover : l.currentStorageBytes + -a.fileSize > l.maxStorageMb * 1024 * 1024
          · simp [hover, throw, throwThe, MonadExceptOf.throw]
            omega
          · simp [hover]
            omega
        · simp [hnonnegative, throw, throwThe, MonadExceptOf.throw]
  · rw [if_neg hdeleted]
    refine iff_of_true ⟨limits, rfl⟩ (Or.inl ?_)
    rwa [Bool.not_eq_true, Option.isNone_eq_false_iff] at hdeleted

theorem erased_of_ok {now : ℤ} {a : Attachment} {rest : List Attachment} {bucket : σ}
    (h : (deleteReferences storage (candidateOf now a) bucket).1 = .ok ()) :
    erased storage now (a :: rest) bucket =
      a :: erased storage now rest (deleteReferences storage (candidateOf now a) bucket).2 := by
  have hok : (deleteReferences storage (candidateOf now a) bucket).1.isOk = true := by
    rw [h]
    rfl
  exact if_pos hok

theorem erased_of_error {now : ℤ} {a : Attachment} {rest : List Attachment} {bucket : σ} {e : Thrown}
    (h : (deleteReferences storage (candidateOf now a) bucket).1 = .error e) :
    erased storage now (a :: rest) bucket =
      erased storage now rest (deleteReferences storage (candidateOf now a) bucket).2 := by
  have herror : ¬ (deleteReferences storage (candidateOf now a) bucket).1.isOk = true := by
    rw [h]
    exact Bool.false_ne_true
  exact if_neg herror

/-! ### One candidate -/

variable {c : AttachmentCleanupCandidate} {s : Store} {limits : Limits} {now : ℤ} {a : Attachment}

/-- **One candidate**: its row is deleted; or the storage counters refuse that, and it is released; or its
files are not deleted, and it is released. -/
theorem cleanupCandidate_cases (run : CleanupRun σ) (c : AttachmentCleanupCandidate) :
    (∃ limits, (deleteReferences storage c run.bucket).1 = .ok () ∧
        enforceStorageUsageDelete run.limits (ownedRow c run.store).toList = .ok limits ∧
        cleanupCandidate storage run c = ⟨deleteCandidate c run.store, limits,
          (deleteReferences storage c run.bucket).2, run.deleted + 1, run.failed⟩) ∨
      (∃ e, (deleteReferences storage c run.bucket).1 = .ok () ∧
        enforceStorageUsageDelete run.limits (ownedRow c run.store).toList = .error e ∧
        cleanupCandidate storage run c = ⟨releaseCandidate c (usageMessage e) run.store, run.limits,
          (deleteReferences storage c run.bucket).2, run.deleted, run.failed + 1⟩) ∨
      ∃ e, (deleteReferences storage c run.bucket).1 = .error e ∧
        cleanupCandidate storage run c = ⟨releaseCandidate c e.message run.store, run.limits,
          (deleteReferences storage c run.bucket).2, run.deleted, run.failed + 1⟩ := by
  unfold cleanupCandidate finishCandidate
  rcases deleteReferences storage c run.bucket with ⟨e | _, bucket⟩
  · exact Or.inr (Or.inr ⟨e, rfl, rfl⟩)
  · cases enforceStorageUsageDelete run.limits (ownedRow c run.store).toList with
    | error e => exact Or.inr (Or.inl ⟨e, rfl, rfl, rfl⟩)
    | ok limits => exact Or.inl ⟨limits, rfl, rfl, rfl⟩

theorem find?_deleteCandidate_of_ne {k : Uuid} (h : k ≠ c.id) :
    (deleteCandidate c s).attachments.find? k = s.attachments.find? k := by
  refine Table.find?_remove_of fun a ha => ?_
  rw [AttachmentCleanupCandidate.owns, decide_eq_false (by rw [ha]; exact h), Bool.false_and]

theorem find?_releaseCandidate_of_ne {message : String} {k : Uuid} (h : k ≠ c.id) :
    (releaseCandidate c message s).attachments.find? k = s.attachments.find? k := by
  unfold releaseCandidate
  rw [Table.find?_update]
  cases hk : s.attachments.find? k with
  | none => rfl
  | some a =>
    have hid : a.id ≠ c.id := by
      rw [show a.id = k from Table.key_of_find? hk]
      exact h
    rw [Option.map_some, AttachmentCleanupCandidate.owns, decide_eq_false hid, Bool.false_and]
    rfl

theorem bucket_cleanupCandidate (run : CleanupRun σ) (c : AttachmentCleanupCandidate) :
    (cleanupCandidate storage run c).bucket = (deleteReferences storage c run.bucket).2 := by
  rcases cleanupCandidate_cases storage run c with
    ⟨_, -, -, hrun⟩ | ⟨_, -, -, hrun⟩ | ⟨_, -, hrun⟩ <;> rw [hrun]

theorem find?_cleanupCandidate_of_ne (run : CleanupRun σ) {k : Uuid} (h : k ≠ c.id) :
    (cleanupCandidate storage run c).store.attachments.find? k = run.store.attachments.find? k := by
  rcases cleanupCandidate_cases storage run c with
    ⟨_, -, -, hrun⟩ | ⟨_, -, -, hrun⟩ | ⟨_, -, hrun⟩
  · rw [hrun, find?_deleteCandidate_of_ne h]
  · rw [hrun, find?_releaseCandidate_of_ne h]
  · rw [hrun, find?_releaseCandidate_of_ne h]

theorem find?_cleanup_of_not_mem {k : Uuid} : ∀ (candidates : List AttachmentCleanupCandidate)
    (run : CleanupRun σ), k ∉ candidates.map AttachmentCleanupCandidate.id →
      (candidates.foldl (cleanupCandidate storage) run).store.attachments.find? k =
        run.store.attachments.find? k
  | [], _, _ => rfl
  | c :: rest, run, h => by
    rw [List.map_cons, List.mem_cons, not_or] at h
    rw [List.foldl_cons, find?_cleanup_of_not_mem rest _ h.2, find?_cleanupCandidate_of_ne storage run h.1]

/-! ### Rows that carry their claim -/

theorem owns_claimed (hwhole : now % 1000 = 0) (a : Attachment) :
    (candidateOf now a).owns (a.claimed now) = true := by
  have htime : toDate now * 1000 = now := by
    unfold toDate
    omega
  unfold AttachmentCleanupCandidate.owns candidateOf Attachment.claimed
  rw [htime]
  simp

theorem deleteCandidate_claimed (hwhole : now % 1000 = 0)
    (h : s.attachments.find? a.id = some (a.claimed now)) :
    (deleteCandidate (candidateOf now a) s).attachments.find? a.id = none := by
  unfold deleteCandidate
  rw [Table.find?_eq_none_iff]
  intro b hb hid
  rw [Table.rows_remove, List.mem_filter] at hb
  have hsame := Table.find?_of_mem hb.1
  rw [hid, h] at hsame
  rw [← Option.some.inj hsame, owns_claimed hwhole a] at hb
  exact absurd hb.2 (by decide)

theorem releaseCandidate_claimed {message : String} (hwhole : now % 1000 = 0)
    (h : s.attachments.find? a.id = some (a.claimed now)) :
    (releaseCandidate (candidateOf now a) message s).attachments.find? a.id =
      some ((a.claimed now).released message) := by
  unfold releaseCandidate
  rw [Table.find?_update, h, Option.map_some, if_pos (owns_claimed hwhole a)]

/-- The counters see the same of the row as before its claim. -/
theorem enforce_claimed (hwhole : now % 1000 = 0)
    (h : s.attachments.find? a.id = some (a.claimed now)) :
    enforceStorageUsageDelete limits (ownedRow (candidateOf now a) s).toList =
      enforceStorageUsageDelete limits [a] := by
  have hrow : ownedRow (candidateOf now a) s = some (a.claimed now) := by
    unfold ownedRow
    rw [show (candidateOf now a).id = a.id from rfl, h, Option.filter_some,
      if_pos (owns_claimed hwhole a)]
  rw [hrow, Option.toList_some, enforceStorageUsageDelete_single, enforceStorageUsageDelete_single]
  rfl

/-- What should come of a candidate has come of it. -/
def Done (s : Store) (c : AttachmentCleanupCandidate) : Except Thrown Unit → Prop
  | .ok _ => s.attachments.find? c.id = none
  | .error e => ∃ a : Attachment, s.attachments.find? c.id = some (a.released e.message)

/-- The rows of the rest still carry their claims. -/
theorem claimed_rest {rest : List Attachment} {run : CleanupRun σ}
    (hids : ((a :: rest).map Attachment.id).Nodup)
    (hrows : ∀ b ∈ a :: rest, run.store.attachments.find? b.id = some (b.claimed now)) :
    ∀ b ∈ rest, (cleanupCandidate storage run (candidateOf now a)).store.attachments.find? b.id =
      some (b.claimed now) := by
  intro b hb
  rw [List.map_cons, List.nodup_cons] at hids
  have hne : b.id ≠ (candidateOf now a).id := by
    intro hid
    have hmem : a.id ∈ rest.map Attachment.id := List.mem_map.mpr ⟨b, hb, hid⟩
    exact hids.1 hmem
  rw [find?_cleanupCandidate_of_ne storage run hne]
  exact hrows b (List.mem_cons_of_mem a hb)

section Claimed

variable (hwhole : now % 1000 = 0)
include hwhole

/-- Where the counters let the rows go, everything is done and counted. -/
theorem cleanup_done : ∀ (rows : List Attachment) (run : CleanupRun σ),
    (rows.map Attachment.id).Nodup →
    (∀ b ∈ rows, run.store.attachments.find? b.id = some (b.claimed now)) →
    Admits run.limits (erased storage now rows run.bucket) →
    (∀ x ∈ outcomes storage (rows.map (candidateOf now)) run.bucket,
      Done ((rows.map (candidateOf now)).foldl (cleanupCandidate storage) run).store x.1 x.2) ∧
    ((rows.map (candidateOf now)).foldl (cleanupCandidate storage) run).deleted = run.deleted +
      (outcomes storage (rows.map (candidateOf now)) run.bucket).countP succeeded ∧
    ((rows.map (candidateOf now)).foldl (cleanupCandidate storage) run).failed = run.failed +
      (outcomes storage (rows.map (candidateOf now)) run.bucket).countP fun x => !succeeded x
  | [], _, _, _, _ => ⟨fun _ hx => absurd hx List.not_mem_nil, rfl, rfl⟩
  | a :: rest, run, hids, hrows, hadmits => by
    have hrest := claimed_rest storage hids hrows
    have hlast : ∀ run : CleanupRun σ,
        ((rest.map (candidateOf now)).foldl (cleanupCandidate storage) run).store.attachments.find?
          a.id = run.store.attachments.find? a.id := by
      intro run
      refine find?_cleanup_of_not_mem storage _ run ?_
      rw [List.map_cons, List.nodup_cons] at hids
      rw [List.map_map]
      exact hids.1
    have hself := hrows a List.mem_cons_self
    have hnodup : (rest.map Attachment.id).Nodup := (List.nodup_cons.mp hids).2
    rw [List.map_cons, List.foldl_cons, outcomes_cons, ← bucket_cleanupCandidate]
    rcases cleanupCandidate_cases storage run (candidateOf now a) with
      ⟨limits, hok, henforce, hrun⟩ | ⟨e, hok, henforce, hrun⟩ | ⟨e, herror, hrun⟩
    · rw [erased_of_ok storage hok] at hadmits
      rw [hok]
      rw [enforce_claimed hwhole hself] at henforce
      obtain ⟨limits', hlimits, hadmits⟩ := hadmits
      rw [henforce] at hlimits
      cases hlimits
      obtain ⟨hdone, hdeleted, hfailed⟩ := cleanup_done rest
        (cleanupCandidate storage run (candidateOf now a)) hnodup hrest (by rw [hrun]; exact hadmits)
      refine ⟨List.forall_mem_cons.mpr ⟨?_, hdone⟩, ?_, ?_⟩
      · refine (hlast _).trans ?_
        rw [hrun]
        exact deleteCandidate_claimed hwhole hself
      · have hcount : (cleanupCandidate storage run (candidateOf now a)).deleted = run.deleted + 1 := by
          rw [hrun]
        rw [hdeleted, List.countP_cons_of_pos (by rfl), hcount]
        omega
      · rw [hfailed, List.countP_cons_of_neg (by simp [succeeded]; rfl), hrun]
    · rw [erased_of_ok storage hok] at hadmits
      rw [enforce_claimed hwhole hself] at henforce
      obtain ⟨limits', hlimits, -⟩ := hadmits
      cases henforce.symm.trans hlimits
    · rw [erased_of_error storage herror] at hadmits
      rw [herror]
      obtain ⟨hdone, hdeleted, hfailed⟩ := cleanup_done rest
        (cleanupCandidate storage run (candidateOf now a)) hnodup hrest (by rw [hrun]; exact hadmits)
      refine ⟨List.forall_mem_cons.mpr ⟨?_, hdone⟩, ?_, ?_⟩
      · refine ⟨a.claimed now, (hlast _).trans ?_⟩
        rw [hrun]
        exact releaseCandidate_claimed hwhole hself
      · rw [hdeleted, List.countP_cons_of_neg (by simp [succeeded]; rfl), hrun]
      · have hcount : (cleanupCandidate storage run (candidateOf now a)).failed = run.failed + 1 := by
          rw [hrun]
        rw [hfailed, List.countP_cons_of_pos (by rfl), hcount]
        omega

/-- Where they do not, a row stays whose files are deleted. -/
theorem cleanup_refused : ∀ (rows : List Attachment) (run : CleanupRun σ),
    (rows.map Attachment.id).Nodup →
    (∀ b ∈ rows, run.store.attachments.find? b.id = some (b.claimed now)) →
    ¬ Admits run.limits (erased storage now rows run.bucket) →
    ∃ c, (c, .ok ()) ∈ outcomes storage (rows.map (candidateOf now)) run.bucket ∧
      ∃ a, ((rows.map (candidateOf now)).foldl (cleanupCandidate storage) run).store.attachments.find?
        c.id = some a
  | [], _, _, _, h => absurd trivial h
  | a :: rest, run, hids, hrows, hrefused => by
    have hrest := claimed_rest storage hids hrows
    have hself := hrows a List.mem_cons_self
    have hnodup : (rest.map Attachment.id).Nodup := (List.nodup_cons.mp hids).2
    have hlater : ¬ Admits (cleanupCandidate storage run (candidateOf now a)).limits
        (erased storage now rest (cleanupCandidate storage run (candidateOf now a)).bucket) →
        ∃ c, (c, .ok ()) ∈ outcomes storage ((a :: rest).map (candidateOf now)) run.bucket ∧
          ∃ b, (((a :: rest).map (candidateOf now)).foldl (cleanupCandidate storage)
            run).store.attachments.find? c.id = some b := by
      intro h
      obtain ⟨c, hc, hkept⟩ := cleanup_refused rest _ hnodup hrest h
      refine ⟨c, ?_, hkept⟩
      rw [List.map_cons, outcomes_cons, ← bucket_cleanupCandidate]
      exact List.mem_cons_of_mem _ hc
    rcases cleanupCandidate_cases storage run (candidateOf now a) with
      ⟨limits, hok, henforce, hrun⟩ | ⟨e, hok, henforce, hrun⟩ | ⟨e, herror, hrun⟩
    · rw [erased_of_ok storage hok] at hrefused
      rw [enforce_claimed hwhole hself] at henforce
      refine hlater fun h => hrefused ⟨limits, henforce, ?_⟩
      rwa [hrun] at h
    · refine ⟨candidateOf now a, ?_, (a.claimed now).released (usageMessage e), ?_⟩
      · rw [List.map_cons, outcomes_cons, hok]
        exact List.mem_cons_self
      · rw [List.map_cons, List.foldl_cons, find?_cleanup_of_not_mem, hrun]
        · exact releaseCandidate_claimed hwhole hself
        · rw [List.map_map]
          exact (List.nodup_cons.mp hids).1
    · rw [erased_of_error storage herror] at hrefused
      refine hlater fun h => hrefused ?_
      rwa [hrun] at h

end Claimed

/-! ### Rows that do not -/

/-- A token that no row carries. -/
def Lost (s : Store) (c : AttachmentCleanupCandidate) : Prop :=
  ∀ a ∈ s.attachments.rows, c.owns a = false

theorem eq_of_rows {T : Table Attachment Attachment.id} (h : T.rows = s.attachments.rows) :
    { s with attachments := T } = s := by
  rw [Table.ext_rows h]

theorem deleteCandidate_lost (h : Lost s c) : deleteCandidate c s = s := by
  refine eq_of_rows (List.filter_eq_self.mpr fun a ha => ?_)
  rw [h a ha]
  rfl

theorem releaseCandidate_lost {message : String} (h : Lost s c) :
    releaseCandidate c message s = s := by
  refine eq_of_rows ((List.map_congr_left fun a ha => ?_).trans (List.map_id _))
  rw [h a ha]
  rfl

theorem cleanup_lost (candidates : List AttachmentCleanupCandidate) (run : CleanupRun σ)
    (hlost : ∀ c ∈ candidates, Lost run.store c) :
    (candidates.foldl (cleanupCandidate storage) run).store = run.store := by
  induction candidates generalizing run with
  | nil => rfl
  | cons c rest ih =>
    have hfirst := hlost c List.mem_cons_self
    have hsame : (cleanupCandidate storage run c).store = run.store := by
      rcases cleanupCandidate_cases storage run c with
        ⟨_, -, -, hrun⟩ | ⟨_, -, -, hrun⟩ | ⟨_, -, hrun⟩
      · rw [hrun]
        exact deleteCandidate_lost hfirst
      · rw [hrun]
        exact releaseCandidate_lost hfirst
      · rw [hrun]
        exact releaseCandidate_lost hfirst
    rw [List.foldl_cons, ih _ fun d hd => hsame.symm ▸ hlost d (List.mem_cons_of_mem _ hd), hsame]

/-! ### Claims -/

variable {options : AttachmentCleanupOptions}

theorem nodup_claimed (options : AttachmentCleanupOptions) (now : ℤ) (s : Store) :
    ((claimAttachmentCleanupBatch options now [] s).map Attachment.id).Nodup := by
  unfold claimAttachmentCleanupBatch
  refine List.Nodup.sublist ((List.take_sublist _ _).map _) ?_
  refine ((List.mergeSort_perm _ _).map _).nodup_iff.mpr ?_
  exact s.attachments.nodup.sublist (List.filter_sublist.map _)

theorem claimed_eq_nil_iff {now : ℤ} :
    claimed options now s = [] ↔
      options.batchSize = 0 ∨ ∀ a ∈ s.attachments.rows, cleanupEligible options now s a = false := by
  unfold claimed claimAttachmentCleanupBatch
  rw [List.map_eq_nil_iff, List.take_eq_nil_iff, ← List.length_eq_zero_iff, List.length_mergeSort,
    List.length_eq_zero_iff, List.filter_eq_nil_iff]
  simp

/-- The rows of a claim, as it leaves them. -/
theorem find?_claim {now : ℤ} (h : a ∈ claimAttachmentCleanupBatch options now [] s) :
    (commitCleanupClaim ((claimed options now s).map AttachmentCleanupCandidate.id) now
      s).attachments.find? a.id = some (a.claimed now) := by
  have hid : a.id ∈ (claimed options now s).map AttachmentCleanupCandidate.id :=
    List.mem_map.mpr ⟨candidateOf now a, List.mem_map_of_mem h, rfl⟩
  have hmem := List.mem_of_mem_take h
  rw [List.mem_mergeSort, List.mem_filter] at hmem
  unfold commitCleanupClaim
  rw [Table.find?_update, Table.find?_of_mem hmem.1, Option.map_some,
    if_pos (List.contains_iff_mem.mpr hid)]

theorem lost_of_not_whole {now : ℤ} (hwhole : now % 1000 ≠ 0) (h : c ∈ claimed options now s) :
    Lost (commitCleanupClaim ((claimed options now s).map AttachmentCleanupCandidate.id) now s) c := by
  obtain ⟨a, ha, rfl⟩ := List.mem_map.mp h
  have hfind := find?_claim ha
  intro b hb
  by_contra howns
  rw [Bool.not_eq_false, AttachmentCleanupCandidate.owns, Bool.and_eq_true, decide_eq_true_eq,
    decide_eq_true_eq] at howns
  have hsame := Table.find?_of_mem hb
  rw [howns.1, show (candidateOf now a).id = a.id from rfl, hfind] at hsame
  have hclaimed : some now = some ((candidateOf now a).claimToken * 1000) := by
    rw [← howns.2, ← Option.some.inj hsame]
    rfl
  rw [show (candidateOf now a).claimToken = toDate now from rfl, toDate, Option.some.injEq] at hclaimed
  omega

/-- **What is counted is done** if no row is claimed, and else if the time of the claim has no digits
after the millisecond and the storage counters let the rows go whose files are deleted. -/
theorem cleanup_finished_iff (options : AttachmentCleanupOptions) (now : ℤ) (s : Store) (limits : Limits)
    (bucket : σ) :
    Finished (cleanupOrphanAttachments storage options now s limits bucket).2
        (outcomes storage (claimed options now s) bucket) ↔
      (options.batchSize = 0 ∨ ∀ a ∈ s.attachments.rows, cleanupEligible options now s a = false) ∨
        now % 1000 = 0 ∧ Admits limits
          (erased storage now (claimAttachmentCleanupBatch options now [] s) bucket) := by
  rw [← claimed_eq_nil_iff]
  unfold cleanupOrphanAttachments
  have hids := nodup_claimed options now s
  have hrows : ∀ a ∈ claimAttachmentCleanupBatch options now [] s, (commitCleanupClaim
      ((claimed options now s).map AttachmentCleanupCandidate.id) now s).attachments.find? a.id =
        some (a.claimed now) := fun a ha => find?_claim ha
  constructor
  · intro h
    by_contra hcontra
    rw [not_or] at hcontra
    obtain ⟨hsome, hnot⟩ := hcontra
    by_cases hwhole : now % 1000 = 0
    · obtain ⟨c, hc, a, ha⟩ := cleanup_refused storage hwhole
        (claimAttachmentCleanupBatch options now [] s) ⟨_, limits, bucket, 0, 0⟩ hids hrows
        fun hadmits => hnot ⟨hwhole, hadmits⟩
      obtain ⟨hmem, hid⟩ := Table.find?_eq_some_iff.mp ha
      exact h.gone c hc a hmem hid
    · have hstore := cleanup_lost storage (claimed options now s) ⟨commitCleanupClaim
        ((claimed options now s).map AttachmentCleanupCandidate.id) now s, limits, bucket, 0, 0⟩
        fun c hc => lost_of_not_whole hwhole hc
      obtain ⟨c, hc⟩ := List.exists_mem_of_ne_nil _ hsome
      obtain ⟨a, ha, rfl⟩ := List.mem_map.mp hc
      obtain ⟨hmem, hid⟩ := Table.find?_eq_some_iff.mp (find?_claim ha)
      have houtcome : candidateOf now a ∈ (outcomes storage (claimed options now s) bucket).map Prod.fst := by
        rwa [outcomes_map]
      obtain ⟨⟨c, outcome⟩, hmemo, hcandidate⟩ := List.mem_map.mp houtcome
      have hcid : a.id = c.id := congrArg AttachmentCleanupCandidate.id hcandidate.symm
      cases outcome with
      | ok _ =>
        have hgone := h.gone c hmemo
        rw [hstore] at hgone
        exact hgone _ hmem (hid.trans hcid)
      | error e =>
        obtain ⟨b, hb, hbid, hclaimed, -⟩ := h.released c e hmemo
        rw [hstore] at hb
        rw [Table.eq_of_mem hb hmem (hbid.trans (hid.trans hcid).symm)] at hclaimed
        cases hclaimed
  · rintro (hnone | ⟨hwhole, hadmits⟩)
    · rw [hnone]
      exact ⟨fun c hc => absurd hc List.not_mem_nil, fun c e hc => absurd hc List.not_mem_nil, rfl, rfl⟩
    · obtain ⟨hdone, hdeleted, hfailed⟩ := cleanup_done storage hwhole
        (claimAttachmentCleanupBatch options now [] s) ⟨_, limits, bucket, 0, 0⟩ hids hrows hadmits
      refine ⟨fun c hc a ha hid => ?_, fun c e hc => ?_, ?_, ?_⟩
      · exact Table.find?_eq_none_iff.mp (hdone (c, .ok ()) hc) a ha hid
      · obtain ⟨a, ha⟩ := hdone (c, .error e) hc
        obtain ⟨hmem, hid⟩ := Table.find?_eq_some_iff.mp ha
        exact ⟨_, hmem, hid, rfl, rfl⟩
      · exact hdeleted.trans (Nat.zero_add _)
      · exact hfailed.trans (Nat.zero_add _)

/-! ### A clock that counts microseconds -/

/-- Deleted a day and an hour ago. -/
def sampleDeleted : Store :=
  { Store.start Table.empty Table.empty with
    attachments :=
      { rows :=
          [{ id := 1, organizationId := 1, workspaceId := 1, target := .task 1, fileName := "a.txt"
             fileSize := 1, mimeType := none, url := ⟨1, 1, "2026/07", 2, "a.txt", false⟩
             scanStatus := .clean, createdAt := 0, updatedAt := 0, deletedAt := some 0 }]
        nodup := by decide } }

def sampleStorage : CleanupStorage Unit := ⟨fun _ bucket => (.ok (), bucket)⟩

/-- The file is deleted and counted, but the row is not found again: its claim time is one microsecond
past the date. -/
theorem cleanup_microsecond :
    (cleanupOrphanAttachments sampleStorage {} 90000000001 sampleDeleted Table.empty ()).2.deleted = 1 ∧
      ¬ Finished (cleanupOrphanAttachments sampleStorage {} 90000000001 sampleDeleted Table.empty ()).2
        (outcomes sampleStorage (claimed {} 90000000001 sampleDeleted) ()) := by
  refine ⟨by decide +kernel, fun h => ?_⟩
  have hkept : ∃ a ∈ (cleanupOrphanAttachments sampleStorage {} 90000000001
      sampleDeleted Table.empty ()).2.store.attachments.rows, a.id = 1 := by decide +kernel
  obtain ⟨a, ha, hid⟩ := hkept
  have hdeleted : ∃ x ∈ outcomes sampleStorage (claimed {} 90000000001 sampleDeleted) (),
      x.1.id = 1 ∧ succeeded x = true := by decide +kernel
  obtain ⟨⟨c, outcome⟩, hc, hcid, hok⟩ := hdeleted
  cases outcome with
  | ok _ => exact h.gone c hc a ha (hid.trans hcid.symm)
  | error e => cases hok

end CalmBoard.Attachments
