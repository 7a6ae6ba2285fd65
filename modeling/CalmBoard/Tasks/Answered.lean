import CalmBoard.System
import CalmBoard.Tasks.Watchers

/-!
# CalmBoard.Tasks.Answered — a success answer and what it commits

* `closed_after`: what holds of every statement the service sends holds of what it does.
* `deliver_accepted`: the trigger on e-mails refuses nothing of its own accord.
* `answered_committed`: the update is committed if no statement of the dispatch fails.
-/

namespace CalmBoard.Watchers

open Savepoints Tasks Fallible

/-! ### The statements that are sent -/

variable {label : Delivery → Statement}

/-- `C` is kept when programs are put together, and holds of the statements of `P` that never fail by
themselves and leave the tasks alone. -/
structure Covers (C : ∀ α : Type, Call α → Prop) (P : Statement → Prop) : Prop extends Closed C where
  statement : ∀ {α : Type} (l : Statement) (f : Workspace → Option (α × Workspace)), P l →
    (∀ s, ∃ a s', f s = some (a, s') ∧ s'.db = s.db) → C α (Savepoints.statement l f)

section Closed

variable {C : ∀ α : Type, Call α → Prop} {P : Statement → Prop}

theorem Covers.select {α : Type} (hC : Covers C P) {l : Statement} (hl : P l) (f : Workspace → α) :
    C α (select l f) := hC.statement l _ hl fun s => ⟨f s, s, rfl, rfl⟩

theorem Covers.ite {α : Type} {c : Prop} [Decidable c] {p q : Call α} (hp : c → C α p)
    (hq : ¬ c → C α q) : C α (if c then p else q) := by
  by_cases h : c
  · rw [if_pos h]
    exact hp h
  · rw [if_neg h]
    exact hq h

theorem insertNotification_db (input : CreateNotificationInput) (s : Workspace) :
    (insertNotification input s).2.db = s.db := by
  unfold insertNotification
  split
  · rfl
  · split <;> rfl

theorem enqueue_db {input : CreateNotificationInput} {notificationId : Option Uuid} {s s' : Workspace}
    {a : Option NotificationEmailRow × String} (h : enqueue input notificationId s = some (a, s')) :
    s'.db = s.db := by
  unfold enqueue at h
  split at h
  · cases h
    simp only [insertEmail]
    split
    · rfl
    · split <;> rfl
  · cases h

variable (hC : Covers C P)

include hC

theorem closed_requireRecipient {d : Delivery} (hd : P (label d)) (userId : Uuid) :
    C Unit (requireRecipient label d userId) :=
  hC.bind (hC.select hd _) fun _ => Covers.ite (fun _ => hC.done _) fun _ => hC.done _

theorem closed_createNotification (hl : ∀ d, P (label d)) (input : CreateNotificationInput) :
    C NotificationRow (createNotification label input) := by
  refine hC.bind (closed_requireRecipient hC (hl _) _) fun _ => hC.bind ?_ fun created => ?_
  · exact hC.statement _ _ (hl _) fun s => ⟨_, _, rfl, insertNotification_db input s⟩
  · cases created with
    | some n => exact hC.done _
    | none =>
      refine Covers.ite (fun _ => hC.done _) fun _ => hC.bind (hC.select (hl _) _) fun existing => ?_
      cases existing <;> exact hC.done _

theorem closed_enqueueEmail (hl : ∀ d, P (label d))
    (he : ∀ input notificationId, C _ (statement (label .insertEmail) (enqueue input notificationId)))
    (input : CreateNotificationInput) (notificationId : Option Uuid) :
    C NotificationEmailRow (enqueueEmail label input notificationId) := by
  refine hC.bind (closed_requireRecipient hC (hl _) _) fun _ => hC.bind (he _ _) fun created => ?_
  obtain ⟨created, key⟩ := created
  cases created with
  | some e => exact hC.done _
  | none =>
    refine hC.bind (hC.select (hl _) _) fun existing => ?_
    cases existing <;> exact hC.done _

theorem closed_getDeliveryProfile (hl : ∀ d, P (label d)) (userId : Uuid) :
    C _ (getDeliveryProfile label userId) := by
  refine hC.bind (closed_requireRecipient hC (hl _) _) fun _ => hC.bind (hC.select (hl _) _)
    fun user => hC.bind ?_ fun _ => hC.bind (hC.select (hl _) _) fun _ => hC.done _
  cases user <;> exact hC.done _

theorem closed_deliverInApp (hw : ∀ u d, P (.watcher u d)) (input : DispatchWatcherNotificationInput)
    (userId : Uuid) (preferences : Option NotificationPreferences) :
    C _ (deliverInApp input userId preferences) :=
  Covers.ite (fun _ => hC.bind (closed_createNotification hC (hw _) _) fun _ => hC.done _)
    fun _ => hC.done _

theorem closed_deliver (hw : ∀ u d, P (.watcher u d))
    (he : ∀ u input notificationId,
      C _ (statement (.watcher u .insertEmail) (enqueue input notificationId)))
    (input : DispatchWatcherNotificationInput) (userId : Uuid) : C Bool (deliver input userId) :=
  hC.bind (closed_getDeliveryProfile hC (hw _) _) fun _ =>
    hC.bind (closed_deliverInApp hC hw _ _ _) fun _ =>
      Covers.ite
        (fun _ => hC.bind (closed_enqueueEmail hC (hw _) (he _) _ _) fun _ => hC.done _)
        fun _ => hC.done _

theorem closed_dispatch (hw : ∀ l, l.notifiesWatchers → P l)
    (hd : ∀ input userId, C Bool (deliver input userId)) (input : DispatchWatcherNotificationInput) :
    C _ (dispatchWatcherNotifications input) := by
  refine hC.bind ?_ fun watchers => hC.bind ?_ fun eligible => hC.foldlM ?_ _ _
  · exact hC.bind (hC.select (hw _ rfl) _) fun _ =>
      Covers.ite (fun _ => hC.select (hw _ rfl) _) fun _ => hC.done _
  · exact Covers.ite (fun _ => hC.done _) fun _ => hC.bind (hC.select (hw _ rfl) _) fun _ => hC.done _
  · exact fun notified userId =>
      hC.attempt (hC.bind (hd _ _) fun _ => hC.done _) fun _ => hC.done _

theorem closed_logActivityOf (ho : ∀ l, l.notifiesWatchers = false → P l) (actorId : Option Uuid)
    (row : Uuid → ActivityRow) : C Unit (logActivityOf actorId row) := by
  cases actorId with
  | none => exact hC.done _
  | some actorId =>
    refine hC.attempt (hC.bind (hC.select (ho _ rfl) _) fun _ => hC.bind (hC.select (ho _ rfl) _)
      fun _ => Covers.ite (fun _ => ?_) fun _ => hC.done _) fun _ => hC.done _
    exact hC.statement _ _ (ho _ rfl) fun s => ⟨_, _, rfl, rfl⟩

theorem closed_createAssignmentNotifications (ho : ∀ l, l.notifiesWatchers = false → P l)
    (task : HydratedTask) (userIds : List Uuid) (actorId : Option Uuid) :
    C Unit (createAssignmentNotifications task userIds actorId) := by
  refine hC.foldlM (fun _ userId => Covers.ite (fun _ => hC.done _) fun _ => ?_) _ _
  exact hC.bind (closed_createNotification hC (fun d => ho _ rfl) _) fun _ => hC.done _

theorem closed_notifyWatchers {changed : Bool}
    (hw : changed = true → ∀ l, l.notifiesWatchers → P l)
    (hd : changed = true → ∀ input userId, C Bool (deliver input userId))
    (input : DispatchWatcherNotificationInput) : C Unit (notifyWatchers changed input) :=
  Covers.ite
    (fun h => hC.attempt (hC.bind (closed_dispatch hC (hw h) (hd h) _) fun _ => hC.done _)
      fun _ => hC.done _)
    fun _ => hC.done _

end Closed

/-- Whether the watchers are told of a call. -/
def ServiceCall.tells (before task : HydratedTask) : ServiceCall → Bool
  | .update .. => (deriveWatcherRelevantTaskChanges before task).hasChanges
  | .move .. => task.row.status != before.row.status

theorem closed_after {C : ∀ α : Type, Call α → Prop} {P : Statement → Prop} (hC : Covers C P)
    (ho : ∀ l, l.notifiesWatchers = false → P l) {call : ServiceCall} {before task : HydratedTask}
    (hw : call.tells before task = true → ∀ l, l.notifiesWatchers → P l)
    (hd : call.tells before task = true → ∀ input userId, C Bool (deliver input userId))
    (actorId : Option Uuid) : C HydratedTask (call.after actorId before task) := by
  cases call with
  | update taskId input =>
    refine Covers.ite (fun _ => hC.done _) fun _ => hC.bind (closed_logActivityOf hC ho _ _)
      fun _ => hC.bind (closed_createAssignmentNotifications hC ho _ _ _) fun _ =>
        hC.bind (closed_notifyWatchers hC hw hd _) fun _ => hC.done _
  | move taskId input =>
    refine hC.bind (closed_logActivityOf hC ho _ _) fun _ =>
      hC.bind (closed_notifyWatchers hC hw hd _) fun _ => hC.done _

/-! ### What an error does -/

theorem flat_after (call : ServiceCall) (actorId : Option Uuid) (before task : HydratedTask) :
    Flat (call.after actorId before task) := by
  have hC : Covers (@Flat Statement Workspace RepoError) fun _ => True :=
    ⟨Flat.closed, fun l f _ _ => Flat.statement l f⟩
  exact closed_after hC (fun _ _ => trivial) (fun _ _ _ => trivial)
    (fun _ => closed_deliver hC (fun _ _ => trivial) fun _ _ _ => Flat.statement _ _) actorId

theorem keeps_db_after (call : ServiceCall) (actorId : Option Uuid) (before task : HydratedTask) :
    Keeps Workspace.db (call.after actorId before task) := by
  have hC : Covers (fun α (p : Call α) => Keeps Workspace.db p) fun _ => True := by
    refine ⟨Keeps.closed, fun l f _ hf => Keeps.statement fun s a s' h => ?_⟩
    obtain ⟨_, _, h', hdb⟩ := hf s
    rw [h] at h'
    cases h'
    exact hdb
  exact closed_after hC (fun _ _ => trivial) (fun _ _ _ => trivial)
    (fun _ => closed_deliver hC (fun _ _ => trivial)
      fun _ _ _ => Keeps.statement fun _ _ _ h => enqueue_db h) actorId

theorem sends_after {call : ServiceCall} {before task : HydratedTask}
    (h : call.tells before task = false) (actorId : Option Uuid) :
    Sends (fun l => l.notifiesWatchers = false) (call.after actorId before task) := by
  have hC : Covers (fun α (p : Call α) => Sends (fun l => l.notifiesWatchers = false) p)
      fun l => l.notifiesWatchers = false := ⟨Sends.closed, fun _ _ hl _ => Sends.statement hl⟩
  exact closed_after hC (fun _ hl => hl) (by simp [h]) (by simp [h]) actorId

theorem tells_self (call : ServiceCall) (task : HydratedTask) : call.tells task task = false := by
  cases call with
  | update taskId input => simp [ServiceCall.tells, deriveWatcherRelevantTaskChanges]
  | move taskId input => simp [ServiceCall.tells]

/-! ### What a healthy database accepts -/

/-- The program is refused nothing, whatever the store. -/
def Accepts {α : Type} (p : Call α) : Prop := Accepted (fun _ => True) p fun _ _ => True

theorem covers_accepts : Covers (fun α (p : Call α) => Accepts p) fun _ => True where
  done _ := fun _ ha _ => ⟨ha, trivial⟩
  andThen hp hk := Accepted.andThen hp hk
  statement l f _ hf := by
    refine Accepted.statement fun s _ => ?_
    obtain ⟨a, s', h, -⟩ := hf s
    exact ⟨a, s', h, trivial⟩

def Stored (userId : Uuid) (n : NotificationRow) (s : Workspace) : Prop :=
  s.notifications.find? n.id = some n ∧ n.userId = userId

theorem insertNotification_stored {input : CreateNotificationInput} {s : Workspace}
    {n : NotificationRow} (h : (insertNotification input s).1 = some n) :
    Stored input.userId n (insertNotification input s).2 := by
  unfold insertNotification at h ⊢
  split at h
  · cases h
  · next hsame =>
    rw [if_neg hsame]
    split at h
    · cases h
    · next notifications hins =>
      cases h
      refine ⟨?_, rfl⟩
      show notifications.find? _ = _
      rw [Table.find?_insert? hins]
      simp

theorem existingNotification_stored (label : Delivery → Statement) (input : CreateNotificationInput) :
    Accepted (fun _ => True) (existingNotification label input) fun r s =>
      ∀ n, r = .ok n → Stored input.userId n s := by
  unfold existingNotification
  by_cases h : input.deduplicationKey.isNone = true
  · rw [if_pos h]
    exact fun c ha _ => ⟨ha, fun n hn => by cases hn⟩
  · rw [if_neg h]
    refine Accepted.bind (M := fun r s => ∀ existing, r = .ok existing →
        existing = s.notifications.rows.find? (sameNotification input))
      (Accepted.statement fun s _ => ⟨_, _, rfl, by simp⟩) (fun existing => ?_) (by simp)
    cases existing with
    | none => exact fun c ha _ => ⟨ha, fun n hn => by cases hn⟩
    | some n =>
      intro c ha hfound
      refine ⟨ha, ?_⟩
      rintro _ ⟨⟩
      have hfind := (hfound _ rfl).symm
      have hsame : sameNotification input n = true := List.find?_some hfind
      simp only [sameNotification, Bool.and_eq_true, decide_eq_true_eq] at hsame
      exact ⟨Table.find?_of_mem (List.mem_of_find?_eq_some hfind), hsame.1.1⟩

theorem createNotification_stored (label : Delivery → Statement) (input : CreateNotificationInput) :
    Accepted (fun _ => True) (createNotification label input) fun r s =>
      ∀ n, r = .ok n → Stored input.userId n s := by
  have hrecipient : Accepts (requireRecipient label .createRecipient input.userId) :=
    closed_requireRecipient covers_accepts trivial _
  refine hrecipient.bind (fun _ => ?_) (by simp)
  refine Accepted.bind (M := fun r s => ∀ created, r = .ok created →
      ∀ n, created = some n → Stored input.userId n s)
    (Accepted.statement fun s _ => ⟨_, _, rfl, ?_⟩) (fun created => ?_) (by simp)
  · rintro _ ⟨⟩ n h
    exact insertNotification_stored h
  · cases created with
    | none => exact (existingNotification_stored label input).mono (fun _ _ => trivial) fun _ _ h => h
    | some n =>
      intro c ha h
      refine ⟨ha, ?_⟩
      rintro _ ⟨⟩
      exact h _ rfl n rfl

def Linked (userId : Uuid) (notificationId : Option Uuid) (s : Workspace) : Prop :=
  ∀ id, notificationId = some id → ∃ n, n.id = id ∧ Stored userId n s

theorem enqueueEmail_accepted (label : Delivery → Statement) (input : CreateNotificationInput)
    (notificationId : Option Uuid) :
    Accepted (Linked input.userId notificationId) (enqueueEmail label input notificationId)
      fun _ _ => True := by
  refine Accepted.bind (M := fun r s => Linked input.userId notificationId s ∧
      (r = .ok () → s.db.members.contains input.userId = true)) ?_ (fun _ => ?_) (by simp)
  · refine Accepted.bind (M := fun r s => Linked input.userId notificationId s ∧
        ∀ member, r = .ok member → member = s.db.members.contains input.userId)
      (Accepted.statement fun s hs => ⟨_, _, rfl, hs, by simp⟩) (fun member => ?_) (by simp)
    intro c ha ⟨hlink, hmember⟩
    cases member with
    | true => exact ⟨ha, hlink, fun _ => (hmember _ rfl).symm⟩
    | false => exact ⟨ha, hlink, fun h => by cases h⟩
  · refine Accepted.bind (M := fun _ _ => True) (Accepted.statement fun s ⟨hlink, hmember⟩ => ?_)
      (fun created => ?_) fun _ _ _ => trivial
    · have hvalid : emailScopeValid input.userId notificationId s = true := by
        simp only [emailScopeValid, hmember rfl, Bool.true_and, Option.all_eq_true]
        intro id hid
        obtain ⟨n, rfl, hfind, hown⟩ := hlink id hid
        simp [hfind, hown]
      exact ⟨_, _, if_pos hvalid, trivial⟩
    · obtain ⟨created, key⟩ := created
      cases created with
      | some e => exact fun c ha _ => ⟨ha, trivial⟩
      | none =>
        have hC := covers_accepts
        refine (hC.bind (hC.select trivial _) fun existing => ?_ : Accepts (existingEmail label key))
        cases existing <;> exact hC.done _

theorem deliver_accepted (input : DispatchWatcherNotificationInput) (userId : Uuid) :
    Accepts (deliver input userId) := by
  have hC := covers_accepts
  have hprofile : Accepts (getDeliveryProfile (.watcher userId) userId) :=
    closed_getDeliveryProfile hC (fun _ => trivial) _
  refine hprofile.bind (fun profile => ?_) fun _ _ _ => trivial
  refine Accepted.bind (M := fun r s => ∀ notificationId, r = .ok notificationId →
      Linked userId notificationId s) ?_ (fun notificationId => ?_) fun _ _ _ => trivial
  · by_cases hin : profile.2.bind NotificationPreferences.inAppEnabled ≠ some false
    · unfold deliverInApp
      rw [if_pos hin]
      refine (createNotification_stored (.watcher userId) (input.notification userId)).bind
        (fun n => ?_) (by simp)
      intro c ha h
      refine ⟨ha, ?_⟩
      rintro _ ⟨⟩ id ⟨⟩
      exact ⟨n, rfl, h n rfl⟩
    · unfold deliverInApp
      rw [if_neg hin]
      intro c ha _
      refine ⟨ha, ?_⟩
      rintro _ ⟨⟩ id hid
      cases hid
  · by_cases hmail : profile.1.email ≠ "" ∧
        profile.2.bind NotificationPreferences.emailEnabled ≠ some false
    · simp only [if_pos hmail]
      exact ((enqueueEmail_accepted (.watcher userId) (input.notification userId) notificationId).mono
        (fun s hs => hs _ rfl) fun _ _ h => h).bind (fun _ => hC.done _) fun _ _ _ => trivial
    · simp only [if_neg hmail]
      exact fun c ha _ => ⟨ha, trivial⟩

theorem after_accepted (call : ServiceCall) (actorId : Option Uuid) (before task : HydratedTask) :
    Accepts (call.after actorId before task) :=
  closed_after covers_accepts (fun _ _ => trivial) (fun _ _ _ => trivial)
    (fun _ => deliver_accepted) actorId

/-! ### The request -/

section Request

variable {rt : Runtime} {faults : Statement → Bool} {s : Workspace} {actorId : Option Uuid}
  {call : ServiceCall} {before task : HydratedTask} {db : Db}

theorem run_ok (hf : faults .repository = false) (h : call.result rt s.db = .ok (before, task, db)) :
    (call.run rt).run faults ⟨s, true, false⟩ =
      ⟨.ok (before, task), ⟨{ s with db }, true, false⟩, [.repository]⟩ := by
  have heffect : call.effect rt s = some (.ok (before, task), { s with db }) := by
    simp only [ServiceCall.effect, h]
  simp [ServiceCall.run, transaction, statement, hf, heffect, orRaise, Bind.bind, andThen]

theorem run_error {e : RepoError} (hf : faults .repository = false)
    (h : call.result rt s.db = .error e) :
    ∃ e', ((call.run rt).run faults ⟨s, true, false⟩).result = .error e' := by
  have heffect : call.effect rt s = none ∨ call.effect rt s = some (.error e, s) := by
    simp only [ServiceCall.effect, h]
    cases e <;> simp
  rcases heffect with heffect | heffect <;>
    simp [ServiceCall.run, transaction, statement, hf, heffect, orRaise, raise, Bind.bind, andThen,
      done]

theorem body_ok (hf : faults .setConfig = false) (hf' : faults .repository = false)
    (h : call.result rt s.db = .ok (before, task, db)) :
    (body rt actorId call).run faults ⟨s, true, false⟩ =
      let o := (call.after actorId before task).run faults ⟨{ s with db }, true, false⟩
      ⟨o.result, o.connection, .setConfig :: .repository :: o.sent⟩ := by
  simp [body, service, select, statement, hf, run_ok hf' h, Bind.bind, andThen]

theorem body_error {e : RepoError} (hf : faults .setConfig = false) (hf' : faults .repository = false)
    (h : call.result rt s.db = .error e) :
    ∃ e', ((body rt actorId call).run faults ⟨s, true, false⟩).result = .error e' := by
  obtain ⟨e', he⟩ := run_error hf' h
  exact ⟨e', by simp [body, service, select, statement, hf, he, Bind.bind, andThen, done]⟩

/-- What a request leaves in the database. -/
def committed (rt : Runtime) (actorId : Option Uuid) (call : ServiceCall)
    (faults : Statement → Bool) (s : Workspace) : Workspace :=
  ((request rt actorId call).run faults ⟨s, false, false⟩).connection.store

/-- The notifications and the e-mails of a user. -/
def Workspace.deliveredTo (s : Workspace) (userId : Uuid) :
    List NotificationRow × List NotificationEmailRow :=
  (s.notifications.rows.filter fun n => n.userId = userId,
    s.outbox.rows.filter fun e => e.userId = userId)

/-- The tables are as the repository has written them, and a watcher without an error of its own has
what it would have without any error. -/
structure Committed (rt : Runtime) (actorId : Option Uuid) (call : ServiceCall)
    (faults : Statement → Bool) (s : Workspace) : Prop where
  written : call.write rt s.db = .ok (committed rt actorId call faults s).db
  others : ∀ userId, (∀ d, faults (.watcher userId d) = false) →
    (committed rt actorId call faults s).deliveredTo userId =
      (committed rt actorId call healthy s).deliveredTo userId

theorem committed_eq (h : ((body rt actorId call).run faults ⟨s, true, false⟩).result = .ok task) :
    committed rt actorId call faults s =
      if ((body rt actorId call).run faults ⟨s, true, false⟩).connection.aborted then s
      else ((body rt actorId call).run faults ⟨s, true, false⟩).connection.store :=
  transaction_store h

theorem result_write (h : call.result rt s.db = .ok (before, task, db)) :
    getById s.db call.taskId = .ok before ∧ call.write rt s.db = .ok db ∧
      getById db call.taskId = .ok task := by
  simp only [ServiceCall.result] at h
  cases hb : getById s.db call.taskId with
  | error e => simp [hb, Bind.bind, Except.bind] at h
  | ok b =>
    cases hw : call.write rt s.db with
    | error e => simp [hb, hw, Bind.bind, Except.bind] at h
    | ok d =>
      cases ht : getById d call.taskId with
      | error e => simp [hb, hw, ht, Bind.bind, Except.bind] at h
      | ok t =>
        simp only [hb, hw, ht, Bind.bind, Except.bind, pure, Except.pure, Except.ok.injEq,
          Prod.mk.injEq] at h
        obtain ⟨rfl, rfl, rfl⟩ := h
        exact ⟨rfl, rfl, ht⟩

theorem statements_body (h : call.result rt s.db = .ok (before, task, db)) :
    statements (body rt actorId call) ⟨s, true, false⟩ = .setConfig :: .repository ::
      statements (call.after actorId before task) ⟨{ s with db }, true, false⟩ := by
  have hbody : (body rt actorId call).run healthy ⟨s, true, false⟩ = _ := body_ok rfl rfl h
  simp only [statements, hbody]

theorem committed_of_fault {answer : HydratedTask} {l : Statement}
    (hf : faults .setConfig = false) (hf' : faults .repository = false)
    (h : call.result rt s.db = .ok (before, task, db))
    (hok : ((body rt actorId call).run faults ⟨s, true, false⟩).result = .ok answer)
    (hl : l ∈ statements (call.after actorId before task) ⟨{ s with db }, true, false⟩)
    (hfail : faults l = true) : committed rt actorId call faults s = s := by
  have habort := (flat_after call actorId before task).fails faults ⟨{ s with db }, true, false⟩ rfl
    rfl ⟨l, hl, hfail⟩
  rw [committed_eq hok, body_ok hf hf' h, if_pos habort]

theorem committed_of_quiet {answer : HydratedTask} (h : call.result rt s.db = .ok (before, task, db))
    (hok : ((body rt actorId call).run faults ⟨s, true, false⟩).result = .ok answer)
    (hquiet : ∀ l ∈ statements (body rt actorId call) ⟨s, true, false⟩, faults l = false) :
    committed rt actorId call faults s = committed rt actorId call healthy s ∧
      (committed rt actorId call faults s).db = db := by
  rw [statements_body h] at hquiet
  have hfaulty : (body rt actorId call).run faults ⟨s, true, false⟩ = _ :=
    body_ok (hquiet _ (by simp)) (hquiet _ (by simp)) h
  have hhealthy : (body rt actorId call).run healthy ⟨s, true, false⟩ = _ := body_ok rfl rfl h
  have hagrees := (flat_after call actorId before task).agrees faults ⟨{ s with db }, true, false⟩
    rfl rfl fun l hl => by
      rw [hquiet l (List.mem_cons_of_mem _ (List.mem_cons_of_mem _ hl))]
      simp
  have haccepted := (after_accepted call actorId before task ⟨{ s with db }, true, false⟩ rfl
    trivial).1
  have hsame : (body rt actorId call).run faults ⟨s, true, false⟩ =
      (body rt actorId call).run healthy ⟨s, true, false⟩ := by
    rw [hfaulty, hhealthy, hagrees]
  have hcommitted := committed_eq hok
  rw [hsame] at hok hcommitted
  refine ⟨hcommitted.trans (committed_eq hok).symm, ?_⟩
  rw [hcommitted, hhealthy]
  simp only [haccepted, Bool.false_eq_true, if_false]
  exact keeps_db_after call actorId before task healthy _

end Request

/-- A success answer of `update` or `move`, when the only statements that may fail are those that
notify watchers: the update is committed, and the watchers without an error of their own have their
notifications, if and only if none of the statements that are sent fails. -/
theorem answered_committed (rt : Runtime) (actorId : Option Uuid) (call : ServiceCall) (s : Workspace)
    (faults : Statement → Bool) (task : HydratedTask)
    (hfaults : ∀ l, faults l = true → l.notifiesWatchers = true)
    (hok : ((request rt actorId call).run faults ⟨s, false, false⟩).result = .ok task) :
    Committed rt actorId call faults s ↔
      ∀ l ∈ statements (body rt actorId call) ⟨s, true, false⟩, faults l = false := by
  have hquiet : ∀ l, l.notifiesWatchers = false → faults l = false := by
    intro l hl
    by_contra hfail
    rw [Bool.not_eq_false] at hfail
    exact absurd ((hfaults l hfail).symm.trans hl) (by simp)
  have hbody : ((body rt actorId call).run faults ⟨s, true, false⟩).result = .ok task :=
    transaction_result.symm.trans hok
  cases hres : call.result rt s.db with
  | error e =>
    obtain ⟨e', he⟩ : ∃ e', ((body rt actorId call).run faults ⟨s, true, false⟩).result = .error e' :=
      body_error (hquiet .setConfig rfl) (hquiet .repository rfl) hres
    rw [hbody] at he
    cases he
  | ok r =>
    obtain ⟨before, after, db⟩ := r
    obtain ⟨hbefore, hwrite, hafter⟩ := result_write hres
    constructor
    · intro hcomm l hl
      by_contra hfail
      rw [Bool.not_eq_false] at hfail
      rw [statements_body hres, List.mem_cons, List.mem_cons] at hl
      obtain rfl | rfl | hl := hl
      · cases hfaults _ hfail
      · cases hfaults _ hfail
      -- the commit is a rollback, so the repository has changed nothing, and there is nothing to tell
      have hdb : db = s.db := by
        have hw := hcomm.written
        rw [committed_of_fault (hquiet .setConfig rfl) (hquiet .repository rfl) hres hbody hl hfail,
          hwrite] at hw
        exact Except.ok.inj hw
      have hsame : before = after := by
        rw [hdb, hbefore] at hafter
        exact Except.ok.inj hafter
      subst hsame
      have hnone := sends_after (tells_self call before) actorId healthy _ l hl
      exact absurd ((hfaults l hfail).symm.trans hnone) (by simp)
    · intro hnone
      obtain ⟨hsame, hdb⟩ := committed_of_quiet hres hbody hnone
      exact ⟨by rw [hdb, hwrite], fun userId _ => by rw [hsame]⟩

/-! ### A watcher whose e-mail is refused -/

/-- One task that two users follow. -/
def watchedTask : Workspace where
  organizationId := 9
  db := after utcRuntime { smallSetup with members := [1, 2, 3] }
    [.createTask { projectId := 7, title := "a", followerIds := [2, 3] }]
  users := ⟨[⟨1, "a@x.y"⟩, ⟨2, "b@x.y"⟩, ⟨3, "c@x.y"⟩], by decide⟩
  ids n := n + 1000

/-- The first user moves it to the done column. -/
def completing : ServiceCall :=
  .move 100 { status := .done, targetIndex := .fin 0, expectedVersion := .fin 1 }

/-- The e-mail to the second user is refused, as after the end of that membership. -/
def emailRefused (l : Statement) : Bool := l = .watcher 2 .insertEmail

theorem answered_committed_sample :
    Committed utcRuntime (some 1) completing emailRefused watchedTask ↔
      ∀ l ∈ statements (body utcRuntime (some 1) completing) ⟨watchedTask, true, false⟩,
        emailRefused l = false := by
  obtain ⟨task, hok, -⟩ := exists_ok
    (x := ((request utcRuntime (some 1) completing).run emailRefused
      ⟨watchedTask, false, false⟩).result)
    (p := fun t => t.row.version = 2) (by decide +kernel)
  refine answered_committed utcRuntime (some 1) completing watchedTask emailRefused task ?_ hok
  intro l hl
  rw [of_decide_eq_true hl]
  rfl

/-- The move is answered with the new task, and nothing of it is committed, nor a notification of the
third user. -/
theorem lost_move :
    ∃ task, ((request utcRuntime (some 1) completing).run emailRefused
        ⟨watchedTask, false, false⟩).result = .ok task ∧ task.row.version = 2 ∧
      ((committed utcRuntime (some 1) completing emailRefused watchedTask).db.tasks.find? 100).map
        TaskRow.version = some 1 ∧
      (committed utcRuntime (some 1) completing emailRefused watchedTask).deliveredTo 3 = ([], []) ∧
      ((committed utcRuntime (some 1) completing healthy watchedTask).deliveredTo 3).1.length = 1 ∧
      ¬ Committed utcRuntime (some 1) completing emailRefused watchedTask := by
  obtain ⟨task, hok, hversion⟩ := exists_ok
    (x := ((request utcRuntime (some 1) completing).run emailRefused
      ⟨watchedTask, false, false⟩).result)
    (p := fun t => t.row.version = 2) (by decide +kernel)
  have hold : ((committed utcRuntime (some 1) completing emailRefused watchedTask).db.tasks.find?
      100).map TaskRow.version = some 1 := by decide +kernel
  refine ⟨task, hok, of_decide_eq_true hversion, hold, by decide +kernel, by decide +kernel, ?_⟩
  intro hcomm
  obtain ⟨db, hwrite, hnew⟩ := exists_ok (x := completing.write utcRuntime watchedTask.db)
    (p := fun db => (db.tasks.find? 100).map TaskRow.version = some 2) (by decide +kernel)
  have hsame : db = (committed utcRuntime (some 1) completing emailRefused watchedTask).db :=
    Except.ok.inj (hwrite.symm.trans hcomm.written)
  rw [hsame, hold] at hnew
  exact absurd hnew (by decide)

end CalmBoard.Watchers
