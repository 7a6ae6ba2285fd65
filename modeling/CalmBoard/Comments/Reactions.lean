import CalmBoard.Schema
import CalmBoard.Lib.Keyed
import CalmBoard.Lib.Requests

/-!
# CalmBoard.Comments.Reactions — reactions to a comment

The reactions of a comment are one JSON object: under an emoji stands an array of entries, the display
names of an earlier format and the users that have reacted since.

* `commentReactionState`: what is shown of it.
* `statement`: the statements of `setReaction`; a call is one transaction.
* `calls`: any number of calls, in any order of their statements.
* `Merged`, `laws`: every comment shows the calls that have committed.
* `reactions_merge`: the users under an emoji are those whose last committed call was for it; names
  and other emojis stay.
-/

namespace CalmBoard.Comments

open Requests

/-- A string is a historical display name. -/
inductive Entry where
  | name (displayName : String)
  | user (userId : Uuid)
  deriving DecidableEq

def Entry.name? : Entry → Option String
  | .name displayName => some displayName
  | .user _ => none

def Entry.userId? : Entry → Option Uuid
  | .name _ => none
  | .user userId => some userId

/-- `StoredCommentReactions` -/
abbrev StoredCommentReactions := Table (String × List Entry) Prod.fst

structure CommentReactionState where
  reactions : List (String × List String)
  reactionUserIds : List (String × List Uuid)

def commentReactionState (stored : Option StoredCommentReactions) : CommentReactionState :=
  let entries := (stored.map Table.rows).getD []
  { reactions := (entries.map fun e => (e.1, e.2.filterMap Entry.name?)).filter fun e => e.2 ≠ []
    reactionUserIds :=
      (entries.map fun e => (e.1, distinct (e.2.filterMap Entry.userId?))).filter fun e => e.2 ≠ [] }

/-- The columns of `comments` that reactions read and write. -/
structure CommentRow where
  id : Uuid
  taskId : Uuid
  reactions : Option StoredCommentReactions := some .empty
  updatedAt : Timestamptz
  deletedAt : Option Timestamptz := none

structure TaskRow where
  id : Uuid
  deletedAt : Option Timestamptz := none

/-- A committed call. -/
structure Reaction where
  commentId : Uuid
  emoji : String
  userId : Uuid
  active : Bool

/-- The comments and the tasks of a workspace; `log` is no table, it says which calls have committed. -/
structure Store where
  comments : Table CommentRow CommentRow.id
  tasks : Table TaskRow TaskRow.id
  log : List Reaction := []

/-! ### The statements -/

def commentReactionEmojis : List String := ["👍", "❤️", "🎉", "🚀", "👀"]

/-- `reactions -> emoji`, or an empty array -/
def existing (reactions : StoredCommentReactions) (emoji : String) : List Entry :=
  ((reactions.find? emoji).map Prod.snd).getD []

/-- The array that a call writes. -/
def values (existing : List Entry) (userId : Uuid) (active : Bool) : List Entry :=
  if active then
    if .user userId ∈ existing then existing else existing ++ [.user userId]
  else existing.filter fun value => value ≠ .user userId

/-- `jsonb_set(coalesce(reactions, '{}'), array[emoji], values, true)` -/
def CommentRow.reacted (c : CommentRow) (r : Reaction) : StoredCommentReactions :=
  let reactions := c.reactions.getD .empty
  reactions.upsert (r.emoji, values (existing reactions r.emoji) r.userId r.active)

/-- The new version of a row, as the statement has evaluated it. -/
structure Write where
  reaction : Reaction
  reactions : StoredCommentReactions
  updatedAt : Timestamptz

def Write.apply (w : Write) (s : Store) : Store where
  comments := s.comments.update (fun c => c.id = w.reaction.commentId)
    (fun c => { c with reactions := some w.reactions, updatedAt := w.updatedAt }) fun _ => rfl
  tasks := s.tasks
  log := s.log ++ [w.reaction]

structure Call where
  actorId : Option Uuid
  commentId : Uuid
  emoji : String
  active : Bool

/-- The clock, and the answer of the authorization. -/
structure Input where
  now : Timestamptz := ⟨0⟩
  allowed : Bool := true

inductive Point where
  | setReaction (c : Call)
  | authorize (r : Reaction)
  | update (r : Reaction)
  | updated (commentId : Uuid)

structure Answer where
  id : Uuid
  state : CommentReactionState

abbrev Result : Type := Outcome Point Uuid Write (Except RepoError Answer)

def Store.comment? (s : Store) (commentId : Uuid) : Option CommentRow :=
  (s.comments.find? commentId).filter fun c => c.deletedAt.isNone

/-- `requireComment` -/
def requireComment (s : Store) (commentId : Uuid) : Except RepoError CommentRow :=
  match (s.comment? commentId).filter fun c =>
    (s.tasks.find? c.taskId).any fun t => t.deletedAt.isNone with
  | some c => .ok c
  | none => throw (.notFound "comment")

def statement (i : Input) (p : Point) (s : Store) : Result :=
  match p with
  | .setReaction c =>
    match c.actorId with
    | none => .fail (.error (.denied "Authenticated actor is required"))
    | some userId =>
      if c.emoji ∉ commentReactionEmojis then .fail (.error (.denied "Invalid comment reaction"))
      else
        match requireComment s c.commentId with
        | .error e => .fail (.error e)
        | .ok _ => .next (.authorize ⟨c.commentId, c.emoji, userId, c.active⟩) [] []
  | .authorize r =>
    if i.allowed then .next (.update r) [] []
    else .fail (.error (.denied "permission denied in the current tenant"))
  | .update r =>
    match s.comment? r.commentId with
    | none => .fail (.error (.notFound "comment"))
    | some c => .next (.updated c.id) [c.id] [⟨r, c.reacted r, i.now⟩]
  | .updated commentId =>
    .finish (.ok ⟨commentId, commentReactionState ((s.comments.find? commentId).bind
      CommentRow.reactions)⟩)

/-- A lock is on a row of `comments`. -/
def script : Script Call Store Input Point Uuid Write (Except RepoError Answer) where
  first := .setReaction
  apply := Write.apply
  statement := statement
  conflict k k' := k = k'
  conflict_symm := Sessions.same_symm

abbrev World : Type := Sessions.World Store (Local Point Uuid Write (Except RepoError Answer))

abbrev Event : Type := Sessions.Event Call (Action Input)

/-- The workspace after statements of any number of calls, in any order. -/
def calls (start : Store) (events : List Event) : World :=
  Sessions.run script.program (Sessions.World.closed { start with log := [] }) events

/-! ### What is shown -/

def CommentRow.entries (c : CommentRow) (emoji : String) : List Entry :=
  existing (c.reactions.getD .empty) emoji

/-- The users that are shown under an emoji. -/
def CommentRow.userIds (c : CommentRow) (emoji : String) : List Uuid :=
  (((commentReactionState c.reactions).reactionUserIds.find? fun e => e.1 = emoji).map
    Prod.snd).getD []

/-- The display names that are shown under an emoji. -/
def CommentRow.names (c : CommentRow) (emoji : String) : List String :=
  (((commentReactionState c.reactions).reactions.find? fun e => e.1 = emoji).map Prod.snd).getD []

variable {s start : Store} {c c₀ : CommentRow} {emoji : String} {user user' : Uuid} {es : List Entry}
  {log : List Reaction} {id : Uuid}

theorem find?_shown {β : Type} [DecidableEq β] {f : List Entry → List β} (hf : f [] = []) :
    ∀ {rows : List (String × List Entry)}, (rows.map Prod.fst).Nodup →
      ((((rows.map fun e => (e.1, f e.2)).filter fun e => e.2 ≠ []).find? fun e => e.1 = emoji).map
        Prod.snd).getD [] = f (((rows.find? fun e => e.1 = emoji).map Prod.snd).getD [])
  | [], _ => hf.symm
  | e :: rows, h => by
    obtain ⟨hnot, hrows⟩ := List.nodup_cons.mp h
    have ih := find?_shown hf hrows
    by_cases hkey : e.1 = emoji
    · rw [List.find?_cons_of_pos (by simpa using hkey), List.map_cons]
      by_cases hempty : f e.2 = []
      · have hnone : rows.find? (fun e => e.1 = emoji) = none := by
          refine List.find?_eq_none.mpr fun x hx hxe => hnot ?_
          rw [hkey, ← of_decide_eq_true hxe]
          exact List.mem_map_of_mem hx
        rw [List.filter_cons_of_neg (by simpa using hempty), ih, hnone]
        exact hf.trans hempty.symm
      · rw [List.filter_cons_of_pos (by simpa using hempty), List.find?_cons_of_pos (by simpa using hkey)]
        rfl
    · rw [List.find?_cons_of_neg (by simpa using hkey), List.map_cons, ← ih]
      by_cases hempty : f e.2 = []
      · rw [List.filter_cons_of_neg (by simpa using hempty)]
      · rw [List.filter_cons_of_pos (by simpa using hempty), List.find?_cons_of_neg (by simpa using hkey)]

theorem CommentRow.userIds_eq : c.userIds emoji = distinct ((c.entries emoji).filterMap Entry.userId?) := by
  unfold CommentRow.userIds commentReactionState CommentRow.entries existing
  cases c.reactions with
  | none => rfl
  | some T => exact find?_shown (f := fun es => distinct (es.filterMap Entry.userId?)) rfl T.nodup

theorem CommentRow.names_eq : c.names emoji = (c.entries emoji).filterMap Entry.name? := by
  unfold CommentRow.names commentReactionState CommentRow.entries existing
  cases c.reactions with
  | none => rfl
  | some T => exact find?_shown (f := fun es => es.filterMap Entry.name?) rfl T.nodup

theorem mem_userIds : user ∈ c.userIds emoji ↔ .user user ∈ c.entries emoji := by
  rw [c.userIds_eq, mem_distinct, List.mem_filterMap]
  constructor
  · rintro ⟨e, he, hid⟩
    cases e with
    | name displayName => cases hid
    | user userId =>
      cases hid
      exact he
  · intro he
    exact ⟨_, he, rfl⟩

/-! ### One call after another -/

theorem mem_values {active : Bool} :
    .user user ∈ values es user' active ↔ if user = user' then active = true else .user user ∈ es := by
  unfold values
  by_cases huser : user = user'
  · rw [if_pos huser, huser]
    cases active with
    | true =>
      refine iff_of_true ?_ rfl
      rw [if_pos rfl]
      split
      · next h => exact h
      · exact List.mem_append_right _ (List.mem_singleton.mpr rfl)
    | false => simp
  · rw [if_neg huser]
    cases active with
    | true =>
      rw [if_pos rfl]
      split
      · exact Iff.rfl
      · simp [huser]
    | false => simp [huser]

theorem names_values {active : Bool} :
    (values es user active).filterMap Entry.name? = es.filterMap Entry.name? := by
  unfold values
  cases active with
  | true =>
    rw [if_pos rfl]
    split
    · rfl
    · rw [List.filterMap_append]
      exact List.append_nil _
  | false =>
    rw [if_neg Bool.false_ne_true, List.filterMap_filter]
    refine List.filterMap_congr fun e _ => ?_
    cases e with
    | name displayName => simp
    | user userId =>
      split <;> rfl

/-- The entries after calls for one emoji of one comment. -/
def replay (es : List Entry) (log : List Reaction) : List Entry :=
  log.foldl (fun es r => values es r.userId r.active) es

def callsFor (log : List Reaction) (commentId : Uuid) (emoji : String) : List Reaction :=
  log.filter fun r => r.commentId = commentId && r.emoji = emoji

theorem replay_append (es : List Entry) (log log' : List Reaction) :
    replay es (log ++ log') = replay (replay es log) log' := List.foldl_append

theorem callsFor_singleton (r : Reaction) (commentId : Uuid) (emoji : String) :
    callsFor [r] commentId emoji = if r.commentId = commentId ∧ r.emoji = emoji then [r] else [] := by
  unfold callsFor
  rw [List.filter_cons, List.filter_nil]
  simp only [Bool.and_eq_true, decide_eq_true_eq]

theorem names_replay : (replay es log).filterMap Entry.name? = es.filterMap Entry.name? := by
  induction log using List.reverseRecOn with
  | nil => rfl
  | append_singleton log r ih =>
    rw [replay_append, ← ih]
    exact names_values

/-- **Last call**: it decides whether its user is there. -/
theorem mem_replay : .user user ∈ replay es log ↔
    (((log.filter fun r => r.userId = user).getLast?).map Reaction.active).getD
      (decide (.user user ∈ es)) = true := by
  induction log using List.reverseRecOn with
  | nil => simp [replay]
  | append_singleton log r ih =>
    have hreplay : replay es (log ++ [r]) = values (replay es log) r.userId r.active :=
      replay_append es log [r]
    rw [hreplay, mem_values, List.filter_append]
    by_cases huser : r.userId = user
    · rw [if_pos huser.symm, List.filter_cons_of_pos (by simpa using huser), List.filter_nil,
        List.getLast?_concat]
      rfl
    · rw [if_neg (Ne.symm huser), List.filter_cons_of_neg (by simpa using huser), List.filter_nil,
        List.append_nil, ih]

/-! ### Any interleaving -/

/-- Every comment shows the calls that have committed. -/
def Merged (start s : Store) : Prop :=
  ∀ id c, s.comments.find? id = some c → ∃ c₀, start.comments.find? id = some c₀ ∧
    ∀ emoji, c.entries emoji = replay (c₀.entries emoji) (callsFor s.log id emoji)

/-- Until it commits, a call holds the row that it has evaluated. -/
def Held (s : Store) : Point → List Uuid → List Write → Prop
  | .updated _, ks, ws => ∃ w c, ws = [w] ∧ w.reaction.commentId ∈ ks ∧
      s.comments.find? w.reaction.commentId = some c ∧ w.reactions = c.reacted w.reaction
  | .setReaction _, _, ws | .authorize _, _, ws | .update _, _, ws => ws = []

theorem entries_reacted (r : Reaction) (now : Timestamptz) :
    { c with reactions := some (c.reacted r), updatedAt := now : CommentRow }.entries emoji =
      if r.emoji = emoji then values (c.entries emoji) r.userId r.active else c.entries emoji := by
  unfold CommentRow.entries existing CommentRow.reacted
  dsimp only [Option.getD_some]
  rw [Table.find?_upsert]
  by_cases hemoji : r.emoji = emoji
  · rw [if_pos hemoji, if_pos hemoji, hemoji]
    rfl
  · rw [if_neg hemoji, if_neg hemoji]

theorem find?_apply {w : Write} (h : w.reaction.commentId ≠ id) :
    (w.apply s).comments.find? id = s.comments.find? id := by
  unfold Write.apply
  dsimp only
  rw [Table.find?_update]
  refine (Option.map_congr fun c hc => ?_).trans (Option.map_id' ..)
  have hid : c.id = id := Table.key_of_find? hc
  have hne : ¬ c.id = w.reaction.commentId := fun heq => h (heq.symm.trans hid)
  exact if_neg (by simpa using hne)

theorem Merged.apply {w : Write} (h : Merged start s)
    (hfind : s.comments.find? w.reaction.commentId = some c)
    (heval : w.reactions = c.reacted w.reaction) : Merged start (w.apply s) := by
  intro id c' hc'
  unfold Write.apply at hc' ⊢
  rw [Table.find?_update] at hc'
  obtain ⟨d, hd, rfl⟩ := Option.map_eq_some_iff.mp hc'
  obtain ⟨c₀, hc₀, hentries⟩ := h id d hd
  refine ⟨c₀, hc₀, fun emoji => ?_⟩
  have hid : d.id = id := Table.key_of_find? hd
  have hlog : callsFor (s.log ++ [w.reaction]) id emoji = callsFor s.log id emoji ++
      callsFor [w.reaction] id emoji := List.filter_append ..
  rw [hlog, replay_append, ← hentries emoji]
  by_cases hcomment : w.reaction.commentId = id
  · rw [hcomment, hd] at hfind
    cases hfind
    rw [if_pos (by simp [hid, hcomment]), heval, entries_reacted]
    by_cases hemoji : w.reaction.emoji = emoji
    · rw [if_pos hemoji, callsFor_singleton, if_pos ⟨hcomment, hemoji⟩]
      rfl
    · rw [if_neg hemoji, callsFor_singleton, if_neg fun hboth => hemoji hboth.2]
      rfl
  · have hne : ¬ d.id = w.reaction.commentId := fun heq => hcomment (heq.symm.trans hid)
    rw [if_neg (by simpa using hne), callsFor_singleton, if_neg fun hboth => hcomment hboth.1]
    rfl

theorem statement_next {i : Input} {p p' : Point} {ks : List Uuid} {ws : List Write}
    (h : statement i p s = .next p' ks ws) :
    (∃ r, (p' = .authorize r ∨ p' = .update r) ∧ ws = []) ∨
      ∃ r c, p' = .updated c.id ∧ ks = [c.id] ∧ ws = [⟨r, c.reacted r, i.now⟩] ∧
        s.comments.find? r.commentId = some c := by
  cases p with
  | setReaction call =>
    unfold statement at h
    dsimp only at h
    split at h
    · cases h
    · split at h
      · cases h
      · split at h
        · cases h
        · cases h
          exact Or.inl ⟨_, Or.inl rfl, rfl⟩
  | authorize r =>
    unfold statement at h
    dsimp only at h
    split at h
    · cases h
      exact Or.inl ⟨_, Or.inr rfl, rfl⟩
    · cases h
  | update r =>
    unfold statement at h
    dsimp only at h
    split at h
    · cases h
    · next c hc =>
      cases h
      exact Or.inr ⟨r, c, rfl, rfl, rfl, (Option.filter_eq_some_iff.mp hc).1⟩
  | updated commentId => cases h

theorem statement_commit {i : Input} {p p' : Point} : statement i p s ≠ .commit p' := by
  intro h
  unfold statement at h
  repeat' split at h
  all_goals cases h

theorem statement_finish {i : Input} {p : Point} {r : Except RepoError Answer}
    (h : statement i p s = .finish r) : ∃ commentId, p = .updated commentId := by
  cases p with
  | updated commentId => exact ⟨commentId, rfl⟩
  | setReaction _ | authorize _ | update _ =>
    unfold statement at h
    dsimp only at h
    repeat' split at h
    all_goals cases h

theorem Held.covered {p : Point} {ks : List Uuid} {ws : List Write} (h : Held s p ks ws) :
    Covered (fun w => [w.reaction.commentId]) ks ws := by
  cases p with
  | setReaction _ | authorize _ | update _ =>
    cases h
    exact covered_nil _ ks
  | updated commentId =>
    obtain ⟨w, c, rfl, hk, -, -⟩ := h
    refine covered_singleton fun k hk' => ?_
    rw [List.mem_singleton.mp hk']
    exact hk

theorem find?_view {ks : List Uuid} {ws : List Write}
    (hws : Covered (fun w => [w.reaction.commentId]) ks ws) (hid : id ∉ ks) :
    (script.view s ws).comments.find? id = s.comments.find? id := by
  refine view_frame (k := id) (f := fun s : Store => s.comments.find? id) ?_ hws hid s
  exact fun w s hw => find?_apply fun heq => hw (List.mem_singleton.mpr heq.symm)

theorem laws (start : Store) :
    Laws script (fun _ _ _ => True) (Merged start) Held fun _ _ => True where
  first _ _ _ := rfl
  next s i p ks ws p' ks' ws' _ hheld _ hnext := by
    have hempty : ws = [] := by
      cases p with
      | updated commentId => cases hnext
      | setReaction _ | authorize _ | update _ => exact hheld
    subst hempty
    have hstatement : statement i p s = .next p' ks' ws' := hnext
    rcases statement_next hstatement with ⟨r, rfl | rfl, rfl⟩ | ⟨r, c, rfl, rfl, rfl, hfind⟩
    · rfl
    · rfl
    · have hkey : c.id = r.commentId := Table.key_of_find? hfind
      refine ⟨_, c, rfl, List.mem_append_right ks ?_, hfind, rfl⟩
      exact List.mem_singleton.mpr hkey.symm
  commit s i p ks ws p' _ _ _ hcommit := absurd hcommit statement_commit
  finish s i p ks ws r hmerged hheld _ hfinish := by
    obtain ⟨commentId, rfl⟩ := statement_finish hfinish
    obtain ⟨w, c, rfl, -, hfind, heval⟩ := hheld
    exact ⟨hmerged.apply hfind heval, trivial⟩
  fail _ _ _ _ _ _ _ _ _ _ := trivial
  other s i p ks ws q ks' ws' _ hheld _ hother hapart := by
    cases q with
    | setReaction _ | authorize _ | update _ => exact hother
    | updated commentId =>
      obtain ⟨w, c, rfl, hk, hfind, heval⟩ := hother
      refine ⟨w, c, rfl, hk, ?_, heval⟩
      rw [← hfind]
      exact find?_view hheld.covered fun hk' => hapart.not_mem (by simp [script]) hk' hk
  kept _ _ _ _ _ _ _ _ _ _ := trivial

/-- The last committed call of a user for an emoji of a comment. -/
def lastCall (log : List Reaction) (commentId : Uuid) (emoji : String) (user : Uuid) : Option Reaction :=
  ((callsFor log commentId emoji).filter fun r => r.userId = user).getLast?

/-- **Reactions merge**: after any interleaving of calls the users under an emoji are those whose last
committed call for it asked to be there, and those of the start who have made none; the names, and the
entries under an emoji that no call was for, are as at the start. -/
theorem reactions_merge (start : Store) (events : List Event)
    (h : (calls start events).store.comments.find? id = some c) :
    ∃ c₀, start.comments.find? id = some c₀ ∧
      (∀ emoji user, user ∈ c.userIds emoji ↔
        ((lastCall (calls start events).store.log id emoji user).map Reaction.active).getD
          (decide (user ∈ c₀.userIds emoji)) = true) ∧
      (∀ emoji, c.names emoji = c₀.names emoji) ∧
      (∀ emoji, callsFor (calls start events).store.log id emoji = [] →
        c.entries emoji = c₀.entries emoji) ∧
      ∀ e ∈ (commentReactionState c.reactions).reactionUserIds, e.2.Nodup := by
  have hstart : Merged start { start with log := [] } := fun id c hc => ⟨c, hc, fun _ => rfl⟩
  have hheld := Sessions.run_always (rules_always (laws start)) events
    (Sessions.World.holds_closed hstart)
  obtain ⟨c₀, hc₀, hentries⟩ := hheld.store id c h
  refine ⟨c₀, hc₀, fun emoji user => ?_, fun emoji => ?_, fun emoji hnone => ?_, fun e he => ?_⟩
  · rw [mem_userIds, hentries emoji, mem_replay]
    simp only [mem_userIds]
    rfl
  · rw [c.names_eq, c₀.names_eq, hentries emoji, names_replay]
  · rw [hentries emoji]
    exact congrArg (replay _) hnone
  · obtain ⟨e', -, rfl⟩ := List.mem_map.mp (List.mem_of_mem_filter he)
    exact nodup_distinct _

/-- Two users react to one comment at a time, the second waits; it has an entry of the earlier format. -/
theorem reactions_merge_two :
    let comment : CommentRow :=
      { id := 1, taskId := 2, updatedAt := ⟨0⟩,
        reactions := some ⟨[("👍", [.name "Mona"]), ("🎉", [.user 5])], by decide⟩ }
    let start : Store := ⟨⟨[comment], by decide⟩, ⟨[{ id := 2 }], by decide⟩, []⟩
    let act (i : ℕ) : Event := .act i (.statement {})
    let events : List Event :=
      [.enter ⟨some 8, 1, "👍", true⟩, .enter ⟨some 9, 1, "👍", true⟩, act 0, act 1, act 0, act 1,
        act 0, act 1, act 0, act 1, act 1]
    let log := (calls start events).store.log
    log.length = 2 ∧ ∃ c, (calls start events).store.comments.find? 1 = some c ∧
      ∃ c₀, start.comments.find? 1 = some c₀ ∧
        (∀ emoji user, user ∈ c.userIds emoji ↔
          ((lastCall log 1 emoji user).map Reaction.active).getD
            (decide (user ∈ c₀.userIds emoji)) = true) ∧
        (∀ emoji, c.names emoji = c₀.names emoji) ∧
        (∀ emoji, callsFor log 1 emoji = [] → c.entries emoji = c₀.entries emoji) ∧
        ∀ e ∈ (commentReactionState c.reactions).reactionUserIds, e.2.Nodup := by
  intro comment start act events log
  have hlog : log.length = 2 := by decide
  have hrow : ((calls start events).store.comments.find? 1).isSome := by decide
  obtain ⟨c, hc⟩ := Option.isSome_iff_exists.mp hrow
  exact ⟨hlog, c, hc, reactions_merge start events hc⟩

end CalmBoard.Comments
