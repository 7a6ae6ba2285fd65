import CalmBoard.BoardFields
import Mathlib.Data.List.Count

/-!
# CalmBoard.Sprints.Membership — pointers and open assignments

Which sprint a task is in is stored twice, as the pointer of the task and as its open row among the
assignments.

* `Linked`: the two agree on active tasks; this holds after every run.  `Linked` with `live` says that
  no deleted task keeps an open row either.
* `linked_step`: what one request keeps of it.
* `membership_agrees`: pointers and open rows agree after every run whose deletions leave no subtask
  in a sprint.
-/

namespace CalmBoard

/-! ### Open rows -/

variable {p : TaskSprintAssignmentRow → Bool} {target : Option Uuid} {card : Card}

namespace Board

variable {b b' : Board}

/-- Task and sprint of the open assignments. -/
def openRows (b : Board) : List (Uuid × Uuid) :=
  (b.assignments.filter TaskSprintAssignmentRow.opened).map fun a => (a.taskId, a.sprintId)

theorem mem_openRows {k s : Uuid} : (k, s) ∈ b.openRows ↔
    ∃ a ∈ b.assignments, a.taskId = k ∧ a.sprintId = s ∧ a.opened = true := by
  unfold openRows
  simp only [List.mem_map, List.mem_filter, Prod.mk.injEq]
  constructor
  · rintro ⟨a, ⟨ha, ho⟩, hk, hs⟩
    exact ⟨a, ha, hk, hs, ho⟩
  · rintro ⟨a, ha, hk, hs, ho⟩
    exact ⟨a, ⟨ha, ho⟩, hk, hs⟩

theorem openRows_congr (h : b'.assignments = b.assignments) : b'.openRows = b.openRows := by
  unfold openRows
  rw [h]

theorem openRows_close {q : Uuid × Uuid → Bool} (hpq : ∀ a, p a = q (a.taskId, a.sprintId)) :
    (b.close p).openRows = b.openRows.filter fun x => !q x := by
  have hopen : ∀ a ∈ b.assignments,
      (if p a && a.opened then { a with removedAt := some b.newDate } else a).opened =
        (!q (a.taskId, a.sprintId) && a.opened) := by
    intro a _
    rw [← hpq]
    by_cases hsel : (p a && a.opened) = true
    · rw [if_pos hsel, (Bool.and_eq_true_iff.mp hsel).1]
      rfl
    · rw [if_neg hsel]
      by_cases ho : a.opened = true
      · have hp : p a = false := by simpa [ho] using hsel
        rw [hp, Bool.not_false, Bool.true_and]
      · simp [ho]
  have hkey : ∀ a : TaskSprintAssignmentRow,
      (if p a && a.opened then { a with removedAt := some b.newDate } else a).taskId = a.taskId ∧
      (if p a && a.opened then { a with removedAt := some b.newDate } else a).sprintId =
        a.sprintId := by
    intro a
    split <;> exact ⟨rfl, rfl⟩
  unfold openRows close
  rw [List.filter_map, List.map_map, List.filter_map, List.filter_filter]
  refine (List.map_congr_left fun a _ => ?_).trans (congrArg _ (List.filter_congr hopen))
  exact Prod.ext (hkey a).1 (hkey a).2

theorem openRows_assign (taskId projectId : Uuid) (target : Option Uuid) :
    (b.assign taskId projectId target).openRows =
      b.openRows ++ target.toList.map fun s => (taskId, s) := by
  cases target with
  | none => simp [assign]
  | some s =>
    unfold openRows assign
    rw [List.filter_append, List.map_append]
    rfl

/-! ### Pointers and rows agree -/

/-- Pointers and open rows agree on the active cards, a card has at most one open row, and deleted
cards point nowhere.  With `live`, open rows belong to active cards only. -/
structure Linked (b : Board) (live : Prop) : Prop where
  exists_card : ∀ k s, (k, s) ∈ b.openRows →
    ∃ c, b.cards.find? k = some c ∧ (c.active = true → c.sprintId = some s) ∧
      (live → c.active = true)
  pointed : ∀ k c s, b.cards.find? k = some c → c.sprintId = some s →
    (k, s) ∈ b.openRows ∧ c.active = true
  single : (b.openRows.map Prod.fst).Nodup

variable {live : Prop}

theorem Linked.unique (h : b.Linked live) {k s s' : Uuid} (hs : (k, s) ∈ b.openRows)
    (hs' : (k, s') ∈ b.openRows) : s = s' := by
  have := List.inj_on_of_nodup_map h.single hs hs' rfl
  exact congrArg Prod.snd this

theorem Linked.row_iff (h : b.Linked live) {k s s' : Uuid} {c : Card} (hc : b.cards.find? k = some c)
    (hs : c.sprintId = some s) : (k, s') ∈ b.openRows ↔ s' = s := by
  have hrow := (h.pointed k c s hc hs).1
  exact ⟨fun hrow' => h.unique hrow' hrow, fun he => he ▸ hrow⟩

theorem Linked.congr (h : b.Linked live) (hrows : b'.openRows = b.openRows)
    (hcards : ∀ k, (b'.cards.find? k).map (fun c => (c.sprintId, c.active)) =
      (b.cards.find? k).map fun c => (c.sprintId, c.active)) : b'.Linked live where
  exists_card k s hk := by
    rw [hrows] at hk
    obtain ⟨c, hc, himp, hlive⟩ := h.exists_card k s hk
    have hck := hcards k
    rw [hc] at hck
    obtain ⟨c', hc', he⟩ := Option.map_eq_some_iff.mp hck
    obtain ⟨hp, ha⟩ := Prod.mk.inj he
    exact ⟨c', hc', fun hactive => hp.trans (himp (ha ▸ hactive)), fun hl => ha.trans (hlive hl)⟩
  pointed k c s hc hs := by
    have hck := hcards k
    rw [hc] at hck
    obtain ⟨c', hc', he⟩ := Option.map_eq_some_iff.mp hck.symm
    obtain ⟨hp, ha⟩ := Prod.mk.inj he
    rw [hrows, ← ha]
    exact h.pointed k c' s hc' (hp.trans hs)
  single := hrows ▸ h.single

theorem openRows_transfer {k : Uuid}
    (hclose : (b.close p).openRows = b.openRows.filter fun x => x.1 ≠ k) (projectId : Uuid)
    (target : Option Uuid) : (b.transfer p k projectId target).openRows =
      b.openRows.filter (fun x => x.1 ≠ k) ++ target.toList.map fun s => (k, s) := by
  rw [openRows_congr (transfer_assignments p k projectId target), openRows_assign, hclose]

theorem Linked.transfer (h : b.Linked live) {k projectId : Uuid}
    (hcard : b.cards.find? k = some card) (hactive : card.active = true ∨ target = none)
    (hclose : (b.close p).openRows = b.openRows.filter fun x => x.1 ≠ k) :
    (b.transfer p k projectId target).Linked live := by
  have hrows := openRows_transfer hclose projectId target
  have hid : card.id = k := Table.key_of_find? hcard
  constructor
  · intro j s hj
    rw [hrows, List.mem_append] at hj
    rw [find?_transfer]
    rcases hj with hj | hj
    · obtain ⟨hj, hne⟩ := List.mem_filter.mp hj
      obtain ⟨c, hc, hlinks⟩ := h.exists_card j s hj
      have hcid : c.id ≠ k := by
        rw [show c.id = j from Table.key_of_find? hc]
        simpa using hne
      exact ⟨c, by rw [hc, Option.map_some, if_neg hcid], hlinks⟩
    · obtain ⟨s', hs', he⟩ := List.mem_map.mp hj
      obtain ⟨rfl, rfl⟩ := Prod.mk.inj he
      have htarget : target = some s' := Option.mem_toList.mp hs'
      refine ⟨{ card with sprintId := target }, by rw [hcard, Option.map_some, if_pos hid],
        fun _ => htarget, fun _ => hactive.resolve_right (by rw [htarget]; simp)⟩
  · intro j c s hc hs
    rw [find?_transfer] at hc
    rw [hrows, List.mem_append]
    obtain ⟨d, hd, rfl⟩ := Option.map_eq_some_iff.mp hc
    have hdid : d.id = j := Table.key_of_find? hd
    by_cases hdk : d.id = k
    · rw [if_pos hdk] at hs ⊢
      have htarget : target = some s := hs
      obtain rfl : j = k := hdid.symm.trans hdk
      obtain rfl := Option.some.inj (hd.symm.trans hcard)
      refine ⟨Or.inr ?_, hactive.resolve_right (by rw [htarget]; simp)⟩
      simp [htarget]
    · rw [if_neg hdk] at hs ⊢
      obtain ⟨hrow, hd'⟩ := h.pointed j d s hd hs
      refine ⟨Or.inl (List.mem_filter.mpr ⟨hrow, ?_⟩), hd'⟩
      simpa [hdid] using hdk
  · rw [hrows, List.map_append]
    refine List.Nodup.append ?_ ?_ ?_
    · exact h.single.sublist (List.filter_sublist.map Prod.fst)
    · cases target <;> simp
    · intro j hj hj'
      obtain ⟨x, hx, rfl⟩ := List.mem_map.mp hj
      obtain ⟨y, hy, he⟩ := List.mem_map.mp hj'
      obtain ⟨s, -, rfl⟩ := List.mem_map.mp hy
      have hne := (List.mem_filter.mp hx).2
      simp [← he] at hne

theorem openRows_closeTask (k : Uuid) :
    (b.close fun a => a.taskId = k).openRows = b.openRows.filter fun x => x.1 ≠ k := by
  rw [openRows_close (q := fun x => decide (x.1 = k)) fun _ => rfl]
  simp

theorem Linked.openRows_closeRow (h : b.Linked live) {k s : Uuid}
    (hcard : b.cards.find? k = some card) (hs : card.sprintId = some s) :
    (b.close fun a => a.taskId = k && a.sprintId = s).openRows =
      b.openRows.filter fun x => x.1 ≠ k := by
  rw [openRows_close (q := fun x => decide (x.1 = k) && decide (x.2 = s)) fun _ => rfl]
  refine List.filter_congr fun x hx => ?_
  by_cases hk : x.1 = k
  · have hs' : x.2 = s := (h.row_iff hcard hs).mp (hk ▸ hx)
    simp [hk, hs']
  · simp [hk]

/-- Active cards of a sprint, by their ids. -/
def AreMembers (b : Board) (id : Uuid) (taskIds : List Uuid) : Prop :=
  ∀ k ∈ taskIds, ∃ c, b.cards.find? k = some c ∧ c.active = true ∧ c.sprintId = some id

theorem AreMembers.release {id projectId k : Uuid} {taskIds : List Uuid}
    (h : b.AreMembers id (k :: taskIds)) (hk : k ∉ taskIds) :
    (release id projectId target b k).AreMembers id taskIds := by
  intro j hj
  obtain ⟨c, hc, hactive, hs⟩ := h j (List.mem_cons_of_mem _ hj)
  have hne : c.id ≠ k := by
    rw [show c.id = j from Table.key_of_find? hc]
    rintro rfl
    exact hk hj
  refine ⟨c, ?_, hactive, hs⟩
  rw [Board.release, find?_transfer, hc, Option.map_some, if_neg hne]

theorem Linked.release (h : b.Linked live) {id projectId k : Uuid} {taskIds : List Uuid}
    (hmembers : b.AreMembers id (k :: taskIds)) :
    (release id projectId target b k).Linked live := by
  obtain ⟨card, hcard, hactive, hs⟩ := hmembers k List.mem_cons_self
  exact h.transfer hcard (Or.inl hactive) (h.openRows_closeRow hcard hs)

theorem Linked.foldl_release {id projectId : Uuid} :
    ∀ {taskIds : List Uuid} {b : Board}, b.Linked live → taskIds.Nodup → b.AreMembers id taskIds →
      (taskIds.foldl (Board.release id projectId target) b).Linked live
  | [], _, h, _, _ => h
  | _ :: _, _, h, hnodup, hmembers => by
    obtain ⟨hk, hnodup⟩ := List.nodup_cons.mp hnodup
    rw [List.foldl_cons]
    exact (h.release hmembers).foldl_release hnodup (hmembers.release hk)

theorem unfinished_nodup (b : Board) (id : Uuid) : (b.unfinished id).Nodup := by
  unfold unfinished members
  exact b.cards.nodup.sublist ((List.filter_sublist.trans List.filter_sublist).map Card.id)

theorem mem_unfinished {id k : Uuid} : k ∈ b.unfinished id ↔
    ∃ c, b.cards.find? k = some c ∧ c.active = true ∧ c.sprintId = some id ∧ c.status ≠ .done := by
  unfold unfinished members
  simp only [List.mem_map, List.mem_filter, Bool.and_eq_true, decide_eq_true_eq]
  constructor
  · rintro ⟨c, ⟨⟨hc, hs, hactive⟩, hstatus⟩, rfl⟩
    exact ⟨c, Table.find?_of_mem hc, hactive, hs, hstatus⟩
  · rintro ⟨c, hc, hactive, hs, hstatus⟩
    exact ⟨c, ⟨⟨Table.mem_of_find? hc, hs, hactive⟩, hstatus⟩, Table.key_of_find? hc⟩

theorem areMembers_unfinished (b : Board) (id : Uuid) : b.AreMembers id (b.unfinished id) := by
  intro k hk
  obtain ⟨c, hc, hactive, hs, -⟩ := mem_unfinished.mp hk
  exact ⟨c, hc, hactive, hs⟩

theorem Linked.complete (h : b.Linked live) (sprint : SprintRow) (target : Option Uuid) :
    (b.complete sprint target).Linked live := by
  have hsnapshot : (b.snapshot sprint.projectId sprint.id .complete).Linked live :=
    h.congr rfl fun _ => rfl
  have hfold : ((b.unfinished sprint.id).foldl (Board.release sprint.id sprint.projectId target)
      (b.snapshot sprint.projectId sprint.id .complete)).Linked live :=
    hsnapshot.foldl_release (b.unfinished_nodup sprint.id) (b.areMembers_unfinished sprint.id)
  exact hfold.congr rfl fun _ => rfl

theorem openRows_cancel (sprint : SprintRow) :
    (b.cancel sprint).openRows = b.openRows.filter fun x => x.2 ≠ sprint.id := by
  have hclose := openRows_close (b := b) (p := fun a => a.sprintId = sprint.id)
    (q := fun x => decide (x.2 = sprint.id)) fun _ => rfl
  have hsame : (b.cancel sprint).openRows = (b.close fun a => a.sprintId = sprint.id).openRows :=
    openRows_congr rfl
  rw [hsame, hclose]
  simp

theorem Linked.cancel (h : b.Linked live) (sprint : SprintRow) : (b.cancel sprint).Linked live := by
  have hrows := openRows_cancel (b := b) sprint
  have hcards : ∀ k, (b.cancel sprint).cards.find? k = (b.cards.find? k).map fun c =>
      if decide (c.sprintId = some sprint.id) = true then { c with sprintId := none } else c :=
    fun k => find?_point none _ k
  constructor
  · intro k s hk
    rw [hrows] at hk
    obtain ⟨hrow, hne⟩ := List.mem_filter.mp hk
    obtain ⟨c, hc, himp, hlive⟩ := h.exists_card k s hrow
    rw [hcards, hc, Option.map_some]
    refine ⟨_, rfl, ?_⟩
    split
    · next hsel =>
      refine ⟨fun hactive => ?_, hlive⟩
      have hsprint : c.sprintId = some s := himp hactive
      rw [hsprint] at hsel
      simp at hsel hne
      exact absurd hsel hne
    · exact ⟨himp, hlive⟩
  · intro k c s hc hs
    rw [hcards] at hc
    obtain ⟨d, hd, rfl⟩ := Option.map_eq_some_iff.mp hc
    split at hs
    · cases hs
    next hsel =>
    obtain ⟨hrow, hactive⟩ := h.pointed k d s hd hs
    rw [hrows, if_neg hsel]
    refine ⟨List.mem_filter.mpr ⟨hrow, ?_⟩, hactive⟩
    rw [hs] at hsel
    simpa using hsel
  · rw [hrows]
    exact h.single.sublist (List.filter_sublist.map Prod.fst)

theorem Linked.change (h : b.Linked live) {before after : Card}
    (hbefore : b.cards.find? after.id = some before) (hsprint : after.sprintId = before.sprintId)
    (hdeleted : after.deletedAt = before.deletedAt) : (b.change before after).Linked live := by
  refine h.congr (openRows_congr (change_assignments before after)) fun k => ?_
  rw [change_cards, Table.find?_put hbefore]
  by_cases hk : after.id = k
  · subst hk
    rw [if_pos rfl, hbefore, Option.map_some, Option.map_some, hsprint, Card.active, Card.active,
      hdeleted]
  · rw [if_neg hk]

theorem Linked.insert (h : b.Linked live) {cards : Table Card Card.id}
    (hinsert : b.cards.insert? card = some cards) (hsprint : card.sprintId = none) :
    ({ b with cards } : Board).Linked live := by
  have hfresh := (Table.insert?_eq_some hinsert).1
  have hfind : ∀ k, cards.find? k = if card.id = k then some card else b.cards.find? k :=
    Table.find?_insert? hinsert
  constructor
  · intro k s hk
    obtain ⟨c, hc, hlinks⟩ := h.exists_card k s hk
    have hne : card.id ≠ k := by
      rintro rfl
      rw [hfresh] at hc
      cases hc
    exact ⟨c, by rw [hfind, if_neg hne, hc], hlinks⟩
  · intro k c s hc hs
    rw [hfind] at hc
    by_cases hk : card.id = k
    · rw [if_pos hk] at hc
      obtain rfl := Option.some.inj hc
      rw [hsprint] at hs
      cases hs
    · rw [if_neg hk] at hc
      exact h.pointed k c s hc hs
  · exact h.single

theorem Linked.openRows_softDelete (h : b.Linked live) (hactive : b.active? card.id = some card) :
    (b.softDelete card).openRows = b.openRows.filter fun x => x.1 ≠ card.id := by
  obtain ⟨hcard, -, hcactive⟩ := active?_eq_some hactive
  cases hs : card.sprintId with
  | none =>
    rw [openRows_congr (b := b) (by rw [softDelete_assignments, hs])]
    refine (List.filter_eq_self.mpr fun x hx => ?_).symm
    simp only [ne_eq, decide_eq_true_eq]
    intro hk
    obtain ⟨c, hc, himp, -⟩ := h.exists_card x.1 x.2 hx
    rw [hk, hcard] at hc
    obtain rfl := Option.some.inj hc
    rw [himp hcactive] at hs
    cases hs
  | some s =>
    have hassignments : (b.softDelete card).assignments =
        (b.close fun a => a.taskId = card.id && a.sprintId = s).assignments := by
      rw [softDelete_assignments, hs]
    rw [openRows_congr hassignments, h.openRows_closeRow hcard hs]

theorem Linked.softDelete (h : b.Linked live) (hactive : b.active? card.id = some card)
    (hchildren : live → ∀ k c, b.cards.find? k = some c → c.active = true →
      c.parentId = some card.id → c.sprintId = none) : (b.softDelete card).Linked live := by
  have hrows := h.openRows_softDelete hactive
  constructor
  · intro k s hk
    rw [hrows] at hk
    obtain ⟨hrow, hne⟩ := List.mem_filter.mp hk
    obtain ⟨c, hc, himp, hlive⟩ := h.exists_card k s hrow
    have hid : c.id ≠ card.id := by
      rw [show c.id = k from Table.key_of_find? hc]
      simpa using hne
    rw [find?_softDelete, hc, Option.map_some]
    refine ⟨_, rfl, ?_⟩
    split
    · next hsel =>
      -- a child that is deleted along: with `live` it has no row
      obtain ⟨hcactive, hchild⟩ : c.active = true ∧ c.parentId = some card.id := by
        simpa [hid] using hsel
      refine ⟨(fun hdead => by cases hdead), fun hl => ?_⟩
      have hnone := hchildren hl k c hc hcactive hchild
      rw [himp hcactive] at hnone
      cases hnone
    · exact ⟨himp, hlive⟩
  · intro k c s hc hs
    rw [find?_softDelete] at hc
    obtain ⟨d, hd, rfl⟩ := Option.map_eq_some_iff.mp hc
    split at hs
    · cases hs
    next hsel =>
    rw [if_neg hsel, hrows]
    obtain ⟨hrow, hdactive⟩ := h.pointed k d s hd hs
    refine ⟨List.mem_filter.mpr ⟨hrow, ?_⟩, hdactive⟩
    have hid : d.id ≠ card.id := by
      intro he
      exact hsel (by simp [hdactive, he])
    rw [show d.id = k from Table.key_of_find? hd] at hid
    simpa using hid
  · rw [hrows]
    exact h.single.sublist (List.filter_sublist.map Prod.fst)

/-- **One request** keeps pointers and open rows in step; with `live`, if no deletion takes along a
subtask that is in a sprint. -/
theorem linked_step {r : Request} (hstep : b.Step r b') (h : b.Linked live)
    (hchildren : live → ∀ taskId, r = .softDeleteTask taskId → (b.active? taskId).isSome →
      ∀ k c, b.cards.find? k = some c → c.active = true → c.parentId = some taskId →
        c.sprintId = none) : b'.Linked live := by
  cases hstep with
  | idle => exact h
  | elapse => exact h.congr rfl fun _ => rfl
  | createSprint => exact h.congr rfl fun _ => rfl
  | startSprint => exact h.congr rfl fun _ => rfl
  | createTask hinsert _ hsprint _ _ _ _ => exact h.insert hinsert hsprint
  | @updateTask taskId input before after hactive hafter _ =>
    obtain ⟨hfind, hid, -⟩ := active?_eq_some hactive
    exact h.change (hafter.id ▸ hid ▸ hfind) hafter.sprintId hafter.deletedAt
  | @moveTask taskId input card hactive =>
    obtain ⟨hfind, rfl, -⟩ := active?_eq_some hactive
    exact h.change hfind rfl rfl
  | @softDeleteTask taskId card hactive =>
    obtain ⟨-, rfl, -⟩ := active?_eq_some hactive
    exact h.softDelete hactive fun hl => hchildren hl card.id rfl (by rw [hactive]; rfl)
  | completeSprint => exact h.complete _ _
  | cancelSprint => exact h.cancel _
  | @assignTask taskId sprintId card sprint hactive _ _ _ =>
    obtain ⟨hfind, -, hcactive⟩ := active?_eq_some hactive
    have htransfer : (b.transfer (fun a => a.taskId = taskId) taskId card.projectId
        (some sprintId)).Linked live :=
      h.transfer hfind (Or.inl hcactive) (openRows_closeTask taskId)
    exact htransfer.congr (openRows_congr (scope_assignments ..)) fun k => by rw [scope_cards]
  | @removeTask taskId sprintId card hfind hsprint =>
    have htransfer : (b.transfer (fun a => a.taskId = taskId && a.sprintId = sprintId) taskId
        card.projectId none).Linked live :=
      h.transfer hfind (Or.inr rfl) (h.openRows_closeRow hfind hsprint)
    exact htransfer.congr (openRows_congr (scope_assignments ..)) fun k => by rw [scope_cards]
  | @moveTaskBetween taskId target expected card hactive _ _ =>
    obtain ⟨hfind, -, hcactive⟩ := active?_eq_some hactive
    have htransfer : (b.transfer (fun a => a.taskId = taskId) taskId card.projectId
        target).Linked live :=
      h.transfer hfind (Or.inl hcactive) (openRows_closeTask taskId)
    refine htransfer.congr (openRows_congr ?_) fun k => by rw [scope_cards, scope_cards]
    rw [scope_assignments, scope_assignments]

end Board

/-! ### Databases -/

namespace Sprints

variable {rt : Runtime} {db : Db}

/-- The task has an open assignment to the sprint. -/
def IsAssigned (db : Db) (taskId sprintId : Uuid) : Prop :=
  ∃ a ∈ db.assignments, a.taskId = taskId ∧ a.sprintId = sprintId ∧ a.opened = true

/-- The task is active and points to the sprint. -/
def IsMember (db : Db) (taskId sprintId : Uuid) : Prop :=
  ∃ t, Tasks.findActive db taskId = some t ∧ t.sprintId = some sprintId

/-- Pointers and assignments tell the same story, and the check before a snapshot accepts it. -/
structure MembershipAgrees (db : Db) : Prop where
  assigned_iff : ∀ taskId sprintId, IsAssigned db taskId sprintId ↔ IsMember db taskId sprintId
  at_most_one : ∀ taskId,
    (db.assignments.filter fun a => a.taskId = taskId && a.opened).length ≤ 1
  consistent : ∀ sprintId, verifySprintMembershipConsistency db sprintId = .ok ()

/-- A task that is deleted has no active subtask in a sprint. -/
def LeavesNoSprintSubtask (db : Db) : Request → Prop
  | .softDeleteTask taskId => (Tasks.findActive db taskId).isSome → ∀ c ∈ db.tasks.rows,
      c.active = true → c.parentId = some taskId → c.sprintId = none
  | _ => True

instance (db : Db) : DecidablePred (LeavesNoSprintSubtask db) := fun r => by
  unfold LeavesNoSprintSubtask
  split <;> infer_instance

theorem isMember_iff {taskId sprintId : Uuid} : IsMember db taskId sprintId ↔
    ∃ c, db.board.active? taskId = some c ∧ c.sprintId = some sprintId := by
  rw [board_active?, ← Tasks.findActive]
  constructor
  · rintro ⟨t, ht, hs⟩
    exact ⟨t.card, by rw [ht, Option.map_some], hs⟩
  · rintro ⟨c, hc, hs⟩
    obtain ⟨t, ht, rfl⟩ := Option.map_eq_some_iff.mp hc
    exact ⟨t, ht, hs⟩

theorem isMember_of_linked (h : db.board.Linked True) {taskId sprintId : Uuid} :
    IsAssigned db taskId sprintId ↔ IsMember db taskId sprintId := by
  rw [isMember_iff]
  constructor
  · intro hrow
    obtain ⟨c, hc, himp, hlive⟩ := h.exists_card taskId sprintId (Board.mem_openRows.mpr hrow)
    have hactive := hlive trivial
    exact ⟨c, Option.filter_eq_some_iff.mpr ⟨hc, hactive⟩, himp hactive⟩
  · rintro ⟨c, hc, hs⟩
    have hfind := (Board.active?_eq_some hc).1
    exact Board.mem_openRows.mp (h.pointed taskId c sprintId hfind hs).1

theorem length_openRows (taskId : Uuid) :
    (db.assignments.filter fun a => a.taskId = taskId && a.opened).length =
      (db.board.openRows.map Prod.fst).count taskId := by
  unfold Board.openRows
  rw [List.map_map, List.count_eq_countP, List.countP_map, List.countP_filter,
    List.countP_eq_length_filter]
  refine congrArg _ (List.filter_congr fun a _ => ?_)
  simp [Bool.beq_eq_decide_eq]

theorem at_most_one_of_linked {live : Prop} (h : db.board.Linked live) (taskId : Uuid) :
    (db.assignments.filter fun a => a.taskId = taskId && a.opened).length ≤ 1 := by
  rw [length_openRows]
  exact List.nodup_iff_count_le_one.mp h.single taskId

theorem consistent_of_linked (h : db.board.Linked True) (sprintId : Uuid) :
    db.board.Consistent sprintId := by
  constructor
  · intro c hc
    obtain ⟨hmem, hsel⟩ := List.mem_filter.mp hc
    obtain ⟨hs, -⟩ : c.sprintId = some sprintId ∧ c.active = true := by simpa using hsel
    have hfind := Table.find?_of_mem hmem
    obtain ⟨a, ha, hk, hsa, ho⟩ := Board.mem_openRows.mp (h.pointed c.id c sprintId hfind hs).1
    refine le_antisymm ?_ ?_
    · refine le_trans ?_ (at_most_one_of_linked h c.id)
      refine (List.monotone_filter_right _ fun a ha => ?_).length_le
      simp only [Bool.and_eq_true, decide_eq_true_eq] at ha ⊢
      exact ⟨ha.1.1, ha.2⟩
    · refine List.length_pos_of_mem (a := a) (List.mem_filter.mpr ⟨ha, ?_⟩)
      simp [hk, hsa, ho]
  · intro a ha hs ho c hc
    obtain ⟨c', hc', himp, hlive⟩ := h.exists_card a.taskId a.sprintId
      (Board.mem_openRows.mpr ⟨a, ha, rfl, rfl, ho⟩)
    obtain rfl := Option.some.inj (hc.symm.trans hc')
    exact ⟨hs ▸ himp (hlive trivial), hlive trivial⟩

/-- **Membership**: after every run whose deletions leave no subtask in a sprint, a task has an open
assignment to a sprint if and only if it is active and points to it, it has at most one, and the
check before a snapshot succeeds. -/
theorem membership_agrees {setup : Setup} {requests : List Request}
    (hg : Runs.Guarded (step rt) LeavesNoSprintSubtask (initial setup) requests) :
    MembershipAgrees (after rt setup requests) := by
  have hlinked : (after rt setup requests).board.Linked True := by
    refine board_invariant (I := fun b => b.Linked True) ?_ ?_ hg
    · exact { exists_card := nofun, pointed := nofun, single := List.nodup_nil }
    intro db r db' hlinked hguard _ hstep
    refine Board.linked_step hstep hlinked ?_
    rintro - taskId rfl hactive k c hc hcactive hparent
    rw [board_find?] at hc
    obtain ⟨row, hrow, rfl⟩ := Option.map_eq_some_iff.mp hc
    rw [board_active?, Option.isSome_map] at hactive
    exact hguard hactive row (Table.mem_of_find? hrow) hcactive hparent
  exact
    { assigned_iff := fun _ _ => isMember_of_linked hlinked
      at_most_one := at_most_one_of_linked hlinked
      consistent := fun s => verifySprintMembershipConsistency_ok.mpr (consistent_of_linked hlinked s) }

/-- A subtask in a sprint whose parent stays, and a task in the sprint that is deleted. -/
theorem membership_agrees_deleted :
    let db := after utcRuntime smallSetup
      [.createSprint { projectId := 7, name := "s" }, .createTask { projectId := 7, title := "a" },
        .createTask { projectId := 7, title := "b", parentId := some 101 },
        .createTask { projectId := 7, title := "c" }, .assignTaskToSprint 102 100,
        .assignTaskToSprint 103 100, .softDeleteTask 103]
    db.assignments.length = 2 ∧ MembershipAgrees db :=
  ⟨by decide, membership_agrees (by decide)⟩

/-- A subtask in a planned sprint whose parent is deleted. -/
def parentDeleted : Db := after utcRuntime smallSetup
  [.createSprint { projectId := 7, name := "s" }, .createTask { projectId := 7, title := "a" },
    .createTask { projectId := 7, title := "b", parentId := some 101 }, .assignTaskToSprint 102 100,
    .softDeleteTask 101]

/-- The subtask is deleted and keeps its open assignment, so the sprint cannot be started. -/
theorem deleted_subtask_keeps_assignment :
    ¬MembershipAgrees parentDeleted ∧ IsAssigned parentDeleted 102 100 ∧
      Tasks.findActive parentDeleted 102 = none ∧
      startSprint parentDeleted 100 7 = .error (.error ("Sprint membership inconsistency detected: " ++
        "open assignment for task 00000000-0000-0000-0000-000000000066 but task sprint_id does not " ++
        "match or task is deleted")) := by
  have hopen : IsAssigned parentDeleted 102 100 := by
    unfold IsAssigned
    decide
  have hdeleted : Tasks.findActive parentDeleted 102 = none := by
    rw [← Option.isNone_iff_eq_none]
    decide
  refine ⟨fun h => ?_, hopen, hdeleted, ?_⟩
  · obtain ⟨t, ht, -⟩ := (h.assigned_iff 102 100).mp hopen
    rw [hdeleted] at ht
    cases ht
  · exact Fallible.error?_eq_some.mp (by decide +kernel)

end Sprints

end CalmBoard
