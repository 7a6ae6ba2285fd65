import CalmBoard.Goals.Repository
import CalmBoard.Lib.Fallible

/-!
# CalmBoard.Goals.Refresh — what refreshes bring up to date

* `Fresh`: a goal has the progress that a refresh would give it.
* `refresh_ok`: a refresh brings its goal up to date and leaves no other goal behind.
* `Behind`: the goals that may be out of date within a request.
* `Behind.updateGoal`, `Behind.insertGoal`, `Behind.upsertLink`, `Behind.deleteLinks`: the statements,
  with their triggers.
-/

namespace CalmBoard.Goals

open Fallible

variable {double : ℚ → ℚ} {c : Context} {now : Timestamptz} {depth : ℕ} {s s' t : Store}
  {id j : Uuid} {old new goal row : GoalRow} {D : List Uuid}

/-! ### Up to date -/

/-- The goal has the progress of what it is rolled up from. -/
def Fresh (double : ℚ → ℚ) (s : Store) (id : Uuid) : Prop :=
  ∀ g, s.goals.find? id = some g → g.active = true →
    (g.progressMode = .tasks → g.progress = weightedMean double (s.linkedTasks id)) ∧
    (g.progressMode = .children → g.progress = weightedMean double (s.children id))

theorem fresh_congr (hgoal : s'.goals.find? id = s.goals.find? id)
    (htasks : s'.linkedTasks id = s.linkedTasks id) (hchildren : s'.children id = s.children id)
    (h : Fresh double s id) : Fresh double s' id := by
  intro g hg hactive
  rw [htasks, hchildren]
  exact h g (hgoal ▸ hg) hactive

theorem fresh_of_mode (h : ∀ g, s.goals.find? id = some g →
    g.progressMode = .manual ∨ g.progressMode = .measurement) : Fresh double s id := by
  intro g hg _
  rcases h g hg with hmode | hmode
  · exact ⟨fun htasks => by simp [hmode] at htasks, fun hchildren => by simp [hmode] at hchildren⟩
  · exact ⟨fun htasks => by simp [hmode] at htasks, fun hchildren => by simp [hmode] at hchildren⟩

theorem map_filter_congr {α β : Type} {p : α → Bool} {f : α → β} {φ : α → α} :
    ∀ {l : List α}, (∀ a ∈ l, p (φ a) = p a ∧ (p a = true → f (φ a) = f a)) →
      ((l.map φ).filter p).map f = (l.filter p).map f
  | [], _ => rfl
  | a :: l, h => by
    have hl := map_filter_congr fun b hb => h b (List.mem_cons_of_mem a hb)
    obtain ⟨hp, hf⟩ := h a List.mem_cons_self
    by_cases ha : p a = true
    · rw [List.map_cons, List.filter_cons_of_pos (hp.trans ha), List.filter_cons_of_pos ha,
        List.map_cons, List.map_cons, hl, hf ha]
    · rw [List.map_cons, List.filter_cons_of_neg (by rw [hp]; exact ha), List.filter_cons_of_neg ha, hl]

theorem children_put (hgoal : s.goals.find? row.id = some goal)
    (hp : (row.parentId = some j ∧ row.active = true) ↔ goal.parentId = some j ∧ goal.active = true)
    (hrow : goal.parentId = some j → row.progress = goal.progress ∧ row.weight = goal.weight) :
    ({ s with goals := s.goals.put row } : Store).children j = s.children j := by
  unfold Store.children
  rw [Table.rows_put]
  refine map_filter_congr fun g hg => ?_
  by_cases hid : g.id = row.id
  · have hgg : g = goal := by
      have hfind := Table.find?_of_mem hg
      rw [hid, hgoal] at hfind
      exact (Option.some.inj hfind).symm
    rw [if_pos hid, hgg]
    refine ⟨?_, fun hpg => ?_⟩
    · rw [Bool.eq_iff_iff]
      simpa using hp
    · have hparent : goal.parentId = some j := by
        simp only [Bool.and_eq_true, decide_eq_true_eq] at hpg
        exact hpg.1
      rw [(hrow hparent).1, (hrow hparent).2]
  · rw [if_neg hid]
    exact ⟨rfl, fun _ => rfl⟩

/-! ### A refresh -/

/-- A goal without what a refresh writes. -/
def bare (g : GoalRow) : GoalRow := { g with progress := 0, status := .offTrack, updatedAt := ⟨0⟩ }

theorem bare_id (g : GoalRow) : (bare g).id = g.id := rfl

theorem parentId_of_bare (h : bare old = bare new) : old.parentId = new.parentId :=
  (congrArg GoalRow.parentId h : (bare old).parentId = (bare new).parentId)

theorem type_of_bare (h : bare old = bare new) : old.type = new.type :=
  (congrArg GoalRow.type h : (bare old).type = (bare new).type)

theorem progressMode_of_bare (h : bare old = bare new) : old.progressMode = new.progressMode :=
  (congrArg GoalRow.progressMode h : (bare old).progressMode = (bare new).progressMode)

/-- Nothing has changed but what refreshes write. -/
structure Kept (s s' : Store) : Prop where
  goals : s'.goals.map bare bare_id = s.goals.map bare bare_id
  links : s'.links = s.links
  tasks : s'.tasks = s.tasks

theorem Kept.refl (s : Store) : Kept s s := ⟨rfl, rfl, rfl⟩

theorem Kept.trans (h : Kept s s') (h' : Kept s' t) : Kept s t :=
  ⟨h'.goals.trans h.goals, h'.links.trans h.links, h'.tasks.trans h.tasks⟩

theorem Kept.find? (h : Kept s s') (id : Uuid) :
    (s'.goals.find? id).map bare = (s.goals.find? id).map bare := by
  rw [← Table.find?_map s'.goals bare bare_id, h.goals, Table.find?_map]

theorem Kept.back (h : Kept s s') (hnew : s'.goals.find? id = some new) :
    ∃ old, s.goals.find? id = some old ∧ bare old = bare new := by
  have hfind := h.find? id
  rw [hnew, Option.map_some] at hfind
  obtain ⟨old, hold, hbare⟩ := Option.map_eq_some_iff.mp hfind.symm
  exact ⟨old, hold, hbare⟩

theorem Kept.forth (h : Kept s s') (hold : s.goals.find? id = some old) :
    ∃ new, s'.goals.find? id = some new ∧ bare old = bare new := by
  have hfind := h.find? id
  rw [hold, Option.map_some] at hfind
  obtain ⟨new, hnew, hbare⟩ := Option.map_eq_some_iff.mp hfind
  exact ⟨new, hnew, hbare.symm⟩

theorem Kept.linkedTasks (h : Kept s s') (id : Uuid) : s'.linkedTasks id = s.linkedTasks id := by
  unfold Store.linkedTasks
  rw [h.links, h.tasks]

theorem kept_put (hgoal : s.goals.find? row.id = some goal) (hbare : bare row = bare goal) :
    Kept s { s with goals := s.goals.put row } := by
  refine ⟨Table.ext_rows ?_, rfl, rfl⟩
  rw [Table.rows_map, Table.rows_map, Table.rows_put, List.map_map]
  refine List.map_congr_left fun g hg => ?_
  by_cases hid : g.id = row.id
  · have hfind := Table.find?_of_mem hg
    rw [hid, hgoal] at hfind
    rw [Function.comp_apply, if_pos hid, hbare, Option.some.inj hfind]
  · rw [Function.comp_apply, if_neg hid]

/-- A refresh of a goal: it is up to date afterwards, and so is every goal that was. -/
structure Refreshed (double : ℚ → ℚ) (id : Uuid) (s s' : Store) : Prop where
  kept : Kept s s'
  fresh : Fresh double s' id
  others : ∀ j, Fresh double s j → Fresh double s' j

def NoSelf (s : Store) : Prop := ∀ id g, s.goals.find? id = some g → g.parentId ≠ some id

theorem Kept.noSelf (h : Kept s s') (hs : NoSelf s) : NoSelf s' := by
  intro id new hnew
  obtain ⟨old, hold, hbare⟩ := h.back hnew
  exact parentId_of_bare hbare ▸ hs id old hold

theorem integer_ok {n m : ℤ} (h : integer n = .ok m) : m = n := by
  unfold integer at h
  split at h
  · cases h
    rfl
  · cases h

theorem fresh_put (hgoal : s.goals.find? id = some goal) (hself : goal.parentId ≠ some id)
    {progress : ℤ} (hprogress : calculatedProgress double s goal = .ok progress)
    (hrow : bare row = bare goal) (hset : row.progress = progress) :
    Fresh double { s with goals := s.goals.put row } id := by
  have hid : goal.id = id := Table.key_of_find? hgoal
  have hrowid : row.id = id := (congrArg GoalRow.id hrow).trans hid
  have hmode : row.progressMode = goal.progressMode := progressMode_of_bare hrow
  have hparent : row.parentId = goal.parentId := parentId_of_bare hrow
  have hgoal' : s.goals.find? row.id = some goal := hrowid ▸ hgoal
  intro g hg _
  have hfind : (s.goals.put row).find? id = some row := by
    rw [Table.find?_put hgoal', if_pos hrowid]
  have hgr : g = row := Option.some.inj (hg.symm.trans hfind)
  rw [hgr, hmode, hset]
  unfold calculatedProgress at hprogress
  constructor
  · intro htasks
    rw [htasks] at hprogress
    rw [← hid]
    exact integer_ok hprogress
  · intro hchildren
    rw [hchildren] at hprogress
    have hsame : ({ s with goals := s.goals.put row } : Store).children id = s.children id :=
      children_put hgoal' (by simp [hparent, hself]) fun h => absurd h hself
    rw [hsame, ← hid]
    exact integer_ok hprogress

theorem fresh_put_of_ne (hgoal : s.goals.find? row.id = some goal) (hj : j ≠ row.id)
    (hold : goal.parentId ≠ some j) (hnew : row.parentId ≠ some j) (h : Fresh double s j) :
    Fresh double { s with goals := s.goals.put row } j := by
  have hchildren : ({ s with goals := s.goals.put row } : Store).children j = s.children j :=
    children_put hgoal (by simp [hold, hnew]) fun h => absurd h hold
  have hfind : (s.goals.put row).find? j = s.goals.find? j := by
    rw [Table.find?_put hgoal, if_neg (Ne.symm hj)]
  have htasks : ({ s with goals := s.goals.put row } : Store).linkedTasks j = s.linkedTasks j := rfl
  exact fresh_congr hfind htasks hchildren h

/-- **Refresh**: by induction on the nesting of the calls. -/
theorem refresh_ok : ∀ {depth : ℕ} {id : Uuid} {s s' : Store}, NoSelf s →
    refreshGoalProgress double now depth id s = .ok s' → Refreshed double id s s'
  | 0, id, s, s', _, h => by cases h
  | depth + 1, id, s, s', hself, h => by
    unfold refreshGoalProgress at h
    split at h
    · next hnone =>
      cases h
      refine ⟨.refl s, fun g hg hactive => ?_, fun _ hj => hj⟩
      rw [hg, Option.filter_some, if_pos hactive] at hnone
      cases hnone
    · next goal hgoal =>
      obtain ⟨hfind, hactive⟩ := Option.filter_eq_some_iff.mp hgoal
      have hid : goal.id = id := Table.key_of_find? hfind
      obtain ⟨progress, hprogress, h⟩ := bind_ok.mp h
      obtain ⟨status, -, h⟩ := bind_ok.mp h
      obtain ⟨_, -, h⟩ := bind_ok.mp h
      set row : GoalRow := { goal with progress, status, updatedAt := now } with hrow
      have hfind' : s.goals.find? row.id = some goal := (hid.symm ▸ hfind : s.goals.find? goal.id = _)
      have hkept : Kept s { s with goals := s.goals.put row } := kept_put hfind' rfl
      have hfresh : Fresh double { s with goals := s.goals.put row } id :=
        fresh_put hfind (hself id goal hfind) hprogress rfl rfl
      have hothers : ∀ j, goal.parentId ≠ some j → Fresh double s j →
          Fresh double { s with goals := s.goals.put row } j := by
        intro j hj hfj
        by_cases hji : j = id
        · rw [hji]
          exact hfresh
        · exact fresh_put_of_ne hfind' (hid.symm ▸ hji : j ≠ goal.id) hj hj hfj
      split at h
      · next hparent =>
        cases pure_ok.mp h
        exact ⟨hkept, hfresh, fun j => hothers j (by rw [hparent]; simp)⟩
      · next p hparent =>
        obtain ⟨u, hu, h⟩ := bind_ok.mp h
        have hfirst := refresh_ok (hkept.noSelf hself) hu
        have hsecond := refresh_ok (hfirst.kept.noSelf (hkept.noSelf hself)) h
        refine ⟨(hkept.trans hfirst.kept).trans hsecond.kept,
          hsecond.others id (hfirst.others id hfresh), fun j hj => ?_⟩
        by_cases hjp : goal.parentId = some j
        · rw [hparent] at hjp
          cases hjp
          exact hsecond.fresh
        · exact hsecond.others j (hfirst.others j (hothers j hjp hj))

/-! ### The tree of goals -/

/-- The tree: parents are objectives, objectives have no parent, and links lead to goals. -/
structure WellFormed (s : Store) : Prop where
  objectives : ∀ id g, s.goals.find? id = some g → g.type = .objective → g.parentId = none
  parents : ∀ id g p, s.goals.find? id = some g → g.parentId = some p →
    ∃ q, s.goals.find? p = some q ∧ q.type = .objective
  links : ∀ l ∈ s.links.rows, ∃ g, s.goals.find? l.goalId = some g

theorem WellFormed.noSelf (h : WellFormed s) : NoSelf s := by
  intro id g hg hself
  obtain ⟨q, hq, htype⟩ := h.parents id g id hg hself
  rw [hg] at hq
  cases hq
  rw [h.objectives id g hg htype] at hself
  cases hself

theorem Kept.wellFormed (h : Kept s s') (hs : WellFormed s) : WellFormed s' where
  objectives id g hg htype := by
    obtain ⟨old, hold, hbare⟩ := h.back hg
    rw [← parentId_of_bare hbare]
    exact hs.objectives id old hold ((type_of_bare hbare).trans htype)
  parents id g p hg hp := by
    obtain ⟨old, hold, hbare⟩ := h.back hg
    obtain ⟨q, hq, htype⟩ := hs.parents id old p hold ((parentId_of_bare hbare).trans hp)
    obtain ⟨q', hq', hbare'⟩ := h.forth hq
    exact ⟨q', hq', (type_of_bare hbare').symm.trans htype⟩
  links l hl := by
    rw [h.links] at hl
    obtain ⟨g, hg⟩ := hs.links l hl
    obtain ⟨g', hg', -⟩ := h.forth hg
    exact ⟨g', hg'⟩

/-! ### Room on the stack -/

/-- An error that a stack with room for so many calls does not give. -/
def Enough (room depth : ℕ) (e : RepoError) : Prop := room ≤ depth → e ≠ stackDepthExceeded

variable {room : ℕ}

theorem enough {e : RepoError} (h : e ≠ stackDepthExceeded) : Enough room depth e := fun _ => h

/-- A computation that calls no refresh. -/
def Shallow {α : Type} (x : Except RepoError α) : Prop :=
  Returns (fun _ => True) (· ≠ stackDepthExceeded) x

theorem Shallow.bind {α β : Type} {x : Except RepoError α} {f : α → Except RepoError β} {Q : β → Prop}
    (hx : Shallow x) (hf : ∀ a, x = .ok a → Returns Q (Enough room depth) (f a)) :
    Returns Q (Enough room depth) (x >>= f) := by
  have hroom : Returns (fun _ => True) (Enough room depth) x :=
    returns_of (fun _ _ => True.intro) fun e he =>
      enough (Returns.error (E := fun e => e ≠ stackDepthExceeded) hx he)
  exact hroom.bind fun a ha _ => hf a ha

theorem integer_shallow (n : ℤ) : Shallow (integer n) := by
  unfold integer
  split
  · exact True.intro
  · show RepoError.database _ ≠ _
    decide

theorem calculatedProgress_shallow (s : Store) (g : GoalRow) :
    Shallow (calculatedProgress double s g) := by
  unfold calculatedProgress
  split
  · exact integer_shallow _
  · exact integer_shallow _
  · simp only
    split
    · exact True.intro
    · exact Returns.bind (integer_shallow _) fun _ _ _ => True.intro
  · exact True.intro

theorem goalHealthStatus_shallow (now : Timestamptz) (progress : ℤ)
    (periodStart periodEnd : Option Timestamptz) :
    Shallow (goalHealthStatus now progress periodStart periodEnd) := by
  unfold goalHealthStatus
  split
  · exact True.intro
  · match periodStart, periodEnd with
    | none, _ => exact True.intro
    | some _, none => exact True.intro
    | some start, some finish =>
      by_cases hperiod : start < finish
      · simp only [if_pos hperiod]
        exact Returns.bind (integer_shallow _) fun _ _ _ => True.intro
      · simp only [if_neg hperiod]
        exact True.intro

theorem checkGoal_shallow (g : GoalRow) : Shallow (checkGoal g) := by
  refine Returns.guard (by decide) fun _ => ?_
  refine Returns.guard (by decide) fun _ => ?_
  refine Returns.guard (by decide) fun _ => ?_
  refine Returns.guard (by decide) fun _ => ?_
  exact Returns.guard (by decide) fun _ => True.intro

theorem refresh_root (hroot : ∀ g, s.goals.find? id = some g → g.parentId = none) :
    Returns (fun _ => True) (Enough 1 depth) (refreshGoalProgress double now depth id s) := by
  cases depth with
  | zero => exact fun h => absurd h (by omega)
  | succ depth =>
    unfold refreshGoalProgress
    split
    · exact True.intro
    · next goal hgoal =>
      have hparent : goal.parentId = none := hroot goal (Option.filter_eq_some_iff.mp hgoal).1
      refine (calculatedProgress_shallow s goal).bind fun progress _ => ?_
      refine (goalHealthStatus_shallow ..).bind fun status _ => ?_
      refine (checkGoal_shallow _).bind fun _ _ => ?_
      rw [hparent]
      exact True.intro

theorem refresh_enough (hs : WellFormed s) :
    Returns (fun _ => True) (Enough 2 depth) (refreshGoalProgress double now depth id s) := by
  cases depth with
  | zero => exact fun h => absurd h (by omega)
  | succ depth =>
    unfold refreshGoalProgress
    split
    · exact True.intro
    · next goal hgoal =>
      obtain ⟨hfind, -⟩ := Option.filter_eq_some_iff.mp hgoal
      have hid : goal.id = id := Table.key_of_find? hfind
      refine (calculatedProgress_shallow s goal).bind fun progress _ => ?_
      refine (goalHealthStatus_shallow ..).bind fun status _ => ?_
      refine (checkGoal_shallow _).bind fun _ _ => ?_
      set row : GoalRow := { goal with progress, status, updatedAt := now } with hrow
      have hfind' : s.goals.find? row.id = some goal := (hid.symm ▸ hfind : s.goals.find? goal.id = _)
      have hkept : Kept s { s with goals := s.goals.put row } := kept_put hfind' rfl
      split
      · exact True.intro
      · next p hparent =>
        obtain ⟨q, hq, htype⟩ := hs.parents id goal p hfind hparent
        have hq' : q.parentId = none := hs.objectives p q hq htype
        have hparentRoot : ∀ {t : Store}, Kept s t →
            Returns (fun _ => True) (Enough 2 (depth + 1)) (refreshGoalProgress double now depth p t) := by
          intro t ht
          refine returns_of (fun _ _ => True.intro) fun e he hroom => ?_
          refine Returns.error (refresh_root fun g hg => ?_) he (by omega)
          obtain ⟨o, ho, hbare⟩ := ht.back hg
          rw [hq] at ho
          cases ho
          exact (parentId_of_bare hbare).symm.trans hq'
        refine (hparentRoot hkept).bind fun t ht _ => ?_
        exact hparentRoot (hkept.trans (refresh_ok (hkept.noSelf hs.noSelf) ht).kept)

/-! ### Within a request -/

/-- Only the goals of `P` may be out of date. -/
structure Behind (double : ℚ → ℚ) (P : Uuid → Prop) (s : Store) : Prop where
  wf : WellFormed s
  fresh : ∀ j, ¬ P j → Fresh double s j

variable {P Q : Uuid → Prop}

theorem Behind.mono (h : Behind double P s) (hPQ : ∀ j, P j → Q j) : Behind double Q s :=
  ⟨h.wf, fun j hj => h.fresh j fun hp => hj (hPQ j hp)⟩

/-- **Refresh within a request**. -/
theorem Behind.refresh (h : Behind double P s) :
    Returns (fun s' => Kept s s' ∧ Behind double (fun j => P j ∧ j ≠ id) s') (Enough 2 depth)
      (refreshGoalProgress double now depth id s) := by
  refine returns_of (fun s' hok => ?_) fun e he => (refresh_enough h.wf).error he
  have hr := refresh_ok h.wf.noSelf hok
  refine ⟨hr.kept, hr.kept.wellFormed h.wf, fun j hj => ?_⟩
  by_cases hji : j = id
  · rw [hji]
    exact hr.fresh
  · exact hr.others j (h.fresh j fun hp => hj ⟨hp, hji⟩)

theorem Behind.refreshAll : ∀ {ids : List Uuid} {s : Store} {P : Uuid → Prop}, Behind double P s →
    Returns (fun s' => Kept s s' ∧ Behind double (fun j => P j ∧ j ∉ ids) s') (Enough 2 depth)
      (ids.foldlM (fun s id => refreshGoalProgress double now depth id s) s)
  | [], s, P, h => ⟨.refl s, h.mono fun j hj => ⟨hj, List.not_mem_nil⟩⟩
  | id :: ids, s, P, h => by
    rw [List.foldlM_cons]
    refine h.refresh.bind fun t _ ⟨hkept, hbehind⟩ => ?_
    refine hbehind.refreshAll.mono fun s' ⟨hkept', hbehind'⟩ => ?_
    refine ⟨hkept.trans hkept', hbehind'.mono fun j hj => ⟨hj.1.1, ?_⟩⟩
    rw [List.mem_cons, not_or]
    exact ⟨hj.1.2, hj.2⟩

theorem Behind.refreshParent {p : Option Uuid} (h : Behind double P s) :
    Returns (fun s' => Kept s s' ∧ Behind double (fun j => P j ∧ p ≠ some j) s') (Enough 2 c.depth)
      (refreshParent double c p s) := by
  cases p with
  | none => exact ⟨.refl s, h.mono fun j hj => ⟨hj, by simp⟩⟩
  | some p =>
    refine h.refresh.mono fun s' ⟨hkept, hbehind⟩ => ?_
    exact ⟨hkept, hbehind.mono fun j hj => ⟨hj.1, fun he => hj.2 (Option.some.inj he).symm⟩⟩

theorem Behind.refreshParentGoal {old new : Option GoalRow} (h : Behind double P s) :
    Returns
      (fun s' => Kept s s' ∧ Behind double (fun j =>
        (P j ∧ old.bind GoalRow.parentId ≠ some j) ∧ new.bind GoalRow.parentId ≠ some j) s')
      (Enough 2 c.depth) (refreshParentGoal double c old new s) := by
  refine h.refreshParent.bind fun t _ ⟨hkept, hbehind⟩ => ?_
  refine hbehind.refreshParent.mono fun s' ⟨hkept', hbehind'⟩ => ?_
  exact ⟨hkept.trans hkept', hbehind'⟩

/-! ### Statements on goals -/

theorem validateGoalScope_ok {old : Option GoalRow} (h : validateGoalScope s old new = .ok ()) :
    (new.type = .objective → new.parentId = none) ∧
      ∀ p, new.parentId = some p → ∃ q, s.goals.find? p = some q ∧ q.type = .objective := by
  obtain ⟨hobjective, h⟩ := guard_ok.mp h
  obtain ⟨-, h⟩ := guard_ok.mp h
  refine ⟨fun htype => not_not.mp fun hp => hobjective ⟨htype, hp⟩, fun p hp => ?_⟩
  rw [hp] at h
  obtain ⟨hparent, -⟩ := guard_ok.mp h
  rw [Bool.not_eq_false, Option.any_eq_true] at hparent
  obtain ⟨q, hq, htype⟩ := hparent
  simp only [Bool.and_eq_true, decide_eq_true_eq] at htype
  exact ⟨q, hq, htype.1⟩

theorem validateGoalScope_shallow (s : Store) (old : Option GoalRow) (new : GoalRow) :
    Shallow (validateGoalScope s old new) := by
  refine Returns.guard (by decide) fun _ => ?_
  refine Returns.guard (by decide) fun _ => ?_
  split
  · exact True.intro
  · exact Returns.guard (by decide) fun _ => True.intro

/-- What a statement leaves alone, by the columns it names. -/
structure Sets (named : Named) (f : GoalRow → GoalRow) : Prop where
  id : ∀ g, (f g).id = g.id
  type : ∀ g, (f g).type = g.type
  deletedAt : ∀ g, (f g).deletedAt = g.deletedAt
  scope : named.scope = false → ∀ g, (f g).parentId = g.parentId
  rollUp : named.rollUp = false → ∀ g,
    (f g).parentId = g.parentId ∧ (f g).progress = g.progress ∧ (f g).weight = g.weight

theorem wellFormed_put (hs : WellFormed s) (hold : s.goals.find? row.id = some old)
    (htype : row.type = old.type) (hobjective : row.type = .objective → row.parentId = none)
    (hparent : ∀ p, row.parentId = some p → ∃ q, s.goals.find? p = some q ∧ q.type = .objective) :
    WellFormed { s with goals := s.goals.put row } := by
  have hback : ∀ id g, (s.goals.put row).find? id = some g →
      (row.id = id ∧ g = row) ∨ s.goals.find? id = some g := by
    intro id g hg
    rw [Table.find?_put hold] at hg
    split at hg
    · next hid =>
      cases hg
      exact Or.inl ⟨hid, rfl⟩
    · exact Or.inr hg
  have hforth : ∀ id q, s.goals.find? id = some q →
      ∃ q', (s.goals.put row).find? id = some q' ∧ q'.type = q.type := by
    intro id q hq
    rw [Table.find?_put hold]
    by_cases hid : row.id = id
    · rw [← hid, hold] at hq
      cases hq
      exact ⟨row, if_pos hid, htype⟩
    · exact ⟨q, (if_neg hid).trans hq, rfl⟩
  refine ⟨fun id g hg hg' => ?_, fun id g p hg hp => ?_, fun l hl => ?_⟩
  · rcases hback id g hg with ⟨-, rfl⟩ | hg
    · exact hobjective hg'
    · exact hs.objectives id g hg hg'
  · have hq : ∃ q, s.goals.find? p = some q ∧ q.type = .objective := by
      rcases hback id g hg with ⟨-, rfl⟩ | hg
      · exact hparent p hp
      · exact hs.parents id g p hg hp
    obtain ⟨q, hq, hobj⟩ := hq
    obtain ⟨q', hq', hsame⟩ := hforth p q hq
    exact ⟨q', hq', hsame.trans hobj⟩
  · obtain ⟨g, hg⟩ := hs.links l hl
    obtain ⟨g', hg', -⟩ := hforth l.goalId g hg
    exact ⟨g', hg'⟩

/-- **Update of a goal**: its parents, old and new, are brought up to date by the trigger. -/
theorem Behind.updateGoal {f : GoalRow → GoalRow} {named : Named} (h : Behind double P s)
    (hf : Sets named f) :
    Returns
      (fun x => (x.1 = none ∧ x.2 = s) ∨ ∃ old, s.goals.find? id = some old ∧ x.1 = some (f old) ∧
        Kept { s with goals := s.goals.put (f old) } x.2 ∧ Behind double (fun j => P j ∨ j = id) x.2)
      (Enough 2 c.depth) (updateGoal double c id f named s) := by
  unfold Goals.updateGoal
  split
  · exact Or.inl ⟨rfl, rfl⟩
  · next old hfilter =>
    obtain ⟨hold, -⟩ := Option.filter_eq_some_iff.mp hfilter
    have hid : old.id = id := Table.key_of_find? hold
    have hrow : s.goals.find? (f old).id = some old := by rw [hf.id, hid, hold]
    have hscope : ∀ {Q : Option GoalRow × Store → Prop} {rest : Except RepoError (Option GoalRow × Store)},
        (((f old).type = .objective → (f old).parentId = none) →
          (∀ p, (f old).parentId = some p → ∃ q, s.goals.find? p = some q ∧ q.type = .objective) →
          Returns Q (Enough 2 c.depth) rest) →
        Returns Q (Enough 2 c.depth)
          (if named.scope then validateGoalScope s (some old) (f old) >>= fun _ => rest else rest) := by
      intro Q rest hrest
      by_cases hnamed : named.scope = true
      · rw [if_pos hnamed]
        refine (validateGoalScope_shallow s (some old) (f old)).bind fun _ hvalid => ?_
        obtain ⟨hobjective, hparent⟩ := validateGoalScope_ok hvalid
        exact hrest hobjective hparent
      · rw [if_neg hnamed]
        have hsame := hf.scope (Bool.not_eq_true _ ▸ hnamed) old
        refine hrest (fun htype => ?_) fun p hp => ?_
        · rw [hsame]
          exact h.wf.objectives id old hold ((hf.type old).symm.trans htype)
        · exact h.wf.parents id old p hold (hsame.symm.trans hp)
    refine hscope fun hobjective hparent => ?_
    refine (checkGoal_shallow _).bind fun _ _ => ?_
    have hwf : WellFormed { s with goals := s.goals.put (f old) } :=
      wellFormed_put h.wf hrow (hf.type old) hobjective hparent
    by_cases hnamed : named.rollUp = true
    · rw [if_pos hnamed]
      have hput : Behind double (fun j => (P j ∨ j = id) ∨ old.parentId = some j ∨
          (f old).parentId = some j) { s with goals := s.goals.put (f old) } := by
        refine ⟨hwf, fun j hj => ?_⟩
        simp only [not_or] at hj
        exact fresh_put_of_ne hrow (by rw [hf.id, hid]; exact hj.1.2) hj.2.1 hj.2.2 (h.fresh j hj.1.1)
      refine hput.refreshParentGoal.bind fun t _ ht => ?_
      refine Or.inr ⟨old, hold, rfl, ht.1, ht.2.mono fun j hj => ?_⟩
      obtain ⟨⟨hj, hold'⟩, hnew'⟩ := hj
      rcases hj with hj | hj | hj
      · exact hj
      · exact absurd hj hold'
      · exact absurd hj hnew'
    · rw [if_neg hnamed]
      obtain ⟨hp, hprogress, hweight⟩ := hf.rollUp (Bool.not_eq_true _ ▸ hnamed) old
      refine Or.inr ⟨old, hold, rfl, .refl _, hwf, fun j hj => ?_⟩
      simp only [not_or] at hj
      have hchildren : ({ s with goals := s.goals.put (f old) } : Store).children j = s.children j := by
        refine children_put hrow ?_ fun _ => ⟨hprogress, hweight⟩
        rw [hp, GoalRow.active, hf.deletedAt old]
        exact Iff.rfl
      have hfind : (s.goals.put (f old)).find? j = s.goals.find? j := by
        rw [Table.find?_put hrow, if_neg]
        rw [hf.id, hid]
        exact Ne.symm hj.2
      have htasks : ({ s with goals := s.goals.put (f old) } : Store).linkedTasks j =
          s.linkedTasks j := rfl
      exact fresh_congr hfind htasks hchildren (h.fresh j hj.1)

theorem weightedMean_nil (double : ℚ → ℚ) : weightedMean double [] = 0 := rfl

/-- **Insert of a goal**: there is nothing yet that it could be rolled up from. -/
theorem Behind.insertGoal {g : GoalRow} (h : Behind double P s)
    (hmode : g.progressMode = .tasks ∨ g.progressMode = .children → g.progress = 0) :
    Returns (fun s' => s'.links = s.links ∧ s'.tasks = s.tasks ∧ Behind double P s')
      (Enough 2 c.depth) (insertGoal double c g s) := by
  refine (validateGoalScope_shallow s none g).bind fun _ hvalid => ?_
  refine (checkGoal_shallow g).bind fun _ _ => ?_
  obtain ⟨hobjective, hparent⟩ := validateGoalScope_ok hvalid
  split
  · exact enough (by decide)
  · next goals hinsert =>
    obtain ⟨hnone, hrows⟩ := Table.insert?_eq_some hinsert
    have hfind : ∀ j, goals.find? j = if g.id = j then some g else s.goals.find? j :=
      Table.find?_insert? hinsert
    have hforth : ∀ id q, s.goals.find? id = some q → goals.find? id = some q := by
      intro id q hq
      rw [hfind, if_neg, hq]
      intro hid
      rw [← hid, hnone] at hq
      cases hq
    have hwf : WellFormed { s with goals } := by
      refine ⟨fun id x hx htype => ?_, fun id x p hx hp => ?_, fun l hl => ?_⟩
      · rw [show ({ s with goals } : Store).goals.find? id = goals.find? id from rfl, hfind] at hx
        split at hx
        · cases hx
          exact hobjective htype
        · exact h.wf.objectives id x hx htype
      · rw [show ({ s with goals } : Store).goals.find? id = goals.find? id from rfl, hfind] at hx
        have hq : ∃ q, s.goals.find? p = some q ∧ q.type = .objective := by
          split at hx
          · cases hx
            exact hparent p hp
          · exact h.wf.parents id x p hx hp
        obtain ⟨q, hq, htype⟩ := hq
        exact ⟨q, hforth p q hq, htype⟩
      · obtain ⟨x, hx⟩ := h.wf.links l hl
        exact ⟨x, hforth _ x hx⟩
    have hchildren : ∀ j, g.parentId ≠ some j →
        ({ s with goals } : Store).children j = s.children j := by
      intro j hj
      unfold Store.children
      rw [show ({ s with goals } : Store).goals.rows = s.goals.rows ++ [g] from hrows,
        List.filter_append, List.filter_cons_of_neg (by simp [hj]), List.filter_nil, List.append_nil]
    have hself : g.parentId ≠ some g.id := by
      intro hp
      obtain ⟨q, hq, -⟩ := hparent g.id hp
      rw [hnone] at hq
      cases hq
    have hput : Behind double (fun j => P j ∨ g.parentId = some j) { s with goals } := by
      refine ⟨hwf, fun j hj => ?_⟩
      simp only [not_or] at hj
      have htasks : ({ s with goals } : Store).linkedTasks j = s.linkedTasks j := rfl
      by_cases hid : g.id = j
      · subst hid
        intro x hx _
        have hgx : goals.find? g.id = some g := (hfind g.id).trans (if_pos rfl)
        obtain rfl : x = g := Option.some.inj (hx.symm.trans hgx)
        have hlinked : s.linkedTasks x.id = [] := by
          have hno : s.links.rows.filter (fun l => l.goalId = x.id) = [] := by
            refine List.filter_eq_nil_iff.mpr fun l hl hgoal => ?_
            obtain ⟨y, hy⟩ := h.wf.links l hl
            rw [of_decide_eq_true hgoal, hnone] at hy
            cases hy
          rw [Store.linkedTasks, hno, List.filterMap_nil]
        have hchild : s.children x.id = [] := by
          have hno : s.goals.rows.filter (fun y => y.parentId = some x.id && y.active) = [] := by
            refine List.filter_eq_nil_iff.mpr fun y hy hyp => ?_
            simp only [Bool.and_eq_true, decide_eq_true_eq] at hyp
            obtain ⟨q, hq, -⟩ := h.wf.parents y.id y x.id (Table.find?_of_mem hy) hyp.1
            rw [hnone] at hq
            cases hq
          rw [Store.children, hno, List.map_nil]
        rw [htasks, hchildren _ hself, hlinked, hchild, weightedMean_nil]
        exact ⟨fun hm => hmode (Or.inl hm), fun hm => hmode (Or.inr hm)⟩
      · exact fresh_congr ((hfind j).trans (if_neg hid)) htasks (hchildren j hj.2) (h.fresh j hj.1)
    refine hput.refreshParentGoal.mono fun s' hs' => ?_
    refine ⟨hs'.1.links, hs'.1.tasks, hs'.2.mono fun j hj => ?_⟩
    exact hj.1.1.resolve_right hj.2

/-! ### Links and tasks -/

theorem Behind.relink (h : Behind double P s) (hgoals : s'.goals = s.goals)
    (hlinks : ∀ l ∈ s'.links.rows, ∃ g, s.goals.find? l.goalId = some g)
    (hsame : ∀ j, ¬ Q j → s'.linkedTasks j = s.linkedTasks j) (hPQ : ∀ j, P j → Q j) :
    Behind double Q s' := by
  refine ⟨⟨?_, ?_, ?_⟩, fun j hj => ?_⟩
  · rw [hgoals]
    exact h.wf.objectives
  · rw [hgoals]
    exact h.wf.parents
  · rw [hgoals]
    exact hlinks
  · have hchildren : s'.children j = s.children j := by
      unfold Store.children
      rw [hgoals]
    exact fresh_congr (by rw [hgoals]) (hsame j hj) hchildren (h.fresh j fun hp => hj (hPQ j hp))

def TasksThere (s : Store) : Prop := ∀ l ∈ s.links.rows, ∃ t, s.tasks.find? l.taskId = some t

theorem Kept.tasksThere (h : Kept s s') (hs : TasksThere s) : TasksThere s' := by
  intro l hl
  rw [h.links] at hl
  rw [h.tasks]
  exact hs l hl

theorem validateGoalTaskScope_shallow (s : Store) (l : LinkRow) :
    Shallow (validateGoalTaskScope s l) := by
  refine Returns.guard (by decide) fun _ => ?_
  exact Returns.guard (by decide) fun _ => True.intro

theorem Behind.upsertLink {l : LinkRow} (h : Behind double (fun j => j = l.goalId) s)
    (ht : TasksThere s) :
    Returns (fun s' => TasksThere s' ∧ Behind double (fun _ => False) s') (Enough 2 c.depth)
      (upsertLink double c l s) := by
  refine (validateGoalTaskScope_shallow s l).bind fun _ hvalid => ?_
  refine Returns.guard (enough (by decide)) fun _ => ?_
  obtain ⟨hgoal, hvalid⟩ := guard_ok.mp hvalid
  obtain ⟨htask, -⟩ := guard_ok.mp hvalid
  rw [Bool.not_eq_false, Option.any_eq_true] at hgoal htask
  obtain ⟨g, hg, -⟩ := hgoal
  obtain ⟨t, htask, -⟩ := htask
  split
  · next old hold =>
    have hmem : old ∈ s.links.rows := List.mem_of_find?_eq_some hold
    have hkey : old.goalId = l.goalId ∧ old.taskId = l.taskId := by
      have hfound := List.find?_some hold
      simpa using hfound
    set row : LinkRow := { old with weight := l.weight, createdById := l.createdById } with hrow
    have hput : Behind double (fun j => j = l.goalId) { s with links := s.links.put row } := by
      refine h.relink rfl (fun x hx => ?_) (fun j hj => ?_) fun _ hj => hj
      · rcases Table.mem_put hx with rfl | hx
        · exact h.wf.links old hmem
        · exact h.wf.links x hx
      · have hfilter : (s.links.put row).rows.filter (fun x => x.goalId = j) =
            s.links.rows.filter fun x => x.goalId = j := by
          rw [Table.rows_put]
          have hsame : ∀ x ∈ s.links.rows,
              (decide ((if x.id = row.id then row else x).goalId = j) = decide (x.goalId = j)) ∧
                (decide (x.goalId = j) = true → id (if x.id = row.id then row else x) = id x) := by
            intro x hx
            by_cases hid : x.id = row.id
            · have hxo : x = old := Table.eq_of_mem hx hmem hid
              have hne : old.goalId ≠ j := fun he => hj (he.symm.trans hkey.1)
              rw [if_pos hid, hxo]
              exact ⟨rfl, fun hx => absurd (of_decide_eq_true hx) hne⟩
            · rw [if_neg hid]
              exact ⟨rfl, fun _ => rfl⟩
          have hmap : ((s.links.rows.map fun x => if x.id = row.id then row else x).filter
              fun x => x.goalId = j).map id = (s.links.rows.filter fun x => x.goalId = j).map id :=
            map_filter_congr hsame
          rwa [List.map_id, List.map_id] at hmap
        show ((s.links.put row).rows.filter fun x => x.goalId = j).filterMap _ = _
        rw [hfilter]
        rfl
    refine hput.refresh.mono fun s' ⟨hkept, hbehind⟩ => ?_
    refine ⟨hkept.tasksThere fun x hx => ?_, hbehind.mono fun j hj => ?_⟩
    · rcases Table.mem_put hx with rfl | hx
      · exact ht old hmem
      · exact ht x hx
    · exact hj.2 (hj.1.trans hkey.1.symm)
  · split
    · exact enough (by decide)
    · next links hinsert =>
      have hrows := (Table.insert?_eq_some hinsert).2
      have hput : Behind double (fun j => j = l.goalId) { s with links } := by
        refine h.relink rfl (fun x hx => ?_) (fun j hj => ?_) fun _ hj => hj
        · rw [show ({ s with links } : Store).links.rows = s.links.rows ++ [l] from hrows,
            List.mem_append, List.mem_singleton] at hx
          rcases hx with hx | rfl
          · exact h.wf.links x hx
          · exact ⟨g, hg⟩
        · unfold Store.linkedTasks
          rw [show ({ s with links } : Store).links.rows = s.links.rows ++ [l] from hrows,
            List.filter_append, List.filter_cons_of_neg (by simpa using Ne.symm hj), List.filter_nil,
            List.append_nil]
      refine hput.refresh.mono fun s' ⟨hkept, hbehind⟩ => ?_
      refine ⟨hkept.tasksThere fun x hx => ?_, hbehind.mono fun j hj => hj.2 hj.1⟩
      rw [show ({ s with links } : Store).links.rows = s.links.rows ++ [l] from hrows,
        List.mem_append, List.mem_singleton] at hx
      rcases hx with hx | rfl
      · exact ht x hx
      · exact ⟨t, htask⟩

/-- **Delete of links**: their goals are brought up to date. -/
theorem Behind.deleteLinks {p : LinkRow → Bool} (h : Behind double P s) :
    Returns
      (fun s' => s'.tasks = s.tasks ∧ (∀ l, l ∈ s'.links.rows ↔ l ∈ s.links.rows ∧ p l = false) ∧
        Behind double (fun j => P j ∧ ∀ l ∈ s.links.rows, p l = true → l.goalId ≠ j) s')
      (Enough 2 c.depth) (deleteLinks double c p s) := by
  have hremove : Behind double (fun j => P j ∨ ∃ l ∈ s.links.rows, p l = true ∧ l.goalId = j)
      { s with links := s.links.remove p } := by
    refine h.relink rfl (fun l hl => ?_) (fun j hj => ?_) fun _ hj => Or.inl hj
    · rw [Table.rows_remove] at hl
      exact h.wf.links l (List.mem_filter.mp hl).1
    · simp only [not_or, not_exists, not_and] at hj
      unfold Store.linkedTasks
      rw [Table.rows_remove, List.filter_filter]
      refine congrArg _ (List.filter_congr fun l hl => ?_)
      by_cases hgoal : l.goalId = j
      · have hp : p l = false := Bool.eq_false_iff.mpr fun hp => hj.2 l hl hp hgoal
        simp [hgoal, hp]
      · simp [hgoal]
  have hloop : Goals.deleteLinks double c p s =
      ((s.links.rows.filter fun l => p l).map LinkRow.goalId).foldlM
        (fun s id => refreshGoalProgress double c.now c.depth id s)
        { s with links := s.links.remove p } := by
    rw [List.foldlM_map]
    rfl
  rw [hloop]
  refine hremove.refreshAll.mono fun s' ⟨hkept, hbehind⟩ => ?_
  refine ⟨hkept.tasks, fun l => ?_, hbehind.mono fun j hj => ?_⟩
  · rw [hkept.links, Table.rows_remove, List.mem_filter]
    simp
  · obtain ⟨hbefore, hnot⟩ := hj
    have hno : ∀ l ∈ s.links.rows, p l = true → l.goalId ≠ j := by
      rintro l hl hp rfl
      exact hnot (List.mem_map_of_mem (List.mem_filter.mpr ⟨hl, hp⟩))
    refine ⟨hbefore.resolve_right ?_, hno⟩
    rintro ⟨l, hl, hp, he⟩
    exact hno l hl hp he

end CalmBoard.Goals
