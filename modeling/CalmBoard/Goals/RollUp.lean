import CalmBoard.Goals.Refresh

/-!
# CalmBoard.Goals.RollUp — derived progress is up to date

* `Sound`: between requests no goal is out of date.
* `Sound.create`, `Sound.update`, `Sound.checkIn`, `Sound.linkTask`, `Sound.unlinkTask`,
  `Sound.updateTasks`, `Sound.deleteTasks`: a lemma for every request.
* `goals_rolled_up`: after every sequence of requests no goal is out of date, and refreshes end.
-/

namespace CalmBoard.Goals

open Fallible

variable {double : ℚ → ℚ} {c : Context} {s s' t : Store} {id j taskId : Uuid} {old new goal : GoalRow}
  {P Q : Uuid → Prop} {room depth : ℕ}

/-- Between requests: no goal is out of date, and every link leads to a task. -/
structure Sound (double : ℚ → ℚ) (s : Store) : Prop where
  behind : Behind double (fun _ => False) s
  there : TasksThere s

/-! ### Tasks -/

theorem Behind.refreshTask (h : Behind double P s) :
    Returns
      (fun s' => Kept s s' ∧
        Behind double (fun j => P j ∧ ∀ l ∈ s.links.rows, l.taskId = taskId → l.goalId ≠ j) s')
      (Enough 2 c.depth) (refreshGoalsFromTask double c taskId s) := by
  refine h.refreshAll.mono fun s' ⟨hkept, hbehind⟩ => ?_
  refine ⟨hkept, hbehind.mono fun j hj => ⟨hj.1, ?_⟩⟩
  rintro l hl htask rfl
  exact hj.2 (List.mem_map_of_mem (List.mem_filter.mpr ⟨hl, decide_eq_true htask⟩))

theorem Behind.refreshTasks : ∀ {ids : List Uuid} {s : Store} {P : Uuid → Prop}, Behind double P s →
    Returns
      (fun s' => Kept s s' ∧
        Behind double (fun j => P j ∧ ∀ l ∈ s.links.rows, l.taskId ∈ ids → l.goalId ≠ j) s')
      (Enough 2 c.depth) (ids.foldlM (fun s id => refreshGoalsFromTask double c id s) s)
  | [], s, P, h => ⟨.refl s, h.mono fun j hj => ⟨hj, fun l _ hl => absurd hl List.not_mem_nil⟩⟩
  | id :: ids, s, P, h => by
    rw [List.foldlM_cons]
    refine h.refreshTask.bind fun t _ ⟨hkept, hbehind⟩ => ?_
    refine hbehind.refreshTasks.mono fun s' ⟨hkept', hbehind'⟩ => ?_
    refine ⟨hkept.trans hkept', hbehind'.mono fun j hj => ⟨hj.1.1, fun l hl hmem => ?_⟩⟩
    rcases List.mem_cons.mp hmem with htask | htask
    · exact hj.1.2 l hl htask
    · exact hj.2 l (hkept.links ▸ hl) htask

/-- **Update of tasks**: the goals that they are linked to are refreshed. -/
theorem Sound.updateTasks {u : TaskUpdate} (h : Sound double s) :
    Returns (Sound double) (Enough 2 c.depth) (updateTasks double c u s) := by
  refine Returns.guard (enough (by decide)) fun _ => ?_
  have hstart : Behind double
      (fun j => ∃ l ∈ s.links.rows, l.goalId = j ∧
        l.taskId ∈ (s.tasks.rows.filter fun t => u.selects t).map TaskRow.id)
      { s with tasks := s.tasks.update u.selects u.set u.id_set } := by
    refine h.behind.relink rfl (fun l hl => h.behind.wf.links l hl) (fun j hj => ?_) fun j hj => hj.elim
    unfold Store.linkedTasks
    refine List.filterMap_congr fun l hl => ?_
    obtain ⟨hl, hgoal⟩ := List.mem_filter.mp hl
    rw [Table.find?_update _ _ _ u.id_set]
    cases ht : s.tasks.find? l.taskId with
    | none => rfl
    | some t =>
      have hselects : u.selects t = false := by
        refine Bool.eq_false_iff.mpr fun hsel => hj ⟨l, hl, of_decide_eq_true hgoal, ?_⟩
        rw [← Table.key_of_find? ht]
        exact List.mem_map_of_mem (List.mem_filter.mpr ⟨Table.mem_of_find? ht, hsel⟩)
      rw [Option.map_some, if_neg (by simp [hselects])]
  refine hstart.refreshTasks.mono fun s' ⟨hkept, hbehind⟩ => ?_
  refine ⟨hbehind.mono ?_, hkept.tasksThere fun l hl => ?_⟩
  · rintro j ⟨⟨l, hl, hgoal, htask⟩, hno⟩
    exact hno l hl htask hgoal
  · obtain ⟨t, ht⟩ := h.there l hl
    rw [Table.find?_update _ _ _ u.id_set, ht]
    exact ⟨_, rfl⟩

theorem Behind.deleteTaskLinks : ∀ {ids : List Uuid} {s : Store} {P : Uuid → Prop},
    Behind double P s →
    Returns
      (fun s' => s'.tasks = s.tasks ∧ (∀ l, l ∈ s'.links.rows ↔ l ∈ s.links.rows ∧ l.taskId ∉ ids) ∧
        Behind double (fun j => P j ∧ ∀ l ∈ s.links.rows, l.taskId ∈ ids → l.goalId ≠ j) s')
      (Enough 2 c.depth)
      (ids.foldlM (fun s id => do
        let s ← Goals.deleteLinks double c (fun l => l.taskId = id) s
        refreshGoalsFromTask double c id s) s)
  | [], s, P, h =>
    ⟨rfl, fun l => by simp, h.mono fun j hj => ⟨hj, fun l _ hl => absurd hl List.not_mem_nil⟩⟩
  | id :: ids, s, P, h => by
    rw [List.foldlM_cons]
    refine Returns.bind (Q := fun t => t.tasks = s.tasks ∧
      (∀ l, l ∈ t.links.rows ↔ l ∈ s.links.rows ∧ l.taskId ≠ id) ∧
      Behind double (fun j => P j ∧ ∀ l ∈ s.links.rows, l.taskId = id → l.goalId ≠ j) t) ?_ ?_
    · refine h.deleteLinks.bind fun u _ ⟨htasks, hlinks, hbehind⟩ => ?_
      refine hbehind.refreshTask.mono fun t ⟨hkept, hbehind⟩ => ?_
      refine ⟨hkept.tasks.trans htasks, fun l => ?_, hbehind.mono fun j hj => ?_⟩
      · rw [hkept.links, hlinks l]
        simp
      · exact ⟨hj.1.1, fun l hl htask => hj.1.2 l hl (decide_eq_true htask)⟩
    · rintro t - ⟨htasks, hlinks, hbehind⟩
      refine hbehind.deleteTaskLinks.mono fun s' ⟨htasks', hlinks', hbehind'⟩ => ?_
      refine ⟨htasks'.trans htasks, fun l => ?_, hbehind'.mono fun j hj => ?_⟩
      · rw [hlinks' l, hlinks l, List.mem_cons, not_or, and_assoc]
      · refine ⟨hj.1.1, fun l hl htask => ?_⟩
        by_cases hid : l.taskId = id
        · exact hj.1.2 l hl hid
        · exact hj.2 l ((hlinks l).mpr ⟨hl, hid⟩) ((List.mem_cons.mp htask).resolve_left hid)

/-- **Delete of tasks**: their links go with them. -/
theorem Sound.deleteTasks {selects : TaskRow → Bool} (h : Sound double s) :
    Returns (Sound double) (Enough 2 c.depth) (deleteTasks double c selects s) := by
  have hgone : ∀ k, k ∉ (s.tasks.rows.filter fun t => selects t).map TaskRow.id →
      (s.tasks.remove selects).find? k = s.tasks.find? k := by
    intro k hk
    cases ht : s.tasks.find? k with
    | none =>
      refine Table.find?_eq_none_iff.mpr fun t hmem => ?_
      exact Table.find?_eq_none_iff.mp ht t (List.mem_filter.mp hmem).1
    | some t =>
      obtain ⟨hmem, hkey⟩ := Table.find?_eq_some_iff.mp ht
      refine Table.find?_eq_some_iff.mpr ⟨List.mem_filter.mpr ⟨hmem, ?_⟩, hkey⟩
      rw [Bool.not_eq_true', Bool.eq_false_iff]
      exact fun hsel => hk (hkey ▸ List.mem_map_of_mem (List.mem_filter.mpr ⟨hmem, hsel⟩))
  have hstart : Behind double
      (fun j => ∃ l ∈ s.links.rows, l.goalId = j ∧
        l.taskId ∈ (s.tasks.rows.filter fun t => selects t).map TaskRow.id)
      { s with tasks := s.tasks.remove selects } := by
    refine h.behind.relink rfl (fun l hl => h.behind.wf.links l hl) (fun j hj => ?_) fun j hj => hj.elim
    unfold Store.linkedTasks
    refine List.filterMap_congr fun l hl => ?_
    obtain ⟨hl, hgoal⟩ := List.mem_filter.mp hl
    have hsame : (s.tasks.remove selects).find? l.taskId = s.tasks.find? l.taskId :=
      hgone _ fun htask => hj ⟨l, hl, of_decide_eq_true hgoal, htask⟩
    rw [hsame]
  refine hstart.deleteTaskLinks.mono fun s' ⟨htasks, hlinks, hbehind⟩ => ?_
  refine ⟨hbehind.mono ?_, fun l hl => ?_⟩
  · rintro j ⟨⟨l, hl, hgoal, htask⟩, hno⟩
    exact hno l hl htask hgoal
  · obtain ⟨hl, htask⟩ := (hlinks l).mp hl
    rw [htasks]
    exact (hgone _ htask).symm ▸ h.there l hl

theorem Sound.insertTask {task : TaskRow} (h : Sound double s) :
    Returns (Sound double) (Enough 2 depth) (insertTask task s) := by
  refine Returns.guard (enough (by decide)) fun _ => ?_
  split
  · exact enough (by decide)
  · next tasks hinsert =>
    have hfind : ∀ l ∈ s.links.rows, tasks.find? l.taskId = s.tasks.find? l.taskId := by
      intro l hl
      obtain ⟨t, ht⟩ := h.there l hl
      rw [Table.find?_insert? hinsert, if_neg]
      intro hid
      rw [← hid, (Table.insert?_eq_some hinsert).1] at ht
      cases ht
    refine ⟨h.behind.relink rfl (fun l hl => h.behind.wf.links l hl) (fun j _ => ?_) fun _ hj => hj,
      fun l hl => ?_⟩
    · unfold Store.linkedTasks
      refine List.filterMap_congr fun l hl => ?_
      have hsame : tasks.find? l.taskId = s.tasks.find? l.taskId := hfind l (List.mem_filter.mp hl).1
      rw [show ({ s with tasks } : Store).tasks.find? l.taskId = tasks.find? l.taskId from rfl, hsame]
    · obtain ⟨t, ht⟩ := h.there l hl
      exact ⟨t, (hfind l hl).trans ht⟩

/-! ### Checks -/

theorem shallow_throw {α : Type} {e : RepoError} (h : e ≠ stackDepthExceeded) :
    Shallow (throw e : Except RepoError α) := h

theorem requireActor_shallow (c : Context) : Shallow (requireActor c) := by
  unfold requireActor
  split
  · exact True.intro
  · exact shallow_throw (by decide)

theorem requireActiveMember_shallow (s : Store) (userId : Option Uuid) :
    Shallow (requireActiveMember s userId) := by
  unfold requireActiveMember
  split
  · exact True.intro
  · split
    · exact True.intro
    · exact shallow_throw (by decide)

theorem requireGoal_shallow (s : Store) (id : Uuid) : Shallow (requireGoal s id) := by
  unfold requireGoal
  split
  · exact True.intro
  · exact shallow_throw (by decide)

theorem requireGoal_ok (h : requireGoal s id = .ok goal) : s.goals.find? id = some goal := by
  unfold requireGoal at h
  split at h
  · next g hg =>
    cases h
    exact (Option.filter_eq_some_iff.mp hg).1
  · cases h

theorem requireObjective_shallow (s : Store) (id : Uuid) : Shallow (requireObjective s id) := by
  refine Returns.bind (requireGoal_shallow s id) fun _ _ _ => ?_
  exact Returns.guard (by decide) fun _ => True.intro

theorem requireTask_shallow (s : Store) (id : Uuid) : Shallow (requireTask s id) := by
  unfold requireTask
  split
  · exact True.intro
  · exact shallow_throw (by decide)

theorem measurementProgress_shallow (startValue currentValue targetValue : ℚ) :
    Shallow (measurementProgress double startValue currentValue targetValue) :=
  Returns.guard (by decide) fun _ => True.intro

theorem checkedIn_shallow (g : GoalRow) (input : GoalCheckinInput) :
    Shallow (checkedIn double g input) := by
  unfold checkedIn
  split
  · split
    · exact shallow_throw (by decide)
    · exact True.intro
  · split
    · exact shallow_throw (by decide)
    · exact Returns.bind (measurementProgress_shallow _ _ _) fun _ _ _ => True.intro
  · exact True.intro
  · exact True.intro

/-! ### Calls -/

theorem Behind.refreshProgress (h : Behind double P s) :
    Returns (fun x => Kept s x.2 ∧ x.2.goals.find? id = some x.1 ∧ Behind double (fun j => P j ∧ j ≠ id) x.2)
      (Enough 2 c.depth) (refreshProgress double c id s) := by
  refine h.refresh.bind fun t _ ⟨hkept, hbehind⟩ => ?_
  exact (requireGoal_shallow t id).bind fun goal hgoal => ⟨hkept, requireGoal_ok hgoal, hbehind⟩

theorem Behind.refreshParentOf {p : Option Uuid} (h : Behind double P s) :
    Returns (fun s' => Kept s s' ∧ Behind double P s') (Enough 2 c.depth)
      (refreshParentOf double c p s) := by
  cases p with
  | none => exact ⟨.refl s, h⟩
  | some p =>
    refine h.refreshProgress.bind fun x _ ⟨hkept, _, hbehind⟩ => ?_
    exact ⟨hkept, hbehind.mono fun _ hj => hj.1⟩

theorem Sound.refreshParentOf {p : Option Uuid} (h : Sound double s) :
    Returns (Sound double) (Enough 2 c.depth) (refreshParentOf double c p s) :=
  h.behind.refreshParentOf.mono fun _ ⟨hkept, hbehind⟩ => ⟨hbehind, hkept.tasksThere h.there⟩

theorem Behind.settle (h : Behind double (fun j => j = id) s) (hfind : s.goals.find? id = some goal)
    (hmode : goal.progressMode = .manual ∨ goal.progressMode = .measurement) :
    Behind double (fun _ => False) s := by
  refine ⟨h.wf, fun j _ => ?_⟩
  by_cases hj : j = id
  · subst hj
    refine fresh_of_mode fun g hg => ?_
    rw [hfind] at hg
    cases hg
    exact hmode
  · exact h.fresh j hj

theorem kept_of_put (hold : s.goals.find? id = some old)
    (hkept : Kept { s with goals := s.goals.put new } t) (hid : new.id = old.id) :
    ∃ g, t.goals.find? id = some g ∧ bare new = bare g := by
  have hkey : new.id = id := hid.trans (Table.key_of_find? hold)
  have hrow : s.goals.find? new.id = some old := hkey.symm ▸ hold
  exact hkept.forth ((Table.find?_put hrow id).trans (if_pos hkey))

theorem Sound.insertRow {row : GoalRow} (h : Sound double s) (parentId : Option Uuid)
    (hrow : row.progressMode = .tasks ∨ row.progressMode = .children → row.progress = 0) :
    Returns (Sound double) (Enough 2 c.depth) (do
      let s ← Goals.insertGoal double c row s
      match parentId with
      | none => return s
      | some parentId => do
        let (_, s) ← Goals.refreshProgress double c parentId s
        return s) := by
  refine (h.behind.insertGoal hrow).bind fun t _ hinsert => ?_
  obtain ⟨hlinks, htasks, hbehind⟩ := hinsert
  have ht : Sound double t := ⟨hbehind, fun l hl => by rw [htasks]; exact h.there l (hlinks ▸ hl)⟩
  cases parentId with
  | none => exact ht
  | some parentId =>
    refine hbehind.refreshProgress.bind fun x _ hrefresh => ?_
    obtain ⟨hkept, -, hbehind⟩ := hrefresh
    exact ⟨hbehind.mono fun _ hj => hj.1, hkept.tasksThere ht.there⟩

theorem Sound.create {input : CreateGoalInput} (h : Sound double s) :
    Returns (Sound double) (Enough 2 c.depth) (create double c input s) := by
  refine (requireActor_shallow c).bind fun _ _ => ?_
  refine (requireActiveMember_shallow s _).bind fun _ _ => ?_
  refine Returns.guard (enough (by decide)) fun _ => ?_
  have hmade : ∀ mode : GoalProgressMode, ∀ start current target : ℚ,
      ∀ rest : ℤ → Except RepoError Store,
      (∀ progress, (mode = .tasks ∨ mode = .children → progress = 0) →
        Returns (Sound double) (Enough 2 c.depth) (rest progress)) →
      Returns (Sound double) (Enough 2 c.depth)
        (if mode = .measurement then measurementProgress double start current target >>= rest
          else rest 0) := by
    intro mode start current target rest hall
    refine Returns.ite (fun hmode => ?_) fun _ => hall 0 fun _ => rfl
    refine (measurementProgress_shallow _ _ _).bind fun progress _ => hall progress fun hm => ?_
    simp [hmode] at hm
  refine Returns.ite (fun _ => ?_) fun _ => ?_
  · cases hparent : input.parentId with
    | none => exact returns_throw_bind (enough (by decide))
    | some parentId =>
      refine (requireObjective_shallow s parentId).bind fun _ _ => ?_
      refine hmade _ _ _ _ _ fun progress hprogress => ?_
      exact h.insertRow (some parentId) hprogress
  · refine hmade _ _ _ _ _ fun progress hprogress => ?_
    exact h.insertRow input.parentId hprogress

theorem sets_update (input : UpdateGoalInput) (now : Timestamptz) :
    Sets input.named (input.set now) where
  id _ := rfl
  type _ := rfl
  deletedAt _ := rfl
  scope h g := by
    have hparent : input.parentId = none := by simpa [UpdateGoalInput.named] using h
    show input.parentId.getD g.parentId = g.parentId
    rw [hparent, Option.getD_none]
  rollUp h g := by
    have hboth : input.parentId = none ∧ input.weight = none := by
      simpa [UpdateGoalInput.named] using h
    refine ⟨?_, rfl, ?_⟩
    · show input.parentId.getD g.parentId = g.parentId
      rw [hboth.1, Option.getD_none]
    · show input.weight.getD g.weight = g.weight
      rw [hboth.2, Option.getD_none]

/-- The second statement of `update` brings the goal itself up to date. -/
theorem Behind.refreshUpdated (h : Behind double (fun j => j = id) s)
    (hfind : s.goals.find? id = some goal) (hbare : bare new = bare goal) :
    Returns (fun x => Kept s x.2 ∧ Behind double (fun _ => False) x.2) (Enough 2 c.depth)
      (refreshUpdated double c new s) := by
  have hid : new.id = id := by
    rw [← bare_id new, hbare, bare_id]
    exact Table.key_of_find? hfind
  have hderived : Returns (fun x => Kept s x.2 ∧ Behind double (fun _ => False) x.2)
      (Enough 2 c.depth) (Goals.refreshProgress double c new.id s) := by
    refine h.refreshProgress.mono fun x ⟨hkept, _, hbehind⟩ => ?_
    exact ⟨hkept, hbehind.mono fun j hj => hj.2 (hj.1.trans hid.symm)⟩
  have hmode : new.progressMode = goal.progressMode := progressMode_of_bare hbare
  unfold Goals.refreshUpdated
  split
  · exact hderived
  · exact hderived
  · next hmeasured =>
    refine (measurementProgress_shallow _ _ _).bind fun progress _ => ?_
    refine Returns.bind (h.updateGoal ⟨fun _ => rfl, fun _ => rfl, fun _ => rfl, fun _ _ => rfl,
      fun hnamed => by cases hnamed⟩) fun x _ hx => ?_
    obtain ⟨x, t⟩ := x
    rcases hx with ⟨rfl, -⟩ | ⟨old, hold, rfl, hkept, hbehind⟩
    · exact enough (by decide)
    · rw [hid, hfind] at hold
      cases hold
      have hput : s.goals.find? goal.id = some goal := by rw [Table.key_of_find? hfind, hfind]
      have hall : Kept s t := by
        refine Kept.trans ?_ hkept
        exact kept_put hput rfl
      obtain ⟨g, hg, hsame⟩ := hall.forth hfind
      refine ⟨hall, (hbehind.mono fun j hj => ?_).settle hg (Or.inr ?_)⟩
      · rcases hj with hj | hj
        · exact hj
        · exact hj.trans hid
      · rw [← progressMode_of_bare hsame, ← hmode, hmeasured]
  · next hmanual =>
    exact ⟨.refl s, h.settle hfind (Or.inl (hmode ▸ hmanual))⟩

theorem Sound.updateRow (h : Sound double s) (input : UpdateGoalInput) (before : GoalRow) :
    Returns (Sound double) (Enough 2 c.depth) (do
      match ← Goals.updateGoal double c id (input.set c.now) input.named s with
      | (none, _) => throw (.notFound "goal")
      | (some updated, s) => do
        let (refreshed, s) ← Goals.refreshUpdated double c updated s
        let s ← if before.parentId ≠ refreshed.parentId then
            Goals.refreshParentOf double c before.parentId s
          else .ok s
        Goals.refreshParentOf double c refreshed.parentId s) := by
  refine (h.behind.updateGoal (sets_update input c.now)).bind fun x _ hx => ?_
  obtain ⟨x, t⟩ := x
  rcases hx with ⟨rfl, -⟩ | ⟨old, hold, rfl, hkept, hbehind⟩
  · exact enough (by decide)
  · obtain ⟨g, hg, hbare⟩ := kept_of_put hold hkept rfl
    have hthere : TasksThere t := hkept.tasksThere h.there
    refine Returns.bind ((hbehind.mono fun j hj => hj.resolve_left not_false).refreshUpdated hg hbare)
      fun y _ hy => ?_
    obtain ⟨refreshed, u⟩ := y
    have hu : Sound double u := ⟨hy.2, hy.1.tasksThere hthere⟩
    exact Returns.ite (fun _ => hu.refreshParentOf.bind fun v _ hv => hv.refreshParentOf)
      fun _ => hu.refreshParentOf

theorem Sound.update {input : UpdateGoalInput} (h : Sound double s) :
    Returns (Sound double) (Enough 2 c.depth) (update double c id input s) := by
  refine (requireActor_shallow c).bind fun _ _ => ?_
  refine (requireGoal_shallow s id).bind fun before _ => ?_
  refine (requireActiveMember_shallow s _).bind fun _ _ => ?_
  cases hparent : input.parentId with
  | none => exact h.updateRow input before
  | some parentId =>
    refine Returns.ite (fun _ => returns_throw_bind (enough (by decide))) fun _ => ?_
    cases parentId with
    | none => exact returns_throw_bind (enough (by decide))
    | some parentId => exact (requireObjective_shallow s parentId).bind fun _ _ => h.updateRow input before

theorem Behind.touch {f : GoalRow → GoalRow} (h : Behind double P s) (hf : ∀ g, bare (f g) = bare g)
    (hprogress : ∀ g, (f g).progress = g.progress) :
    Returns (fun x => x.1 = none ∨ x.1.isSome ∧ Kept s x.2 ∧ Behind double P x.2) (Enough 2 c.depth)
      (Goals.updateGoal double c id f {} s) := by
  unfold Goals.updateGoal
  split
  · exact Or.inl rfl
  · next old hfilter =>
    obtain ⟨hold, -⟩ := Option.filter_eq_some_iff.mp hfilter
    refine (checkGoal_shallow _).bind fun _ _ => ?_
    have hid : (f old).id = old.id := by rw [← bare_id (f old), hf old, bare_id]
    have hrow : s.goals.find? (f old).id = some old := by
      rw [hid, Table.key_of_find? hold, hold]
    have hkept : Kept s { s with goals := s.goals.put (f old) } := kept_put hrow (hf old)
    have hactive : (f old).active = old.active :=
      (congrArg GoalRow.active (hf old) : (bare (f old)).active = (bare old).active)
    have hweight : (f old).weight = old.weight :=
      (congrArg GoalRow.weight (hf old) : (bare (f old)).weight = (bare old).weight)
    refine Or.inr ⟨rfl, hkept, hkept.wellFormed h.wf, fun j hj => ?_⟩
    have hchildren : ({ s with goals := s.goals.put (f old) } : Store).children j = s.children j :=
      children_put hrow (by rw [parentId_of_bare (hf old), hactive])
        fun _ => ⟨hprogress old, hweight⟩
    intro g hg hgactive
    rw [hchildren, hkept.linkedTasks]
    rw [show ({ s with goals := s.goals.put (f old) } : Store).goals.find? j =
      (s.goals.put (f old)).find? j from rfl, Table.find?_put hrow] at hg
    split at hg
    · next hrowid =>
      cases hg
      rw [progressMode_of_bare (hf old), hprogress old]
      rw [← hrowid]
      exact h.fresh _ (hrowid ▸ hj) old hrow (hactive ▸ hgactive)
    · exact h.fresh j hj g hg hgactive

theorem Sound.insertCheckin {row : CheckinRow} (h : Sound double s) :
    Returns (Sound double) (Enough room depth) (insertCheckin row s) := by
  refine Returns.guard (enough (by decide)) fun _ => ?_
  refine Returns.guard (enough (by decide)) fun _ => ?_
  refine Returns.guard (enough (by decide)) fun _ => ?_
  split
  · exact enough (by decide)
  · exact ⟨h.behind.relink rfl h.behind.wf.links (fun _ _ => rfl) fun _ hj => hj, h.there⟩

theorem Sound.checkIn {input : GoalCheckinInput} (h : Sound double s) :
    Returns (Sound double) (Enough 2 c.depth) (checkIn double c id input s) := by
  refine (requireActor_shallow c).bind fun actorId _ => ?_
  refine (requireGoal_shallow s id).bind fun goal hgoal => ?_
  refine (checkedIn_shallow goal input).bind fun x _ => ?_
  obtain ⟨progress, currentValue⟩ := x
  have hfind := requireGoal_ok hgoal
  refine Returns.bind (Q := fun x => x.1 = none ∨ x.1.isSome ∧ Sound double x.2) ?_ fun x _ hx => ?_
  · by_cases hown : goal.progressMode = .manual ∨ goal.progressMode = .measurement
    · have hown' : (decide (goal.progressMode = .manual) || decide (goal.progressMode = .measurement)) =
          true := by simpa using hown
      simp only [hown', if_true]
      refine Returns.mono (h.behind.updateGoal ⟨fun _ => rfl, fun _ => rfl, fun _ => rfl,
        fun _ _ => rfl, fun hnamed => by cases hnamed⟩) fun x hx => ?_
      rcases hx with ⟨hx, -⟩ | ⟨old, hold, hx, hkept, hbehind⟩
      · exact Or.inl hx
      · rw [hfind] at hold
        cases hold
        refine Or.inr ⟨by rw [hx]; rfl, ?_, hkept.tasksThere h.there⟩
        obtain ⟨g, hg, hbare⟩ := kept_of_put hfind hkept rfl
        refine (hbehind.mono fun _ hj => hj.resolve_left not_false).settle hg ?_
        rw [← progressMode_of_bare hbare]
        exact hown
    · have hown' : (decide (goal.progressMode = .manual) || decide (goal.progressMode = .measurement)) =
          false := by simpa using hown
      simp only [hown', Bool.false_eq_true, if_false]
      refine Returns.mono (h.behind.touch (fun _ => rfl) fun _ => rfl) fun x hx => ?_
      rcases hx with hx | ⟨hx, hkept, hbehind⟩
      · exact Or.inl hx
      · exact Or.inr ⟨hx, hbehind, hkept.tasksThere h.there⟩
  · obtain ⟨x, t⟩ := x
    cases x with
    | none => exact enough (by decide)
    | some record =>
      have ht : Sound double t := by
        rcases hx with hx | hx
        · cases hx
        · exact hx.2
      exact ht.insertCheckin.bind fun u _ hu => hu.refreshParentOf

theorem Sound.linkTask {weight : ℚ} (h : Sound double s) :
    Returns (Sound double) (Enough 2 c.depth) (linkTask double c id taskId weight s) := by
  refine (requireActor_shallow c).bind fun actorId _ => ?_
  refine (requireGoal_shallow s id).bind fun goal _ => ?_
  refine (requireTask_shallow s taskId).bind fun _ _ => ?_
  refine Returns.guard (enough (by decide)) fun _ => ?_
  refine Returns.guard (enough (by decide)) fun _ => ?_
  refine Returns.bind (Q := fun x => TasksThere x.2 ∧ Behind double (fun j => j = id) x.2) ?_ ?_
  · refine Returns.mono (h.behind.updateGoal ⟨fun _ => rfl, fun _ => rfl, fun _ => rfl,
      fun _ _ => rfl, fun _ _ => ⟨rfl, rfl, rfl⟩⟩) fun x hx => ?_
    rcases hx with ⟨-, hsame⟩ | ⟨old, -, -, hkept, hbehind⟩
    · rw [hsame]
      exact ⟨h.there, h.behind.mono fun _ hj => hj.elim⟩
    · exact ⟨hkept.tasksThere h.there, hbehind.mono fun _ hj => hj.resolve_left not_false⟩
  · rintro ⟨x, t⟩ - ⟨hthere, hbehind⟩
    refine Returns.bind (hbehind.upsertLink hthere) fun u _ ⟨hthere', hbehind'⟩ => ?_
    refine Returns.bind hbehind'.refreshProgress fun y _ ⟨hkept, _, hbehind''⟩ => ?_
    obtain ⟨refreshed, v⟩ := y
    have hv : Sound double v := ⟨hbehind''.mono fun _ hj => hj.1, hkept.tasksThere hthere'⟩
    exact hv.refreshParentOf

theorem Sound.unlinkTask (h : Sound double s) :
    Returns (Sound double) (Enough 2 c.depth) (unlinkTask double c id taskId s) := by
  refine (requireActor_shallow c).bind fun actorId _ => ?_
  refine (requireGoal_shallow s id).bind fun goal _ => ?_
  refine h.behind.deleteLinks.bind fun t _ ⟨htasks, hlinks, hbehind⟩ => ?_
  have hthere : TasksThere t := by
    intro l hl
    rw [htasks]
    exact h.there l ((hlinks l).mp hl).1
  refine Returns.bind hbehind.refreshProgress fun y _ ⟨hkept, _, hbehind'⟩ => ?_
  obtain ⟨refreshed, v⟩ := y
  have hv : Sound double v := ⟨hbehind'.mono fun _ hj => hj.1.1, hkept.tasksThere hthere⟩
  exact hv.refreshParentOf

/-! ### Runs -/

theorem Sound.step {request : Context × Request} (h : Sound double s) :
    Returns (Sound double) (Enough 2 request.1.depth) (step double request s) := by
  obtain ⟨c, request⟩ := request
  cases request with
  | create input => exact h.create
  | update goalId input => exact h.update
  | checkIn goalId input => exact h.checkIn
  | linkTask goalId taskId weight => exact h.linkTask
  | unlinkTask goalId taskId => exact h.unlinkTask
  | insertTask task => exact h.insertTask
  | updateTasks u => exact h.updateTasks
  | deleteTasks selects => exact h.deleteTasks

theorem sound_initial (members : List Uuid) : Sound double (initial members) := by
  refine ⟨⟨⟨?_, ?_, ?_⟩, ?_⟩, ?_⟩
  · intro id g hg
    cases hg
  · intro id g p hg
    cases hg
  · intro l hl
    cases hl
  · intro j _ g hg
    cases hg
  · intro l hl
    cases hl

theorem sound_after (members : List Uuid) (requests : List (Context × Request)) :
    Sound double (after double members requests) :=
  Runs.run_invariant (fun _ _ _ hs hok => hs.step.ok hok) requests _ (sound_initial members)

/-- **Roll-up**: after every sequence of requests, derived progress is the weighted mean of what it is
derived from, and two calls on the stack are enough for the next request, whatever it is. -/
theorem goals_rolled_up (double : ℚ → ℚ) (members : List Uuid) (requests : List (Context × Request)) :
    (∀ g ∈ (after double members requests).goals.rows, g.active = true →
      (g.progressMode = .tasks →
        g.progress = weightedMean double ((after double members requests).linkedTasks g.id)) ∧
      (g.progressMode = .children →
        g.progress = weightedMean double ((after double members requests).children g.id))) ∧
    (∀ request : Context × Request, 2 ≤ request.1.depth →
      step double request (after double members requests) ≠ .error stackDepthExceeded) ∧
    weightedMean double [] = 0 := by
  have hsound : Sound double (after double members requests) := sound_after members requests
  refine ⟨fun g hg hactive => ?_, fun request hdepth he => ?_, weightedMean_nil double⟩
  · exact hsound.behind.fresh g.id not_false g (Table.find?_of_mem hg) hactive
  · exact hsound.step.error he hdepth rfl

/-- An objective, a key result under it, and two tasks linked to that, of which one is then done. -/
def sample : List (Context × Request) :=
  let c : Context := { now := ⟨0⟩, actorId := some 1, ids := fun n => 100 + n, depth := 2 }
  [ (c, .create { id := some 1, title := "Retention", type := .objective }),
    (c, .create { id := some 2, title := "Churn", type := .keyResult, parentId := some 1 }),
    (c, .insertTask { id := 10 }), (c, .insertTask { id := 11, progress := 40 }),
    (c, .linkTask 2 10 3), ({ c with ids := fun _ => 200 }, .linkTask 2 11 1),
    (c, .updateTasks
      { selects := fun t => t.id = 10
        set := fun t => { t with progress := 100, status := .done }
        id_set := fun _ => rfl }) ]

/-- `(3 · 100 + 40) / 4` is 85, in the key result and in the objective above it. -/
theorem goals_rolled_up_sample :
    ((after (fun q => q) [1] sample).goals.rows.map fun g => (g.id, g.progressMode, g.progress)) =
      [(1, .children, 85), (2, .tasks, 85)] ∧
    step (fun q => q) ({ now := ⟨0⟩, ids := fun n => n, depth := 2 }, .deleteTasks fun _ => true)
      (after (fun q => q) [1] sample) ≠ .error stackDepthExceeded :=
  ⟨by decide +kernel, (goals_rolled_up (fun q => q) [1] sample).2.1 _ le_rfl⟩

end CalmBoard.Goals
