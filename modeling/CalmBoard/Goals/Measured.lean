import CalmBoard.Goals.RollUp
import Mathlib.Data.Rat.Floor
import Mathlib.Tactic.Linarith

/-!
# CalmBoard.Goals.Measured — measured progress in two languages

The repository rounds ties up, the database rounds them to the even number.  Values are exact here.

* `mathRound_eq`: the two roundings differ at halves above an even number only.
* `measured_agree_iff`: when both compute the same progress, and when a refresh changes none.
-/

namespace CalmBoard.Goals

open Fallible

/-- The share of the way to the target, in percent. -/
def measuredShare (startValue currentValue targetValue : ℚ) : ℚ :=
  100 * (currentValue - startValue) / (targetValue - startValue)

/-- A half above an even number, strictly between 0 and 100. -/
def HalfAboveEven (q : ℚ) : Prop := ∃ m : ℤ, 0 ≤ m ∧ m < 50 ∧ q = 2 * m + 1 / 2

/-- What `::integer` takes after `ROUND`. -/
def FitsInteger (q : ℚ) : Prop := -2147483648 - 1 / 2 ≤ q ∧ q < 2147483647 + 1 / 2

/-! ### The two roundings -/

theorem floor_spec (q : ℚ) : (q.floor : ℚ) ≤ q ∧ q < q.floor + 1 := by
  have hfloor : q.floor = ⌊q⌋ := rfl
  rw [hfloor]
  exact ⟨Int.floor_le q, Int.lt_floor_add_one q⟩

theorem floor_eq {q : ℚ} {n : ℤ} (h : (n : ℚ) ≤ q) (h' : q < n + 1) : q.floor = n := by
  have hfloor : q.floor = ⌊q⌋ := rfl
  rw [hfloor]
  exact Int.floor_eq_iff.mpr ⟨h, h'⟩

theorem mathRound_eq (q : ℚ) :
    mathRound q = if q - q.floor = 1 / 2 ∧ q.floor % 2 = 0 then round q + 1 else round q := by
  obtain ⟨hle, hlt⟩ := floor_spec q
  unfold mathRound round
  by_cases hlow : q - q.floor < 1 / 2
  · have hne : ¬(q - q.floor = 1 / 2 ∧ q.floor % 2 = 0) := fun h => hlow.ne h.1
    simp only [if_pos hlow, if_neg hne]
    exact floor_eq (by linarith) (by linarith)
  have hup : (q + 1 / 2).floor = q.floor + 1 :=
    floor_eq (by push_cast; linarith) (by push_cast; linarith)
  rw [hup]
  by_cases hhigh : 1 / 2 < q - q.floor
  · have hne : ¬(q - q.floor = 1 / 2 ∧ q.floor % 2 = 0) := fun h => hhigh.ne' h.1
    simp only [if_neg hlow, if_pos hhigh, if_neg hne]
  · have htie : q - q.floor = 1 / 2 := le_antisymm (not_lt.mp hhigh) (not_lt.mp hlow)
    by_cases heven : q.floor % 2 = 0
    · simp only [if_neg hlow, if_neg hhigh, if_pos heven, if_pos (And.intro htie heven)]
    · have hne : ¬(q - q.floor = 1 / 2 ∧ q.floor % 2 = 0) := fun h => heven h.2
      simp only [if_neg hlow, if_neg hhigh, if_neg heven, if_neg hne]

theorem clamp_succ_eq_iff (n : ℤ) : clamp (n + 1) = clamp n ↔ n < 0 ∨ 100 ≤ n := by
  unfold clamp
  omega

theorem clamp_mathRound_iff (q : ℚ) : clamp (mathRound q) = clamp (round q) ↔ ¬ HalfAboveEven q := by
  rw [mathRound_eq]
  by_cases htie : q - q.floor = 1 / 2 ∧ q.floor % 2 = 0
  · have hround : round q = q.floor := by
      unfold round
      simp [htie.1, htie.2]
    rw [if_pos htie, hround, clamp_succ_eq_iff]
    have hq : q = q.floor + 1 / 2 := by linarith [htie.1]
    constructor
    · rintro hout ⟨m, hm, hm', hqm⟩
      have hfloor : q.floor = 2 * m := floor_eq (by push_cast; linarith) (by push_cast; linarith)
      omega
    · intro hnot
      by_contra hin
      refine hnot ⟨q.floor / 2, by omega, by omega, ?_⟩
      have heven : q.floor = 2 * (q.floor / 2) := by omega
      calc q = q.floor + 1 / 2 := hq
        _ = ((2 * (q.floor / 2) : ℤ) : ℚ) + 1 / 2 := by rw [← heven]
        _ = 2 * (q.floor / 2 : ℤ) + 1 / 2 := by push_cast; ring
  · rw [if_neg htie]
    refine ⟨fun _ => ?_, fun _ => rfl⟩
    rintro ⟨m, -, -, hqm⟩
    have hfloor : q.floor = 2 * m := floor_eq (by push_cast; linarith) (by push_cast; linarith)
    refine htie ⟨?_, by omega⟩
    rw [hfloor, hqm]
    push_cast
    ring

/-- `ROUND` is at most a half away, and even where it is exactly that far. -/
theorem round_spec (q : ℚ) : (round q : ℚ) - 1 / 2 ≤ q ∧ q ≤ round q + 1 / 2 ∧
    (q = round q - 1 / 2 ∨ q = round q + 1 / 2 → round q % 2 = 0) := by
  obtain ⟨hle, hlt⟩ := floor_spec q
  unfold round
  by_cases hlow : q - q.floor < 1 / 2
  · simp only [if_pos hlow]
    refine ⟨by linarith, by linarith, ?_⟩
    rintro (h | h)
    · linarith
    · linarith
  by_cases hhigh : 1 / 2 < q - q.floor
  · simp only [if_neg hlow, if_pos hhigh]
    push_cast
    refine ⟨by linarith, by linarith, ?_⟩
    rintro (h | h)
    · linarith
    · linarith
  have htie : q - q.floor = 1 / 2 := le_antisymm (not_lt.mp hhigh) (not_lt.mp hlow)
  by_cases heven : q.floor % 2 = 0
  · simp only [if_neg hlow, if_neg hhigh, if_pos heven]
    exact ⟨by linarith, by linarith, fun _ => heven⟩
  · simp only [if_neg hlow, if_neg hhigh, if_neg heven]
    push_cast
    exact ⟨by linarith, by linarith, fun _ => by omega⟩

theorem integer_round_iff (q : ℚ) :
    (-2147483648 ≤ round q ∧ round q ≤ 2147483647) ↔ FitsInteger q := by
  obtain ⟨hlow, hhigh, htie⟩ := round_spec q
  unfold FitsInteger
  constructor
  · rintro ⟨hmin, hmax⟩
    have hmin' : (-2147483648 : ℚ) ≤ round q := by exact_mod_cast hmin
    have hmax' : (round q : ℚ) ≤ 2147483647 := by exact_mod_cast hmax
    refine ⟨by linarith, lt_of_le_of_ne (by linarith) fun h => ?_⟩
    -- the largest integer is odd
    have hround : (round q : ℚ) = 2147483647 := by linarith
    have hround' : round q = 2147483647 := by exact_mod_cast hround
    have hodd := htie (.inr (by linarith))
    rw [hround'] at hodd
    cases hodd
  · rintro ⟨hmin, hmax⟩
    constructor
    · by_contra hlt
      have hlt' : (round q : ℚ) ≤ -2147483649 := by exact_mod_cast (by omega : round q ≤ -2147483649)
      have hround : (round q : ℚ) = -2147483649 := by linarith
      have hround' : round q = -2147483649 := by exact_mod_cast hround
      have hodd := htie (.inr (by linarith))
      rw [hround'] at hodd
      cases hodd
    · by_contra hlt
      have hlt' : (2147483648 : ℚ) ≤ round q := by exact_mod_cast (by omega : 2147483648 ≤ round q)
      linarith

/-! ### One goal -/

variable {s s' : Store} {goalId : Uuid} {goal : GoalRow} {now : Timestamptz} {depth : ℕ}

theorem measurementProgress_exact {startValue currentValue targetValue : ℚ}
    (hne : startValue ≠ targetValue) : measurementProgress id startValue currentValue targetValue =
      .ok (clamp (mathRound (measuredShare startValue currentValue targetValue))) := by
  have hshare : (currentValue - startValue) / (targetValue - startValue) * 100 =
      measuredShare startValue currentValue targetValue := by
    unfold measuredShare
    ring
  simp only [measurementProgress, if_neg (Ne.symm hne), id, hshare]

theorem integer_eq_ok_iff {n m : ℤ} : integer n = .ok m ↔
    (-2147483648 ≤ n ∧ n ≤ 2147483647) ∧ n = m := by
  unfold integer
  by_cases hn : -2147483648 ≤ n ∧ n ≤ 2147483647
  · rw [if_pos hn]
    exact ⟨fun hm => ⟨hn, Except.ok.inj hm⟩, fun hm => congrArg Except.ok hm.2⟩
  · rw [if_neg hn]
    exact ⟨fun hm => (by cases hm), fun hm => absurd hm.1 hn⟩

theorem calculatedProgress_exact (s : Store) (hmode : goal.progressMode = .measurement)
    (hne : goal.startValue ≠ goal.targetValue) {progress : ℤ} :
    calculatedProgress id s goal = .ok progress ↔
      FitsInteger (measuredShare goal.startValue goal.currentValue goal.targetValue) ∧
        clamp (round (measuredShare goal.startValue goal.currentValue goal.targetValue)) =
          progress := by
  have hspan : goal.targetValue - goal.startValue ≠ 0 := sub_ne_zero.mpr (Ne.symm hne)
  unfold calculatedProgress
  simp only [hmode, id, if_neg hspan]
  rw [bind_ok]
  constructor
  · rintro ⟨n, hn, hprogress⟩
    obtain ⟨hfits, rfl⟩ := integer_eq_ok_iff.mp hn
    exact ⟨(integer_round_iff _).mp hfits, pure_ok.mp hprogress⟩
  · rintro ⟨hfits, hprogress⟩
    exact ⟨_, integer_eq_ok_iff.mpr ⟨(integer_round_iff _).mpr hfits, rfl⟩, pure_ok.mpr hprogress⟩

/-- The goal has the progress, and is otherwise as it was. -/
def Shows (goal : GoalRow) (progress : ℤ) (s : Store) : Prop :=
  ∃ g, s.goals.find? goal.id = some g ∧ bare g = bare goal ∧ g.progress = progress

theorem active_of_bare {old new : GoalRow} (h : bare old = bare new) : old.active = new.active :=
  congrArg Option.isNone (congrArg GoalRow.deletedAt h : (bare old).deletedAt = (bare new).deletedAt)

theorem calculatedProgress_of_bare {g : GoalRow} (h : bare g = bare goal)
    (hmode : goal.progressMode = .measurement) (hne : goal.startValue ≠ goal.targetValue)
    {progress : ℤ} : calculatedProgress id s g = .ok progress ↔
      calculatedProgress id s' goal = .ok progress := by
  have hstart : g.startValue = goal.startValue :=
    (congrArg GoalRow.startValue h : (bare g).startValue = (bare goal).startValue)
  have hcurrent : g.currentValue = goal.currentValue :=
    (congrArg GoalRow.currentValue h : (bare g).currentValue = (bare goal).currentValue)
  have htarget : g.targetValue = goal.targetValue :=
    (congrArg GoalRow.targetValue h : (bare g).targetValue = (bare goal).targetValue)
  rw [calculatedProgress_exact s' hmode hne,
    calculatedProgress_exact s ((progressMode_of_bare h).trans hmode)
      (by rw [hstart, htarget]; exact hne), hstart, hcurrent, htarget]

/-- A refresh, of whatever goal, keeps what the measured goal shows; one of the goal itself brings it
about.  By induction on the nesting of the calls. -/
theorem shows_refresh (hmode : goal.progressMode = .measurement)
    (hne : goal.startValue ≠ goal.targetValue) (hactive : goal.active = true) {progress : ℤ}
    (hprogress : ∀ s, calculatedProgress id s goal = .ok progress) :
    ∀ {depth : ℕ} {j : Uuid} {s s' : Store} {old : ℤ}, Shows goal old s →
      (old = progress ∨ j = goal.id) → refreshGoalProgress id now depth j s = .ok s' →
        Shows goal progress s'
  | 0, _, _, _, _, _, _, h => by cases h
  | depth + 1, j, s, s', old, ⟨g, hg, hbare, hold⟩, hwhich, h => by
    unfold refreshGoalProgress at h
    split at h
    · next hnone =>
      cases h
      rcases hwhich with rfl | rfl
      · exact ⟨g, hg, hbare, hold⟩
      · rw [hg, Option.filter_some, if_pos ((active_of_bare hbare).trans hactive)] at hnone
        cases hnone
    · next row hrow =>
      obtain ⟨hfind, -⟩ := Option.filter_eq_some_iff.mp hrow
      have hid : row.id = j := Table.key_of_find? hfind
      obtain ⟨p, hp, h⟩ := bind_ok.mp h
      obtain ⟨status, -, h⟩ := bind_ok.mp h
      obtain ⟨_, -, h⟩ := bind_ok.mp h
      set new : GoalRow := { row with progress := p, status, updatedAt := now } with hnew
      have hshows : Shows goal progress { s with goals := s.goals.put new } := by
        have hput : ∀ k, (s.goals.put new).find? k = if row.id = k then some new else s.goals.find? k :=
          Table.find?_put (r := new) (s := row) (hid.symm ▸ hfind)
        by_cases hj : j = goal.id
        · rw [hj, hg] at hfind
          cases hfind
          refine ⟨new, by rw [hput, if_pos (hid.trans hj)], hbare, ?_⟩
          have hsame : calculatedProgress id s goal = .ok p :=
            (calculatedProgress_of_bare hbare hmode hne).mp hp
          exact Except.ok.inj (hsame.symm.trans (hprogress s))
        · refine ⟨g, ?_, hbare, hold.trans (hwhich.resolve_right hj)⟩
          rw [hput, if_neg fun he => hj (hid.symm.trans he)]
          exact hg
      split at h
      · cases pure_ok.mp h
        exact hshows
      · next parentId _ =>
        obtain ⟨u, hu, h⟩ := bind_ok.mp h
        have hfirst := shows_refresh hmode hne hactive hprogress hshows (.inl rfl) hu
        exact shows_refresh hmode hne hactive hprogress hfirst (.inl rfl) h

theorem calculated_of_refresh (hgoal : s.goals.find? goal.id = some goal)
    (hactive : goal.active = true) (h : refreshGoalProgress id now depth goal.id s = .ok s') :
    ∃ progress, calculatedProgress id s goal = .ok progress := by
  cases depth with
  | zero => cases h
  | succ depth =>
    unfold refreshGoalProgress at h
    rw [hgoal, Option.filter_some, if_pos hactive] at h
    obtain ⟨progress, hprogress, -⟩ := bind_ok.mp h
    exact ⟨progress, hprogress⟩

/-- **Measured progress**: the repository and the database compute the same exactly when the share is
no half above an even number between 0 and 100 and fits an `integer`; a refresh of a measured goal
whose progress the repository has written leaves it as it is exactly when the share is no such
half. -/
theorem measured_agree_iff (s : Store) (goal : GoalRow) (hmode : goal.progressMode = .measurement)
    (hne : goal.startValue ≠ goal.targetValue) :
    let share := measuredShare goal.startValue goal.currentValue goal.targetValue
    (measurementProgress id goal.startValue goal.currentValue goal.targetValue =
        calculatedProgress id s goal ↔ FitsInteger share ∧ ¬ HalfAboveEven share) ∧
    ∀ (c : Context) (refreshed : GoalRow) (s' : Store), s.goals.find? goal.id = some goal →
      measurementProgress id goal.startValue goal.currentValue goal.targetValue = .ok goal.progress →
      refreshProgress id c goal.id s = .ok (refreshed, s') →
        (refreshed.progress = goal.progress ↔ ¬ HalfAboveEven share) := by
  intro share
  rw [measurementProgress_exact hne]
  constructor
  · rw [eq_comm, calculatedProgress_exact s hmode hne, eq_comm (b := clamp (mathRound _)),
      clamp_mathRound_iff]
  · intro c refreshed s' hgoal hprogress h
    obtain ⟨t, ht, h⟩ := bind_ok.mp h
    obtain ⟨g, hg, h⟩ := bind_ok.mp h
    cases pure_ok.mp h
    by_cases hactive : goal.active = true
    · obtain ⟨p, hp⟩ := calculated_of_refresh hgoal hactive ht
      have hshown : Shows goal p s' := shows_refresh hmode hne hactive
        (fun s => (calculatedProgress_of_bare rfl hmode hne).mp hp) ⟨goal, hgoal, rfl, rfl⟩ (.inr rfl) ht
      obtain ⟨g, hg', -, hgp⟩ := hshown
      rw [requireGoal_ok hg] at hg'
      cases hg'
      have hmine : goal.progress = clamp (mathRound share) := (Except.ok.inj hprogress).symm
      have htheirs : refreshed.progress = clamp (round share) :=
        hgp.trans ((calculatedProgress_exact s hmode hne).mp hp).2.symm
      rw [hmine, htheirs, eq_comm, clamp_mathRound_iff]
    · -- of a goal that is deleted nothing is returned
      have hnone : (s.goals.find? goal.id).filter GoalRow.active = none := by
        rw [hgoal, Option.filter_some, if_neg hactive]
      have hsame : s' = s := by
        cases hdepth : c.depth with
        | zero =>
          rw [hdepth] at ht
          cases ht
        | succ depth =>
          rw [hdepth, refreshGoalProgress, hnone] at ht
          exact (Except.ok.inj ht).symm
      rw [hsame, requireGoal, hnone] at hg
      cases hg

/-! One of eight, written by the repository as 13 percent. -/

def eighthGoal : GoalRow :=
  { id := 1, title := "Interviews", type := .objective, progress := 13, progressMode := .measurement
    startValue := 0, currentValue := 1, targetValue := 8, createdAt := ⟨0⟩, updatedAt := ⟨0⟩ }

/-- Half of the way. -/
def halfGoal : GoalRow := { eighthGoal with progress := 50, currentValue := 4 }

def storeOf (goal : GoalRow) : Store :=
  { members := [], goals := Table.empty.upsert goal
    links := .empty, checkins := .empty, tasks := .empty }

theorem half_not_above_even : ¬ HalfAboveEven (measuredShare 0 4 8) := by
  rintro ⟨m, -, -, hm⟩
  have hshare : measuredShare 0 4 8 = 50 := by decide +kernel
  rw [hshare] at hm
  have hcast : ((4 * m + 1 : ℤ) : ℚ) = 100 := by
    push_cast
    linarith
  have hint : 4 * m + 1 = 100 := by exact_mod_cast hcast
  omega

theorem measured_agree_half :
    measurementProgress id 0 4 8 = calculatedProgress id (storeOf halfGoal) halfGoal :=
  (measured_agree_iff (storeOf halfGoal) halfGoal rfl (by decide)).1.mpr
    ⟨by unfold FitsInteger; decide +kernel, half_not_above_even⟩

/-- The database rounds 12.5 down to 12. -/
theorem eighth_disagrees :
    (¬ ∀ (s : Store) (goal : GoalRow), goal.progressMode = .measurement →
      goal.startValue ≠ goal.targetValue →
        measurementProgress id goal.startValue goal.currentValue goal.targetValue =
          calculatedProgress id s goal) ∧
    ((refreshProgress id { now := ⟨0⟩, ids := id, depth := 5 } 1
      (storeOf eighthGoal)).toOption.map fun r => r.1.progress) = some 12 := by
  refine ⟨fun h => ?_, by decide +kernel⟩
  have hsame := h (storeOf eighthGoal) eighthGoal rfl (by decide)
  revert hsame
  decide +kernel

end CalmBoard.Goals
