import Mathlib.Data.Int.Basic
import Mathlib.Tactic.IntervalCases

/-!
# CalmBoard.Lib.Civil — the proleptic Gregorian calendar

Days are counted from 1970-01-01; years are astronomical (year 0 exists and is a leap year).

* `daysFromCivil`, `civilFromDays`: between a date and its day number.
* `daysFromCivil_civilFromDays`: a day number read as a date gives the day number back.
* `civilFromDays_daysFromCivil`: a valid date comes back from its day number.
-/

namespace CalmBoard.Civil

structure Date where
  year : ℤ
  month : ℕ
  day : ℕ
  deriving DecidableEq

def isLeap (y : ℤ) : Bool := y % 4 = 0 ∧ (y % 100 ≠ 0 ∨ y % 400 = 0)

/-- Days of the year before the given month, 13 standing for the next January. -/
def daysBeforeMonth (leap : Bool) : ℕ → ℤ
  | 0 | 1 => 0
  | 2 => 31
  | 3 => if leap then 60 else 59
  | 4 => if leap then 91 else 90
  | 5 => if leap then 121 else 120
  | 6 => if leap then 152 else 151
  | 7 => if leap then 182 else 181
  | 8 => if leap then 213 else 212
  | 9 => if leap then 244 else 243
  | 10 => if leap then 274 else 273
  | 11 => if leap then 305 else 304
  | 12 => if leap then 335 else 334
  | _ => if leap then 366 else 365

/-- Days from the start of year 0 to the start of year `y`. -/
def daysBeforeYear (y : ℤ) : ℤ := 365 * y + (y + 3) / 4 - (y + 99) / 100 + (y + 399) / 400

/-- The day number of 0000-01-01 is `-719528`. -/
def epochOffset : ℤ := 719528

def Date.Valid (t : Date) : Prop :=
  1 ≤ t.month ∧ t.month ≤ 12 ∧ 1 ≤ t.day ∧
    (t.day : ℤ) ≤ daysBeforeMonth (isLeap t.year) (t.month + 1) - daysBeforeMonth (isLeap t.year) t.month

instance (t : Date) : Decidable t.Valid := inferInstanceAs (Decidable (_ ∧ _))

def daysFromCivil (t : Date) : ℤ :=
  daysBeforeYear t.year + daysBeforeMonth (isLeap t.year) t.month + (t.day - 1) - epochOffset

/-- The year of a day counted from 0000-01-01: a quotient by the mean length of a year, corrected by
one where it is off. -/
def yearOf (z : ℤ) : ℤ :=
  let y := z * 400 / 146097
  if z < daysBeforeYear y then y - 1 else if daysBeforeYear (y + 1) ≤ z then y + 1 else y

/-- The last month, up to the given one, that starts no later than the day `doy` of the year. -/
def monthOf (leap : Bool) (doy : ℤ) : ℕ → ℕ
  | 0 => 1
  | m + 1 => if daysBeforeMonth leap (m + 1) ≤ doy then m + 1 else monthOf leap doy m

def civilFromDays (n : ℤ) : Date :=
  let z := n + epochOffset
  let y := yearOf z
  let doy := z - daysBeforeYear y
  let m := monthOf (isLeap y) doy 12
  { year := y, month := m, day := (doy - daysBeforeMonth (isLeap y) m).toNat + 1 }

/-! ### Years -/

theorem isLeap_iff {y : ℤ} : isLeap y = true ↔ y % 4 = 0 ∧ (y % 100 ≠ 0 ∨ y % 400 = 0) := by
  simp [isLeap]

/-- A year has 365 or 366 days. -/
theorem daysBeforeYear_succ (y : ℤ) :
    daysBeforeYear (y + 1) = daysBeforeYear y + daysBeforeMonth (isLeap y) 13 := by
  have h13 : daysBeforeMonth (isLeap y) 13 = if isLeap y then 366 else 365 := rfl
  rw [h13]
  by_cases hl : isLeap y = true
  · rw [if_pos hl]
    rw [isLeap_iff] at hl
    unfold daysBeforeYear
    omega
  · rw [if_neg hl]
    rw [isLeap_iff] at hl
    unfold daysBeforeYear
    omega

theorem yearOf_spec (z : ℤ) : daysBeforeYear (yearOf z) ≤ z ∧ z < daysBeforeYear (yearOf z + 1) := by
  have hlow : daysBeforeYear (z * 400 / 146097 - 1) ≤ z := by
    unfold daysBeforeYear
    omega
  have hhigh : z < daysBeforeYear (z * 400 / 146097 + 2) := by
    unfold daysBeforeYear
    omega
  unfold yearOf
  simp only
  split
  · rename_i h
    exact ⟨hlow, by rwa [Int.sub_add_cancel]⟩
  · split
    · rename_i h
      refine ⟨h, ?_⟩
      have : z * 400 / 146097 + 1 + 1 = z * 400 / 146097 + 2 := by omega
      rwa [this]
    · omega

theorem daysBeforeYear_mono {a b : ℤ} (h : a ≤ b) : daysBeforeYear a ≤ daysBeforeYear b := by
  unfold daysBeforeYear
  omega

theorem yearOf_unique {y z : ℤ} (h₁ : daysBeforeYear y ≤ z) (h₂ : z < daysBeforeYear (y + 1)) :
    yearOf z = y := by
  obtain ⟨h₃, h₄⟩ := yearOf_spec z
  rcases lt_trichotomy (yearOf z) y with h | h | h
  · have := daysBeforeYear_mono (show yearOf z + 1 ≤ y by omega)
    omega
  · exact h
  · have := daysBeforeYear_mono (show y + 1 ≤ yearOf z by omega)
    omega

/-! ### Months -/

theorem daysBeforeMonth_succ (leap : Bool) {m : ℕ} (h₁ : 1 ≤ m) (h₂ : m ≤ 12) :
    daysBeforeMonth leap m < daysBeforeMonth leap (m + 1) := by
  cases leap <;> interval_cases m <;> decide

theorem daysBeforeMonth_mono (leap : Bool) {a b : ℕ} (ha : 1 ≤ a) (hab : a ≤ b) (hb : b ≤ 13) :
    daysBeforeMonth leap a ≤ daysBeforeMonth leap b := by
  induction b, hab using Nat.le_induction with
  | base => exact le_rfl
  | succ b hab ih =>
    have := daysBeforeMonth_succ leap (show 1 ≤ b by omega) (show b ≤ 12 by omega)
    have := ih (by omega)
    omega

theorem monthOf_spec (leap : Bool) {doy : ℤ} (h₀ : 0 ≤ doy) :
    ∀ {k : ℕ}, 1 ≤ k → doy < daysBeforeMonth leap (k + 1) →
      1 ≤ monthOf leap doy k ∧ monthOf leap doy k ≤ k ∧
      daysBeforeMonth leap (monthOf leap doy k) ≤ doy ∧
      doy < daysBeforeMonth leap (monthOf leap doy k + 1)
  | 0, h, _ => absurd h (by omega)
  | k + 1, _, h₁ => by
    unfold monthOf
    by_cases hk : daysBeforeMonth leap (k + 1) ≤ doy
    · rw [if_pos hk]
      exact ⟨by omega, le_rfl, hk, h₁⟩
    · rw [if_neg hk]
      have hk1 : 1 ≤ k := by
        by_contra h
        have hk0 : k = 0 := by omega
        subst hk0
        exact hk h₀
      obtain ⟨h, h', h''⟩ := monthOf_spec leap h₀ hk1 (not_le.mp hk)
      exact ⟨h, by omega, h''⟩

theorem month_unique {leap : Bool} {m m' : ℕ} {doy : ℤ} (hm : 1 ≤ m) (hm' : 1 ≤ m')
    (h12 : m ≤ 12) (h12' : m' ≤ 12) (h₁ : daysBeforeMonth leap m ≤ doy)
    (h₂ : doy < daysBeforeMonth leap (m + 1)) (h₁' : daysBeforeMonth leap m' ≤ doy)
    (h₂' : doy < daysBeforeMonth leap (m' + 1)) : m = m' := by
  rcases lt_trichotomy m m' with h | h | h
  · have := daysBeforeMonth_mono leap (show 1 ≤ m + 1 by omega) (show m + 1 ≤ m' by omega)
      (by omega)
    omega
  · exact h
  · have := daysBeforeMonth_mono leap (show 1 ≤ m' + 1 by omega) (show m' + 1 ≤ m by omega)
      (by omega)
    omega

/-! ### Dates -/

/-- A day number split into the start of its year, the start of its month and the day. -/
theorem civilFromDays_spec (n : ℤ) :
    let t := civilFromDays n
    1 ≤ t.month ∧ t.month ≤ 12 ∧
      n + epochOffset = daysBeforeYear t.year + daysBeforeMonth (isLeap t.year) t.month + (t.day - 1) ∧
      n + epochOffset < daysBeforeYear t.year + daysBeforeMonth (isLeap t.year) (t.month + 1) ∧
      1 ≤ t.day := by
  obtain ⟨h₁, h₂⟩ := yearOf_spec (n + epochOffset)
  rw [daysBeforeYear_succ] at h₂
  have hdoy : n + epochOffset - daysBeforeYear (yearOf (n + epochOffset)) <
      daysBeforeMonth (isLeap (yearOf (n + epochOffset))) (12 + 1) := Int.sub_left_lt_of_lt_add h₂
  obtain ⟨hm, hm', hlow, hhigh⟩ := monthOf_spec (isLeap (yearOf (n + epochOffset)))
    (show 0 ≤ n + epochOffset - daysBeforeYear (yearOf (n + epochOffset)) by omega)
    (show 1 ≤ 12 by omega) hdoy
  simp only [civilFromDays]
  refine ⟨hm, hm', ?_, ?_, ?_⟩ <;> omega

theorem valid_civilFromDays (n : ℤ) : (civilFromDays n).Valid := by
  obtain ⟨hm, hm', heq, hlt, hd⟩ := civilFromDays_spec n
  exact ⟨hm, hm', hd, by omega⟩

/-- No month is longer than 31 days. -/
theorem Date.Valid.day_le {t : Date} (h : t.Valid) : t.day ≤ 31 := by
  obtain ⟨-, hm, -, hd⟩ := h
  have hlong : ∀ leap : Bool, ∀ month ≤ 12,
      daysBeforeMonth leap (month + 1) - daysBeforeMonth leap month ≤ 31 := by decide
  have hmonth := hlong (isLeap t.year) t.month hm
  omega

/-- **Round trip**, from a day number. -/
@[simp] theorem daysFromCivil_civilFromDays (n : ℤ) : daysFromCivil (civilFromDays n) = n := by
  obtain ⟨-, -, heq, -, -⟩ := civilFromDays_spec n
  unfold daysFromCivil
  omega

/-- **Round trip**, from a valid date. -/
theorem civilFromDays_daysFromCivil {t : Date} (h : t.Valid) :
    civilFromDays (daysFromCivil t) = t := by
  obtain ⟨hm, hm', hd, hd'⟩ := h
  have h0 := daysBeforeMonth_mono (isLeap t.year) (le_refl 1) hm (by omega)
  have h1 : daysBeforeMonth (isLeap t.year) 1 = 0 := rfl
  have h13 := daysBeforeMonth_mono (isLeap t.year) (show 1 ≤ t.month + 1 by omega)
    (show t.month + 1 ≤ 13 by omega) le_rfl
  have hz : daysFromCivil t + epochOffset =
      daysBeforeYear t.year + daysBeforeMonth (isLeap t.year) t.month + (t.day - 1) := by
    unfold daysFromCivil
    omega
  obtain ⟨gm, gm', geq, glt, gd⟩ := civilFromDays_spec (daysFromCivil t)
  have hy : (civilFromDays (daysFromCivil t)).year = t.year := by
    apply yearOf_unique
    · omega
    · rw [daysBeforeYear_succ]
      omega
  rw [hy] at geq glt
  have hlow : daysBeforeMonth (isLeap t.year) (civilFromDays (daysFromCivil t)).month ≤
      daysBeforeMonth (isLeap t.year) t.month + ((t.day : ℤ) - 1) := by omega
  have hmonth : (civilFromDays (daysFromCivil t)).month = t.month :=
    month_unique gm hm gm' hm' hlow (by omega) (by omega) (by omega)
  rw [hmonth] at geq
  have hday : (civilFromDays (daysFromCivil t)).day = t.day := by omega
  cases hc : civilFromDays (daysFromCivil t)
  cases t
  simp_all

end CalmBoard.Civil
