import CalmBoard.Lib.IsoDate
import Mathlib.Data.Char
import Mathlib.Data.List.Lex

/-!
# CalmBoard.Lib.DateText — dates as texts that are compared

A date is written as year, month and day, the month and the day with two digits.  Texts are compared
character by character.

* `dateText`, `dayText`: the text of a date, and of a day number, with as many digits as the year has.
* `civil_lt`: days are ordered like their years, months and days.
* `dayText_lt`: where two years have the same number of digits, the texts are ordered like the days.
* `dayText_injective`: different days have different texts.
* `IsoYear`, `isoDay`: the days whose years have four digits, and their dates.
* `isoDay_lt_iff`: the dates are ordered like the days.
* `take_toISOString`, `take_lt_isoDay`: the first ten characters of any time value's text.
* `matchDate_isoDay`, `isoYear_of_take`: the dates are the texts of ten characters that are read.
-/

namespace CalmBoard.DateText

open IsoDate (digit pad2)

/-- A number without leading zeros, with its sign. -/
def yearText (year : ℤ) : List Char :=
  if year < 0 then '-' :: Nat.toDigits 10 year.natAbs else Nat.toDigits 10 year.natAbs

def dateText (year : ℤ) (month day : ℕ) : List Char :=
  yearText year ++ '-' :: (pad2 month ++ '-' :: pad2 day)

def dayText (n : ℤ) : List Char :=
  dateText (Civil.civilFromDays n).year (Civil.civilFromDays n).month (Civil.civilFromDays n).day

/-! ### Texts -/

/-- What comes after texts of one length decides only where they are equal. -/
theorem append_lt_append {xs ys : List Char} (h : xs < ys) (hlen : xs.length = ys.length)
    (us vs : List Char) : xs ++ us < ys ++ vs := by
  induction xs generalizing ys with
  | nil =>
    cases ys with
    | nil => exact absurd h (List.lt_irrefl _)
    | cons b ys => cases hlen
  | cons a xs ih =>
    cases ys with
    | nil => cases hlen
    | cons b ys =>
      rw [List.cons_append, List.cons_append, List.cons_lt_cons_iff]
      rcases List.cons_lt_cons_iff.mp h with hab | ⟨hab, hrest⟩
      · exact Or.inl hab
      · exact Or.inr ⟨hab, ih hrest (Nat.succ.inj hlen)⟩

theorem digitChar_lt {a b : ℕ} (h : a < b) (hb : b < 10) : Nat.digitChar a < Nat.digitChar b := by
  have hall : ∀ b < 10, ∀ a < b, Nat.digitChar a < Nat.digitChar b := by decide
  exact hall b hb a h

theorem digit_lt {a b : ℕ} (h : a % 10 < b % 10) : digit a < digit b := by
  have hall : ∀ b < 10, ∀ a < b, Char.ofNat (48 + a) < Char.ofNat (48 + b) := by decide
  exact hall (b % 10) (Nat.mod_lt b (by omega)) (a % 10) h

/-- Decimal numbers of one length, by induction on all but the last digit. -/
theorem toDigits_lt {m n : ℕ} (h : m < n)
    (hlen : (Nat.toDigits 10 m).length = (Nat.toDigits 10 n).length) :
    Nat.toDigits 10 m < Nat.toDigits 10 n := by
  induction n using Nat.strongRecOn generalizing m with
  | ind n ih =>
    by_cases hn : n < 10
    · rw [Nat.toDigits_of_lt_base hn, Nat.toDigits_of_lt_base (Nat.lt_trans h hn)]
      exact List.cons_lt_cons_iff.mpr (Or.inl (digitChar_lt h hn))
    · have hlong := Nat.toDigits_of_base_le (b := 10) (by omega) (show 10 ≤ n by omega)
      have hm : 10 ≤ m := by
        by_contra hm
        rw [Nat.toDigits_of_lt_base (by omega), hlong, List.length_append] at hlen
        have hpos := Nat.length_toDigits_pos (b := 10) (n := n / 10)
        simp only [List.length_cons, List.length_nil] at hlen
        omega
      have hlong' := Nat.toDigits_of_base_le (b := 10) (by omega) hm
      rw [hlong, hlong'] at hlen ⊢
      simp only [List.length_append, List.length_cons, List.length_nil,
        Nat.add_right_cancel_iff] at hlen
      rcases Nat.lt_or_ge (m / 10) (n / 10) with hlt | hge
      · exact append_lt_append (ih (n / 10) (by omega) hlt hlen) hlen _ _
      · have heq : m / 10 = n / 10 := by omega
        rw [heq]
        exact List.append_left_lt
          (List.cons_lt_cons_iff.mpr (Or.inl (digitChar_lt (by omega) (by omega))))

theorem pad2_lt {m n : ℕ} (h : m < n) (hn : n < 100) : pad2 m < pad2 n := by
  unfold pad2
  rw [List.cons_lt_cons_iff]
  rcases Nat.lt_or_ge (m / 10) (n / 10) with hlt | hge
  · exact Or.inl (digit_lt (by omega))
  · have heq : m / 10 = n / 10 := by omega
    rw [heq]
    exact Or.inr ⟨rfl, List.cons_lt_cons_iff.mpr (Or.inl (digit_lt (by omega)))⟩

theorem yearText_of_nonneg {year : ℤ} (h : 0 ≤ year) : yearText year = Nat.toDigits 10 year.natAbs :=
  if_neg (by omega)

/-! ### Days -/

/-- Days are ordered like their dates. -/
theorem civil_lt {m n : ℤ} (h : m < n) :
    let s := Civil.civilFromDays m
    let t := Civil.civilFromDays n
    s.year < t.year ∨ s.year = t.year ∧ (s.month < t.month ∨ s.month = t.month ∧ s.day < t.day) := by
  have hs := Civil.civilFromDays_spec m
  have ht := Civil.civilFromDays_spec n
  generalize Civil.civilFromDays m = s at hs ⊢
  generalize Civil.civilFromDays n = t at ht ⊢
  dsimp only at hs ht ⊢
  obtain ⟨hm, hm', heq, hlt, hday⟩ := hs
  obtain ⟨hn, hn', heq', hlt', hday'⟩ := ht
  rcases lt_trichotomy s.year t.year with hyear | hyear | hyear
  · exact Or.inl hyear
  · refine Or.inr ⟨hyear, ?_⟩
    rw [hyear] at heq hlt
    rcases lt_trichotomy s.month t.month with hmonth | hmonth | hmonth
    · exact Or.inl hmonth
    · refine Or.inr ⟨hmonth, ?_⟩
      rw [hmonth] at heq
      omega
    · have hmono := Civil.daysBeforeMonth_mono (Civil.isLeap t.year)
        (show 1 ≤ t.month + 1 by omega) (show t.month + 1 ≤ s.month by omega) (by omega)
      omega
  · have hmono := Civil.daysBeforeYear_mono (show t.year + 1 ≤ s.year by omega)
    rw [Civil.daysBeforeYear_succ] at hmono
    have hzero : Civil.daysBeforeMonth (Civil.isLeap s.year) 1 = 0 := rfl
    have hstart := Civil.daysBeforeMonth_mono (Civil.isLeap s.year) (le_refl 1) hm (by omega)
    have hend := Civil.daysBeforeMonth_mono (Civil.isLeap t.year) (show 1 ≤ t.month + 1 by omega)
      (show t.month + 1 ≤ 13 by omega) le_rfl
    omega

/-- The text of a day, where its year is not negative. -/
theorem dayText_eq {n : ℤ} (h : 0 ≤ (Civil.civilFromDays n).year) :
    dayText n = Nat.toDigits 10 (Civil.civilFromDays n).year.natAbs ++
      '-' :: (pad2 (Civil.civilFromDays n).month ++ '-' :: pad2 (Civil.civilFromDays n).day) := by
  unfold dayText dateText
  rw [yearText_of_nonneg h]

theorem month_lt (n : ℤ) : (Civil.civilFromDays n).month < 100 := by
  have hmonth := (Civil.civilFromDays_spec n).2.1
  omega

theorem day_lt (n : ℤ) : (Civil.civilFromDays n).day < 100 := by
  have hday := (Civil.valid_civilFromDays n).day_le
  omega

/-- **Days as texts**, where their years have the same number of digits. -/
theorem dayText_lt {m n : ℤ} (h : m < n) (hpos : 0 ≤ (Civil.civilFromDays m).year)
    (hlen : (yearText (Civil.civilFromDays m).year).length =
      (yearText (Civil.civilFromDays n).year).length) : dayText m < dayText n := by
  have horder := civil_lt h
  have hpos' : 0 ≤ (Civil.civilFromDays n).year := by
    rcases horder with hyear | ⟨hyear, -⟩
    · omega
    · omega
  rw [yearText_of_nonneg hpos, yearText_of_nonneg hpos'] at hlen
  rw [dayText_eq hpos, dayText_eq hpos']
  rcases horder with hyear | ⟨hyear, hmonth | ⟨hmonth, hday⟩⟩
  · exact append_lt_append (toDigits_lt (by omega) hlen) hlen _ _
  · rw [hyear]
    refine List.append_left_lt (List.cons_lt_cons_iff.mpr (Or.inr ⟨rfl, ?_⟩))
    exact append_lt_append (pad2_lt hmonth (month_lt n)) rfl _ _
  · rw [hyear, hmonth]
    refine List.append_left_lt (List.cons_lt_cons_iff.mpr (Or.inr ⟨rfl, ?_⟩))
    exact List.append_left_lt
      (List.cons_lt_cons_iff.mpr (Or.inr ⟨rfl, pad2_lt hday (day_lt n)⟩))

/-! ### Different days -/

theorem toDigits_injective : Function.Injective (Nat.toDigits 10) := by
  intro m n h
  rcases lt_trichotomy m n with hlt | heq | hlt
  · have hless := toDigits_lt hlt (by rw [h])
    exact absurd (h ▸ hless) (List.lt_irrefl _)
  · exact heq
  · have hless := toDigits_lt hlt (by rw [h])
    exact absurd (h ▸ hless) (List.lt_irrefl _)

/-- A number without a sign does not start with one. -/
theorem toDigits_ne_minus (n : ℕ) (cs : List Char) : Nat.toDigits 10 n ≠ '-' :: cs := by
  intro h
  have hmem : '-' ∈ Nat.toDigits 10 n := h ▸ List.mem_cons_self
  exact absurd (Nat.isDigit_of_mem_toDigits (by omega) (by omega) hmem) (by decide)

theorem yearText_injective : Function.Injective yearText := by
  intro y z h
  unfold yearText at h
  split at h <;> split at h
  · have hnat := toDigits_injective (List.cons.inj h).2
    omega
  · exact absurd h.symm (toDigits_ne_minus _ _)
  · exact absurd h (toDigits_ne_minus _ _)
  · have hnat := toDigits_injective h
    omega

theorem pad2_inj {m n : ℕ} (hm : m < 100) (hn : n < 100) (h : pad2 m = pad2 n) : m = n := by
  rcases lt_trichotomy m n with hlt | heq | hlt
  · exact absurd (h ▸ pad2_lt hlt hn) (List.lt_irrefl _)
  · exact heq
  · exact absurd (h ▸ pad2_lt hlt hm) (List.lt_irrefl _)

theorem dayText_injective : Function.Injective dayText := by
  intro m n h
  unfold dayText dateText at h
  obtain ⟨hyear, hrest⟩ := List.append_inj' h rfl
  obtain ⟨hmonth, hrest⟩ := List.append_inj (List.cons.inj hrest).2 rfl
  have hyear' := yearText_injective hyear
  have hmonth' := pad2_inj (month_lt m) (month_lt n) hmonth
  have hday' := pad2_inj (day_lt m) (day_lt n) (List.cons.inj hrest).2
  rcases lt_trichotomy m n with hlt | heq | hlt
  · have horder := civil_lt hlt
    dsimp only at horder
    omega
  · exact heq
  · have horder := civil_lt hlt
    dsimp only at horder
    omega

end CalmBoard.DateText

namespace CalmBoard.IsoDate

def IsoYear (n : ℤ) : Prop :=
  0 ≤ (Civil.civilFromDays n).year ∧ (Civil.civilFromDays n).year ≤ 9999

instance (n : ℤ) : Decidable (IsoYear n) := inferInstanceAs (Decidable (_ ∧ _))

def isoDay (n : ℤ) : List Char :=
  pad4 (Civil.civilFromDays n).year.toNat ++
    '-' :: (pad2 (Civil.civilFromDays n).month ++ '-' :: pad2 (Civil.civilFromDays n).day)

/-! ### Order -/

theorem pad4_eq (n : ℕ) : pad4 n = pad2 (n / 100) ++ pad2 (n % 100) := by
  have hthousands : digit (n / 1000) = digit (n / 100 / 10) := by
    rw [Nat.div_div_eq_div_mul]
  have htens : digit (n / 10) = digit (n % 100 / 10) := by
    unfold digit
    congr 2
    omega
  have hones : digit n = digit (n % 100) := by
    unfold digit
    congr 2
    omega
  show [digit (n / 1000), digit (n / 100), digit (n / 10), digit n] =
    [digit (n / 100 / 10), digit (n / 100), digit (n % 100 / 10), digit (n % 100)]
  rw [hthousands, htens, hones]

theorem pad4_lt {m n : ℕ} (h : m < n) (hn : n < 10000) : pad4 m < pad4 n := by
  rw [pad4_eq, pad4_eq]
  rcases Nat.lt_or_ge (m / 100) (n / 100) with hlt | hge
  · exact DateText.append_lt_append (DateText.pad2_lt hlt (by omega)) rfl _ _
  · have heq : m / 100 = n / 100 := by omega
    rw [heq]
    exact List.append_left_lt (DateText.pad2_lt (by omega) (by omega))

theorem isoDay_lt {m n : ℤ} (hm : IsoYear m) (hn : IsoYear n) (h : m < n) : isoDay m < isoDay n := by
  have horder := DateText.civil_lt h
  have hmonth := DateText.month_lt n
  have hday := DateText.day_lt n
  obtain ⟨hm, -⟩ := hm
  obtain ⟨-, hn⟩ := hn
  dsimp only at horder
  unfold isoDay
  rcases horder with hyear | ⟨hyear, hlt | ⟨heq, hlt⟩⟩
  · have hnat : (Civil.civilFromDays m).year.toNat < (Civil.civilFromDays n).year.toNat := by omega
    exact DateText.append_lt_append (pad4_lt hnat (by omega)) rfl _ _
  · rw [hyear]
    refine List.append_left_lt (List.cons_lt_cons_iff.mpr (Or.inr ⟨rfl, ?_⟩))
    exact DateText.append_lt_append (DateText.pad2_lt hlt hmonth) rfl _ _
  · rw [hyear, heq]
    refine List.append_left_lt (List.cons_lt_cons_iff.mpr (Or.inr ⟨rfl, List.append_left_lt ?_⟩))
    exact List.cons_lt_cons_iff.mpr (Or.inr ⟨rfl, DateText.pad2_lt hlt hday⟩)

theorem isoDay_lt_iff {m n : ℤ} (hm : IsoYear m) (hn : IsoYear n) : isoDay m < isoDay n ↔ m < n := by
  refine ⟨fun h => ?_, isoDay_lt hm hn⟩
  by_contra hle
  rcases (not_lt.mp hle).lt_or_eq with hlt | heq
  · exact List.lt_asymm h (isoDay_lt hn hm hlt)
  · rw [heq] at h
    exact List.lt_irrefl _ h

theorem isoDay_inj {m n : ℤ} (hm : IsoYear m) (hn : IsoYear n) : isoDay m = isoDay n ↔ m = n := by
  refine ⟨fun h => ?_, congrArg isoDay⟩
  rcases lt_trichotomy m n with hlt | heq | hlt
  · exact absurd (h ▸ isoDay_lt hm hn hlt) (List.lt_irrefl _)
  · exact heq
  · exact absurd (h ▸ isoDay_lt hn hm hlt) (List.lt_irrefl _)

/-! ### The first ten characters -/

theorem take_toISOString {ms : ℤ} (h : IsoYear (ms / msPerDay)) :
    (toISOString ms).take 10 = isoDay (ms / msPerDay) := by
  have htext : toISOString ms =
      isoDay (ms / msPerDay) ++ ('T' :: timeText (utcMillisOfDay ms) ++ ['Z']) := by
    have hyear : yearText (utcDate ms).year = pad4 (utcDate ms).year.toNat := if_pos h
    unfold toISOString isoDay
    rw [hyear]
    simp [utcDate]
  rw [htext]
  exact List.take_left' rfl

/-- A year of more digits has a sign. -/
theorem toISOString_signed {ms : ℤ} (h : ¬IsoYear (ms / msPerDay)) :
    ∃ sign rest, (sign = '-' ∨ sign = '+') ∧ (toISOString ms).take 10 = sign :: rest := by
  have hyear : ¬(0 ≤ (utcDate ms).year ∧ (utcDate ms).year ≤ 9999) := h
  unfold toISOString yearText
  rw [if_neg hyear]
  split
  · exact ⟨'-', _, Or.inl rfl, rfl⟩
  · exact ⟨'+', _, Or.inr rfl, rfl⟩

theorem take_lt_isoDay {ms n : ℤ} (h : ¬IsoYear (ms / msPerDay)) :
    (toISOString ms).take 10 < isoDay n := by
  have hall : ∀ d < 10, '-' < Char.ofNat (48 + d) ∧ '+' < Char.ofNat (48 + d) := by decide
  have hdigit := hall ((Civil.civilFromDays n).year.toNat / 1000 % 10) (Nat.mod_lt _ (by omega))
  obtain ⟨sign, rest, hsign, htext⟩ := toISOString_signed h
  rw [htext]
  refine List.cons_lt_cons_iff.mpr (Or.inl ?_)
  rcases hsign with rfl | rfl
  · exact hdigit.1
  · exact hdigit.2

/-! ### Reading -/

theorem matchDate_isoDay {n : ℤ} (h : IsoYear n) :
    matchDate (isoDay n) = some (Civil.civilFromDays n, []) := by
  have hyear : (((Civil.civilFromDays n).year.toNat : ℕ) : ℤ) = (Civil.civilFromDays n).year :=
    Int.toNat_of_nonneg h.1
  have hpad := matchDate_pad (y := (Civil.civilFromDays n).year.toNat)
    (by have hle := h.2; omega) (DateText.month_lt n) (DateText.day_lt n) []
  rw [hyear] at hpad
  simpa [isoDay] using hpad

/-- A text that starts a time value's text and is read as a date is the date of the day. -/
theorem isoYear_of_take {ms : ℤ} {l : List Char} (h : (toISOString ms).take 10 = l)
    (hread : matchDate l ≠ none) : IsoYear (ms / msPerDay) ∧ l = isoDay (ms / msPerDay) := by
  have hyear : IsoYear (ms / msPerDay) := by
    by_contra hsigned
    obtain ⟨sign, rest, hsign, htext⟩ := toISOString_signed hsigned
    refine hread ?_
    rw [← h, htext]
    rcases hsign with rfl | rfl
    · exact matchDate_of_head rfl _
    · exact matchDate_of_head rfl _
  exact ⟨hyear, by rw [← h, take_toISOString hyear]⟩

end CalmBoard.IsoDate
