import CalmBoard.Lib.Civil
import Mathlib.Data.Nat.Digits.Defs

/-!
# CalmBoard.Lib.IsoDate — dates as ISO 8601 texts

A time value counts milliseconds since the epoch.  `toISOString` writes it the way JavaScript does:
four digits for the years 0 to 9999, a sign and six digits outside.  `matchDateTime` reads the
date-time texts with a zone that JavaScript's `Date` accepts.

* `matchDateTime_toISOString`: what `toISOString` writes for a year of four digits is read back.
* `matchDate_toISOString`: for another year it is not.
-/

namespace CalmBoard.IsoDate

def msPerDay : ℤ := 86400000

/-! ### Writing -/

def digit (n : ℕ) : Char := Char.ofNat (48 + n % 10)

def pad2 (n : ℕ) : List Char := [digit (n / 10), digit n]

def pad3 (n : ℕ) : List Char := digit (n / 100) :: pad2 n

def pad4 (n : ℕ) : List Char := digit (n / 1000) :: pad3 n

def pad6 (n : ℕ) : List Char := digit (n / 100000) :: digit (n / 10000) :: pad4 n

/-- The date of a time value, in UTC. -/
def utcDate (ms : ℤ) : Civil.Date := Civil.civilFromDays (ms / msPerDay)

/-- Milliseconds since midnight, in UTC. -/
def utcMillisOfDay (ms : ℤ) : ℕ := (ms % msPerDay).toNat

def yearText (y : ℤ) : List Char :=
  if 0 ≤ y ∧ y ≤ 9999 then pad4 y.toNat
  else if y < 0 then '-' :: pad6 y.natAbs else '+' :: pad6 y.natAbs

def timeText (n : ℕ) : List Char :=
  pad2 (n / 3600000) ++ ':' :: pad2 (n / 60000 % 60) ++ ':' :: pad2 (n / 1000 % 60) ++
    '.' :: pad3 (n % 1000)

def toISOString (ms : ℤ) : List Char :=
  yearText (utcDate ms).year ++ '-' :: pad2 (utcDate ms).month ++ '-' :: pad2 (utcDate ms).day ++
    'T' :: timeText (utcMillisOfDay ms) ++ ['Z']

/-! ### Reading -/

def digitVal? (ch : Char) : Option ℕ :=
  if 48 ≤ ch.toNat ∧ ch.toNat ≤ 57 then some (ch.toNat - 48) else none

/-- The number a run of digits denotes. -/
def number? : List Char → Option ℕ :=
  List.foldl (fun acc ch => acc.bind fun a => (digitVal? ch).map fun d => 10 * a + d) (some 0)

inductive Zone where
  | utc
  | offset (sign : ℤ) (hours : ℕ) (minutes : Option ℕ)

structure DateTimeText where
  date : Civil.Date
  hours : ℕ
  minutes : ℕ
  seconds : ℕ
  /-- the first three digits of the fraction -/
  millis : ℕ
  zone : Zone

/-- `Z`, `±hh`, `±hhmm` or `±hh:mm`. -/
def matchZone : List Char → Option Zone
  | [z] => if z = 'Z' ∨ z = 'z' then some .utc else none
  | s :: h₁ :: h₂ :: rest => do
    let sign ← if s = '+' then some 1 else if s = '-' then some (-1) else none
    let hours ← number? [h₁, h₂]
    match rest with
    | [] => some (.offset sign hours none)
    | [m₁, m₂] => (number? [m₁, m₂]).map fun m => .offset sign hours (some m)
    | [':', m₁, m₂] => (number? [m₁, m₂]).map fun m => .offset sign hours (some m)
    | _ => none
  | _ => none

/-- Milliseconds of a fraction of a second: its first three digits. -/
def fractionMillis (digits : List Char) : Option ℕ := number? ((digits ++ ['0', '0']).take 3)

/-- An optional `:ss`, an optional fraction of one to nine digits, then the zone. -/
def matchSeconds : List Char → Option (ℕ × ℕ × Zone)
  | ':' :: s₁ :: s₂ :: '.' :: rest => do
    let s ← number? [s₁, s₂]
    let digits := rest.takeWhile fun ch => (digitVal? ch).isSome
    if digits.length < 1 ∨ 9 < digits.length then none
    else do
      let ms ← fractionMillis digits
      let zone ← matchZone (rest.drop digits.length)
      some (s, ms, zone)
  | ':' :: s₁ :: s₂ :: rest => do
    let s ← number? [s₁, s₂]
    let zone ← matchZone rest
    some (s, 0, zone)
  | rest => (matchZone rest).map fun zone => (0, 0, zone)

def matchDate : List Char → Option (Civil.Date × List Char)
  | y₁ :: y₂ :: y₃ :: y₄ :: '-' :: m₁ :: m₂ :: '-' :: d₁ :: d₂ :: rest => do
    let y ← number? [y₁, y₂, y₃, y₄]
    let m ← number? [m₁, m₂]
    let d ← number? [d₁, d₂]
    some (⟨y, m, d⟩, rest)
  | _ => none

/-- A date and a time with a zone. -/
def matchDateTime (l : List Char) : Option DateTimeText :=
  match matchDate l with
  | some (date, t :: h₁ :: h₂ :: ':' :: m₁ :: m₂ :: rest) =>
    if t = 'T' ∨ t = 't' then do
      let h ← number? [h₁, h₂]
      let m ← number? [m₁, m₂]
      let (s, ms, zone) ← matchSeconds rest
      some ⟨date, h, m, s, ms, zone⟩
    else none
  | _ => none

/-- The offset of a zone in minutes; hours alone are not accepted. -/
def Zone.minutes? : Zone → Option ℤ
  | .utc => some 0
  | .offset sign h (some m) => if h ≤ 23 ∧ m ≤ 59 then some (sign * (h * 60 + m)) else none
  | .offset _ _ none => none

/-- `getTime` of `new Date(text)`, for times of day up to 23:59:59; `none` is an invalid date. -/
def DateTimeText.time? (t : DateTimeText) : Option ℤ := do
  let offset ← t.zone.minutes?
  some (Civil.daysFromCivil t.date * msPerDay +
    (t.hours * 3600000 + t.minutes * 60000 + t.seconds * 1000 + t.millis : ℕ) - offset * 60000)

/-! ### What is written is read back -/

theorem digitVal?_digit (n : ℕ) : digitVal? (digit n) = some (n % 10) := by
  have hall : ∀ d < 10, digitVal? (Char.ofNat (48 + d)) = some d := by decide
  exact hall (n % 10) (Nat.mod_lt n (by omega))

theorem number?_pad2 {n : ℕ} (h : n < 100) : number? (pad2 n) = some n := by
  have hn : 10 * (n / 10 % 10) + n % 10 = n := by omega
  simp [number?, pad2, digitVal?_digit, hn]

theorem number?_pad3 {n : ℕ} (h : n < 1000) : number? (pad3 n) = some n := by
  have hn : 10 * (10 * (n / 100 % 10) + n / 10 % 10) + n % 10 = n := by omega
  simp [number?, pad3, pad2, digitVal?_digit, hn]

theorem number?_pad4 {n : ℕ} (h : n < 10000) : number? (pad4 n) = some n := by
  have hn : 10 * (10 * (10 * (n / 1000 % 10) + n / 100 % 10) + n / 10 % 10) + n % 10 = n := by omega
  simp [number?, pad4, pad3, pad2, digitVal?_digit, hn]

theorem matchDate_pad {y m d : ℕ} (hy : y < 10000) (hm : m < 100) (hd : d < 100) (rest : List Char) :
    matchDate (pad4 y ++ '-' :: pad2 m ++ '-' :: pad2 d ++ rest) = some (⟨y, m, d⟩, rest) := by
  have hyear := number?_pad4 hy
  have hmonth := number?_pad2 hm
  have hday := number?_pad2 hd
  simp only [pad4, pad3, pad2] at hyear hmonth hday ⊢
  simp only [List.cons_append, List.nil_append, matchDate, hyear, hmonth, hday]
  rfl

theorem matchSeconds_timeText {s ms : ℕ} (hs : s < 100) (hms : ms < 1000) :
    matchSeconds (':' :: pad2 s ++ '.' :: pad3 ms ++ ['Z']) = some (s, ms, .utc) := by
  have hseconds := number?_pad2 hs
  have hmillis := number?_pad3 hms
  have hstop : (digitVal? 'Z').isSome = false := rfl
  have hzone : matchZone ['Z'] = some .utc := rfl
  simp only [pad3, pad2] at hseconds hmillis ⊢
  simp only [List.cons_append, List.nil_append, matchSeconds, hseconds, List.takeWhile_cons, hstop,
    digitVal?_digit, Option.isSome_some, if_true, List.length_cons]
  simp [fractionMillis, hmillis, hzone]

/-- The groups of a time value's text. -/
def groups (ms : ℤ) : DateTimeText where
  date := utcDate ms
  hours := utcMillisOfDay ms / 3600000
  minutes := utcMillisOfDay ms / 60000 % 60
  seconds := utcMillisOfDay ms / 1000 % 60
  millis := utcMillisOfDay ms % 1000
  zone := .utc

theorem utcMillisOfDay_lt (ms : ℤ) : utcMillisOfDay ms < 86400000 := by
  unfold utcMillisOfDay msPerDay
  omega

theorem utcDate_month_lt (ms : ℤ) : (utcDate ms).month < 100 := by
  have hmonth := (Civil.civilFromDays_spec (ms / msPerDay)).2.1
  unfold utcDate
  omega

theorem utcDate_day_le (ms : ℤ) : (utcDate ms).day ≤ 31 :=
  (Civil.valid_civilFromDays (ms / msPerDay)).day_le

/-- **Reading back**: what `toISOString` writes for a year of four digits. -/
theorem matchDateTime_toISOString {ms : ℤ} (h : 0 ≤ (utcDate ms).year ∧ (utcDate ms).year ≤ 9999) :
    matchDateTime (toISOString ms) = some (groups ms) := by
  have hms := utcMillisOfDay_lt ms
  have hday := utcDate_day_le ms
  have hdate := matchDate_pad (y := (utcDate ms).year.toNat) (by omega) (utcDate_month_lt ms)
    (show (utcDate ms).day < 100 by omega) ('T' :: timeText (utcMillisOfDay ms) ++ ['Z'])
  have hh := number?_pad2 (show utcMillisOfDay ms / 3600000 < 100 by omega)
  have hm := number?_pad2 (show utcMillisOfDay ms / 60000 % 60 < 100 by omega)
  have hs := matchSeconds_timeText (show utcMillisOfDay ms / 1000 % 60 < 100 by omega)
    (show utcMillisOfDay ms % 1000 < 1000 by omega)
  have hyear : (((utcDate ms).year.toNat : ℕ) : ℤ) = (utcDate ms).year := Int.toNat_of_nonneg h.1
  have htext : toISOString ms = pad4 (utcDate ms).year.toNat ++ '-' :: pad2 (utcDate ms).month ++
      '-' :: pad2 (utcDate ms).day ++ ('T' :: timeText (utcMillisOfDay ms) ++ ['Z']) := by
    simp [toISOString, yearText, h]
  have htime : timeText (utcMillisOfDay ms) ++ ['Z'] = pad2 (utcMillisOfDay ms / 3600000) ++
      ':' :: pad2 (utcMillisOfDay ms / 60000 % 60) ++ (':' :: pad2 (utcMillisOfDay ms / 1000 % 60) ++
        '.' :: pad3 (utcMillisOfDay ms % 1000) ++ ['Z']) := by
    simp [timeText]
  rw [List.cons_append, htime] at hdate
  rw [List.cons_append, htime] at htext
  generalize (':' :: pad2 (utcMillisOfDay ms / 1000 % 60) ++
    '.' :: pad3 (utcMillisOfDay ms % 1000) ++ ['Z']) = seconds at hdate htext hs
  simp only [pad2, List.cons_append, List.nil_append] at hh hm hdate htext
  unfold matchDateTime
  rw [htext]
  rw [hdate]
  simp only [hh, hm, hs, hyear, true_or, if_true]
  rfl

theorem time?_groups (ms : ℤ) : (groups ms).time? = some ms := by
  have hms := utcMillisOfDay_lt ms
  have hparts : utcMillisOfDay ms / 3600000 * 3600000 + utcMillisOfDay ms / 60000 % 60 * 60000 +
      utcMillisOfDay ms / 1000 % 60 * 1000 + utcMillisOfDay ms % 1000 = utcMillisOfDay ms := by
    omega
  have hday : Civil.daysFromCivil (utcDate ms) * msPerDay + (utcMillisOfDay ms : ℕ) = ms := by
    unfold utcDate utcMillisOfDay msPerDay
    rw [Civil.daysFromCivil_civilFromDays]
    omega
  unfold DateTimeText.time? groups
  simp only [Zone.minutes?, hparts, hday, Option.bind_eq_bind, Option.bind_some, zero_mul, sub_zero]

/-- A text that does not start with a digit starts with no date. -/
theorem matchDate_of_head {ch : Char} (h : digitVal? ch = none) (l : List Char) :
    matchDate (ch :: l) = none := by
  have hnone : ∀ l : List Char, number? (ch :: l) = none := by
    intro l
    have hfold : ∀ l : List Char, l.foldl
        (fun acc ch => acc.bind fun a => (digitVal? ch).map fun d => 10 * a + d) none = none := by
      intro l
      induction l with
      | nil => rfl
      | cons c l ih => exact ih
    unfold number?
    rw [List.foldl_cons, h]
    exact hfold l
  unfold matchDate
  split
  · rename_i heq
    cases heq
    rw [hnone]
    rfl
  · rfl

/-- A year outside of 0 to 9999 is written with a sign, which is not read. -/
theorem matchDate_toISOString {ms : ℤ} (h : ¬(0 ≤ (utcDate ms).year ∧ (utcDate ms).year ≤ 9999)) :
    matchDate (toISOString ms) = none := by
  unfold toISOString yearText
  rw [if_neg h]
  split
  · exact matchDate_of_head rfl _
  · exact matchDate_of_head rfl _

end CalmBoard.IsoDate
