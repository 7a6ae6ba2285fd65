import CalmBoard.CustomFields.Contract
import CalmBoard.Lib.DateText

/-!
# CalmBoard.CustomFields.SafeDate — the dates that a query casts

A query casts a stored text to a date only if a regular expression matches it, and takes it as `NULL`
otherwise.

* `Pattern`: regular expressions, as far as this one needs them.
* `safeDateSqlRegex`: the expression.
* `safeDate_date`, `safeTime_time`: what it accepts of a date and of a time of day.
* `dateContract_iff`: the texts whose stored form is accepted and matched again.
-/

namespace CalmBoard.CustomFields

open IsoDate

/-! ### Patterns -/

/-- Whether some beginning is matched whose rest is accepted. -/
abbrev Pattern := (List Char → Bool) → List Char → Bool

def one (allowed : Char → Bool) : Pattern := fun next l =>
  match l with
  | c :: l => allowed c && next l
  | [] => false

def range (low high : Char) : Pattern := one fun c => low ≤ c && c ≤ high

def anyOf (allowed : List Char) : Pattern := one fun c => allowed.contains c

def seq : List Pattern → Pattern
  | [] => fun next => next
  | p :: ps => fun next => p (seq ps next)

def alt (ps : List Pattern) : Pattern := fun next l => ps.any fun p => p next l

def opt (p : Pattern) : Pattern := fun next l => p next l || next l

def lit (text : List Char) : Pattern := seq (text.map fun c => one (· == c))

def upTo (p : Pattern) : ℕ → Pattern
  | 0 => fun next => next
  | n + 1 => opt (seq [p, upTo p n])

def digitClass : Pattern := range '0' '9'

/-! ### The expression -/

def monthClass : Pattern := alt [seq [lit ['0'], range '1' '9'], seq [lit ['1'], range '0' '2']]

def dayClass : Pattern :=
  alt [seq [lit ['0'], range '1' '9'], seq [lit ['1'], digitClass], seq [lit ['2'], range '0' '8']]

/-- The months of 31 days. -/
def longMonth : Pattern :=
  alt [seq [lit ['0'], anyOf ['1', '3', '5', '7', '8']], seq [lit ['1'], anyOf ['0', '2']]]

/-- The months of 30 days. -/
def shortMonth : Pattern := alt [seq [lit ['0'], anyOf ['4', '6', '9']], lit ['1', '1']]

def longDays : Pattern := alt [lit ['2', '9'], lit ['3', '0'], lit ['3', '1']]

def shortDays : Pattern := alt [lit ['2', '9'], lit ['3', '0']]

/-- The days that a month has in every year. -/
def monthDay : Pattern :=
  alt
    [seq [monthClass, lit ['-'], dayClass], seq [longMonth, lit ['-'], longDays],
    seq [shortMonth, lit ['-'], shortDays]]

def leapPair : Pattern :=
  alt
    [seq [anyOf ['0', '2', '4', '6', '8'], anyOf ['4', '8']], seq [anyOf ['2', '4', '6', '8'], lit ['0']],
    seq [anyOf ['1', '3', '5', '7', '9'], anyOf ['2', '6']]]

def leapCentury : Pattern :=
  alt
    [seq [lit ['0'], anyOf ['4', '8']], seq [anyOf ['2', '4', '6', '8'], anyOf ['0', '4', '8']],
    seq [anyOf ['1', '3', '5', '7', '9'], anyOf ['2', '6']]]

def leapYear : Pattern :=
  alt [seq [digitClass, digitClass, leapPair], seq [leapCentury, lit ['0', '0']]]

def safeDate : Pattern :=
  alt
    [seq [digitClass, digitClass, digitClass, digitClass, lit ['-'], monthDay],
    seq [leapYear, lit ['-', '0', '2', '-', '2', '9']]]

def hourClass : Pattern := alt [seq [anyOf ['0', '1'], digitClass], seq [lit ['2'], range '0' '3']]

def sixtyClass : Pattern := seq [range '0' '5', digitClass]

def safeZone : Pattern :=
  alt
    [anyOf ['Z', 'z'],
    seq [anyOf ['+', '-'], alt [seq [lit ['0'], digitClass], seq [lit ['1'], range '0' '4']],
      opt (seq [opt (lit [':']), sixtyClass])]]

def safeTime : Pattern :=
  seq
    [anyOf ['T', 't'], hourClass, lit [':'], sixtyClass,
    opt (seq [lit [':'], sixtyClass, opt (seq [lit ['.'], digitClass, upTo digitClass 8])]), safeZone]

/-- `SAFE_DATE_SQL_REGEX`, from the start of a text to its end -/
def safeDateSqlRegex (text : List Char) : Bool := seq [safeDate, opt safeTime] List.isEmpty text

/-! ### Two digits -/

/-- The patterns that read two digits, each with the numbers it reads. -/
def twoDigitClasses : List (Pattern × (ℕ → Bool)) :=
  [(monthClass, fun n => 1 ≤ n && n ≤ 12), (dayClass, fun n => 1 ≤ n && n ≤ 28),
    (longMonth, [1, 3, 5, 7, 8, 10, 12].contains), (shortMonth, [4, 6, 9, 11].contains),
    (longDays, fun n => 29 ≤ n && n ≤ 31), (shortDays, fun n => 29 ≤ n && n ≤ 30),
    (seq [digitClass, digitClass], fun _ => true), (leapPair, fun n => n % 4 = 0 && n ≠ 0),
    (leapCentury, fun n => n % 4 = 0 && n ≠ 0), (lit ['0', '0'], fun n => n = 0),
    (lit ['0', '2'], fun n => n = 2), (lit ['2', '9'], fun n => n = 29), (hourClass, fun n => n < 24),
    (sixtyClass, fun n => n < 60)]

theorem twoDigitClasses_checked : (twoDigitClasses.all fun x => [true, false].all fun b =>
    (List.range 100).all fun n => x.1 (fun _ => b) (pad2 n) == (x.2 n && b)) = true := by
  decide +kernel

theorem two_digits {p : Pattern} {ok : ℕ → Bool} (i : ℕ) (hi : twoDigitClasses[i]? = some (p, ok))
    (hrest : ∀ next a b rest, p next (a :: b :: rest) = p (fun _ => next rest) [a, b]) {n : ℕ}
    (hn : n < 100) (next : List Char → Bool) (rest : List Char) :
    p next (pad2 n ++ rest) = (ok n && next rest) := by
  have hclass := List.all_eq_true.mp twoDigitClasses_checked _ (List.mem_of_getElem? hi)
  have hboth := List.all_eq_true.mp hclass (next rest) (by cases next rest <;> simp)
  have hall := List.all_eq_true.mp hboth n (List.mem_range.mpr hn)
  exact (hrest next _ _ rest).trans (beq_iff_eq.mp hall)

section TwoDigits

variable {n : ℕ} (hn : n < 100) (next : List Char → Bool) (rest : List Char)

include hn

theorem monthClass_pad2 : monthClass next (pad2 n ++ rest) = ((1 ≤ n && n ≤ 12) && next rest) :=
  two_digits 0 rfl (fun _ _ _ _ => rfl) hn next rest

theorem dayClass_pad2 : dayClass next (pad2 n ++ rest) = ((1 ≤ n && n ≤ 28) && next rest) :=
  two_digits 1 rfl (fun _ _ _ _ => rfl) hn next rest

theorem longMonth_pad2 :
    longMonth next (pad2 n ++ rest) = ([1, 3, 5, 7, 8, 10, 12].contains n && next rest) :=
  two_digits 2 rfl (fun _ _ _ _ => rfl) hn next rest

theorem shortMonth_pad2 : shortMonth next (pad2 n ++ rest) = ([4, 6, 9, 11].contains n && next rest) :=
  two_digits 3 rfl (fun _ _ _ _ => rfl) hn next rest

theorem longDays_pad2 : longDays next (pad2 n ++ rest) = ((29 ≤ n && n ≤ 31) && next rest) :=
  two_digits 4 rfl (fun _ _ _ _ => rfl) hn next rest

theorem shortDays_pad2 : shortDays next (pad2 n ++ rest) = ((29 ≤ n && n ≤ 30) && next rest) :=
  two_digits 5 rfl (fun _ _ _ _ => rfl) hn next rest

theorem digits_pad2 : seq [digitClass, digitClass] next (pad2 n ++ rest) = next rest :=
  (two_digits 6 rfl (fun _ _ _ _ => rfl) hn next rest).trans (Bool.true_and _)

theorem leapPair_pad2 : leapPair next (pad2 n ++ rest) = ((n % 4 = 0 && n ≠ 0) && next rest) :=
  two_digits 7 rfl (fun _ _ _ _ => rfl) hn next rest

theorem leapCentury_pad2 : leapCentury next (pad2 n ++ rest) = ((n % 4 = 0 && n ≠ 0) && next rest) :=
  two_digits 8 rfl (fun _ _ _ _ => rfl) hn next rest

theorem zero_pad2 : lit ['0', '0'] next (pad2 n ++ rest) = (decide (n = 0) && next rest) :=
  two_digits 9 rfl (fun _ _ _ _ => rfl) hn next rest

theorem february_pad2 : lit ['0', '2'] next (pad2 n ++ rest) = (decide (n = 2) && next rest) :=
  two_digits 10 rfl (fun _ _ _ _ => rfl) hn next rest

theorem twentyNine_pad2 : lit ['2', '9'] next (pad2 n ++ rest) = (decide (n = 29) && next rest) :=
  two_digits 11 rfl (fun _ _ _ _ => rfl) hn next rest

end TwoDigits

/-! ### Dates -/

def dateText (y m d : ℕ) : List Char := pad4 y ++ '-' :: pad2 m ++ '-' :: pad2 d

/-- What the expression takes as a day: one of the calendar, but for the leap day of the year 0. -/
def SafeDay (t : Civil.Date) : Prop := t.Valid ∧ t ≠ ⟨0, 2, 29⟩

theorem leapYear_pad2 {a b : ℕ} (ha : a < 100) (hb : b < 100) (next : List Char → Bool)
    (rest : List Char) :
    leapYear next (pad2 a ++ (pad2 b ++ rest)) =
      ((b % 4 = 0 && b ≠ 0 || (a % 4 = 0 && a ≠ 0) && b = 0) && next rest) := by
  have hfirst : seq [digitClass, digitClass, leapPair] next (pad2 a ++ (pad2 b ++ rest)) =
      ((b % 4 = 0 && b ≠ 0) && next rest) := by
    show seq [digitClass, digitClass] (leapPair next) _ = _
    rw [digits_pad2 ha, leapPair_pad2 hb]
  have hsecond : seq [leapCentury, lit ['0', '0']] next (pad2 a ++ (pad2 b ++ rest)) =
      ((a % 4 = 0 && a ≠ 0) && (decide (b = 0) && next rest)) := by
    show leapCentury (lit ['0', '0'] next) _ = _
    rw [leapCentury_pad2 ha, zero_pad2 hb]
  unfold leapYear alt
  rw [List.any_cons, List.any_cons, List.any_nil, hfirst, hsecond, Bool.or_false, ← Bool.and_assoc,
    ← Bool.and_or_distrib_right]

def dayOfMonth (m d : ℕ) : Bool :=
  (1 ≤ m && m ≤ 12) && (1 ≤ d && d ≤ 28) ||
    ([1, 3, 5, 7, 8, 10, 12].contains m && (29 ≤ d && d ≤ 31) ||
      [4, 6, 9, 11].contains m && (29 ≤ d && d ≤ 30))

theorem monthDay_pad2 {m d : ℕ} (hm : m < 100) (hd : d < 100) (next : List Char → Bool)
    (rest : List Char) :
    monthDay next (pad2 m ++ '-' :: (pad2 d ++ rest)) = (dayOfMonth m d && next rest) := by
  have hany : seq [monthClass, lit ['-'], dayClass] next (pad2 m ++ '-' :: (pad2 d ++ rest)) =
      ((1 ≤ m && m ≤ 12) && ((1 ≤ d && d ≤ 28) && next rest)) := by
    show monthClass (lit ['-'] (dayClass next)) _ = _
    rw [monthClass_pad2 hm, ← dayClass_pad2 hd]
    rfl
  have hlong : seq [longMonth, lit ['-'], longDays] next (pad2 m ++ '-' :: (pad2 d ++ rest)) =
      ([1, 3, 5, 7, 8, 10, 12].contains m && ((29 ≤ d && d ≤ 31) && next rest)) := by
    show longMonth (lit ['-'] (longDays next)) _ = _
    rw [longMonth_pad2 hm, ← longDays_pad2 hd]
    rfl
  have hshort : seq [shortMonth, lit ['-'], shortDays] next (pad2 m ++ '-' :: (pad2 d ++ rest)) =
      ([4, 6, 9, 11].contains m && ((29 ≤ d && d ≤ 30) && next rest)) := by
    show shortMonth (lit ['-'] (shortDays next)) _ = _
    rw [shortMonth_pad2 hm, ← shortDays_pad2 hd]
    rfl
  unfold monthDay alt dayOfMonth
  rw [List.any_cons, List.any_cons, List.any_cons, List.any_nil, hany, hlong, hshort, Bool.or_false]
  simp only [Bool.and_or_distrib_right, Bool.and_assoc]

theorem days_of_month (leap : Bool) {m : ℕ} (hm : 1 ≤ m) (hm' : m ≤ 12) :
    Civil.daysBeforeMonth leap (m + 1) - Civil.daysBeforeMonth leap m =
      if [1, 3, 5, 7, 8, 10, 12].contains m then 31 else if [4, 6, 9, 11].contains m then 30
        else if leap then 29 else 28 := by
  have hall : ∀ leap : Bool, ∀ m ≤ 12, 1 ≤ m →
      Civil.daysBeforeMonth leap (m + 1) - Civil.daysBeforeMonth leap m =
        if [1, 3, 5, 7, 8, 10, 12].contains m then 31 else if [4, 6, 9, 11].contains m then 30
          else if leap then 29 else 28 := by decide
  exact hall leap m hm' hm

theorem safeDay_iff {y m d : ℕ} :
    SafeDay ⟨y, m, d⟩ ↔ dayOfMonth m d = true ∨
      (y % 100 % 4 = 0 ∧ y % 100 ≠ 0 ∨ (y / 100 % 4 = 0 ∧ y / 100 ≠ 0) ∧ y % 100 = 0) ∧
        m = 2 ∧ d = 29 := by
  have hleap : Civil.isLeap (y : ℤ) = true ↔ y % 4 = 0 ∧ (y % 100 ≠ 0 ∨ y % 400 = 0) := by
    rw [Civil.isLeap_iff]
    omega
  unfold SafeDay Civil.Date.Valid dayOfMonth
  simp only [ne_eq, Civil.Date.mk.injEq, Bool.or_eq_true, Bool.and_eq_true, decide_eq_true_eq]
  by_cases hmonth : 1 ≤ m ∧ m ≤ 12
  · obtain ⟨hm, hm'⟩ := hmonth
    rw [days_of_month _ hm hm']
    generalize Civil.isLeap (y : ℤ) = leap at hleap ⊢
    cases leap with
    | false => interval_cases m <;> simp at hleap ⊢ <;> omega
    | true => interval_cases m <;> simp at hleap ⊢ <;> omega
  · have hlong : ¬ [1, 3, 5, 7, 8, 10, 12].contains m = true := by
      simp
      omega
    have hshort : ¬ [4, 6, 9, 11].contains m = true := by
      simp
      omega
    simp only [hlong, hshort, Bool.false_eq_true, false_and, or_false]
    omega

/-- **A date**, before any rest. -/
theorem safeDate_date {y m d : ℕ} (hy : y < 10000) (hm : m < 100) (hd : d < 100)
    (next : List Char → Bool) (rest : List Char) :
    safeDate next (dateText y m d ++ rest) = true ↔ SafeDay ⟨y, m, d⟩ ∧ next rest = true := by
  have htext : dateText y m d ++ rest =
      pad2 (y / 100) ++ (pad2 (y % 100) ++ '-' :: (pad2 m ++ '-' :: (pad2 d ++ rest))) := by
    unfold dateText
    rw [pad4_eq]
    simp
  have hcommon : seq [digitClass, digitClass, digitClass, digitClass, lit ['-'], monthDay] next
      (dateText y m d ++ rest) = (dayOfMonth m d && next rest) := by
    rw [htext]
    show seq [digitClass, digitClass] (seq [digitClass, digitClass] (lit ['-'] (monthDay next))) _ = _
    rw [digits_pad2 (by omega), digits_pad2 (by omega), ← monthDay_pad2 hm hd]
    rfl
  have hleap : seq [leapYear, lit ['-', '0', '2', '-', '2', '9']] next (dateText y m d ++ rest) =
      ((y % 100 % 4 = 0 && y % 100 ≠ 0 || (y / 100 % 4 = 0 && y / 100 ≠ 0) && y % 100 = 0) &&
        (decide (m = 2) && (decide (d = 29) && next rest))) := by
    rw [htext]
    have hday : lit ['-', '0', '2', '-', '2', '9'] next ('-' :: (pad2 m ++ '-' :: (pad2 d ++ rest))) =
        lit ['0', '2'] (lit ['-'] (lit ['2', '9'] next)) (pad2 m ++ '-' :: (pad2 d ++ rest)) := rfl
    show leapYear (lit ['-', '0', '2', '-', '2', '9'] next) _ = _
    rw [leapYear_pad2 (by omega) (by omega), hday, february_pad2 hm, ← twentyNine_pad2 hd]
    rfl
  unfold safeDate alt
  rw [List.any_cons, List.any_cons, List.any_nil, hcommon, hleap, Bool.or_false, safeDay_iff]
  simp only [Bool.or_eq_true, Bool.and_eq_true, decide_eq_true_eq, ne_eq]
  tauto

/-! ### Times of day -/

theorem hourClass_pad2 {n : ℕ} (hn : n < 24) (next : List Char → Bool) (rest : List Char) :
    hourClass next (pad2 n ++ rest) = next rest := by
  have hall := two_digits 12 rfl (fun _ _ _ _ => rfl) (show n < 100 by omega) next rest
  rwa [decide_eq_true hn, Bool.true_and] at hall

theorem sixtyClass_pad2 {n : ℕ} (hn : n < 60) (next : List Char → Bool) (rest : List Char) :
    sixtyClass next (pad2 n ++ rest) = next rest := by
  have hall := two_digits 13 rfl (fun _ _ _ _ => rfl) (show n < 100 by omega) next rest
  rwa [decide_eq_true hn, Bool.true_and] at hall

theorem digitClass_digit (n : ℕ) (next : List Char → Bool) (rest : List Char) :
    digitClass next (digit n :: rest) = next rest := by
  have hall : ∀ b : Bool, ∀ k < 10, digitClass (fun _ => b) [Char.ofNat (48 + k)] = b := by decide +kernel
  exact hall (next rest) (n % 10) (Nat.mod_lt n (by omega))

theorem seq_nil (next : List Char → Bool) : seq [] next = next := rfl

theorem seq_cons (p : Pattern) (ps : List Pattern) (next : List Char → Bool) :
    seq (p :: ps) next = p (seq ps next) := rfl

theorem lit_head (c : Char) (next : List Char → Bool) (rest : List Char) :
    lit [c] next (c :: rest) = next rest := by
  simp [lit, seq, one]

theorem opt_eq_true {p : Pattern} {next : List Char → Bool} {l : List Char} :
    opt p next l = true ↔ p next l = true ∨ next l = true := Bool.or_eq_true_iff

theorem upTo_succ (p : Pattern) (n : ℕ) (next : List Char → Bool) (l : List Char) :
    upTo p (n + 1) next l = (p (upTo p n next) l || next l) := rfl

theorem fraction_pad3 (n : ℕ) {next : List Char → Bool} {rest : List Char} (h : next rest = true) :
    opt (seq [lit ['.'], digitClass, upTo digitClass 8]) next ('.' :: (pad3 n ++ rest)) = true := by
  have hdone : upTo digitClass 6 next rest = true := by
    rw [upTo_succ, h, Bool.or_true]
  have hdigits : digitClass (upTo digitClass 8 next) (pad3 n ++ rest) = true := by
    show digitClass (upTo digitClass 8 next) (digit (n / 100) :: digit (n / 10) :: digit n :: rest) = true
    rw [digitClass_digit, upTo_succ, digitClass_digit, upTo_succ, digitClass_digit, hdone]
    rfl
  rw [opt_eq_true]
  left
  rw [seq_cons, lit_head, seq_cons, seq_cons, seq_nil, hdigits]

/-- **A time of day**, as `toISOString` writes it. -/
theorem safeTime_time {n : ℕ} (hn : n < 86400000) :
    safeTime List.isEmpty ('T' :: timeText n ++ ['Z']) = true := by
  have htext : 'T' :: timeText n ++ ['Z'] = 'T' :: (pad2 (n / 3600000) ++ ':' ::
      (pad2 (n / 60000 % 60) ++ ':' :: (pad2 (n / 1000 % 60) ++ '.' :: (pad3 (n % 1000) ++ ['Z'])))) := by
    simp [timeText]
  have hzone : safeZone List.isEmpty ['Z'] = true := by decide +kernel
  have hseconds : opt (seq [lit [':'], sixtyClass, opt (seq [lit ['.'], digitClass, upTo digitClass 8])])
      (safeZone List.isEmpty)
      (':' :: (pad2 (n / 1000 % 60) ++ '.' :: (pad3 (n % 1000) ++ ['Z']))) = true := by
    rw [opt_eq_true]
    left
    rw [seq_cons, lit_head, seq_cons, sixtyClass_pad2 (by omega), seq_cons, seq_nil]
    exact fraction_pad3 (n % 1000) hzone
  rw [htext]
  show hourClass (lit [':'] (sixtyClass (opt (seq [lit [':'], sixtyClass,
    opt (seq [lit ['.'], digitClass, upTo digitClass 8])]) (safeZone List.isEmpty)))) _ = true
  rw [hourClass_pad2 (by omega), lit_head, sixtyClass_pad2 (by omega), hseconds]

/-! ### Texts of dates -/

variable {t : Civil.Date}

theorem eq_digit {ch : Char} {k : ℕ} (h : digitVal? ch = some k) : ch = digit k ∧ k < 10 := by
  unfold digitVal? at h
  split at h
  · rename_i hrange
    obtain rfl := Option.some.inj h
    refine ⟨?_, by omega⟩
    unfold digit
    rw [show 48 + (ch.toNat - 48) % 10 = ch.toNat by omega, Char.ofNat_toNat]
  · cases h

theorem pad2_of_number? {a b : Char} {n : ℕ} (h : number? [a, b] = some n) :
    n < 100 ∧ [a, b] = pad2 n := by
  have hbind : ((digitVal? a).map fun d => 10 * 0 + d).bind
      (fun x => (digitVal? b).map fun d => 10 * x + d) = some n := h
  simp only [Option.bind_eq_some_iff, Option.map_eq_some_iff] at hbind
  obtain ⟨_, ⟨x, hx, rfl⟩, y, hy, rfl⟩ := hbind
  obtain ⟨rfl, hx'⟩ := eq_digit hx
  obtain ⟨rfl, hy'⟩ := eq_digit hy
  refine ⟨by omega, ?_⟩
  unfold pad2 digit
  rw [show (10 * (10 * 0 + x) + y) / 10 % 10 = x % 10 by omega,
    show (10 * (10 * 0 + x) + y) % 10 = y % 10 by omega]

theorem pad4_of_number? {a b c d : Char} {n : ℕ} (h : number? [a, b, c, d] = some n) :
    n < 10000 ∧ [a, b, c, d] = pad4 n := by
  have hbind : ((((digitVal? a).map fun d => 10 * 0 + d).bind
      (fun x => (digitVal? b).map fun d => 10 * x + d)).bind
        (fun x => (digitVal? c).map fun d => 10 * x + d)).bind
          (fun x => (digitVal? d).map fun d => 10 * x + d) = some n := h
  simp only [Option.bind_eq_some_iff, Option.map_eq_some_iff] at hbind
  obtain ⟨_, ⟨_, ⟨_, ⟨w, hw, rfl⟩, x, hx, rfl⟩, y, hy, rfl⟩, z, hz, rfl⟩ := hbind
  obtain ⟨rfl, hw'⟩ := eq_digit hw
  obtain ⟨rfl, hx'⟩ := eq_digit hx
  obtain ⟨rfl, hy'⟩ := eq_digit hy
  obtain ⟨rfl, hz'⟩ := eq_digit hz
  refine ⟨by omega, ?_⟩
  unfold pad4 pad3 pad2 digit
  rw [show (10 * (10 * (10 * (10 * 0 + w) + x) + y) + z) / 1000 % 10 = w % 10 by omega,
    show (10 * (10 * (10 * (10 * 0 + w) + x) + y) + z) / 100 % 10 = x % 10 by omega,
    show (10 * (10 * (10 * (10 * 0 + w) + x) + y) + z) / 10 % 10 = y % 10 by omega,
    show (10 * (10 * (10 * (10 * 0 + w) + x) + y) + z) % 10 = z % 10 by omega]

theorem dateText_of_isoDateOnly {s : List Char} (h : isoDateOnly s = some t) :
    ∃ y m d : ℕ, y < 10000 ∧ m < 100 ∧ d < 100 ∧ s = dateText y m d ∧ t = ⟨y, m, d⟩ := by
  have hmatch : matchDate s = some (t, []) := by
    unfold isoDateOnly at h
    split at h
    · rename_i hmatch
      rw [hmatch, Option.some.inj h]
    · cases h
  unfold matchDate at hmatch
  split at hmatch
  · simp only [Option.bind_eq_bind, Option.bind_eq_some_iff, Option.some.injEq, Prod.mk.injEq] at hmatch
    obtain ⟨y, hy, m, hm, d, hd, rfl, rfl⟩ := hmatch
    obtain ⟨hy', hyear⟩ := pad4_of_number? hy
    obtain ⟨hm', hmonth⟩ := pad2_of_number? hm
    obtain ⟨hd', hday⟩ := pad2_of_number? hd
    refine ⟨y, m, d, hy', hm', hd', ?_, rfl⟩
    unfold dateText
    rw [← hyear, ← hmonth, ← hday]
    rfl
  · cases hmatch

/-! ### The contract -/

/-- What the stored form of a text must be, and which dates are accepted. -/
structure DateContract (s : List Char) : Prop where
  accepted : ∀ r, parseAndValidateIsoDate s = some r → parseAndValidateIsoDate r = some r
  matched : ∀ r, parseAndValidateIsoDate s = some r → safeDateSqlRegex r = true
  dates : isoDateOnly s ≠ none →
    ((parseAndValidateIsoDate s).isSome = true ↔ safeDateSqlRegex s = true)

theorem realDate_iff : realDate t = true ↔ t.Valid := by
  unfold realDate
  simp only [Bool.and_eq_true, decide_eq_true_eq, beq_iff_eq]
  constructor
  · rintro ⟨-, hround⟩
    rw [← hround]
    exact Civil.valid_civilFromDays _
  · intro h
    exact ⟨⟨⟨⟨h.1, h.2.1⟩, h.2.2.1⟩, h.day_le⟩, Civil.civilFromDays_daysFromCivil h⟩

theorem isoTime_date {s : List Char} (h : isoDateOnly s = some t) :
    isoTime s = if t.Valid then some (Civil.daysFromCivil t * msPerDay) else none := by
  unfold isoTime
  rw [h]
  simp only [realDate_iff]

theorem utcDate_date (h : t.Valid) : utcDate (Civil.daysFromCivil t * msPerDay) = t := by
  unfold utcDate
  rw [Int.mul_ediv_cancel _ (by decide), Civil.civilFromDays_daysFromCivil h]

theorem safeDateSqlRegex_date {y m d : ℕ} (hy : y < 10000) (hm : m < 100) (hd : d < 100) :
    safeDateSqlRegex (dateText y m d) = true ↔ SafeDay ⟨y, m, d⟩ := by
  unfold safeDateSqlRegex
  rw [seq_cons, ← List.append_nil (dateText y m d), safeDate_date hy hm hd, seq_cons, opt_eq_true]
  exact and_iff_left (Or.inr rfl)

theorem safeDateSqlRegex_toISOString {ms : ℤ} (h : FourDigits ms) :
    safeDateSqlRegex (toISOString ms) = true ↔ utcDate ms ≠ ⟨0, 2, 29⟩ := by
  have hyear : (((utcDate ms).year.toNat : ℕ) : ℤ) = (utcDate ms).year := Int.toNat_of_nonneg h.1
  have htext : toISOString ms = dateText (utcDate ms).year.toNat (utcDate ms).month (utcDate ms).day ++
      ('T' :: timeText (utcMillisOfDay ms) ++ ['Z']) := by
    have hpad : yearText (utcDate ms).year = pad4 (utcDate ms).year.toNat := if_pos h
    unfold toISOString dateText
    rw [hpad]
    simp
  have hday := utcDate_day_le ms
  have hyear' := h.2
  unfold safeDateSqlRegex
  rw [htext, seq_cons, safeDate_date (by omega) (utcDate_month_lt ms) (by omega), seq_cons, opt_eq_true,
    hyear]
  constructor
  · rintro ⟨hsafe, -⟩
    exact hsafe.2
  · intro hleap
    exact ⟨⟨Civil.valid_civilFromDays _, hleap⟩, Or.inl (safeTime_time (utcMillisOfDay_lt ms))⟩

/-- **The stored form of a text** is accepted and matched again, and a date is accepted if and only if
it is matched, unless the instant that the text denotes lies outside of the years 0 to 9999 or on the
leap day of the year 0. -/
theorem dateContract_iff (s : List Char) :
    DateContract s ↔ ∀ ms, isoTime s = some ms → FourDigits ms ∧ utcDate ms ≠ ⟨0, 2, 29⟩ := by
  constructor
  · intro h ms hms
    have hr : parseAndValidateIsoDate s = some (toISOString ms) := by
      rw [parseAndValidateIsoDate_eq, hms, Option.map_some]
    have hagain := h.accepted _ hr
    rw [parseAndValidateIsoDate_eq, isoTime_toISOString] at hagain
    by_cases hyear : FourDigits ms
    · exact ⟨hyear, (safeDateSqlRegex_toISOString hyear).mp (h.matched _ hr)⟩
    · rw [if_neg hyear] at hagain
      cases hagain
  · intro h
    have hread : ∀ r, parseAndValidateIsoDate s = some r →
        ∃ ms, r = toISOString ms ∧ FourDigits ms ∧ utcDate ms ≠ ⟨0, 2, 29⟩ := by
      intro r hr
      rw [parseAndValidateIsoDate_eq, Option.map_eq_some_iff] at hr
      obtain ⟨ms, hms, rfl⟩ := hr
      exact ⟨ms, rfl, h ms hms⟩
    refine ⟨fun r hr => ?_, fun r hr => ?_, fun hdate => ?_⟩
    · obtain ⟨ms, rfl, hyear, -⟩ := hread r hr
      rw [parseAndValidateIsoDate_eq, isoTime_toISOString, if_pos hyear, Option.map_some]
    · obtain ⟨ms, rfl, hyear, hleap⟩ := hread r hr
      exact (safeDateSqlRegex_toISOString hyear).mpr hleap
    · obtain ⟨t, ht⟩ := Option.ne_none_iff_exists'.mp hdate
      have htime := isoTime_date ht
      obtain ⟨y, m, d, hy, hm, hd, rfl, rfl⟩ := dateText_of_isoDateOnly ht
      rw [safeDateSqlRegex_date hy hm hd, parseAndValidateIsoDate_eq, Option.isSome_map]
      unfold SafeDay
      by_cases hvalid : Civil.Date.Valid ⟨y, m, d⟩
      · rw [if_pos hvalid] at htime
        have hleap := (h _ htime).2
        rw [utcDate_date hvalid] at hleap
        rw [htime]
        exact iff_of_true rfl ⟨hvalid, hleap⟩
      · rw [if_neg hvalid] at htime
        rw [htime]
        exact iff_of_false Bool.false_ne_true fun hsafe => hvalid hsafe.1

/-- The leap day of the year 0 is accepted and not matched; an hour before the end of the year 9999, in
a zone that is behind, lies in the year 10000. -/
theorem dateContract_fails :
    ¬ DateContract "0000-02-29".toList ∧ ¬ DateContract "9999-12-31T23:00:00-02:00".toList := by
  have hyear0 : parseAndValidateIsoDate "0000-02-29".toList = some "0000-02-29T00:00:00.000Z".toList ∧
      safeDateSqlRegex "0000-02-29T00:00:00.000Z".toList = false := by decide +kernel
  have hyear10000 : parseAndValidateIsoDate "9999-12-31T23:00:00-02:00".toList =
        some "+010000-01-01T01:00:00.000Z".toList ∧
      parseAndValidateIsoDate "+010000-01-01T01:00:00.000Z".toList = none := by decide +kernel
  refine ⟨fun h => ?_, fun h => ?_⟩
  · have hmatched := h.matched _ hyear0.1
    rw [hyear0.2] at hmatched
    cases hmatched
  · have haccepted := h.accepted _ hyear10000.1
    rw [hyear10000.2] at haccepted
    cases haccepted

end CalmBoard.CustomFields
