import Mathlib.Algebra.GroupWithZero.Nat
import Mathlib.Data.List.Basic
import Mathlib.Data.List.DropRight

/-!
# CalmBoard.Lib.Text — the JavaScript string operations the repositories use

Texts are `String`s; the operations work on their characters.

* `trim` removes white space and line terminators at both ends; `trim_trim` says that once is
  enough.
* `utf16Length` is JavaScript's `length`, which counts UTF-16 code units.
-/

namespace CalmBoard.Text

/-- White space and line terminators in the sense of `String.prototype.trim`. -/
def isSpace (ch : Char) : Bool :=
  let n := ch.toNat
  (9 ≤ n && n ≤ 13) || n == 32 || n == 0xA0 || n == 0x1680 || (0x2000 ≤ n && n ≤ 0x200A) ||
    n == 0x2028 || n == 0x2029 || n == 0x202F || n == 0x205F || n == 0x3000 || n == 0xFEFF

def trimChars (l : List Char) : List Char := (l.dropWhile isSpace).rdropWhile isSpace

def trim (s : String) : String := String.ofList (trimChars s.toList)

def utf16Length (s : String) : ℕ := (s.toList.map fun ch => if ch.toNat < 0x10000 then 1 else 2).sum

/-- Storing a text in a `varchar(n)` column: excess spaces are cut off, other excess is refused. -/
def varchar (n : ℕ) (s : String) : Option String :=
  if s.toList.length ≤ n then some s
  else if (s.toList.drop n).all (· = ' ') then some (String.ofList (s.toList.take n)) else none

@[simp] theorem toList_trim (s : String) : (trim s).toList = trimChars s.toList := by simp [trim]

/-- A text starts and ends with a character that is no white space, or is empty. -/
def Trimmed (l : List Char) : Prop :=
  (∀ ch, l.head? = some ch → isSpace ch = false) ∧ ∀ ch, l.getLast? = some ch → isSpace ch = false

theorem trimChars_of_trimmed {l : List Char} (h : Trimmed l) : trimChars l = l := by
  have hfront : l.dropWhile isSpace = l := by
    cases l with
    | nil => rfl
    | cons a l => simp [h.1 a rfl]
  unfold trimChars
  rw [hfront]
  rcases List.eq_nil_or_concat' l with rfl | ⟨l', a, rfl⟩
  · rfl
  · rw [List.rdropWhile_concat_neg]
    simp [h.2 a (by simp)]

theorem trimmed_trimChars (l : List Char) : Trimmed (trimChars l) := by
  have hfront : ∀ ch, (l.dropWhile isSpace).head? = some ch → isSpace ch = false := by
    intro ch hch
    have := List.head?_dropWhile_not isSpace l
    rw [hch] at this
    simpa using this
  constructor
  · intro ch hch
    apply hfront
    obtain ⟨t, ht⟩ := List.rdropWhile_prefix isSpace (l := l.dropWhile isSpace)
    unfold trimChars at hch
    rw [← ht, List.head?_append, hch]
    rfl
  · intro ch hch
    unfold trimChars at hch
    have hne : (l.dropWhile isSpace).rdropWhile isSpace ≠ [] := by
      intro h
      rw [h] at hch
      simp at hch
    have hlast := List.rdropWhile_last_not isSpace (l.dropWhile isSpace) hne
    rw [List.getLast?_eq_some_getLast hne, Option.some.injEq] at hch
    rw [hch] at hlast
    simpa using hlast

@[simp] theorem trimChars_trimChars (l : List Char) : trimChars (trimChars l) = trimChars l :=
  trimChars_of_trimmed (trimmed_trimChars l)

/-- Trimming twice is trimming once. -/
@[simp] theorem trim_trim (s : String) : trim (trim s) = trim s := by
  rw [← String.toList_inj]
  simp

theorem isSpace_of_trim_eq {s : String} (h : trim s = "") : ∀ ch ∈ s.toList, isSpace ch = true := by
  have hchars : trimChars s.toList = [] := by rw [← toList_trim, h]; rfl
  have hdrop : s.toList.dropWhile isSpace = [] := by
    cases hd : s.toList.dropWhile isSpace with
    | nil => rfl
    | cons a l =>
      have ha := List.head?_dropWhile_not isSpace s.toList
      rw [hd] at ha
      have hr := List.rdropWhile_eq_nil_iff.mp hchars a (hd ▸ List.mem_cons_self)
      simp [hr] at ha
  exact List.dropWhile_eq_nil_iff.mp hdrop

theorem mem_of_varchar {n : ℕ} {s t : String} (h : varchar n s = some t) {ch : Char}
    (hch : ch ∈ t.toList) : ch ∈ s.toList := by
  unfold varchar at h
  split_ifs at h
  · cases h
    exact hch
  · cases h
    rw [String.toList_ofList] at hch
    exact List.mem_of_mem_take hch

end CalmBoard.Text
