import Mathlib.Data.Rat.Defs
import Mathlib.Data.Prod.Lex
import Mathlib.Order.Lattice
import Mathlib.Algebra.Order.Ring.Rat
import Mathlib.Algebra.Order.Ring.Int
import Mathlib.Data.List.Sort
import CalmBoard.Lib.IsoDate
import CalmBoard.Lib.Text

/-!
# CalmBoard.Values — the values that cross the database border

The repositories read and write PostgreSQL columns through JavaScript values.  This module fixes
both sides and the conversions between them:

* `Timestamptz` counts microseconds, `JsDate` milliseconds; reading a column truncates
  (`Timestamptz.toDate`), writing a date does not lose anything.
* `Number` is a double: PostgreSQL orders `NaN` after every other value, JavaScript does not order
  it at all.
* `int4`, `timestamp`, `varcharColumn` write to a column of that type, or fail.
* `JsValue` is a value of a request body or a `jsonb` column, `RepoError` what a repository call can
  end with.
-/

namespace CalmBoard

/-- A row id.  PostgreSQL orders `uuid` values by their 128 bits, canonical texts compare alike. -/
abbrev Uuid := ℕ

/-! ### Dates -/

/-- `timestamp with time zone`, in microseconds since the epoch. -/
structure Timestamptz where
  micros : ℤ
  deriving DecidableEq

/-- A JavaScript `Date`: a time value in milliseconds, or an invalid date. -/
inductive JsDate where
  | invalid
  | time (ms : ℤ)
  deriving DecidableEq

instance : LinearOrder Timestamptz :=
  LinearOrder.lift' Timestamptz.micros fun a b h => by cases a; cases b; cases h; rfl

theorem Timestamptz.lt_iff {a b : Timestamptz} : a < b ↔ a.micros < b.micros := Iff.rfl

theorem Timestamptz.le_iff {a b : Timestamptz} : a ≤ b ↔ a.micros ≤ b.micros := Iff.rfl

/-- The time value the driver reads: digits after the millisecond are cut off. -/
def Timestamptz.millis (t : Timestamptz) : ℤ := t.micros / 1000

/-- Read a column as a `Date`. -/
def Timestamptz.toDate (t : Timestamptz) : JsDate := .time t.millis

/-- Write a time value. -/
def Timestamptz.ofMillis (ms : ℤ) : Timestamptz := ⟨ms * 1000⟩

/-- A column value without digits after the millisecond. -/
def Timestamptz.WholeMillis (t : Timestamptz) : Prop := t.micros % 1000 = 0

instance (t : Timestamptz) : Decidable t.WholeMillis := inferInstanceAs (Decidable (_ = _))

/-- Write a date; an invalid date is refused by the driver. -/
def JsDate.toTimestamptz : JsDate → Option Timestamptz
  | .invalid => none
  | .time ms => some (.ofMillis ms)

@[simp] theorem Timestamptz.millis_ofMillis (ms : ℤ) : (ofMillis ms).millis = ms := by
  simp [ofMillis, millis]

theorem Timestamptz.ofMillis_millis_le (t : Timestamptz) : ofMillis t.millis ≤ t := by
  rw [le_iff]
  simp only [ofMillis, millis]
  omega

theorem Timestamptz.ofMillis_millis_eq_iff {t : Timestamptz} :
    ofMillis t.millis = t ↔ t.WholeMillis := by
  cases t with
  | mk micros =>
    simp only [ofMillis, millis, WholeMillis, Timestamptz.mk.injEq]
    omega

/-! ### Numbers -/

/-- A double: JavaScript's `number`, PostgreSQL's `double precision`. -/
inductive Number where
  | nan
  | negInf
  | fin (q : ℚ)
  | posInf
  deriving DecidableEq

namespace Number

/-- Position in PostgreSQL's order: `-Infinity`, finite values, `Infinity`, `NaN`. -/
def sqlKey : Number → ℕ ×ₗ ℚ
  | .negInf => toLex (0, 0)
  | .fin q => toLex (1, q)
  | .posInf => toLex (2, 0)
  | .nan => toLex (3, 0)

theorem sqlKey_injective : Function.Injective sqlKey := by
  intro a b h
  cases a <;> cases b <;> simp_all [sqlKey]

instance : LinearOrder Number := LinearOrder.lift' sqlKey sqlKey_injective

/-- `Number.isFinite`. -/
def isFinite : Number → Bool
  | .fin _ => true
  | _ => false

/-- The integer a number is, `Number.isInteger`. -/
def toInt? : Number → Option ℤ
  | .fin q => if q.den = 1 then some q.num else none
  | _ => none

instance : Coe ℤ Number := ⟨fun n => .fin n⟩

@[simp] theorem toInt?_intCast (n : ℤ) : toInt? (.fin n) = some n := by simp [toInt?]

theorem eq_of_toInt? {n : Number} {k : ℤ} (h : n.toInt? = some k) : n = .fin k := by
  cases n with
  | fin q =>
    rw [toInt?] at h
    split at h
    · next hq =>
      cases h
      rw [Rat.coe_int_num_of_den_eq_one hq]
    · cases h
  | nan => cases h
  | negInf => cases h
  | posInf => cases h

/-- JavaScript `<`: false as soon as `NaN` is involved. -/
def jsLt (a b : Number) : Bool := a != .nan && b != .nan && a < b

/-- JavaScript `===`. -/
def jsEq (a b : Number) : Bool := a != .nan && a == b

end Number

/-! ### Values and objects -/

/-- A JavaScript value as request bodies and `jsonb` columns carry it. -/
inductive JsValue where
  | undefined
  | null
  | boolean (b : Bool)
  | number (n : Number)
  | string (s : String)
  | date (d : JsDate)
  | array (xs : List JsValue)
  | object (fields : List (String × JsValue))

/-- The own properties of an object, in their order. -/
abbrev JsObject := List (String × JsValue)

namespace JsObject

def get? (o : JsObject) (key : String) : Option JsValue := (o.find? fun p => p.1 = key).map Prod.snd

/-- `o[key] = value`: in place for an own property, else at the end. -/
def set (o : JsObject) (key : String) (value : JsValue) : JsObject :=
  if o.any fun p => p.1 = key then o.map fun p => if p.1 = key then (key, value) else p
  else o ++ [(key, value)]

/-- `delete o[key]` -/
def delete (o : JsObject) (key : String) : JsObject := o.filter fun p => p.1 ≠ key

/-- `{ ...o, ...p }` -/
def spread (o p : JsObject) : JsObject := p.foldl (fun acc kv => set acc kv.1 kv.2) o

end JsObject

mutual

/-- Equal texts under `JSON.stringify`, for values without dates and `undefined`. -/
def JsValue.jsonEq : JsValue → JsValue → Bool
  | .null, .null => true
  | .boolean a, .boolean b => a == b
  | .number a, .number b => a == b
  | .string a, .string b => a == b
  | .array xs, .array ys => jsonEqList xs ys
  | .object o, .object p => jsonEqFields o p
  | _, _ => false

def jsonEqList : List JsValue → List JsValue → Bool
  | [], [] => true
  | x :: xs, y :: ys => x.jsonEq y && jsonEqList xs ys
  | _, _ => false

def jsonEqFields : JsObject → JsObject → Bool
  | [], [] => true
  | (k, x) :: o, (l, y) :: p => k == l && x.jsonEq y && jsonEqFields o p
  | _, _ => false

end

/-- `jsonb` keeps the keys of an object by length, then bytewise. -/
def jsonbKeyLe (p q : String × JsValue) : Prop :=
  p.1.utf8ByteSize < q.1.utf8ByteSize ∨ p.1.utf8ByteSize = q.1.utf8ByteSize ∧ p.1 ≤ q.1

instance : DecidableRel jsonbKeyLe := fun p q => by
  unfold jsonbKeyLe
  infer_instance

mutual

/-- A value written to a `jsonb` column and read back. -/
def JsValue.toJsonb : JsValue → JsValue
  | .undefined => .null
  | .null => .null
  | .boolean b => .boolean b
  | .number n => if n.isFinite then .number n else .null
  | .string s => .string s
  | .date .invalid => .null
  | .date (.time ms) => .string (String.ofList (IsoDate.toISOString ms))
  | .array xs => .array (jsonbList xs)
  | .object o => .object ((jsonbFields o).insertionSort jsonbKeyLe)

def jsonbList : List JsValue → List JsValue
  | [] => []
  | x :: xs => x.toJsonb :: jsonbList xs

/-- Properties that are `undefined` are left out. -/
def jsonbFields : JsObject → JsObject
  | [] => []
  | (_, .undefined) :: o => jsonbFields o
  | (k, x) :: o => (k, x.toJsonb) :: jsonbFields o

end

def JsObject.toJsonb (o : JsObject) : JsObject := (jsonbFields o).insertionSort jsonbKeyLe

/-- What the runtimes know: the time zones of `Intl` and of PostgreSQL, whether a text parses as an
`http:` or `https:` URL, the double nearest to a rational, the texts of numbers and dates, and the
`year-month-day` of a time value in a time zone (`none` where `Intl` does not know the zone). -/
structure Runtime where
  validZone : String → Bool
  pgZone : String → Bool
  httpUrl : String → Bool
  double : ℚ → Number
  numberText : Number → String
  dateText : JsDate → String
  localDate : String → ℤ → Option String

mutual

/-- `String(value)`; the items of an array are joined with commas. -/
def JsValue.text (rt : Runtime) : JsValue → String
  | .undefined => "undefined"
  | .null => "null"
  | .boolean b => if b then "true" else "false"
  | .number n => rt.numberText n
  | .string s => s
  | .date d => rt.dateText d
  | .array xs => ",".intercalate (itemTexts rt xs)
  | .object _ => "[object Object]"

def itemTexts (rt : Runtime) : List JsValue → List String
  | [] => []
  | .undefined :: xs | .null :: xs => "" :: itemTexts rt xs
  | x :: xs => x.text rt :: itemTexts rt xs

end

namespace Number

/-- `a + b` in doubles. -/
def add (rt : Runtime) : Number → Number → Number
  | .fin p, .fin q => rt.double (p + q)
  | .nan, _ | _, .nan | .posInf, .negInf | .negInf, .posInf => .nan
  | .posInf, _ | _, .posInf => .posInf
  | .negInf, _ | _, .negInf => .negInf

/-- `a / 2` in doubles. -/
def half (rt : Runtime) : Number → Number
  | .fin p => rt.double (p / 2)
  | a => a

end Number

/-! ### Errors -/

/-- How a repository call fails. -/
inductive RepoError where
  /-- `TenantConflictError` -/
  | conflict (message : String)
  /-- `TenantResourceNotFoundError` -/
  | notFound (resource : String)
  /-- `TenantPermissionDeniedError` -/
  | denied (message : String)
  /-- `AnalyticsIntegrityError` -/
  | integrity (message : String)
  /-- a plain `Error` -/
  | error (message : String)
  /-- a statement PostgreSQL refuses: a failed cast, a violated constraint, a raising trigger -/
  | database (reason : String)
  deriving DecidableEq

/-! ### Columns -/

/-- A number written to an `integer` column. -/
def int4 (n : Number) : Except RepoError ℤ :=
  match n.toInt? with
  | some k =>
    if -2147483648 ≤ k ∧ k ≤ 2147483647 then .ok k else .error (.database "integer out of range")
  | none => .error (.database "invalid input syntax for type integer")

/-- A date written to a timestamp column. -/
def timestamp (d : JsDate) : Except RepoError Timestamptz :=
  match d.toTimestamptz with
  | some t => .ok t
  | none => .error (.database "invalid input syntax for type timestamp with time zone")

/-- A text written to a `varchar(n)` column. -/
def varcharColumn (n : ℕ) (s : String) : Except RepoError String :=
  match Text.varchar n s with
  | some t => .ok t
  | none => .error (.database "value too long for type character varying")

theorem int4_ok {n : Number} {k : ℤ} (h : int4 n = .ok k) : n = .fin k := by
  unfold int4 at h
  split at h
  · next m hm =>
    split at h
    · cases h
      exact Number.eq_of_toInt? hm
    · cases h
  · cases h

theorem int4_fin {k : ℤ} (h : -2147483648 ≤ k ∧ k ≤ 2147483647) : int4 (.fin k) = .ok k := by
  simp only [int4, Number.toInt?_intCast]
  exact if_pos h

end CalmBoard
