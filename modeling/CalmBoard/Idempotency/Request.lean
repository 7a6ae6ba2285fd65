import Mathlib.Data.List.Lex
import CalmBoard.Values
import CalmBoard.Lib.Fallible

/-!
# CalmBoard.Idempotency.Request — requests and responses of idempotent calls

* `Unknown`: a JavaScript value as a request or an operation can carry it.
* `canonicalize`, `hashIdempotencyRequest`: the identity of a request.
* `normalizeJsonResponse`: what is kept of a response.
-/

namespace CalmBoard.Idempotency

/-- A value of type `unknown`.  `circular` is an object that is open around the place it stands at,
`unsupported` a bigint, or a function or symbol. -/
inductive Unknown where
  | undefined
  | null
  | boolean (b : Bool)
  | number (n : Number)
  | string (s : String)
  | date (d : JsDate)
  | array (xs : List Unknown)
  | object (fields : List (String × Unknown))
  | circular
  | unsupported (bigint : Bool)

/-! ### canonicalize -/

/-- Position of a character in the order of UTF-16 texts: a surrogate pair stands before the
characters from U+E000 on. -/
def utf16Rank (ch : Char) : ℕ :=
  if ch.toNat < 0xD800 then ch.toNat
  else if 0x10000 ≤ ch.toNat then ch.toNat - 0x10000 + 0xD800
  else ch.toNat + 0x100000

/-- The order of `sort()` on the keys of an object. -/
def keyLe {α : Type} (p q : String × α) : Prop := p.1.toList.map utf16Rank ≤ q.1.toList.map utf16Rank

instance {α : Type} : DecidableRel (keyLe (α := α)) := fun p q =>
  inferInstanceAs (Decidable (p.1.toList.map utf16Rank ≤ q.1.toList.map utf16Rank))

def toISOString : JsDate → Except RepoError Unknown
  | .invalid => .error (.error "Invalid time value")
  | .time ms => .ok (.string (String.ofList (IsoDate.toISOString ms)))

/-- The properties of an object one after the other; an own property `__proto__` is lost, since it
is assigned and not defined. -/
def collect (entries : List (String × Except RepoError Unknown)) : Except RepoError Unknown := do
  let fields ← (entries.insertionSort keyLe).mapM fun p => (fun x => (p.1, x)) <$> p.2
  return .object (fields.filter fun p => p.1 ≠ "__proto__")

mutual

def canonicalize : Unknown → Except RepoError Unknown
  | .null => .ok .null
  | .string s => .ok (.string s)
  | .boolean b => .ok (.boolean b)
  | .number n =>
    if n.isFinite then .ok (.number n)
    else .error (.conflict "idempotency request contains a non-finite number")
  | .date d => toISOString d
  | .array xs => .array <$> canonicalizeItems xs
  | .object fields => collect (canonicalEntries fields)
  | .circular => .error (.conflict "idempotency request contains a circular value")
  | .undefined => .ok .null
  | .unsupported _ => .error (.conflict "idempotency request contains an unsupported value")

def canonicalizeItems : List Unknown → Except RepoError (List Unknown)
  | [] => .ok []
  | x :: xs => do
    let y ← canonicalize x
    let ys ← canonicalizeItems xs
    return y :: ys

/-- Properties that are `undefined` are left out. -/
def canonicalEntries : List (String × Unknown) → List (String × Except RepoError Unknown)
  | [] => []
  | (_, .undefined) :: fields => canonicalEntries fields
  | (key, x) :: fields => (key, canonicalize x) :: canonicalEntries fields

end

/-! ### normalizeJsonResponse -/

mutual

/-- `JSON.parse(JSON.stringify(value))`; `none` where there is no text, an error where `stringify`
throws. -/
def throughJson : Unknown → Except Unit (Option Unknown)
  | .undefined => .ok none
  | .null => .ok (some .null)
  | .boolean b => .ok (some (.boolean b))
  | .number n => .ok (some (if n.isFinite then .number n else .null))
  | .string s => .ok (some (.string s))
  | .date .invalid => .ok (some .null)
  | .date (.time ms) => .ok (some (.string (String.ofList (IsoDate.toISOString ms))))
  | .array xs => (fun ys => some (.array ys)) <$> itemsThroughJson xs
  | .object fields => (fun ys => some (.object ys)) <$> fieldsThroughJson fields
  | .circular => .error ()
  | .unsupported bigint => if bigint then .error () else .ok none

def itemsThroughJson : List Unknown → Except Unit (List Unknown)
  | [] => .ok []
  | x :: xs => do
    let y ← throughJson x
    let ys ← itemsThroughJson xs
    return y.getD .null :: ys

def fieldsThroughJson : List (String × Unknown) → Except Unit (List (String × Unknown))
  | [] => .ok []
  | (key, x) :: fields => do
    let y ← throughJson x
    let ys ← fieldsThroughJson fields
    return (y.map fun y => (key, y)).toList ++ ys

end

def normalizeJsonResponse : Unknown → Except RepoError Unknown
  | .undefined => .ok .null
  | value =>
    match throughJson value with
    | .ok (some json) => .ok json
    | _ => .error (.conflict "idempotent response must be JSON serializable")

/-! ### Keys, scopes and hashes -/

/-- What the calls take from outside: `toLowerCase`, the hexadecimal SHA-256 of the JSON text of a
value, the ids `gen_random_uuid()` and `randomUUID()` return, and what the driver reads of a value
that was written to a `jsonb` column. -/
structure Env where
  lower : String → String
  sha256 : Unknown → String
  uuid : ℕ → Uuid
  jsonb : Unknown → Unknown

def hashIdempotencyRequest (env : Env) (value : Unknown) : Except RepoError String :=
  env.sha256 <$> canonicalize value

def isControl (ch : Char) : Bool := ch.toNat ≤ 0x1F || ch.toNat = 0x7F

def normalizeKey (value : String) : Except RepoError String :=
  let key := Text.trim value
  if Text.utf16Length key < 8 ∨ Text.utf16Length key > 255 ∨ key.toList.any isControl then
    .error (.conflict "idempotency key must contain between 8 and 255 printable characters")
  else .ok key

def isScopeStart (ch : Char) : Bool := ('a' ≤ ch && ch ≤ 'z') || ('0' ≤ ch && ch ≤ '9')

/-- `/^[a-z0-9][a-z0-9_.:-]{1,159}$/` -/
def matchesScope (s : String) : Bool :=
  match s.toList with
  | [] => false
  | ch :: rest =>
    isScopeStart ch && 1 ≤ rest.length && rest.length ≤ 159 &&
      rest.all fun ch => isScopeStart ch || ch ∈ ['_', '.', ':', '-']

def normalizeScope (env : Env) (value : String) : Except RepoError String :=
  let scope := env.lower (Text.trim value)
  if matchesScope scope then .ok scope
  else .error (.conflict "idempotency scope is invalid")

end CalmBoard.Idempotency
