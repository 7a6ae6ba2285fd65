import CalmBoard.Values
import CalmBoard.Lib.Fallible

/-!
# CalmBoard.Auth.Totp — time-based codes and recovery codes

* `decodeBase32`, `generateTotpCode`: the code of a time step.
* `matchingStep`: the step, among three, whose code has been supplied.
* `isTotpCode`, `isRecoveryCode`, `recoveryCodeHash`: the two forms of a code.
-/

namespace CalmBoard.Mfa

def totpPeriodSeconds : ℤ := 30
def totpDigits : ℕ := 6

def base32Alphabet : List Char := "ABCDEFGHIJKLMNOPQRSTUVWXYZ234567".toList

/-- The loop of `decodeBase32`: the bits that are left over, and how many. -/
def decodeLoop (bits : ℕ) (value : BitVec 32) : List Char → Except Unit (List UInt8)
  | [] => .ok []
  | character :: rest =>
    let index := base32Alphabet.idxOf character
    if index = base32Alphabet.length then .error ()
    else
      let value := (value <<< 5) ||| BitVec.ofNat 32 index
      if 8 ≤ bits + 5 then do
        let output ← decodeLoop (bits + 5 - 8) value rest
        return UInt8.ofNat (value >>> (bits + 5 - 8)).toNat :: output
      else decodeLoop (bits + 5) value rest

def decodeBase32 (input : String) : Except Unit (List UInt8) :=
  decodeLoop 0 0 ((input.toList.map Char.toUpper).rdropWhile (· = '='))

def timeStep (timestamp : ℤ) : ℤ := timestamp / 1000 / totpPeriodSeconds

/-- `writeBigUInt64BE` -/
def counterBytes (step : ℕ) : List UInt8 :=
  (List.range 8).map fun i => UInt8.ofNat (step / 256 ^ (7 - i))

-- HMAC-SHA1 of a key and a message, and SHA-256 in hexadecimal
variable (hmacSha1 : List UInt8 → List UInt8 → List UInt8) (sha256 : String → String)

/-- The code of a time step; a negative step cannot be written as a counter. -/
def generateTotpCode (secret : String) (timestamp : ℤ) : Except Unit String := do
  let step := timeStep timestamp
  if step < 0 then throw ()
  let key ← decodeBase32 secret
  let digest := (hmacSha1 key (counterBytes step.toNat)).map UInt8.toNat
  let offset := digest.getLastD 0 &&& 0x0f
  let byte := fun i => digest.getD (offset + i) 0
  let value := ((byte 0 &&& 0x7f) <<< 24 ||| byte 1 <<< 16 ||| byte 2 <<< 8 ||| byte 3) %
    10 ^ totpDigits
  return String.ofList (List.leftpad totpDigits '0' (Nat.toDigits 10 value))

/-- `/^\d{6}$/` -/
def isTotpCode (code : String) : Bool := code.length = 6 && code.toList.all Char.isDigit

def isHexDigit (c : Char) : Bool := c.isDigit || ('a' ≤ c && c ≤ 'f') || ('A' ≤ c && c ≤ 'F')

/-- `/^[A-Fa-f0-9]{8}(?:-[A-Fa-f0-9]{8}){3}$/` -/
def isRecoveryCode (code : String) : Bool :=
  let groups := code.toList.splitOn '-'
  groups.length = 4 && groups.all fun group => group.length = 8 && group.all isHexDigit

def recoveryCodeHash (code : String) : String :=
  sha256 (String.ofList ((code.toList.filter (· ≠ '-')).map Char.toUpper))

/-- The first of the steps whose code is `code`. -/
def firstMatch (secret code : String) : List ℤ → Except Unit (Option ℤ)
  | [] => .ok none
  | step :: steps => do
    let expected ← generateTotpCode hmacSha1 secret (step * totpPeriodSeconds * 1000)
    if code = expected then return some step else firstMatch secret code steps

def matchingStep (secret code : String) (timestamp : ℤ) : Except Unit (Option ℤ) :=
  if isTotpCode code then
    let current := timeStep timestamp
    firstMatch hmacSha1 secret code [current - 1, current, current + 1]
  else .ok none

variable {hmacSha1} {secret code : String} {timestamp step : ℤ}

/-! The first two codes for the key `12345678901234567890`. -/

def sampleSecret : String := "GEZDGNBVGY3TQOJQGEZDGNBVGY3TQOJQ"

/-- The digests of that key for the counters 0 and 1. -/
def sampleHmac (_key message : List UInt8) : List UInt8 :=
  if message = counterBytes 0 then
    [0xcc, 0x93, 0xcf, 0x18, 0x50, 0x8d, 0x94, 0x93, 0x4c, 0x64, 0xb6, 0x5d, 0x8b, 0xa7, 0x66, 0x7f,
      0xb7, 0xcd, 0xe4, 0xb0]
  else
    [0x75, 0xa4, 0x8a, 0x19, 0xd4, 0xcb, 0xe1, 0x00, 0x64, 0x4e, 0x8a, 0xc1, 0x39, 0x7e, 0xea, 0x74,
      0x7a, 0x2d, 0x33, 0xab]

example : decodeBase32 sampleSecret = .ok "12345678901234567890".toUTF8.toList := by decide +kernel

example : generateTotpCode sampleHmac sampleSecret 0 = .ok "755224" := by decide

example : matchingStep sampleHmac sampleSecret "287082" 59000 = .ok (some 1) := by decide

end CalmBoard.Mfa
