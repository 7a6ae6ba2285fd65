import CalmBoard.Auth.Totp
import Mathlib.Data.Nat.Digits.Lemmas
import Mathlib.Tactic.Ring

/-!
# CalmBoard.Auth.Base32 — secrets as texts

Both loops shift a 32-bit accumulator whose high bits they never clear; only the bits that are still
to be written matter.

* `encodeBase32`: the text of a secret.
* `encodeLoop_number`, `decodeLoop_number`: what the loops read and write, as numbers to the bases 256
  and 32.
* `base32_round_trip`: the text of a secret is read as the secret, also in lower case and with padding.
-/

namespace CalmBoard.Mfa

/-! ### The encoder -/

/-- `BASE32_ALPHABET[index]` -/
def base32Char (index : ℕ) : Char := base32Alphabet.getD index 'A'

/-- The `while` loop: the characters that a byte completes, and how many bits are left over. -/
def emitChars (value : BitVec 32) : ℕ → List Char × ℕ
  | bits + 5 =>
    let (output, left) := emitChars value bits
    (base32Char ((value >>> bits) &&& 31).toNat :: output, left)
  | bits => ([], bits)

def encodeLoop (bits : ℕ) (value : BitVec 32) : List UInt8 → List Char
  | [] => if 0 < bits then [base32Char ((value <<< (5 - bits)) &&& 31).toNat] else []
  | byte :: rest =>
    let value := (value <<< 8) ||| BitVec.ofNat 32 byte.toNat
    let (output, left) := emitChars value (bits + 8)
    output ++ encodeLoop left value rest

def encodeBase32 (input : List UInt8) : String := String.ofList (encodeLoop 0 0 input)

/-! ### Accumulators -/

/-- A big-endian number. -/
def number (base : ℕ) (digits : List ℕ) : ℕ := Nat.ofDigits base digits.reverse

theorem number_append (base : ℕ) (l m : List ℕ) :
    number base (l ++ m) = number base l * base ^ m.length + number base m := by
  unfold number
  rw [List.reverse_append, Nat.ofDigits_append, List.length_reverse]
  ring

theorem number_cons (base d : ℕ) (digits : List ℕ) :
    number base (d :: digits) = d * base ^ digits.length + number base digits := by
  unfold number
  rw [Nat.ofDigits_reverse_cons]
  ring

theorem and_31 (x : BitVec 32) : (x &&& 31).toNat = x.toNat % 32 := by
  rw [BitVec.toNat_and]
  exact Nat.and_two_pow_sub_one_eq_mod x.toNat 5

/-- The low bits after a shift that makes room for `width` new ones. -/
theorem push_mod (value : BitVec 32) {bits width d : ℕ} (hd : d < 2 ^ width) (hbits : bits + width ≤ 32) :
    ((value <<< width) ||| BitVec.ofNat 32 d).toNat % 2 ^ (bits + width) =
      value.toNat % 2 ^ bits * 2 ^ width + d := by
  have hdvd : 2 ^ (bits + width) ∣ 2 ^ 32 := Nat.pow_dvd_pow 2 hbits
  have hdBits : d < 2 ^ (bits + width) := hd.trans_le (Nat.pow_le_pow_right (by norm_num) (by omega))
  have hd32 : d < 2 ^ 32 := hdBits.trans_le (Nat.pow_le_pow_right (by norm_num) hbits)
  rw [BitVec.toNat_or, BitVec.toNat_ofNat, BitVec.toNat_shiftLeft, Nat.mod_eq_of_lt hd32,
    Nat.or_mod_two_pow, Nat.mod_mod_of_dvd _ hdvd, Nat.mod_eq_of_lt hdBits, Nat.shiftLeft_eq, pow_add,
    Nat.mul_mod_mul_right, ← Nat.shiftLeft_eq, ← Nat.shiftLeft_add_eq_or_of_lt hd, Nat.shiftLeft_eq]

theorem mod_split (n bits width : ℕ) :
    n % 2 ^ (bits + width) = n / 2 ^ bits % 2 ^ width * 2 ^ bits + n % 2 ^ bits := by
  rw [pow_add, Nat.mod_mul]
  ring

theorem byte_lt (byte : UInt8) : byte.toNat < 2 ^ 8 := byte.toNat_lt

/-! ### What the loops write -/

theorem emitChars_number (value : BitVec 32) (bits : ℕ) :
    ∃ digits, (emitChars value bits).1 = digits.map base32Char ∧ (∀ d ∈ digits, d < 32) ∧
      (emitChars value bits).2 < 5 ∧ bits = 5 * digits.length + (emitChars value bits).2 ∧
      value.toNat % 2 ^ bits = number 32 digits * 2 ^ (emitChars value bits).2 +
        value.toNat % 2 ^ (emitChars value bits).2 := by
  fun_induction emitChars value bits with
  | case1 bits output left hrest ih =>
    obtain ⟨digits, hdigits, hlt, hleft, hbits, hnumber⟩ := ih
    rw [hrest] at hdigits hleft hbits hnumber
    dsimp only at hdigits hleft hbits hnumber
    have hdigit : ((value >>> bits) &&& 31).toNat = value.toNat / 2 ^ bits % 2 ^ 5 := by
      rw [and_31, BitVec.toNat_ushiftRight, Nat.shiftRight_eq_div_pow]
      rfl
    refine ⟨((value >>> bits) &&& 31).toNat :: digits, ?_, ?_, hleft, ?_, ?_⟩
    · rw [List.map_cons, ← hdigits]
    · refine List.forall_mem_cons.mpr ⟨?_, hlt⟩
      rw [hdigit]
      exact Nat.mod_lt _ (by norm_num)
    · rw [List.length_cons]
      omega
    · have hpow : 32 ^ digits.length * 2 ^ left = 2 ^ bits := by
        rw [hbits, pow_add, pow_mul]
        norm_num
      show value.toNat % 2 ^ (bits + 5) = number 32 (_ :: digits) * 2 ^ left + value.toNat % 2 ^ left
      rw [mod_split, hnumber, number_cons, hdigit, ← hpow]
      ring
  | case2 bits hsmall =>
    have hlt : bits < 5 := by
      by_contra hge
      exact hsmall (bits - 5) (by omega)
    exact ⟨[], rfl, fun d hd => absurd hd List.not_mem_nil, hlt, by simp, by simp [number]⟩

/-- **The encoder**: the bits that are left over, and the bytes, as digits to the base 32. -/
theorem encodeLoop_number (bits : ℕ) (value : BitVec 32) (hbits : bits < 5) (input : List UInt8) :
    ∃ digits pad, encodeLoop bits value input = digits.map base32Char ∧ (∀ d ∈ digits, d < 32) ∧
      pad < 5 ∧ 5 * digits.length = bits + 8 * input.length + pad ∧
      number 32 digits = (value.toNat % 2 ^ bits * 256 ^ input.length +
        number 256 (input.map UInt8.toNat)) * 2 ^ pad := by
  induction input generalizing bits value with
  | nil =>
    unfold encodeLoop
    by_cases hpos : 0 < bits
    · have hdigit : ((value <<< (5 - bits)) &&& 31).toNat = value.toNat % 2 ^ bits * 2 ^ (5 - bits) := by
        have hpush : ((value <<< (5 - bits)) ||| BitVec.ofNat 32 0).toNat % 2 ^ (bits + (5 - bits)) =
            value.toNat % 2 ^ bits * 2 ^ (5 - bits) + 0 := push_mod value (by positivity) (by omega)
        rw [show bits + (5 - bits) = 5 by omega] at hpush
        rw [and_31]
        simpa using hpush
      refine ⟨[((value <<< (5 - bits)) &&& 31).toNat], 5 - bits, if_pos hpos, ?_, by omega, ?_, ?_⟩
      · rw [List.forall_mem_singleton, and_31]
        exact Nat.mod_lt _ (by norm_num)
      · simp only [List.length_singleton, List.length_nil]
        omega
      · rw [hdigit]
        simp [number]
    · obtain rfl : bits = 0 := by omega
      exact ⟨[], 0, rfl, fun d hd => absurd hd List.not_mem_nil, by omega, rfl, by simp [number, Nat.mod_one]⟩
  | cons byte rest ih =>
    set value' := (value <<< 8) ||| BitVec.ofNat 32 byte.toNat with hvalue'
    obtain ⟨digits, hdigits, hlt, hleft, hlength, hnumber⟩ := emitChars_number value' (bits + 8)
    obtain ⟨digits', pad, hdigits', hlt', hpad, hlength', hnumber'⟩ := ih _ value' hleft
    set left := (emitChars value' (bits + 8)).2 with hleftDef
    refine ⟨digits ++ digits', pad, ?_, ?_, hpad, ?_, ?_⟩
    · unfold encodeLoop
      rw [List.map_append, ← hdigits, ← hdigits']
    · exact List.forall_mem_append.mpr ⟨hlt, hlt'⟩
    · rw [List.length_append, List.length_cons]
      omega
    · have hpow : 32 ^ digits'.length = 2 ^ left * 256 ^ rest.length * 2 ^ pad := by
        rw [show (32 : ℕ) = 2 ^ 5 by rfl, ← pow_mul, hlength', pow_add, pow_add, pow_mul]
        norm_num
      have hpush : value'.toNat % 2 ^ (bits + 8) = value.toNat % 2 ^ bits * 256 + byte.toNat :=
        push_mod value (byte_lt byte) (by omega)
      calc number 32 (digits ++ digits')
          = (number 32 digits * 2 ^ left + value'.toNat % 2 ^ left) * 256 ^ rest.length * 2 ^ pad +
              number 256 (rest.map UInt8.toNat) * 2 ^ pad := by
            rw [number_append, hnumber', hpow]
            ring
        _ = _ := by
            rw [← hnumber, hpush, List.map_cons, number_cons, List.length_map, List.length_cons]
            ring

/-! ### What the loops read -/

theorem idxOf_base32Char : ∀ d < 32, base32Alphabet.idxOf (base32Char d) = d := by decide

theorem length_base32Alphabet : base32Alphabet.length = 32 := by decide

theorem decodeLoop_cons {bits : ℕ} {value : BitVec 32} {d : ℕ} (hd : d < 32) (rest : List Char) :
    decodeLoop bits value (base32Char d :: rest) =
      if 8 ≤ bits + 5 then do
        let output ← decodeLoop (bits + 5 - 8) ((value <<< 5) ||| BitVec.ofNat 32 d) rest
        return UInt8.ofNat (((value <<< 5) ||| BitVec.ofNat 32 d) >>> (bits + 5 - 8)).toNat :: output
      else decodeLoop (bits + 5) ((value <<< 5) ||| BitVec.ofNat 32 d) rest := by
  have hindex : ¬ d = base32Alphabet.length := by
    rw [length_base32Alphabet]
    omega
  rw [decodeLoop]
  simp only [idxOf_base32Char d hd, if_neg hindex]

/-- **The decoder**: the bits that are left over, and the digits, as bytes. -/
theorem decodeLoop_number (bits : ℕ) (value : BitVec 32) (hbits : bits < 8) {digits : List ℕ}
    (hdigits : ∀ d ∈ digits, d < 32) :
    ∃ output left r, decodeLoop bits value (digits.map base32Char) = .ok output ∧ left < 8 ∧
      8 * output.length + left = bits + 5 * digits.length ∧ r < 2 ^ left ∧
      number 256 (output.map UInt8.toNat) * 2 ^ left + r =
        value.toNat % 2 ^ bits * 32 ^ digits.length + number 32 digits := by
  induction digits generalizing bits value with
  | nil =>
    exact ⟨[], bits, value.toNat % 2 ^ bits, rfl, hbits, by simp, Nat.mod_lt _ (by positivity),
      by simp [number]⟩
  | cons d digits ih =>
    obtain ⟨hd, hrest⟩ := List.forall_mem_cons.mp hdigits
    set value' := (value <<< 5) ||| BitVec.ofNat 32 d with hvalue'
    have hpush : value'.toNat % 2 ^ (bits + 5) = value.toNat % 2 ^ bits * 32 + d :=
      push_mod value hd (by omega)
    rw [List.map_cons, decodeLoop_cons hd, ← hvalue']
    by_cases hemit : 8 ≤ bits + 5
    · rw [if_pos hemit]
      set left := bits + 5 - 8 with hleft
      obtain ⟨output, left', r, hloop, hlt, hlength, hr, hnumber⟩ := ih left value' (by omega) hrest
      refine ⟨UInt8.ofNat (value' >>> left).toNat :: output, left', r, ?_, hlt, ?_, hr, ?_⟩
      · rw [hloop]
        rfl
      · rw [List.length_cons, List.length_cons]
        omega
      · have hbyte : (UInt8.ofNat (value' >>> left).toNat).toNat =
            value'.toNat / 2 ^ left % 2 ^ 8 := by
          rw [UInt8.toNat_ofNat', BitVec.toNat_ushiftRight, Nat.shiftRight_eq_div_pow]
        have hsplit := mod_split value'.toNat left 8
        rw [show left + 8 = bits + 5 by omega, hpush] at hsplit
        have hpow : 256 ^ output.length * 2 ^ left' = 2 ^ left * 32 ^ digits.length := by
          rw [show (256 : ℕ) = 2 ^ 8 by rfl, show (32 : ℕ) = 2 ^ 5 by rfl, ← pow_mul, ← pow_mul,
            ← pow_add, ← pow_add, hlength]
        calc number 256 ((UInt8.ofNat (value' >>> left).toNat :: output).map UInt8.toNat) * 2 ^ left' + r
            = value'.toNat / 2 ^ left % 2 ^ 8 * (256 ^ output.length * 2 ^ left') +
                (number 256 (output.map UInt8.toNat) * 2 ^ left' + r) := by
              rw [List.map_cons, number_cons, hbyte, List.length_map]
              ring
          _ = (value'.toNat / 2 ^ left % 2 ^ 8 * 2 ^ left + value'.toNat % 2 ^ left) *
                32 ^ digits.length + number 32 digits := by
              rw [hpow, hnumber]
              ring
          _ = _ := by
              rw [← hsplit, number_cons, List.length_cons]
              ring
    · rw [if_neg hemit]
      obtain ⟨output, left', r, hloop, hlt, hlength, hr, hnumber⟩ :=
        ih (bits + 5) value' (by omega) hrest
      refine ⟨output, left', r, hloop, hlt, ?_, hr, ?_⟩
      · rw [List.length_cons]
        omega
      · rw [hnumber, hpush, number_cons, List.length_cons]
        ring

/-! ### Round trip -/

theorem base32Char_mem : ∀ d < 32, base32Char d ∈ base32Alphabet := by decide

theorem base32Alphabet_plain : ∀ c ∈ base32Alphabet, c ≠ '=' ∧ c.toUpper = c := by
  have hall : (base32Alphabet.all fun c => c ≠ '=' ∧ c.toUpper = c) = true := by decide
  exact fun c hc => of_decide_eq_true (List.all_eq_true.mp hall c hc)

theorem decodeLoop_encodeLoop (input : List UInt8) :
    decodeLoop 0 0 (encodeLoop 0 0 input) = .ok input := by
  obtain ⟨digits, pad, hdigits, hlt, hpad, hlength, hnumber⟩ :=
    encodeLoop_number 0 0 (by norm_num) input
  obtain ⟨output, left, r, hloop, hleft, hlength', hr, hnumber'⟩ :=
    decodeLoop_number 0 0 (by norm_num) hlt
  -- fewer than eight bits are left over, so these are the padding
  obtain rfl : left = pad := by omega
  have hsame : output.length = input.length := by omega
  have hvalue : number 256 (output.map UInt8.toNat) = number 256 (input.map UInt8.toNat) := by
    rw [hnumber] at hnumber'
    simp only [pow_zero, Nat.mod_one, zero_mul, zero_add] at hnumber'
    calc number 256 (output.map UInt8.toNat)
        = (number 256 (output.map UInt8.toNat) * 2 ^ left + r) / 2 ^ left := by
          rw [mul_comm, Nat.mul_add_div (by positivity), Nat.div_eq_of_lt hr, add_zero]
      _ = number 256 (input.map UInt8.toNat) := by
          rw [hnumber']
          exact Nat.mul_div_cancel _ (by positivity)
  have hbytes : output.map UInt8.toNat = input.map UInt8.toNat := by
    have hbound : ∀ l : List UInt8, ∀ d ∈ (l.map UInt8.toNat).reverse, d < 256 := by
      intro l d hd
      obtain ⟨byte, -, rfl⟩ := List.mem_map.mp (List.mem_reverse.mp hd)
      exact byte_lt byte
    exact List.reverse_injective (Nat.ofDigits_inj_of_len_eq (by norm_num) (by simp [hsame])
      (hbound output) (hbound input) hvalue)
  rw [hdigits, hloop, List.map_injective_iff.mpr (fun a b h => UInt8.toNat_inj.mp h) hbytes]

theorem rdropWhile_padding {l : List Char} (h : ∀ c ∈ l, c ≠ '=') (padding : ℕ) :
    (l ++ List.replicate padding '=').rdropWhile (· = '=') = l := by
  induction padding with
  | zero =>
    rw [List.replicate_zero, List.append_nil, List.rdropWhile_eq_self_iff]
    intro hne
    rw [decide_eq_true_eq]
    exact h _ (List.getLast_mem hne)
  | succ padding ih =>
    rw [List.replicate_succ', ← List.append_assoc, List.rdropWhile_concat_pos _ _ _ (by simp), ih]

/-- **Round trip**: a secret of any length is read from its text, which has only characters of the
alphabet, also where these are lower case and padding follows. -/
theorem base32_round_trip (input : List UInt8) :
    decodeBase32 (encodeBase32 input) = .ok input ∧
      (∀ c ∈ (encodeBase32 input).toList, c ∈ base32Alphabet) ∧
      ∀ (text : String) (padding : ℕ), text.toList.map Char.toUpper = (encodeBase32 input).toList →
        decodeBase32 (text ++ String.ofList (List.replicate padding '=')) = .ok input := by
  have hchars : ∀ c ∈ encodeLoop 0 0 input, c ∈ base32Alphabet := by
    obtain ⟨digits, -, hdigits, hlt, -⟩ := encodeLoop_number 0 0 (by norm_num) input
    rw [hdigits]
    intro c hc
    obtain ⟨d, hd, rfl⟩ := List.mem_map.mp hc
    exact base32Char_mem d (hlt d hd)
  have hread : ∀ (text : String) (padding : ℕ), text.toList.map Char.toUpper =
      (encodeBase32 input).toList →
        decodeBase32 (text ++ String.ofList (List.replicate padding '=')) = .ok input := by
    intro text padding htext
    have hplain : ∀ c ∈ encodeLoop 0 0 input, c ≠ '=' := fun c hc =>
      (base32Alphabet_plain c (hchars c hc)).1
    unfold decodeBase32
    rw [String.toList_append, String.toList_ofList, List.map_append, List.map_replicate, htext]
    unfold encodeBase32
    rw [String.toList_ofList, show Char.toUpper '=' = '=' by decide, rdropWhile_padding hplain,
      decodeLoop_encodeLoop]
  refine ⟨?_, ?_, hread⟩
  · have hupper : (encodeBase32 input).toList.map Char.toUpper = (encodeBase32 input).toList := by
      unfold encodeBase32
      rw [String.toList_ofList]
      exact (List.map_congr_left fun c hc => (base32Alphabet_plain c (hchars c hc)).2).trans
        (List.map_id _)
    have hnone := hread (encodeBase32 input) 0 hupper
    rwa [List.replicate_zero, String.ofList_nil, String.append_empty] at hnone
  · unfold encodeBase32
    rw [String.toList_ofList]
    exact hchars

/-- The sample secret in lower case, with padding. -/
theorem sampleSecret_lower :
    decodeBase32 ("gezdgnbvgy3tqojqgezdgnbvgy3tqojq" ++ String.ofList (List.replicate 4 '=')) =
      .ok "12345678901234567890".toUTF8.toList :=
  (base32_round_trip _).2.2 _ 4 (by decide +kernel)

end CalmBoard.Mfa
