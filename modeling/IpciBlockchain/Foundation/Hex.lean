import Mathlib.Data.UInt

namespace IpciBlockchain
namespace Foundation

/-!
# Hexadecimal text

Bytes are written as two hexadecimal digits each, in small or capital
letters.  A decoder reads both, so the case is a parameter of the encoder
only.
-/

namespace Hex

/-- The value of a hexadecimal digit. -/
def digitValue (c : Char) : Option ℕ :=
  if c.isDigit then some (c.toNat - 48)
  else if 'a' ≤ c ∧ c ≤ 'f' then some (c.toNat - 87)
  else if 'A' ≤ c ∧ c ≤ 'F' then some (c.toNat - 55)
  else none

/-- A character that has a value. -/
def isHexDigit (c : Char) : Bool :=
  (digitValue c).isSome

/-- The digit of a value below sixteen. -/
def digitChar (upper : Bool) (value : ℕ) : Char :=
  if upper then (Nat.digitChar value).toUpper else Nat.digitChar value

def encodeByte (upper : Bool) (byte : UInt8) : List Char :=
  [digitChar upper (byte.toNat / 16), digitChar upper (byte.toNat % 16)]

def encode (upper : Bool) (bytes : List UInt8) : List Char :=
  bytes.flatMap (encodeByte upper)

/-- The byte of two digits' values. -/
def pair (high low : ℕ) : UInt8 :=
  UInt8.ofNat (16 * high + low)

/-- Two digits for each byte and nothing else. -/
def decode : List Char → Option (List UInt8)
  | [] => some []
  | [_] => none
  | first :: second :: rest =>
      match digitValue first, digitValue second, decode rest with
      | some high, some low, some bytes => some (pair high low :: bytes)
      | _, _, _ => none

/-! ## Digits -/

theorem digitValue_digitChar (upper : Bool) {value : ℕ} (small : value < 16) :
    digitValue (digitChar upper value) = some value := by
  have every : ∀ (capital : Bool) (n : Fin 16), digitValue (digitChar capital n) = some n.val := by
    decide +kernel
  exact every upper ⟨value, small⟩

theorem isHexDigit_digitChar (upper : Bool) {value : ℕ} (small : value < 16) :
    isHexDigit (digitChar upper value) = true := by
  rw [isHexDigit, digitValue_digitChar upper small]
  rfl

theorem isHexDigit_of_isDigit {c : Char} (digit : c.isDigit = true) : isHexDigit c = true := by
  rw [isHexDigit, digitValue, if_pos digit]
  rfl

/-- A hexadecimal digit is not a letter after `f`, a sign or a blank. -/
theorem ne_of_isHexDigit {c : Char} (digit : isHexDigit c = true) (other : Char)
    (noDigit : isHexDigit other = false) : c ≠ other := by
  rintro rfl
  rw [digit] at noDigit
  exact Bool.noConfusion noDigit

/-! ## Encoding and decoding -/

theorem pair_div_mod (byte : UInt8) : pair (byte.toNat / 16) (byte.toNat % 16) = byte := by
  rw [pair, Nat.div_add_mod, UInt8.ofNat_toNat]

theorem isHexDigit_of_mem_encode {upper : Bool} {bytes : List UInt8} {c : Char}
    (member : c ∈ encode upper bytes) : isHexDigit c = true := by
  rcases List.mem_flatMap.mp member with ⟨byte, _, written⟩
  have high : byte.toNat / 16 < 16 := Nat.div_lt_of_lt_mul byte.toNat_lt
  have low : byte.toNat % 16 < 16 := Nat.mod_lt _ (by decide)
  rcases List.mem_cons.mp written with rfl | second
  · exact isHexDigit_digitChar upper high
  · rw [List.mem_singleton.mp second]
    exact isHexDigit_digitChar upper low

/-- Decoding undoes encoding. -/
theorem decode_encode (upper : Bool) (bytes : List UInt8) :
    decode (encode upper bytes) = some bytes := by
  induction bytes with
  | nil => rfl
  | cons byte rest ih =>
      have high : byte.toNat / 16 < 16 := Nat.div_lt_of_lt_mul byte.toNat_lt
      have low : byte.toNat % 16 < 16 := Nat.mod_lt _ (by decide)
      have split : encode upper (byte :: rest) =
          digitChar upper (byte.toNat / 16) :: digitChar upper (byte.toNat % 16) ::
            encode upper rest := rfl
      rw [split, decode, digitValue_digitChar upper high, digitValue_digitChar upper low, ih]
      simp only [pair_div_mod]

/-- Two digits are decoded before the rest, and only if both are digits. -/
theorem decode_cons_cons {first second : Char} {rest : List Char} {bytes : List UInt8}
    (decoded : decode (first :: second :: rest) = some bytes) :
    ∃ high low tail, digitValue first = some high ∧ digitValue second = some low ∧
      decode rest = some tail ∧ bytes = pair high low :: tail := by
  unfold decode at decoded
  split at decoded
  case h_1 high low tail firstEq secondEq restEq =>
    exact ⟨high, low, tail, firstEq, secondEq, restEq, (Option.some_injective _ decoded).symm⟩
  case h_2 => cases decoded

/-- What is decoded is made of hexadecimal digits only. -/
theorem isHexDigit_of_decode {digits : List Char} {bytes : List UInt8}
    (decoded : decode digits = some bytes) : ∀ c ∈ digits, isHexDigit c = true := by
  induction digits using List.twoStepInduction generalizing bytes with
  | nil => exact fun c member => absurd member List.not_mem_nil
  | singleton c => cases decoded
  | cons_cons first second rest ih _ =>
      rcases decode_cons_cons decoded with ⟨high, low, tail, firstEq, secondEq, restEq, _⟩
      intro c member
      rcases List.mem_cons.mp member with rfl | member
      · rw [isHexDigit, firstEq, Option.isSome_some]
      · rcases List.mem_cons.mp member with rfl | member
        · rw [isHexDigit, secondEq, Option.isSome_some]
        · exact ih restEq c member

theorem length_of_decode {digits : List Char} {bytes : List UInt8}
    (decoded : decode digits = some bytes) : digits.length = 2 * bytes.length := by
  induction digits using List.twoStepInduction generalizing bytes with
  | nil => cases decoded; rfl
  | singleton c => cases decoded
  | cons_cons first second rest ih _ =>
      rcases decode_cons_cons decoded with ⟨high, low, tail, _, _, restEq, rfl⟩
      have shorter := ih restEq
      rw [List.length_cons, List.length_cons, List.length_cons]
      omega

/-- Digits in even number are the digits of some bytes. -/
theorem exists_decode {digits : List Char} (hex : ∀ c ∈ digits, isHexDigit c = true)
    (even : digits.length % 2 = 0) : ∃ bytes, decode digits = some bytes := by
  induction digits using List.twoStepInduction with
  | nil => exact ⟨[], rfl⟩
  | singleton c => cases even
  | cons_cons first second rest ih _ =>
      have high := hex first List.mem_cons_self
      have low := hex second (List.mem_cons_of_mem _ List.mem_cons_self)
      have rest' : ∀ c ∈ rest, isHexDigit c = true := by
        intro c member
        exact hex c (List.mem_cons_of_mem _ (List.mem_cons_of_mem _ member))
      rw [List.length_cons, List.length_cons] at even
      rcases Option.isSome_iff_exists.mp high with ⟨value, highValue⟩
      rcases Option.isSome_iff_exists.mp low with ⟨value', lowValue⟩
      rcases ih rest' (by omega) with ⟨bytes, decoded⟩
      exact ⟨pair value value' :: bytes, by rw [decode, highValue, lowValue, decoded]⟩

end Hex

end Foundation
end IpciBlockchain
