import Mathlib.Algebra.Order.Group.Nat

namespace IpciBlockchain
namespace Inspect

/-!
# Unsigned integers from text

`u32` and `usize` are parsed by the standard library: an optional sign `+`,
then decimal digits, read from the left with checked arithmetic.  Text is a
list of Unicode scalar values.
-/

/-- `core::str::FromStr` -/
class FromStr (α : Type) where
  Err : Type
  fromStr : List Char → Except Err α

/-- `str::parse` -/
def parse (α : Type) [FromStr α] (s : List Char) : Except (FromStr.Err α) α :=
  FromStr.fromStr s

/-- `core::num::ParseIntError`, as far as unsigned integers meet it. -/
inductive ParseIntError where
  | empty
  | invalidDigit
  | posOverflow
  deriving DecidableEq, Repr

def ParseIntError.display : ParseIntError → String
  | .empty => "cannot parse integer from empty string"
  | .invalidDigit => "invalid digit found in string"
  | .posOverflow => "number too large to fit in target type"

/-- `char::to_digit`, in base ten. -/
def toDigit (c : Char) : Option ℕ :=
  if c.isDigit then some (c.toNat - '0'.toNat) else none

/-- The digits of a number below `size`, after a result so far. -/
def parseDigits (size : ℕ) : ℕ → List Char → Except ParseIntError ℕ
  | result, [] => .ok result
  | result, c :: digits =>
      match toDigit c with
      | none => .error .invalidDigit
      | some x =>
          -- `checked_mul`, then `checked_add`
          if 10 * result < size then
            if 10 * result + x < size then parseDigits size (10 * result + x) digits
            else .error .posOverflow
          else .error .posOverflow

/-- `from_str_radix`, in base ten, for an unsigned type of `size` values. -/
def fromStrRadix (size : ℕ) : List Char → Except ParseIntError ℕ
  | [] => .error .empty
  | ['+'] => .error .invalidDigit
  | ['-'] => .error .invalidDigit
  | '+' :: digits => parseDigits size 0 digits
  | digits => parseDigits size 0 digits

instance : FromStr UInt32 where
  Err := ParseIntError
  fromStr s := (fromStrRadix UInt32.size s).map UInt32.ofNat

/-- `usize` of a 64-bit host. -/
abbrev Usize := UInt64

instance : FromStr Usize where
  Err := ParseIntError
  fromStr s := (fromStrRadix UInt64.size s).map UInt64.ofNat

/-! ## What is read back -/

theorem le_ofDigitChars (digits : List Char) (result : ℕ) :
    result ≤ Nat.ofDigitChars 10 digits result := by
  induction digits generalizing result with
  | nil => exact le_of_eq Nat.ofDigitChars_nil.symm
  | cons c digits ih =>
      have later := ih (10 * result + (c.toNat - '0'.toNat))
      rw [Nat.ofDigitChars_cons]
      omega

/-- A character is read if it is a digit and the result still fits. -/
theorem parseDigits_cons_eq_ok_iff {size result n : ℕ} {c : Char} {digits : List Char} :
    parseDigits size result (c :: digits) = .ok n ↔
      c.isDigit = true ∧ 10 * result + (c.toNat - '0'.toNat) < size ∧
        parseDigits size (10 * result + (c.toNat - '0'.toNat)) digits = .ok n := by
  by_cases digit : c.isDigit = true
  · have value : toDigit c = some (c.toNat - '0'.toNat) := if_pos digit
    by_cases sum : 10 * result + (c.toNat - '0'.toNat) < size
    · have product : 10 * result < size := by omega
      have step : parseDigits size result (c :: digits) =
          parseDigits size (10 * result + (c.toNat - '0'.toNat)) digits := by
        simp only [parseDigits, value, if_pos product, if_pos sum]
      rw [step]
      exact ⟨fun parsed => ⟨digit, sum, parsed⟩, fun read => read.2.2⟩
    · have overflow : parseDigits size result (c :: digits) = .error .posOverflow := by
        simp only [parseDigits, value, if_neg sum, ite_self]
      rw [overflow]
      constructor
      · intro parsed
        cases parsed
      · intro read
        exact absurd read.2.1 sum
  · have noValue : toDigit c = none := if_neg digit
    have refused : parseDigits size result (c :: digits) = .error .invalidDigit := by
      simp only [parseDigits, noValue]
    rw [refused]
    constructor
    · intro parsed
      cases parsed
    · intro read
      exact absurd read.1 digit

/-- Digits whose value fits are read as their value. -/
theorem parseDigits_eq_ok {size result : ℕ} {digits : List Char}
    (decimal : ∀ c ∈ digits, c.isDigit = true)
    (fits : Nat.ofDigitChars 10 digits result < size) :
    parseDigits size result digits = .ok (Nat.ofDigitChars 10 digits result) := by
  induction digits generalizing result with
  | nil => rw [parseDigits, Nat.ofDigitChars_nil]
  | cons c digits ih =>
      rw [Nat.ofDigitChars_cons] at fits ⊢
      have grows := le_ofDigitChars digits (10 * result + (c.toNat - '0'.toNat))
      have rest := ih (fun d listed => decimal d (List.mem_cons_of_mem c listed)) fits
      exact parseDigits_cons_eq_ok_iff.mpr
        ⟨decimal c List.mem_cons_self, lt_of_le_of_lt grows fits, rest⟩

/-- Only digits are read. -/
theorem isDigit_of_parseDigits {size result n : ℕ} {digits : List Char}
    (parsed : parseDigits size result digits = .ok n) : ∀ c ∈ digits, c.isDigit = true := by
  induction digits generalizing result with
  | nil => exact fun c member => absurd member List.not_mem_nil
  | cons d digits ih =>
      rcases parseDigits_cons_eq_ok_iff.mp parsed with ⟨digit, _, rest⟩
      intro c member
      rcases List.mem_cons.mp member with rfl | later
      · exact digit
      · exact ih rest c later

theorem fromStrRadix_of_isDigit {size : ℕ} {digits : List Char} (nonempty : digits ≠ [])
    (decimal : ∀ c ∈ digits, c.isDigit = true) :
    fromStrRadix size digits = parseDigits size 0 digits := by
  unfold fromStrRadix
  split
  case h_1 => exact absurd rfl nonempty
  case h_2 => exact absurd (decimal '+' List.mem_cons_self) (by decide)
  case h_3 => exact absurd (decimal '-' List.mem_cons_self) (by decide)
  case h_4 => exact absurd (decimal '+' List.mem_cons_self) (by decide)
  case h_5 => rfl

/-- A number in decimal is read as itself. -/
theorem fromStrRadix_toDigits {size n : ℕ} (fits : n < size) :
    fromStrRadix size (Nat.toDigits 10 n) = .ok n := by
  have decimal : ∀ c ∈ Nat.toDigits 10 n, c.isDigit = true :=
    fun c member => Nat.isDigit_of_mem_toDigits (by decide) (by decide) member
  have value : Nat.ofDigitChars 10 (Nat.toDigits 10 n) 0 = n := Nat.ofDigitChars_ten_toDigits
  rw [fromStrRadix_of_isDigit Nat.toDigits_ne_nil decimal,
    parseDigits_eq_ok decimal (by rw [value]; exact fits), value]

/-- Nothing but digits and a sign is read. -/
theorem isDigit_or_plus_of_fromStrRadix {size n : ℕ} {s : List Char}
    (parsed : fromStrRadix size s = .ok n) : ∀ c ∈ s, c.isDigit = true ∨ c = '+' := by
  unfold fromStrRadix at parsed
  split at parsed
  case h_1 => cases parsed
  case h_2 => cases parsed
  case h_3 => cases parsed
  case h_4 digits _ =>
    intro c member
    rcases List.mem_cons.mp member with sign | later
    · exact Or.inr sign
    · exact Or.inl (isDigit_of_parseDigits parsed c later)
  case h_5 => exact fun c member => Or.inl (isDigit_of_parseDigits parsed c member)

end Inspect
end IpciBlockchain
