import IpciBlockchain.Foundation.Codec
import Mathlib.Data.Nat.Log
import Mathlib.Algebra.Order.Ring.Nat

namespace IpciBlockchain
namespace Foundation
namespace Scale

/-!
# The SCALE codec

The integers of the SCALE format: fixed-width integers with the least
significant byte first, and compact integers, whose first two bits say how
many bytes the number takes.  Numbers below `2 ^ 6`, `2 ^ 14` and `2 ^ 30`
share their bytes with these two bits; above, the first byte holds the count
of the bytes that follow.  Only the shortest form of a number is read.
-/

/-- The only failure that decoding reports here. -/
inductive Failure where
  | invalid
  deriving DecidableEq, Repr

/-! ## Fixed width -/

/-- The lowest bytes of a number, the least significant first. -/
def littleEndian : ℕ → ℕ → List UInt8
  | 0, _ => []
  | width + 1, n => UInt8.ofNat (n % 256) :: littleEndian width (n / 256)

def ofLittleEndian : List UInt8 → ℕ
  | [] => 0
  | byte :: rest => byte.toNat + 256 * ofLittleEndian rest

@[simp] theorem length_littleEndian (width n : ℕ) : (littleEndian width n).length = width := by
  induction width generalizing n with
  | zero => rfl
  | succ width ih => rw [littleEndian, List.length_cons, ih]

theorem ofLittleEndian_littleEndian {width n : ℕ} (fits : n < 256 ^ width) :
    ofLittleEndian (littleEndian width n) = n := by
  induction width generalizing n with
  | zero =>
      rw [Nat.pow_zero] at fits
      rw [littleEndian, ofLittleEndian]
      omega
  | succ width ih =>
      have quotient : n / 256 < 256 ^ width := by
        apply Nat.div_lt_of_lt_mul
        rw [← Nat.pow_succ']
        exact fits
      have low : (UInt8.ofNat (n % 256)).toNat = n % 256 := by
        rw [UInt8.toNat_ofNat', Nat.mod_mod]
      rw [littleEndian, ofLittleEndian, ih quotient, low]
      omega

/-- Take a number of so many bytes off the input. -/
def takeNumber (width : ℕ) (bytes : List UInt8) : Except Failure (ℕ × List UInt8) :=
  if width ≤ bytes.length then
    .ok (ofLittleEndian (bytes.take width), bytes.drop width)
  else .error .invalid

theorem takeNumber_littleEndian {width n : ℕ} (fits : n < 256 ^ width) (rest : List UInt8) :
    takeNumber width (littleEndian width n ++ rest) = .ok (n, rest) := by
  have enough : width ≤ (littleEndian width n ++ rest).length := by
    rw [List.length_append, length_littleEndian]
    omega
  rw [takeNumber, if_pos enough, List.take_left' (length_littleEndian width n),
    List.drop_left' (length_littleEndian width n), ofLittleEndian_littleEndian fits]

/-- A `u64`. -/
def u64 : Codec Failure UInt64 where
  encode value := littleEndian 8 value.toNat
  decode bytes := (takeNumber 8 bytes).map fun taken => (UInt64.ofNat taken.1, taken.2)
  decode_encode := by
    intro value rest
    rw [takeNumber_littleEndian value.toNat_lt, Except.map, UInt64.ofNat_toNat]

/-- A `u8`. -/
def u8 : Codec Failure UInt8 where
  encode value := [value]
  decode bytes :=
    match bytes with
    | [] => .error .invalid
    | value :: rest => .ok (value, rest)
  decode_encode := fun _ _ => rfl

/-! ## Compact integers -/

/-- The number of bytes of a number. -/
def byteWidth (n : ℕ) : ℕ := Nat.log 2 n / 8 + 1

theorem lt_pow_byteWidth (n : ℕ) : n < 256 ^ byteWidth n := by
  have base : (256 : ℕ) = 2 ^ 8 := rfl
  rw [base, ← Nat.pow_mul]
  have bits : Nat.log 2 n + 1 ≤ 8 * byteWidth n := by
    unfold byteWidth
    omega
  exact (Nat.lt_pow_succ_log_self (by decide) n).trans_le (Nat.pow_le_pow_right (by decide) bits)

theorem byteWidth_le {n : ℕ} (fits : n < 2 ^ 64) : byteWidth n ≤ 8 := by
  have log : Nat.log 2 n < 64 := Nat.log_lt_of_lt_pow' (by decide : (64 : ℕ) ≠ 0) fits
  unfold byteWidth
  omega

/-- A number really needs its bytes. -/
theorem pow_byteWidth_le {n : ℕ} (positive : n ≠ 0) : 256 ^ (byteWidth n - 1) ≤ n := by
  have base : (256 : ℕ) = 2 ^ 8 := rfl
  rw [base, ← Nat.pow_mul]
  have bits : 8 * (byteWidth n - 1) ≤ Nat.log 2 n := by
    unfold byteWidth
    omega
  exact (Nat.pow_le_pow_right (by decide) bits).trans (Nat.pow_log_le_self 2 positive)

theorem four_le_byteWidth {n : ℕ} (large : 2 ^ 30 ≤ n) : 4 ≤ byteWidth n := by
  have log : 30 ≤ Nat.log 2 n := Nat.le_log_of_pow_le (by omega) large
  unfold byteWidth
  omega

def encodeCompact (n : ℕ) : List UInt8 :=
  if n < 2 ^ 6 then littleEndian 1 (4 * n)
  else if n < 2 ^ 14 then littleEndian 2 (4 * n + 1)
  else if n < 2 ^ 30 then littleEndian 4 (4 * n + 2)
  else littleEndian 1 (4 * (byteWidth n - 4) + 3) ++ littleEndian (byteWidth n) n

/-- Read a number in one of the first three modes. -/
def takeShifted (width : ℕ) (bytes : List UInt8) : Except Failure (ℕ × List UInt8) :=
  (takeNumber width bytes).map fun taken => (taken.1 / 4, taken.2)

/-- Refuse a number that has a shorter form. -/
def atLeast (least : ℕ) (taken : ℕ × List UInt8) : Except Failure (ℕ × List UInt8) :=
  if least ≤ taken.1 then .ok taken else .error .invalid

/-- The smallest number that takes so many bytes in the last mode. -/
def leastOfWidth (width : ℕ) : ℕ := max (2 ^ 30) (256 ^ (width - 1))

def decodeCompact (bytes : List UInt8) : Except Failure (ℕ × List UInt8) :=
  match bytes with
  | [] => .error .invalid
  | first :: rest =>
      match first.toNat % 4 with
      | 0 => takeShifted 1 bytes
      | 1 => (takeShifted 2 bytes).bind (atLeast (2 ^ 6))
      | 2 => (takeShifted 4 bytes).bind (atLeast (2 ^ 14))
      | _ =>
          let width := first.toNat / 4 + 4
          (takeNumber width rest).bind (atLeast (leastOfWidth width))

/-- The first byte of a number decides the mode. -/
theorem decodeCompact_littleEndian (width n : ℕ) (rest : List UInt8) :
    decodeCompact (littleEndian (width + 1) n ++ rest) =
      match n % 4 with
      | 0 => takeShifted 1 (littleEndian (width + 1) n ++ rest)
      | 1 => (takeShifted 2 (littleEndian (width + 1) n ++ rest)).bind (atLeast (2 ^ 6))
      | 2 => (takeShifted 4 (littleEndian (width + 1) n ++ rest)).bind (atLeast (2 ^ 14))
      | _ => (takeNumber (n % 256 / 4 + 4) (littleEndian width (n / 256) ++ rest)).bind
          (atLeast (leastOfWidth (n % 256 / 4 + 4))) := by
  have low : (UInt8.ofNat (n % 256)).toNat = n % 256 := by
    rw [UInt8.toNat_ofNat', Nat.mod_mod]
  have mode : n % 256 % 4 = n % 4 := Nat.mod_mod_of_dvd n (by decide)
  rw [littleEndian, List.cons_append, decodeCompact]
  simp only [low, mode]

theorem bind_atLeast {taken : Except Failure (ℕ × List UInt8)} {least n : ℕ}
    {rest : List UInt8} (read : taken = .ok (n, rest)) (large : least ≤ n) :
    taken.bind (atLeast least) = .ok (n, rest) := by
  rw [read]
  exact if_pos large

theorem takeShifted_littleEndian {width n : ℕ} (mode : ℕ) (small : mode < 4)
    (fits : 4 * n + mode < 256 ^ width) (rest : List UInt8) :
    takeShifted width (littleEndian width (4 * n + mode) ++ rest) = .ok (n, rest) := by
  have shifted : (4 * n + mode) / 4 = n := by omega
  rw [takeShifted, takeNumber_littleEndian fits, Except.map, shifted]

theorem decodeCompact_encodeCompact {n : ℕ} (fits : n < 2 ^ 64) (rest : List UInt8) :
    decodeCompact (encodeCompact n ++ rest) = .ok (n, rest) := by
  unfold encodeCompact
  by_cases one : n < 2 ^ 6
  · have bound : 4 * n < 256 ^ (0 + 1) := by omega
    have mode : 4 * n % 4 = 0 := by omega
    rw [if_pos one, decodeCompact_littleEndian, mode]
    exact takeShifted_littleEndian 0 (by omega) bound rest
  · rw [if_neg one]
    by_cases two : n < 2 ^ 14
    · have bound : 4 * n + 1 < 256 ^ (1 + 1) := by omega
      have mode : (4 * n + 1) % 4 = 1 := by omega
      rw [if_pos two, decodeCompact_littleEndian, mode]
      exact bind_atLeast (takeShifted_littleEndian 1 (by omega) bound rest) (Nat.le_of_not_lt one)
    · rw [if_neg two]
      by_cases four : n < 2 ^ 30
      · have bound : 4 * n + 2 < 256 ^ (3 + 1) := by omega
        have mode : (4 * n + 2) % 4 = 2 := by omega
        rw [if_pos four, decodeCompact_littleEndian, mode]
        exact bind_atLeast (takeShifted_littleEndian 2 (by omega) bound rest)
          (Nat.le_of_not_lt two)
      · rw [if_neg four]
        have wide := byteWidth_le fits
        have narrow := four_le_byteWidth (Nat.le_of_not_lt four)
        have mode : (4 * (byteWidth n - 4) + 3) % 4 = 3 := by omega
        have count : (4 * (byteWidth n - 4) + 3) % 256 / 4 + 4 = byteWidth n := by omega
        rw [List.append_assoc, decodeCompact_littleEndian, mode]
        simp only [count]
        have least : leastOfWidth (byteWidth n) ≤ n :=
          max_le (Nat.le_of_not_lt four) (pow_byteWidth_le (by omega))
        exact bind_atLeast (takeNumber_littleEndian (lt_pow_byteWidth n) rest) least

/-- A compact `u64`. -/
def compactU64 : Codec Failure UInt64 where
  encode value := encodeCompact value.toNat
  decode bytes := (decodeCompact bytes).bind fun decoded =>
    if decoded.1 < 2 ^ 64 then .ok (UInt64.ofNat decoded.1, decoded.2) else .error .invalid
  decode_encode := by
    intro value rest
    rw [decodeCompact_encodeCompact value.toNat_lt]
    simp only [Except.bind]
    rw [if_pos value.toNat_lt, UInt64.ofNat_toNat]

/-! ## Vectors -/

def takeMany {Value : Type} (codec : Codec Failure Value) :
    ℕ → List UInt8 → Except Failure (List Value × List UInt8)
  | 0, bytes => .ok ([], bytes)
  | count + 1, bytes => (codec.decode bytes).bind fun (value, bytes) =>
      (takeMany codec count bytes).map fun (values, bytes) => (value :: values, bytes)

/-- The elements of a vector, after their count, a compact `u32`. -/
def readVec {Value : Type} (codec : Codec Failure Value) (bytes : List UInt8) :
    Except Failure (List Value) :=
  (decodeCompact bytes).bind fun (count, bytes) =>
    if count < 2 ^ 32 then (takeMany codec count bytes).map Prod.fst else .error .invalid

theorem takeMany_flatMap {Value : Type} (codec : Codec Failure Value) (values : List Value)
    (rest : List UInt8) :
    takeMany codec values.length (values.flatMap codec.encode ++ rest) = .ok (values, rest) := by
  induction values with
  | nil => rfl
  | cons value values ih =>
      rw [List.flatMap_cons, List.append_assoc, List.length_cons, takeMany, codec.decode_encode]
      simp only [Except.bind]
      rw [ih]
      rfl

/-- A vector; its count is read as a compact `u32`. -/
def vec {Value : Type} (codec : Codec Failure Value) :
    Codec Failure { values : List Value // values.length < 2 ^ 32 } where
  encode values := encodeCompact values.val.length ++ values.val.flatMap codec.encode
  decode bytes := (decodeCompact bytes).bind fun (count, bytes) =>
    (takeMany codec count bytes).bind fun (values, bytes) =>
      if fits : values.length < 2 ^ 32 then .ok (⟨values, fits⟩, bytes) else .error .invalid
  decode_encode := by
    intro values rest
    have count : values.val.length < 2 ^ 64 := values.property.trans (by decide)
    rw [List.append_assoc, decodeCompact_encodeCompact count]
    simp only [Except.bind]
    rw [takeMany_flatMap]
    exact dif_pos values.property

end Scale
end Foundation
end IpciBlockchain
