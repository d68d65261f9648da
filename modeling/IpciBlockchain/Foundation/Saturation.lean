import Mathlib.Algebra.Order.Group.Nat

namespace IpciBlockchain
namespace Foundation

/-!
# Saturating arithmetic on 64 bits

Sums and products that stop at the largest value instead of wrapping.  Their
value as a natural number is the exact result cut at that bound, and from
this they inherit the order properties of the exact operations.
-/

def saturatingAdd (a b : UInt64) : UInt64 :=
  if a.toNat + b.toNat < 2 ^ 64 then a + b else UInt64.ofNat (2 ^ 64 - 1)

def saturatingMul (a b : UInt64) : UInt64 :=
  if a.toNat * b.toNat < 2 ^ 64 then a * b else UInt64.ofNat (2 ^ 64 - 1)

@[simp] theorem toNat_saturatingAdd (a b : UInt64) :
    (saturatingAdd a b).toNat = min (a.toNat + b.toNat) (2 ^ 64 - 1) := by
  rw [saturatingAdd]
  split
  · rw [UInt64.toNat_add, Nat.mod_eq_of_lt ‹_›]
    omega
  · rw [UInt64.toNat_ofNat', Nat.mod_eq_of_lt (by omega)]
    omega

@[simp] theorem toNat_saturatingMul (a b : UInt64) :
    (saturatingMul a b).toNat = min (a.toNat * b.toNat) (2 ^ 64 - 1) := by
  rw [saturatingMul]
  split
  · rw [UInt64.toNat_mul, Nat.mod_eq_of_lt ‹_›]
    omega
  · rw [UInt64.toNat_ofNat', Nat.mod_eq_of_lt (by omega)]
    omega

theorem saturatingAdd_le_saturatingAdd {a a' b b' : UInt64} (left : a ≤ a') (right : b ≤ b') :
    saturatingAdd a b ≤ saturatingAdd a' b' := by
  rw [UInt64.le_iff_toNat_le] at *
  rw [toNat_saturatingAdd, toNat_saturatingAdd]
  omega

theorem le_saturatingAdd_left (a b : UInt64) : b ≤ saturatingAdd a b := by
  rw [UInt64.le_iff_toNat_le, toNat_saturatingAdd]
  have bound := b.toNat_lt
  omega

/-- A larger count costs no less. -/
theorem saturatingMul_le_saturatingMul (price : UInt64) {count count' : UInt64}
    (le : count ≤ count') : saturatingMul price count ≤ saturatingMul price count' := by
  rw [UInt64.le_iff_toNat_le] at *
  rw [toNat_saturatingMul, toNat_saturatingMul]
  have product := Nat.mul_le_mul_left price.toNat le
  omega

end Foundation
end IpciBlockchain
