import Mathlib.Algebra.Order.Group.Nat

namespace IpciBlockchain
namespace Foundation

/-!
# Rounding down to a shifted grid

The points `phase`, `phase + period`, `phase + 2 * period` and so on divide
the numbers from the phase on into cells of one length.  A number is rounded
down to the first point of its cell; numbers before the phase are moved up to
it.  The point is the same for the whole cell and for no later number, which
is all that an observer needs who reconstructs it from a later number.
-/

namespace Grid

/-- The first point of the cell of a number. -/
def point (period phase m : ℕ) : ℕ :=
  (max m phase - phase) / period * period + phase

variable {period phase : ℕ}

theorem point_le {m : ℕ} (late : phase ≤ m) : point period phase m ≤ m := by
  have below := Nat.div_mul_le_self (m - phase) period
  unfold point
  rw [Nat.max_eq_left late]
  omega

/-- A number is less than one period past its point. -/
theorem lt_point_add (positive : 0 < period) (m : ℕ) : m < point period phase m + period := by
  have above := Nat.lt_div_mul_add (a := max m phase - phase) positive
  unfold point
  omega

/-- Every number of a cell has the same point. -/
theorem point_eq {k m : ℕ} (first : point period phase k ≤ m)
    (last : m < point period phase k + period) : point period phase m = point period phase k := by
  unfold point at first last ⊢
  have late : max m phase = m := by omega
  have next : ((max k phase - phase) / period + 1) * period =
      (max k phase - phase) / period * period + period := Nat.succ_mul _ _
  have same : (m - phase) / period = (max k phase - phase) / period :=
    Nat.div_eq_of_lt_le (by omega) (by omega)
  rw [late, same]

/-- A number past the cell has a later point. -/
theorem point_lt {k m : ℕ} (positive : 0 < period) (past : point period phase k + period ≤ m) :
    point period phase k < point period phase m := by
  have close : m < point period phase m + period := lt_point_add positive m
  omega

end Grid

end Foundation
end IpciBlockchain
