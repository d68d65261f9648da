import Mathlib.Data.BitVec

namespace IpciBlockchain
namespace Runtime

/-!
# Constants of the runtime

The number types and the money constants that several parts of the runtime
share.
-/

abbrev Balance := BitVec 128

abbrev Weight := UInt64

/-- A fraction in parts per billion. -/
structure Perbill where
  parts : ℕ
  parts_le : parts ≤ 10 ^ 9
  deriving DecidableEq, Repr

/-- `Perbill::from_percent` -/
def Perbill.fromPercent (percent : ℕ) : Perbill where
  parts := min percent 100 * 10 ^ 7
  parts_le := Nat.mul_le_mul_right (10 ^ 7) (Nat.min_le_right percent 100)

def uMito : Balance := 1000000

def mito : Balance := 1000000 * uMito

/-- Weights count picoseconds. -/
def weightPerSecond : Weight := 1000000000000

/-- We allow for 2 seconds of compute with a 6 second average block time. -/
def maximumBlockWeight : Weight := 2 * weightPerSecond

end Runtime
end IpciBlockchain
