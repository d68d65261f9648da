import IpciBlockchain.Foundation.Quantization
import IpciBlockchain.Runtime.Constants
import Mathlib.Algebra.BigOperators.Ring.List
import Mathlib.Algebra.Group.Action.Defs
import Mathlib.Algebra.Order.Ring.Nat
import Mathlib.Algebra.Ring.Basic

namespace IpciBlockchain
namespace Runtime

open Foundation

/-!
# Election votes from stake

The election counts votes in 64 bits while balances have 128.  The handler
divides by a factor that depends on the total issuance, so that votes fit,
and multiplies by it to convert back.

The factor is the issuance divided by `2^64 - 1`, rounded down.  Where the
rounding drops too much, the largest stakes still do not fit in 64 bits and
the cast truncates them.  A truncated vote is a smaller vote, however, so
that truncation never lets votes be worth more than the stake behind them.
-/

namespace CurrencyToVoteHandler

variable (totalIssuance : Balance)

/-- `(Balances::total_issuance() / u64::max_value() as Balance).max(1)` -/
def factor : Balance :=
  let quotient := totalIssuance / BitVec.ofNat 128 (2 ^ 64 - 1)
  if quotient < 1 then 1 else quotient

/-- `Convert<Balance, u64>`.  The cast keeps the low 64 bits. -/
def convert (x : Balance) : UInt64 :=
  UInt64.ofBitVec ((x / factor totalIssuance).setWidth 64)

/-- `Convert<u128, Balance>`.  The product wraps in the release build. -/
def convertBack (x : BitVec 128) : Balance :=
  x * factor totalIssuance

/-- The argument that the 64-bit vote is for the conversion back. -/
def asU128 (vote : UInt64) : BitVec 128 :=
  vote.toBitVec.setWidth 128

/-! ## Values -/

theorem toNat_factor :
    (factor totalIssuance).toNat = max (totalIssuance.toNat / (2 ^ 64 - 1)) 1 := by
  have quotient : (totalIssuance / BitVec.ofNat 128 (2 ^ 64 - 1)).toNat =
      totalIssuance.toNat / (2 ^ 64 - 1) := by
    rw [BitVec.toNat_udiv, BitVec.toNat_ofNat, Nat.mod_eq_of_lt (by decide)]
  have one : (1 : Balance).toNat = 1 := rfl
  simp only [factor, BitVec.lt_def, quotient, one]
  split
  · rw [one]
    omega
  · rw [quotient]
    omega

theorem factor_pos : 0 < (factor totalIssuance).toNat := by
  rw [toNat_factor]
  omega

theorem toNat_convert (x : Balance) :
    (convert totalIssuance x).toNat = x.toNat / (factor totalIssuance).toNat % 2 ^ 64 := by
  rw [convert, UInt64.toNat_ofBitVec, BitVec.toNat_setWidth, BitVec.toNat_udiv]

theorem toNat_asU128 (vote : UInt64) : (asU128 vote).toNat = vote.toNat := by
  have bound := vote.toNat_lt
  rw [asU128, BitVec.toNat_setWidth, UInt64.toNat_toBitVec, Nat.mod_eq_of_lt (by omega)]

theorem toNat_convertBack {x : BitVec 128}
    (fits : x.toNat * (factor totalIssuance).toNat < 2 ^ 128) :
    (convertBack totalIssuance x).toNat = x.toNat * (factor totalIssuance).toNat := by
  rw [convertBack, BitVec.toNat_mul, Nat.mod_eq_of_lt fits]

/-- A vote never exceeds the quotient it is cast from. -/
theorem convert_le_quotient (x : Balance) :
    (convert totalIssuance x).toNat ≤ x.toNat / (factor totalIssuance).toNat := by
  rw [toNat_convert]
  exact Nat.mod_le _ _

/-- A vote converted back is its product with the factor, and never more than
the balance. -/
theorem convertBack_convert (x : Balance) :
    (convertBack totalIssuance (asU128 (convert totalIssuance x))).toNat =
        (convert totalIssuance x).toNat * (factor totalIssuance).toNat ∧
      (convert totalIssuance x).toNat * (factor totalIssuance).toNat ≤ x.toNat := by
  have within : (convert totalIssuance x).toNat * (factor totalIssuance).toNat ≤ x.toNat :=
    calc
      (convert totalIssuance x).toNat * (factor totalIssuance).toNat
          ≤ x.toNat / (factor totalIssuance).toNat * (factor totalIssuance).toNat :=
        Nat.mul_le_mul_right _ (convert_le_quotient totalIssuance x)
      _ ≤ x.toNat := Nat.div_mul_le_self _ _
  have bound := x.isLt
  refine ⟨?_, within⟩
  rw [toNat_convertBack, toNat_asU128]
  rw [toNat_asU128]
  omega

/-! ## When the cast truncates -/

/-- The quotient of the whole issuance fits in 64 bits exactly when the
division by `2^64 - 1` left a remainder smaller than its quotient, or had the
quotient zero. -/
theorem issuance_quotient_lt_iff :
    totalIssuance.toNat / (factor totalIssuance).toNat < 2 ^ 64 ↔
      totalIssuance.toNat < 2 ^ 64 - 1 ∨
        totalIssuance.toNat % (2 ^ 64 - 1) < totalIssuance.toNat / (2 ^ 64 - 1) := by
  have split := Nat.div_add_mod totalIssuance.toNat (2 ^ 64 - 1)
  rw [Nat.div_lt_iff_lt_mul (factor_pos totalIssuance), toNat_factor]
  by_cases small : totalIssuance.toNat < 2 ^ 64 - 1
  · rw [Nat.div_eq_of_lt small]
    exact iff_of_true (by omega) (Or.inl small)
  · have positive : 1 ≤ totalIssuance.toNat / (2 ^ 64 - 1) :=
      Nat.div_pos (Nat.le_of_not_lt small) (by decide)
    rw [Nat.max_eq_left positive]
    omega

/-- If the quotient of the issuance fits, no balance up to the issuance is
truncated. -/
theorem toNat_convert_of_le
    (fits : totalIssuance.toNat / (factor totalIssuance).toNat < 2 ^ 64) {x : Balance}
    (le : x.toNat ≤ totalIssuance.toNat) :
    (convert totalIssuance x).toNat = x.toNat / (factor totalIssuance).toNat := by
  have quotientLe := Nat.div_le_div_right (c := (factor totalIssuance).toNat) le
  rw [toNat_convert, Nat.mod_eq_of_lt (quotientLe.trans_lt fits)]

/-- Otherwise the issuance itself loses at least one factor. -/
theorem convertBack_convert_issuance_of_le
    (overflows : 2 ^ 64 ≤ totalIssuance.toNat / (factor totalIssuance).toNat) :
    (convertBack totalIssuance (asU128 (convert totalIssuance totalIssuance))).toNat +
      (factor totalIssuance).toNat ≤ totalIssuance.toNat := by
  have short : (convert totalIssuance totalIssuance).toNat + 1 ≤
      totalIssuance.toNat / (factor totalIssuance).toNat := by
    have bound := (convert totalIssuance totalIssuance).toNat_lt
    omega
  rw [(convertBack_convert totalIssuance totalIssuance).1]
  calc
    (convert totalIssuance totalIssuance).toNat * (factor totalIssuance).toNat +
        (factor totalIssuance).toNat
        = ((convert totalIssuance totalIssuance).toNat + 1) *
            (factor totalIssuance).toNat := by rw [Nat.add_mul, Nat.one_mul]
    _ ≤ totalIssuance.toNat / (factor totalIssuance).toNat *
          (factor totalIssuance).toNat := Nat.mul_le_mul_right _ short
    _ ≤ totalIssuance.toNat := Nat.div_mul_le_self _ _

/-- The conversion to votes keeps the order of all balances that can exist,
and loses less than one factor, exactly under the issuances whose division by
`2^64 - 1` leaves a remainder smaller than its quotient, or is zero. -/
theorem convert_faithful_iff :
    (∀ x y : Balance, x ≤ y → y ≤ totalIssuance →
      convert totalIssuance x ≤ convert totalIssuance y ∧
      (convertBack totalIssuance (asU128 (convert totalIssuance x))).toNat ≤ x.toNat ∧
      x.toNat < (convertBack totalIssuance (asU128 (convert totalIssuance x))).toNat +
        (factor totalIssuance).toNat) ↔
      totalIssuance.toNat < 2 ^ 64 - 1 ∨
        totalIssuance.toNat % (2 ^ 64 - 1) < totalIssuance.toNat / (2 ^ 64 - 1) := by
  rw [← issuance_quotient_lt_iff]
  constructor
  · intro faithful
    by_contra overflows
    have loses :=
      convertBack_convert_issuance_of_le totalIssuance (Nat.le_of_not_lt overflows)
    have keeps := (faithful totalIssuance totalIssuance (BitVec.le_refl _) (BitVec.le_refl _)).2.2
    omega
  · intro fits x y le existing
    have leNat := BitVec.le_def.mp le
    have existingNat := BitVec.le_def.mp existing
    have converted := toNat_convert_of_le totalIssuance fits (leNat.trans existingNat)
    have converted' := toNat_convert_of_le totalIssuance fits existingNat
    rcases convertBack_convert totalIssuance x with ⟨product, within⟩
    refine ⟨?_, product.trans_le within, ?_⟩
    · rw [UInt64.le_iff_toNat_le, converted, converted']
      exact Nat.div_le_div_right leNat
    · rw [product, converted]
      exact Nat.lt_div_mul_add (factor_pos totalIssuance)

/-- With an issuance of `2^64` the factor is one, and the stake of the whole
issuance becomes no vote at all. -/
theorem convert_truncates_issuance :
    convert (2 ^ 64) (2 ^ 64) = 0 ∧ convert (2 ^ 64) (2 ^ 64 - 1) = 18446744073709551615 ∧
    ¬ (2 ^ 64 : Balance).toNat <
      (convertBack (2 ^ 64) (asU128 (convert (2 ^ 64) (2 ^ 64)))).toNat +
        (factor (2 ^ 64)).toNat := by
  decide +kernel

/-! ## Votes and the stake behind them -/

/-- The worth of votes is additive, and rounding down is its adjoint. -/
theorem galoisConnection_factor :
    GaloisConnection (AddMonoidHom.mulRight (factor totalIssuance).toNat)
      fun stake => stake / (factor totalIssuance).toNat :=
  Nat.galoisConnection_mul_div (factor_pos totalIssuance)

/-- Votes up to the sum of the converted stakes are worth no more than the
stakes, truncated or not. -/
theorem votes_le_stakes {stakes : List Balance} {votes : ℕ}
    (budget : votes ≤ (stakes.map fun x => (convert totalIssuance x).toNat).sum) :
    votes * (factor totalIssuance).toNat ≤ (stakes.map BitVec.toNat).sum := by
  have deflates : ∀ stake : ℕ, stake / (factor totalIssuance).toNat % 2 ^ 64 ≤
      stake / (factor totalIssuance).toNat := fun stake => Nat.mod_le _ _
  simp only [toNat_convert] at budget
  apply Quantization.worth_le_sum (galoisConnection_factor totalIssuance) deflates
  rw [List.map_map]
  exact budget

/-- Converting votes back never creates stake.  For every issuance and every
list of stakes within it, a number of votes within the sum of the converted
stakes is multiplied without overflow into at most the sum of the stakes, and
any split of those votes is converted, part by part, into the same amount. -/
theorem votes_never_create_stake (stakes : List Balance)
    (within : (stakes.map BitVec.toNat).sum ≤ totalIssuance.toNat) (votes : BitVec 128)
    (budget : votes.toNat ≤ (stakes.map fun x => (convert totalIssuance x).toNat).sum) :
    votes.toNat * (factor totalIssuance).toNat < 2 ^ 128 ∧
      (convertBack totalIssuance votes).toNat ≤ (stakes.map BitVec.toNat).sum ∧
      ∀ parts : List (BitVec 128), (parts.map BitVec.toNat).sum = votes.toNat →
        (∀ part ∈ parts, part.toNat * (factor totalIssuance).toNat < 2 ^ 128) ∧
        (parts.map fun part => (convertBack totalIssuance part).toNat).sum =
          (convertBack totalIssuance votes).toNat ∧
        (parts.map fun part => (convertBack totalIssuance part).toNat).sum ≤
          (stakes.map BitVec.toNat).sum := by
  have bounded := votes_le_stakes totalIssuance budget
  have issued := totalIssuance.isLt
  have fits : votes.toNat * (factor totalIssuance).toNat < 2 ^ 128 := by omega
  have worth : (convertBack totalIssuance votes).toNat ≤ (stakes.map BitVec.toNat).sum := by
    rw [toNat_convertBack totalIssuance fits]
    exact bounded
  refine ⟨fits, worth, ?_⟩
  intro parts split
  have partFits : ∀ part ∈ parts, part.toNat * (factor totalIssuance).toNat < 2 ^ 128 := by
    intro part member
    have le : part.toNat ≤ votes.toNat :=
      split ▸ List.le_sum_of_mem (List.mem_map_of_mem member)
    exact (Nat.mul_le_mul_right _ le).trans_lt fits
  have total : (parts.map fun part => (convertBack totalIssuance part).toNat).sum =
      (convertBack totalIssuance votes).toNat :=
    calc
      (parts.map fun part => (convertBack totalIssuance part).toNat).sum
          = (parts.map fun part => part.toNat * (factor totalIssuance).toNat).sum :=
        congrArg List.sum (List.map_congr_left fun part member =>
          toNat_convertBack totalIssuance (partFits part member))
      _ = (parts.map BitVec.toNat).sum * (factor totalIssuance).toNat :=
        List.sum_map_mul_right _ _ _
      _ = (convertBack totalIssuance votes).toNat := by
        rw [split, toNat_convertBack totalIssuance fits]
  exact ⟨partFits, total, total.trans_le worth⟩

theorem votes_never_create_stake_truncated :
    (7 : BitVec 128).toNat * (factor (2 ^ 64 + 10)).toNat < 2 ^ 128 ∧
      (convertBack (2 ^ 64 + 10) 7).toNat ≤
        (([2 ^ 64 + 3, 5] : List Balance).map BitVec.toNat).sum ∧
      ∀ parts : List (BitVec 128), (parts.map BitVec.toNat).sum = (7 : BitVec 128).toNat →
        (∀ part ∈ parts, part.toNat * (factor (2 ^ 64 + 10)).toNat < 2 ^ 128) ∧
        (parts.map fun part => (convertBack (2 ^ 64 + 10) part).toNat).sum =
          (convertBack (2 ^ 64 + 10) 7).toNat ∧
        (parts.map fun part => (convertBack (2 ^ 64 + 10) part).toNat).sum ≤
          (([2 ^ 64 + 3, 5] : List Balance).map BitVec.toNat).sum :=
  votes_never_create_stake (2 ^ 64 + 10) [2 ^ 64 + 3, 5] (by decide +kernel) 7
    (by decide +kernel)

/-! ## What an election can lose -/

/-- The worth of any number of votes of 64 bits is within the issuance, or
within 64 bits if the issuance is small. -/
theorem vote_mul_factor_le (vote : UInt64) :
    vote.toNat * (factor totalIssuance).toNat ≤ max totalIssuance.toNat (2 ^ 64 - 1) := by
  have small : vote.toNat ≤ 2 ^ 64 - 1 := Nat.le_pred_of_lt vote.toNat_lt
  rw [toNat_factor]
  rcases Nat.le_total (totalIssuance.toNat / (2 ^ 64 - 1)) 1 with one | large
  · rw [Nat.max_eq_right one, Nat.mul_one]
    exact small.trans (Nat.le_max_right _ _)
  · rw [Nat.max_eq_left large]
    calc
      vote.toNat * (totalIssuance.toNat / (2 ^ 64 - 1))
          ≤ (2 ^ 64 - 1) * (totalIssuance.toNat / (2 ^ 64 - 1)) := Nat.mul_le_mul_right _ small
      _ ≤ totalIssuance.toNat := Nat.mul_div_le _ _
      _ ≤ max totalIssuance.toNat (2 ^ 64 - 1) := Nat.le_max_left _ _

/-- A stake whose quotient fits loses at most what is below one factor. -/
theorem le_convert_mul_add {x : Balance}
    (fits : x.toNat / (factor totalIssuance).toNat < 2 ^ 64) :
    x.toNat ≤ (convert totalIssuance x).toNat * (factor totalIssuance).toNat +
      ((factor totalIssuance).toNat - 1) := by
  have remainder := Nat.lt_div_mul_add (factor_pos totalIssuance) (a := x.toNat)
  rw [toNat_convert, Nat.mod_eq_of_lt fits]
  omega

/-- Every vote survives: under every issuance, converting a vote to a balance
does not overflow, and converting the balance gives the vote again.  A list of
stakes whose quotients fit loses, converted to votes and back, less than one
factor for each of its members. -/
theorem votes_survive :
    (∀ vote : UInt64, (asU128 vote).toNat * (factor totalIssuance).toNat < 2 ^ 128 ∧
      convert totalIssuance (convertBack totalIssuance (asU128 vote)) = vote) ∧
    ∀ stakes : List Balance,
      (∀ x ∈ stakes, x.toNat / (factor totalIssuance).toNat < 2 ^ 64) →
      (stakes.map BitVec.toNat).sum ≤
        (stakes.map fun x =>
          (convertBack totalIssuance (asU128 (convert totalIssuance x))).toNat).sum +
        stakes.length * ((factor totalIssuance).toNat - 1) := by
  constructor
  · intro vote
    have bound := vote_mul_factor_le totalIssuance vote
    have issued := totalIssuance.isLt
    have fits : (asU128 vote).toNat * (factor totalIssuance).toNat < 2 ^ 128 := by
      rw [toNat_asU128]
      omega
    refine ⟨fits, UInt64.toNat_inj.mp ?_⟩
    rw [toNat_convert, toNat_convertBack totalIssuance fits, toNat_asU128,
      Nat.mul_div_cancel _ (factor_pos totalIssuance), Nat.mod_eq_of_lt vote.toNat_lt]
  · intro stakes untruncated
    have near : ∀ amount ∈ stakes.map BitVec.toNat,
        amount ≤ AddMonoidHom.mulRight (factor totalIssuance).toNat
          (amount / (factor totalIssuance).toNat % 2 ^ 64) +
            ((factor totalIssuance).toNat - 1) := by
      intro amount member
      rcases List.mem_map.mp member with ⟨x, listed, rfl⟩
      rw [AddMonoidHom.mulRight_apply, ← toNat_convert]
      exact le_convert_mul_add totalIssuance (untruncated x listed)
    have back : (stakes.map fun x =>
        (convertBack totalIssuance (asU128 (convert totalIssuance x))).toNat).sum =
          AddMonoidHom.mulRight (factor totalIssuance).toNat
            ((stakes.map BitVec.toNat).map fun amount =>
              amount / (factor totalIssuance).toNat % 2 ^ 64).sum := by
      rw [map_list_sum, List.map_map, List.map_map]
      apply congrArg List.sum
      apply List.map_congr_left
      intro x _
      rw [(convertBack_convert totalIssuance x).1, toNat_convert]
      rfl
    have total := Quantization.sum_le_worth_add near
    rw [List.length_map, smul_eq_mul] at total
    rw [back]
    exact total

end CurrencyToVoteHandler

end Runtime
end IpciBlockchain
