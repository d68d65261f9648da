import IpciBlockchain.Runtime.Constants
import Mathlib.Algebra.BigOperators.Group.List.Basic
import Mathlib.Algebra.Order.Ring.Nat

namespace IpciBlockchain
namespace Runtime

/-!
# The fee for the weight of an extrinsic

The runtime describes the fee as a polynomial in the weight with a single
term of degree one.  Its coefficient is a quotient `p / q`, split into an
integer part and a fraction with nine decimal digits.  The divisor multiplies
the larger money unit by the base weight of an extrinsic, which makes the
quotient smaller than anything nine digits can hold: both parts are zero, and
so is the fee of every weight.

The fraction, its product with a balance and the evaluation of the polynomial
belong to Substrate.  They are fields of `FeeSupport`, and `Documented` says
what is relied on.
-/

/-- One term of a fee polynomial. -/
structure WeightToFeeCoefficient where
  coeffInteger : Balance
  coeffFrac : Perbill
  negative : Bool
  degree : ℕ
  deriving DecidableEq, Repr

/-- What the fee of the runtime takes from Substrate.  The field `calc_` is
`calc`, which Lean reserves. -/
structure FeeSupport where
  extrinsicBaseWeight : Weight
  fromRationalApproximation : Balance → Balance → Perbill
  mul : Perbill → Balance → Balance
  calc_ : List WeightToFeeCoefficient → Weight → Balance

/-- `Balance::from` a weight -/
def balanceFrom (weight : Weight) : Balance :=
  weight.toBitVec.setWidth 128

theorem toNat_balanceFrom (weight : Weight) : (balanceFrom weight).toNat = weight.toNat := by
  have bound := weight.toNat_lt
  unfold balanceFrom
  rw [BitVec.toNat_setWidth, UInt64.toNat_toBitVec, Nat.mod_eq_of_lt (by omega)]

namespace WeightToFee

variable (S : FeeSupport)

def polynomial : List WeightToFeeCoefficient :=
  let p := uMito
  let q := mito * balanceFrom S.extrinsicBaseWeight
  [{ degree := 1
     negative := false
     coeffFrac := S.fromRationalApproximation (p % q) q
     coeffInteger := p / q }]

/-- `WeightToFee::calc` -/
def calc_ (weight : Weight) : Balance :=
  S.calc_ (polynomial S) weight

end WeightToFee

namespace FeeSupport

variable (S : FeeSupport)

/-- The exact value of a polynomial of degree one, apart from the rounding of
each fractional product. -/
def linearSum (terms : List WeightToFeeCoefficient) (weight : Weight) : ℕ :=
  (terms.map fun term =>
    term.coeffInteger.toNat * weight.toNat + (S.mul term.coeffFrac (balanceFrom weight)).toNat).sum

/-- The documented behaviour that the fee depends on: a quotient below one part
per billion has no parts, a product is rounded to a neighbouring integer, and a
polynomial of degree one is summed over its terms. -/
structure Documented : Prop where
  extrinsicBaseWeight_eq : S.extrinsicBaseWeight = 125000000
  approximation_eq_zero : ∀ p q, p.toNat * 10 ^ 9 < q.toNat →
    (S.fromRationalApproximation p q).parts = 0
  mul_rounds : ∀ fraction balance,
    (S.mul fraction balance).toNat * 10 ^ 9 < fraction.parts * balance.toNat + 10 ^ 9 ∧
      fraction.parts * balance.toNat < (S.mul fraction balance).toNat * 10 ^ 9 + 10 ^ 9
  calc_sums : ∀ terms weight,
    (∀ term ∈ terms, term.degree = 1 ∧ term.negative = false) →
    S.linearSum terms weight < 2 ^ 128 →
    (S.calc_ terms weight).toNat = S.linearSum terms weight

end FeeSupport

namespace WeightToFee

variable {S : FeeSupport}

/-- The divisor of the coefficient is far larger than its dividend. -/
theorem toNat_divisor (documented : S.Documented) :
    (mito * balanceFrom S.extrinsicBaseWeight).toNat = 125 * 10 ^ 18 := by
  rw [documented.extrinsicBaseWeight_eq]
  decide

/-- The coefficient vanishes: its integer part is zero, and its fraction is
less than one part per billion. -/
theorem coefficient_eq_zero (documented : S.Documented) (term : WeightToFeeCoefficient)
    (member : term ∈ polynomial S) :
    term.coeffInteger = 0 ∧ term.coeffFrac.parts = 0 ∧ term.degree = 1 ∧
      term.negative = false := by
  have divisor := toNat_divisor documented
  have dividend : uMito.toNat = 10 ^ 6 := rfl
  have remainder : (uMito % (mito * balanceFrom S.extrinsicBaseWeight)).toNat = 10 ^ 6 := by
    rw [BitVec.toNat_umod, divisor, dividend, Nat.mod_eq_of_lt (by decide)]
  unfold polynomial at member
  rw [List.mem_singleton.mp member]
  refine ⟨?_, ?_, rfl, rfl⟩
  · apply BitVec.eq_of_toNat_eq
    rw [BitVec.toNat_udiv, divisor, dividend]
    rfl
  · apply documented.approximation_eq_zero
    rw [remainder, divisor]
    decide

/-- The fee of every weight is zero. -/
theorem calc_eq_zero (documented : S.Documented) (weight : Weight) : calc_ S weight = 0 := by
  have coefficients := coefficient_eq_zero documented
  have vanishes : S.linearSum (polynomial S) weight = 0 := by
    unfold FeeSupport.linearSum
    apply List.sum_eq_zero
    intro value member
    rcases List.mem_map.mp member with ⟨term, listed, rfl⟩
    rcases coefficients term listed with ⟨integer, fraction, _, _⟩
    have rounded := (documented.mul_rounds term.coeffFrac (balanceFrom weight)).1
    have none : term.coeffInteger.toNat = 0 := by
      rw [integer]
      rfl
    rw [fraction] at rounded
    rw [none]
    omega
  have sums := documented.calc_sums (polynomial S) weight
    (fun term listed => (coefficients term listed).2.2) (by rw [vanishes]; decide)
  rw [vanishes] at sums
  exact BitVec.eq_of_toNat_eq sums

/-- However Substrate rounds, no extrinsic pays more for its weight than
another: a weight that exceeds another one by the base weight of an extrinsic
does not cost more, and every weight costs nothing. -/
theorem fee_never_increases (S : FeeSupport) (documented : S.Documented) :
    (∀ v w : Weight, v.toNat + S.extrinsicBaseWeight.toNat ≤ w.toNat →
      ¬ calc_ S v < calc_ S w) ∧
    ∀ w : Weight, calc_ S w = 0 := by
  constructor
  · intro v w _ less
    rw [calc_eq_zero documented v, calc_eq_zero documented w] at less
    exact absurd less (BitVec.lt_irrefl 0)
  · exact calc_eq_zero documented

/-! ## A fee arithmetic -/

/-- A natural number as a balance, cut at the largest balance. -/
def saturated (n : ℕ) : Balance :=
  BitVec.ofNat 128 (min n (2 ^ 128 - 1))

theorem toNat_saturated {n : ℕ} (fits : n < 2 ^ 128) : (saturated n).toNat = n := by
  have cut : min n (2 ^ 128 - 1) = n := by omega
  unfold saturated
  rw [BitVec.toNat_ofNat, cut, Nat.mod_eq_of_lt fits]

/-- The product of a fraction with a balance, rounded to the nearest integer,
and down in the middle. -/
def roundedProduct (fraction : Perbill) (balance : Balance) : Balance :=
  saturated ((fraction.parts * balance.toNat + (5 * 10 ^ 8 - 1)) / 10 ^ 9)

/-- A quotient in parts per billion.  Dividend and divisor are first divided by
a factor that brings them below a billion. -/
def approximation (p q : Balance) : Perbill :=
  let divisor := max q.toNat 1
  let dividend := min p.toNat divisor
  let factor := max ((divisor + (10 ^ 9 - 1)) / 10 ^ 9) 1
  { parts := dividend / factor * 10 ^ 9 / (divisor / factor)
    parts_le := by
      have below : dividend / factor ≤ divisor / factor :=
        Nat.div_le_div_right (Nat.min_le_right _ _)
      calc
        dividend / factor * 10 ^ 9 / (divisor / factor)
            ≤ divisor / factor * 10 ^ 9 / (divisor / factor) :=
          Nat.div_le_div_right (Nat.mul_le_mul_right _ below)
        _ ≤ 10 ^ 9 := Nat.div_le_of_le_mul le_rfl }

/-- One step of the evaluation of a polynomial. -/
def accumulate (weight : Weight) (acc : Balance) (term : WeightToFeeCoefficient) : Balance :=
  let w := saturated (weight.toNat ^ term.degree)
  let frac := roundedProduct term.coeffFrac w
  let integer := saturated (term.coeffInteger.toNat * w.toNat)
  if term.negative then saturated (acc.toNat - frac.toNat - integer.toNat)
  else saturated (acc.toNat + frac.toNat + integer.toNat)

/-- An arithmetic that behaves as documented, for fees of given weights: sums and
products saturate. -/
def sampleSupport : FeeSupport where
  extrinsicBaseWeight := 125000000
  fromRationalApproximation := approximation
  mul := roundedProduct
  calc_ := fun terms weight => terms.foldl (accumulate weight) 0

theorem toNat_roundedProduct (fraction : Perbill) (balance : Balance) :
    (roundedProduct fraction balance).toNat =
      (fraction.parts * balance.toNat + (5 * 10 ^ 8 - 1)) / 10 ^ 9 := by
  have bound := balance.isLt
  have product := Nat.mul_le_mul_right balance.toNat fraction.parts_le
  exact toNat_saturated (by omega)

theorem toNat_accumulate {weight : Weight} {acc : Balance} {term : WeightToFeeCoefficient}
    (degree : term.degree = 1) (sign : term.negative = false)
    (fits : acc.toNat + (term.coeffInteger.toNat * weight.toNat +
      (roundedProduct term.coeffFrac (balanceFrom weight)).toNat) < 2 ^ 128) :
    (accumulate weight acc term).toNat = acc.toNat + (term.coeffInteger.toNat * weight.toNat +
      (roundedProduct term.coeffFrac (balanceFrom weight)).toNat) := by
  have bound := weight.toNat_lt
  have power : saturated (weight.toNat ^ 1) = balanceFrom weight := by
    apply BitVec.eq_of_toNat_eq
    rw [Nat.pow_one, toNat_saturated (by omega), toNat_balanceFrom]
  have integer : (saturated (term.coeffInteger.toNat * weight.toNat)).toNat =
      term.coeffInteger.toNat * weight.toNat := toNat_saturated (by omega)
  simp only [accumulate, degree, sign, power, toNat_balanceFrom, integer, Bool.false_eq_true,
    if_false]
  rw [toNat_saturated (by omega)]
  omega

theorem toNat_foldl_accumulate {terms : List WeightToFeeCoefficient} {weight : Weight}
    (linear : ∀ term ∈ terms, term.degree = 1 ∧ term.negative = false) (acc : Balance)
    (fits : acc.toNat + sampleSupport.linearSum terms weight < 2 ^ 128) :
    (terms.foldl (accumulate weight) acc).toNat =
      acc.toNat + sampleSupport.linearSum terms weight := by
  induction terms generalizing acc with
  | nil => rfl
  | cons term rest ih =>
      have split : sampleSupport.linearSum (term :: rest) weight =
          term.coeffInteger.toNat * weight.toNat +
            (roundedProduct term.coeffFrac (balanceFrom weight)).toNat +
            sampleSupport.linearSum rest weight := rfl
      rw [split] at fits
      rcases linear term List.mem_cons_self with ⟨degree, sign⟩
      have first : (accumulate weight acc term).toNat = _ :=
        toNat_accumulate degree sign (by omega)
      have later := ih (fun other listed => linear other (List.mem_cons_of_mem _ listed))
        (accumulate weight acc term) (by rw [first]; omega)
      rw [List.foldl_cons, later, first, split]
      omega

theorem sampleSupport_documented : sampleSupport.Documented where
  extrinsicBaseWeight_eq := rfl
  approximation_eq_zero := by
    intro p q small
    have factor : min p.toNat (max q.toNat 1) <
        max ((max q.toNat 1 + (10 ^ 9 - 1)) / 10 ^ 9) 1 := by
      omega
    change min p.toNat (max q.toNat 1) / max ((max q.toNat 1 + (10 ^ 9 - 1)) / 10 ^ 9) 1 *
      10 ^ 9 / _ = 0
    rw [Nat.div_eq_of_lt factor, Nat.zero_mul, Nat.zero_div]
  mul_rounds := by
    intro fraction balance
    have product : (sampleSupport.mul fraction balance).toNat = _ :=
      toNat_roundedProduct fraction balance
    rw [product]
    omega
  calc_sums := by
    intro terms weight linear fits
    have zero : (0 : Balance).toNat = 0 := rfl
    have room : (0 : Balance).toNat + sampleSupport.linearSum terms weight < 2 ^ 128 := by
      rw [zero, Nat.zero_add]
      exact fits
    have sums := toNat_foldl_accumulate linear 0 room
    rw [zero, Nat.zero_add] at sums
    exact sums

theorem fee_never_increases_sample :
    (∀ v w : Weight, v.toNat + sampleSupport.extrinsicBaseWeight.toNat ≤ w.toNat →
      ¬ calc_ sampleSupport v < calc_ sampleSupport w) ∧
    ∀ w : Weight, calc_ sampleSupport w = 0 :=
  fee_never_increases sampleSupport sampleSupport_documented

/-- The base weight of an extrinsic exceeds the weight zero by itself, is
within the weight of a block, and costs as little. -/
theorem base_weight_is_free :
    (0 : Weight).toNat + sampleSupport.extrinsicBaseWeight.toNat ≤ (125000000 : Weight).toNat ∧
    (125000000 : Weight) ≤ maximumBlockWeight ∧
    ¬ calc_ sampleSupport 0 < calc_ sampleSupport 125000000 := by
  decide +kernel

end WeightToFee

end Runtime
end IpciBlockchain
