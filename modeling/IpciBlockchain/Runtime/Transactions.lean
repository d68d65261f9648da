import IpciBlockchain.Foundation.Grid
import IpciBlockchain.Runtime.Constants
import Mathlib.Data.Nat.Log

namespace IpciBlockchain
namespace Runtime

open Foundation

/-!
# Transactions that the runtime signs itself

An offchain worker signs its transactions for an era, a span of blocks that
starts at a birth block.  The era is signed as a period and a phase only:
whoever checks the transaction later recomputes the birth block from the
current block, and needs the hash of that block.  The chain keeps the hashes
of the last `BlockHashCount` blocks.

The runtime takes about half of `BlockHashCount` for the period.  Eras,
payloads and signatures belong to Substrate; they are fields of
`TransactionSupport`, and `Documented` says what is relied on.
-/

/-- `sp_runtime`'s era: a period and a quantized phase. -/
inductive Era where
  | immortal
  | mortal (period phase : UInt64)
  deriving DecidableEq, Repr

/-- The extensions of a signed extrinsic that carry data. -/
structure SignedExtra where
  checkEra : Era
  checkNonce : UInt32
  chargeTransactionPayment : Balance
  deriving DecidableEq, Repr

/-- What `create_transaction` takes from Substrate and from the signing key's
pallet. -/
structure TransactionSupport (Call Public AccountId Address Signature Payload : Type) where
  mortal : UInt64 → UInt64 → Era
  birth : Era → UInt64 → UInt64
  newPayload : Call → SignedExtra → Option Payload
  deconstruct : Payload → Call × SignedExtra
  sign : Payload → Public → Option Signature
  unlookup : AccountId → Address

/-- `u32::checked_next_power_of_two` -/
def checkedNextPowerOfTwo (n : UInt32) : Option UInt32 :=
  if 2 ^ Nat.clog 2 n.toNat < 2 ^ 32 then some (UInt32.ofNat (2 ^ Nat.clog 2 n.toNat)) else none

/-- Take the biggest period possible. -/
def signingPeriod (blockHashCount : UInt32) : UInt64 :=
  (((checkedNextPowerOfTwo blockHashCount).map fun c => c / 2).getD 2).toUInt64

/-- The `System::block_number` is initialized with `n+1`, so the actual block
number is `n`. -/
def currentBlock (blockNumber : UInt32) : UInt64 :=
  if blockNumber.toUInt64 = 0 then 0 else blockNumber.toUInt64 - 1

section Signing

variable {Call Public AccountId Address Signature Payload : Type}
  (S : TransactionSupport Call Public AccountId Address Signature Payload)

/-- `create_transaction`, at the given `BlockHashCount` and
`System::block_number`. -/
def createTransaction (blockHashCount blockNumber : UInt32) (call : Call) (public_ : Public)
    (account : AccountId) (nonce : UInt32) : Option (Call × Address × Signature × SignedExtra) := do
  let tip : Balance := 0
  let period := signingPeriod blockHashCount
  let current := currentBlock blockNumber
  let era := S.mortal period current
  let extra : SignedExtra :=
    { checkEra := era, checkNonce := nonce, chargeTransactionPayment := tip }
  let rawPayload ← S.newPayload call extra
  let signature ← S.sign rawPayload public_
  let address := S.unlookup account
  let (call, extra) := S.deconstruct rawPayload
  return (call, address, signature, extra)

namespace TransactionSupport

/-- The documented behaviour of eras and payloads.  A mortal era rounds its
period up to a power of two between 4 and 65536 and quantizes the phase of
its block; the birth block is found by rounding down to the grid of the
period and the phase.  A payload keeps what it was made of. -/
structure Documented : Prop where
  mortal_eq : ∀ period current, ∃ period' phase, S.mortal period current = .mortal period' phase ∧
    period'.toNat = max (min (2 ^ Nat.clog 2 period.toNat) 65536) 4 ∧
    phase.toNat = current.toNat % period'.toNat / max (period'.toNat / 4096) 1 *
      max (period'.toNat / 4096) 1
  birth_eq : ∀ period phase m, 0 < period.toNat →
    (S.birth (.mortal period phase) m).toNat =
      (max m.toNat phase.toNat - phase.toNat) / period.toNat * period.toNat + phase.toNat
  deconstruct_eq : ∀ call extra payload, S.newPayload call extra = some payload →
    S.deconstruct payload = (call, extra)

end TransactionSupport

/-- A transaction is returned whenever a payload and a signature can be made,
and what is signed into it is the era of the signing block. -/
theorem createTransaction_eq_some_iff (documented : S.Documented)
    (blockHashCount blockNumber nonce : UInt32) (call : Call) (public_ : Public)
    (account : AccountId) (transaction : Call × Address × Signature × SignedExtra) :
    createTransaction S blockHashCount blockNumber call public_ account nonce =
        some transaction ↔
      ∃ payload signature,
        S.newPayload call ⟨S.mortal (signingPeriod blockHashCount) (currentBlock blockNumber),
          nonce, 0⟩ = some payload ∧
        S.sign payload public_ = some signature ∧
        transaction = (call, S.unlookup account, signature,
          ⟨S.mortal (signingPeriod blockHashCount) (currentBlock blockNumber), nonce, 0⟩) := by
  simp only [createTransaction, Option.bind_eq_bind, Option.bind_eq_some_iff]
  constructor
  · rintro ⟨payload, made, signature, signed, returned⟩
    refine ⟨payload, signature, made, signed, ?_⟩
    change some ((S.deconstruct payload).1, S.unlookup account, signature,
      (S.deconstruct payload).2) = some transaction at returned
    rw [documented.deconstruct_eq _ _ _ made] at returned
    exact (Option.some_injective _ returned).symm
  · rintro ⟨payload, signature, made, signed, rfl⟩
    refine ⟨payload, made, signature, signed, ?_⟩
    change some ((S.deconstruct payload).1, S.unlookup account, signature,
      (S.deconstruct payload).2) = _
    rw [documented.deconstruct_eq _ _ _ made]

end Signing

/-! ## The block and the period -/

theorem toNat_currentBlock (blockNumber : UInt32) :
    (currentBlock blockNumber).toNat = blockNumber.toNat - 1 := by
  unfold currentBlock
  by_cases first : blockNumber.toUInt64 = 0
  · have zero := congrArg UInt64.toNat first
    rw [UInt32.toNat_toUInt64, UInt64.toNat_zero] at zero
    rw [if_pos first, zero]
    rfl
  · have positive : (1 : UInt64) ≤ blockNumber.toUInt64 :=
      UInt64.le_iff_toNat_le.mpr (UInt64.lt_iff_toNat_lt.mp (UInt64.pos_iff_ne_zero.mpr first))
    rw [if_neg first, UInt64.toNat_sub_of_le _ _ positive, UInt32.toNat_toUInt64]
    rfl

/-- The period is half of the next power of two, or two if that does not fit. -/
theorem toNat_signingPeriod (blockHashCount : UInt32) :
    (signingPeriod blockHashCount).toNat =
      if 2 ^ Nat.clog 2 blockHashCount.toNat < 2 ^ 32 then
        2 ^ Nat.clog 2 blockHashCount.toNat / 2
      else 2 := by
  unfold signingPeriod checkedNextPowerOfTwo
  by_cases fits : 2 ^ Nat.clog 2 blockHashCount.toNat < 2 ^ 32
  · rw [if_pos fits, if_pos fits, Option.map_some, Option.getD_some, UInt32.toNat_toUInt64,
      UInt32.toNat_div, UInt32.toNat_ofNat', Nat.mod_eq_of_lt fits]
    rfl
  · rw [if_neg fits, if_neg fits]
    rfl

/-- The era that is made from the period is never longer than
`BlockHashCount`. -/
theorem eraPeriod_le {blockHashCount : UInt32} (large : 4 ≤ blockHashCount) :
    max (min (2 ^ Nat.clog 2 (signingPeriod blockHashCount).toNat) 65536) 4 ≤
      blockHashCount.toNat := by
  have largeNat : 4 ≤ blockHashCount.toNat := UInt32.le_iff_toNat_le.mp large
  have positive : 0 < Nat.clog 2 blockHashCount.toNat := Nat.clog_pos (by decide) (by omega)
  rw [toNat_signingPeriod]
  by_cases fits : 2 ^ Nat.clog 2 blockHashCount.toNat < 2 ^ 32
  · have below := Nat.pow_pred_clog_lt_self (b := 2) (x := blockHashCount.toNat) (by decide)
      (by omega)
    rw [if_pos fits, ← Nat.pow_sub_one (by decide) positive.ne', Nat.clog_pow _ _ (by decide)]
    rw [Nat.pred_eq_sub_one] at below
    omega
  · have power : 2 ^ Nat.clog 2 2 = 2 := by decide
    rw [if_neg fits, power]
    omega

/-! ## Validity over the whole era -/

/-- An era signed at a block, with its actual period, is valid as long as it
lasts: `CheckEra` recomputes the birth block whose hash was signed at every
later block of the era and at no block after it, and never looks further back
than the chain keeps hashes. -/
structure ValidWholeEra (birth : UInt64 → UInt64) (period current : UInt64)
    (blockHashCount : UInt32) : Prop where
  period_le : period.toNat ≤ blockHashCount.toNat
  birth_le : birth current ≤ current
  birth_eq : ∀ m, current ≤ m → m.toNat < (birth current).toNat + period.toNat →
    birth m = birth current
  recent : ∀ m, current ≤ m → m.toNat < (birth current).toNat + period.toNat →
    m.toNat - (birth current).toNat < blockHashCount.toNat
  expires : ∀ m, (birth current).toNat + period.toNat ≤ m.toNat → birth m ≠ birth current

/-- An era whose birth blocks are the points of a grid, whose phase is not
after the signing block and whose period fits is valid. -/
theorem validWholeEra_of_grid {birth : UInt64 → UInt64} {period current : UInt64} {phase : ℕ}
    {blockHashCount : UInt32} (positive : 0 < period.toNat)
    (short : period.toNat ≤ blockHashCount.toNat) (early : phase ≤ current.toNat)
    (grid : ∀ m, (birth m).toNat = Grid.point period.toNat phase m.toNat) :
    ValidWholeEra birth period current blockHashCount := by
  have birthLe : (birth current).toNat ≤ current.toNat := by
    rw [grid]
    exact Grid.point_le early
  refine ⟨short, UInt64.le_iff_toNat_le.mpr birthLe, ?_, ?_, ?_⟩
  · intro m later within
    rw [grid] at within birthLe
    apply UInt64.toNat_inj.mp
    rw [grid, grid]
    exact Grid.point_eq (birthLe.trans (UInt64.le_iff_toNat_le.mp later)) within
  · intro m later within
    have laterNat := UInt64.le_iff_toNat_le.mp later
    omega
  · intro m past same
    rw [grid] at past
    have moved := Grid.point_lt positive past
    rw [← grid, ← grid, same] at moved
    exact lt_irrefl _ moved

/-- Whatever `BlockHashCount` and the block number are: the current block is the
one before `System::block_number`, saturating at zero; the period is half of the
next power of two of `BlockHashCount`, or two where that power does not fit;
the era of the two is valid for its whole actual period; and a transaction is
returned exactly if a payload with this era and its signature can be made, and
carries this era. -/
theorem signed_era_valid {Call Public AccountId Address Signature Payload : Type}
    (S : TransactionSupport Call Public AccountId Address Signature Payload)
    (documented : S.Documented) (blockHashCount blockNumber : UInt32)
    (large : 4 ≤ blockHashCount) :
    (currentBlock blockNumber).toNat = blockNumber.toNat - 1 ∧
    ((signingPeriod blockHashCount).toNat =
      if 2 ^ Nat.clog 2 blockHashCount.toNat < 2 ^ 32 then
        2 ^ Nat.clog 2 blockHashCount.toNat / 2
      else 2) ∧
    ∃ period phase,
      S.mortal (signingPeriod blockHashCount) (currentBlock blockNumber) = .mortal period phase ∧
      ValidWholeEra (S.birth (.mortal period phase)) period (currentBlock blockNumber)
        blockHashCount ∧
      ∀ call public_ account nonce transaction,
        createTransaction S blockHashCount blockNumber call public_ account nonce =
            some transaction ↔
          ∃ payload signature,
            S.newPayload call ⟨.mortal period phase, nonce, 0⟩ = some payload ∧
            S.sign payload public_ = some signature ∧
            transaction =
              (call, S.unlookup account, signature, ⟨.mortal period phase, nonce, 0⟩) := by
  refine ⟨toNat_currentBlock blockNumber, toNat_signingPeriod blockHashCount, ?_⟩
  rcases documented.mortal_eq (signingPeriod blockHashCount) (currentBlock blockNumber) with
    ⟨period, phase, made, periodEq, phaseEq⟩
  have positive : 0 < period.toNat := by
    rw [periodEq]
    exact lt_of_lt_of_le (by decide) (le_max_right _ 4)
  have short : period.toNat ≤ blockHashCount.toNat := by
    rw [periodEq]
    exact eraPeriod_le large
  have early : phase.toNat ≤ (currentBlock blockNumber).toNat := by
    rw [phaseEq]
    exact (Nat.div_mul_le_self _ _).trans (Nat.mod_le _ _)
  refine ⟨period, phase, made, ?_, ?_⟩
  · exact validWholeEra_of_grid positive short early
      fun m => documented.birth_eq period phase m positive
  · intro call public_ account nonce transaction
    rw [← made]
    exact createTransaction_eq_some_iff S documented blockHashCount blockNumber nonce call public_
      account transaction

/-! ## The eras of Substrate -/

/-- `Era::mortal` -/
def eraMortal (period current : UInt64) : Era :=
  let period := UInt64.ofNat (max (min (2 ^ Nat.clog 2 period.toNat) 65536) 4)
  let quantizeFactor := max (period / 4096) 1
  .mortal period (current % period / quantizeFactor * quantizeFactor)

/-- `Era::birth` -/
def eraBirth : Era → UInt64 → UInt64
  | .immortal, _ => 0
  | .mortal period phase, current => (max current phase - phase) / period * period + phase

theorem toNat_maxWord (a b : UInt64) : (max a b).toNat = max a.toNat b.toNat := by
  change (if a ≤ b then b else a).toNat = _
  by_cases ordered : a ≤ b
  · rw [if_pos ordered, Nat.max_eq_right (UInt64.le_iff_toNat_le.mp ordered)]
  · have reversed : b.toNat ≤ a.toNat :=
      Nat.le_of_not_le fun le => ordered (UInt64.le_iff_toNat_le.mpr le)
    rw [if_neg ordered, Nat.max_eq_left reversed]

/-- The birth block is not after the later of its arguments, so nothing
overflows. -/
theorem toNat_eraBirth (period phase m : UInt64) :
    (eraBirth (.mortal period phase) m).toNat =
      (max m.toNat phase.toNat - phase.toNat) / period.toNat * period.toNat + phase.toNat := by
  have latest := (max m phase).toNat_lt
  have late : phase ≤ max m phase := by
    rw [UInt64.le_iff_toNat_le, toNat_maxWord]
    exact le_max_right _ _
  have below := Nat.div_mul_le_self (max m.toNat phase.toNat - phase.toNat) period.toNat
  have lateNat := UInt64.le_iff_toNat_le.mp late
  rw [toNat_maxWord] at latest lateNat
  have product : ((max m phase - phase) / period * period).toNat =
      (max m.toNat phase.toNat - phase.toNat) / period.toNat * period.toNat := by
    rw [UInt64.toNat_mul, UInt64.toNat_div, UInt64.toNat_sub_of_le _ _ late, toNat_maxWord]
    exact Nat.mod_eq_of_lt (by omega)
  rw [eraBirth, UInt64.toNat_add, product]
  exact Nat.mod_eq_of_lt (by omega)

/-- Substrate's eras, with payloads that are signed by their own content. -/
def plainSupport : TransactionSupport Unit Unit Unit Unit (Unit × SignedExtra)
    (Unit × SignedExtra) where
  mortal := eraMortal
  birth := eraBirth
  newPayload := fun call extra => some (call, extra)
  deconstruct := id
  sign := fun payload _ => some payload
  unlookup := id

theorem plainSupport_documented : plainSupport.Documented where
  mortal_eq := by
    intro period current
    have small : max (min (2 ^ Nat.clog 2 period.toNat) 65536) 4 < 2 ^ 64 := by omega
    have periodEq : (UInt64.ofNat (max (min (2 ^ Nat.clog 2 period.toNat) 65536) 4)).toNat =
        max (min (2 ^ Nat.clog 2 period.toNat) 65536) 4 := by
      rw [UInt64.toNat_ofNat', Nat.mod_eq_of_lt small]
    refine ⟨_, _, rfl, periodEq, ?_⟩
    have remainder := current.toNat_lt
    rw [UInt64.toNat_mul, UInt64.toNat_div, UInt64.toNat_mod, toNat_maxWord, UInt64.toNat_div]
    exact Nat.mod_eq_of_lt (lt_of_le_of_lt ((Nat.div_mul_le_self _ _).trans (Nat.mod_le _ _))
      remainder)
  birth_eq := fun period phase m _ => toNat_eraBirth period phase m
  deconstruct_eq := by
    intro call extra payload made
    exact (Option.some_injective _ made).symm

/-- With the runtime's `BlockHashCount` of 2400, a transaction made at block
10000 is returned with an era of 2048 blocks. -/
theorem signed_era_valid_runtime :
    (currentBlock 10001).toNat = 10000 ∧ (signingPeriod 2400).toNat = 2048 ∧
    createTransaction plainSupport 2400 10001 () () () 5 =
      some ((), (), ((), ⟨.mortal 2048 1808, 5, 0⟩), ⟨.mortal 2048 1808, 5, 0⟩) ∧
    ValidWholeEra (plainSupport.birth (.mortal 2048 1808)) 2048 (currentBlock 10001) 2400 := by
  rcases signed_era_valid plainSupport plainSupport_documented 2400 10001 (by decide) with
    ⟨block, half, period, phase, made, valid, returned⟩
  have era : plainSupport.mortal (signingPeriod 2400) (currentBlock 10001) =
      .mortal 2048 1808 := by
    decide +kernel
  rw [era] at made
  cases made
  exact ⟨block, half.trans (by decide +kernel),
    (returned () () () 5 _).mpr ⟨_, _, rfl, rfl, rfl⟩, valid⟩

end Runtime
end IpciBlockchain
