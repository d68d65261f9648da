import IpciBlockchain.Datalog.Simulation
import IpciBlockchain.Datalog.Weights

namespace IpciBlockchain
namespace Datalog

open Foundation

/-!
# Native builds with overflow checks

The runtime runs as Wasm, where `+= 1` wraps, and as native code, where a
debug build panics at the same place.  A node of each kind executes the same
blocks, so the two must not be told apart by any run.

The calls are run here over operations whose increments panic, and after the
evaluation of their weight, whose sum `1 + win` panics as well.  The two builds
differ only off the ring: while all pointers are inside the window no
increment can overflow, and the calls keep the pointers there.  The weight of
`erase` overflows for a single window, the last value of the type.
-/

variable {Origin AccountId Moment Record : Type}

namespace RingBufferIterator

/-- The slots of the loop in a build with overflow checks. -/
def collectChecked (self : RingBufferIterator) : Option (List UInt64) :=
  (self.drainChecked fuelBound).map Prod.fst

theorem collectChecked_eq_collect {index : RingBufferIndex} {max : UInt64}
    (startInside : index.start < max) :
    (index.iter max).collectChecked = (index.iter max).collect := by
  have drained := drainChecked_eq_drain startInside index.end_ fuelBound
  exact congrArg (Option.map Prod.fst) drained

end RingBufferIterator

/-! ## The calls -/

/-- The weight of `erase`, of which `none` is a panic. -/
def WeightInfo.eraseChecked (db : RuntimeDbWeight) (win : UInt64) : Option UInt64 :=
  if 1 + win.toNat < 2 ^ 64 then some (WeightInfo.erase db win) else none

/-- The `#[weight]` of an extrinsic in a build with overflow checks. -/
def chargeChecked (T : Trait Origin AccountId Moment Record) (db : RuntimeDbWeight)
    (extrinsic : Extrinsic Origin Moment Record) : Option UInt64 :=
  match extrinsic.call with
  | .record _ => some (WeightInfo.record db)
  | .erase => WeightInfo.eraseChecked db T.windowSize

/-- `data` in a build with overflow checks. -/
def dataChecked [Inhabited Moment] [Inhabited Record] (T : Trait Origin AccountId Moment Record)
    (storage : Storage AccountId Moment Record) :
    AccountId → Option (List (RingBufferItem Moment Record)) :=
  readData RingBufferIterator.collectChecked T.windowSize storage.datalogIndex.get
    storage.datalogItem.get

section Calls

variable [DecidableEq AccountId]

/-- A build with overflow checks over typed maps. -/
def checkedOperations (T : Trait Origin AccountId Moment Record) :
    Operations AccountId Moment Record (State AccountId Moment Record) :=
  { operations T with
    add := RingBufferIndex.addChecked
    slots := RingBufferIterator.collectChecked }

/-- One extrinsic in a build with overflow checks: its weight is evaluated
before its call runs. -/
def dispatchChecked (T : Trait Origin AccountId Moment Record) (db : RuntimeDbWeight) :
    Machine (Extrinsic Origin Moment Record) (Except DispatchError Unit)
      (State AccountId Moment Record) :=
  fun extrinsic state =>
    (chargeChecked T db extrinsic).bind fun _ => (checkedOperations T).dispatch T extrinsic state

end Calls

/-! ## The two builds agree on the ring -/

/-- The weight is the one of the release build. -/
theorem chargeChecked_eq_charge (T : Trait Origin AccountId Moment Record)
    (small : T.windowSize.toNat < 2 ^ 64 - 1) (db : RuntimeDbWeight)
    (extrinsic : Extrinsic Origin Moment Record) :
    chargeChecked T db extrinsic = some (charge T db extrinsic) := by
  have fits : 1 + T.windowSize.toNat < 2 ^ 64 := by omega
  rcases extrinsic with ⟨origin, now, call⟩
  cases call with
  | record r => rfl
  | erase => exact if_pos fits

variable [DecidableEq AccountId]

section Steps

variable (T : Trait Origin AccountId Moment Record) {state : State AccountId Moment Record}
  (inside : state.storage.PointersInside T.windowSize)

include inside

/-- On a stored index inside the window the closure of `mutate` gets the same
pointers from both builds. -/
theorem mutateChecked_run {account : AccountId}
    (item : RingBufferItem Moment Record) :
    ((checkedOperations T).datalogIndexMutate account fun idx => do
        let (end_, idx) ← Computation.returning ((checkedOperations T).add idx T.windowSize)
        (checkedOperations T).datalogItemInsert account end_ item
        return idx).run.run state =
      ((operations T).datalogIndexMutate account fun idx => do
        let (end_, idx) ← Computation.returning ((operations T).add idx T.windowSize)
        (operations T).datalogItemInsert account end_ item
        return idx).run.run state := by
  apply Computation.run_bind_congr
  intro idx _ read
  cases read
  have added : (checkedOperations T).add (state.storage.datalogIndex.get account) T.windowSize =
      (operations T).add (state.storage.datalogIndex.get account) T.windowSize :=
    addChecked_eq_add (inside account).1 (inside account).2
  simp only [added]
  rfl

theorem recordChecked_run (now : Moment) (origin : Origin) (r : Record) :
    ((checkedOperations T).record T now origin r).run.run state =
      (record T now origin r).run.run state := by
  unfold record Operations.record
  apply Computation.run_bind_congr_of_preserves (preserves_ensure _ _)
  intro _
  apply Computation.run_bind_congr_of_preserves (preserves_signer _)
  intro sender
  apply Computation.run_bind_congr
  intro _ _ removed
  cases removed
  apply Computation.run_bind_congr
  intro _ _ looked
  cases looked
  -- neither the removal nor the clock has touched the index
  apply Computation.run_bind_of_eq
  apply mutateChecked_run
  exact inside

theorem eraseChecked_run (origin : Origin) :
    ((checkedOperations T).erase T origin).run.run state = (erase T origin).run.run state := by
  unfold erase Operations.erase
  apply Computation.run_bind_congr_of_preserves (preserves_signer _)
  intro sender
  apply Computation.run_bind_congr
  intro _ _ removed
  cases removed
  apply Computation.run_bind_congr
  intro _ _ taken
  cases taken
  have walked : (checkedOperations T).slots
      ((state.storage.datalogIndex.get sender).iter T.windowSize) =
        (operations T).slots ((state.storage.datalogIndex.get sender).iter T.windowSize) :=
    RingBufferIterator.collectChecked_eq_collect (inside sender).1
  rw [walked]
  rfl

theorem dispatchChecked_eq_dispatch (small : T.windowSize.toNat < 2 ^ 64 - 1)
    (db : RuntimeDbWeight) (extrinsic : Extrinsic Origin Moment Record) :
    dispatchChecked T db extrinsic state = dispatch T extrinsic state := by
  rw [dispatchChecked, chargeChecked_eq_charge T small, Option.bind_some]
  rcases extrinsic with ⟨origin, now, call⟩
  cases call with
  | record r => exact recordChecked_run T inside now origin r
  | erase => exact eraseChecked_run T inside origin

end Steps

/-- From any storage whose pointers are inside the window, a build that panics
on overflow and a build that wraps execute every run alike, with the same
results, storage, events and storage operations, and read the same logs after
it.  In particular no run panics, neither in a call nor in the evaluation of
its weight, of which a window at the last value of its type is excluded. -/
theorem builds_agree [Inhabited Moment] [Inhabited Record]
    (T : Trait Origin AccountId Moment Record) (small : T.windowSize.toNat < 2 ^ 64 - 1)
    (db : RuntimeDbWeight) (state : State AccountId Moment Record)
    (inside : state.storage.PointersInside T.windowSize)
    (extrinsics : List (Extrinsic Origin Moment Record)) :
    ∃ receipts last,
      Machine.run (dispatchChecked T db) extrinsics state = some (receipts, last) ∧
      run T extrinsics state = some (receipts, last) ∧
      ∀ account, dataChecked T last.storage account = data T last.storage account := by
  rcases Machine.run_returns (dispatch T) pointersInside_dispatch extrinsics inside with
    ⟨receipts, last, ran, insideLast⟩
  have agree : ∀ extrinsic (current : State AccountId Moment Record),
      current.storage.PointersInside T.windowSize →
      dispatchChecked T db extrinsic current = dispatch T extrinsic current :=
    fun extrinsic _ holds => dispatchChecked_eq_dispatch T holds small db extrinsic
  have same : Machine.run (dispatchChecked T db) extrinsics state = run T extrinsics state := by
    apply Machine.run_congr (dispatch T) agree _ extrinsics inside
    intro _ _ _ _ holds returned
    exact pointersInside_next holds ((dispatch_eq_some_iff T ..).mp returned)
  refine ⟨receipts, last, same.trans ran, ran, fun account => ?_⟩
  have walked := RingBufferIterator.collectChecked_eq_collect (insideLast account).1
  rw [dataChecked, data, readData, readData, walked]

theorem builds_agree_fresh :
    ∃ last,
      Machine.run (dispatchChecked (runtimeTrait ℕ) (.perOperation 25000000 100000000))
        [recordBy 7 1 [1], eraseBy 7, recordBy 7 2 [2]] (freshState ℕ 1) =
          some ([(recordBy 7 1 [1], .ok ()), (eraseBy 7, .ok ()), (recordBy 7 2 [2], .ok ())],
            last) ∧
      run (runtimeTrait ℕ) [recordBy 7 1 [1], eraseBy 7, recordBy 7 2 [2]] (freshState ℕ 1) =
        some ([(recordBy 7 1 [1], .ok ()), (eraseBy 7, .ok ()), (recordBy 7 2 [2], .ok ())],
          last) ∧
      dataChecked (runtimeTrait ℕ) last.storage 7 = data (runtimeTrait ℕ) last.storage 7 := by
  rcases builds_agree (runtimeTrait ℕ) (by decide) (.perOperation 25000000 100000000)
      (freshState ℕ 1) (pointersInside_empty (by decide))
      [recordBy 7 1 [1], eraseBy 7, recordBy 7 2 [2]] with
    ⟨receipts, last, checked, ran, reads⟩
  have answers : (run (runtimeTrait ℕ) [recordBy 7 1 [1], eraseBy 7, recordBy 7 2 [2]]
      (freshState ℕ 1)).map Prod.fst =
      some [(recordBy 7 1 [1], .ok ()), (eraseBy 7, .ok ()), (recordBy 7 2 [2], .ok ())] := by
    decide +kernel
  rw [ran] at answers
  cases answers
  exact ⟨last, checked, ran, reads 7⟩

/-- Elsewhere they differ: a pointer or a window at the last `u64` value makes
the checked build panic where the other one wraps. -/
example : RingBufferIndex.addChecked ⟨0, 18446744073709551615⟩ 128 = none ∧
    RingBufferIndex.add ⟨0, 18446744073709551615⟩ 128 = (18446744073709551615, ⟨1, 0⟩) ∧
    WeightInfo.eraseChecked (.perOperation 25000000 100000000) 18446744073709551615 = none ∧
    WeightInfo.erase (.perOperation 25000000 100000000) 18446744073709551615 = 25100000 := by
  decide

end Datalog
end IpciBlockchain
