import IpciBlockchain.Datalog.Pallet
import IpciBlockchain.Datalog.Iteration

namespace IpciBlockchain
namespace Datalog

open Foundation

/-!
# What a call can do

The dispatchables are executed symbolically once, here.  `Outcome` lists the
four ways in which a call can end, and `dispatch_eq_some_iff` says that these
are all of them.  Every later result about runs starts from an `Outcome` and
does not unfold a call again.
-/

variable {Origin AccountId Moment Record : Type} [DecidableEq AccountId]

/-- The storage after `record` by an account whose item is `item`. -/
def Storage.recorded (storage : Storage AccountId Moment Record) (max : UInt64)
    (account : AccountId) (item : RingBufferItem Moment Record) :
    Storage AccountId Moment Record :=
  let reserved := (storage.datalogIndex.get account).add max
  { datalog := storage.datalog.remove account
    datalogIndex := storage.datalogIndex.insert account reserved.2
    datalogItem := storage.datalogItem.insert (account, reserved.1) item }

/-- The storage after `erase` by an account whose loop visited these slots. -/
def Storage.erased (storage : Storage AccountId Moment Record) (account : AccountId)
    (visited : List UInt64) : Storage AccountId Moment Record where
  datalog := storage.datalog.remove account
  datalogIndex := storage.datalogIndex.remove account
  datalogItem := storage.datalogItem.removeAll (visited.map fun slot => (account, slot))

/-- The storage operations of a successful `record`, in program order. -/
def recordTrace (account : AccountId) (slot : UInt64) : List (StorageOp AccountId) :=
  [.remove (.datalog account), .now, .insert (.datalogItem account slot),
    .mutate (.datalogIndex account)]

/-- The storage operations of a successful `erase`, in program order. -/
def eraseTrace (account : AccountId) (visited : List UInt64) : List (StorageOp AccountId) :=
  [.remove (.datalog account), .take (.datalogIndex account)] ++
    visited.map fun slot => .remove (.datalogItem account slot)

namespace State

variable (T : Trait Origin AccountId Moment Record) (state : State AccountId Moment Record)

/-- The state after a successful `record`. -/
def recorded (account : AccountId) (item : RingBufferItem Moment Record) :
    State AccountId Moment Record where
  storage := state.storage.recorded T.windowSize account item
  system := T.depositEvent (.newRecord account item.now item.record) state.system
  trace := state.trace ++
    recordTrace account ((state.storage.datalogIndex.get account).add T.windowSize).1

/-- The state after a successful `erase`. -/
def erased (account : AccountId) (visited : List UInt64) : State AccountId Moment Record where
  storage := state.storage.erased account visited
  system := T.depositEvent (.erased account) state.system
  trace := state.trace ++ eraseTrace account visited

end State

/-! ## Symbolic execution -/

section Execution

variable (T : Trait Origin AccountId Moment Record) (state : State AccountId Moment Record)

theorem dispatch_record (now : Moment) (origin : Origin) (r : Record) :
    dispatch T ⟨origin, now, .record r⟩ state = (record T now origin r).run.run state := rfl

theorem dispatch_erase (now : Moment) (origin : Origin) :
    dispatch T ⟨origin, now, .erase⟩ state = (erase T origin).run.run state := rfl

/-- The loop of `erase` deletes the visited items one after the other. -/
theorem forIn_datalogItemRemove (account : AccountId) (visited : List UInt64)
    (state : State AccountId Moment Record) :
    (forIn visited PUnit.unit fun slot _ => do
        (operations T).datalogItemRemove account slot
        pure (ForInStep.yield PUnit.unit) :
      DispatchM AccountId Moment Record PUnit).run.run state =
      some (.ok PUnit.unit, { state with
        storage := { state.storage with
          datalogItem := state.storage.datalogItem.removeAll
            (visited.map fun slot => (account, slot)) }
        trace := state.trace ++
          visited.map fun slot => .remove (.datalogItem account slot) }) := by
  induction visited generalizing state with
  | nil => simp only [List.map_nil, List.append_nil]; rfl
  | cons slot rest ih =>
      have first : ((operations T).datalogItemRemove account slot).run.run state =
          some (.ok (), { state with
            storage := { state.storage with
              datalogItem := state.storage.datalogItem.remove (account, slot) }
            trace := state.trace ++ [.remove (.datalogItem account slot)] }) := rfl
      have later := ih { state with
        storage := { state.storage with
          datalogItem := state.storage.datalogItem.remove (account, slot) }
        trace := state.trace ++ [.remove (.datalogItem account slot)] }
      simp only [List.forIn_cons, bind_assoc, pure_bind, ExceptT.run_bind, StateT.run_bind, first,
        Option.bind_eq_bind, Option.bind_some]
      simp only [List.append_assoc] at later
      exact later

theorem record_run (now : Moment) (origin : Origin) (r : Record) :
    (record T now origin r).run.run state =
      if T.sizeHint r ≤ T.maximumMessageSize then
        match T.ensureSigned origin with
        | .ok account => some (.ok (), state.recorded T account ⟨now, r⟩)
        | .error .badOrigin => some (.error .badOrigin, state)
      else some (.error (.module .recordTooBig), state) := by
  by_cases fits : T.sizeHint r ≤ T.maximumMessageSize
  · cases signed : T.ensureSigned origin with
    | ok account =>
        simp only [record, Operations.record, ensure, signer, signed, if_pos fits]
        simp only [State.recorded, recordTrace]
        rw [show state.trace ++ _ = (((state.trace ++ [_]) ++ [_]) ++ [_]) ++ [_] by
          simp only [List.append_assoc, List.cons_append, List.nil_append]; rfl]
        rfl
    | error reason =>
        cases reason
        simp only [record, Operations.record, ensure, signer, signed, if_pos fits]
        rfl
  · simp only [record, Operations.record, ensure, if_neg fits]
    rfl

theorem erase_run (origin : Origin) :
    (erase T origin).run.run state =
      match T.ensureSigned origin with
      | .ok account =>
          (((state.storage.datalogIndex.get account).iter T.windowSize).collect).map
            fun visited => (.ok (), state.erased T account visited)
      | .error .badOrigin => some (.error .badOrigin, state) := by
  cases signed : T.ensureSigned origin with
  | ok account =>
      simp only [erase, Operations.erase, signer, signed]
      cases collected : ((state.storage.datalogIndex.get account).iter T.windowSize).collect with
      | none =>
          change Option.bind (Option.map _ (RingBufferIterator.collect _)) _ = none
          rw [collected]
          rfl
      | some visited =>
          change Option.bind (Option.map _ (RingBufferIterator.collect _)) _ = _
          rw [collected, Option.map_some, Option.map_some, Option.bind_some]
          change Option.bind ((forIn visited PUnit.unit _ :
            DispatchM AccountId Moment Record PUnit).run.run _) _ = _
          rw [forIn_datalogItemRemove, Option.bind_some]
          simp only [State.erased, eraseTrace]
          rw [← List.append_assoc, show state.trace ++ [_, _] = (state.trace ++ [_]) ++ [_] by
            rw [List.append_assoc]; rfl]
          rfl
  | error reason =>
      cases reason
      simp only [erase, Operations.erase, signer, signed]
      rfl

end Execution

/-! ## The outcomes of an extrinsic -/

/-- The ways in which an extrinsic can end.  The size of a record is checked
before its origin, so an oversized unsigned record is refused for its size. -/
inductive Outcome (T : Trait Origin AccountId Moment Record)
    (extrinsic : Extrinsic Origin Moment Record) (state : State AccountId Moment Record) :
    Except DispatchError Unit → State AccountId Moment Record → Prop where
  | tooBig (r : Record) (isRecord : extrinsic.call = .record r)
      (exceeds : T.maximumMessageSize < T.sizeHint r) :
      Outcome T extrinsic state (.error (.module .recordTooBig)) state
  | badOrigin
      (fits : ∀ r, extrinsic.call = .record r → T.sizeHint r ≤ T.maximumMessageSize)
      (unsigned : T.ensureSigned extrinsic.origin = .error .badOrigin) :
      Outcome T extrinsic state (.error .badOrigin) state
  | recorded (account : AccountId) (r : Record) (isRecord : extrinsic.call = .record r)
      (fits : T.sizeHint r ≤ T.maximumMessageSize)
      (signed : T.ensureSigned extrinsic.origin = .ok account) :
      Outcome T extrinsic state (.ok ()) (state.recorded T account ⟨extrinsic.now, r⟩)
  | erased (account : AccountId) (visited : List UInt64) (isErase : extrinsic.call = .erase)
      (signed : T.ensureSigned extrinsic.origin = .ok account)
      (collected : ((state.storage.datalogIndex.get account).iter T.windowSize).collect =
        some visited) :
      Outcome T extrinsic state (.ok ()) (state.erased T account visited)

/-- A returning extrinsic has one of the four outcomes, and each of them is
what the extrinsic does under its conditions. -/
theorem dispatch_eq_some_iff (T : Trait Origin AccountId Moment Record)
    (extrinsic : Extrinsic Origin Moment Record) (state next : State AccountId Moment Record)
    (answer : Except DispatchError Unit) :
    dispatch T extrinsic state = some (answer, next) ↔ Outcome T extrinsic state answer next := by
  rcases extrinsic with ⟨origin, now, call⟩
  constructor
  · intro returned
    cases call with
    | record r =>
        simp only [dispatch_record, record_run] at returned
        by_cases fits : T.sizeHint r ≤ T.maximumMessageSize
        · rw [if_pos fits] at returned
          cases signed : T.ensureSigned origin with
          | ok account =>
              rw [signed] at returned
              cases returned
              exact .recorded account r rfl fits signed
          | error reason =>
              cases reason
              rw [signed] at returned
              cases returned
              exact .badOrigin (fun _ same => Call.record.inj same ▸ fits) signed
        · rw [if_neg fits] at returned
          cases returned
          exact .tooBig r rfl (Nat.lt_of_not_le fits)
    | erase =>
        simp only [dispatch_erase, erase_run] at returned
        cases signed : T.ensureSigned origin with
        | ok account =>
            rw [signed] at returned
            rcases Option.map_eq_some_iff.mp returned with ⟨visited, collected, equal⟩
            cases equal
            exact .erased account visited rfl signed collected
        | error reason =>
            cases reason
            rw [signed] at returned
            cases returned
            exact .badOrigin (fun _ impossible => by cases impossible) signed
  · intro outcome
    cases outcome with
    | tooBig r isRecord exceeds =>
        cases isRecord
        simp only [dispatch_record, record_run, if_neg (Nat.not_le_of_lt exceeds)]
    | badOrigin fits unsigned =>
        cases call with
        | record r => simp only [dispatch_record, record_run, if_pos (fits r rfl), unsigned]
        | erase => simp only [dispatch_erase, erase_run, unsigned]
    | recorded account r isRecord fits signed =>
        cases isRecord
        simp only [dispatch_record, record_run, if_pos fits, signed]
    | erased account visited isErase signed collected =>
        cases isErase
        simp only [dispatch_erase, erase_run, signed, collected, Option.map_some]

/-- Only a signed `erase` can fail to return, and it does so exactly when the
walk from its sender's start to its sender's end does not stop. -/
theorem dispatch_erase_isSome_iff (T : Trait Origin AccountId Moment Record)
    (extrinsic : Extrinsic Origin Moment Record) (isErase : extrinsic.call = .erase)
    {account : AccountId} (signed : T.ensureSigned extrinsic.origin = .ok account)
    (state : State AccountId Moment Record) :
    (dispatch T extrinsic state).isSome = true ↔
      ((state.storage.datalogIndex.get account).iter T.windowSize).Terminates := by
  rcases extrinsic with ⟨origin, now, call⟩
  cases isErase
  rw [← collect_isSome_iff]
  simp only [dispatch_erase, erase_run]
  rw [signed]
  simp only [Option.isSome_map]

end Datalog
end IpciBlockchain
