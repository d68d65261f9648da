import IpciBlockchain.Datalog.Pallet

namespace IpciBlockchain
namespace Datalog

open Foundation

/-!
# From the operations to the calls

The calls are programs over operations.  What relates two sets of operations
one by one therefore relates the calls over them, and what every operation
under an account leaves alone, the calls of that account leave alone.
-/

variable {Origin AccountId Moment Record Chain Chain' View : Type}

/-! ## Calls over simulating operations -/

theorem simulates_ensure {abstract : Chain → Chain'} (condition : Prop) [Decidable condition]
    (error : DispatchError) :
    Computation.Simulates abstract (ensure condition error) (ensure condition error) := by
  by_cases holds : condition
  · rw [ensure, ensure, if_pos holds, if_pos holds]
    exact .pure_ ()
  · rw [ensure, ensure, if_neg holds, if_neg holds]
    exact .throw_ error

theorem simulates_signer {abstract : Chain → Chain'} (result : Except BadOrigin AccountId) :
    Computation.Simulates abstract (signer result) (signer result) := by
  cases result with
  | ok account => exact .pure_ account
  | error reason => cases reason; exact .throw_ DispatchError.badOrigin

/-- Through a map of the states every operation does what the model's does,
and the pointer arithmetic is the same. -/
structure Operations.Simulates (abstract : Chain → Chain')
    (ops : Operations AccountId Moment Record Chain)
    (model : Operations AccountId Moment Record Chain') : Prop where
  datalogRemove : ∀ account,
    Computation.Simulates abstract (ops.datalogRemove account) (model.datalogRemove account)
  datalogIndexGet : ∀ account,
    Computation.Simulates abstract (ops.datalogIndexGet account) (model.datalogIndexGet account)
  datalogIndexPut : ∀ account idx, Computation.Simulates abstract
    (ops.datalogIndexPut account idx) (model.datalogIndexPut account idx)
  datalogIndexTake : ∀ account,
    Computation.Simulates abstract (ops.datalogIndexTake account) (model.datalogIndexTake account)
  datalogItemInsert : ∀ account slot item, Computation.Simulates abstract
    (ops.datalogItemInsert account slot item) (model.datalogItemInsert account slot item)
  datalogItemRemove : ∀ account slot, Computation.Simulates abstract
    (ops.datalogItemRemove account slot) (model.datalogItemRemove account slot)
  timeNow : ∀ now, Computation.Simulates abstract (ops.timeNow now) (model.timeNow now)
  depositEvent : ∀ event,
    Computation.Simulates abstract (ops.depositEvent event) (model.depositEvent event)
  add : ∀ idx max, ops.add idx max = model.add idx max
  slots : ∀ iterator, ops.slots iterator = model.slots iterator

namespace Operations.Simulates

variable {abstract : Chain → Chain'} {ops : Operations AccountId Moment Record Chain}
  {model : Operations AccountId Moment Record Chain'}
  (simulates : ops.Simulates abstract model) (T : Trait Origin AccountId Moment Record)

include simulates

/-- The closure of `mutate` gets the same index on both sides. -/
theorem datalogIndexMutate (account : AccountId)
    {closure : RingBufferIndex → CallM Chain RingBufferIndex}
    {closure' : RingBufferIndex → CallM Chain' RingBufferIndex}
    (closures : ∀ idx, Computation.Simulates abstract (closure idx) (closure' idx)) :
    Computation.Simulates abstract (ops.datalogIndexMutate account closure)
      (model.datalogIndexMutate account closure') := by
  apply Computation.Simulates.bind (simulates.datalogIndexGet account)
  intro idx
  exact .bind (closures idx) fun idx => simulates.datalogIndexPut account idx

theorem record (now : Moment) (origin : Origin) (r : Record) :
    Computation.Simulates abstract (ops.record T now origin r) (model.record T now origin r) := by
  unfold Operations.record
  apply Computation.Simulates.bind (simulates_ensure _ _)
  intro _
  apply Computation.Simulates.bind (simulates_signer _)
  intro sender
  apply Computation.Simulates.bind (simulates.datalogRemove sender)
  intro _
  apply Computation.Simulates.bind (simulates.timeNow now)
  intro moment
  apply Computation.Simulates.bind
  · apply simulates.datalogIndexMutate
    intro idx
    rw [simulates.add]
    apply Computation.Simulates.bind (.returning_ _)
    intro reserved
    exact .bind (simulates.datalogItemInsert sender _ _) fun _ => .pure_ _
  · intro _
    exact simulates.depositEvent _

theorem erase (origin : Origin) :
    Computation.Simulates abstract (ops.erase T origin) (model.erase T origin) := by
  unfold Operations.erase
  apply Computation.Simulates.bind (simulates_signer _)
  intro sender
  apply Computation.Simulates.bind (simulates.datalogRemove sender)
  intro _
  apply Computation.Simulates.bind (simulates.datalogIndexTake sender)
  intro idx
  rw [simulates.slots]
  apply Computation.Simulates.bind (.returning_ _)
  intro visited
  apply Computation.Simulates.bind
  · exact .forIn_ (fun slot => simulates.datalogItemRemove sender slot) visited
  · intro _
    exact simulates.depositEvent _

theorem dispatch (extrinsic : Extrinsic Origin Moment Record) (state : Chain) :
    model.dispatch T extrinsic (abstract state) =
      (ops.dispatch T extrinsic state).map (Prod.map id abstract) := by
  rcases extrinsic with ⟨origin, now, call⟩
  cases call with
  | record r => exact simulates.record T now origin r state
  | erase => exact simulates.erase T origin state

end Operations.Simulates

/-! ## What the calls of an account leave alone -/

theorem preserves_ensure {view : Chain → View} (condition : Prop) [Decidable condition]
    (error : DispatchError) :
    Computation.Preserves view (ensure condition error : CallM Chain Unit) := by
  unfold ensure
  split
  · exact .pure_ ()
  · exact .throw_ error

theorem preserves_signer {view : Chain → View} (result : Except BadOrigin AccountId) :
    Computation.Preserves view (signer result) := by
  cases result with
  | ok account => exact .pure_ account
  | error reason => cases reason; exact .throw_ DispatchError.badOrigin

/-- After `ensure_signed` the sender is the one who signed. -/
theorem preserves_signer_bind {Result : Type} {view : Chain → View}
    {result : Except BadOrigin AccountId} {rest : AccountId → CallM Chain Result}
    (continues : ∀ account, result = .ok account → Computation.Preserves view (rest account)) :
    Computation.Preserves view (signer result >>= rest) := by
  cases result with
  | ok account =>
      simp only [signer, pure_bind]
      exact continues account rfl
  | error reason =>
      cases reason
      intro state answer next returned
      cases returned
      rfl

/-- No operation under the account changes the view. -/
structure Operations.Preserves (view : Chain → View)
    (ops : Operations AccountId Moment Record Chain) (account : AccountId) : Prop where
  datalogRemove : Computation.Preserves view (ops.datalogRemove account)
  datalogIndexGet : Computation.Preserves view (ops.datalogIndexGet account)
  datalogIndexPut : ∀ idx, Computation.Preserves view (ops.datalogIndexPut account idx)
  datalogIndexTake : Computation.Preserves view (ops.datalogIndexTake account)
  datalogItemInsert : ∀ slot item,
    Computation.Preserves view (ops.datalogItemInsert account slot item)
  datalogItemRemove : ∀ slot, Computation.Preserves view (ops.datalogItemRemove account slot)
  timeNow : ∀ now, Computation.Preserves view (ops.timeNow now)
  depositEvent : ∀ event, Computation.Preserves view (ops.depositEvent event)

namespace Operations.Preserves

variable {view : Chain → View} {ops : Operations AccountId Moment Record Chain}
  (T : Trait Origin AccountId Moment Record)

theorem record (now : Moment) {origin : Origin} (r : Record)
    (preserves : ∀ account, T.ensureSigned origin = .ok account → ops.Preserves view account) :
    Computation.Preserves view (ops.record T now origin r) := by
  unfold Operations.record
  apply Computation.Preserves.bind (preserves_ensure _ _)
  intro _
  apply preserves_signer_bind
  intro sender signed
  have keeps := preserves sender signed
  apply Computation.Preserves.bind keeps.datalogRemove
  intro _
  apply Computation.Preserves.bind (keeps.timeNow now)
  intro moment
  apply Computation.Preserves.bind
  · apply Computation.Preserves.bind keeps.datalogIndexGet
    intro idx
    apply Computation.Preserves.bind
    · apply Computation.Preserves.bind (.returning_ _)
      intro reserved
      exact .bind (keeps.datalogItemInsert _ _) fun _ => .pure_ _
    · exact keeps.datalogIndexPut
  · intro _
    exact keeps.depositEvent _

theorem erase {origin : Origin}
    (preserves : ∀ account, T.ensureSigned origin = .ok account → ops.Preserves view account) :
    Computation.Preserves view (ops.erase T origin) := by
  unfold Operations.erase
  apply preserves_signer_bind
  intro sender signed
  have keeps := preserves sender signed
  apply Computation.Preserves.bind keeps.datalogRemove
  intro _
  apply Computation.Preserves.bind keeps.datalogIndexTake
  intro idx
  apply Computation.Preserves.bind (.returning_ _)
  intro visited
  apply Computation.Preserves.bind
  · exact .forIn_ keeps.datalogItemRemove visited
  · intro _
    exact keeps.depositEvent _

theorem dispatch {extrinsic : Extrinsic Origin Moment Record} {state next : Chain}
    {answer : Except DispatchError Unit}
    (preserves : ∀ account, T.ensureSigned extrinsic.origin = .ok account →
      ops.Preserves view account)
    (returned : ops.dispatch T extrinsic state = some (answer, next)) : view next = view state := by
  rcases extrinsic with ⟨origin, now, call⟩
  cases call with
  | record r => exact Preserves.record T now r preserves state answer next returned
  | erase => exact Preserves.erase T preserves state answer next returned

end Operations.Preserves

end Datalog
end IpciBlockchain
