import IpciBlockchain.Datalog.RingBuffer
import IpciBlockchain.Foundation.Computations
import IpciBlockchain.Foundation.Runs
import IpciBlockchain.Foundation.StorageMap

namespace IpciBlockchain
namespace Datalog

open Foundation

/-!
# The datalog pallet

Storage, calls, errors and events of the pallet, with its two dispatchable
calls `record` and `erase` and the read-only `data`.

A dispatchable is not transactional: what it wrote before it failed stays
written.  The monad of the calls therefore keeps the state also when it
throws, and its `none` is a call that never returns.  The state carries a
trace of the storage operations performed, which no call reads; the weights
of the pallet are compared with that trace.

The calls are written down once, over the operations they are made of.  Here
these work on typed maps with the arithmetic of the release build; the same
calls run with overflow checks and over the bytes of the chain's storage.

What the pallet takes from `frame_system`, from the codec and from the
runtime's configuration are the fields of `Trait`.  Nothing is assumed of
them here.
-/

inductive Error where
  /-- Potentially dangerous action -/
  | recordTooBig
  deriving DecidableEq, Repr

/-- `BadOrigin`, the only error of `ensure_signed`. -/
inductive BadOrigin where
  | badOrigin
  deriving DecidableEq, Repr

inductive DispatchError where
  | badOrigin
  | module (error : Error)
  deriving DecidableEq, Repr

inductive Event (AccountId Moment Record : Type) where
  /-- New data added. -/
  | newRecord (account : AccountId) (moment : Moment) (record : Record)
  /-- Account datalog erased. -/
  | erased (account : AccountId)
  /-- Record sender to another location. -/
  | recordSent (account : AccountId)
  deriving DecidableEq, Repr

/-- The part of `frame_system` that the pallet's events reach. -/
structure System (AccountId Moment Record : Type) where
  blockNumber : ℕ
  events : List (Event AccountId Moment Record)

/-- The associated items of the pallet's `Trait` that its code reads, with the
functions of `frame_system` and of the codec that it calls. -/
structure Trait (Origin AccountId Moment Record : Type) where
  windowSize : UInt64
  maximumMessageSize : ℕ
  sizeHint : Record → ℕ
  ensureSigned : Origin → Except BadOrigin AccountId
  depositEvent : Event AccountId Moment Record → System AccountId Moment Record →
    System AccountId Moment Record

/-- The pallet's `decl_storage!`. -/
structure Storage (AccountId Moment Record : Type) where
  /-- Time tagged data of given account (old values). -/
  datalog : StorageMap AccountId (List (Moment × Record))
  /-- Ringbuffer start/end pointers -/
  datalogIndex : StorageMap AccountId RingBufferIndex
  /-- Ringbuffer items -/
  datalogItem : StorageMap (AccountId × UInt64) (RingBufferItem Moment Record)

inductive StorageKey (AccountId : Type) where
  | datalog (account : AccountId)
  | datalogIndex (account : AccountId)
  | datalogItem (account : AccountId) (slot : UInt64)
  deriving DecidableEq, Repr

/-- An operation on the pallet's own storage, or a look at the clock. -/
inductive StorageOp (AccountId : Type) where
  | remove (key : StorageKey AccountId)
  | insert (key : StorageKey AccountId)
  | take (key : StorageKey AccountId)
  | mutate (key : StorageKey AccountId)
  | now
  deriving DecidableEq, Repr

structure State (AccountId Moment Record : Type) where
  storage : Storage AccountId Moment Record
  system : System AccountId Moment Record
  trace : List (StorageOp AccountId)

/-- The monad of the dispatchable calls, over the state that they change. -/
abbrev CallM (Chain : Type) := Computation DispatchError Chain

/-- The calls over typed maps. -/
abbrev DispatchM (AccountId Moment Record : Type) := CallM (State AccountId Moment Record)

inductive Call (Record : Type) where
  | record (record : Record)
  | erase
  deriving DecidableEq, Repr

/-- A call as it arrives: who sends it, and what `T::Time::now()` answers
while it runs. -/
structure Extrinsic (Origin Moment Record : Type) where
  origin : Origin
  now : Moment
  call : Call Record
  deriving DecidableEq, Repr

variable {Origin AccountId Moment Record : Type}

def Storage.empty : Storage AccountId Moment Record where
  datalog := StorageMap.empty
  datalogIndex := StorageMap.empty
  datalogItem := StorageMap.empty

/-! ## The calls -/

/-- The operations that the calls are made of: those on the three maps, the
clock, the events, and the two pieces of pointer arithmetic, of which `none`
is a panic or a loop that never ends. -/
structure Operations (AccountId Moment Record Chain : Type) where
  datalogRemove : AccountId → CallM Chain Unit
  datalogIndexGet : AccountId → CallM Chain RingBufferIndex
  datalogIndexPut : AccountId → RingBufferIndex → CallM Chain Unit
  datalogIndexTake : AccountId → CallM Chain RingBufferIndex
  datalogItemInsert : AccountId → UInt64 → RingBufferItem Moment Record → CallM Chain Unit
  datalogItemRemove : AccountId → UInt64 → CallM Chain Unit
  timeNow : Moment → CallM Chain Moment
  depositEvent : Event AccountId Moment Record → CallM Chain Unit
  add : RingBufferIndex → UInt64 → Option (UInt64 × RingBufferIndex)
  slots : RingBufferIterator → Option (List UInt64)

section Calls

variable {Chain : Type}

/-- `ensure!` -/
def ensure (condition : Prop) [Decidable condition] (error : DispatchError) : CallM Chain Unit :=
  if condition then pure () else throw error

/-- The `?` after `ensure_signed`. -/
def signer (result : Except BadOrigin AccountId) : CallM Chain AccountId :=
  match result with
  | .ok account => pure account
  | .error .badOrigin => throw .badOrigin

namespace Operations

variable (ops : Operations AccountId Moment Record Chain)
  (T : Trait Origin AccountId Moment Record)

/-- `DatalogIndex::mutate`: the closure runs on a copy of the index, which is
written back when it returns. -/
def datalogIndexMutate (account : AccountId)
    (closure : RingBufferIndex → CallM Chain RingBufferIndex) : CallM Chain Unit := do
  let idx ← closure (← ops.datalogIndexGet account)
  ops.datalogIndexPut account idx

/-- Store new data into blockchain. -/
def record (now : Moment) (origin : Origin) (record : Record) : CallM Chain Unit := do
  ensure (T.sizeHint record ≤ T.maximumMessageSize) (.module .recordTooBig)
  let sender ← signer (T.ensureSigned origin)
  -- remove previous version
  ops.datalogRemove sender
  let now ← ops.timeNow now
  let item : RingBufferItem Moment Record := { now := now, record := record }
  ops.datalogIndexMutate sender fun idx => do
    let (end_, idx) ← Computation.returning (ops.add idx T.windowSize)
    ops.datalogItemInsert sender end_ item
    return idx
  let (now, record) := item.into
  ops.depositEvent (.newRecord sender now record)

/-- Clear account`s datalog.  The iterator owns its copy of the index, so the
deletions in the loop body cannot change which slots it visits. -/
def erase (origin : Origin) : CallM Chain Unit := do
  let sender ← signer (T.ensureSigned origin)
  ops.datalogRemove sender
  let idx ← ops.datalogIndexTake sender
  for start in ← Computation.returning (ops.slots (idx.iter T.windowSize)) do
    ops.datalogItemRemove sender start
  ops.depositEvent (.erased sender)

/-- One extrinsic: the result of its call and the state it leaves. -/
def dispatch : Machine (Extrinsic Origin Moment Record) (Except DispatchError Unit) Chain :=
  fun extrinsic state =>
    match extrinsic.call with
    | .record r => (ops.record T extrinsic.now extrinsic.origin r).run.run state
    | .erase => (ops.erase T extrinsic.origin).run.run state

end Operations

/-- The account's log as the pallet reads it back, from what `get` gives of
the two maps; `none` if the iterator never ends. -/
def readData (slots : RingBufferIterator → Option (List UInt64)) (windowSize : UInt64)
    (datalogIndex : AccountId → RingBufferIndex)
    (datalogItem : AccountId × UInt64 → RingBufferItem Moment Record) (account : AccountId) :
    Option (List (RingBufferItem Moment Record)) :=
  let idx := datalogIndex account
  (slots (idx.iter windowSize)).map fun visited => visited.map fun i => datalogItem (account, i)

end Calls

/-! ## The operations on typed maps -/

/-- Perform one storage operation and note it in the trace. -/
def perform (op : StorageOp AccountId)
    (update : Storage AccountId Moment Record → Storage AccountId Moment Record) :
    DispatchM AccountId Moment Record Unit :=
  modify fun state => { state with storage := update state.storage, trace := state.trace ++ [op] }

def getStorage : DispatchM AccountId Moment Record (Storage AccountId Moment Record) := do
  return (← get).storage

/-- `T::Time::now()`; the clock itself belongs to another pallet. -/
def timeNow (now : Moment) : DispatchM AccountId Moment Record Moment := do
  perform .now id
  return now

/-- `Self::deposit_event` -/
def depositEvent (T : Trait Origin AccountId Moment Record)
    (event : Event AccountId Moment Record) : DispatchM AccountId Moment Record Unit :=
  modify fun state => { state with system := T.depositEvent event state.system }

variable [DecidableEq AccountId]

def datalogRemove (account : AccountId) : DispatchM AccountId Moment Record Unit :=
  perform (.remove (.datalog account)) fun storage =>
    { storage with datalog := storage.datalog.remove account }

/-- The read of a `mutate`. -/
def datalogIndexGet (account : AccountId) : DispatchM AccountId Moment Record RingBufferIndex := do
  return (← getStorage).datalogIndex.get account

/-- The write of a `mutate`, where the trace notes the operation. -/
def datalogIndexPut (account : AccountId) (idx : RingBufferIndex) :
    DispatchM AccountId Moment Record Unit :=
  perform (.mutate (.datalogIndex account)) fun storage =>
    { storage with datalogIndex := storage.datalogIndex.insert account idx }

def datalogIndexTake (account : AccountId) :
    DispatchM AccountId Moment Record RingBufferIndex := do
  let idx := (← getStorage).datalogIndex.get account
  perform (.take (.datalogIndex account)) fun storage =>
    { storage with datalogIndex := storage.datalogIndex.remove account }
  return idx

def datalogItemInsert (account : AccountId) (slot : UInt64)
    (item : RingBufferItem Moment Record) : DispatchM AccountId Moment Record Unit :=
  perform (.insert (.datalogItem account slot)) fun storage =>
    { storage with datalogItem := storage.datalogItem.insert (account, slot) item }

def datalogItemRemove (account : AccountId) (slot : UInt64) :
    DispatchM AccountId Moment Record Unit :=
  perform (.remove (.datalogItem account slot)) fun storage =>
    { storage with datalogItem := storage.datalogItem.remove (account, slot) }

/-- The release build over typed maps. -/
def operations (T : Trait Origin AccountId Moment Record) :
    Operations AccountId Moment Record (State AccountId Moment Record) where
  datalogRemove := datalogRemove
  datalogIndexGet := datalogIndexGet
  datalogIndexPut := datalogIndexPut
  datalogIndexTake := datalogIndexTake
  datalogItemInsert := datalogItemInsert
  datalogItemRemove := datalogItemRemove
  timeNow := timeNow
  depositEvent := depositEvent T
  add := fun idx max => some (idx.add max)
  slots := RingBufferIterator.collect

def record (T : Trait Origin AccountId Moment Record) :
    Moment → Origin → Record → DispatchM AccountId Moment Record Unit :=
  (operations T).record T

def erase (T : Trait Origin AccountId Moment Record) :
    Origin → DispatchM AccountId Moment Record Unit :=
  (operations T).erase T

def data [Inhabited Moment] [Inhabited Record] (T : Trait Origin AccountId Moment Record)
    (storage : Storage AccountId Moment Record) :
    AccountId → Option (List (RingBufferItem Moment Record)) :=
  readData RingBufferIterator.collect T.windowSize storage.datalogIndex.get storage.datalogItem.get

def dispatch (T : Trait Origin AccountId Moment Record) :
    Machine (Extrinsic Origin Moment Record) (Except DispatchError Unit)
      (State AccountId Moment Record) :=
  (operations T).dispatch T

/-- A finite run of extrinsics: each one with its result, and the last state. -/
abbrev run (T : Trait Origin AccountId Moment Record) :
    List (Extrinsic Origin Moment Record) → State AccountId Moment Record →
    Option (List (Extrinsic Origin Moment Record × Except DispatchError Unit) ×
      State AccountId Moment Record) :=
  Machine.run (dispatch T)

/-- The states that runs reach from empty pallet storage. -/
def Reachable (T : Trait Origin AccountId Moment Record)
    (state : State AccountId Moment Record) : Prop :=
  ∃ start extrinsics receipts, start.storage = Storage.empty ∧
    run T extrinsics start = some (receipts, state)

end Datalog
end IpciBlockchain
