import IpciBlockchain.Datalog.Simulation
import IpciBlockchain.Foundation.Codec

namespace IpciBlockchain
namespace Datalog

open Foundation

/-!
# The pallet over the chain's byte storage

The chain has one store, from byte strings to byte strings, which all pallets
share.  `decl_storage!` gives each entry of the pallet's maps a key in it, and
values are stored encoded.  The operations of the calls are written down here
over that store; the calls over them are the same programs.

The store, its reads and writes and the choice of the keys belong to
`frame_support`, and the entries in which events are kept to `frame_system`.
They are a parameter, of which the results assume what is listed under
`ChainStorage.Documented`.
-/

/-- The codecs of the types that the pallet stores.  Of the values of the old
map only the decoder is used. -/
structure Encodings (Failure AccountId Moment Record : Type) where
  account : Codec Failure AccountId
  u64 : Codec Failure UInt64
  compactU64 : Codec Failure UInt64
  compactMoment : Codec Failure Moment
  record : Codec Failure Record
  readLegacy : List UInt8 → Except Failure (List (Moment × Record))

variable {Failure Origin AccountId Moment Record : Type}

namespace Encodings

/-- The derived codec of the index: two compact counters. -/
def ringBufferIndex (E : Encodings Failure AccountId Moment Record) :
    Codec Failure RingBufferIndex :=
  (E.compactU64.prod E.compactU64).wrap (fun fields => ⟨fields.1, fields.2⟩)
    (fun index => (index.start, index.end_)) fun _ => rfl

/-- The derived codec of an item: the compact moment, then the record. -/
def ringBufferItem (E : Encodings Failure AccountId Moment Record) :
    Codec Failure (RingBufferItem Moment Record) :=
  (E.compactMoment.prod E.record).wrap (fun fields => ⟨fields.1, fields.2⟩)
    RingBufferItem.into fun _ => rfl

/-- The codec of the keys of the item map. -/
def itemKey (E : Encodings Failure AccountId Moment Record) :
    Codec Failure (AccountId × UInt64) :=
  E.account.prod E.u64

end Encodings

/-! ## The store -/

/-- What the calls use of the chain's storage. -/
structure ChainStorage (AccountId Moment Record Store : Type) where
  /-- The key of an entry of the pallet. -/
  storageKey : StorageKey AccountId → List UInt8
  get : Store → List UInt8 → Option (List UInt8)
  put : Store → List UInt8 → List UInt8 → Store
  kill : Store → List UInt8 → Store
  /-- `unhashed::take`, with the decoder of the value. -/
  take : (List UInt8 → Option RingBufferIndex) → Store → List UInt8 →
    Option RingBufferIndex × Store
  /-- The keys outside the pallet that its calls read or write: the block
  number, the phase, the events and their count, and the time. -/
  systemKeys : List (List UInt8)
  /-- What `deposit_event` does to the store. -/
  depositEvent : Event AccountId Moment Record → Store → Store

/-- What the crates document of their storage: entries have keys of their own,
a write is read back and changes nothing else, `take` leaves no value that
decodes, and an event is written to the entries of the system. -/
structure ChainStorage.Documented {Store : Type}
    (S : ChainStorage AccountId Moment Record Store) : Prop where
  storageKey_injective : Function.Injective S.storageKey
  storageKey_apart : ∀ entry, S.storageKey entry ∉ S.systemKeys
  get_put_self : ∀ store key bytes, S.get (S.put store key bytes) key = some bytes
  get_put_of_ne : ∀ store key bytes {other}, other ≠ key →
    S.get (S.put store key bytes) other = S.get store other
  get_kill_self : ∀ store key, S.get (S.kill store key) key = none
  get_kill_of_ne : ∀ store key {other}, other ≠ key →
    S.get (S.kill store key) other = S.get store other
  take_value : ∀ read store key, (S.take read store key).1 = (S.get store key).bind read
  get_take_self : ∀ read store key, (S.get (S.take read store key).2 key).bind read = none
  get_take_of_ne : ∀ read store key {other}, other ≠ key →
    S.get (S.take read store key).2 other = S.get store other
  get_depositEvent : ∀ event store {key}, key ∉ S.systemKeys →
    S.get (S.depositEvent event store) key = S.get store key

/-- What the pallet's calls see of the chain: the store of all pallets, the
block number and the events for which its entries under `systemKeys` stand, and
the trace that is kept for the weights. -/
structure RawState (Store AccountId Moment Record : Type) where
  raw : Store
  system : System AccountId Moment Record
  trace : List (StorageOp AccountId)

/-- The calls over the store. -/
abbrev RawM (Store AccountId Moment Record : Type) := CallM (RawState Store AccountId Moment Record)

variable {Store : Type}

/-- Perform one storage operation and note it in the trace. -/
def performRaw (op : StorageOp AccountId) (update : Store → Store) :
    RawM Store AccountId Moment Record Unit :=
  modify fun state => { state with raw := update state.raw, trace := state.trace ++ [op] }

def getRaw : RawM Store AccountId Moment Record Store := do
  return (← get).raw

/-! ## The operations and the calls -/

section Operations

variable (S : ChainStorage AccountId Moment Record Store)
  (E : Encodings Failure AccountId Moment Record)

/-- `unhashed::get`: bytes that do not decode count as absent. -/
def unhashedGet {Value : Type} (read : List UInt8 → Except Failure Value) (raw : Store)
    (key : List UInt8) : Option Value :=
  (S.get raw key).bind fun bytes => (read bytes).toOption

/-- The release build over the store.  The clock is the business of another
pallet: an extrinsic carries what it answers. -/
def rawOperations (T : Trait Origin AccountId Moment Record) :
    Operations AccountId Moment Record (RawState Store AccountId Moment Record) where
  datalogRemove account :=
    performRaw (.remove (.datalog account)) fun raw => S.kill raw (S.storageKey (.datalog account))
  datalogIndexGet account := do
    let stored := unhashedGet S E.ringBufferIndex.read (← getRaw)
      (S.storageKey (.datalogIndex account))
    return stored.getD default
  datalogIndexPut account idx :=
    performRaw (.mutate (.datalogIndex account)) fun raw =>
      S.put raw (S.storageKey (.datalogIndex account)) (E.ringBufferIndex.encode idx)
  datalogIndexTake account := do
    let read := fun bytes => (E.ringBufferIndex.read bytes).toOption
    let key := S.storageKey (.datalogIndex account)
    let taken := (S.take read (← getRaw) key).1
    performRaw (.take (.datalogIndex account)) fun raw => (S.take read raw key).2
    return taken.getD default
  datalogItemInsert account slot item :=
    performRaw (.insert (.datalogItem account slot)) fun raw =>
      S.put raw (S.storageKey (.datalogItem account slot)) (E.ringBufferItem.encode item)
  datalogItemRemove account slot :=
    performRaw (.remove (.datalogItem account slot)) fun raw =>
      S.kill raw (S.storageKey (.datalogItem account slot))
  timeNow now := do
    performRaw .now id
    return now
  depositEvent event :=
    modify fun state => { state with
      raw := S.depositEvent event state.raw
      system := T.depositEvent event state.system }
  add := fun idx max => some (idx.add max)
  slots := RingBufferIterator.collect

/-- `data` over the store. -/
def dataRaw [Inhabited Moment] [Inhabited Record] (T : Trait Origin AccountId Moment Record)
    (raw : Store) : AccountId → Option (List (RingBufferItem Moment Record)) :=
  readData RingBufferIterator.collect T.windowSize
    (fun account =>
      let stored := unhashedGet S E.ringBufferIndex.read raw (S.storageKey (.datalogIndex account))
      stored.getD default)
    fun key =>
      let stored :=
        unhashedGet S E.ringBufferItem.read raw (S.storageKey (.datalogItem key.1 key.2))
      stored.getD default

/-- One extrinsic over the store. -/
def dispatchRaw (T : Trait Origin AccountId Moment Record) :
    Machine (Extrinsic Origin Moment Record) (Except DispatchError Unit)
      (RawState Store AccountId Moment Record) :=
  (rawOperations S E T).dispatch T

end Operations

end Datalog
end IpciBlockchain
