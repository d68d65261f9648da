import IpciBlockchain.Datalog.Recovery
import IpciBlockchain.Datalog.StorageKeys

namespace IpciBlockchain
namespace Datalog

open Foundation

/-!
# The byte storage refines the typed storage

`typed` decodes the store into the maps of the pallet.  Each operation over
the store, decoded, is the operation on the maps, for every store and also
where bytes under the pallet's keys do not decode; so the calls and the runs
are those of the typed pallet.

The store is shared with the rest of the chain.  The operations under an
account change the bytes of the account's entries and of the events, and no
other key.
-/

variable {Failure Origin AccountId Moment Record Store : Type}

/-! ## The decoded store -/

/-- The typed maps that a store holds. -/
def Storage.ofRaw (S : ChainStorage AccountId Moment Record Store)
    (E : Encodings Failure AccountId Moment Record) (raw : Store) :
    Storage AccountId Moment Record where
  datalog := fun account => unhashedGet S E.readLegacy raw (S.storageKey (.datalog account))
  datalogIndex := fun account =>
    unhashedGet S E.ringBufferIndex.read raw (S.storageKey (.datalogIndex account))
  datalogItem := fun key =>
    unhashedGet S E.ringBufferItem.read raw (S.storageKey (.datalogItem key.1 key.2))

/-- The state of the typed pallet that a store holds. -/
def RawState.typed (S : ChainStorage AccountId Moment Record Store)
    (E : Encodings Failure AccountId Moment Record)
    (state : RawState Store AccountId Moment Record) : State AccountId Moment Record where
  storage := Storage.ofRaw S E state.raw
  system := state.system
  trace := state.trace

section Updates

variable {S : ChainStorage AccountId Moment Record Store}

/-- The bytes under an entry decide what the typed maps hold there. -/
theorem unhashedGet_congr {raw raw' : Store} {key : List UInt8}
    (same : S.get raw' key = S.get raw key) {Value : Type}
    (read : List UInt8 → Except Failure Value) :
    unhashedGet S read raw' key = unhashedGet S read raw key := by
  rw [unhashedGet, unhashedGet, same]

theorem ofRaw_congr (E : Encodings Failure AccountId Moment Record) {raw raw' : Store}
    (same : ∀ entry, S.get raw' (S.storageKey entry) = S.get raw (S.storageKey entry)) :
    Storage.ofRaw S E raw' = Storage.ofRaw S E raw := by
  simp only [Storage.ofRaw, Storage.mk.injEq]
  exact ⟨funext fun account => unhashedGet_congr (same _) E.readLegacy,
    funext fun account => unhashedGet_congr (same _) E.ringBufferIndex.read,
    funext fun key => unhashedGet_congr (same _) E.ringBufferItem.read⟩

/-- The stores differ under one key at most. -/
def ChangesOnly (S : ChainStorage AccountId Moment Record Store) (key : List UInt8)
    (raw raw' : Store) : Prop :=
  ∀ other, other ≠ key → S.get raw' other = S.get raw other

variable (documented : S.Documented) (E : Encodings Failure AccountId Moment Record)
  {raw raw' : Store}

include documented

/-- A change under the key of one entry is no change for the others. -/
theorem ChangesOnly.get_of_ne {entry other : StorageKey AccountId}
    (changes : ChangesOnly S (S.storageKey entry) raw raw') (different : other ≠ entry) :
    S.get raw' (S.storageKey other) = S.get raw (S.storageKey other) :=
  changes _ fun same => different (documented.storageKey_injective same)

/-- A map of the typed storage after a change under one of its keys. -/
theorem unhashedGet_update {Key Value : Type} [DecidableEq Key] {entry : Key → StorageKey AccountId}
    (injective : Function.Injective entry) {key : Key}
    (changes : ChangesOnly S (S.storageKey (entry key)) raw raw')
    (read : List UInt8 → Except Failure Value) :
    (fun other => unhashedGet S read raw' (S.storageKey (entry other))) =
      Function.update (fun other => unhashedGet S read raw (S.storageKey (entry other))) key
        (unhashedGet S read raw' (S.storageKey (entry key))) := by
  funext other
  by_cases same : other = key
  · rw [same, Function.update_self]
  · rw [Function.update_of_ne same]
    exact unhashedGet_congr
      (changes.get_of_ne documented fun equal => same (injective equal)) read

variable [DecidableEq AccountId]

theorem ofRaw_update_datalog {account : AccountId}
    (changes : ChangesOnly S (S.storageKey (.datalog account)) raw raw') :
    Storage.ofRaw S E raw' =
      { Storage.ofRaw S E raw with
        datalog := Function.update (Storage.ofRaw S E raw).datalog account
          (unhashedGet S E.readLegacy raw' (S.storageKey (.datalog account))) } := by
  simp only [Storage.ofRaw, Storage.mk.injEq]
  refine ⟨unhashedGet_update documented (fun _ _ same => StorageKey.datalog.inj same) changes
    E.readLegacy, ?_, ?_⟩
  · exact funext fun other =>
      unhashedGet_congr (changes.get_of_ne documented (by simp)) E.ringBufferIndex.read
  · exact funext fun key =>
      unhashedGet_congr (changes.get_of_ne documented (by simp)) E.ringBufferItem.read

theorem ofRaw_update_index {account : AccountId}
    (changes : ChangesOnly S (S.storageKey (.datalogIndex account)) raw raw') :
    Storage.ofRaw S E raw' =
      { Storage.ofRaw S E raw with
        datalogIndex := Function.update (Storage.ofRaw S E raw).datalogIndex account
          (unhashedGet S E.ringBufferIndex.read raw' (S.storageKey (.datalogIndex account))) } := by
  simp only [Storage.ofRaw, Storage.mk.injEq]
  refine ⟨?_, unhashedGet_update documented (fun _ _ same => StorageKey.datalogIndex.inj same)
    changes E.ringBufferIndex.read, ?_⟩
  · exact funext fun other =>
      unhashedGet_congr (changes.get_of_ne documented (by simp)) E.readLegacy
  · exact funext fun key =>
      unhashedGet_congr (changes.get_of_ne documented (by simp)) E.ringBufferItem.read

theorem ofRaw_update_item {account : AccountId} {slot : UInt64}
    (changes : ChangesOnly S (S.storageKey (.datalogItem account slot)) raw raw') :
    Storage.ofRaw S E raw' =
      { Storage.ofRaw S E raw with
        datalogItem := Function.update (Storage.ofRaw S E raw).datalogItem (account, slot)
          (unhashedGet S E.ringBufferItem.read raw'
            (S.storageKey (.datalogItem account slot))) } := by
  have injective : Function.Injective fun key : AccountId × UInt64 =>
      StorageKey.datalogItem key.1 key.2 := by
    intro key key' same
    have fields := StorageKey.datalogItem.inj same
    exact Prod.ext fields.1 fields.2
  have changes' : ChangesOnly S
      (S.storageKey ((fun key : AccountId × UInt64 => StorageKey.datalogItem key.1 key.2)
        (account, slot))) raw raw' := changes
  simp only [Storage.ofRaw, Storage.mk.injEq]
  refine ⟨?_, ?_, unhashedGet_update documented injective changes' E.ringBufferItem.read⟩
  · exact funext fun other =>
      unhashedGet_congr (changes.get_of_ne documented (by simp)) E.readLegacy
  · exact funext fun other =>
      unhashedGet_congr (changes.get_of_ne documented (by simp)) E.ringBufferIndex.read

omit [DecidableEq AccountId]

theorem changesOnly_put (key bytes : List UInt8) (raw : Store) :
    ChangesOnly S key raw (S.put raw key bytes) :=
  fun _ different => documented.get_put_of_ne raw key bytes different

theorem changesOnly_kill (key : List UInt8) (raw : Store) :
    ChangesOnly S key raw (S.kill raw key) :=
  fun _ different => documented.get_kill_of_ne raw key different

theorem changesOnly_take (read : List UInt8 → Option RingBufferIndex) (key : List UInt8)
    (raw : Store) : ChangesOnly S key raw (S.take read raw key).2 :=
  fun _ different => documented.get_take_of_ne read raw key different

/-- A value that is put is read back. -/
theorem unhashedGet_put {Value : Type} (codec : Codec Failure Value) (raw : Store)
    (key : List UInt8) (value : Value) :
    unhashedGet S codec.read (S.put raw key (codec.encode value)) key = some value := by
  rw [unhashedGet, documented.get_put_self, Option.bind_some, Codec.read_encode]
  rfl

theorem unhashedGet_kill {Value : Type} (read : List UInt8 → Except Failure Value) (raw : Store)
    (key : List UInt8) : unhashedGet S read (S.kill raw key) key = none := by
  rw [unhashedGet, documented.get_kill_self, Option.bind_none]

end Updates

/-! ## The operations -/

section Operations

variable {S : ChainStorage AccountId Moment Record Store} (documented : S.Documented)
  {E : Encodings Failure AccountId Moment Record}

/-- A storage operation simulates another one if decoding after its update is
the other update of the decoded maps. -/
theorem simulates_perform (op : StorageOp AccountId) {update : Store → Store}
    {update' : Storage AccountId Moment Record → Storage AccountId Moment Record}
    (decodes : ∀ raw, Storage.ofRaw S E (update raw) = update' (Storage.ofRaw S E raw)) :
    Computation.Simulates (RawState.typed S E) (performRaw op update) (perform op update') := by
  apply Computation.Simulates.modify_
  intro state
  simp only [RawState.typed, decodes]

theorem simulates_timeNow (T : Trait Origin AccountId Moment Record) [DecidableEq AccountId]
    (now : Moment) : Computation.Simulates (RawState.typed S E)
      ((rawOperations S E T).timeNow now) ((operations T).timeNow now) :=
  .bind (simulates_perform .now fun _ => rfl) fun _ => .pure_ now

include documented

/-- An event leaves the entries of the pallet alone. -/
theorem simulates_depositEvent (T : Trait Origin AccountId Moment Record)
    [DecidableEq AccountId] (event : Event AccountId Moment Record) :
    Computation.Simulates (RawState.typed S E) ((rawOperations S E T).depositEvent event)
      ((operations T).depositEvent event) := by
  apply Computation.Simulates.modify_
  intro state
  have untouched : Storage.ofRaw S E (S.depositEvent event state.raw) =
      Storage.ofRaw S E state.raw :=
    ofRaw_congr E fun entry =>
      documented.get_depositEvent event state.raw (documented.storageKey_apart entry)
  simp only [RawState.typed, untouched]

/-- `take` leaves no index that decodes, whether or not it leaves bytes. -/
theorem simulates_datalogIndexTake (T : Trait Origin AccountId Moment Record)
    [DecidableEq AccountId] (account : AccountId) :
    Computation.Simulates (RawState.typed S E) ((rawOperations S E T).datalogIndexTake account)
      ((operations T).datalogIndexTake account) := by
  intro state
  have value := documented.take_value (fun bytes => (E.ringBufferIndex.read bytes).toOption)
    state.raw (S.storageKey (.datalogIndex account))
  have taken : ∀ raw, Storage.ofRaw S E (S.take
      (fun bytes => (E.ringBufferIndex.read bytes).toOption) raw
        (S.storageKey (.datalogIndex account))).2 =
      { Storage.ofRaw S E raw with
        datalogIndex := (Storage.ofRaw S E raw).datalogIndex.remove account } := by
    intro raw
    rw [ofRaw_update_index documented E (changesOnly_take documented _ _ raw), unhashedGet,
      documented.get_take_self]
    rfl
  change some (Except.ok _, State.mk { Storage.ofRaw S E state.raw with
      datalogIndex := (Storage.ofRaw S E state.raw).datalogIndex.remove account } _ _) =
    some (Except.ok (Option.getD (S.take _ state.raw _).1 default),
      State.mk (Storage.ofRaw S E (S.take _ state.raw _).2) _ _)
  rw [taken state.raw, value]
  rfl

theorem rawOperations_simulates [DecidableEq AccountId]
    (T : Trait Origin AccountId Moment Record) :
    (rawOperations S E T).Simulates (RawState.typed S E) (operations T) where
  datalogRemove account := by
    simp only [rawOperations, operations, datalogRemove]
    apply simulates_perform
    intro raw
    rw [ofRaw_update_datalog documented E (changesOnly_kill documented _ raw),
      unhashedGet_kill documented]
    rfl
  datalogIndexGet account := fun _ => rfl
  datalogIndexPut account idx := by
    simp only [rawOperations, operations, datalogIndexPut]
    apply simulates_perform
    intro raw
    rw [ofRaw_update_index documented E (changesOnly_put documented _ _ raw),
      unhashedGet_put documented]
    rfl
  datalogIndexTake := simulates_datalogIndexTake documented T
  datalogItemInsert account slot item := by
    simp only [rawOperations, operations, datalogItemInsert]
    apply simulates_perform
    intro raw
    rw [ofRaw_update_item documented E (changesOnly_put documented _ _ raw),
      unhashedGet_put documented]
    rfl
  datalogItemRemove account slot := by
    simp only [rawOperations, operations, datalogItemRemove]
    apply simulates_perform
    intro raw
    rw [ofRaw_update_item documented E (changesOnly_kill documented _ raw),
      unhashedGet_kill documented]
    rfl
  timeNow := simulates_timeNow T
  depositEvent := simulates_depositEvent documented T
  add := fun _ _ => rfl
  slots := fun _ => rfl

theorem dispatch_typed [DecidableEq AccountId] (T : Trait Origin AccountId Moment Record)
    (extrinsic : Extrinsic Origin Moment Record) (state : RawState Store AccountId Moment Record) :
    dispatch T extrinsic (state.typed S E) =
      (dispatchRaw S E T extrinsic state).map (Prod.map id (RawState.typed S E)) :=
  (rawOperations_simulates documented T).dispatch T extrinsic state

end Operations

/-! ## The keys that the calls leave alone -/

/-- The account that an entry of the pallet belongs to. -/
def StorageKey.account : StorageKey AccountId → AccountId
  | datalog account | datalogIndex account | datalogItem account _ => account

section Frame

variable {S : ChainStorage AccountId Moment Record Store} (documented : S.Documented)
  {E : Encodings Failure AccountId Moment Record}

theorem preserves_perform (op : StorageOp AccountId) {key written : List UInt8}
    (apart : key ≠ written) {update : Store → Store}
    (changes : ∀ raw, ChangesOnly S written raw (update raw)) :
    Computation.Preserves
      (fun state : RawState Store AccountId Moment Record => S.get state.raw key)
      (performRaw op update) :=
  .modify_ fun state => changes state.raw key apart

include documented

/-- The operations under an account change no key but those of its entries and
of the system. -/
theorem rawOperations_preserves (T : Trait Origin AccountId Moment Record) {key : List UInt8}
    (notSystem : key ∉ S.systemKeys) {account : AccountId}
    (foreign : ∀ entry : StorageKey AccountId, entry.account = account →
      key ≠ S.storageKey entry) :
    (rawOperations S E T).Preserves (fun state => S.get state.raw key) account where
  datalogRemove := preserves_perform _ (foreign _ rfl) (changesOnly_kill documented _)
  datalogIndexGet := by
    intro state answer next returned
    cases returned
    rfl
  datalogIndexPut idx := preserves_perform _ (foreign _ rfl) (changesOnly_put documented _ _)
  datalogIndexTake := by
    intro state answer next returned
    cases returned
    exact changesOnly_take documented _ _ state.raw key (foreign _ rfl)
  datalogItemInsert slot item :=
    preserves_perform _ (foreign _ rfl) (changesOnly_put documented _ _)
  datalogItemRemove slot := preserves_perform _ (foreign _ rfl) (changesOnly_kill documented _)
  timeNow now := .bind (.modify_ fun _ => rfl) fun _ => .pure_ now
  depositEvent event := .modify_ fun state => documented.get_depositEvent event state.raw notSystem

end Frame

/-! ## Runs -/

/-- From every state of the store, decodable or not, a run over the store is
the run of the typed pallet over the decoded maps: it returns if and only if
that one does, with the same results, events and storage operations, its store
decodes to the same maps, and `data` reads the same logs. -/
theorem raw_storage_refines [DecidableEq AccountId] [Inhabited Moment] [Inhabited Record]
    (S : ChainStorage AccountId Moment Record Store) (documented : S.Documented)
    (E : Encodings Failure AccountId Moment Record) (T : Trait Origin AccountId Moment Record)
    (extrinsics : List (Extrinsic Origin Moment Record))
    (state : RawState Store AccountId Moment Record) :
    run T extrinsics (state.typed S E) =
        (Machine.run (dispatchRaw S E T) extrinsics state).map (Prod.map id (RawState.typed S E)) ∧
      ∀ receipts last, Machine.run (dispatchRaw S E T) extrinsics state = some (receipts, last) →
        ∀ account, dataRaw S E T last.raw account = data T (last.typed S E).storage account :=
  ⟨Machine.run_abstracts (dispatchRaw S E T) (RawState.typed S E) (dispatch_typed documented T)
    extrinsics state, fun _ _ _ _ => rfl⟩

/-- The bytes implement the bounded log: from every store whose decoded
pointers are inside the window every run returns, and what `data` reads from
the bytes after it is what it read before with the accepted calls of the
account applied. -/
theorem raw_log_follows_history [DecidableEq AccountId] [Inhabited Moment] [Inhabited Record]
    (S : ChainStorage AccountId Moment Record Store) (documented : S.Documented)
    (E : Encodings Failure AccountId Moment Record) (T : Trait Origin AccountId Moment Record)
    (state : RawState Store AccountId Moment Record)
    (inside : (Storage.ofRaw S E state.raw).PointersInside T.windowSize)
    (extrinsics : List (Extrinsic Origin Moment Record)) :
    ∃ before : AccountId → List (RingBufferItem Moment Record), ∃ receipts last,
      Machine.run (dispatchRaw S E T) extrinsics state = some (receipts, last) ∧
      (∀ account, dataRaw S E T state.raw account = some (before account)) ∧
      ∀ account, dataRaw S E T last.raw account =
        some ((History.ofReceipts T account receipts).readBack (T.windowSize.toNat - 1)
          (before account)) := by
  rcases run_logsFollow T (state.typed S E) inside extrinsics with
    ⟨before, receipts, typedLast, ran, reads, follow⟩
  rw [run, Machine.run_abstracts (dispatchRaw S E T) (RawState.typed S E)
    (dispatch_typed documented T)] at ran
  rcases Option.map_eq_some_iff.mp ran with ⟨⟨receipts', last⟩, ranRaw, equal⟩
  cases equal
  exact ⟨before, receipts', last, ranRaw, reads, follow.reads⟩

def sampleTrait : Trait (RawOrigin UInt64) UInt64 UInt64 UInt8 where
  windowSize := datalogWindowSize
  maximumMessageSize := datalogMaximumMessageSize
  sizeHint := fun _ => 1
  ensureSigned := (runtimeTrait UInt64).ensureSigned
  depositEvent := fun event system =>
    if system.blockNumber = 0 then system
    else { system with events := system.events ++ [event] }

/-- A signed `record` of one byte. -/
def sampleRecord : Extrinsic (RawOrigin UInt64) UInt64 UInt8 where
  origin := .signed 7
  now := 1000
  call := .record 42

/-- The store of a chain at block one, in which another pallet has an entry,
and in which the bytes of the index of account 7 do not decode. -/
def sampleState : RawState (StorageMap (List UInt8) (List UInt8)) UInt64 UInt64 UInt8 where
  raw := ((StorageMap.empty.insert SystemKey.number [1, 0, 0, 0]).insert [1] [2]).insert
    (sampleStorage.storageKey (.datalogIndex 7)) [3]
  system := { blockNumber := 1, events := [] }
  trace := []

/-- Only the bytes of account 7 are under a key of an index, and they do not
decode, so every index is the default one. -/
theorem pointersInside_sampleState :
    (Storage.ofRaw sampleStorage sampleEncodings sampleState.raw).PointersInside
      datalogWindowSize := by
  have indexes : (Storage.ofRaw sampleStorage sampleEncodings sampleState.raw).datalogIndex =
      StorageMap.empty := by
    funext account
    show unhashedGet _ _ sampleState.raw _ = none
    by_cases own : account = 7
    · rw [own]
      decide +kernel
    · have apart : sampleStorage.storageKey (.datalogIndex account) ≠
          sampleStorage.storageKey (.datalogIndex 7) := fun same =>
        own (StorageKey.datalogIndex.inj (sampleStorage_documented.storageKey_injective same))
      have notByte : sampleStorage.storageKey (.datalogIndex account) ≠ [1] :=
        sampleStorage_storageKey_ne (by decide) _
      have notNumber : sampleStorage.storageKey (.datalogIndex account) ≠ SystemKey.number :=
        sampleStorage_storageKey_ne (by decide) _
      have absent : sampleState.raw (sampleStorage.storageKey (.datalogIndex account)) = none :=
        (StorageMap.insert_of_ne _ _ apart).trans
          ((StorageMap.insert_of_ne _ _ notByte).trans (StorageMap.insert_of_ne _ _ notNumber))
      show Option.bind (sampleState.raw (sampleStorage.storageKey (.datalogIndex account))) _ = none
      rw [absent, Option.bind_none]
  intro account
  have fresh : (Storage.empty : Storage UInt64 UInt64 UInt8).PointersInside datalogWindowSize :=
    pointersInside_empty (by decide)
  rw [indexes]
  exact fresh account

theorem run_sampleRecord :
    ∃ last, Machine.run (dispatchRaw sampleStorage sampleEncodings sampleTrait) [sampleRecord]
      sampleState = some ([(sampleRecord, .ok ())], last) := by
  have answers : (Machine.run (dispatchRaw sampleStorage sampleEncodings sampleTrait)
      [sampleRecord] sampleState).map Prod.fst = some [(sampleRecord, .ok ())] := by
    decide +kernel
  rcases Option.map_eq_some_iff.mp answers with ⟨⟨receipts, last⟩, ran, rfl⟩
  exact ⟨last, ran⟩

/-- The typed maps have no index where the bytes do not decode, and the two runs
agree. -/
theorem raw_storage_refines_undecodable :
    ∃ last,
      (sampleState.typed sampleStorage sampleEncodings).storage.datalogIndex 7 = none ∧
      Machine.run (dispatchRaw sampleStorage sampleEncodings sampleTrait) [sampleRecord]
        sampleState = some ([(sampleRecord, .ok ())], last) ∧
      run sampleTrait [sampleRecord] (sampleState.typed sampleStorage sampleEncodings) =
        some ([(sampleRecord, .ok ())], last.typed sampleStorage sampleEncodings) ∧
      dataRaw sampleStorage sampleEncodings sampleTrait last.raw 7 =
        data sampleTrait (last.typed sampleStorage sampleEncodings).storage 7 := by
  rcases run_sampleRecord with ⟨last, ran⟩
  rcases raw_storage_refines sampleStorage sampleStorage_documented sampleEncodings sampleTrait
      [sampleRecord] sampleState with ⟨same, reads⟩
  rw [ran] at same
  exact ⟨last, by decide +kernel, ran, same, reads _ last ran 7⟩

theorem raw_log_follows_history_undecodable :
    ∃ last,
      Machine.run (dispatchRaw sampleStorage sampleEncodings sampleTrait) [sampleRecord]
        sampleState = some ([(sampleRecord, .ok ())], last) ∧
      dataRaw sampleStorage sampleEncodings sampleTrait sampleState.raw 7 = some [] ∧
      dataRaw sampleStorage sampleEncodings sampleTrait last.raw 7 = some [⟨1000, 42⟩] := by
  rcases run_sampleRecord with ⟨last, ran⟩
  have empty : dataRaw sampleStorage sampleEncodings sampleTrait sampleState.raw 7 = some [] := by
    decide +kernel
  rcases raw_log_follows_history sampleStorage sampleStorage_documented sampleEncodings
      sampleTrait sampleState pointersInside_sampleState [sampleRecord] with
    ⟨before, receipts, last', ran', reads, after⟩
  cases ran.symm.trans ran'
  have nothing : before 7 = [] := Option.some.inj ((reads 7).symm.trans empty)
  refine ⟨last, ran, empty, ?_⟩
  rw [after 7, nothing]
  decide

/-- A run leaves the store alone under every key that is neither one of the
system's nor the place of an entry of one of the accounts that signed its
extrinsics: the data of other pallets, and the entries of other accounts, keep
their bytes. -/
theorem raw_storage_frame (S : ChainStorage AccountId Moment Record Store)
    (documented : S.Documented) (E : Encodings Failure AccountId Moment Record)
    (T : Trait Origin AccountId Moment Record)
    (extrinsics : List (Extrinsic Origin Moment Record))
    (state last : RawState Store AccountId Moment Record)
    (receipts : List (Extrinsic Origin Moment Record × Except DispatchError Unit))
    (ran : Machine.run (dispatchRaw S E T) extrinsics state = some (receipts, last))
    (key : List UInt8) (notSystem : key ∉ S.systemKeys)
    (foreign : ∀ extrinsic ∈ extrinsics, ∀ account, T.ensureSigned extrinsic.origin = .ok account →
      ∀ entry : StorageKey AccountId, entry.account = account → key ≠ S.storageKey entry) :
    S.get last.raw key = S.get state.raw key := by
  induction extrinsics generalizing state receipts with
  | nil => cases ran; rfl
  | cons extrinsic rest ih =>
      rcases (Machine.run_cons_eq_some_iff _ extrinsic rest state last receipts).mp ran with
        ⟨answer, middle, later, stepped, ranRest, _⟩
      have first : S.get middle.raw key = S.get state.raw key := by
        apply Operations.Preserves.dispatch T _ stepped
        intro account signed
        exact rawOperations_preserves documented T notSystem
          (foreign extrinsic List.mem_cons_self account signed)
      have others := ih middle later ranRest fun other member =>
        foreign other (List.mem_cons_of_mem extrinsic member)
      exact others.trans first

/-- The run writes the count of the events, and leaves the other pallet's entry
alone. -/
theorem raw_storage_frame_other :
    ∃ last,
      Machine.run (dispatchRaw sampleStorage sampleEncodings sampleTrait) [sampleRecord]
        sampleState = some ([(sampleRecord, .ok ())], last) ∧
      sampleStorage.get last.raw SystemKey.eventCount = some [1, 0, 0, 0] ∧
      sampleStorage.get last.raw [1] = some [2] := by
  rcases run_sampleRecord with ⟨last, ran⟩
  have counted : (Machine.run (dispatchRaw sampleStorage sampleEncodings sampleTrait)
      [sampleRecord] sampleState).bind
        (fun outcome => sampleStorage.get outcome.2.raw SystemKey.eventCount) =
      some [1, 0, 0, 0] := by
    decide +kernel
  rw [ran] at counted
  refine ⟨last, ran, counted, ?_⟩
  rw [raw_storage_frame sampleStorage sampleStorage_documented sampleEncodings sampleTrait
    [sampleRecord] sampleState last _ ran [1] (by decide)
    fun _ _ _ _ entry _ same => sampleStorage_storageKey_ne (by decide) entry same.symm]
  decide +kernel

end Datalog
end IpciBlockchain
