import IpciBlockchain.Datalog.RawStorage
import IpciBlockchain.Datalog.ByteRecords
import IpciBlockchain.Foundation.Scale
import IpciBlockchain.Foundation.StorageMap

namespace IpciBlockchain
namespace Datalog

open Foundation

/-!
# Storage keys

`decl_storage!` gives each map of the pallet a prefix, the hashes of the
pallet's name and of the map's, and each entry this prefix followed by a hash
of its key and by the key itself.  Because the keys contain what they hash,
they need nothing of the hash functions but the lengths of their outputs and
that these tell the three maps apart.

With keys of this form a map of byte strings is a storage as the pallet
expects it.  The last section gives one with real digests and with events
under the keys of a running chain.
-/

/-- The hash functions of the storage layer, with their lengths in bytes. -/
structure Hashers where
  twox128 : List UInt8 → List UInt8
  twox64 : List UInt8 → List UInt8
  blake2_128 : List UInt8 → List UInt8
  twox128_length : ∀ bytes, (twox128 bytes).length = 16
  twox64_length : ∀ bytes, (twox64 bytes).length = 8
  blake2_128_length : ∀ bytes, (blake2_128 bytes).length = 16

variable {Failure Origin AccountId Moment Record : Type}

/-- The bytes of a name of plain letters. -/
def ascii (name : String) : List UInt8 :=
  name.toList.map fun letter => UInt8.ofNat letter.toNat

namespace Hashers

variable (H : Hashers)

/-- The prefix of a map of the pallet. -/
def storagePrefix (storageName : String) : List UInt8 :=
  H.twox128 (ascii "Datalog") ++ H.twox128 (ascii storageName)

def blake2_128Concat (key : List UInt8) : List UInt8 :=
  H.blake2_128 key ++ key

def twox64Concat (key : List UInt8) : List UInt8 :=
  H.twox64 key ++ key

/-- The names of the three maps have three hashes. -/
structure Separates : Prop where
  datalog_index : H.twox128 (ascii "Datalog") ≠ H.twox128 (ascii "DatalogIndex")
  datalog_item : H.twox128 (ascii "Datalog") ≠ H.twox128 (ascii "DatalogItem")
  index_item : H.twox128 (ascii "DatalogIndex") ≠ H.twox128 (ascii "DatalogItem")

/-- Where an entry of the pallet is stored. -/
def storageKey (E : Encodings Failure AccountId Moment Record) :
    StorageKey AccountId → List UInt8
  | .datalog account =>
      H.storagePrefix "Datalog" ++ H.blake2_128Concat (E.account.encode account)
  | .datalogIndex account =>
      H.storagePrefix "DatalogIndex" ++ H.twox64Concat (E.account.encode account)
  | .datalogItem account slot =>
      H.storagePrefix "DatalogItem" ++ H.twox64Concat (E.itemKey.encode (account, slot))

/-- A prefix of 32 bytes and a hash of at least 8 bytes begin every key of the
pallet. -/
theorem length_storageKey_le (E : Encodings Failure AccountId Moment Record)
    (entry : StorageKey AccountId) : 40 ≤ (H.storageKey E entry).length := by
  cases entry <;>
    simp only [storageKey, storagePrefix, blake2_128Concat, twox64Concat, List.length_append,
      H.twox128_length, H.twox64_length, H.blake2_128_length] <;>
    omega

theorem storageKey_ne_of_short (E : Encodings Failure AccountId Moment Record)
    {key : List UInt8} (short : key.length ≤ 32) (entry : StorageKey AccountId) :
    H.storageKey E entry ≠ key := by
  intro same
  have long := H.length_storageKey_le E entry
  rw [same] at long
  omega

variable {H}

/-- Keys under different prefixes are different, whatever follows. -/
theorem storagePrefix_append_ne {name name' : String} {rest rest' : List UInt8}
    (different : H.twox128 (ascii name) ≠ H.twox128 (ascii name')) :
    H.storagePrefix name ++ rest ≠ H.storagePrefix name' ++ rest' := by
  intro same
  unfold storagePrefix at same
  rw [List.append_assoc, List.append_assoc] at same
  have names := List.append_cancel_left same
  exact different (List.append_inj names (by rw [H.twox128_length, H.twox128_length])).1

theorem blake2_128Concat_injective : Function.Injective H.blake2_128Concat := by
  intro key key' same
  exact (List.append_inj same (by rw [H.blake2_128_length, H.blake2_128_length])).2

theorem twox64Concat_injective : Function.Injective H.twox64Concat := by
  intro key key' same
  exact (List.append_inj same (by rw [H.twox64_length, H.twox64_length])).2

/-- No two entries of the pallet share a place, even where the hashes of their
keys collide. -/
theorem storageKey_injective (separates : H.Separates)
    (E : Encodings Failure AccountId Moment Record) : Function.Injective (H.storageKey E) := by
  intro key key' same
  cases key with
  | datalog account =>
      cases key' with
      | datalog account' =>
          have keys := blake2_128Concat_injective (List.append_cancel_left same)
          rw [E.account.encode_injective keys]
      | datalogIndex account' =>
          exact absurd same (storagePrefix_append_ne separates.datalog_index)
      | datalogItem account' slot' =>
          exact absurd same (storagePrefix_append_ne separates.datalog_item)
  | datalogIndex account =>
      cases key' with
      | datalog account' =>
          exact absurd same.symm (storagePrefix_append_ne separates.datalog_index)
      | datalogIndex account' =>
          have keys := twox64Concat_injective (List.append_cancel_left same)
          rw [E.account.encode_injective keys]
      | datalogItem account' slot' =>
          exact absurd same (storagePrefix_append_ne separates.index_item)
  | datalogItem account slot =>
      cases key' with
      | datalog account' =>
          exact absurd same.symm (storagePrefix_append_ne separates.datalog_item)
      | datalogIndex account' =>
          exact absurd same.symm (storagePrefix_append_ne separates.index_item)
      | datalogItem account' slot' =>
          have keys := twox64Concat_injective (List.append_cancel_left same)
          have fields := Prod.mk.inj (E.itemKey.encode_injective keys)
          rw [fields.1, fields.2]

end Hashers

/-! ## A storage over a map of byte strings -/

namespace Hashers

/-- The storage in a map, with an implementation of `deposit_event` under some
keys of the system. -/
def chainStorage (H : Hashers) (E : Encodings Failure AccountId Moment Record)
    (systemKeys : List (List UInt8))
    (depositEvent : Event AccountId Moment Record → StorageMap (List UInt8) (List UInt8) →
      StorageMap (List UInt8) (List UInt8)) :
    ChainStorage AccountId Moment Record (StorageMap (List UInt8) (List UInt8)) where
  storageKey := H.storageKey E
  get := fun raw key => raw key
  put := StorageMap.insert
  kill := StorageMap.remove
  take := fun read raw key =>
    let value := (raw key).bind read
    (value, if value.isSome then raw.remove key else raw)
  systemKeys := systemKeys
  depositEvent := depositEvent

/-- Whatever the hash functions and codecs are, it is a storage as documented;
no key of the system is as long as a key of the pallet. -/
theorem chainStorage_documented {H : Hashers} (separates : H.Separates)
    (E : Encodings Failure AccountId Moment Record) {systemKeys : List (List UInt8)}
    {depositEvent : Event AccountId Moment Record → StorageMap (List UInt8) (List UInt8) →
      StorageMap (List UInt8) (List UInt8)}
    (short : ∀ key ∈ systemKeys, key.length ≤ 32)
    (deposits : ∀ event raw key, key ∉ systemKeys → depositEvent event raw key = raw key) :
    (H.chainStorage E systemKeys depositEvent).Documented where
  storageKey_injective := storageKey_injective separates E
  storageKey_apart := fun entry member =>
    H.storageKey_ne_of_short E (short _ member) entry rfl
  get_put_self := StorageMap.insert_self
  get_put_of_ne := fun raw _ bytes _ different => StorageMap.insert_of_ne raw bytes different
  get_kill_self := StorageMap.remove_self
  get_kill_of_ne := fun raw _ _ different => StorageMap.remove_of_ne raw different
  take_value := fun _ _ _ => rfl
  get_take_self := by
    intro read raw key
    cases decoded : (raw key).bind read with
    | none => simp [chainStorage, decoded]
    | some value => simp [chainStorage, decoded]
  get_take_of_ne := by
    intro read raw key other different
    cases decoded : (raw key).bind read with
    | none => simp [chainStorage, decoded]
    | some value => simp [chainStorage, decoded, StorageMap.remove_of_ne raw different]
  get_depositEvent := fun event raw key apart => deposits event raw key apart

end Hashers

/-! ## A running chain -/

/-- The digests of the names and keys of some runs, as the real hash functions
give them. -/
def sampleHashers : Hashers where
  twox128 bytes :=
    if bytes = ascii "Datalog" then
      [146, 151, 42, 29, 32, 136, 23, 170, 14, 68, 197, 22, 35, 210, 210, 249]
    else if bytes = ascii "DatalogIndex" then
      [56, 253, 90, 199, 180, 59, 31, 32, 76, 69, 65, 172, 101, 99, 240, 99]
    else if bytes = ascii "DatalogItem" then
      [128, 166, 16, 29, 236, 173, 22, 115, 196, 225, 66, 86, 235, 39, 245, 165]
    else List.replicate 16 0
  twox64 bytes :=
    if bytes = Scale.u64.encode 7 then [85, 228, 253, 106, 64, 205, 118, 8]
    else if bytes = Scale.u64.encode 7 ++ Scale.u64.encode 0 then
      [144, 110, 204, 170, 56, 238, 183, 226]
    else List.replicate 8 0
  blake2_128 bytes :=
    if bytes = Scale.u64.encode 7 then
      [165, 228, 113, 146, 55, 109, 70, 71, 39, 7, 170, 214, 67, 12, 35, 91]
    else List.replicate 16 0
  twox128_length := by
    intro bytes
    repeat' split
    all_goals rfl
  twox64_length := by
    intro bytes
    repeat' split
    all_goals rfl
  blake2_128_length := by
    intro bytes
    split <;> rfl

/-- The encodings of a runtime whose accounts and moments are `u64` and whose
records are single bytes. -/
def sampleEncodings : Encodings Scale.Failure UInt64 UInt64 UInt8 where
  account := Scale.u64
  u64 := Scale.u64
  compactU64 := Scale.compactU64
  compactMoment := Scale.compactU64
  record := Scale.u8
  readLegacy := Scale.readVec (Scale.u64.prod Scale.u8)

theorem sampleHashers_separates : sampleHashers.Separates where
  datalog_index := by decide
  datalog_item := by decide
  index_item := by decide

namespace SystemKey

/-- The hash of `System`, the prefix of the pallet's entries. -/
def system : List UInt8 := [38, 170, 57, 78, 234, 86, 48, 224, 124, 72, 174, 12, 149, 88, 206, 247]

def number : List UInt8 :=
  system ++ [2, 165, 193, 177, 154, 183, 160, 79, 83, 108, 81, 154, 202, 73, 131, 172]

def executionPhase : List UInt8 :=
  system ++ [255, 85, 59, 90, 152, 98, 165, 22, 147, 157, 130, 179, 211, 216, 102, 26]

def eventCount : List UInt8 :=
  system ++ [10, 152, 253, 190, 156, 230, 197, 88, 55, 87, 108, 96, 199, 175, 56, 80]

def events : List UInt8 :=
  system ++ [128, 212, 30, 94, 22, 5, 103, 101, 188, 132, 97, 133, 16, 114, 201, 215]

/-- The time of `Timestamp`. -/
def now : List UInt8 :=
  [240, 195, 101, 195, 207, 89, 214, 113, 235, 114, 218, 14, 122, 65, 19, 196,
    159, 31, 5, 21, 244, 98, 205, 207, 132, 224, 241, 214, 4, 93, 252, 187]

def all : List (List UInt8) := [number, executionPhase, eventCount, events, now]

end SystemKey

/-- The `u32` under a key; absent or undecodable bytes read as zero. -/
def storedU32 (raw : StorageMap (List UInt8) (List UInt8)) (key : List UInt8) : ℕ :=
  match (raw key).map (Scale.takeNumber 4) with
  | some (.ok (n, _)) => n
  | _ => 0

/-- An event of a runtime that has events of this pallet only. -/
def encodeEvent : Event UInt64 UInt64 UInt8 → List UInt8
  | .newRecord account moment record =>
      [0, 0] ++ Scale.u64.encode account ++ Scale.u64.encode moment ++ Scale.u8.encode record
  | .erased account => [0, 1] ++ Scale.u64.encode account
  | .recordSent account => [0, 2] ++ Scale.u64.encode account

/-- Append an element to an encoded vector; bytes that are none are replaced. -/
def appendEncoded (stored : Option (List UInt8)) (element : List UInt8) : List UInt8 :=
  match stored.map Scale.decodeCompact with
  | some (.ok (count, elements)) => Scale.encodeCompact (count + 1) ++ elements ++ element
  | _ => Scale.encodeCompact 1 ++ element

/-- `deposit_event`: nothing is kept at block zero, or after as many events as
their counter can count.  An event is kept with the phase of the block, which
is that of the block's initialization where none is stored, and without topics. -/
def sampleDepositEvent (event : Event UInt64 UInt64 UInt8)
    (raw : StorageMap (List UInt8) (List UInt8)) : StorageMap (List UInt8) (List UInt8) :=
  let count := storedU32 raw SystemKey.eventCount
  if storedU32 raw SystemKey.number = 0 ∨ 2 ^ 32 ≤ count + 1 then raw
  else
    let phase := (raw SystemKey.executionPhase).getD [2]
    let counted := raw.insert SystemKey.eventCount (Scale.littleEndian 4 (count + 1))
    counted.insert SystemKey.events
      (appendEncoded (raw SystemKey.events) (phase ++ encodeEvent event ++ [0]))

def sampleStorage : ChainStorage UInt64 UInt64 UInt8 (StorageMap (List UInt8) (List UInt8)) :=
  sampleHashers.chainStorage sampleEncodings SystemKey.all sampleDepositEvent

theorem sampleStorage_documented : sampleStorage.Documented := by
  apply Hashers.chainStorage_documented sampleHashers_separates
  · decide
  · intro event raw key apart
    have notCount : key ≠ SystemKey.eventCount := fun same => apart (same ▸ by decide)
    have notEvents : key ≠ SystemKey.events := fun same => apart (same ▸ by decide)
    unfold sampleDepositEvent
    split
    · rfl
    · exact (StorageMap.insert_of_ne _ _ notEvents).trans (StorageMap.insert_of_ne _ _ notCount)

theorem sampleStorage_storageKey_ne {key : List UInt8} (short : key.length ≤ 32)
    (entry : StorageKey UInt64) : sampleStorage.storageKey entry ≠ key :=
  sampleHashers.storageKey_ne_of_short sampleEncodings short entry

end Datalog
end IpciBlockchain
