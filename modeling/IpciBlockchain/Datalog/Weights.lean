import IpciBlockchain.Datalog.Refinement
import IpciBlockchain.Foundation.Saturation

namespace IpciBlockchain
namespace Datalog

open Foundation

/-!
# The weights of the calls

The weight of a call is fixed before the call runs, from the window alone.
What `erase` really does depends on the stored pointers.  The trace of the
storage operations is compared here with what the weight charges for: the
loop of `erase` deletes at most `W - 1` items, in addition to the two entries
under the sender, so that the `1 + W` writes of its weight are just enough.

The prices of reads and writes come from `frame_support`.  All that is used
of them is that more operations never cost less.
-/

/-- The database weights of `frame_support`: the price of so many reads, and
of so many writes. -/
structure RuntimeDbWeight where
  reads : UInt64 → UInt64
  writes : UInt64 → UInt64
  reads_le_reads : ∀ {count count'}, count ≤ count' → reads count ≤ reads count'
  writes_le_writes : ∀ {count count'}, count ≤ count' → writes count ≤ writes count'

/-- A price per operation, as `RocksDbWeight` has it. -/
def RuntimeDbWeight.perOperation (read write : UInt64) : RuntimeDbWeight where
  reads := saturatingMul read
  writes := saturatingMul write
  reads_le_reads := saturatingMul_le_saturatingMul read
  writes_le_writes := saturatingMul_le_saturatingMul write

namespace WeightInfo

def record (db : RuntimeDbWeight) : UInt64 :=
  saturatingAdd (saturatingAdd 500000 (db.reads 2)) (db.writes 3)

def erase (db : RuntimeDbWeight) (win : UInt64) : UInt64 :=
  saturatingAdd (saturatingAdd 100000 (db.reads 1)) (db.writes (1 + win))

end WeightInfo

variable {Origin AccountId Moment Record : Type}

/-- The weight that is charged for an extrinsic before it runs. -/
def charge (T : Trait Origin AccountId Moment Record) (db : RuntimeDbWeight)
    (extrinsic : Extrinsic Origin Moment Record) : UInt64 :=
  match extrinsic.call with
  | .record _ => WeightInfo.record db
  | .erase => WeightInfo.erase db T.windowSize

/-! ## Counting storage operations -/

namespace StorageOp

variable {AccountId : Type}

def reads : StorageOp AccountId → ℕ
  | remove _ | insert _ => 0
  | take _ | mutate _ | now => 1

def writes : StorageOp AccountId → ℕ
  | remove _ | insert _ | take _ | mutate _ => 1
  | now => 0

/-- The key that an operation deletes from storage. -/
def deletes : StorageOp AccountId → Option (StorageKey AccountId)
  | remove key | take key => some key
  | insert _ | mutate _ | now => none

end StorageOp

section Counting

variable {AccountId : Type} (ops : List (StorageOp AccountId))

def readCount : ℕ := (ops.map StorageOp.reads).sum

def writeCount : ℕ := (ops.map StorageOp.writes).sum

def deletedKeys : List (StorageKey AccountId) := ops.filterMap StorageOp.deletes

/-- The price of the operations that were performed. -/
def spent (db : RuntimeDbWeight) : UInt64 :=
  saturatingAdd (db.reads (UInt64.ofNat (readCount ops)))
    (db.writes (UInt64.ofNat (writeCount ops)))

/-- Operations within the counts of a weight cost at most the weight. -/
theorem spent_le {ops : List (StorageOp AccountId)} (db : RuntimeDbWeight) (base : UInt64)
    {reads writes : UInt64} (readsLe : readCount ops ≤ reads.toNat)
    (writesLe : writeCount ops ≤ writes.toNat) :
    spent ops db ≤ saturatingAdd (saturatingAdd base (db.reads reads)) (db.writes writes) := by
  have ofNatLe : ∀ {count : ℕ} {limit : UInt64}, count ≤ limit.toNat →
      UInt64.ofNat count ≤ limit := by
    intro count limit le
    have bound := limit.toNat_lt
    rw [UInt64.le_iff_toNat_le, UInt64.toNat_ofNat', Nat.mod_eq_of_lt (by omega)]
    exact le
  exact saturatingAdd_le_saturatingAdd
    (UInt64.le_trans (db.reads_le_reads (ofNatLe readsLe)) (le_saturatingAdd_left base _))
    (db.writes_le_writes (ofNatLe writesLe))

/-- The operations are within the weight of `record`. -/
structure WithinRecordWeight (db : RuntimeDbWeight) : Prop where
  reads_le : readCount ops ≤ 2
  writes_le : writeCount ops ≤ 3
  spent_le : spent ops db ≤ WeightInfo.record db

/-- The operations are within the weight of `erase`. -/
structure WithinEraseWeight (db : RuntimeDbWeight) (max : UInt64) : Prop where
  deleted_nodup : (deletedKeys ops).Nodup
  deleted_length_le : (deletedKeys ops).length ≤ 1 + max.toNat
  reads_le : readCount ops ≤ 1
  writes_le : writeCount ops ≤ 1 + max.toNat
  spent_le : spent ops db ≤ WeightInfo.erase db max

end Counting

section Traces

variable {AccountId : Type} (account : AccountId)

theorem readCount_recordTrace (slot : UInt64) : readCount (recordTrace account slot) = 2 := rfl

theorem writeCount_recordTrace (slot : UInt64) : writeCount (recordTrace account slot) = 3 := rfl

theorem readCount_eraseTrace (visited : List UInt64) :
    readCount (eraseTrace account visited) = 1 := by
  have loop : (visited.map fun slot =>
      (StorageOp.remove (.datalogItem account slot)).reads).sum = 0 := by
    simp [StorageOp.reads]
  simp only [readCount, eraseTrace, List.map_append, List.map_map, List.sum_append,
    Function.comp_def, loop]
  rfl

theorem writeCount_eraseTrace (visited : List UInt64) :
    writeCount (eraseTrace account visited) = 2 + visited.length := by
  have loop : (visited.map fun slot =>
      (StorageOp.remove (.datalogItem account slot)).writes).sum = visited.length := by
    simp [StorageOp.writes]
  simp only [writeCount, eraseTrace, List.map_append, List.map_map, List.sum_append,
    Function.comp_def, loop]
  rfl

theorem deletedKeys_eraseTrace (visited : List UInt64) :
    deletedKeys (eraseTrace account visited) =
      .datalog account :: .datalogIndex account ::
        visited.map fun slot => .datalogItem account slot := by
  have loop : (visited.map fun slot => StorageOp.remove (.datalogItem account slot)).filterMap
      StorageOp.deletes = visited.map fun slot => .datalogItem account slot := by
    rw [List.filterMap_map, ← List.filterMap_eq_map]
    rfl
  rw [deletedKeys, eraseTrace, List.filterMap_append, loop]
  rfl

/-- The loop of `erase` deletes no key twice if it visits no slot twice. -/
theorem nodup_deletedKeys_eraseTrace {visited : List UInt64} (distinct : visited.Nodup) :
    (deletedKeys (eraseTrace account visited)).Nodup := by
  have loop : (visited.map fun slot => StorageKey.datalogItem account slot).Nodup :=
    distinct.map fun _ _ same => (StorageKey.datalogItem.inj same).2
  rw [deletedKeys_eraseTrace, List.nodup_cons, List.nodup_cons]
  exact ⟨by simp, by simp, loop⟩

theorem withinRecordWeight_recordTrace (db : RuntimeDbWeight) (slot : UInt64) :
    WithinRecordWeight (recordTrace account slot) db where
  reads_le := (readCount_recordTrace account slot).le
  writes_le := (writeCount_recordTrace account slot).le
  spent_le := spent_le db 500000 (readCount_recordTrace account slot).le
    (writeCount_recordTrace account slot).le

theorem withinEraseWeight_eraseTrace (db : RuntimeDbWeight) {max : UInt64}
    (small : max.toNat < 2 ^ 64 - 1) {visited : List UInt64} (distinct : visited.Nodup)
    (free : visited.length < max.toNat) :
    WithinEraseWeight (eraseTrace account visited) db max where
  deleted_nodup := nodup_deletedKeys_eraseTrace account distinct
  deleted_length_le := by
    rw [deletedKeys_eraseTrace, List.length_cons, List.length_cons, List.length_map]
    omega
  reads_le := (readCount_eraseTrace account visited).le
  writes_le := by
    rw [writeCount_eraseTrace]
    omega
  spent_le := by
    have writes : ((1 : UInt64) + max).toNat = 1 + max.toNat := by
      rw [UInt64.toNat_add, UInt64.toNat_one, Nat.mod_eq_of_lt (by omega)]
    apply spent_le db 100000 (readCount_eraseTrace account visited).le
    rw [writes, writeCount_eraseTrace]
    omega

/-- A failed call has performed no operation and is within every weight. -/
theorem withinWeight_nil (db : RuntimeDbWeight) (max : UInt64) :
    WithinRecordWeight ([] : List (StorageOp AccountId)) db ∧
      WithinEraseWeight ([] : List (StorageOp AccountId)) db max :=
  ⟨⟨Nat.zero_le _, Nat.zero_le _, spent_le db 500000 (Nat.zero_le _) (Nat.zero_le _)⟩,
    ⟨List.nodup_nil, Nat.zero_le _, Nat.zero_le _, Nat.zero_le _,
      spent_le db 100000 (Nat.zero_le _) (Nat.zero_le _)⟩⟩

end Traces

/-! ## Runs -/

/-- The loop over a represented ring visits distinct slots and leaves one out. -/
theorem Represents.nodup_live {max : UInt64} (positive : 0 < max.toNat)
    (history : History Moment Record) : (live positive history).Nodup :=
  (slots max positive).window_nodup _ _ (by rw [slots_size]; omega)

theorem Represents.length_live {max : UInt64} (positive : 0 < max.toNat)
    (history : History Moment Record) :
    (live positive history).length = min history.log.length (max.toNat - 1) :=
  (slots max positive).length_window _ _

variable [DecidableEq AccountId]

/-- From every reachable state every call returns, and its storage operations
are within its weight.  A signed `erase` uses up the writes of its weight
exactly when the ring is full. -/
theorem weights_cover_storage_operations (T : Trait Origin AccountId Moment Record)
    (positive : 1 ≤ T.windowSize) (small : T.windowSize.toNat < 2 ^ 64 - 1)
    (db : RuntimeDbWeight) (state : State AccountId Moment Record)
    (reachable : Reachable T state) (extrinsic : Extrinsic Origin Moment Record) :
    ∃ answer next ops, dispatch T extrinsic state = some (answer, next) ∧
      next.trace = state.trace ++ ops ∧
      (∀ r, extrinsic.call = .record r → WithinRecordWeight ops db) ∧
      (extrinsic.call = .erase → WithinEraseWeight ops db T.windowSize) ∧
      ∀ account, extrinsic.call = .erase → T.ensureSigned extrinsic.origin = .ok account →
        ∃ visited,
          ((state.storage.datalogIndex.get account).iter T.windowSize).collect = some visited ∧
          ((deletedKeys ops).length = 1 + T.windowSize.toNat ↔
            visited.length = T.windowSize.toNat - 1) := by
  have positiveNat := window_toNat_pos positive
  have inside : state.storage.PointersInside T.windowSize := fun account =>
    ⟨(ringInvariant_of_reachable T positive state reachable account).start_lt,
      (ringInvariant_of_reachable T positive state reachable account).end_lt⟩
  rcases pointersInside_dispatch extrinsic state inside with ⟨answer, next, returned, _⟩
  refine ⟨answer, next, ?_⟩
  cases (dispatch_eq_some_iff T ..).mp returned with
  | tooBig r isRecord exceeds =>
      have notErase : extrinsic.call ≠ .erase := by simp [isRecord]
      exact ⟨[], returned, (List.append_nil _).symm, fun _ _ => (withinWeight_nil db 0).1,
        fun isErase => absurd isErase notErase, fun _ isErase => absurd isErase notErase⟩
  | badOrigin fits unsigned =>
      refine ⟨[], returned, (List.append_nil _).symm, fun _ _ => (withinWeight_nil db 0).1,
        fun _ => (withinWeight_nil db _).2, fun account _ signed => ?_⟩
      rw [unsigned] at signed
      cases signed
  | recorded account r isRecord fits signed =>
      have notErase : extrinsic.call ≠ .erase := by simp [isRecord]
      exact ⟨_, returned, rfl, fun _ _ => withinRecordWeight_recordTrace account db _,
        fun isErase => absurd isErase notErase, fun _ isErase => absurd isErase notErase⟩
  | erased account visited isErase signed collected =>
      rcases represents_of_reachable positiveNat reachable account with ⟨history, represents⟩
      have walk := Option.some.inj (collected.symm.trans represents.collect)
      have distinct : visited.Nodup := walk ▸ Represents.nodup_live positiveNat history
      have free : visited.length < T.windowSize.toNat := by
        rw [walk, Represents.length_live]
        omega
      refine ⟨_, returned, rfl, fun r isRecord => ?_,
        fun _ => withinEraseWeight_eraseTrace account db small distinct free,
        fun sender _ same => ?_⟩
      · rw [isErase] at isRecord
        cases isRecord
      · cases Except.ok.inj (signed.symm.trans same)
        refine ⟨visited, collected, ?_⟩
        rw [deletedKeys_eraseTrace, List.length_cons, List.length_cons, List.length_map]
        omega

theorem weights_cover_storage_operations_full :
    ∃ receipts state,
      run (byteTrait ℕ 3 512) [recordBy 7 1 [1], recordBy 7 2 [2], recordBy 7 3 [3]]
        (freshState ℕ 1) = some (receipts, state) ∧
      ∃ answer next ops, dispatch (byteTrait ℕ 3 512) (eraseBy 7) state = some (answer, next) ∧
        next.trace = state.trace ++ ops ∧
        WithinEraseWeight ops (.perOperation 25000000 100000000) 3 := by
  rcases run_represents_fresh (byteTrait ℕ 3 512) (by decide) (freshState ℕ 1) rfl
      [recordBy 7 1 [1], recordBy 7 2 [2], recordBy 7 3 [3]] with
    ⟨receipts, state, ran, _⟩
  have reachable : Reachable (byteTrait ℕ 3 512) state := ⟨freshState ℕ 1, _, receipts, rfl, ran⟩
  rcases weights_cover_storage_operations (byteTrait ℕ 3 512) (by decide) (by decide)
      (.perOperation 25000000 100000000) state reachable (eraseBy 7) with
    ⟨answer, next, ops, returned, traced, _, within, _⟩
  exact ⟨receipts, state, ran, answer, next, ops, returned, traced, within rfl⟩

end Datalog
end IpciBlockchain
