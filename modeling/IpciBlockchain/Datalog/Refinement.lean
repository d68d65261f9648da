import IpciBlockchain.Datalog.Representation
import Mathlib.Data.Set.Card

namespace IpciBlockchain
namespace Datalog

open Foundation

/-!
# The pallet refines a bounded log

Two consequences of the representation invariant for whole runs.  `data`
returns the end of the account's history, with nothing lost, duplicated,
reordered or replaced by a default item.  And the raw storage of an account
stays inside the window: it has at most one slot that the pointers do not
account for, and no pointer increment overflows.
-/

variable {Origin AccountId Moment Record : Type}

/-! ## The raw storage -/

/-- A slot of the account that is present in storage. -/
def Storage.Occupied (storage : Storage AccountId Moment Record) (account : AccountId)
    (slot : UInt64) : Prop :=
  (storage.datalogItem (account, slot)).isSome = true

/-- What holds of the stored pointers and slots of one account. -/
structure RingInvariant (max : UInt64) (storage : Storage AccountId Moment Record)
    (account : AccountId) : Prop where
  start_lt : (storage.datalogIndex.get account).start < max
  end_lt : (storage.datalogIndex.get account).end_ < max
  /-- The iterator stops, the slots it visits are present, and at most one
  present slot is not visited. -/
  live : ∃ visited, ((storage.datalogIndex.get account).iter max).collect = some visited ∧
    (∀ slot ∈ visited, storage.Occupied account slot) ∧
    ∀ slot slot', storage.Occupied account slot → slot ∉ visited →
      storage.Occupied account slot' → slot' ∉ visited → slot = slot'
  occupied_lt : ∀ slot, storage.Occupied account slot → slot < max
  occupied_card : {slot | storage.Occupied account slot}.ncard ≤ max.toNat
  /-- Neither `add` nor any step of the iterator overflows. -/
  add_checked : (storage.datalogIndex.get account).addChecked max =
    some ((storage.datalogIndex.get account).add max)
  drain_checked : ∀ fuel, ((storage.datalogIndex.get account).iter max).drainChecked fuel =
    ((storage.datalogIndex.get account).iter max).drain fuel

/-- The slots below the window. -/
theorem mem_slots_of_lt {max : UInt64} (positive : 0 < max.toNat) {slot : UInt64}
    (below : slot < max) :
    slot ∈ (Finset.range max.toNat).image (slots max positive).place :=
  Finset.mem_image.mpr ⟨slot.toNat, Finset.mem_range.mpr (UInt64.lt_iff_toNat_lt.mp below),
    slots_place_of_lt positive below⟩

theorem card_slots_le {max : UInt64} (positive : 0 < max.toNat) :
    ((Finset.range max.toNat).image (slots max positive).place).card ≤ max.toNat :=
  Finset.card_image_le.trans_eq (Finset.card_range _)

/-- Slots below the window are at most as many as the window. -/
theorem occupied_ncard_le {max : UInt64} (positive : 0 < max.toNat)
    {storage : Storage AccountId Moment Record} {account : AccountId}
    (below : ∀ slot, storage.Occupied account slot → slot < max) :
    {slot | storage.Occupied account slot}.ncard ≤ max.toNat := by
  have covered : {slot | storage.Occupied account slot} ⊆
      ((Finset.range max.toNat).image (slots max positive).place : Set UInt64) :=
    fun slot occupied => Finset.mem_coe.mpr (mem_slots_of_lt positive (below slot occupied))
  calc
    {slot | storage.Occupied account slot}.ncard
        ≤ ((Finset.range max.toNat).image (slots max positive).place : Set UInt64).ncard :=
      Set.ncard_le_ncard covered (Finset.finite_toSet _)
    _ = ((Finset.range max.toNat).image (slots max positive).place).card :=
      Set.ncard_coe_finset _
    _ ≤ max.toNat := card_slots_le positive

namespace Represents

variable {max : UInt64} {positive : 0 < max.toNat} {history : History Moment Record}
  {part : AccountStorage Moment Record}

/-- A present slot is below the window. -/
theorem present_lt (represents : Represents positive history part) {slot : UInt64}
    (present : (part.items slot).isSome = true) : slot < max := by
  rw [UInt64.lt_iff_toNat_lt]
  rcases (represents.present slot).mp present with below | left
  · omega
  · exact residue_lt positive left

/-- The live slots are present. -/
theorem present_of_mem_live (represents : Represents positive history part) {slot : UInt64}
    (visited : slot ∈ live positive history) : (part.items slot).isSome = true := by
  apply (represents.present slot).mpr
  apply Or.inl
  by_cases full : max.toNat ≤ history.log.length
  · have bounds := (mem_live_of_le full).mp visited
    omega
  · have below := (mem_live_of_lt (Nat.lt_of_not_le full)).mp visited
    omega

end Represents

/-- The representation of one account bounds its raw storage. -/
theorem ringInvariant_of_represents {max : UInt64} {positive : 0 < max.toNat}
    {history : History Moment Record} {storage : Storage AccountId Moment Record}
    {account : AccountId} (represents : Represents positive history (storage.account account)) :
    RingInvariant max storage account := by
  have startInside : (storage.datalogIndex.get account).start < max := represents.pointers_lt.1
  have endInside : (storage.datalogIndex.get account).end_ < max := represents.pointers_lt.2
  have below : ∀ slot, storage.Occupied account slot → slot < max :=
    fun slot present => represents.present_lt present
  refine ⟨startInside, endInside, ⟨_, represents.collect, ?_, ?_⟩, below,
    occupied_ncard_le positive below, addChecked_eq_add startInside endInside,
    drainChecked_eq_drain startInside _⟩
  · intro slot visited
    exact represents.present_of_mem_live visited
  · intro slot slot' present orphan present' orphan'
    have first := (represents.orphan_iff slot).mp ⟨present, orphan⟩
    have second := (represents.orphan_iff slot').mp ⟨present', orphan'⟩
    exact UInt64.toNat_inj.mp (Option.some.inj (first.symm.trans second))

/-! ## Runs -/

variable [DecidableEq AccountId]

/-- The pallet is a bounded FIFO log for each account: whatever the accounts
do and however their calls interleave, `data` is the list of the records that
the account stored since it last erased, cut to the last `W - 1`.  The legacy
map may hold anything. -/
theorem data_eq_last_records [Inhabited Moment] [Inhabited Record]
    (T : Trait Origin AccountId Moment Record) (positive : 1 ≤ T.windowSize)
    (start : State AccountId Moment Record)
    (noIndex : start.storage.datalogIndex = StorageMap.empty)
    (noItems : start.storage.datalogItem = StorageMap.empty)
    (extrinsics : List (Extrinsic Origin Moment Record)) :
    ∃ receipts last, run T extrinsics start = some (receipts, last) ∧
      ∀ account, data T last.storage account =
        some ((History.ofReceipts T account receipts).log.rtake (T.windowSize.toNat - 1)) := by
  rcases run_represents T (window_toNat_pos positive) start noIndex noItems extrinsics with
    ⟨receipts, last, ran, represents⟩
  exact ⟨receipts, last, ran, fun account => (represents account).data⟩

/-- The ring of three slots keeps the last two of three records. -/
theorem data_eq_last_records_wrapped :
    ∃ last,
      run (byteTrait ℕ 3 512) [recordBy 7 1 [1], recordBy 7 2 [2], recordBy 7 3 [3],
        recordBy 8 4 [4]] (freshState ℕ 1) =
        some ([(recordBy 7 1 [1], .ok ()), (recordBy 7 2 [2], .ok ()),
          (recordBy 7 3 [3], .ok ()), (recordBy 8 4 [4], .ok ())], last) ∧
      data (byteTrait ℕ 3 512) last.storage 7 = some [⟨2, [2]⟩, ⟨3, [3]⟩] ∧
      data (byteTrait ℕ 3 512) last.storage 8 = some [⟨4, [4]⟩] := by
  rcases data_eq_last_records (byteTrait ℕ 3 512) (by decide) (freshState ℕ 1) rfl rfl
      [recordBy 7 1 [1], recordBy 7 2 [2], recordBy 7 3 [3], recordBy 8 4 [4]] with
    ⟨receipts, last, ran, reads⟩
  have answers : (run (byteTrait ℕ 3 512) [recordBy 7 1 [1], recordBy 7 2 [2],
      recordBy 7 3 [3], recordBy 8 4 [4]] (freshState ℕ 1)).map Prod.fst =
      some [(recordBy 7 1 [1], .ok ()), (recordBy 7 2 [2], .ok ()),
        (recordBy 7 3 [3], .ok ()), (recordBy 8 4 [4], .ok ())] := by
    decide +kernel
  rw [ran] at answers
  cases answers
  refine ⟨last, ran, (reads 7).trans ?_, (reads 8).trans ?_⟩
  · decide
  · decide

/-- Every reachable state represents some history of every account. -/
theorem represents_of_reachable {T : Trait Origin AccountId Moment Record}
    (positive : 0 < T.windowSize.toNat) {state : State AccountId Moment Record}
    (reachable : Reachable T state) (account : AccountId) :
    ∃ history, Represents positive history (state.storage.account account) := by
  rcases reachable with ⟨start, extrinsics, receipts, fresh, ran⟩
  rcases run_represents_fresh T positive start fresh extrinsics with
    ⟨receipts', last, ran', represents⟩
  cases ran.symm.trans ran'
  exact ⟨_, represents account⟩

/-- In every reachable state, however often the account filled, overran and
erased its log, its raw storage satisfies the ring invariant. -/
theorem ringInvariant_of_reachable (T : Trait Origin AccountId Moment Record)
    (positive : 1 ≤ T.windowSize) (state : State AccountId Moment Record)
    (reachable : Reachable T state) (account : AccountId) :
    RingInvariant T.windowSize state.storage account := by
  rcases represents_of_reachable (window_toNat_pos positive) reachable account with
    ⟨history, represents⟩
  exact ringInvariant_of_represents represents

theorem ringInvariant_of_reachable_residue :
    ∃ receipts last,
      run (byteTrait ℕ 3 512) [recordBy 7 1 [1], recordBy 7 2 [2], recordBy 7 3 [3],
        recordBy 7 4 [4], eraseBy 7, recordBy 7 5 [5]] (freshState ℕ 1) = some (receipts, last) ∧
      RingInvariant 3 last.storage 7 := by
  rcases run_represents_fresh (byteTrait ℕ 3 512) (by decide) (freshState ℕ 1) rfl
      [recordBy 7 1 [1], recordBy 7 2 [2], recordBy 7 3 [3], recordBy 7 4 [4], eraseBy 7,
        recordBy 7 5 [5]] with ⟨receipts, last, ran, _⟩
  exact ⟨receipts, last, ran, ringInvariant_of_reachable (byteTrait ℕ 3 512) (by decide) last
    ⟨freshState ℕ 1, _, receipts, rfl, ran⟩ 7⟩

end Datalog
end IpciBlockchain
