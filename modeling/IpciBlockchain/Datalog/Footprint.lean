import IpciBlockchain.Datalog.Recovery
import IpciBlockchain.Datalog.Weights

namespace IpciBlockchain
namespace Datalog

open Foundation

/-!
# What the pallet costs the chain

Two bounds for whole runs.  Storage: no account has more items than the window
has slots, only accounts that have recorded have any, and together they are
never more than there were records, however often logs were overrun and erased.
Work: the operations on the pallet's own storage, with its looks at the clock,
cost no more than the weights that were charged for the extrinsics.  What
`deposit_event` reads and writes in the entries of the system is no operation
of the pallet; the weights do not charge for it, and it is not counted here.
-/

variable {Origin AccountId Moment Record : Type}

/-! ## Storage -/

/-- The account that a receipt of a successful `record` belongs to. -/
def recorder (T : Trait Origin AccountId Moment Record)
    (receipt : Extrinsic Origin Moment Record × Except DispatchError Unit) : Option AccountId :=
  match receipt with
  | (_, .error _) => none
  | (extrinsic, .ok ()) =>
      match extrinsic.call with
      | .record _ => extrinsic.caller T
      | .erase => none

/-- The items and indices lie under a list of accounts, and the items are
covered by as many keys as the list is long. -/
structure CoveredBy (storage : Storage AccountId Moment Record) (accounts : List AccountId) :
    Prop where
  item : ∀ key, (storage.datalogItem key).isSome = true → key.1 ∈ accounts
  index : ∀ account, (storage.datalogIndex account).isSome = true → account ∈ accounts
  keys : ∃ keys : Finset (AccountId × UInt64), keys.card ≤ accounts.length ∧
    ∀ key, (storage.datalogItem key).isSome = true → key ∈ keys

/-- The keys of the items that are present. -/
theorem CoveredBy.exists_present {storage : Storage AccountId Moment Record}
    {accounts : List AccountId} (covered : CoveredBy storage accounts) :
    ∃ keys : Finset (AccountId × UInt64), keys.card ≤ accounts.length ∧
      ∀ key, key ∈ keys ↔ (storage.datalogItem key).isSome = true := by
  rcases covered.keys with ⟨keys, few, all⟩
  refine ⟨keys.filter fun key => (storage.datalogItem key).isSome = true,
    (Finset.card_filter_le _ _).trans few, fun key => ?_⟩
  rw [Finset.mem_filter]
  exact and_iff_right_of_imp (all key)

section Growth

variable [DecidableEq AccountId]

theorem coveredBy_outcome {T : Trait Origin AccountId Moment Record}
    {extrinsic : Extrinsic Origin Moment Record} {state next : State AccountId Moment Record}
    {answer : Except DispatchError Unit} {accounts : List AccountId}
    (covered : CoveredBy state.storage accounts)
    (outcome : Outcome T extrinsic state answer next) :
    CoveredBy next.storage (accounts ++ (recorder T (extrinsic, answer)).toList) := by
  cases outcome with
  | tooBig | badOrigin =>
      simp only [recorder, Option.toList_none, List.append_nil]
      exact covered
  | recorded account r isRecord fits signed =>
      have sender := (Extrinsic.caller_eq_some_iff T extrinsic account).mpr signed
      simp only [recorder, isRecord, sender, Option.toList_some]
      rcases covered.keys with ⟨keys, few, all⟩
      refine ⟨fun key present => ?_, fun other present => ?_,
        insert (account, ((state.storage.datalogIndex.get account).add T.windowSize).1) keys,
        ?_, fun key present => ?_⟩
      · by_cases written :
            key = (account, ((state.storage.datalogIndex.get account).add T.windowSize).1)
        · rw [written]
          exact List.mem_append_right _ (List.mem_singleton.mpr rfl)
        · simp only [State.recorded, Storage.recorded,
            StorageMap.insert_of_ne _ _ written] at present
          exact List.mem_append_left _ (covered.item key present)
      · by_cases same : other = account
        · rw [same]
          exact List.mem_append_right _ (List.mem_singleton.mpr rfl)
        · simp only [State.recorded, Storage.recorded, StorageMap.insert_of_ne _ _ same] at present
          exact List.mem_append_left _ (covered.index other present)
      · rw [List.length_append, List.length_singleton]
        exact (Finset.card_insert_le _ _).trans (Nat.add_le_add_right few 1)
      · by_cases written :
            key = (account, ((state.storage.datalogIndex.get account).add T.windowSize).1)
        · rw [written]
          exact Finset.mem_insert_self _ _
        · simp only [State.recorded, Storage.recorded,
            StorageMap.insert_of_ne _ _ written] at present
          exact Finset.mem_insert_of_mem (all key present)
  | erased account visited isErase signed collected =>
      simp only [recorder, isErase, Option.toList_none, List.append_nil]
      rcases covered.keys with ⟨keys, few, all⟩
      have kept : ∀ key, ((state.erased T account visited).storage.datalogItem key).isSome = true →
          (state.storage.datalogItem key).isSome = true := by
        intro key present
        simp only [State.erased, Storage.erased, StorageMap.removeAll_apply] at present
        split at present
        · cases present
        · exact present
      refine ⟨fun key present => covered.item key (kept key present), fun other present => ?_,
        keys, few, fun key present => all key (kept key present)⟩
      by_cases same : other = account
      · rw [same] at present
        simp only [State.erased, Storage.erased, StorageMap.remove_self] at present
        cases present
      · simp only [State.erased, Storage.erased, StorageMap.remove_of_ne _ same] at present
        exact covered.index other present

theorem run_coveredBy (T : Trait Origin AccountId Moment Record)
    {extrinsics : List (Extrinsic Origin Moment Record)}
    {start last : State AccountId Moment Record}
    {receipts : List (Extrinsic Origin Moment Record × Except DispatchError Unit)}
    (fresh : start.storage = Storage.empty)
    (ran : run T extrinsics start = some (receipts, last)) :
    CoveredBy last.storage (receipts.filterMap (recorder T)) := by
  have initial : CoveredBy start.storage [] := by
    rw [fresh]
    refine ⟨?_, ?_, ∅, le_rfl, ?_⟩
    all_goals
      intro _ present
      cases present
  have tracked := Machine.run_tracks (dispatch T) (fun state => CoveredBy state.storage)
    (fun accounts receipt => accounts ++ (recorder T receipt).toList)
    (fun _ _ _ _ _ covered returned =>
      coveredBy_outcome covered ((dispatch_eq_some_iff T ..).mp returned))
    [] initial ran
  have collects : ∀ accounts : List AccountId,
      receipts.foldl (fun accounts receipt => accounts ++ (recorder T receipt).toList) accounts =
        accounts ++ receipts.filterMap (recorder T) := by
    intro accounts
    rw [List.foldl_append_eq_append, List.filterMap_eq_flatMap_toList, List.flatMap_def]
  rw [collects, List.nil_append] at tracked
  exact tracked

/-- The items of one account are at most as many as the window has slots. -/
theorem card_filter_account_le {max : UInt64} (positive : 0 < max.toNat)
    {storage : Storage AccountId Moment Record} {keys : Finset (AccountId × UInt64)}
    (present : ∀ key, key ∈ keys ↔ (storage.datalogItem key).isSome = true) {account : AccountId}
    (below : ∀ slot, storage.Occupied account slot → slot < max) :
    (keys.filter fun key => key.1 = account).card ≤ max.toNat := by
  have injective : Set.InjOn Prod.snd
      ((keys.filter fun key => key.1 = account : Finset _) : Set (AccountId × UInt64)) := by
    intro key member key' member' same
    have first := (Finset.mem_filter.mp (Finset.mem_coe.mp member)).2
    have first' := (Finset.mem_filter.mp (Finset.mem_coe.mp member')).2
    exact Prod.ext (first.trans first'.symm) same
  have inside : (keys.filter fun key => key.1 = account).image Prod.snd ⊆
      (Finset.range max.toNat).image (slots max positive).place := by
    intro slot member
    rcases Finset.mem_image.mp member with ⟨key, stored, rfl⟩
    rcases Finset.mem_filter.mp stored with ⟨inKeys, rfl⟩
    exact mem_slots_of_lt positive (below key.2 ((present key).mp inKeys))
  calc
    (keys.filter fun key => key.1 = account).card
        = ((keys.filter fun key => key.1 = account).image Prod.snd).card :=
      (Finset.card_image_of_injOn injective).symm
    _ ≤ ((Finset.range max.toNat).image (slots max positive).place).card :=
      Finset.card_le_card inside
    _ ≤ max.toNat := card_slots_le positive

/-- The items in storage after any run from empty storage are finitely many.
They lie under accounts that have recorded, at most a window for each account,
and there are at most as many as there were successful records; and only
accounts that have recorded have an index. -/
theorem footprint_bounded (T : Trait Origin AccountId Moment Record)
    (positive : 1 ≤ T.windowSize) (start : State AccountId Moment Record)
    (fresh : start.storage = Storage.empty)
    (extrinsics : List (Extrinsic Origin Moment Record)) :
    ∃ receipts last, run T extrinsics start = some (receipts, last) ∧
      (∀ account, (last.storage.datalogIndex account).isSome = true →
        account ∈ receipts.filterMap (recorder T)) ∧
      ∃ keys : Finset (AccountId × UInt64),
        (∀ key, key ∈ keys ↔ (last.storage.datalogItem key).isSome = true) ∧
        (∀ key ∈ keys, key.1 ∈ receipts.filterMap (recorder T)) ∧
        (∀ account, (keys.filter fun key => key.1 = account).card ≤ T.windowSize.toNat) ∧
        keys.card ≤ (receipts.filterMap (recorder T)).toFinset.card * T.windowSize.toNat ∧
        keys.card ≤ (receipts.filterMap (recorder T)).length := by
  have positiveNat := window_toNat_pos positive
  rcases run_represents_fresh T positiveNat start fresh extrinsics with
    ⟨receipts, last, ran, represents⟩
  have covered := run_coveredBy T fresh ran
  rcases covered.exists_present with ⟨keys, few, present⟩
  have recorded : ∀ key ∈ keys, key.1 ∈ receipts.filterMap (recorder T) :=
    fun key member => covered.item key ((present key).mp member)
  have perAccount : ∀ account,
      (keys.filter fun key => key.1 = account).card ≤ T.windowSize.toNat := fun account =>
    card_filter_account_le positiveNat present fun slot occupied =>
      (represents account).present_lt occupied
  have accounts : keys.image Prod.fst ⊆ (receipts.filterMap (recorder T)).toFinset := by
    intro account member
    rcases Finset.mem_image.mp member with ⟨key, stored, rfl⟩
    exact List.mem_toFinset.mpr (recorded key stored)
  refine ⟨receipts, last, ran, covered.index, keys, present, recorded, perAccount, ?_, few⟩
  calc
    keys.card ≤ T.windowSize.toNat * (keys.image Prod.fst).card :=
      Finset.card_le_mul_card_image keys _ fun account _ => perAccount account
    _ ≤ T.windowSize.toNat * (receipts.filterMap (recorder T)).toFinset.card :=
      Nat.mul_le_mul_left _ (Finset.card_le_card accounts)
    _ = (receipts.filterMap (recorder T)).toFinset.card * T.windowSize.toNat := Nat.mul_comm _ _

/-- Three records overrun a window of two slots, and another account erases. -/
theorem footprint_bounded_overrun :
    ∃ receipts last, ∃ keys : Finset (ℕ × UInt64),
      run (byteTrait ℕ 2 512) [recordBy 7 1 [1], recordBy 7 2 [2], recordBy 7 3 [3],
        recordBy 8 4 [4], eraseBy 8] (freshState ℕ 1) = some (receipts, last) ∧
      receipts.filterMap (recorder (byteTrait ℕ 2 512)) = [7, 7, 7, 8] ∧
      (∀ key, key ∈ keys ↔ (last.storage.datalogItem key).isSome = true) ∧
      (keys.filter fun key => key.1 = 7).card ≤ 2 ∧ keys.card ≤ 4 := by
  rcases footprint_bounded (byteTrait ℕ 2 512) (by decide) (freshState ℕ 1) rfl
      [recordBy 7 1 [1], recordBy 7 2 [2], recordBy 7 3 [3], recordBy 8 4 [4], eraseBy 8] with
    ⟨receipts, last, ran, _, keys, present, _, perAccount, _, few⟩
  have recorders : (run (byteTrait ℕ 2 512) [recordBy 7 1 [1], recordBy 7 2 [2],
      recordBy 7 3 [3], recordBy 8 4 [4], eraseBy 8] (freshState ℕ 1)).map
        (fun outcome => outcome.1.filterMap (recorder (byteTrait ℕ 2 512))) =
      some [7, 7, 7, 8] := by
    decide +kernel
  rw [ran, Option.map_some, Option.some.injEq] at recorders
  rw [recorders] at few
  exact ⟨receipts, last, keys, ran, recorders, present, perAccount 7, few⟩

end Growth

/-! ## Work -/

/-- The price of some operations on the pallet's own storage, with nothing cut
off. -/
def cost (read write : UInt64) (ops : List (StorageOp AccountId)) : ℕ :=
  readCount ops * read.toNat + writeCount ops * write.toNat

theorem cost_append (read write : UInt64) (ops ops' : List (StorageOp AccountId)) :
    cost read write (ops ++ ops') = cost read write ops + cost read write ops' := by
  simp only [cost, readCount, writeCount, List.map_append, List.sum_append, Nat.add_mul]
  omega

theorem cost_recordTrace_le {read write : UInt64} (account : AccountId) (slot : UInt64)
    (unsaturated : (WeightInfo.record (.perOperation read write)).toNat < 2 ^ 64 - 1) :
    cost read write (recordTrace account slot) ≤
      (WeightInfo.record (.perOperation read write)).toNat := by
  rw [cost, readCount_recordTrace, writeCount_recordTrace]
  have two : (2 : UInt64).toNat = 2 := rfl
  have three : (3 : UInt64).toNat = 3 := rfl
  simp only [WeightInfo.record, RuntimeDbWeight.perOperation, toNat_saturatingAdd,
    toNat_saturatingMul, two, three] at unsaturated ⊢
  omega

theorem cost_eraseTrace_le {read write max : UInt64} (small : max.toNat < 2 ^ 64 - 1)
    (account : AccountId) {visited : List UInt64} (free : visited.length < max.toNat)
    (unsaturated : (WeightInfo.erase (.perOperation read write) max).toNat < 2 ^ 64 - 1) :
    cost read write (eraseTrace account visited) ≤
      (WeightInfo.erase (.perOperation read write) max).toNat := by
  rw [cost, readCount_eraseTrace, writeCount_eraseTrace]
  have one : (1 : UInt64).toNat = 1 := rfl
  have writes : ((1 : UInt64) + max).toNat = 1 + max.toNat := by
    rw [UInt64.toNat_add, UInt64.toNat_one, Nat.mod_eq_of_lt (by omega)]
  have enough : (2 + visited.length) * write.toNat ≤ write.toNat * (1 + max.toNat) := by
    rw [Nat.mul_comm write.toNat]
    exact Nat.mul_le_mul_right _ (by omega)
  simp only [WeightInfo.erase, RuntimeDbWeight.perOperation, toNat_saturatingAdd,
    toNat_saturatingMul, one, writes] at unsaturated ⊢
  omega

variable [DecidableEq AccountId]

/-- The own storage operations of one call from pointers inside the window cost
at most its charge. -/
theorem outcome_cost_le {T : Trait Origin AccountId Moment Record}
    (small : T.windowSize.toNat < 2 ^ 64 - 1) {read write : UInt64}
    {extrinsic : Extrinsic Origin Moment Record} {state next : State AccountId Moment Record}
    {answer : Except DispatchError Unit}
    (inside : state.storage.PointersInside T.windowSize)
    (unsaturated : (charge T (.perOperation read write) extrinsic).toNat < 2 ^ 64 - 1)
    (outcome : Outcome T extrinsic state answer next) :
    ∃ ops, next.trace = state.trace ++ ops ∧
      cost read write ops ≤ (charge T (.perOperation read write) extrinsic).toNat := by
  cases outcome with
  | tooBig | badOrigin =>
      refine ⟨[], (List.append_nil _).symm, ?_⟩
      simp [cost, readCount, writeCount]
  | recorded account r isRecord fits signed =>
      simp only [charge, isRecord] at unsaturated ⊢
      exact ⟨_, rfl, cost_recordTrace_le account _ unsaturated⟩
  | erased account visited isErase signed collected =>
      simp only [charge, isErase] at unsaturated ⊢
      have free := length_collect_lt (inside account).1 (inside account).2 collected
      exact ⟨_, rfl, cost_eraseTrace_le small account free unsaturated⟩

/-- From any storage with pointers inside the window: the operations of a
sequence of extrinsics on the pallet's own storage, without those for its
events, cost no more than what was charged for the extrinsics, as long as the
charges do not sum up to the bound of the weight type. -/
theorem work_within_charges (T : Trait Origin AccountId Moment Record)
    (small : T.windowSize.toNat < 2 ^ 64 - 1) (read write : UInt64)
    (state : State AccountId Moment Record)
    (inside : state.storage.PointersInside T.windowSize)
    (extrinsics : List (Extrinsic Origin Moment Record))
    (charged : (extrinsics.map fun extrinsic =>
      (charge T (.perOperation read write) extrinsic).toNat).sum < 2 ^ 64 - 1) :
    ∃ receipts last ops, run T extrinsics state = some (receipts, last) ∧
      last.trace = state.trace ++ ops ∧
      cost read write ops ≤ (extrinsics.map fun extrinsic =>
        (charge T (.perOperation read write) extrinsic).toNat).sum := by
  induction extrinsics generalizing state with
  | nil =>
      refine ⟨[], state, [], rfl, (List.append_nil _).symm, ?_⟩
      simp [cost, readCount, writeCount]
  | cons extrinsic rest ih =>
      rw [List.map_cons, List.sum_cons] at charged ⊢
      rcases pointersInside_dispatch extrinsic state inside with
        ⟨answer, middle, returned, insideMiddle⟩
      have unsaturated : (charge T (.perOperation read write) extrinsic).toNat < 2 ^ 64 - 1 := by
        omega
      rcases outcome_cost_le small inside unsaturated
        ((dispatch_eq_some_iff T ..).mp returned) with ⟨ops, traced, within⟩
      rcases ih middle insideMiddle (by omega) with ⟨later, last, ops', ran, traced', within'⟩
      refine ⟨(extrinsic, answer) :: later, last, ops ++ ops',
        (Machine.run_cons_eq_some_iff _ extrinsic rest state last _).mpr
          ⟨answer, middle, later, returned, ran, rfl⟩, ?_, ?_⟩
      · rw [traced', traced, List.append_assoc]
      · rw [cost_append]
        omega

/-- At the prices of `RocksDbWeight`, with a window of 128 slots: erasing one
record is charged as if the window were full. -/
theorem work_within_charges_runtime :
    ∃ receipts last,
      run (runtimeTrait ℕ) [recordBy 7 1 [1], eraseBy 7] (freshState ℕ 1) =
        some (receipts, last) ∧
      cost 25000000 100000000 last.trace = 675000000 ∧
      cost 25000000 100000000 last.trace ≤ ([recordBy 7 1 [1], eraseBy 7].map fun extrinsic =>
        (charge (runtimeTrait ℕ) (.perOperation 25000000 100000000) extrinsic).toNat).sum := by
  rcases work_within_charges (runtimeTrait ℕ) (by decide) 25000000 100000000 (freshState ℕ 1)
      (pointersInside_empty (by decide)) [recordBy 7 1 [1], eraseBy 7] (by decide) with
    ⟨receipts, last, ops, ran, traced, within⟩
  have performed : (run (runtimeTrait ℕ) [recordBy 7 1 [1], eraseBy 7] (freshState ℕ 1)).map
      (fun outcome => cost 25000000 100000000 outcome.2.trace) = some 675000000 := by
    decide +kernel
  rw [ran] at performed
  have own : last.trace = ops := traced
  rw [← own] at within
  exact ⟨receipts, last, ran, Option.some.inj performed, within⟩

end Datalog
end IpciBlockchain
