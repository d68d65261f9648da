import IpciBlockchain.Datalog.Accounts

namespace IpciBlockchain
namespace Datalog

open Foundation

/-!
# The map of the previous version

`Datalog` is the map of the pallet's previous version.  Nothing reads it any
more, and both calls delete the sender's entry in passing.  This is the whole
migration: what the map holds never shows in a result, in an event, in a log
or in the other two maps, and each account's old entry is gone from the
account's first successful call on.
-/

variable {Origin AccountId Moment Record : Type}

/-- The same state with other contents of the old map. -/
def State.withLegacy (legacy : StorageMap AccountId (List (Moment × Record)))
    (state : State AccountId Moment Record) : State AccountId Moment Record :=
  { state with storage := { state.storage with datalog := legacy } }

variable [DecidableEq AccountId]

/-- What a receipt deletes from the old map. -/
def clearLegacy (T : Trait Origin AccountId Moment Record)
    (legacy : StorageMap AccountId (List (Moment × Record)))
    (receipt : Extrinsic Origin Moment Record × Except DispatchError Unit) :
    StorageMap AccountId (List (Moment × Record)) :=
  match receipt.2, receipt.1.caller T with
  | .ok (), some account => legacy.remove account
  | _, _ => legacy

/-- A receipt of a successful call of the account. -/
def SucceedsFor (T : Trait Origin AccountId Moment Record) (account : AccountId)
    (receipt : Extrinsic Origin Moment Record × Except DispatchError Unit) : Prop :=
  receipt.2 = .ok () ∧ receipt.1.caller T = some account

theorem clearLegacy_of_succeeds {T : Trait Origin AccountId Moment Record} {account : AccountId}
    {receipt : Extrinsic Origin Moment Record × Except DispatchError Unit}
    (succeeds : SucceedsFor T account receipt)
    (legacy : StorageMap AccountId (List (Moment × Record))) :
    clearLegacy T legacy receipt account = none := by
  rw [clearLegacy, succeeds.1, succeeds.2]
  exact StorageMap.remove_self legacy account

theorem clearLegacy_of_not_succeeds {T : Trait Origin AccountId Moment Record}
    {account : AccountId} {receipt : Extrinsic Origin Moment Record × Except DispatchError Unit}
    (other : ¬ SucceedsFor T account receipt)
    (legacy : StorageMap AccountId (List (Moment × Record))) :
    clearLegacy T legacy receipt account = legacy account := by
  rcases receipt with ⟨extrinsic, answer⟩
  unfold clearLegacy
  cases answer with
  | error reason => rfl
  | ok =>
      cases signed : extrinsic.caller T with
      | none => rfl
      | some sender =>
          have different : account ≠ sender := by
            rintro rfl
            exact other ⟨rfl, signed⟩
          exact StorageMap.remove_of_ne legacy different

/-- Over the receipts of a run, exactly the entries of the accounts with a
successful call are deleted. -/
theorem foldl_clearLegacy (T : Trait Origin AccountId Moment Record)
    (receipts : List (Extrinsic Origin Moment Record × Except DispatchError Unit))
    (legacy : StorageMap AccountId (List (Moment × Record))) (account : AccountId) :
    ((∃ receipt ∈ receipts, SucceedsFor T account receipt) →
        receipts.foldl (clearLegacy T) legacy account = none) ∧
      ((∀ receipt ∈ receipts, ¬ SucceedsFor T account receipt) →
        receipts.foldl (clearLegacy T) legacy account = legacy account) := by
  induction receipts using List.reverseRecOn with
  | nil => exact ⟨fun some_ => by simp at some_, fun _ => rfl⟩
  | append_singleton receipts receipt ih =>
      rw [List.foldl_append, List.foldl_cons, List.foldl_nil]
      constructor
      · rintro ⟨found, member, succeeds⟩
        by_cases now : SucceedsFor T account receipt
        · exact clearLegacy_of_succeeds now _
        · rw [clearLegacy_of_not_succeeds now]
          rcases List.mem_append.mp member with earlier | last
          · exact ih.1 ⟨found, earlier, succeeds⟩
          · exact absurd (List.mem_singleton.mp last ▸ succeeds) now
      · intro none_
        rw [clearLegacy_of_not_succeeds (none_ receipt (by simp))]
        exact ih.2 fun earlier member => none_ earlier (List.mem_append_left _ member)

/-! ## Steps and runs -/

/-- A call does to a state what it does to the same state with an empty old
map. -/
theorem dispatch_withLegacy (T : Trait Origin AccountId Moment Record)
    (extrinsic : Extrinsic Origin Moment Record) (state : State AccountId Moment Record) :
    dispatch T extrinsic (state.withLegacy StorageMap.empty) =
      (dispatch T extrinsic state).map (Prod.map id (State.withLegacy StorageMap.empty)) := by
  have emptied : ∀ account : AccountId,
      (StorageMap.empty : StorageMap AccountId (List (Moment × Record))).remove account =
        StorageMap.empty := fun account => by
    rw [StorageMap.remove, Function.update_eq_self_iff]
    rfl
  rcases extrinsic with ⟨origin, now, call⟩
  cases call with
  | record r =>
      simp only [dispatch_record, record_run]
      by_cases fits : T.sizeHint r ≤ T.maximumMessageSize
      · rw [if_pos fits, if_pos fits]
        cases signed : T.ensureSigned origin with
        | ok account =>
            simp only [Option.map_some, Prod.map_apply, id_eq, State.recorded, Storage.recorded,
              State.withLegacy, emptied]
        | error reason => cases reason; rfl
      · rw [if_neg fits, if_neg fits]
        rfl
  | erase =>
      simp only [dispatch_erase, erase_run]
      cases signed : T.ensureSigned origin with
      | ok account =>
          simp only [Option.map_map, Function.comp_def, Prod.map_apply, id_eq, State.erased,
            Storage.erased, State.withLegacy, emptied]
      | error reason => cases reason; rfl

theorem outcome_datalog {T : Trait Origin AccountId Moment Record}
    {extrinsic : Extrinsic Origin Moment Record} {state next : State AccountId Moment Record}
    {answer : Except DispatchError Unit} (outcome : Outcome T extrinsic state answer next) :
    next.storage.datalog = clearLegacy T state.storage.datalog (extrinsic, answer) := by
  cases outcome with
  | tooBig | badOrigin => rfl
  | recorded account r isRecord fits signed =>
      simp only [clearLegacy, (Extrinsic.caller_eq_some_iff T extrinsic account).mpr signed]
      rfl
  | erased account visited isErase signed collected =>
      simp only [clearLegacy, (Extrinsic.caller_eq_some_iff T extrinsic account).mpr signed]
      rfl

/-- Two states that differ only in the old map cannot be told apart by any
run, whether or not it returns: the results are the same, and the last states
again differ only in the old map.  There, the entries of the accounts with a
successful call are gone, and all others are what they were. -/
theorem legacy_map_is_only_cleared (T : Trait Origin AccountId Moment Record)
    (extrinsics : List (Extrinsic Origin Moment Record))
    (state state' : State AccountId Moment Record)
    (same : state.withLegacy StorageMap.empty = state'.withLegacy StorageMap.empty) :
    (run T extrinsics state).map (Prod.map id (State.withLegacy StorageMap.empty)) =
        (run T extrinsics state').map (Prod.map id (State.withLegacy StorageMap.empty)) ∧
      ∀ receipts last, run T extrinsics state = some (receipts, last) → ∀ account,
        ((∃ receipt ∈ receipts, SucceedsFor T account receipt) →
          last.storage.datalog account = none) ∧
        ((∀ receipt ∈ receipts, ¬ SucceedsFor T account receipt) →
          last.storage.datalog account = state.storage.datalog account) := by
  constructor
  · have abstracts : ∀ current : State AccountId Moment Record,
        run T extrinsics (current.withLegacy StorageMap.empty) =
          (run T extrinsics current).map (Prod.map id (State.withLegacy StorageMap.empty)) :=
      Machine.run_abstracts (dispatch T) (State.withLegacy StorageMap.empty)
        (dispatch_withLegacy T) extrinsics
    rw [← abstracts, same, abstracts]
  · intro receipts last ran account
    have tracked := Machine.run_tracks (dispatch T)
      (fun current legacy => current.storage.datalog = legacy) (clearLegacy T)
      (fun _ _ _ _ _ follows returned => by
        rw [outcome_datalog ((dispatch_eq_some_iff T ..).mp returned), follows])
      state.storage.datalog rfl ran
    rw [tracked]
    exact foldl_clearLegacy T receipts state.storage.datalog account

theorem legacy_map_is_only_cleared_once :
    (run (runtimeTrait ℕ) [recordBy 7 1 [1], eraseBy 7]
        ((freshState ℕ 1).withLegacy (StorageMap.empty.insert 7 [(3, [3])]))).map
          (Prod.map id (State.withLegacy StorageMap.empty)) =
        (run (runtimeTrait ℕ) [recordBy 7 1 [1], eraseBy 7] (freshState ℕ 1)).map
          (Prod.map id (State.withLegacy StorageMap.empty)) ∧
      ∀ receipts last,
        run (runtimeTrait ℕ) [recordBy 7 1 [1], eraseBy 7]
          ((freshState ℕ 1).withLegacy (StorageMap.empty.insert 7 [(3, [3])])) =
            some (receipts, last) → ∀ account,
        ((∃ receipt ∈ receipts, SucceedsFor (runtimeTrait ℕ) account receipt) →
          last.storage.datalog account = none) ∧
        ((∀ receipt ∈ receipts, ¬ SucceedsFor (runtimeTrait ℕ) account receipt) →
          last.storage.datalog account =
            ((freshState ℕ 1).withLegacy (StorageMap.empty.insert 7 [(3, [3])])).storage.datalog
              account) :=
  legacy_map_is_only_cleared (runtimeTrait ℕ) [recordBy 7 1 [1], eraseBy 7]
    ((freshState ℕ 1).withLegacy (StorageMap.empty.insert 7 [(3, [3])])) (freshState ℕ 1) rfl

end Datalog
end IpciBlockchain
