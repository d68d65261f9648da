import IpciBlockchain.Datalog.Representation

namespace IpciBlockchain
namespace Datalog

open Foundation

/-!
# The limit on the length of a record

`MaximumMessageSize` is documented as the maximum record length.  The check
at the head of `record` does not compare the length with it, but the size
hint of the codec, and for byte vectors the hint counts four bytes for the
length prefix.  The check is nevertheless the only way into the item map, so
whatever it admits bounds whatever is stored.

The result below keeps the two apart: stored records always respect the
documented limit, and `record` refuses the last few lengths that the
documentation allows.
-/

variable {Origin AccountId Moment Record : Type}

/-- Every stored item has passed the check of `record`. -/
def Storage.Admitted (T : Trait Origin AccountId Moment Record)
    (storage : Storage AccountId Moment Record) : Prop :=
  ∀ key item, storage.datalogItem key = some item →
    T.sizeHint item.record ≤ T.maximumMessageSize

variable [DecidableEq AccountId]

/-- No call puts an item into storage that the check would refuse. -/
theorem admitted_outcome {T : Trait Origin AccountId Moment Record}
    {extrinsic : Extrinsic Origin Moment Record} {state next : State AccountId Moment Record}
    {answer : Except DispatchError Unit} (admitted : state.storage.Admitted T)
    (outcome : Outcome T extrinsic state answer next) : next.storage.Admitted T := by
  cases outcome with
  | tooBig | badOrigin => exact admitted
  | recorded account r isRecord fits signed =>
      intro key item stored
      simp only [State.recorded, Storage.recorded] at stored
      by_cases written :
          key = (account, ((state.storage.datalogIndex.get account).add T.windowSize).1)
      · rw [written, StorageMap.insert_self] at stored
        cases stored
        exact fits
      · rw [StorageMap.insert_of_ne _ _ written] at stored
        exact admitted key item stored
  | erased account visited isErase signed collected =>
      intro key item stored
      simp only [State.erased, Storage.erased, StorageMap.removeAll_apply] at stored
      by_cases deleted : key ∈ visited.map fun slot => (account, slot)
      · rw [if_pos deleted] at stored
        cases stored
      · rw [if_neg deleted] at stored
        exact admitted key item stored

/-- In every reachable state the stored items are ones that `record` would
admit. -/
theorem admitted_of_reachable {T : Trait Origin AccountId Moment Record}
    {state : State AccountId Moment Record} (reachable : Reachable T state) :
    state.storage.Admitted T := by
  rcases reachable with ⟨start, extrinsics, receipts, fresh, ran⟩
  have initial : start.storage.Admitted T := by
    intro key item stored
    rw [fresh] at stored
    cases stored
  have step : ∀ extrinsic (state : State AccountId Moment Record) answer next,
      state.storage.Admitted T → dispatch T extrinsic state = some (answer, next) →
        next.storage.Admitted T := fun extrinsic state answer next admitted returned =>
    admitted_outcome admitted ((dispatch_eq_some_iff T ..).mp returned)
  exact Machine.run_preserves (dispatch T) step initial ran

/-- A signed `record` succeeds, in any state, exactly when the size hint is
within the limit. -/
theorem record_succeeds_iff {T : Trait Origin AccountId Moment Record}
    {extrinsic : Extrinsic Origin Moment Record} {r : Record} {account : AccountId}
    (isRecord : extrinsic.call = .record r)
    (signed : T.ensureSigned extrinsic.origin = .ok account)
    (state : State AccountId Moment Record) :
    (∃ next, dispatch T extrinsic state = some (.ok (), next)) ↔
      T.sizeHint r ≤ T.maximumMessageSize := by
  constructor
  · rintro ⟨next, returned⟩
    have accepted := ((dispatch_eq_some_iff T ..).mp returned).accepted.mp rfl
    simp only [Extrinsic.accepted, isRecord, Bool.and_eq_true, decide_eq_true_eq] at accepted
    exact accepted.2
  · intro fits
    have outcome : Outcome T extrinsic state (.ok ()) _ :=
      .recorded account r isRecord fits signed
    exact ⟨_, (dispatch_eq_some_iff T ..).mpr outcome⟩

/-! ## Byte vectors -/

/-- For byte vectors, whose size hint is four more than their length, the
documented limit describes `record` except for the last four lengths up to
the limit.  The stored records respect the limit in any case. -/
theorem record_limit_exact_iff (T : Trait Origin AccountId Moment (List UInt8))
    (hint : ∀ bytes, T.sizeHint bytes = 4 + bytes.length)
    (state : State AccountId Moment (List UInt8)) (reachable : Reachable T state)
    (extrinsic : Extrinsic Origin Moment (List UInt8)) (bytes : List UInt8)
    (isRecord : extrinsic.call = .record bytes) (account : AccountId)
    (signed : T.ensureSigned extrinsic.origin = .ok account) :
    (((∃ next, dispatch T extrinsic state = some (.ok (), next)) ↔
        bytes.length ≤ T.maximumMessageSize) ∧
      ∀ owner slot item, state.storage.datalogItem (owner, slot) = some item →
        item.record.length ≤ T.maximumMessageSize) ↔
      bytes.length + 4 ≤ T.maximumMessageSize ∨ T.maximumMessageSize < bytes.length := by
  have stored : ∀ owner slot item, state.storage.datalogItem (owner, slot) = some item →
      item.record.length ≤ T.maximumMessageSize := by
    intro owner slot item present
    have fits := admitted_of_reachable reachable (owner, slot) item present
    rw [hint] at fits
    omega
  rw [and_iff_left stored, record_succeeds_iff isRecord signed, hint]
  constructor
  · intro agrees
    by_contra neither
    push Not at neither
    have admitted := agrees.mpr neither.2
    omega
  · rintro (short | long)
    · exact iff_of_true (by omega) (by omega)
    · exact iff_of_false (by omega) (by omega)

theorem record_limit_exact_iff_short :
    ∃ receipts state,
      run (runtimeTrait ℕ) [recordBy 7 1 [1, 2, 3]] (freshState ℕ 1) = some (receipts, state) ∧
      ((((∃ next, dispatch (runtimeTrait ℕ) (recordBy 8 2 [4, 5]) state = some (.ok (), next)) ↔
          2 ≤ datalogMaximumMessageSize) ∧
        ∀ owner slot item, state.storage.datalogItem (owner, slot) = some item →
          item.record.length ≤ datalogMaximumMessageSize) ↔
        2 + 4 ≤ datalogMaximumMessageSize ∨ datalogMaximumMessageSize < 2) := by
  rcases run_represents_fresh (runtimeTrait ℕ) (by decide) (freshState ℕ 1) rfl
      [recordBy 7 1 [1, 2, 3]] with
    ⟨receipts, state, ran, _⟩
  exact ⟨receipts, state, ran, record_limit_exact_iff (runtimeTrait ℕ) (fun _ => rfl) state
    ⟨freshState ℕ 1, _, receipts, rfl, ran⟩ (recordBy 8 2 [4, 5]) [4, 5] rfl 8 rfl⟩

/-- The runtime's limit is 512 bytes, and it refuses a record of 512 bytes. -/
theorem record_refuses_full_length :
    (List.replicate 512 (0 : UInt8)).length ≤ datalogMaximumMessageSize ∧
    (dispatch (runtimeTrait ℕ) (recordBy 7 1 (List.replicate 512 0)) (freshState ℕ 1)).map
      Prod.fst = some (.error (.module .recordTooBig)) := by
  decide +kernel

end Datalog
end IpciBlockchain
