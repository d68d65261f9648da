import IpciBlockchain.Datalog.ByteRecords
import IpciBlockchain.Datalog.Calls

namespace IpciBlockchain
namespace Datalog

open Foundation

/-!
# Accounts do not interfere

The items of all accounts live in one map under composite keys, and the loop
of `erase` deletes a whole range of it.  Seen from one account, each call is
either one of its own, and then a function of the part of the storage that
belongs to the account, or it changes nothing.  This is the locality that the
projection rule for runs asks for.
-/

variable {Origin AccountId Moment Record : Type}

/-- The part of the storage that belongs to one account. -/
structure AccountStorage (Moment Record : Type) where
  datalog : Option (List (Moment × Record))
  index : Option RingBufferIndex
  items : StorageMap UInt64 (RingBufferItem Moment Record)

def Storage.account (storage : Storage AccountId Moment Record) (account : AccountId) :
    AccountStorage Moment Record where
  datalog := storage.datalog account
  index := storage.datalogIndex account
  items := storage.datalogItem.row account

/-- Storage is determined by the parts of the accounts. -/
theorem Storage.ext_account {storage storage' : Storage AccountId Moment Record}
    (same : ∀ account, storage.account account = storage'.account account) :
    storage = storage' := by
  rcases storage with ⟨datalog, index, items⟩
  rcases storage' with ⟨datalog', index', items'⟩
  have sameDatalog : datalog = datalog' :=
    funext fun account => congrArg AccountStorage.datalog (same account)
  have sameIndex : index = index' :=
    funext fun account => congrArg AccountStorage.index (same account)
  have sameItems : items = items' :=
    funext fun key => congrFun (congrArg AccountStorage.items (same key.1)) key.2
  rw [sameDatalog, sameIndex, sameItems]

namespace AccountStorage

/-- The pointers as `DatalogIndex::get` reads them. -/
def pointers (part : AccountStorage Moment Record) : RingBufferIndex :=
  part.index.getD default

/-- `record` as a function of the sender's part. -/
def recorded (part : AccountStorage Moment Record) (max : UInt64)
    (item : RingBufferItem Moment Record) : AccountStorage Moment Record where
  datalog := none
  index := some (part.pointers.add max).2
  items := part.items.insert (part.pointers.add max).1 item

/-- `erase` as a function of the sender's part and of the visited slots. -/
def erased (part : AccountStorage Moment Record) (visited : List UInt64) :
    AccountStorage Moment Record where
  datalog := none
  index := none
  items := part.items.removeAll visited

/-- What an extrinsic of the account does to the account's part.  The last
case, a loop that never ends, is never the step of a run. -/
def advance (T : Trait Origin AccountId Moment Record)
    (extrinsic : Extrinsic Origin Moment Record) (part : AccountStorage Moment Record) :
    AccountStorage Moment Record :=
  match extrinsic.call with
  | .record r =>
      if T.sizeHint r ≤ T.maximumMessageSize then
        part.recorded T.windowSize ⟨extrinsic.now, r⟩
      else part
  | .erase =>
      match (part.pointers.iter T.windowSize).collect with
      | some visited => part.erased visited
      | none => part

/-- The log as `Module::data` reads it. -/
def data [Inhabited Moment] [Inhabited Record] (part : AccountStorage Moment Record)
    (max : UInt64) : Option (List (RingBufferItem Moment Record)) :=
  (part.pointers.iter max).collect.map fun visited =>
    visited.map part.items.get

end AccountStorage

theorem data_eq_account [Inhabited Moment] [Inhabited Record]
    (T : Trait Origin AccountId Moment Record) (storage : Storage AccountId Moment Record)
    (account : AccountId) :
    data T storage account = (storage.account account).data T.windowSize := rfl

/-- The account whose signature the extrinsic carries, if any. -/
def Extrinsic.caller (T : Trait Origin AccountId Moment Record)
    (extrinsic : Extrinsic Origin Moment Record) : Option AccountId :=
  match T.ensureSigned extrinsic.origin with
  | .ok account => some account
  | .error _ => none

theorem Extrinsic.caller_eq_some_iff (T : Trait Origin AccountId Moment Record)
    (extrinsic : Extrinsic Origin Moment Record) (account : AccountId) :
    extrinsic.caller T = some account ↔ T.ensureSigned extrinsic.origin = .ok account := by
  cases signed : T.ensureSigned extrinsic.origin <;> simp [caller, signed]

/-- Every account's pointers are below the window. -/
def Storage.PointersInside (storage : Storage AccountId Moment Record) (max : UInt64) : Prop :=
  ∀ account, (storage.datalogIndex.get account).start < max ∧
    (storage.datalogIndex.get account).end_ < max

theorem pointersInside_empty {max : UInt64} (positive : 0 < max) :
    (Storage.empty : Storage AccountId Moment Record).PointersInside max :=
  fun _ => ⟨positive, positive⟩

variable [DecidableEq AccountId]

/-! ## The calls on the parts of the accounts -/

section Parts

variable (storage : Storage AccountId Moment Record) (account : AccountId)

theorem account_recorded_self (max : UInt64) (item : RingBufferItem Moment Record) :
    (storage.recorded max account item).account account =
      (storage.account account).recorded max item := by
  simp only [Storage.account, Storage.recorded, AccountStorage.recorded, StorageMap.remove_self,
    StorageMap.insert_self, StorageMap.row_insert_self]
  rfl

theorem account_recorded_of_ne {other : AccountId} (different : other ≠ account) (max : UInt64)
    (item : RingBufferItem Moment Record) :
    (storage.recorded max account item).account other = storage.account other := by
  simp only [Storage.account, Storage.recorded, StorageMap.remove_of_ne _ different,
    StorageMap.insert_of_ne _ _ different, StorageMap.row_insert_of_ne _ different]

theorem account_erased_self (visited : List UInt64) :
    (storage.erased account visited).account account =
      (storage.account account).erased visited := by
  simp only [Storage.account, Storage.erased, AccountStorage.erased, StorageMap.remove_self,
    StorageMap.row_removeAll_self]

theorem account_erased_of_ne {other : AccountId} (different : other ≠ account)
    (visited : List UInt64) :
    (storage.erased account visited).account other = storage.account other := by
  simp only [Storage.account, Storage.erased, StorageMap.remove_of_ne _ different,
    StorageMap.row_removeAll_of_ne _ different]

end Parts

/-! ## Locality -/

theorem account_of_caller_ne {T : Trait Origin AccountId Moment Record}
    {extrinsic : Extrinsic Origin Moment Record} {state next : State AccountId Moment Record}
    {answer : Except DispatchError Unit} {account : AccountId}
    (foreign : extrinsic.caller T ≠ some account)
    (outcome : Outcome T extrinsic state answer next) :
    next.storage.account account = state.storage.account account := by
  rw [ne_eq, Extrinsic.caller_eq_some_iff] at foreign
  cases outcome with
  | tooBig | badOrigin => rfl
  | recorded sender r isRecord fits signed =>
      have different : account ≠ sender := fun same => foreign (same ▸ signed)
      exact account_recorded_of_ne state.storage sender different _ _
  | erased sender visited isErase signed collected =>
      have different : account ≠ sender := fun same => foreign (same ▸ signed)
      exact account_erased_of_ne state.storage sender different visited

theorem account_of_caller_eq {T : Trait Origin AccountId Moment Record}
    {extrinsic : Extrinsic Origin Moment Record} {state next : State AccountId Moment Record}
    {answer : Except DispatchError Unit} {account : AccountId}
    (own : extrinsic.caller T = some account)
    (outcome : Outcome T extrinsic state answer next) :
    next.storage.account account = (state.storage.account account).advance T extrinsic := by
  have signature := (Extrinsic.caller_eq_some_iff T extrinsic account).mp own
  cases outcome with
  | tooBig r isRecord exceeds =>
      simp only [AccountStorage.advance, isRecord, if_neg (Nat.not_le_of_lt exceeds)]
  | badOrigin fits unsigned =>
      rw [signature] at unsigned
      cases unsigned
  | recorded sender r isRecord fits signed =>
      cases Except.ok.inj (signature.symm.trans signed)
      simp only [AccountStorage.advance, isRecord, if_pos fits]
      exact account_recorded_self state.storage account _ _
  | erased sender visited isErase signed collected =>
      cases Except.ok.inj (signature.symm.trans signed)
      have loop : ((state.storage.account account).pointers.iter T.windowSize).collect =
        some visited := collected
      simp only [AccountStorage.advance, isErase, loop]
      exact account_erased_self state.storage account visited

/-- The pallet is local: the storage of an account moves only with the calls
that the account signs, and only as a function of itself. -/
theorem dispatch_local (T : Trait Origin AccountId Moment Record) :
    Machine.Local (dispatch T) (Extrinsic.caller T)
      (fun account (state : State AccountId Moment Record) => state.storage.account account) where
  frame foreign returned := account_of_caller_ne foreign ((dispatch_eq_some_iff T ..).mp returned)
  own signed same returned returned' := by
    rw [account_of_caller_eq signed ((dispatch_eq_some_iff T ..).mp returned),
      account_of_caller_eq signed ((dispatch_eq_some_iff T ..).mp returned'), same]

/-! ## Pointers on the ring keep every call returning -/

theorem pointersInside_next {T : Trait Origin AccountId Moment Record}
    {extrinsic : Extrinsic Origin Moment Record} {state next : State AccountId Moment Record}
    {answer : Except DispatchError Unit}
    (inside : state.storage.PointersInside T.windowSize)
    (outcome : Outcome T extrinsic state answer next) :
    next.storage.PointersInside T.windowSize := by
  cases outcome with
  | tooBig | badOrigin => exact inside
  | recorded sender r isRecord fits signed =>
      intro account
      simp only [State.recorded, Storage.recorded, StorageMap.get]
      by_cases same : account = sender
      · rw [same, StorageMap.insert_self]
        exact RingBufferIndex.add_lt (inside sender).1 (inside sender).2
      · rw [StorageMap.insert_of_ne _ _ same]
        exact inside account
  | erased sender visited isErase signed collected =>
      intro account
      simp only [State.erased, Storage.erased, StorageMap.get]
      by_cases same : account = sender
      · have positive : 0 < T.windowSize := UInt64.lt_of_le_of_lt UInt64.zero_le (inside sender).1
        rw [same, StorageMap.remove_self]
        exact ⟨positive, positive⟩
      · rw [StorageMap.remove_of_ne _ same]
        exact inside account

theorem pointersInside_dispatch {T : Trait Origin AccountId Moment Record}
    (extrinsic : Extrinsic Origin Moment Record) (state : State AccountId Moment Record)
    (inside : state.storage.PointersInside T.windowSize) :
    ∃ answer next, dispatch T extrinsic state = some (answer, next) ∧
      next.storage.PointersInside T.windowSize := by
  have returns : ∃ answer next, Outcome T extrinsic state answer next := by
    cases signed : T.ensureSigned extrinsic.origin with
    | error reason =>
        cases reason
        by_cases fits : ∀ r, extrinsic.call = .record r → T.sizeHint r ≤ T.maximumMessageSize
        · exact ⟨_, _, .badOrigin fits signed⟩
        · push Not at fits
          rcases fits with ⟨r, isRecord, exceeds⟩
          exact ⟨_, _, .tooBig r isRecord exceeds⟩
    | ok account =>
        cases called : extrinsic.call with
        | record r =>
            by_cases fits : T.sizeHint r ≤ T.maximumMessageSize
            · exact ⟨_, _, .recorded account r called fits signed⟩
            · exact ⟨_, _, .tooBig r called (Nat.lt_of_not_le fits)⟩
        | erase =>
            have positive : 0 < T.windowSize :=
              UInt64.lt_of_le_of_lt UInt64.zero_le (inside account).1
            rcases Option.isSome_iff_exists.mp
              ((collect_isSome_iff _ _).mpr
                ((terminates_iff positive _).mpr (Or.inl (inside account).2))) with
              ⟨visited, collected⟩
            exact ⟨_, _, .erased account visited called signed collected⟩
  rcases returns with ⟨answer, next, outcome⟩
  exact ⟨answer, next, (dispatch_eq_some_iff T ..).mpr outcome, pointersInside_next inside outcome⟩

/-! ## Non-interference -/

/-- The extrinsics that one account signed, in order. -/
abbrev signedBy (T : Trait Origin AccountId Moment Record) (account : AccountId) :
    List (Extrinsic Origin Moment Record) → List (Extrinsic Origin Moment Record) :=
  Machine.ownedBy (Extrinsic.caller T) account

/-- From any storage whose pointers are inside the window, an account's part
after a run is what the account's own extrinsics alone would have made of it.
Hence the order in which the extrinsics of different accounts arrive does not
matter for the storage. -/
theorem accounts_do_not_interfere (T : Trait Origin AccountId Moment Record)
    (state : State AccountId Moment Record)
    (inside : state.storage.PointersInside T.windowSize) :
    (∀ extrinsics account, ∃ receipts last ownReceipts ownLast,
      run T extrinsics state = some (receipts, last) ∧
      run T (signedBy T account extrinsics) state = some (ownReceipts, ownLast) ∧
      last.storage.account account = ownLast.storage.account account) ∧
    (∀ extrinsics extrinsics',
      (∀ account, signedBy T account extrinsics = signedBy T account extrinsics') →
      ∃ receipts last receipts' last',
        run T extrinsics state = some (receipts, last) ∧
        run T extrinsics' state = some (receipts', last') ∧
        last.storage = last'.storage) := by
  have returns : ∀ extrinsics, ∃ receipts last, run T extrinsics state = some (receipts, last) := by
    intro extrinsics
    rcases Machine.run_returns (dispatch T) pointersInside_dispatch extrinsics inside with
      ⟨receipts, last, ran, _⟩
    exact ⟨receipts, last, ran⟩
  constructor
  · intro extrinsics account
    rcases returns extrinsics with ⟨receipts, last, ran⟩
    rcases returns (signedBy T account extrinsics) with ⟨ownReceipts, ownLast, ranOwn⟩
    exact ⟨receipts, last, ownReceipts, ownLast, ran, ranOwn,
      (dispatch_local T).run_projection account rfl ran ranOwn⟩
  · intro extrinsics extrinsics' sameOrder
    rcases returns extrinsics with ⟨receipts, last, ran⟩
    rcases returns extrinsics' with ⟨receipts', last', ran'⟩
    refine ⟨receipts, last, receipts', last', ran, ran', Storage.ext_account fun account => ?_⟩
    exact (dispatch_local T).run_interleaving account (returns (signedBy T account extrinsics))
      (sameOrder account) ran ran'

theorem accounts_do_not_interfere_fresh :
    ∃ receipts last ownReceipts ownLast,
      run (runtimeTrait ℕ) [recordBy 1 10 [1], recordBy 2 11 [2], eraseBy 1] (freshState ℕ 1) =
        some (receipts, last) ∧
      run (runtimeTrait ℕ) (signedBy (runtimeTrait ℕ) 2
        [recordBy 1 10 [1], recordBy 2 11 [2], eraseBy 1]) (freshState ℕ 1) =
        some (ownReceipts, ownLast) ∧
      last.storage.account 2 = ownLast.storage.account 2 :=
  (accounts_do_not_interfere (runtimeTrait ℕ) (freshState ℕ 1)
    (pointersInside_empty (by decide))).1 _ 2

end Datalog
end IpciBlockchain
