import IpciBlockchain.Datalog.RawRefinement

namespace IpciBlockchain
namespace Datalog

open Foundation

/-!
# Other pallets in the same store

All pallets of the chain write to one store.  Between the calls of this pallet
the others may do anything to keys that are neither the places of its entries
nor the entries of the system that its calls use: the block number, the phase,
the events and the time.  However the calls and the writes are interleaved, the
pallet behaves as if the others did not exist, and the keys of the others hold
what they wrote.
-/

variable {Failure Origin AccountId Moment Record Store : Type}

/-- Neither the place of an entry of this pallet nor an entry of the system that
its calls use. -/
def ForeignKey (S : ChainStorage AccountId Moment Record Store) (key : List UInt8) : Prop :=
  (∀ entry : StorageKey AccountId, S.storageKey entry ≠ key) ∧ key ∉ S.systemKeys

/-- A write, or with `none` a deletion, under a foreign key. -/
structure ForeignWrite (S : ChainStorage AccountId Moment Record Store) where
  key : List UInt8
  bytes : Option (List UInt8)
  foreign : ForeignKey S key

namespace ForeignWrite

variable {S : ChainStorage AccountId Moment Record Store}

def apply (write : ForeignWrite S) (raw : Store) : Store :=
  match write.bytes with
  | some bytes => S.put raw write.key bytes
  | none => S.kill raw write.key

/-- The write in the state of the chain. -/
def perform (write : ForeignWrite S) (state : RawState Store AccountId Moment Record) :
    RawState Store AccountId Moment Record :=
  { state with raw := write.apply state.raw }

variable (documented : S.Documented) (write : ForeignWrite S)

include documented

theorem get_apply_self (raw : Store) : S.get (write.apply raw) write.key = write.bytes := by
  unfold apply
  cases write.bytes with
  | none => exact documented.get_kill_self raw write.key
  | some bytes => exact documented.get_put_self raw write.key bytes

theorem get_apply_of_ne (raw : Store) {other : List UInt8} (different : other ≠ write.key) :
    S.get (write.apply raw) other = S.get raw other := by
  unfold apply
  cases write.bytes with
  | none => exact documented.get_kill_of_ne raw write.key different
  | some bytes => exact documented.get_put_of_ne raw write.key bytes different

/-- The typed maps do not see it. -/
theorem typed_perform (E : Encodings Failure AccountId Moment Record)
    (state : RawState Store AccountId Moment Record) :
    (write.perform state).typed S E = state.typed S E := by
  have maps : Storage.ofRaw S E (write.apply state.raw) = Storage.ofRaw S E state.raw :=
    ofRaw_congr E fun entry => write.get_apply_of_ne documented state.raw (write.foreign.1 entry)
  rw [RawState.typed, RawState.typed, perform, maps]

end ForeignWrite

/-- What the store holds for the others. -/
def foreignPart (S : ChainStorage AccountId Moment Record Store) (raw : Store) :
    { key : List UInt8 // ForeignKey S key } → Option (List UInt8) :=
  fun key => S.get raw key.val

section Interleaving

variable {S : ChainStorage AccountId Moment Record Store} (documented : S.Documented)

include documented

/-- A write changes the part of the others as a function of that part. -/
theorem foreignPart_apply (write : ForeignWrite S) (raw : Store) :
    foreignPart S (write.apply raw) =
      Function.update (foreignPart S raw) ⟨write.key, write.foreign⟩ write.bytes := by
  funext key
  by_cases same : key = ⟨write.key, write.foreign⟩
  · rw [same, Function.update_self]
    exact write.get_apply_self documented raw
  · rw [Function.update_of_ne same]
    exact write.get_apply_of_ne documented raw fun equal => same (Subtype.ext equal)

/-- The calls leave the part of the others alone. -/
theorem foreignPart_dispatch (E : Encodings Failure AccountId Moment Record)
    (T : Trait Origin AccountId Moment Record)
    {extrinsic : Extrinsic Origin Moment Record}
    {state next : RawState Store AccountId Moment Record} {answer : Except DispatchError Unit}
    (returned : dispatchRaw S E T extrinsic state = some (answer, next)) :
    foreignPart S next.raw = foreignPart S state.raw := by
  funext key
  apply Operations.Preserves.dispatch T _ returned
  intro account signed
  exact rawOperations_preserves documented T key.property.2
    fun entry _ => (key.property.1 entry).symm

theorem foreignPart_foldl (writes : List (ForeignWrite S)) (raw : Store) :
    foreignPart S (writes.foldl (fun raw write => write.apply raw) raw) =
      writes.foldl (fun part write =>
        Function.update part ⟨write.key, write.foreign⟩ write.bytes) (foreignPart S raw) := by
  induction writes generalizing raw with
  | nil => rfl
  | cons write rest ih => rw [List.foldl_cons, List.foldl_cons, ih, foreignPart_apply documented]

end Interleaving

/-- For every interleaving of this pallet's calls with writes of other pallets,
from every store: the interleaving returns if and only if the typed pallet
returns on the calls alone, with the same results and events, and its store
decodes to the same maps; and under every foreign key the store holds what the
writes alone would have left there. -/
theorem pallets_do_not_interfere [DecidableEq AccountId]
    (S : ChainStorage AccountId Moment Record Store) (documented : S.Documented)
    (E : Encodings Failure AccountId Moment Record) (T : Trait Origin AccountId Moment Record)
    (steps : List (Extrinsic Origin Moment Record ⊕ ForeignWrite S))
    (state : RawState Store AccountId Moment Record) :
    run T (Machine.ownSteps steps) (state.typed S E) =
        (Machine.run (Machine.shared (dispatchRaw S E T) ForeignWrite.perform) steps state).map
          (Prod.map Machine.ownReceipts (RawState.typed S E)) ∧
      ∀ receipts last,
        Machine.run (Machine.shared (dispatchRaw S E T) ForeignWrite.perform) steps state =
          some (receipts, last) →
        ∀ key, ForeignKey S key →
          S.get last.raw key =
            S.get ((Machine.otherSteps steps).foldl (fun raw write => write.apply raw) state.raw)
              key := by
  constructor
  · exact Machine.run_shared_own (dispatchRaw S E T) (RawState.typed S E)
      (dispatch_typed documented T) (fun write => write.typed_perform documented E) steps state
  · intro receipts last ran key foreign
    have parts := Machine.run_shared_others (dispatchRaw S E T)
      (fun current => foreignPart S current.raw)
      (fun write part => Function.update part ⟨write.key, write.foreign⟩ write.bytes)
      (fun write current => foreignPart_apply documented write current.raw)
      (fun _ _ _ _ returned => foreignPart_dispatch documented E T returned) ran
    rw [← foreignPart_foldl documented] at parts
    exact congrFun parts ⟨key, foreign⟩

/-- A write of another pallet, between two calls. -/
def sampleWrite : ForeignWrite sampleStorage where
  key := [1]
  bytes := some [9]
  foreign := ⟨sampleStorage_storageKey_ne (by decide), by decide⟩

theorem pallets_do_not_interfere_other :
    ∃ receipts last,
      Machine.run (Machine.shared (dispatchRaw sampleStorage sampleEncodings sampleTrait)
        ForeignWrite.perform) [.inl sampleRecord, .inr sampleWrite, .inl sampleRecord]
          sampleState = some (receipts, last) ∧
      receipts.map Prod.snd = [some (.ok ()), none, some (.ok ())] ∧
      run sampleTrait [sampleRecord, sampleRecord]
          (sampleState.typed sampleStorage sampleEncodings) =
        some ([(sampleRecord, .ok ()), (sampleRecord, .ok ())],
          last.typed sampleStorage sampleEncodings) ∧
      sampleStorage.get last.raw [1] = some [9] := by
  rcases pallets_do_not_interfere sampleStorage sampleStorage_documented sampleEncodings
      sampleTrait [.inl sampleRecord, .inr sampleWrite, .inl sampleRecord] sampleState with
    ⟨own, others⟩
  have answers : (Machine.run (Machine.shared
      (dispatchRaw sampleStorage sampleEncodings sampleTrait) ForeignWrite.perform)
        [.inl sampleRecord, .inr sampleWrite, .inl sampleRecord] sampleState).map
          (fun outcome => outcome.1.map Prod.snd) =
      some [some (.ok ()), none, some (.ok ())] := by
    decide +kernel
  have typed : (run sampleTrait [sampleRecord, sampleRecord]
      (sampleState.typed sampleStorage sampleEncodings)).map Prod.fst =
      some [(sampleRecord, .ok ()), (sampleRecord, .ok ())] := by
    decide +kernel
  rcases Option.map_eq_some_iff.mp answers with ⟨⟨receipts, last⟩, ran, equal⟩
  refine ⟨receipts, last, ran, equal, ?_, ?_⟩
  · have alone : run sampleTrait [sampleRecord, sampleRecord]
        (sampleState.typed sampleStorage sampleEncodings) = _ := own
    rw [ran, Option.map_some, Prod.map_apply] at alone
    rw [alone] at typed
    have receiptsOwn : Machine.ownReceipts receipts = _ := Option.some.inj typed
    rw [alone, receiptsOwn]
  · rw [others receipts last ran [1] sampleWrite.foreign]
    decide +kernel

end Datalog
end IpciBlockchain
