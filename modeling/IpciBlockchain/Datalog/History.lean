import IpciBlockchain.Datalog.Accounts

namespace IpciBlockchain
namespace Datalog

open Foundation

/-!
# What an account has recorded

The abstract counterpart of an account's storage is its history: the records
that it stored since it last erased, and how many records each erased session
had.  A history is computed from the receipts of a run, that is from the
extrinsics and from the results they really had, and knows nothing of rings,
slots or windows.
-/

/-- The records of one account, divided into sessions by its erasures. -/
structure History (Moment Record : Type) where
  /-- How many records the erased sessions had, the latest session first. -/
  erasedCounts : List ℕ
  /-- The records since the last erasure, oldest first. -/
  log : List (RingBufferItem Moment Record)

namespace History

variable {Origin AccountId Moment Record : Type}

def empty : History Moment Record where
  erasedCounts := []
  log := []

/-- A successful `record`. -/
def push (history : History Moment Record) (item : RingBufferItem Moment Record) :
    History Moment Record :=
  { history with log := history.log ++ [item] }

/-- A successful `erase`. -/
def close (history : History Moment Record) : History Moment Record where
  erasedCounts := history.log.length :: history.erasedCounts
  log := []

variable [DecidableEq AccountId]

/-- What one receipt adds to the history of an account: nothing, unless the
account signed the extrinsic and the extrinsic succeeded. -/
def advance (T : Trait Origin AccountId Moment Record) (account : AccountId)
    (history : History Moment Record)
    (receipt : Extrinsic Origin Moment Record × Except DispatchError Unit) :
    History Moment Record :=
  match receipt with
  | (_, .error _) => history
  | (extrinsic, .ok ()) =>
      if extrinsic.caller T = some account then
        match extrinsic.call with
        | .record r => history.push ⟨extrinsic.now, r⟩
        | .erase => history.close
      else history

/-- The history of an account over the receipts of a run. -/
def ofReceipts (T : Trait Origin AccountId Moment Record) (account : AccountId)
    (receipts : List (Extrinsic Origin Moment Record × Except DispatchError Unit)) :
    History Moment Record :=
  receipts.foldl (advance T account) empty

/-! ## Histories and outcomes -/

variable {T : Trait Origin AccountId Moment Record}
  {extrinsic : Extrinsic Origin Moment Record} {account : AccountId}

theorem advance_of_caller_ne (foreign : extrinsic.caller T ≠ some account)
    (history : History Moment Record) (answer : Except DispatchError Unit) :
    history.advance T account (extrinsic, answer) = history := by
  cases answer with
  | error reason => rfl
  | ok => simp only [advance, if_neg foreign]

theorem advance_record (signed : T.ensureSigned extrinsic.origin = .ok account) {r : Record}
    (isRecord : extrinsic.call = .record r) (history : History Moment Record) :
    history.advance T account (extrinsic, .ok ()) = history.push ⟨extrinsic.now, r⟩ := by
  simp only [advance, (Extrinsic.caller_eq_some_iff T extrinsic account).mpr signed, if_true,
    isRecord]

theorem advance_erase (signed : T.ensureSigned extrinsic.origin = .ok account)
    (isErase : extrinsic.call = .erase) (history : History Moment Record) :
    history.advance T account (extrinsic, .ok ()) = history.close := by
  simp only [advance, (Extrinsic.caller_eq_some_iff T extrinsic account).mpr signed, if_true,
    isErase]

end History

/-! ## Histories from the extrinsics alone -/

variable {Origin AccountId Moment Record : Type}

/-- The pallet's own checks on an extrinsic: whether it succeeds does not
depend on the state. -/
def Extrinsic.accepted (T : Trait Origin AccountId Moment Record)
    (extrinsic : Extrinsic Origin Moment Record) : Bool :=
  (extrinsic.caller T).isSome &&
    match extrinsic.call with
    | .record r => decide (T.sizeHint r ≤ T.maximumMessageSize)
    | .erase => true

variable [DecidableEq AccountId]

theorem Outcome.accepted {T : Trait Origin AccountId Moment Record}
    {extrinsic : Extrinsic Origin Moment Record} {state next : State AccountId Moment Record}
    {answer : Except DispatchError Unit} (outcome : Outcome T extrinsic state answer next) :
    answer = .ok () ↔ extrinsic.accepted T = true := by
  cases outcome with
  | tooBig r isRecord exceeds =>
      simp [Extrinsic.accepted, isRecord, Nat.not_le_of_lt exceeds]
  | badOrigin fits unsigned => simp [Extrinsic.accepted, Extrinsic.caller, unsigned]
  | recorded account r isRecord fits signed =>
      simp [Extrinsic.accepted, Extrinsic.caller, signed, isRecord, fits]
  | erased account visited isErase signed collected =>
      simp [Extrinsic.accepted, Extrinsic.caller, signed, isErase]

/-- The history that an account's accepted extrinsics spell out. -/
def History.ofExtrinsics (T : Trait Origin AccountId Moment Record) (account : AccountId)
    (extrinsics : List (Extrinsic Origin Moment Record)) : History Moment Record :=
  History.ofReceipts T account
    ((extrinsics.filter (Extrinsic.accepted T)).map fun extrinsic => (extrinsic, .ok ()))

/-- In a run the two histories agree, since a result is decided by the checks
on the extrinsic. -/
theorem History.ofReceipts_eq_ofExtrinsics {T : Trait Origin AccountId Moment Record}
    (account : AccountId) {extrinsics : List (Extrinsic Origin Moment Record)}
    {state last : State AccountId Moment Record}
    {receipts : List (Extrinsic Origin Moment Record × Except DispatchError Unit)}
    (ran : run T extrinsics state = some (receipts, last)) :
    ofReceipts T account receipts = ofExtrinsics T account extrinsics := by
  unfold ofExtrinsics ofReceipts
  generalize empty = history
  induction extrinsics generalizing state receipts history with
  | nil => cases ran; rfl
  | cons extrinsic rest ih =>
      rcases (Machine.run_cons_eq_some_iff _ extrinsic rest state last receipts).mp ran with
        ⟨answer, middle, later, stepped, ranRest, rfl⟩
      have verdict := ((dispatch_eq_some_iff T ..).mp stepped).accepted
      rw [List.foldl_cons, ih ranRest]
      cases answer with
      | error reason =>
          have refused : ¬ extrinsic.accepted T = true := fun accepts =>
            nomatch verdict.mpr accepts
          rw [List.filter_cons_of_neg refused]
          rfl
      | ok =>
          rw [List.filter_cons_of_pos (verdict.mp rfl)]
          rfl

end Datalog
end IpciBlockchain
