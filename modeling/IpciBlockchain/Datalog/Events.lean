import IpciBlockchain.Datalog.Representation

namespace IpciBlockchain
namespace Datalog

open Foundation

/-!
# The event stream and the stored log

The pallet tells observers about its log through events, and `record` builds
its event from the item after the item went to storage.  An observer that
replays the events keeps its own bounded log; it agrees with `data` because
both follow the history of the account.

A call that fails does so before its first write, so failed calls are atomic
although the runtime would not roll them back.
-/

variable {Origin AccountId Moment Record : Type} [DecidableEq AccountId]

/-! ## Observers -/

/-- What an observer of one account, who keeps a bounded log, does with an
event. -/
def observe (limit : ℕ) (account : AccountId) (seen : List (RingBufferItem Moment Record)) :
    Event AccountId Moment Record → List (RingBufferItem Moment Record)
  | .newRecord sender moment r =>
      let item : RingBufferItem Moment Record := { now := moment, record := r }
      if sender = account then (seen ++ [item]).rtake limit else seen
  | .erased sender => if sender = account then [] else seen
  | .recordSent _ => seen

/-- The observer's log after a stream of events. -/
def replay (limit : ℕ) (account : AccountId) (events : List (Event AccountId Moment Record)) :
    List (RingBufferItem Moment Record) :=
  events.foldl (observe limit account) []

/-- The events that a receipt stands for. -/
def emitted (T : Trait Origin AccountId Moment Record)
    (receipt : Extrinsic Origin Moment Record × Except DispatchError Unit) :
    List (Event AccountId Moment Record) :=
  match receipt with
  | (_, .error _) => []
  | (extrinsic, .ok ()) =>
      match extrinsic.caller T with
      | none => []
      | some account =>
          match extrinsic.call with
          | .record r => [.newRecord account extrinsic.now r]
          | .erase => [.erased account]

/-- Observing the events of a receipt is advancing the history by it. -/
theorem foldl_observe_emitted (T : Trait Origin AccountId Moment Record) (limit : ℕ)
    (account : AccountId) (history : History Moment Record)
    (receipt : Extrinsic Origin Moment Record × Except DispatchError Unit) :
    (emitted T receipt).foldl (observe limit account) (history.log.rtake limit) =
      (history.advance T account receipt).log.rtake limit := by
  rcases receipt with ⟨extrinsic, answer⟩
  cases answer with
  | error reason => rfl
  | ok =>
      cases signed : extrinsic.caller T with
      | none => simp [emitted, History.advance, signed]
      | some sender =>
          by_cases own : sender = account
          · subst own
            cases called : extrinsic.call with
            | record r =>
                simp only [emitted, History.advance, signed, called, List.foldl_cons,
                  List.foldl_nil, observe, if_true, History.push]
                exact rtake_rtake_concat _ _ limit
            | erase =>
                simp [emitted, History.advance, signed, called, observe, History.close]
          · cases called : extrinsic.call <;>
              simp [emitted, History.advance, signed, called, observe, own]

/-- An observer of all events of a run keeps the end of the account's
history. -/
theorem replay_emitted (T : Trait Origin AccountId Moment Record) (limit : ℕ)
    (account : AccountId)
    (receipts : List (Extrinsic Origin Moment Record × Except DispatchError Unit)) :
    replay limit account (receipts.flatMap (emitted T)) =
      (History.ofReceipts T account receipts).log.rtake limit := by
  have follows : ∀ history : History Moment Record,
      (receipts.flatMap (emitted T)).foldl (observe limit account) (history.log.rtake limit) =
        (receipts.foldl (History.advance T account) history).log.rtake limit := by
    induction receipts with
    | nil => exact fun _ => rfl
    | cons receipt rest ih =>
        intro history
        rw [List.flatMap_cons, List.foldl_append, foldl_observe_emitted, ih, List.foldl_cons]
  have nothing : (History.empty : History Moment Record).log.rtake limit = [] := List.rtake_nil ..
  have fromEmpty := follows History.empty
  rw [nothing] at fromEmpty
  exact fromEmpty

/-! ## The events that are really deposited -/

/-- `deposit_event` appends the event, except in the genesis block. -/
def DepositsEvents (T : Trait Origin AccountId Moment Record) : Prop :=
  ∀ event system, system.blockNumber ≠ 0 →
    T.depositEvent event system = { system with events := system.events ++ [event] }

theorem outcome_system {T : Trait Origin AccountId Moment Record} (deposits : DepositsEvents T)
    {extrinsic : Extrinsic Origin Moment Record} {state next : State AccountId Moment Record}
    {answer : Except DispatchError Unit} (live : state.system.blockNumber ≠ 0)
    (outcome : Outcome T extrinsic state answer next) :
    next.system = { state.system with
      events := state.system.events ++ emitted T (extrinsic, answer) } := by
  cases outcome with
  | tooBig | badOrigin => simp only [emitted, List.append_nil]
  | recorded account r isRecord fits signed =>
      have caller := (Extrinsic.caller_eq_some_iff T extrinsic account).mpr signed
      simp only [State.recorded, deposits _ _ live, emitted, caller, isRecord]
  | erased account visited isErase signed collected =>
      have caller := (Extrinsic.caller_eq_some_iff T extrinsic account).mpr signed
      simp only [State.erased, deposits _ _ live, emitted, caller, isErase]

/-- A run appends exactly the events of its receipts. -/
theorem run_system {T : Trait Origin AccountId Moment Record} (deposits : DepositsEvents T)
    {extrinsics : List (Extrinsic Origin Moment Record)}
    {start last : State AccountId Moment Record}
    {receipts : List (Extrinsic Origin Moment Record × Except DispatchError Unit)}
    (live : start.system.blockNumber ≠ 0)
    (ran : run T extrinsics start = some (receipts, last)) :
    last.system = { start.system with
      events := start.system.events ++ receipts.flatMap (emitted T) } := by
  have tracked := Machine.run_tracks (dispatch T)
    (fun state events => state.system = { start.system with events := events })
    (fun events receipt => events ++ emitted T receipt)
    (fun extrinsic state answer next events follows returned => by
      have stillLive : state.system.blockNumber ≠ 0 := by
        rw [follows]
        exact live
      rw [outcome_system deposits stillLive ((dispatch_eq_some_iff T ..).mp returned), follows])
    start.system.events rfl ran
  rw [tracked, List.foldl_append_eq_append, List.flatMap_def]

/-- A failed call changes nothing at all. -/
theorem Outcome.eq_of_error {T : Trait Origin AccountId Moment Record}
    {extrinsic : Extrinsic Origin Moment Record} {state next : State AccountId Moment Record}
    {error : DispatchError} (outcome : Outcome T extrinsic state (.error error) next) :
    next = state := by
  cases outcome <;> rfl

/-- A successful call emits one event. -/
theorem Outcome.emitted_of_ok {T : Trait Origin AccountId Moment Record}
    {extrinsic : Extrinsic Origin Moment Record} {state next : State AccountId Moment Record}
    (outcome : Outcome T extrinsic state (.ok ()) next) :
    ∃ event, emitted T (extrinsic, .ok ()) = [event] := by
  cases outcome with
  | recorded account r isRecord fits signed =>
      have caller := (Extrinsic.caller_eq_some_iff T extrinsic account).mpr signed
      exact ⟨.newRecord account extrinsic.now r, by simp only [emitted, caller, isRecord]⟩
  | erased account visited isErase signed collected =>
      have caller := (Extrinsic.caller_eq_some_iff T extrinsic account).mpr signed
      exact ⟨.erased account, by simp only [emitted, caller, isErase]⟩

/-- From empty pallet storage at a live block, after any run (hence after any
prefix of a run): an observer who replays the events of the run holds exactly
what `data` returns, for every account; and the next call, whatever it is,
either fails and leaves storage and events as they were, or succeeds and
appends exactly one event. -/
theorem events_agree_with_log [Inhabited Moment] [Inhabited Record]
    (T : Trait Origin AccountId Moment Record) (positive : 1 ≤ T.windowSize)
    (deposits : DepositsEvents T) (start : State AccountId Moment Record)
    (fresh : start.storage = Storage.empty) (live : start.system.blockNumber ≠ 0)
    (extrinsics : List (Extrinsic Origin Moment Record)) :
    ∃ receipts state events, run T extrinsics start = some (receipts, state) ∧
      state.system.events = start.system.events ++ events ∧
      (∀ account, data T state.storage account =
        some (replay (T.windowSize.toNat - 1) account events)) ∧
      ∀ extrinsic, ∃ answer next, dispatch T extrinsic state = some (answer, next) ∧
        (∀ error, answer = .error error →
          next.storage = state.storage ∧ next.system.events = state.system.events) ∧
        (answer = .ok () →
          ∃ event, next.system.events = state.system.events ++ [event]) := by
  have positiveNat := window_toNat_pos positive
  rcases run_represents_fresh T positiveNat start fresh extrinsics with
    ⟨receipts, state, ran, represents⟩
  have system := run_system deposits live ran
  have stillLive : state.system.blockNumber ≠ 0 := by
    rw [system]
    exact live
  refine ⟨receipts, state, receipts.flatMap (emitted T), ran, by rw [system], ?_, ?_⟩
  · intro account
    rw [data_eq_account, (represents account).data, replay_emitted]
  · intro extrinsic
    rcases pointersInside_dispatch extrinsic state (pointersInside_of_represents represents) with
      ⟨answer, next, returned, _⟩
    have outcome := (dispatch_eq_some_iff T ..).mp returned
    refine ⟨answer, next, returned, ?_, ?_⟩
    · rintro error rfl
      rw [outcome.eq_of_error]
      exact ⟨rfl, rfl⟩
    · rintro rfl
      rcases outcome.emitted_of_ok with ⟨event, emits⟩
      exact ⟨event, by rw [outcome_system deposits stillLive outcome, emits]⟩

/-- A run of three calls, after which an unsigned `erase` fails. -/
theorem events_agree_with_log_runtime :
    ∃ state next,
      run (runtimeTrait ℕ) [recordBy 7 1 [1], eraseBy 7, recordBy 7 2 [2]] (freshState ℕ 1) =
        some ([(recordBy 7 1 [1], .ok ()), (eraseBy 7, .ok ()), (recordBy 7 2 [2], .ok ())],
          state) ∧
      state.system.events = [.newRecord 7 1 [1], .erased 7, .newRecord 7 2 [2]] ∧
      data (runtimeTrait ℕ) state.storage 7 = some [⟨2, [2]⟩] ∧
      dispatch (runtimeTrait ℕ) ⟨.none, 3, .erase⟩ state = some (.error .badOrigin, next) ∧
      next.storage = state.storage ∧ next.system.events = state.system.events := by
  rcases events_agree_with_log (runtimeTrait ℕ) (by decide) (fun _ _ live => if_neg live)
      (freshState ℕ 1) rfl (by decide) [recordBy 7 1 [1], eraseBy 7, recordBy 7 2 [2]] with
    ⟨receipts, state, events, ran, appended, reads, calls⟩
  have answers : (run (runtimeTrait ℕ) [recordBy 7 1 [1], eraseBy 7, recordBy 7 2 [2]]
      (freshState ℕ 1)).map Prod.fst =
      some [(recordBy 7 1 [1], .ok ()), (eraseBy 7, .ok ()), (recordBy 7 2 [2], .ok ())] := by
    decide +kernel
  have deposited : (run (runtimeTrait ℕ) [recordBy 7 1 [1], eraseBy 7, recordBy 7 2 [2]]
      (freshState ℕ 1)).map (fun outcome => outcome.2.system.events) =
      some [.newRecord 7 1 [1], .erased 7, .newRecord 7 2 [2]] := by
    decide +kernel
  rw [ran] at answers deposited
  cases answers
  have stored : state.system.events = _ := Option.some.inj deposited
  have emits : events = _ := appended.symm.trans stored
  rcases calls ⟨.none, 3, .erase⟩ with ⟨answer, next, returned, fails, _⟩
  have refused : dispatch (runtimeTrait ℕ) ⟨.none, 3, .erase⟩ state =
      some (.error .badOrigin, state) := rfl
  cases refused.symm.trans returned
  refine ⟨state, state, ran, stored, (reads 7).trans ?_, refused, fails .badOrigin rfl⟩
  rw [emits]
  decide

end Datalog
end IpciBlockchain
