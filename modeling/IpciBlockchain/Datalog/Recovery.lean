import IpciBlockchain.Datalog.Representation

namespace IpciBlockchain
namespace Datalog

open Foundation

/-!
# Logs over storage of any content

The representation invariant describes storage that the pallet itself wrote
under one window.  After a runtime upgrade, or under a genesis state that some
tool assembled, the pointers of an account may stand anywhere and the slots
between them may be empty or hold anything.

As long as both pointers are inside the window none of this matters for long.
What `data` returns is itself the abstract state: every successful `record`
appends to it and cuts it at the window, every successful `erase` clears it.
Hence whatever was there at the start is forgotten after `W - 1` records or
one erasure, and from then on the log is exact.
-/

/-! ## Pointers inside the window -/

/-- Pointers inside the window are the ends of a walk of less than a turn. -/
theorem exists_walk {max : UInt64} (positive : 0 < max.toNat) {index : RingBufferIndex}
    (startInside : index.start < max) (endInside : index.end_ < max) :
    ∃ start count, count < max.toNat ∧
      index = { start := (slots max positive).place start
                end_ := (slots max positive).place (start + count) } := by
  refine ⟨index.start.toNat, (index.end_.toNat + max.toNat - index.start.toNat) % max.toNat,
    Nat.mod_lt _ positive, ?_⟩
  have startNat := UInt64.lt_iff_toNat_lt.mp startInside
  have endNat := UInt64.lt_iff_toNat_lt.mp endInside
  have meets : (slots max positive).place (index.start.toNat +
      (index.end_.toNat + max.toNat - index.start.toNat) % max.toNat) = index.end_ := by
    apply UInt64.toNat_inj.mp
    have lap : index.start.toNat + (index.end_.toNat + max.toNat - index.start.toNat) =
        index.end_.toNat + max.toNat := by omega
    rw [slots_place_toNat, Nat.add_mod_mod, lap, Nat.add_mod_right, Nat.mod_eq_of_lt endNat]
  rw [slots_place_of_lt positive startInside, meets]

/-- `add` lengthens a walk at its end and, when the ring is full, shortens it
at its start. -/
theorem add_walk {max : UInt64} (positive : 0 < max.toNat) (start count : ℕ)
    (short : count < max.toNat) :
    RingBufferIndex.add
        { start := (slots max positive).place start
          end_ := (slots max positive).place (start + count) } max =
      ((slots max positive).place (start + count),
        { start := (slots max positive).place (start + (count + 1 - (max.toNat - 1)))
          end_ := (slots max positive).place (start + count + 1) }) := by
  simp only [RingBufferIndex.add, RingBufferIndex.next_place]
  by_cases room : count + 1 < max.toNat
  · have apart := (slots max positive).place_ne_of_lt (j := start) (k := start + count + 1)
      (by omega) (by rw [slots_size]; omega)
    have unmoved : start + (count + 1 - (max.toNat - 1)) = start := by omega
    rw [if_neg apart, unmoved]
  · have turn := (slots max positive).periodic start
    have lap : start + (slots max positive).size = start + count + 1 := by
      rw [slots_size]
      omega
    have moved : start + (count + 1 - (max.toNat - 1)) = start + 1 := by omega
    rw [lap] at turn
    rw [if_pos turn.symm, moved]

/-- A walk inside the window leaves one slot out. -/
theorem length_collect_lt {index : RingBufferIndex} {max : UInt64} {visited : List UInt64}
    (startInside : index.start < max) (endInside : index.end_ < max)
    (collected : (index.iter max).collect = some visited) : visited.length < max.toNat := by
  have positive : 0 < max.toNat := by
    have startNat := UInt64.lt_iff_toNat_lt.mp startInside
    omega
  rcases exists_walk positive startInside endInside with ⟨start, count, short, walk⟩
  rw [walk, collect_window positive start count short, Option.some.injEq] at collected
  rw [← collected, CellRing.length_window]
  exact short

/-! ## The log as the abstract state -/

namespace AccountStorage

variable {Moment Record : Type} [Inhabited Moment] [Inhabited Record]

theorem data_of_walk {max : UInt64} (positive : 0 < max.toNat)
    {part : AccountStorage Moment Record} {start count : ℕ} (short : count < max.toNat)
    (walk : part.pointers =
      { start := (slots max positive).place start
        end_ := (slots max positive).place (start + count) }) :
    part.data max = some (((slots max positive).window start count).map part.items.get) := by
  rw [data, walk, collect_window positive start count short, Option.map_some]

/-- Inside the window a log is returned, and it is shorter than the window. -/
theorem exists_data {max : UInt64} {part : AccountStorage Moment Record}
    (startInside : part.pointers.start < max) (endInside : part.pointers.end_ < max) :
    ∃ log, part.data max = some log ∧ log.length < max.toNat := by
  have positive : 0 < max.toNat := by
    have startNat := UInt64.lt_iff_toNat_lt.mp startInside
    omega
  rcases exists_walk positive startInside endInside with ⟨start, count, short, walk⟩
  refine ⟨_, data_of_walk positive short walk, ?_⟩
  rw [List.length_map, CellRing.length_window]
  exact short

/-- `record` appends to the log and cuts it at the window, whatever the slots
held before. -/
theorem data_recorded {max : UInt64} {part : AccountStorage Moment Record}
    (startInside : part.pointers.start < max) (endInside : part.pointers.end_ < max)
    (item : RingBufferItem Moment Record) {log : List (RingBufferItem Moment Record)}
    (reads : part.data max = some log) :
    (part.recorded max item).data max = some ((log ++ [item]).rtake (max.toNat - 1)) := by
  have positive : 0 < max.toNat := by
    have startNat := UInt64.lt_iff_toNat_lt.mp startInside
    omega
  rcases exists_walk positive startInside endInside with ⟨start, count, short, walk⟩
  have before := data_of_walk positive short walk
  rw [reads, Option.some.injEq] at before
  have added := add_walk positive start count short
  rw [← walk] at added
  have stop : start + (count + 1 - (max.toNat - 1)) + min (count + 1) (max.toNat - 1) =
      start + count + 1 := by omega
  have walk' : (part.recorded max item).pointers =
      { start := (slots max positive).place (start + (count + 1 - (max.toNat - 1)))
        end_ := (slots max positive).place (start + (count + 1 - (max.toNat - 1)) +
          min (count + 1) (max.toNat - 1)) } := by
    rw [stop]
    exact congrArg Prod.snd added
  have items : (part.recorded max item).items.get =
      Function.update part.items.get ((slots max positive).place (start + count)) item := by
    simp only [recorded, added]
    exact StorageMap.get_insert part.items _ item
  have cut : ∀ cells : List UInt64, ∀ read : UInt64 → RingBufferItem Moment Record,
      (cells.rtake (max.toNat - 1)).map read = (cells.map read).rtake (max.toNat - 1) := by
    intro cells read
    simp only [List.rtake, List.map_drop, List.length_map]
  rw [data_of_walk positive (by omega) walk', items, before, ← CellRing.window_rtake, cut,
    CellRing.map_window_update _ _ _ _ short]

/-- `erase` leaves an empty log, whichever slots it visited. -/
theorem data_erased {max : UInt64} (positive : 0 < max.toNat)
    (part : AccountStorage Moment Record) (visited : List UInt64) :
    (part.erased visited).data max = some [] := by
  have zero := slots_place_zero positive
  have walk : (part.erased visited).pointers =
      { start := (slots max positive).place 0, end_ := (slots max positive).place (0 + 0) } := by
    rw [zero]
    rfl
  exact data_of_walk positive positive walk

end AccountStorage

/-! ## Runs from any storage -/

variable {Origin AccountId Moment Record : Type}

/-- What is read back of a log that started as `before` and has seen a
history since. -/
def History.readBack (limit : ℕ) (before : List (RingBufferItem Moment Record))
    (history : History Moment Record) : List (RingBufferItem Moment Record) :=
  ((if history.erasedCounts = [] then before else []) ++ history.log).rtake limit

theorem History.readBack_push (limit : ℕ) (before : List (RingBufferItem Moment Record))
    (history : History Moment Record) (item : RingBufferItem Moment Record) :
    (history.push item).readBack limit before =
      (history.readBack limit before ++ [item]).rtake limit := by
  unfold readBack push
  rw [rtake_rtake_concat, List.append_assoc]

theorem History.readBack_close (limit : ℕ) (before : List (RingBufferItem Moment Record))
    (history : History Moment Record) : history.close.readBack limit before = [] := by
  simp [readBack, close]

/-- Once the account has erased, or has recorded as much as is kept, nothing
is left of what was there at the start. -/
theorem History.readBack_of_forgotten {limit : ℕ} (before : List (RingBufferItem Moment Record))
    {history : History Moment Record}
    (forgotten : history.erasedCounts ≠ [] ∨ limit ≤ history.log.length) :
    history.readBack limit before = history.log.rtake limit := by
  unfold readBack
  rcases forgotten with erased | refilled
  · rw [if_neg erased, List.nil_append]
  · unfold List.rtake
    rw [List.length_append, Nat.add_sub_assoc refilled, List.drop_append]
    simp

variable [DecidableEq AccountId] [Inhabited Moment] [Inhabited Record]

/-- Every account's log is what its history made of the log at the start. -/
structure LogsFollow (T : Trait Origin AccountId Moment Record)
    (before : AccountId → List (RingBufferItem Moment Record))
    (state : State AccountId Moment Record) (histories : AccountId → History Moment Record) :
    Prop where
  inside : state.storage.PointersInside T.windowSize
  reads : ∀ account, data T state.storage account =
    some ((histories account).readBack (T.windowSize.toNat - 1) (before account))

/-- The step of the simulation. -/
theorem logsFollow_outcome {T : Trait Origin AccountId Moment Record}
    {before : AccountId → List (RingBufferItem Moment Record)}
    {extrinsic : Extrinsic Origin Moment Record} {state next : State AccountId Moment Record}
    {answer : Except DispatchError Unit} {histories : AccountId → History Moment Record}
    (follow : LogsFollow T before state histories)
    (outcome : Outcome T extrinsic state answer next) :
    LogsFollow T before next (advanceAll T histories (extrinsic, answer)) := by
  refine ⟨pointersInside_next follow.inside outcome, fun account => ?_⟩
  by_cases own : extrinsic.caller T = some account
  · have signature := (Extrinsic.caller_eq_some_iff T extrinsic account).mp own
    cases outcome with
    | tooBig | badOrigin => exact follow.reads account
    | recorded sender r isRecord fits signed =>
        cases Except.ok.inj (signature.symm.trans signed)
        rw [advanceAll, History.advance_record signature isRecord, History.readBack_push,
          data_eq_account]
        simp only [State.recorded, account_recorded_self]
        exact AccountStorage.data_recorded (follow.inside account).1 (follow.inside account).2 _
          (follow.reads account)
    | erased sender visited isErase signed collected =>
        cases Except.ok.inj (signature.symm.trans signed)
        have positive : 0 < T.windowSize.toNat := by
          have startNat := UInt64.lt_iff_toNat_lt.mp (follow.inside account).1
          omega
        rw [advanceAll, History.advance_erase signature isErase, History.readBack_close,
          data_eq_account]
        simp only [State.erased, account_erased_self]
        exact AccountStorage.data_erased positive _ visited
  · rw [advanceAll, History.advance_of_caller_ne own, data_eq_account,
      account_of_caller_ne own outcome]
    exact follow.reads account

theorem run_logsFollow (T : Trait Origin AccountId Moment Record)
    (state : State AccountId Moment Record)
    (inside : state.storage.PointersInside T.windowSize)
    (extrinsics : List (Extrinsic Origin Moment Record)) :
    ∃ before : AccountId → List (RingBufferItem Moment Record), ∃ receipts last,
      run T extrinsics state = some (receipts, last) ∧
      (∀ account, data T state.storage account = some (before account)) ∧
      LogsFollow T before last fun account => History.ofReceipts T account receipts := by
  have reads : ∀ account, ∃ log, data T state.storage account = some log ∧
      log.length < T.windowSize.toNat := by
    intro account
    rw [data_eq_account]
    exact AccountStorage.exists_data (inside account).1 (inside account).2
  choose before reads short using reads
  have initial : LogsFollow T before state fun _ => History.empty := by
    refine ⟨inside, fun account => ?_⟩
    have whole := short account
    rw [reads account, History.readBack, History.empty, if_pos rfl, List.append_nil, List.rtake,
      Nat.sub_eq_zero_of_le (by omega), List.drop_zero]
  have step : ∀ extrinsic (state : State AccountId Moment Record) histories,
      LogsFollow T before state histories →
        ∃ answer next, dispatch T extrinsic state = some (answer, next) ∧
          LogsFollow T before next (advanceAll T histories (extrinsic, answer)) := by
    intro extrinsic state histories follow
    rcases pointersInside_dispatch extrinsic state follow.inside with ⟨answer, next, returned, _⟩
    exact ⟨answer, next, returned,
      logsFollow_outcome follow ((dispatch_eq_some_iff T ..).mp returned)⟩
  rcases Machine.run_simulates (dispatch T) (LogsFollow T before) (advanceAll T) step extrinsics
      _ initial with ⟨receipts, last, ran, final⟩
  refine ⟨before, receipts, last, ran, reads, final.inside, fun account => ?_⟩
  have follows := final.reads account
  rw [foldl_advanceAll] at follows
  exact follows

/-- From any storage whose pointers are inside the window, and whatever its
slots hold, every run returns, and what `data` returns after it is what it
returned before it with the accepted calls of the account applied: cleared by
`erase`, appended to by `record`, and cut at the window. -/
theorem data_from_any_storage (T : Trait Origin AccountId Moment Record)
    (state : State AccountId Moment Record)
    (inside : state.storage.PointersInside T.windowSize)
    (extrinsics : List (Extrinsic Origin Moment Record)) :
    ∃ before : AccountId → List (RingBufferItem Moment Record), ∃ receipts last,
      run T extrinsics state = some (receipts, last) ∧
      (∀ account, data T state.storage account = some (before account)) ∧
      ∀ account, data T last.storage account =
        some ((History.ofReceipts T account receipts).readBack (T.windowSize.toNat - 1)
          (before account)) := by
  rcases run_logsFollow T state inside extrinsics with ⟨before, receipts, last, ran, reads, follow⟩
  exact ⟨before, receipts, last, ran, reads, follow.reads⟩

/-- A ring of three slots whose pointers enclose a slot that was never
written. -/
def gappedState : State ℕ UInt64 (List UInt8) where
  storage := { (Storage.empty : Storage ℕ UInt64 (List UInt8)) with
    datalogIndex := StorageMap.empty.insert 7 ⟨1, 0⟩
    datalogItem := StorageMap.empty.insert (7, 2) ⟨5, [5]⟩ }
  system := { blockNumber := 1, events := [] }
  trace := []

theorem pointersInside_gappedState : gappedState.storage.PointersInside 3 := by
  intro account
  by_cases same : account = 7
  · subst same
    decide
  · have untouched : gappedState.storage.datalogIndex.get account = default := by
      rw [gappedState, StorageMap.get_insert, Function.update_of_ne same]
      rfl
    rw [untouched]
    decide

/-- The slot that was never written reads as a default item, and one `record`
later it has left the log. -/
theorem data_from_any_storage_gapped :
    ∃ last,
      run (byteTrait ℕ 3 512) [recordBy 7 6 [6]] gappedState =
        some ([(recordBy 7 6 [6], .ok ())], last) ∧
      data (byteTrait ℕ 3 512) gappedState.storage 7 = some [⟨0, []⟩, ⟨5, [5]⟩] ∧
      data (byteTrait ℕ 3 512) last.storage 7 = some [⟨5, [5]⟩, ⟨6, [6]⟩] := by
  rcases data_from_any_storage (byteTrait ℕ 3 512) gappedState pointersInside_gappedState
      [recordBy 7 6 [6]] with ⟨before, receipts, last, ran, reads, after⟩
  have answers : (run (byteTrait ℕ 3 512) [recordBy 7 6 [6]] gappedState).map Prod.fst =
      some [(recordBy 7 6 [6], .ok ())] := by
    decide +kernel
  have first : data (byteTrait ℕ 3 512) gappedState.storage 7 = some [⟨0, []⟩, ⟨5, [5]⟩] := by
    decide +kernel
  rw [ran] at answers
  cases answers
  have held : before 7 = _ := Option.some.inj ((reads 7).symm.trans first)
  refine ⟨last, ran, first, (after 7).trans ?_⟩
  rw [held]
  decide

end Datalog
end IpciBlockchain
