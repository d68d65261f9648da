import IpciBlockchain.Datalog.Representation

namespace IpciBlockchain
namespace Datalog

open Foundation

/-!
# Changing the window of a running chain

The window is read from the runtime at every call, while the pointers of an
account stay in storage.  A runtime upgrade that changes the window therefore
reads old pointers with a new window, and nothing migrates them.

Old pointers have one of two shapes: either the start is still zero, or the
ring was full and the start is just past the end.  If the end is not below
the new window, the loops over the ring never stop.  If both pointers are, an
unwrapped log is read back unchanged, and a wrapped log with its middle cut
out; but if the window has grown, the loop over a wrapped log runs through
slots that the old window never had, and `data` returns default items which
the account did not record.  There remains a shrunk window between the end and
the start of a wrapped log: this loop counts up to the last `u64` before it
can turn to the end, and nothing is said here of a list as long as that.
-/

variable {Origin AccountId Moment Record : Type}

/-- The same runtime with another window. -/
def Trait.withWindow (T : Trait Origin AccountId Moment Record) (window : UInt64) :
    Trait Origin AccountId Moment Record :=
  { T with windowSize := window }

/-! ## The shape of reachable pointers -/

namespace Represents

variable {max : UInt64} {positive : 0 < max.toNat} {history : History Moment Record}
  {part : AccountStorage Moment Record}

/-- Reachable pointers either still start at zero, or belong to a full ring,
whose start is just past its end. -/
theorem pointers_shape (represents : Represents positive history part) :
    part.pointers.start = 0 ∨ part.pointers.start.toNat = part.pointers.end_.toNat + 1 := by
  rw [represents.pointers]
  by_cases room : history.log.length < max.toNat
  · have zero := slots_place_zero positive
    have none : history.log.length - (max.toNat - 1) = 0 := by omega
    rw [none]
    exact Or.inl zero
  · have full : max.toNat ≤ history.log.length + 1 := by omega
    have turn := place_start_of_full positive full
    have stepped := RingBufferIndex.next_toNat_of_lt
      (slots_place_lt positive history.log.length)
    rw [RingBufferIndex.next_place] at stepped
    simp only [turn]
    by_cases atEnd : ((slots max positive).place history.log.length).toNat + 1 = max.toNat
    · rw [if_pos atEnd] at stepped
      exact Or.inl (UInt64.toNat_inj.mp stepped)
    · rw [if_neg atEnd] at stepped
      exact Or.inr stepped

/-- Under any other window the loop stops exactly when the window contains the
end: a start that climbs towards its end from outside the window does not
occur. -/
theorem terminates_iff (represents : Represents positive history part) {window : UInt64}
    (positive' : 0 < window) :
    (part.pointers.iter window).Terminates ↔ part.pointers.end_ < window := by
  rw [Datalog.terminates_iff positive']
  apply or_iff_left
  rintro ⟨outside, below⟩
  rcases represents.pointers_shape with zero | past
  · rw [zero] at outside
    exact absurd positive' (UInt64.not_lt.mpr outside)
  · have order := UInt64.le_iff_toNat_le.mp below
    omega

/-- If the new window contains both pointers, and has not grown if the log is
wrapped, its loop visits some of the old live slots in the old order. -/
theorem collect_sublist (represents : Represents positive history part) {window : UInt64}
    (startContained : part.pointers.start < window) (contains : part.pointers.end_ < window)
    (fits : part.pointers.end_ < part.pointers.start → window ≤ max) :
    ∃ visited, (part.pointers.iter window).collect = some visited ∧
      visited.Sublist (live positive history) := by
  rcases represents.pointers_lt with ⟨startInside, endInside⟩
  have old := collect_of_lt startInside endInside
  rw [represents.collect, Option.some.injEq] at old
  refine ⟨_, collect_of_lt startContained contains, ?_⟩
  rw [old]
  by_cases wrapped : part.pointers.end_ < part.pointers.start
  · have order := UInt64.le_iff_toNat_le.mp (fits wrapped)
    rw [if_pos wrapped, if_pos wrapped]
    exact (numbers_sublist _ (by omega)).append_right _
  · rw [if_neg wrapped, if_neg wrapped]

/-- If the window has grown, the loop over a wrapped log visits the first slot
that the old window did not have. -/
theorem collect_beyond (represents : Represents positive history part) {window : UInt64}
    (startContained : part.pointers.start < window)
    (wrapped : part.pointers.end_ < part.pointers.start) (larger : max < window) :
    ∃ visited, (part.pointers.iter window).collect = some visited ∧ max ∈ visited := by
  have startNat := UInt64.lt_iff_toNat_lt.mp represents.pointers_lt.1
  have order := UInt64.lt_iff_toNat_lt.mp larger
  refine ⟨_, collect_of_lt startContained (UInt64.lt_trans wrapped startContained), ?_⟩
  rw [if_pos wrapped]
  exact List.mem_append_left _ (mem_numbers max startNat.le (by omega))

/-- No item is present at the first slot that the window does not have. -/
theorem items_max (represents : Represents positive history part) : part.items max = none := by
  apply Option.not_isSome_iff_eq_none.mp
  intro present
  rcases (represents.present max).mp present with below | left
  · omega
  · have inside := residue_lt positive left
    omega

/-- What a changed window reads is part of the log, in recording order. -/
theorem data_sublist [Inhabited Moment] [Inhabited Record]
    (represents : Represents positive history part) {window : UInt64}
    (startContained : part.pointers.start < window) (contains : part.pointers.end_ < window)
    (fits : part.pointers.end_ < part.pointers.start → window ≤ max) :
    ∃ items, part.data window = some items ∧ items.Sublist history.log := by
  rcases represents.collect_sublist startContained contains fits with
    ⟨visited, collected, sublist⟩
  have old := represents.data
  rw [AccountStorage.data, represents.collect, Option.map_some, Option.some.injEq] at old
  refine ⟨visited.map part.items.get, by rw [AccountStorage.data, collected, Option.map_some], ?_⟩
  have within := sublist.map part.items.get
  rw [old] at within
  exact within.trans (List.drop_sublist _ _)

end Represents

/-! ## Upgrades of a running chain -/

variable [DecidableEq AccountId]

/-- What reading and erasing an account's log do under another window, where
`log` is what the account recorded since it last erased.  Neither returns if
the end is outside the window, and both return if the two pointers are inside.
What `data` returns is then a sublist of the log, unless the log is wrapped and
the window has grown: in that case the loop visits a slot that is absent from
storage, for which `data` returns a default item.  If only a start is outside
the window, the loop has not ended when its counter arrives at `2 ^ 64`. -/
structure AfterWindowChange [Inhabited Moment] [Inhabited Record]
    (T : Trait Origin AccountId Moment Record) (window : UInt64)
    (state : State AccountId Moment Record) (account : AccountId) (idx : RingBufferIndex)
    (log : List (RingBufferItem Moment Record)) : Prop where
  data_never : window ≤ idx.end_ → data (T.withWindow window) state.storage account = none
  erase_never : window ≤ idx.end_ → ∀ eraser, eraser.call = .erase →
    T.ensureSigned eraser.origin = .ok account →
    dispatch (T.withWindow window) eraser state = none
  data_sublist : idx.start < window → idx.end_ < window →
    (idx.end_ < idx.start → window ≤ T.windowSize) →
    ∃ items, data (T.withWindow window) state.storage account = some items ∧ items.Sublist log
  data_fabricates : idx.start < window → idx.end_ < idx.start → T.windowSize < window →
    ∃ visited slot items, (idx.iter window).collect = some visited ∧ slot ∈ visited ∧
      state.storage.datalogItem (account, slot) = none ∧
      data (T.withWindow window) state.storage account = some items ∧ default ∈ items
  erase_returns : idx.start < window → idx.end_ < window → ∀ eraser, eraser.call = .erase →
    T.ensureSigned eraser.origin = .ok account →
    (dispatch (T.withWindow window) eraser state).isSome = true
  counts_up : window ≤ idx.start → idx.end_ < window →
    ∀ calls, calls ≤ 2 ^ 64 - idx.start.toNat → (idx.iter window).drain calls = none

/-- After any run under one window, let the window change: what becomes of
each account's log is decided by the account's pointers as `AfterWindowChange`
says. -/
theorem data_after_window_change [Inhabited Moment] [Inhabited Record]
    (T : Trait Origin AccountId Moment Record) (positive : 1 ≤ T.windowSize)
    (window : UInt64) (positive' : 1 ≤ window) (start : State AccountId Moment Record)
    (fresh : start.storage = Storage.empty)
    (extrinsics : List (Extrinsic Origin Moment Record)) :
    ∃ receipts state, run T extrinsics start = some (receipts, state) ∧
      ∀ account, AfterWindowChange T window state account
        (state.storage.datalogIndex.get account) (History.ofReceipts T account receipts).log := by
  rcases run_represents_fresh T (window_toNat_pos positive) start fresh extrinsics with
    ⟨receipts, state, ran, representsAll⟩
  refine ⟨receipts, state, ran, fun account => ?_⟩
  have represents := representsAll account
  have stops := represents.terminates_iff (UInt64.lt_iff_toNat_lt.mpr (window_toNat_pos positive'))
  have erases : ∀ eraser, eraser.call = .erase → T.ensureSigned eraser.origin = .ok account →
      ((dispatch (T.withWindow window) eraser state).isSome = true ↔
        (state.storage.datalogIndex.get account).end_ < window) := fun eraser isErase signed =>
    (dispatch_erase_isSome_iff (T.withWindow window) eraser isErase signed state).trans stops
  refine ⟨?_, ?_, represents.data_sublist, ?_, ?_, ?_⟩
  · intro outside
    have endless : ((state.storage.datalogIndex.get account).iter window).collect = none := by
      apply Option.not_isSome_iff_eq_none.mp
      rw [collect_isSome_iff]
      exact fun terminates => UInt64.not_lt.mpr outside (stops.mp terminates)
    exact congrArg (Option.map _) endless
  · intro outside eraser isErase signed
    apply Option.not_isSome_iff_eq_none.mp
    rw [erases eraser isErase signed]
    exact UInt64.not_lt.mpr outside
  · intro startContained wrapped larger
    rcases represents.collect_beyond startContained wrapped larger with
      ⟨visited, collected, member⟩
    have absent : state.storage.datalogItem (account, T.windowSize) = none := represents.items_max
    refine ⟨visited, T.windowSize, _, collected, member, absent,
      congrArg (Option.map _) collected, ?_⟩
    apply List.mem_map.mpr
    refine ⟨T.windowSize, member, ?_⟩
    unfold StorageMap.get
    rw [absent, Option.getD_none]
  · intro _ contained eraser isErase signed
    exact (erases eraser isErase signed).mpr contained
  · intro outside contained calls few
    exact drain_eq_none_of_climb outside contained few

/-- Four records in a window of three slots leave the pointers (2, 1), here read
under windows of one, two and five slots. -/
theorem data_after_window_change_shrunk :
    ∃ receipts state,
      run (byteTrait ℕ 3 512) [recordBy 7 1 [1], recordBy 7 2 [2], recordBy 7 3 [3],
        recordBy 7 4 [4]] (freshState ℕ 1) = some (receipts, state) ∧
      data (byteTrait ℕ 1 512) state.storage 7 = none ∧
      (∀ calls, calls ≤ 2 ^ 64 - 2 → (RingBufferIndex.iter ⟨2, 1⟩ 2).drain calls = none) ∧
      ∃ items, data (byteTrait ℕ 5 512) state.storage 7 = some items ∧ default ∈ items := by
  have outcome : (run (byteTrait ℕ 3 512) [recordBy 7 1 [1], recordBy 7 2 [2], recordBy 7 3 [3],
      recordBy 7 4 [4]] (freshState ℕ 1)).map
        (fun outcome => outcome.2.storage.datalogIndex.get 7) = some ⟨2, 1⟩ := by
    decide +kernel
  rcases Option.map_eq_some_iff.mp outcome with ⟨⟨receipts, state⟩, ran, pointers⟩
  have after : ∀ window : UInt64, 1 ≤ window → AfterWindowChange (byteTrait ℕ 3 512) window state 7
      ⟨2, 1⟩ (History.ofReceipts (byteTrait ℕ 3 512) 7 receipts).log := by
    intro window positive
    rcases data_after_window_change (byteTrait ℕ 3 512) (by decide) window positive
        (freshState ℕ 1) rfl [recordBy 7 1 [1], recordBy 7 2 [2], recordBy 7 3 [3],
          recordBy 7 4 [4]] with
      ⟨receipts', state', ran', changed⟩
    cases ran.symm.trans ran'
    rw [← pointers]
    exact changed 7
  rcases (after 5 (by decide)).data_fabricates (by decide) (by decide) (by decide) with
    ⟨_, _, items, _, _, _, read, member⟩
  exact ⟨receipts, state, ran, (after 1 (by decide)).data_never (by decide),
    (after 2 (by decide)).counts_up (by decide) (by decide), items, read, member⟩

/-- Four records wrap a window of three slots.  With a window of five, two of
the items read back were never recorded; with a window of one, the loop over
the stored pointers does not stop. -/
theorem window_change_breaks_log :
    (run (byteTrait ℕ 3 512) [recordBy 7 1 [1], recordBy 7 2 [2], recordBy 7 3 [3],
        recordBy 7 4 [4]] (freshState ℕ 1)).map
        (fun outcome => (outcome.2.storage.datalogIndex 7,
          data (byteTrait ℕ 5 512) outcome.2.storage 7)) =
      some (some ⟨2, 1⟩, some [⟨3, [3]⟩, ⟨0, []⟩, ⟨0, []⟩, ⟨4, [4]⟩]) ∧
    ¬ (RingBufferIndex.iter ⟨2, 1⟩ 1).Terminates := by
  constructor
  · decide +kernel
  · rw [Datalog.terminates_iff (by decide)]
    decide

end Datalog
end IpciBlockchain
