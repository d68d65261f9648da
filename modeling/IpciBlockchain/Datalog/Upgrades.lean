import IpciBlockchain.Datalog.Recovery
import IpciBlockchain.Datalog.WindowChange

namespace IpciBlockchain
namespace Datalog

open Foundation

/-!
# A chain through many releases

A release of the runtime fixes a window, and the chain runs through releases
one after the other over the same storage.  Two directions have to be told
apart.

If the windows never shrink, pointers stay inside them.  Every call of every
release returns, and in each release an account's log is exact again as soon
as the account has erased or has filled the new window once.

If a window shrinks to the end of an account or below, the account is locked
out.  Its pointers climb towards `2 ^ 64` with every record, `data` has no
answer on the way, and an `erase`, which would reset them, never returns.
-/

variable {Origin AccountId Moment Record : Type}

/-- The window that a runtime release fixes, and the extrinsics that arrive
while it is in force. -/
structure Release (Origin Moment Record : Type) where
  windowSize : UInt64
  extrinsics : List (Extrinsic Origin Moment Record)

theorem Storage.PointersInside.mono {storage : Storage AccountId Moment Record}
    {window window' : UInt64} (inside : storage.PointersInside window) (le : window ≤ window') :
    storage.PointersInside window' :=
  fun account => ⟨UInt64.lt_of_lt_of_le (inside account).1 le,
    UInt64.lt_of_lt_of_le (inside account).2 le⟩

section Growing

variable [DecidableEq AccountId]

/-- A release as one step: all of its extrinsics, under its window. -/
def release (T : Trait Origin AccountId Moment Record) :
    Machine (Release Origin Moment Record)
      (List (Extrinsic Origin Moment Record × Except DispatchError Unit))
      (State AccountId Moment Record) :=
  fun current => run (T.withWindow current.windowSize) current.extrinsics

/-- Through releases with growing windows every call returns, and the
pointers are inside every window that is at least as large as theirs. -/
theorem run_release_returns (T : Trait Origin AccountId Moment Record) {window : UInt64}
    (releases : List (Release Origin Moment Record)) {state : State AccountId Moment Record}
    (inside : state.storage.PointersInside window)
    (grow : (window :: releases.map Release.windowSize).Pairwise (· ≤ ·)) :
    ∃ receipts last, Machine.run (release T) releases state = some (receipts, last) ∧
      ∀ bound, window ≤ bound → (∀ earlier ∈ releases, earlier.windowSize ≤ bound) →
        last.storage.PointersInside bound := by
  induction releases generalizing window state with
  | nil => exact ⟨[], state, rfl, fun bound le _ => inside.mono le⟩
  | cons current rest ih =>
      rcases List.pairwise_cons.mp grow with ⟨above, growRest⟩
      have insideNow := inside.mono (above current.windowSize List.mem_cons_self)
      rcases Machine.run_returns (dispatch (T.withWindow current.windowSize))
          pointersInside_dispatch current.extrinsics insideNow with
        ⟨receipts, middle, ran, insideMiddle⟩
      rcases ih insideMiddle growRest with ⟨later, last, ranRest, insideLast⟩
      refine ⟨(current, receipts) :: later, last,
        (Machine.run_cons_eq_some_iff (release T) current rest state last _).mpr
          ⟨receipts, middle, later, ran, ranRest, rfl⟩, fun bound _ below => ?_⟩
      exact insideLast bound (below current List.mem_cons_self)
        fun earlier member => below earlier (List.mem_cons_of_mem current member)

/-- Through any number of releases whose windows never shrink, and from any
storage with pointers inside the first window, every call returns, and in the
current release the log of an account that has erased or has recorded as much
as is kept is exactly the end of what the account recorded in this release. -/
theorem growing_windows_heal [Inhabited Moment] [Inhabited Record]
    (T : Trait Origin AccountId Moment Record) (window : UInt64)
    (state : State AccountId Moment Record) (inside : state.storage.PointersInside window)
    (releases : List (Release Origin Moment Record)) (current : Release Origin Moment Record)
    (grow : (window :: (releases ++ [current]).map Release.windowSize).Pairwise (· ≤ ·)) :
    ∃ earlier middle receipts last,
      Machine.run (release T) releases state = some (earlier, middle) ∧
      run (T.withWindow current.windowSize) current.extrinsics middle = some (receipts, last) ∧
      ∀ account, ∀ history : History Moment Record,
        history = History.ofReceipts T account receipts →
        history.erasedCounts ≠ [] ∨ current.windowSize.toNat - 1 ≤ history.log.length →
        data (T.withWindow current.windowSize) last.storage account =
          some (history.log.rtake (current.windowSize.toNat - 1)) := by
  rw [List.map_append, ← List.cons_append, List.pairwise_append] at grow
  rcases grow with ⟨growEarlier, _, below⟩
  rcases run_release_returns T releases inside growEarlier with ⟨earlier, middle, ran, insideAll⟩
  have insideNow := insideAll current.windowSize
    (below _ List.mem_cons_self _ List.mem_cons_self) fun other member =>
      below _ (List.mem_cons_of_mem _ (List.mem_map_of_mem member)) _ List.mem_cons_self
  rcases run_logsFollow (T.withWindow current.windowSize) middle insideNow current.extrinsics with
    ⟨before, receipts, last, ranNow, _, follow⟩
  refine ⟨earlier, middle, receipts, last, ran, ranNow, fun account history same forgotten => ?_⟩
  have kept : history.readBack (current.windowSize.toNat - 1) (before account) =
      history.log.rtake (current.windowSize.toNat - 1) :=
    History.readBack_of_forgotten _ forgotten
  rw [← kept, same]
  exact follow.reads account

theorem growing_windows_heal_gapped :
    ∃ earlier middle receipts last,
      Machine.run (release (byteTrait ℕ 1 512)) [⟨3, [recordBy 7 6 [6]]⟩] gappedState =
        some (earlier, middle) ∧
      run (byteTrait ℕ 4 512) [recordBy 7 7 [7], recordBy 7 8 [8], recordBy 7 9 [9]] middle =
        some (receipts, last) ∧
      ∀ account, ∀ history : History UInt64 (List UInt8),
        history = History.ofReceipts (byteTrait ℕ 1 512) account receipts →
        history.erasedCounts ≠ [] ∨ 3 ≤ history.log.length →
        data (byteTrait ℕ 4 512) last.storage account = some (history.log.rtake 3) :=
  growing_windows_heal (byteTrait ℕ 1 512) 3 gappedState pointersInside_gappedState
    [⟨3, [recordBy 7 6 [6]]⟩] ⟨4, [recordBy 7 7 [7], recordBy 7 8 [8], recordBy 7 9 [9]]⟩
    (by decide)

end Growing

/-! ## Accounts that a smaller window locks out -/

/-- The end is off the ring, and the start cannot climb to it. -/
def RingBufferIndex.Locked (index : RingBufferIndex) (max : UInt64) : Prop :=
  max ≤ index.end_ ∧ (index.start < max ∨ index.end_ < index.start)

namespace RingBufferIndex.Locked

variable {index : RingBufferIndex} {max : UInt64}

/-- Exactly the locked pointers make the loops over the ring endless. -/
theorem collect_eq_none (positive : 0 < max) (locked : index.Locked max) :
    (index.iter max).collect = none := by
  rcases locked with ⟨beyond, apart⟩
  apply Option.not_isSome_iff_eq_none.mp
  rw [collect_isSome_iff, Datalog.terminates_iff positive]
  rintro (inside | ⟨outside, below⟩)
  · exact UInt64.not_lt.mpr beyond inside
  · rcases apart with startInside | above
    · exact UInt64.not_lt.mpr outside startInside
    · exact UInt64.not_lt.mpr below above

/-- A record moves a locked end one step up and leaves the pointers locked,
until the end has used up the `u64` values. -/
theorem add (positive : 0 < max) (locked : index.Locked max)
    (room : index.end_.toNat + 1 < 2 ^ 64) :
    (index.add max).2.Locked max ∧ (index.add max).2.end_.toNat = index.end_.toNat + 1 := by
  rcases locked with ⟨beyond, apart⟩
  have climbed := next_toNat_of_le beyond
  rw [Nat.mod_eq_of_lt room] at climbed
  have beyondNat := UInt64.le_iff_toNat_le.mp beyond
  have stillBeyond : max ≤ next index.end_ max := UInt64.le_iff_toNat_le.mpr (by omega)
  simp only [RingBufferIndex.add]
  by_cases met : index.start = next index.end_ max
  · have startNat := congrArg UInt64.toNat met
    have startBeyond : max ≤ index.start := met ▸ stillBeyond
    have pushed := next_toNat_of_le startBeyond
    rw [if_pos met]
    refine ⟨⟨stillBeyond, ?_⟩, climbed⟩
    by_cases last : index.start.toNat + 1 < 2 ^ 64
    · rw [Nat.mod_eq_of_lt last] at pushed
      exact Or.inr (UInt64.lt_iff_toNat_lt.mpr (by simp only; omega))
    · have wrapped : index.start.toNat + 1 = 2 ^ 64 := by
        have bound := index.start.toNat_lt
        omega
      rw [wrapped, Nat.mod_self] at pushed
      have positiveNat := UInt64.lt_iff_toNat_lt.mp positive
      exact Or.inl (UInt64.lt_iff_toNat_lt.mpr (pushed ▸ positiveNat))
  · rw [if_neg met]
    refine ⟨⟨stillBeyond, ?_⟩, climbed⟩
    rcases apart with startInside | above
    · exact Or.inl startInside
    · have aboveNat := UInt64.lt_iff_toNat_lt.mp above
      have different : index.start.toNat ≠ index.end_.toNat + 1 := by
        intro same
        exact met (UInt64.toNat_inj.mp (same.trans climbed.symm))
      exact Or.inr (UInt64.lt_iff_toNat_lt.mpr (by simp only; omega))

end RingBufferIndex.Locked

/-- A smaller window that does not contain the end of a reachable account
locks the account out. -/
theorem Represents.locked {max : UInt64} {positive : 0 < max.toNat}
    {history : History Moment Record} {part : AccountStorage Moment Record}
    (represents : Represents positive history part) {window : UInt64} (positive' : 0 < window)
    (beyond : window ≤ part.pointers.end_) : part.pointers.Locked window := by
  refine ⟨beyond, ?_⟩
  rcases represents.pointers_shape with zero | past
  · exact Or.inl (zero ▸ positive')
  · exact Or.inr (UInt64.lt_iff_toNat_lt.mpr (by omega))

/-- How many records an account ever made. -/
def History.total (history : History Moment Record) : ℕ :=
  history.erasedCounts.sum + history.log.length

theorem History.total_push (history : History Moment Record) (item : RingBufferItem Moment Record) :
    (history.push item).total = history.total + 1 := by
  simp only [total, push, List.length_append, List.length_singleton, Nat.add_assoc]

theorem History.total_close (history : History Moment Record) :
    history.close.total = history.total := by
  rw [total, close, total, List.sum_cons, List.length_nil, Nat.add_zero, Nat.add_comm]

variable [DecidableEq AccountId]

/-- A locked account after some history: it has not erased, and its end has
moved up by one for each record. -/
structure StaysLocked (max : UInt64) (account : AccountId) (end_ : ℕ)
    (state : State AccountId Moment Record) (history : History Moment Record) : Prop where
  locked : (state.storage.datalogIndex.get account).Locked max
  notErased : history.erasedCounts = []
  climbed : (state.storage.datalogIndex.get account).end_.toNat = end_ + history.log.length

theorem staysLocked_outcome {T : Trait Origin AccountId Moment Record} (positive : 0 < T.windowSize)
    {account : AccountId} {end_ : ℕ} {extrinsic : Extrinsic Origin Moment Record}
    {state next : State AccountId Moment Record} {answer : Except DispatchError Unit}
    {history : History Moment Record}
    (stays : end_ + history.total < 2 ^ 64 → StaysLocked T.windowSize account end_ state history)
    (outcome : Outcome T extrinsic state answer next)
    (few : end_ + (history.advance T account (extrinsic, answer)).total < 2 ^ 64) :
    StaysLocked T.windowSize account end_ next (history.advance T account (extrinsic, answer)) := by
  by_cases own : extrinsic.caller T = some account
  · have signature := (Extrinsic.caller_eq_some_iff T extrinsic account).mp own
    cases outcome with
    | tooBig | badOrigin => exact stays few
    | recorded sender r isRecord fits signed =>
        cases Except.ok.inj (signature.symm.trans signed)
        rw [History.advance_record signature isRecord] at few ⊢
        rw [History.total_push] at few
        rcases stays (by omega) with ⟨locked, notErased, climbed⟩
        have counted : history.log.length ≤ history.total := Nat.le_add_left _ _
        rcases locked.add positive (by omega) with ⟨stillLocked, moved⟩
        have index :
            (state.recorded T account ⟨extrinsic.now, r⟩).storage.datalogIndex.get account =
              ((state.storage.datalogIndex.get account).add T.windowSize).2 := by
          simp only [State.recorded, Storage.recorded, StorageMap.get_insert, Function.update_self]
        refine ⟨index ▸ stillLocked, notErased, ?_⟩
        rw [index, moved, climbed, History.push, List.length_append, List.length_singleton,
          Nat.add_assoc]
    | erased sender visited isErase signed collected =>
        cases Except.ok.inj (signature.symm.trans signed)
        rw [History.advance_erase signature isErase, History.total_close] at few
        have endless := (stays few).locked.collect_eq_none positive
        rw [collected] at endless
        cases endless
  · rw [History.advance_of_caller_ne own] at few ⊢
    rcases stays few with ⟨locked, notErased, climbed⟩
    have index : next.storage.datalogIndex.get account =
        state.storage.datalogIndex.get account :=
      congrArg AccountStorage.pointers (account_of_caller_ne own outcome)
    exact ⟨index ▸ locked, notErased, index ▸ climbed⟩

theorem run_staysLocked {T : Trait Origin AccountId Moment Record} (positive : 0 < T.windowSize)
    {account : AccountId} {extrinsics : List (Extrinsic Origin Moment Record)}
    {state last : State AccountId Moment Record}
    {receipts : List (Extrinsic Origin Moment Record × Except DispatchError Unit)}
    (locked : (state.storage.datalogIndex.get account).Locked T.windowSize)
    (few : (state.storage.datalogIndex.get account).end_.toNat +
      (History.ofExtrinsics T account extrinsics).total < 2 ^ 64)
    (ran : run T extrinsics state = some (receipts, last)) :
    StaysLocked T.windowSize account (state.storage.datalogIndex.get account).end_.toNat last
      (History.ofExtrinsics T account extrinsics) := by
  rw [← History.ofReceipts_eq_ofExtrinsics account ran] at few ⊢
  exact Machine.run_tracks (dispatch T)
    (fun state' history => (state.storage.datalogIndex.get account).end_.toNat + history.total <
      2 ^ 64 → StaysLocked T.windowSize account
        (state.storage.datalogIndex.get account).end_.toNat state' history)
    (History.advance T account)
    (fun _ _ _ _ _ stays returned few =>
      staysLocked_outcome positive stays ((dispatch_eq_some_iff T ..).mp returned) few)
    History.empty (fun _ => ⟨locked, rfl, rfl⟩) ran few

/-- After any run under one window, let the window shrink to the end of an
account or below.  Whatever arrives then, as long as the account makes fewer
records than its end is away from `2 ^ 64`: a run that contains an accepted
`erase` of the account does not return, and after every run that returns
`data` has no answer for the account, whose end is one slot further for each
of its records. -/
theorem shrunk_window_locks_out [Inhabited Moment] [Inhabited Record]
    (T : Trait Origin AccountId Moment Record) (positive : 1 ≤ T.windowSize)
    (window : UInt64) (positive' : 1 ≤ window) (start : State AccountId Moment Record)
    (fresh : start.storage = Storage.empty)
    (extrinsics : List (Extrinsic Origin Moment Record)) :
    ∃ receipts state, run T extrinsics start = some (receipts, state) ∧
      ∀ account, ∀ idx : RingBufferIndex, idx = state.storage.datalogIndex.get account →
        window ≤ idx.end_ →
        ∀ later, ∀ history : History Moment Record,
          history = History.ofExtrinsics T account later →
          idx.end_.toNat + history.total < 2 ^ 64 →
          (history.erasedCounts ≠ [] → run (T.withWindow window) later state = none) ∧
          ∀ receipts' last, run (T.withWindow window) later state = some (receipts', last) →
            data (T.withWindow window) last.storage account = none ∧
            (last.storage.datalogIndex.get account).end_.toNat =
              idx.end_.toNat + history.log.length := by
  rcases run_represents_fresh T (window_toNat_pos positive) start fresh extrinsics with
    ⟨receipts, state, ran, represents⟩
  refine ⟨receipts, state, ran, ?_⟩
  rintro account idx rfl beyond later history rfl few
  have windowPos : 0 < window := UInt64.lt_iff_toNat_lt.mpr (window_toNat_pos positive')
  have locked := (represents account).locked windowPos beyond
  have stays : ∀ {receipts' last},
      run (T.withWindow window) later state = some (receipts', last) →
      StaysLocked window account (state.storage.datalogIndex.get account).end_.toNat last
        (History.ofExtrinsics T account later) :=
    fun ranLater => run_staysLocked (T := T.withWindow window) windowPos locked few ranLater
  constructor
  · intro erases
    cases ranLater : run (T.withWindow window) later state with
    | none => rfl
    | some outcome => exact absurd (stays ranLater).notErased erases
  · intro receipts' last ranLater
    refine ⟨?_, (stays ranLater).climbed⟩
    have endless : ((last.storage.datalogIndex.get account).iter
        (T.withWindow window).windowSize).collect = none :=
      (stays ranLater).locked.collect_eq_none windowPos
    exact congrArg (Option.map _) endless

/-- Four records wrap a window of three slots and leave the end at slot one.
Under a window of one the account can still record, but not erase. -/
theorem shrunk_window_locks_out_wrapped :
    ∃ receipts state,
      run (byteTrait ℕ 3 512) [recordBy 7 1 [1], recordBy 7 2 [2], recordBy 7 3 [3],
        recordBy 7 4 [4]] (freshState ℕ 1) = some (receipts, state) ∧
      run (byteTrait ℕ 1 512) [recordBy 7 5 [5], eraseBy 7] state = none := by
  rcases shrunk_window_locks_out (byteTrait ℕ 3 512) (by decide) 1 (by decide) (freshState ℕ 1) rfl
      [recordBy 7 1 [1], recordBy 7 2 [2], recordBy 7 3 [3], recordBy 7 4 [4]] with
    ⟨receipts, state, ran, locks⟩
  have index : (run (byteTrait ℕ 3 512) [recordBy 7 1 [1], recordBy 7 2 [2], recordBy 7 3 [3],
      recordBy 7 4 [4]] (freshState ℕ 1)).map
        (fun outcome => outcome.2.storage.datalogIndex.get 7) = some ⟨2, 1⟩ := by
    decide +kernel
  rw [ran, Option.map_some, Option.some.injEq] at index
  refine ⟨receipts, state, ran, (locks 7 ⟨2, 1⟩ index.symm (by decide)
    [recordBy 7 5 [5], eraseBy 7] ⟨[1], []⟩ ?_ (by decide)).1 (by decide)⟩
  rfl

end Datalog
end IpciBlockchain
