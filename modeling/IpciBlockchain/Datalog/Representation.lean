import IpciBlockchain.Datalog.History

namespace IpciBlockchain
namespace Datalog

open Foundation

/-!
# How an account's storage represents its history

Count the records of the current session from zero and call `n` how many
there are.  Record `k` was written to slot `k % W`, so `end` is the place of
`n`; one slot is kept free, so `start` is the place of `n - (W - 1)`, in the
truncated subtraction that stays at zero until the ring is full.  The slot at
`end` of a full ring still holds the record that was evicted last.

`erase` resets the pointers and deletes only the slots between them.  It
leaves the slot at `end` of a full ring behind, and it leaves behind whatever
an earlier session left outside the slots that this session reached.  The
residue of the closed sessions, at most one slot, is therefore part of the
representation, although no read by value can see it.
-/

/-- The slot that still holds an item after the sessions with these record
counts, the latest first, have been erased. -/
def residue (window : ℕ) : List ℕ → Option ℕ
  | [] => none
  | count :: earlier =>
      if window ≤ count then some (count % window)
      else (residue window earlier).filter fun slot => count ≤ slot

theorem residue_lt {window : ℕ} (positive : 0 < window) {counts : List ℕ} {slot : ℕ}
    (left : residue window counts = some slot) : slot < window := by
  induction counts with
  | nil => cases left
  | cons count earlier ih =>
      rw [residue] at left
      by_cases full : window ≤ count
      · rw [if_pos full] at left
        cases left
        exact Nat.mod_lt count positive
      · rw [if_neg full] at left
        exact ih (Option.filter_eq_some_iff.mp left).1

/-- A window that is at least one, as the invariant takes it. -/
theorem window_toNat_pos {max : UInt64} (positive : 1 ≤ max) : 0 < max.toNat :=
  UInt64.le_iff_toNat_le.mp positive

variable {Moment Record : Type}

/-- The representation invariant of one account under a window. -/
structure Represents {max : UInt64} (positive : 0 < max.toNat) (history : History Moment Record)
    (part : AccountStorage Moment Record) : Prop where
  pointers : part.pointers =
    { start := (slots max positive).place (history.log.length - (max.toNat - 1))
      end_ := (slots max positive).place history.log.length }
  items : (slots max positive).Stores history.log part.items
  present : ∀ slot, (part.items slot).isSome = true ↔
    slot.toNat < min history.log.length max.toNat ∨
      residue max.toNat history.erasedCounts = some slot.toNat

/-- An account without pointers and items has an empty history, whatever the
legacy map holds for it. -/
theorem represents_empty {max : UInt64} (positive : 0 < max.toNat)
    {part : AccountStorage Moment Record} (noIndex : part.index = none)
    (noItems : ∀ slot, part.items slot = none) :
    Represents positive History.empty part where
  pointers := by
    have zero := slots_place_zero positive
    simp only [AccountStorage.pointers, noIndex, Option.getD_none, History.empty, List.length_nil,
      Nat.zero_sub, zero]
    rfl
  items := (slots max positive).stores_nil part.items
  present := by
    intro slot
    simp [noItems slot, History.empty, residue]

/-! ## Pointers -/

/-- In a full ring the oldest kept record is one turn behind the slot after
the end. -/
theorem place_start_of_full {max : UInt64} (positive : 0 < max.toNat) {count : ℕ}
    (full : max.toNat ≤ count + 1) :
    (slots max positive).place (count - (max.toNat - 1)) =
      (slots max positive).place (count + 1) := by
  have lap : count - (max.toNat - 1) + max.toNat = count + 1 := by omega
  rw [← (slots max positive).periodic (count - (max.toNat - 1)), slots_size, lap]

/-- `add` moves both pointers to the places that the longer session asks for.
The start moves exactly when the new end catches up with it. -/
theorem add_place {max : UInt64} (positive : 0 < max.toNat) (count : ℕ) :
    RingBufferIndex.add
        { start := (slots max positive).place (count - (max.toNat - 1))
          end_ := (slots max positive).place count } max =
      ((slots max positive).place count,
        { start := (slots max positive).place (count + 1 - (max.toNat - 1))
          end_ := (slots max positive).place (count + 1) }) := by
  simp only [RingBufferIndex.add, RingBufferIndex.next_place]
  by_cases room : count + 1 < max.toNat
  · have apart := (slots max positive).place_ne_of_lt (j := 0) (k := count + 1) (by omega)
      (by rw [slots_size]; omega)
    have before : count - (max.toNat - 1) = 0 := by omega
    have after : count + 1 - (max.toNat - 1) = 0 := by omega
    rw [before, after, if_neg apart]
  · have moved : count - (max.toNat - 1) + 1 = count + 1 - (max.toNat - 1) := by omega
    rw [if_pos (place_start_of_full positive (Nat.le_of_not_lt room)), moved]

namespace Represents

variable {max : UInt64} {positive : 0 < max.toNat} {history : History Moment Record}
  {part : AccountStorage Moment Record}

/-- Both pointers are below the window. -/
theorem pointers_lt (represents : Represents positive history part) :
    part.pointers.start < max ∧ part.pointers.end_ < max := by
  rw [represents.pointers]
  exact ⟨slots_place_lt positive _, slots_place_lt positive _⟩

/-- The slots that the iterator visits, oldest record first. -/
def live (positive : 0 < max.toNat) (history : History Moment Record) : List UInt64 :=
  (slots max positive).window (history.log.length - (max.toNat - 1))
    (min history.log.length (max.toNat - 1))

theorem collect (represents : Represents positive history part) :
    (part.pointers.iter max).collect = some (live positive history) := by
  have stop : history.log.length - (max.toNat - 1) + min history.log.length (max.toNat - 1) =
      history.log.length := by omega
  have walk := collect_window positive (history.log.length - (max.toNat - 1))
    (min history.log.length (max.toNat - 1)) (by omega)
  rw [stop] at walk
  rw [represents.pointers]
  exact walk

/-- While the ring is not full the live slots are those below the count. -/
theorem mem_live_of_lt {slot : UInt64} (room : history.log.length < max.toNat) :
    slot ∈ live positive history ↔ slot.toNat < history.log.length := by
  rw [live, CellRing.mem_window]
  constructor
  · rintro ⟨k, _, inside, rfl⟩
    rw [slots_place_toNat]
    exact (Nat.mod_le k max.toNat).trans_lt (by omega)
  · intro inside
    have below : slot < max := UInt64.lt_iff_toNat_lt.mpr (by omega)
    exact ⟨slot.toNat, by omega, by omega, slots_place_of_lt positive below⟩

/-- In a full ring every slot of the window is live except the end. -/
theorem mem_live_of_le {slot : UInt64} (full : max.toNat ≤ history.log.length) :
    slot ∈ live positive history ↔
      slot.toNat < max.toNat ∧ slot.toNat ≠ history.log.length % max.toNat := by
  have count : min history.log.length (max.toNat - 1) = (slots max positive).size - 1 := by
    rw [slots_size]
    omega
  have stop : history.log.length - (max.toNat - 1) + ((slots max positive).size - 1) =
      history.log.length := by
    rw [slots_size]
    omega
  by_cases below : slot < max
  · have belowNat := UInt64.lt_iff_toNat_lt.mp below
    have member := (slots max positive).mem_window_of_full_iff
      (history.log.length - (max.toNat - 1)) slot.toNat
    rw [stop, slots_place_of_lt positive below] at member
    rw [live, count, member, ne_eq, ← UInt64.toNat_inj, slots_place_toNat]
    exact (and_iff_right belowNat).symm
  · constructor
    · intro member
      rcases (CellRing.mem_window _ _ _ _).mp member with ⟨k, _, _, rfl⟩
      exact absurd (slots_place_lt positive k) below
    · rintro ⟨inside, _⟩
      exact absurd (UInt64.lt_iff_toNat_lt.mpr inside) below

/-! ## The two calls -/

/-- `record` appends to the log: it overwrites the slot of the record that is
a full turn old, or a slot that no record of this session has used. -/
theorem recorded (represents : Represents positive history part)
    (item : RingBufferItem Moment Record) :
    Represents positive (history.push item) (part.recorded max item) := by
  have moved : part.pointers.add max = _ :=
    (congrArg (RingBufferIndex.add · max) represents.pointers).trans (add_place positive _)
  have longer : (history.push item).log.length = history.log.length + 1 := by
    simp [History.push]
  refine ⟨?_, ?_, fun slot => ?_⟩
  · rw [longer]
    simp only [AccountStorage.recorded, AccountStorage.pointers, Option.getD_some]
    exact congrArg Prod.snd moved
  · simp only [AccountStorage.recorded, moved, StorageMap.insert]
    exact represents.items.push item
  · simp only [AccountStorage.recorded, moved]
    rw [longer]
    have atEnd := slots_place_toNat positive history.log.length
    have small := Nat.mod_le history.log.length max.toNat
    have inside := Nat.mod_lt history.log.length positive
    by_cases written : slot = (slots max positive).place history.log.length
    · rw [written, StorageMap.insert_self, atEnd]
      exact iff_of_true rfl (Or.inl (by omega))
    · rw [StorageMap.insert_of_ne _ _ written, represents.present slot]
      have different : slot.toNat ≠ history.log.length % max.toNat := by
        intro same
        exact written (UInt64.toNat_inj.mp (same.trans atEnd.symm))
      apply or_congr_left
      by_cases room : history.log.length < max.toNat
      · rw [Nat.mod_eq_of_lt room] at different
        omega
      · omega

/-- A present slot that is not live is the one that the current session would
leave behind: the end of a full ring, or else the residue of the sessions
before it. -/
theorem orphan_iff (represents : Represents positive history part) (slot : UInt64) :
    (part.items slot).isSome = true ∧ slot ∉ live positive history ↔
      residue max.toNat history.close.erasedCounts = some slot.toNat := by
  simp only [History.close, residue]
  rw [represents.present slot]
  by_cases full : max.toNat ≤ history.log.length
  · rw [if_pos full, Option.some.injEq, mem_live_of_le full]
    have inside := Nat.mod_lt history.log.length positive
    constructor
    · rintro ⟨below | left, missed⟩
      · omega
      · have residueInside := residue_lt positive left
        omega
    · intro same
      exact ⟨Or.inl (by omega), by omega⟩
  · rw [if_neg full, Option.filter_eq_some_iff, decide_eq_true_eq,
      mem_live_of_lt (Nat.lt_of_not_le full)]
    constructor
    · rintro ⟨below | left, missed⟩
      · omega
      · exact ⟨left, by omega⟩
    · rintro ⟨left, above⟩
      exact ⟨Or.inr left, by omega⟩

/-- `erase` deletes the live slots, so exactly the residue survives. -/
theorem erased (represents : Represents positive history part) :
    Represents positive history.close (part.erased (live positive history)) := by
  refine ⟨?_, (slots max positive).stores_nil _, fun slot => ?_⟩
  · have cleared : Represents positive History.empty
        { part.erased (live positive history) with items := StorageMap.empty } :=
      represents_empty positive rfl fun _ => rfl
    exact cleared.pointers
  · have noRecord : ¬ slot.toNat < min (history.close).log.length max.toNat := by
      simp [History.close]
    rw [or_iff_right noRecord, ← represents.orphan_iff slot]
    simp only [AccountStorage.erased, StorageMap.removeAll_apply]
    by_cases visited : slot ∈ live positive history
    · simp [visited]
    · simp [visited]

/-! ## Reading the log back -/

/-- `data` returns the end of the log, never a default item. -/
theorem data [Inhabited Moment] [Inhabited Record]
    (represents : Represents positive history part) :
    part.data max = some (history.log.rtake (max.toNat - 1)) := by
  have stored := represents.items.read (max.toNat - 1) (by rw [slots_size]; omega)
  rw [AccountStorage.data, represents.collect, Option.map_some]
  apply congrArg some
  calc
    (live positive history).map part.items.get
        = ((live positive history).map part.items).map (·.getD default) := by
      rw [List.map_map]
      rfl
    _ = ((history.log.rtake (max.toNat - 1)).map some).map (·.getD default) := by
      rw [live, stored]
    _ = history.log.rtake (max.toNat - 1) := by
      rw [List.map_map]
      exact List.map_id _

end Represents

/-! ## Runs -/

variable {Origin AccountId : Type}

/-- Every account's part represents the account's history. -/
def RepresentsAll {max : UInt64} (positive : 0 < max.toNat)
    (state : State AccountId Moment Record) (histories : AccountId → History Moment Record) :
    Prop :=
  ∀ account, Represents positive (histories account) (state.storage.account account)

theorem pointersInside_of_represents {max : UInt64} {positive : 0 < max.toNat}
    {state : State AccountId Moment Record} {histories : AccountId → History Moment Record}
    (represents : RepresentsAll positive state histories) :
    state.storage.PointersInside max :=
  fun account => (represents account).pointers_lt

variable [DecidableEq AccountId]

/-- What one receipt adds to the histories of all accounts. -/
def advanceAll (T : Trait Origin AccountId Moment Record)
    (histories : AccountId → History Moment Record)
    (receipt : Extrinsic Origin Moment Record × Except DispatchError Unit) :
    AccountId → History Moment Record :=
  fun account => (histories account).advance T account receipt

theorem foldl_advanceAll (T : Trait Origin AccountId Moment Record)
    (receipts : List (Extrinsic Origin Moment Record × Except DispatchError Unit))
    (histories : AccountId → History Moment Record) (account : AccountId) :
    receipts.foldl (advanceAll T) histories account =
      receipts.foldl (History.advance T account) (histories account) := by
  induction receipts generalizing histories with
  | nil => rfl
  | cons receipt rest ih => exact ih (advanceAll T histories receipt)

/-- The step of the refinement: the calls keep the representation. -/
theorem representsAll_outcome {T : Trait Origin AccountId Moment Record}
    (positive : 0 < T.windowSize.toNat) {extrinsic : Extrinsic Origin Moment Record}
    {state next : State AccountId Moment Record} {answer : Except DispatchError Unit}
    {histories : AccountId → History Moment Record}
    (represents : RepresentsAll positive state histories)
    (outcome : Outcome T extrinsic state answer next) :
    RepresentsAll positive next (advanceAll T histories (extrinsic, answer)) := by
  intro account
  by_cases own : extrinsic.caller T = some account
  · have signature := (Extrinsic.caller_eq_some_iff T extrinsic account).mp own
    cases outcome with
    | tooBig | badOrigin => exact represents account
    | recorded sender r isRecord fits signed =>
        cases Except.ok.inj (signature.symm.trans signed)
        rw [advanceAll, History.advance_record signature isRecord]
        simp only [State.recorded, account_recorded_self]
        exact (represents account).recorded _
    | erased sender visited isErase signed collected =>
        cases Except.ok.inj (signature.symm.trans signed)
        have loop := Option.some.inj (collected.symm.trans (represents account).collect)
        rw [advanceAll, History.advance_erase signature isErase]
        simp only [State.erased, account_erased_self, loop]
        exact (represents account).erased
  · rw [advanceAll, History.advance_of_caller_ne own, account_of_caller_ne own outcome]
    exact represents account

/-- From an empty ring, every run returns and every account's part represents
the history that the account's receipts spell out. -/
theorem run_represents (T : Trait Origin AccountId Moment Record)
    (positive : 0 < T.windowSize.toNat) (start : State AccountId Moment Record)
    (noIndex : start.storage.datalogIndex = StorageMap.empty)
    (noItems : start.storage.datalogItem = StorageMap.empty)
    (extrinsics : List (Extrinsic Origin Moment Record)) :
    ∃ receipts last, run T extrinsics start = some (receipts, last) ∧
      ∀ account, Represents positive (History.ofReceipts T account receipts)
        (last.storage.account account) := by
  have initial : RepresentsAll positive start fun _ => History.empty := fun account =>
    represents_empty positive (congrFun noIndex account)
      fun slot => congrFun noItems (account, slot)
  have step : ∀ extrinsic (state : State AccountId Moment Record) histories,
      RepresentsAll positive state histories →
        ∃ answer next, dispatch T extrinsic state = some (answer, next) ∧
          RepresentsAll positive next (advanceAll T histories (extrinsic, answer)) := by
    intro extrinsic state histories represents
    rcases pointersInside_dispatch extrinsic state (pointersInside_of_represents represents) with
      ⟨answer, next, returned, _⟩
    exact ⟨answer, next, returned,
      representsAll_outcome positive represents ((dispatch_eq_some_iff T ..).mp returned)⟩
  rcases Machine.run_simulates (dispatch T) (RepresentsAll positive) (advanceAll T) step extrinsics
      _ initial with ⟨receipts, last, ran, final⟩
  refine ⟨receipts, last, ran, fun account => ?_⟩
  have represents := final account
  rw [foldl_advanceAll] at represents
  exact represents

/-- The same from storage that is empty altogether. -/
theorem run_represents_fresh (T : Trait Origin AccountId Moment Record)
    (positive : 0 < T.windowSize.toNat) (start : State AccountId Moment Record)
    (fresh : start.storage = Storage.empty)
    (extrinsics : List (Extrinsic Origin Moment Record)) :
    ∃ receipts last, run T extrinsics start = some (receipts, last) ∧
      ∀ account, Represents positive (History.ofReceipts T account receipts)
        (last.storage.account account) :=
  run_represents T positive start (congrArg Storage.datalogIndex fresh)
    (congrArg Storage.datalogItem fresh) extrinsics

end Datalog
end IpciBlockchain
