import IpciBlockchain.Datalog.Representation

namespace IpciBlockchain
namespace Datalog

open Foundation

/-!
# What `erase` leaves behind

`erase` is meant to clear an account's datalog.  It walks the live slots,
and the slot of the record that was evicted last is not one of them: a
session that filled the ring leaves one item in storage.  The item stays
until a later session writes to its slot, which happens when that session has
more records than the slot's number.

The account's storage is therefore clean after an erasure exactly when every
session that filled the ring has been followed by such a session.
-/

/-- Every full session among these, the latest first, was followed by one
that reached the slot it had left behind. -/
def ResidueOverwritten (window : ℕ) (counts : List ℕ) : Prop :=
  ∀ newer count older, counts = newer ++ count :: older → window ≤ count →
    ∃ later ∈ newer, count % window < later

/-- The residue comes from a full session whose slot no later session
reached. -/
theorem residue_eq_some_iff {window : ℕ} (positive : 0 < window) (counts : List ℕ) (slot : ℕ) :
    residue window counts = some slot ↔
      ∃ newer count older, counts = newer ++ count :: older ∧ window ≤ count ∧
        slot = count % window ∧ ∀ later ∈ newer, later ≤ slot := by
  induction counts with
  | nil =>
      apply iff_of_false (by simp [residue])
      rintro ⟨newer, count, older, split, _⟩
      cases newer <;> cases split
  | cons head rest ih =>
      rw [residue]
      by_cases full : window ≤ head
      · rw [if_pos full, Option.some.injEq]
        constructor
        · intro same
          exact ⟨[], head, rest, rfl, full, same.symm, by simp⟩
        · rintro ⟨newer, count, older, split, _, same, reached⟩
          cases newer with
          | nil =>
              cases split
              exact same.symm
          | cons first newer =>
              cases split
              have below := reached head List.mem_cons_self
              have inside := Nat.mod_lt count positive
              omega
      · rw [if_neg full, Option.filter_eq_some_iff, decide_eq_true_eq, ih]
        constructor
        · rintro ⟨⟨newer, count, older, split, filled, same, reached⟩, above⟩
          refine ⟨head :: newer, count, older, by rw [split]; rfl, filled, same, ?_⟩
          intro later member
          rcases List.mem_cons.mp member with same | member
          · exact same ▸ above
          · exact reached later member
        · rintro ⟨newer, count, older, split, filled, same, reached⟩
          cases newer with
          | nil =>
              cases split
              exact absurd filled full
          | cons first newer =>
              cases split
              exact ⟨⟨newer, count, older, rfl, filled, same,
                fun later member => reached later (List.mem_cons_of_mem _ member)⟩,
                reached head List.mem_cons_self⟩

theorem residue_eq_none_iff {window : ℕ} (positive : 0 < window) (counts : List ℕ) :
    residue window counts = none ↔ ResidueOverwritten window counts := by
  rw [Option.eq_none_iff_forall_ne_some]
  constructor
  · intro clean newer count older split full
    by_contra missed
    push Not at missed
    exact clean (count % window) ((residue_eq_some_iff positive counts _).mpr
      ⟨newer, count, older, split, full, rfl, missed⟩)
  · intro overwritten slot left
    rcases (residue_eq_some_iff positive counts slot).mp left with
      ⟨newer, count, older, split, full, rfl, reached⟩
    rcases overwritten newer count older split full with ⟨later, member, above⟩
    exact absurd (reached later member) (Nat.not_le_of_lt above)

variable {Origin AccountId Moment Record : Type}

/-- Between two sessions the residue is all that an account has in the item
map. -/
theorem Represents.items_eq_none_iff {max : UInt64} {positive : 0 < max.toNat}
    {history : History Moment Record} {part : AccountStorage Moment Record}
    (represents : Represents positive history part) (between : history.log = []) :
    (∀ slot, part.items slot = none) ↔ residue max.toNat history.erasedCounts = none := by
  have present := represents.present
  simp only [between, List.length_nil, Nat.zero_min, Nat.not_lt_zero, false_or] at present
  constructor
  · intro noItems
    apply Option.eq_none_iff_forall_ne_some.mpr
    intro slot left
    have inside := residue_lt positive left
    have value : (UInt64.ofNat slot).toNat = slot := by
      have bound := max.toNat_lt
      rw [UInt64.toNat_ofNat', Nat.mod_eq_of_lt (by omega)]
    have occupied := (present (UInt64.ofNat slot)).mpr (value.symm ▸ left)
    rw [noItems (UInt64.ofNat slot)] at occupied
    cases occupied
  · intro clean slot
    apply Option.not_isSome_iff_eq_none.mp
    intro occupied
    have left := (present slot).mp occupied
    rw [clean] at left
    cases left

/-- None of the three maps has an entry for the account. -/
def Storage.NoEntry (storage : Storage AccountId Moment Record) (account : AccountId) : Prop :=
  storage.datalog account = none ∧ storage.datalogIndex account = none ∧
    ∀ slot, storage.datalogItem (account, slot) = none

variable [DecidableEq AccountId]

theorem History.ofExtrinsics_concat_erase {T : Trait Origin AccountId Moment Record}
    {eraser : Extrinsic Origin Moment Record} {account : AccountId}
    (isErase : eraser.call = .erase) (signed : T.ensureSigned eraser.origin = .ok account)
    (extrinsics : List (Extrinsic Origin Moment Record)) :
    ofExtrinsics T account (extrinsics ++ [eraser]) =
      (ofExtrinsics T account extrinsics).close := by
  have accepted : eraser.accepted T = true := by
    simp [Extrinsic.accepted, Extrinsic.caller, signed, isErase]
  rw [ofExtrinsics, List.filter_append, List.filter_cons_of_pos accepted, List.filter_nil,
    List.map_append, ofReceipts, List.foldl_append, List.map_singleton, List.foldl_cons,
    List.foldl_nil, advance_erase signed isErase]
  rfl

/-- A successful `erase` clears the account's storage if and only if every
session that filled the ring was overwritten as far as its evicted slot.  The
record counts of the sessions are read off the extrinsics alone. -/
theorem erase_leaves_no_entry_iff (T : Trait Origin AccountId Moment Record)
    (positive : 1 ≤ T.windowSize) (start : State AccountId Moment Record)
    (fresh : start.storage = Storage.empty)
    (extrinsics : List (Extrinsic Origin Moment Record))
    (eraser : Extrinsic Origin Moment Record) (isErase : eraser.call = .erase)
    (account : AccountId) (signed : T.ensureSigned eraser.origin = .ok account) :
    ∃ receipts state next, run T extrinsics start = some (receipts, state) ∧
      dispatch T eraser state = some (.ok (), next) ∧
      (next.storage.NoEntry account ↔ ResidueOverwritten T.windowSize.toNat
        (History.ofExtrinsics T account (extrinsics ++ [eraser])).erasedCounts) := by
  have positiveNat := window_toNat_pos positive
  rcases run_represents_fresh T positiveNat start fresh extrinsics with
    ⟨receipts, state, ran, represents⟩
  have outcome : Outcome T eraser state (.ok ()) _ :=
    .erased account _ isErase signed (represents account).collect
  refine ⟨receipts, state, _, ran, (dispatch_eq_some_iff T ..).mpr outcome, ?_⟩
  have cleared := account_erased_self state.storage account
    (Represents.live positiveNat (History.ofReceipts T account receipts))
  have left := (represents account).erased.items_eq_none_iff rfl
  rw [History.ofExtrinsics_concat_erase isErase signed,
    ← History.ofReceipts_eq_ofExtrinsics account ran, ← residue_eq_none_iff positiveNat, ← left,
    ← cleared]
  constructor
  · intro noEntry
    exact noEntry.2.2
  · intro noItems
    exact ⟨congrArg AccountStorage.datalog cleared, congrArg AccountStorage.index cleared, noItems⟩

theorem erase_leaves_no_entry_iff_refilled :
    ∃ receipts state next,
      run (byteTrait ℕ 3 512) [recordBy 7 1 [1], recordBy 7 2 [2], recordBy 7 3 [3], eraseBy 7,
        recordBy 7 4 [4]] (freshState ℕ 1) = some (receipts, state) ∧
      dispatch (byteTrait ℕ 3 512) (eraseBy 7) state = some (.ok (), next) ∧
      (next.storage.NoEntry 7 ↔ ResidueOverwritten (3 : UInt64).toNat
        (History.ofExtrinsics (byteTrait ℕ 3 512) 7 ([recordBy 7 1 [1], recordBy 7 2 [2],
          recordBy 7 3 [3], eraseBy 7, recordBy 7 4 [4]] ++ [eraseBy 7])).erasedCounts) :=
  erase_leaves_no_entry_iff (byteTrait ℕ 3 512) (by decide) (freshState ℕ 1) rfl _ (eraseBy 7) rfl
    7 rfl

/-- Two records in a window of two slots, and the slot of the evicted one
outlives a successful erasure. -/
theorem erase_leaves_evicted_item :
    (run (byteTrait ℕ 2 512) [recordBy 7 1 [1], recordBy 7 2 [2], eraseBy 7]
        (freshState ℕ 1)).map
        (fun outcome => (outcome.1.map Prod.snd, outcome.2.storage.datalogItem (7, 0))) =
      some ([.ok (), .ok (), .ok ()], some ⟨1, [1]⟩) := by
  decide +kernel

end Datalog
end IpciBlockchain
