import Mathlib.Data.List.DropRight
import Mathlib.Order.Interval.Finset.Nat
import Mathlib.Data.Nat.Periodic

namespace IpciBlockchain
namespace Foundation

/-!
# Bounded logs and the rings that store them

The abstract object is a log of which only the last few entries are kept:
appending to what is kept, and keeping the same number again, loses nothing
compared with cutting the whole log once.

The concrete object is a ring of cells.  Entry `k` of a log, counted from the
log's beginning and never reduced, is placed in a cell that depends on `k`
modulo the size of the ring only.  Writing the next entry therefore destroys
exactly the entry one full turn behind it, and a walk over fewer cells than
one turn reads distinct cells.
-/

variable {Entry Cell : Type}

/-- Cutting a log before an append does not change what is kept after it. -/
theorem rtake_rtake_concat (log : List Entry) (entry : Entry) (limit : ℕ) :
    (log.rtake limit ++ [entry]).rtake limit = (log ++ [entry]).rtake limit := by
  cases limit with
  | zero => rw [List.rtake_zero, List.rtake_zero]
  | succ limit =>
      have shorter : (log.rtake (limit + 1)).rtake limit = log.rtake limit := by
        simp only [List.rtake_eq_reverse_take_reverse, List.reverse_reverse, List.take_take]
        rw [Nat.min_eq_left (Nat.le_succ limit)]
      rw [List.rtake_concat_succ, List.rtake_concat_succ, shorter]

/-- A finite ring of cells, given by the cell in which each entry of an
unbounded sequence is placed. -/
structure CellRing (Cell : Type) where
  size : ℕ
  place : ℕ → Cell
  size_pos : 0 < size
  periodic : Function.Periodic place size
  injective : ∀ {j k}, j < size → k < size → place j = place k → j = k

namespace CellRing

variable (ring : CellRing Cell)

theorem place_mod (k : ℕ) : ring.place (k % ring.size) = ring.place k :=
  ring.periodic.map_mod_nat k

/-- Two entries share a cell exactly when they are whole turns apart. -/
theorem place_eq_iff (j k : ℕ) :
    ring.place j = ring.place k ↔ j % ring.size = k % ring.size := by
  rw [← ring.place_mod j, ← ring.place_mod k]
  constructor
  · exact ring.injective (Nat.mod_lt j ring.size_pos) (Nat.mod_lt k ring.size_pos)
  · intro equal
    rw [equal]

/-- Entries less than one turn apart never share a cell. -/
theorem place_ne_of_lt {j k : ℕ} (less : j < k) (close : k < j + ring.size) :
    ring.place j ≠ ring.place k := by
  intro equal
  have residues := (ring.place_eq_iff j k).mp equal
  have same := Nat.mod_injOn_Ico j ring.size
    (Finset.mem_coe.mpr (Finset.mem_Ico.mpr ⟨le_refl j, by have := ring.size_pos; omega⟩))
    (Finset.mem_coe.mpr (Finset.mem_Ico.mpr ⟨less.le, close⟩)) residues
  omega

/-! ## Walks over consecutive cells -/

/-- The cells of `count` consecutive entries. -/
def window (start count : ℕ) : List Cell :=
  (List.range' start count).map ring.place

@[simp] theorem length_window (start count : ℕ) : (ring.window start count).length = count := by
  simp [window]

theorem mem_window (cell : Cell) (start count : ℕ) :
    cell ∈ ring.window start count ↔ ∃ k, start ≤ k ∧ k < start + count ∧ ring.place k = cell := by
  simp only [window, List.mem_map, List.mem_range'_1, and_assoc]

/-- A walk of at most one turn never returns to a cell. -/
theorem window_nodup (start count : ℕ) (short : count ≤ ring.size) :
    (ring.window start count).Nodup := by
  apply (List.nodup_map_iff_inj_on List.nodup_range').mpr
  intro j jIn k kIn equal
  have jBounds := List.mem_range'_1.mp jIn
  have kBounds := List.mem_range'_1.mp kIn
  rcases Nat.lt_trichotomy j k with less | same | more
  · exact absurd equal (ring.place_ne_of_lt less (by omega))
  · exact same
  · exact absurd equal.symm (ring.place_ne_of_lt more (by omega))

/-- A walk that stops one cell short of a full turn misses exactly the cell
at which it would come back to its start. -/
theorem mem_window_of_full_iff (start k : ℕ) :
    ring.place k ∈ ring.window start (ring.size - 1) ↔
      ring.place k ≠ ring.place (start + (ring.size - 1)) := by
  have positive := ring.size_pos
  rw [mem_window]
  constructor
  · rintro ⟨j, low, high, equal⟩
    rw [← equal]
    exact ring.place_ne_of_lt high (by omega)
  · intro different
    have turn := Nat.image_Ico_mod start ring.size
    have residue : k % ring.size ∈ Finset.range ring.size :=
      Finset.mem_range.mpr (Nat.mod_lt k positive)
    rw [← turn] at residue
    rcases Finset.mem_image.mp residue with ⟨j, jIn, equal⟩
    have bounds := Finset.mem_Ico.mp jIn
    have same : ring.place j = ring.place k := (ring.place_eq_iff j k).mpr equal
    have notLast : j ≠ start + (ring.size - 1) := by
      rintro rfl
      exact different same.symm
    exact ⟨j, bounds.1, by omega, same⟩

/-- The end of a walk is a shorter walk that starts later. -/
theorem window_rtake (start count limit : ℕ) :
    (ring.window start count).rtake limit =
      ring.window (start + (count - limit)) (min count limit) := by
  unfold List.rtake
  rw [length_window]
  unfold window
  have cells : count - (count - limit) = min count limit := by omega
  rw [← List.map_drop, List.drop_range', Nat.mul_one, cells]

/-- Writing at the end of a walk of less than a turn and walking one cell
further reads what the walk read before and then the new value. -/
theorem map_window_update [DecidableEq Cell] {Value : Type} (cells : Cell → Value)
    (start count : ℕ) (short : count < ring.size) (value : Value) :
    (ring.window start (count + 1)).map
        (Function.update cells (ring.place (start + count)) value) =
      (ring.window start count).map cells ++ [value] := by
  have longer : ring.window start (count + 1) =
      ring.window start count ++ [ring.place (start + count)] := by
    simp only [window, List.range'_concat, List.map_append, List.map_singleton, Nat.one_mul]
  rw [longer, List.map_append, List.map_singleton, Function.update_self]
  apply congrArg (· ++ [value])
  apply List.map_congr_left
  intro cell member
  rcases (ring.mem_window cell start count).mp member with ⟨k, low, high, rfl⟩
  exact Function.update_of_ne (ring.place_ne_of_lt high (by omega)) _ _

/-! ## Rings that hold the end of a log -/

/-- Every entry of the last turn of the log is in its cell. -/
def Stores (log : List Entry) (cells : Cell → Option Entry) : Prop :=
  ∀ k (inside : k < log.length), log.length ≤ k + ring.size →
    cells (ring.place k) = some log[k]

theorem stores_nil (cells : Cell → Option Entry) : ring.Stores [] cells := by
  intro k inside
  exact absurd inside (Nat.not_lt_zero k)

variable {ring}

/-- Writing the next entry into its cell keeps the last turn stored: the entry
it destroys is a full turn old. -/
theorem Stores.push [DecidableEq Cell] {log : List Entry} {cells : Cell → Option Entry}
    (stores : ring.Stores log cells) (entry : Entry) :
    ring.Stores (log ++ [entry])
      (Function.update cells (ring.place log.length) (some entry)) := by
  intro k inside recent
  rw [List.length_append, List.length_singleton] at inside recent
  rcases Nat.lt_succ_iff_lt_or_eq.mp inside with older | newest
  · have different := ring.place_ne_of_lt older (by omega)
    rw [Function.update_of_ne different, List.getElem_append_left older]
    exact stores k older (by omega)
  · subst newest
    rw [Function.update_self, List.getElem_concat_length rfl]

/-- Reading the cells of the last `limit` entries gives back those entries in
the order in which they were written. -/
theorem Stores.read {log : List Entry} {cells : Cell → Option Entry}
    (stores : ring.Stores log cells) (limit : ℕ) (fits : limit ≤ ring.size) :
    (ring.window (log.length - limit) (min log.length limit)).map cells =
      (log.rtake limit).map some := by
  apply List.ext_getElem
  · simp only [List.length_map, length_window, List.rtake, List.length_drop]
    omega
  · intro i left right
    simp only [List.length_map, length_window] at left
    simp only [window, List.getElem_map, List.getElem_range', one_mul, List.rtake,
      List.getElem_drop]
    exact stores _ (by omega) (by omega)

end CellRing

end Foundation
end IpciBlockchain
