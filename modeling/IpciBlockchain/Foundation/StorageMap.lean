import Mathlib.Logic.Function.Basic

namespace IpciBlockchain
namespace Foundation

/-!
# Storage maps with a default

A map of the chain's key-value storage, seen through its keys.  An absent key
and a key that holds the default value are different states of the storage,
although a read by value cannot tell them apart.
-/

/-- The values kept in storage; `none` is an absent key. -/
abbrev StorageMap (Key Value : Type) := Key → Option Value

namespace StorageMap

variable {Key Value : Type}

/-- The map of a freshly created storage. -/
def empty : StorageMap Key Value := fun _ => none

/-- Read a value; an absent key reads as the default. -/
def get [Inhabited Value] (map : StorageMap Key Value) (key : Key) : Value :=
  (map key).getD default

variable [DecidableEq Key]

/-- Write a value. -/
def insert (map : StorageMap Key Value) (key : Key) (value : Value) : StorageMap Key Value :=
  Function.update map key (some value)

/-- Delete a key, whether or not it is present. -/
def remove (map : StorageMap Key Value) (key : Key) : StorageMap Key Value :=
  Function.update map key none

/-- Delete the keys of a list one after the other. -/
def removeAll (map : StorageMap Key Value) (keys : List Key) : StorageMap Key Value :=
  keys.foldl remove map

@[simp] theorem insert_self (map : StorageMap Key Value) (key : Key) (value : Value) :
    map.insert key value key = some value := by
  rw [insert, Function.update_self]

theorem insert_of_ne (map : StorageMap Key Value) {key other : Key} (value : Value)
    (different : other ≠ key) : map.insert key value other = map other := by
  rw [insert, Function.update_of_ne different]

@[simp] theorem remove_self (map : StorageMap Key Value) (key : Key) :
    map.remove key key = none := by
  rw [remove, Function.update_self]

theorem remove_of_ne (map : StorageMap Key Value) {key other : Key}
    (different : other ≠ key) : map.remove key other = map other := by
  rw [remove, Function.update_of_ne different]

theorem get_insert [Inhabited Value] (map : StorageMap Key Value) (key : Key) (value : Value) :
    (map.insert key value).get = Function.update map.get key value := by
  funext other
  by_cases same : other = key
  · rw [same, get, insert_self, Option.getD_some, Function.update_self]
  · rw [get, insert_of_ne map value same, Function.update_of_ne same, get]

/-- A loop of deletions leaves exactly the keys it did not visit. -/
theorem removeAll_apply (map : StorageMap Key Value) (keys : List Key) (key : Key) :
    map.removeAll keys key = if key ∈ keys then none else map key := by
  induction keys generalizing map with
  | nil => rfl
  | cons head tail ih =>
      rw [removeAll, List.foldl_cons, ← removeAll, ih (map.remove head)]
      by_cases later : key ∈ tail
      · rw [if_pos later, if_pos (List.mem_cons_of_mem head later)]
      · rw [if_neg later]
        by_cases same : key = head
        · rw [same, remove_self, if_pos List.mem_cons_self]
        · rw [remove_of_ne map same, if_neg]
          exact fun member => (List.mem_cons.mp member).elim same later

/-! ## Maps under composite keys -/

section Rows

variable {Row : Type} [DecidableEq Row]

/-- One row of a map whose keys are pairs. -/
def row (map : StorageMap (Row × Key) Value) (index : Row) : StorageMap Key Value :=
  fun key => map (index, key)

variable (map : StorageMap (Row × Key) Value)

theorem row_insert_self (index : Row) (key : Key) (value : Value) :
    (map.insert (index, key) value).row index = (map.row index).insert key value := by
  funext other
  by_cases same : other = key
  · rw [same, insert_self, row, insert_self]
  · rw [insert_of_ne _ _ same, row, insert_of_ne _ _ fun equal => same (Prod.mk.inj equal).2]
    rfl

theorem row_insert_of_ne {index other : Row} (different : other ≠ index) (key : Key)
    (value : Value) : (map.insert (index, key) value).row other = map.row other :=
  funext fun _ => insert_of_ne map value fun equal => different (Prod.mk.inj equal).1

theorem row_removeAll_self (index : Row) (keys : List Key) :
    (map.removeAll (keys.map fun key => (index, key))).row index =
      (map.row index).removeAll keys := by
  funext key
  have visits : (index, key) ∈ keys.map (fun key => (index, key)) ↔ key ∈ keys := by
    simp
  simp only [row, removeAll_apply, visits]

theorem row_removeAll_of_ne {index other : Row} (different : other ≠ index) (keys : List Key) :
    (map.removeAll (keys.map fun key => (index, key))).row other = map.row other := by
  funext key
  have misses : (other, key) ∉ keys.map (fun key => (index, key)) := by
    simp [different.symm]
  simp only [row, removeAll_apply, if_neg misses]

end Rows

end StorageMap

end Foundation
end IpciBlockchain
