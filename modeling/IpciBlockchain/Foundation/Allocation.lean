import Mathlib.Algebra.Order.BigOperators.Group.List
import Mathlib.Algebra.Order.Ring.Nat
import Mathlib.Data.List.Perm.Subperm
import Mathlib.Data.List.Dedup

namespace IpciBlockchain
namespace Foundation

/-!
# Amounts listed by name

A list gives amounts to names.  Who reads it keeps one amount for each name,
one that is listed for it.  What is kept never exceeds what is listed, and it
is all of it exactly if no name is listed twice.
-/

namespace Allocation

variable {K : Type*}

def names (entries : List (K × ℕ)) : List K :=
  entries.map Prod.fst

/-- The sum of all listed amounts. -/
def listed (entries : List (K × ℕ)) : ℕ :=
  (entries.map Prod.snd).sum

/-- Every name keeps an amount that is listed for it. -/
def Keeps (entries : List (K × ℕ)) (kept : K → ℕ) : Prop :=
  ∀ name ∈ names entries, (name, kept name) ∈ entries

variable [DecidableEq K]

/-- The sum of what the names keep. -/
def total (entries : List (K × ℕ)) (kept : K → ℕ) : ℕ :=
  ((names entries).dedup.map kept).sum

variable {entries : List (K × ℕ)} {kept : K → ℕ}

/-- The kept entries are among the listed ones, each at most once. -/
theorem exists_dropped (keeps : Keeps entries kept) :
    ∃ dropped, entries.Perm
      (((names entries).dedup.map fun name => (name, kept name)) ++ dropped) := by
  have distinct : ((names entries).dedup.map fun name => (name, kept name)).Nodup := by
    apply (List.nodup_dedup (names entries)).map
    intro a b same
    exact congrArg Prod.fst same
  have included : ((names entries).dedup.map fun name => (name, kept name)) ⊆ entries := by
    intro entry member
    rcases List.mem_map.mp member with ⟨name, named, rfl⟩
    exact keeps name (List.mem_dedup.mp named)
  rcases distinct.subperm included with ⟨ordered, same, sub⟩
  rcases sub.exists_perm_append with ⟨dropped, perm⟩
  exact ⟨dropped, perm.trans (same.append_right dropped)⟩

/-- What is listed is kept or dropped. -/
theorem listed_eq_total_add {dropped : List (K × ℕ)}
    (perm : entries.Perm (((names entries).dedup.map fun name => (name, kept name)) ++ dropped)) :
    listed entries = total entries kept + listed dropped := by
  have sums := (perm.map Prod.snd).sum_eq
  rw [List.map_append, List.map_map, List.sum_append] at sums
  exact sums

/-- Nothing is dropped exactly if no name is listed twice. -/
theorem dropped_eq_nil_iff {dropped : List (K × ℕ)}
    (perm : entries.Perm (((names entries).dedup.map fun name => (name, kept name)) ++ dropped)) :
    dropped = [] ↔ (names entries).Nodup := by
  have namesPerm : (names entries).Perm ((names entries).dedup ++ names dropped) := by
    have mapped := perm.map Prod.fst
    have firsts : (names entries).dedup.map (Prod.fst ∘ fun name => (name, kept name)) =
        (names entries).dedup := List.map_id _
    rw [List.map_append, List.map_map, firsts] at mapped
    exact mapped
  constructor
  · rintro rfl
    rw [namesPerm.nodup_iff]
    exact (List.append_nil _).symm ▸ List.nodup_dedup _
  · intro nodup
    have lengths := namesPerm.length_eq
    rw [nodup.dedup, List.length_append] at lengths
    have none : (names dropped).length = 0 := by omega
    exact List.map_eq_nil_iff.mp (List.eq_nil_of_length_eq_zero none)

/-- If every amount is positive, what the names keep is all that is listed
exactly if no name is listed twice. -/
theorem listed_eq_total_iff (keeps : Keeps entries kept)
    (positive : ∀ entry ∈ entries, 0 < entry.2) :
    listed entries = total entries kept ↔ (names entries).Nodup := by
  rcases exists_dropped keeps with ⟨dropped, perm⟩
  have split := listed_eq_total_add perm
  rw [← dropped_eq_nil_iff perm]
  constructor
  · intro conserved
    cases dropped with
    | nil => rfl
    | cons entry rest =>
        have member := perm.mem_iff.mpr (List.mem_append_right _ List.mem_cons_self)
        have amount := positive entry member
        have sum : listed (entry :: rest) = entry.2 + listed rest := List.sum_cons
        omega
  · rintro rfl
    exact split

end Allocation

end Foundation
end IpciBlockchain
