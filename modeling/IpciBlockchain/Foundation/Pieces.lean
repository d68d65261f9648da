import Mathlib.Data.List.Basic

namespace IpciBlockchain
namespace Foundation

/-!
# Lists cut at separators

`List.splitOnP` cuts a list at every element that a predicate calls a
separator.  A reader that takes only the first pieces sees a list as whole, or
cut at its first separator; this says which, and that the cut is unique.
-/

namespace Pieces

variable {α : Type*} {p : α → Bool}

/-- The list has no separator. -/
def Whole (p : α → Bool) (piece : List α) : Prop :=
  ∀ x ∈ piece, p x = false

instance (p : α → Bool) (piece : List α) : Decidable (Whole p piece) :=
  inferInstanceAs (Decidable (∀ x ∈ piece, p x = false))

/-- A list is whole, or has a first separator. -/
theorem whole_or_cut (p : α → Bool) (list : List α) :
    Whole p list ∨ ∃ first c rest, list = first ++ c :: rest ∧ Whole p first ∧ p c = true := by
  induction list with
  | nil => exact Or.inl fun x member => absurd member List.not_mem_nil
  | cons x list ih =>
      by_cases separator : p x = true
      · exact Or.inr ⟨[], x, list, rfl, fun y member => absurd member List.not_mem_nil, separator⟩
      · have kept : p x = false := Bool.eq_false_iff.mpr separator
        rcases ih with whole | ⟨first, c, rest, rfl, whole, cut⟩
        · exact Or.inl (List.forall_mem_cons.mpr ⟨kept, whole⟩)
        · exact Or.inr ⟨x :: first, c, rest, rfl, List.forall_mem_cons.mpr ⟨kept, whole⟩, cut⟩

theorem splitOnP_whole {list : List α} (whole : Whole p list) : list.splitOnP p = [list] :=
  List.splitOnP_eq_singleton whole

theorem splitOnP_cut {first : List α} {c : α} (whole : Whole p first) (cut : p c = true)
    (rest : List α) : (first ++ c :: rest).splitOnP p = first :: rest.splitOnP p :=
  List.splitOnP_append_cons_of_forall_mem whole c cut rest

/-- A list with a separator is not whole. -/
theorem not_whole_cut {first : List α} {c : α} (cut : p c = true) (rest : List α) :
    ¬ Whole p (first ++ c :: rest) := by
  intro whole
  have kept := whole c (List.mem_append_right first List.mem_cons_self)
  rw [cut] at kept
  exact Bool.noConfusion kept

/-- There is only one first separator. -/
theorem cut_unique {first first' rest rest' : List α} {c c' : α}
    (whole : Whole p first) (cut : p c = true) (whole' : Whole p first') (cut' : p c' = true)
    (same : first ++ c :: rest = first' ++ c' :: rest') :
    first = first' ∧ c = c' ∧ rest = rest' := by
  have pieces : first :: rest.splitOnP p = first' :: rest'.splitOnP p := by
    rw [← splitOnP_cut whole cut rest, same, splitOnP_cut whole' cut' rest']
  have firsts : first = first' := List.head_eq_of_cons_eq pieces
  rw [firsts] at same
  have tails := List.append_cancel_left same
  exact ⟨firsts, List.head_eq_of_cons_eq tails, List.tail_eq_of_cons_eq tails⟩

end Pieces

end Foundation
end IpciBlockchain
