import Mathlib.Data.List.Basic

namespace IpciBlockchain
namespace Foundation

/-!
# Ordered choice

A reader that tries several alternatives one after the other answers with the
first that accepts its input.  On an input on which all accepting alternatives
agree the order does not matter, and on any other it does.
-/

variable {Input Value : Type*}

/-- The answer of the first alternative that accepts the input. -/
def firstOf (alternatives : List (Input → Option Value)) (input : Input) : Option Value :=
  alternatives.findSome? fun alternative => alternative input

/-- The alternatives that accept the input agree on its value. -/
def AgreeOn (alternatives : List (Input → Option Value)) (input : Input) : Prop :=
  ∀ first ∈ alternatives, ∀ second ∈ alternatives, ∀ value value',
    first input = some value → second input = some value' → value = value'

section

variable {alternatives order : List (Input → Option Value)} {input : Input}

theorem firstOf_cons_of_accepts {first : Input → Option Value} {value : Value}
    (accepts : first input = some value) : firstOf (first :: alternatives) input = some value := by
  rw [firstOf, List.findSome?_cons, accepts]

/-- Where the alternatives agree, what one of them accepts is the answer. -/
theorem firstOf_eq_some_of_agree (agree : AgreeOn alternatives input)
    {alternative : Input → Option Value} (member : alternative ∈ alternatives) {value : Value}
    (accepts : alternative input = some value) : firstOf alternatives input = some value := by
  have answered : (firstOf alternatives input).isSome = true := by
    apply List.findSome?_isSome_iff.mpr
    exact ⟨alternative, member, by rw [accepts]; rfl⟩
  rcases Option.isSome_iff_exists.mp answered with ⟨value', found⟩
  rcases List.exists_of_findSome?_eq_some found with ⟨other, member', accepts'⟩
  rw [found, agree alternative member other member' value value' accepts accepts']

/-- The order of the alternatives does not matter for an input if and only if
those that accept it agree. -/
theorem firstOf_perm_iff :
    (∀ order, order.Perm alternatives → firstOf order input = firstOf alternatives input) ↔
      AgreeOn alternatives input := by
  constructor
  · intro same first member second member' value value' accepts accepts'
    have inFront : ∀ alternative ∈ alternatives, ∀ answer, alternative input = some answer →
        firstOf alternatives input = some answer := by
      intro alternative listed answer accepted
      rcases List.append_of_mem listed with ⟨before, after, rfl⟩
      rw [← same (alternative :: (before ++ after)) List.perm_middle.symm]
      exact firstOf_cons_of_accepts accepted
    have answer := inFront first member value accepts
    rw [inFront second member' value' accepts'] at answer
    exact (Option.some.inj answer).symm
  · intro agree order permuted
    cases answer : firstOf order input with
    | some value =>
        rcases List.exists_of_findSome?_eq_some answer with ⟨alternative, member, accepts⟩
        exact (firstOf_eq_some_of_agree agree (permuted.mem_iff.mp member) accepts).symm
    | none =>
        have refused : ∀ alternative ∈ alternatives, alternative input = none := by
          intro alternative member
          exact List.findSome?_eq_none_iff.mp answer alternative (permuted.mem_iff.mpr member)
        exact (List.findSome?_eq_none_iff.mpr refused).symm

end

end Foundation
end IpciBlockchain
