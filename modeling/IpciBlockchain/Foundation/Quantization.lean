import Mathlib.Algebra.Order.BigOperators.Group.List
import Mathlib.Order.GaloisConnection.Basic
import Mathlib.Tactic.Abel

namespace IpciBlockchain
namespace Foundation

/-!
# Rounding amounts down to whole units

An amount is rounded down to a number of units, and a number of units has a
worth.  The two directions form a Galois connection: the rounded number is
the largest one whose worth does not exceed the amount.  When worth is
additive, rounding the members of a list separately can only lose, so units
that are handed out from such a list are never worth more than the list.
-/

namespace Quantization

variable {Amount Units : Type} [AddCommMonoid Amount] [PartialOrder Amount]
  [IsOrderedAddMonoid Amount] [AddCommMonoid Units] [PartialOrder Units]
  {worth : Units →+ Amount} {units : Amount → Units}

/-- Amounts that are rounded down separately are together worth no more than
their sum. -/
theorem worth_sum_units_le (connection : GaloisConnection worth units) (amounts : List Amount) :
    worth (amounts.map units).sum ≤ amounts.sum := by
  rw [map_list_sum, List.map_map]
  calc
    (amounts.map (worth ∘ units)).sum ≤ (amounts.map id).sum :=
      List.sum_le_sum fun amount _ => connection.l_u_le amount
    _ = amounts.sum := by rw [List.map_id]

/-- The same bound for any conversion that never exceeds the rounding, such as
one that loses high digits. -/
theorem worth_le_sum [IsOrderedAddMonoid Units] (connection : GaloisConnection worth units)
    {convert : Amount → Units} (deflates : ∀ amount, convert amount ≤ units amount)
    {amounts : List Amount} {total : Units}
    (budget : total ≤ (amounts.map convert).sum) : worth total ≤ amounts.sum := by
  have rounded : (amounts.map convert).sum ≤ (amounts.map units).sum :=
    List.sum_le_sum fun amount _ => deflates amount
  calc
    worth total ≤ worth (amounts.map units).sum := connection.monotone_l (budget.trans rounded)
    _ ≤ amounts.sum := worth_sum_units_le connection amounts

omit [PartialOrder Units] in
/-- What is lost in a list is at most what is lost in each of its members. -/
theorem sum_le_worth_add {convert : Amount → Units} {amounts : List Amount} {slack : Amount}
    (near : ∀ amount ∈ amounts, amount ≤ worth (convert amount) + slack) :
    amounts.sum ≤ worth (amounts.map convert).sum + amounts.length • slack := by
  induction amounts with
  | nil => simp
  | cons amount rest ih =>
      have first := near amount List.mem_cons_self
      have others := ih fun other member => near other (List.mem_cons_of_mem amount member)
      rw [List.map_cons, List.sum_cons, List.sum_cons, List.length_cons, map_add, succ_nsmul]
      calc
        amount + rest.sum ≤ (worth (convert amount) + slack) +
            (worth (rest.map convert).sum + rest.length • slack) := add_le_add first others
        _ = worth (convert amount) + worth (rest.map convert).sum +
            (rest.length • slack + slack) := by abel

end Quantization

end Foundation
end IpciBlockchain
