/-!
# Classes of characters given by ranges of code points

A class of characters of a published standard is a table of closed ranges of code points, in
ascending order.  `inRanges` is the one way such a table is read.
-/

namespace CausalUpdate.Text

/-- A table of closed ranges of code points. -/
abbrev Ranges := List (Nat × Nat)

/-- The character's code point lies in one of the ranges. -/
def inRanges (table : Ranges) (c : Char) : Bool :=
  table.any fun r => r.1 ≤ c.toNat && c.toNat ≤ r.2

/-- A table holds a character exactly when one of its ranges does. -/
theorem inRanges_iff {table : Ranges} {c : Char} :
    inRanges table c = true ↔ ∃ r ∈ table, r.1 ≤ c.toNat ∧ c.toNat ≤ r.2 := by
  simp [inRanges]

end CausalUpdate.Text
