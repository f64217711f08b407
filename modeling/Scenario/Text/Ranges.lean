/-!
# Ranges of code points

A character property is kept as a list of closed ranges of code points in ascending order.
-/

namespace Scenario.Text

/-- A property of characters: closed ranges of code points, ascending. -/
abbrev Ranges := List (Nat × Nat)

/-- Whether a code point lies in one of the ranges. -/
def Ranges.covers (table : Ranges) (n : Nat) : Bool :=
  table.any fun r => r.1 ≤ n && n ≤ r.2

theorem Ranges.covers_iff (table : Ranges) (n : Nat) :
    table.covers n = true ↔ ∃ r ∈ table, r.1 ≤ n ∧ n ≤ r.2 := by
  simp [Ranges.covers]

end Scenario.Text
