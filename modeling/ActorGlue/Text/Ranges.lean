/-!
# Character classes given by ranges

A class of characters is a list of inclusive code point ranges.
-/

namespace ActorGlue.Text

/-- Inclusive code point ranges, in increasing order. -/
abbrev Ranges := List (Nat × Nat)

/-- The ranges of a class that is given by run lengths from some code point on: how many code points
are not in the class, then how many are, and so on. -/
def Ranges.ofRuns : (start : Nat) → List Nat → Ranges
  | start, outside :: inside :: runs =>
      (start + outside, start + outside + inside - 1) :: ofRuns (start + outside + inside) runs
  | _, _ => []

/-- The character lies in one of the ranges. -/
def Ranges.holds (ranges : Ranges) (c : Char) : Bool :=
  ranges.any fun range => range.1 ≤ c.toNat && c.toNat ≤ range.2

theorem Ranges.holds_iff {ranges : Ranges} {c : Char} :
    ranges.holds c = true ↔ ∃ range ∈ ranges, range.1 ≤ c.toNat ∧ c.toNat ≤ range.2 := by
  simp [Ranges.holds]

end ActorGlue.Text
