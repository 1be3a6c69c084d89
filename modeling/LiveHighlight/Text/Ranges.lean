/-! Sets of code points given as inclusive ranges. -/

namespace LiveHighlight.Text

/-- Membership of a code point in one of the ranges. -/
def inRanges (ranges : List (Nat × Nat)) (n : Nat) : Bool :=
  ranges.any fun r => r.1 ≤ n && n ≤ r.2

theorem inRanges_iff (ranges : List (Nat × Nat)) (n : Nat) :
    inRanges ranges n = true ↔ ∃ r ∈ ranges, r.1 ≤ n ∧ n ≤ r.2 := by
  simp [inRanges]

end LiveHighlight.Text
