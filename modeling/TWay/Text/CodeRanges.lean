/-!
# Character classes as ranges of code points

A character class is given by the ranges of code points it consists of. Main statement:
`CodeRanges.has_eq_true`, membership is lying in one of the ranges.
-/

namespace TWay.Text

/-- Ranges of code points, both ends included. -/
abbrev CodeRanges := List (Nat × Nat)

namespace CodeRanges

/-- Whether a character lies in one of the ranges. -/
def has (ranges : CodeRanges) (c : Char) : Bool :=
  ranges.any fun r => decide (r.1 ≤ c.toNat) && decide (c.toNat ≤ r.2)

theorem has_eq_true {ranges : CodeRanges} {c : Char} :
    ranges.has c = true ↔ ∃ r ∈ ranges, r.1 ≤ c.toNat ∧ c.toNat ≤ r.2 := by
  simp [has, List.any_eq_true]

end CodeRanges

end TWay.Text
