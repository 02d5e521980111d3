/-!
# Sets of characters given by ranges

The character database describes a property by the ranges of code points that have it. A set in
this form is a list of inclusive ranges; a character belongs to it when one of the ranges holds its
code point.
-/

namespace Formula.Text

/-- A set of code points, written as inclusive ranges. -/
abbrev Ranges := List (Nat × Nat)

/-- Whether one of the ranges holds `c`. -/
def Ranges.contains (ranges : Ranges) (c : Char) : Bool :=
  ranges.any fun range => range.1 ≤ c.toNat && c.toNat ≤ range.2

/-- A character is found if it lies between the bounds of one of the ranges. -/
theorem Ranges.contains_iff {ranges : Ranges} {c : Char} :
    ranges.contains c = true ↔ ∃ range ∈ ranges, range.1 ≤ c.toNat ∧ c.toNat ≤ range.2 := by
  simp [Ranges.contains]

end Formula.Text
