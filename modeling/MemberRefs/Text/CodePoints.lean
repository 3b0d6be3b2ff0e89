/-!
# Sets of code points

A set of characters is given by the closed intervals of code points it consists of, which is the form
in which the Unicode Character Database lists its properties. `has_iff` reads the membership test as
membership in one of the intervals.
-/

namespace MemberRefs.Text

/-- Closed intervals of code points, first and last one of each. -/
abbrev CodePoints := List (Nat × Nat)

namespace CodePoints

/-- Whether the code point of `c` lies in one of the intervals. -/
def has (ranges : CodePoints) (c : Char) : Bool :=
  ranges.any fun range => range.1 ≤ c.toNat && c.toNat ≤ range.2

theorem has_iff {ranges : CodePoints} {c : Char} :
    ranges.has c = true ↔ ∃ range ∈ ranges, range.1 ≤ c.toNat ∧ c.toNat ≤ range.2 := by
  simp [has]

/-- How many code points the intervals hold, when they do not overlap. -/
def count (ranges : CodePoints) : Nat :=
  ranges.foldl (fun n range => n + (range.2 + 1 - range.1)) 0

end CodePoints

end MemberRefs.Text
