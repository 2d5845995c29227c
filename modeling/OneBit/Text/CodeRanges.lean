/-!
# Character classes as ranges of code points

A character class that no formula describes is a list of closed ranges of code points.
-/

namespace OneBit.Text

/-- Closed ranges of code points, each given by its first and its last member. -/
abbrev CodeRanges := List (Nat × Nat)

def CodeRanges.contains (ranges : CodeRanges) (c : Char) : Bool :=
  ranges.any fun range => range.1 ≤ c.toNat && c.toNat ≤ range.2

end OneBit.Text
