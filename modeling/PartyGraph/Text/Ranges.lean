/-!
# Sets of code points given by ranges

Properties of the Unicode character database are tables of closed ranges. This module holds the
one way such a table is read.

## Main definitions

* `inRanges`: membership of a character in a table of ranges.
-/

namespace PartyGraph.Text

/-- Whether the code point of `c` lies in one of the closed ranges of `table`. -/
def inRanges (table : List (Nat × Nat)) (c : Char) : Bool :=
  table.any fun r => r.1 ≤ c.toNat && c.toNat ≤ r.2

end PartyGraph.Text
