/-!
# Sets of code points

A property of characters is kept as the list of its ranges, as the tables of the standard print it.
-/

namespace Overprint.Text

/-- A set of characters, as inclusive ranges of code points. -/
structure CodeSet where
  ranges : List (Nat × Nat)

/-- Whether a character's code point lies in one of the ranges. -/
def CodeSet.contains (set : CodeSet) (c : Char) : Bool :=
  set.ranges.any fun (first, last) => first ≤ c.toNat && c.toNat ≤ last

end Overprint.Text
