/-!
# Sets of code points

A set of code points is kept as its inversion list: the ascending places where membership changes,
starting outside the set.  A code point belongs to the set exactly if an odd number of these
places lie at or before it.
-/

namespace CallGraph.Text

/-- A set of code points, given by the places where membership changes. -/
structure CodePointSet where
  bounds : List Nat

/-- Whether the character lies in the set. -/
def CodePointSet.contains (set : CodePointSet) (c : Char) : Bool :=
  (set.bounds.takeWhile (· ≤ c.toNat)).length % 2 == 1

end CallGraph.Text
