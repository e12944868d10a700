/-!
# Ranges of code points

A property of characters is given as the list of the ranges of code points that have it.
-/

namespace MessageBus.Text

/-- The code points from `first` to `last`, both included. -/
structure CodeRange where
  first : Nat
  last : Nat
deriving DecidableEq, Repr

namespace CodeRange

/-- Whether a code point lies in the range. -/
def contains (r : CodeRange) (n : Nat) : Bool := r.first ≤ n && n ≤ r.last

end CodeRange

/-- Whether a character lies in one of the ranges. -/
def memRanges (table : List CodeRange) (c : Char) : Bool := table.any (·.contains c.toNat)

end MessageBus.Text
