/-! Sets of characters as lists of code point ranges, for properties that Unicode gives
by tables. The ranges of a table rise and do not touch, so that a search can stop at the
first range that begins too late. -/

namespace TabularOntology.Text

/-- Code point ranges with both ends, in rising order. -/
abbrev Ranges := List (Nat × Nat)

namespace Ranges

/-- Whether some range holds a code point. -/
def covers : Ranges → Nat → Bool
  | [], _ => false
  | (low, high) :: rest, n => decide (low ≤ n) && (decide (n ≤ high) || covers rest n)

def contains (rs : Ranges) (c : Char) : Bool := rs.covers c.toNat

end Ranges

end TabularOntology.Text
