/-! Sets of characters as ranges of code points, bounds included, in ascending order. -/
namespace CommandGrammar.Text

abbrev Ranges := List (Nat × Nat)

namespace Ranges

/-- Whether a code point is in a range. The search ends at the first range behind it. -/
def covers : Ranges → Nat → Bool
  | [], _ => false
  | (first, last) :: rest, n => first ≤ n && (n ≤ last || covers rest n)

def has (ranges : Ranges) (c : Char) : Bool := ranges.covers c.toNat

end Ranges
end CommandGrammar.Text
