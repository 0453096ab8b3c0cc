/-!
# Ranges of characters

Sets of characters that are given by ranges, as the properties of the Unicode standard are.
-/

namespace PageServer
namespace Text

/-- The first character of each range and the first one behind it, in rising order. -/
abbrev Ranges := List Nat

namespace Ranges

/-- A character lies in a range when it has passed an odd number of ends. -/
def contains (r : Ranges) (c : Char) : Bool :=
  (r.takeWhile (· ≤ c.toNat)).length % 2 == 1

end Ranges
end Text
end PageServer
