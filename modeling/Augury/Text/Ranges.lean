/-!
# Sets of characters as ranges of code points

A property of characters is written as the list of the code point ranges that have it, each range
with its first and its last code point.
-/

set_option autoImplicit false

namespace Augury.Text

/-- A set of code points, as the first and last code point of each of its ranges. -/
abbrev Ranges := List (Nat × Nat)

/-- Whether a character lies in one of the ranges. -/
def Ranges.contains (ranges : Ranges) (c : Char) : Bool :=
  ranges.any fun range => range.1 ≤ c.toNat && c.toNat ≤ range.2

end Augury.Text
