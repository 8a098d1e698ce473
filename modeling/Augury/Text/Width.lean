import Augury.Text.Wide
import Augury.Text.ZeroWidth

/-!
# The columns that a character takes

How many columns of a terminal a character fills: none when it has no column of its own, two when it is
wide, and one otherwise; control characters fill one.  Two letters of Khmer are shown as several letters
and count as those.
-/

set_option autoImplicit false

namespace Augury.Text

/-- The number of columns that a character takes. -/
def width (c : Char) : Nat :=
  if c = '\u17d8' then 3
  else if c = '\u17a4' then 2
  else if isZeroWidth c then 0
  else if isWide c then 2
  else 1

end Augury.Text
