import ApiSurface.Decimal.Unsigned

/-!
This module contains how long an external program may run, in seconds.
-/

namespace ApiSurface.Timeout

/--
The time if nothing else is said.
-/
def default : Nat := 300

/--
The longest time.
-/
def longest : Nat := 3600

/--
The time for a wish: no wish at all is a zero, and no wish goes beyond the longest time.
-/
def ofWish (seconds : Nat) : Nat :=
  if seconds = 0 then default else min seconds longest

/--
The time that a text asks for. A text that is no number asks for nothing.
-/
def ofText (s : String) : Nat :=
  ofWish ((Decimal.unsigned? (Text.trim s)).getD 0)

end ApiSurface.Timeout
