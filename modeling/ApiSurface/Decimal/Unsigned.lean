import ApiSurface.Text.Blank

/-!
This module contains the reading of natural numbers from settings.
-/

namespace ApiSurface.Decimal

/--
The number that decimal digits are.
-/
def digitsValue (ds : List Char) : Nat :=
  ds.foldl (fun n d => n * 10 + (d.toNat - 48)) 0

/--
Read a number below `2 ^ 64`: decimal digits, perhaps behind a plus sign.
-/
def unsigned? (s : String) : Option Nat :=
  let digits := match s.toList with
    | '+' :: rest => rest
    | cs => cs
  if digits.isEmpty || !digits.all Char.isDigit then none
  else if digitsValue digits < Nat.pow 2 64 then some (digitsValue digits)
  else none

end ApiSurface.Decimal
