import ApiSurface.Decimal.Shortest

/-!
This module contains the decimal text of a number with a fixed number of places. The exact value is rounded to the
nearest text, and a value in the middle goes to the even one.
-/

namespace ApiSurface.Decimal

/--
The whole number nearest to a quotient; a half goes to the even neighbour.
-/
def roundDiv (n d : Nat) : Nat :=
  let q := n / d
  let r := n % d
  if 2 * r < d then q
  else if d < 2 * r then q + 1
  else if q % 2 == 0 then q else q + 1

/--
The text of a whole number of the smallest unit, of which there are `10 ^ places` in one.
-/
def placesText (n places : Nat) : String :=
  let digits := toString (n % Nat.pow 10 places)
  toString (n / Nat.pow 10 places) ++ "." ++ "".pushn '0' (places - digits.length) ++ digits

/--
The text of a number with one or more places.
-/
def Binary.fixed (x : Binary) (places : Nat) : String :=
  let n := x.mantissa * Nat.pow 2 x.exponent.toNat * Nat.pow 10 places
  placesText (roundDiv n (Nat.pow 2 (-x.exponent).toNat)) places

/--
The text of a share in percent with one place, by the arithmetic of doubles.
-/
def percentText (part whole : Nat) : String :=
  let share := if whole == 0 then 0 else part.toFloat / whole.toFloat
  ((Binary.ofBits? (share * 100).toBits).getD ⟨0, 0⟩).fixed 1 ++ "%"

end ApiSurface.Decimal
