/-!
This module contains the shortest decimal text of a binary floating point number: the fewest digits that
read back as the same number, written positionally.
-/

namespace ApiSurface.Decimal

/--
A positive number of the form `mantissa * 2 ^ exponent`, as a double holds it.
-/
structure Binary where
  mantissa : Nat
  exponent : Int

/--
The finite positive double with these bits, if they are one.
-/
def Binary.ofBits? (bits : UInt64) : Option Binary :=
  let n := bits.toNat % Nat.pow 2 63
  let fraction := n % Nat.pow 2 52
  let biased := n / Nat.pow 2 52
  if biased == 2047 then none
  else if biased == 0 then some ⟨fraction, -1074⟩
  else some ⟨fraction + Nat.pow 2 52, Int.ofNat biased - 1075⟩

/--
Four times the number and the two ends of the interval that rounds to it, over one common denominator.
-/
structure Interval where
  low : Nat
  mid : Nat
  high : Nat
  denominator : Nat
  closed : Bool

/--
The interval of reals that round to the number; its ends belong to it iff the mantissa is even.
-/
def Binary.interval (x : Binary) : Interval :=
  let up := Nat.pow 2 x.exponent.toNat
  let down := Nat.pow 2 (-x.exponent).toNat
  let atPower := x.mantissa == Nat.pow 2 52 && x.exponent > -1074
  { low := (4 * x.mantissa - (if atPower then 1 else 2)) * up
    mid := 4 * x.mantissa * up
    high := (4 * x.mantissa + 2) * up
    denominator := 4 * down
    closed := x.mantissa % 2 == 0 }

/--
Whether `digits * 10 ^ scale` lies in the interval.
-/
def Interval.holds (i : Interval) (digits : Nat) (scale : Int) : Bool :=
  let value := digits * Nat.pow 10 scale.toNat * i.denominator
  let unit := Nat.pow 10 (-scale).toNat
  let low := i.low * unit
  let high := i.high * unit
  if i.closed then low ≤ value && value ≤ high else low < value && value < high

/--
The neighbours of the number on the grid of step `10 ^ scale`, the nearer first.
-/
def Interval.neighbours (i : Interval) (scale : Int) : List Nat :=
  let top := i.mid * Nat.pow 10 (-scale).toNat
  let step := Nat.pow 10 scale.toNat * i.denominator
  let below := top / step
  let remainder := top % step
  if 2 * remainder > step then [below + 1, below] else [below, below + 1]

/--
The first grid, from coarse to fine, that has a point in the interval.
-/
def Interval.search (i : Interval) : Nat → Int → Option (Nat × Int)
  | 0, _ => none
  | fuel + 1, scale =>
    match (i.neighbours scale).find? (fun d => d != 0 && i.holds d scale) with
    | some digits => some (digits, scale)
    | none => i.search fuel (scale - 1)

/--
Digits and a power of ten, written without an exponent and always with a decimal point.
-/
def positional (digits : Nat) (scale : Int) : String :=
  if 0 ≤ scale then toString (digits * Nat.pow 10 scale.toNat) ++ ".0"
  else
    let places := (-scale).toNat
    let unit := Nat.pow 10 places
    let fraction := toString (digits % unit)
    toString (digits / unit) ++ "." ++ String.ofList (List.replicate (places - fraction.length) '0') ++ fraction

/--
The positional text of a finite double with the fewest digits that read back.
-/
def shortest? (bits : UInt64) : Option String :=
  let sign := if bits.toNat ≥ Nat.pow 2 63 then "-" else ""
  match Binary.ofBits? bits with
  | none => none
  | some x =>
    if x.mantissa == 0 then some (sign ++ "0.0")
    else
      match x.interval.search 660 309 with
      | some (digits, scale) => some (sign ++ positional digits scale)
      | none => none

end ApiSurface.Decimal
