/-!
This module contains numbers as bytes: the little-endian form of a fixed width, and the hexadecimal text of bytes.
-/

namespace ApiSurface.Bytes

/--
The lowest `width` bytes of a number, the lowest one first.
-/
def littleEndian : Nat → Nat → List UInt8
  | 0, _ => []
  | width + 1, n => UInt8.ofNat n :: littleEndian width (n / 256)

/--
The number that bytes are the little-endian form of.
-/
def littleEndianValue : List UInt8 → Nat
  | [] => 0
  | b :: bs => b.toNat + 256 * littleEndianValue bs

theorem length_littleEndian (width n : Nat) : (littleEndian width n).length = width := by
  induction width generalizing n with
  | zero => rfl
  | succ width ih => simp [littleEndian, ih]

theorem littleEndianValue_littleEndian (width n : Nat) (h : n < Nat.pow 256 width) :
    littleEndianValue (littleEndian width n) = n := by
  induction width generalizing n with
  | zero =>
    have : n = 0 := by simpa using h
    simp [littleEndian, littleEndianValue, this]
  | succ width ih =>
    have small : n / 256 < Nat.pow 256 width := by
      apply (Nat.div_lt_iff_lt_mul (by decide)).mpr
      exact h
    simp only [littleEndian, littleEndianValue, ih _ small]
    simp only [UInt8.toNat_ofNat', Nat.reducePow]
    omega

/--
The lower-case hexadecimal digit of a number below sixteen.
-/
def hexDigit (n : Nat) : Char :=
  if n < 10 then Char.ofNat (48 + n) else Char.ofNat (87 + n)

/--
The two hexadecimal digits of a byte.
-/
def hexByte (b : UInt8) : List Char :=
  [hexDigit (b.toNat / 16), hexDigit (b.toNat % 16)]

/--
The hexadecimal text of bytes.
-/
def hexText (bs : List UInt8) : String :=
  String.ofList (bs.flatMap hexByte)

end ApiSurface.Bytes
