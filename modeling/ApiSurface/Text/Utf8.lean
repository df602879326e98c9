/-!
This module contains the reading of encoded text that may be damaged. Bytes that belong to no character are
replaced: the longest start of a sequence that goes wrong counts as one damage.
-/

namespace ApiSurface.Utf8

/--
What the next bytes are.
-/
inductive Step where
  | ends
  | char (c : Char) (rest : List UInt8)
  /-- Bytes that belong to no character stand in front of the rest. -/
  | damage (rest : List UInt8)
  /-- The bytes end within a sequence that is right so far. -/
  | unfinished
deriving Repr

/--
The range of a byte that continues a sequence.
-/
def continuation : UInt8 × UInt8 :=
  (0x80, 0xBF)

/--
What the first byte of a longer sequence says: its part of the character's number, and the ranges of the bytes
that follow.
-/
def lead? (b : UInt8) : Option (Nat × List (UInt8 × UInt8)) :=
  if 0xC2 ≤ b && b ≤ 0xDF then some (b.toNat % 32, [continuation])
  else if b == 0xE0 then some (b.toNat % 16, [(0xA0, 0xBF), continuation])
  else if b == 0xED then some (b.toNat % 16, [(0x80, 0x9F), continuation])
  else if 0xE1 ≤ b && b ≤ 0xEF then some (b.toNat % 16, [continuation, continuation])
  else if b == 0xF0 then some (b.toNat % 8, [(0x90, 0xBF), continuation, continuation])
  else if b == 0xF4 then some (b.toNat % 8, [(0x80, 0x8F), continuation, continuation])
  else if 0xF1 ≤ b && b ≤ 0xF3 then some (b.toNat % 8, [continuation, continuation, continuation])
  else none

/--
Go on with a sequence: `n` is the number so far, and the ranges are those of the bytes that are missing.
-/
def tail (n : Nat) : List (UInt8 × UInt8) → List UInt8 → Step
  | [], rest => .char (Char.ofNat n) rest
  | _ :: _, [] => .unfinished
  | (low, high) :: ranges, b :: rest =>
    if low ≤ b && b ≤ high then tail (n * 64 + b.toNat % 64) ranges rest
    else .damage (b :: rest)

/--
The next character, or what stands in its place.
-/
def next : List UInt8 → Step
  | [] => .ends
  | b :: rest =>
    if b < 0x80 then .char (Char.ofNat b.toNat) rest
    else
      match lead? b with
      | none => .damage rest
      | some (n, ranges) => tail n ranges rest

theorem tail_char_length {n : Nat} {ranges : List (UInt8 × UInt8)} {bs rest : List UInt8} {c : Char}
    (h : tail n ranges bs = .char c rest) : rest.length ≤ bs.length := by
  fun_induction tail n ranges bs with
  | case1 => simp_all
  | case2 => simp at h
  | case3 n low high ranges b tl _ ih =>
    have := ih h
    simp only [List.length_cons]
    omega
  | case4 => simp at h

theorem tail_damage_length {n : Nat} {ranges : List (UInt8 × UInt8)} {bs rest : List UInt8}
    (h : tail n ranges bs = .damage rest) : rest.length ≤ bs.length := by
  fun_induction tail n ranges bs with
  | case1 => simp at h
  | case2 => simp at h
  | case3 n low high ranges b tl _ ih =>
    have := ih h
    simp only [List.length_cons]
    omega
  | case4 => simp_all

theorem next_char_length {bs rest : List UInt8} {c : Char} (h : next bs = .char c rest) :
    rest.length < bs.length := by
  unfold next at h
  split at h
  · simp at h
  · split at h
    · simp_all
    · split at h
      · simp at h
      · have := tail_char_length h
        simp only [List.length_cons]
        omega

theorem next_damage_length {bs rest : List UInt8} (h : next bs = .damage rest) : rest.length < bs.length := by
  unfold next at h
  split at h
  · simp at h
  · split at h
    · simp at h
    · split at h
      · simp_all
      · have := tail_damage_length h
        simp only [List.length_cons]
        omega

/--
What stands for damage.
-/
def replacement : Char := '\uFFFD'

/--
Why a run of whole characters is over.
-/
inductive Stop where
  | ends
  /-- Bytes that belong to no character stand in front of the rest. -/
  | damage (rest : List UInt8)
  /-- What is left is the start of a sequence that is right so far. -/
  | unfinished (rest : List UInt8)
deriving Repr

/--
The characters in front of the first damage, and why they are over.
-/
def wholeChars (bs : List UInt8) : List Char × Stop :=
  match h : next bs with
  | .ends => ([], .ends)
  | .char c rest =>
    have := next_char_length h
    let (cs, stop) := wholeChars rest
    (c :: cs, stop)
  | .damage rest => ([], .damage rest)
  | .unfinished => ([], .unfinished bs)
termination_by bs.length

theorem wholeChars_damage_length {bs rest : List UInt8} (h : (wholeChars bs).2 = .damage rest) :
    rest.length < bs.length := by
  fun_induction wholeChars bs with
  | case1 => simp at h
  | case2 bs c tl hnext _ cs stop _ ih =>
    have := next_char_length hnext
    have := ih (by simp_all)
    omega
  | case3 bs tl hnext =>
    have := next_damage_length hnext
    simp_all
  | case4 => simp at h

/--
The characters of bytes.
-/
def decode (bs : List UInt8) : List Char :=
  match h : next bs with
  | .ends => []
  | .char c rest =>
    have := next_char_length h
    c :: decode rest
  | .damage rest =>
    have := next_damage_length h
    replacement :: decode rest
  | .unfinished => [replacement]
termination_by bs.length

end ApiSurface.Utf8
