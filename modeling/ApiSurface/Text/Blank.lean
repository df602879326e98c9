/-!
This module contains the blank characters of Unicode and the operations on text that depend on them:
trimming, splitting into lines and words, and squashing runs of blanks.
-/

namespace ApiSurface.Text

/--
The characters with the Unicode property `White_Space`.
-/
def isBlank (c : Char) : Bool :=
  let n := c.toNat
  (9 ≤ n && n ≤ 13) || n == 0x20 || n == 0x85 || n == 0xA0 || n == 0x1680 ||
  (0x2000 ≤ n && n ≤ 0x200A) || n == 0x2028 || n == 0x2029 || n == 0x202F || n == 0x205F ||
  n == 0x3000

/--
Remove the longest run at the front whose characters all satisfy `p`.
-/
def dropFront (p : Char → Bool) (cs : List Char) : List Char :=
  cs.dropWhile p

/--
Remove the longest run at the back whose characters all satisfy `p`.
-/
def dropBack (p : Char → Bool) (cs : List Char) : List Char :=
  (cs.reverse.dropWhile p).reverse

/--
The characters without the blanks at both ends.
-/
def trimChars (cs : List Char) : List Char :=
  dropBack isBlank (dropFront isBlank cs)

/--
The text without the blanks at both ends.
-/
def trim (s : String) : String :=
  String.ofList (trimChars s.toList)

/--
The text without the blanks at its end.
-/
def trimEnd (s : String) : String :=
  String.ofList (dropBack isBlank s.toList)

/--
The text without the leading characters that satisfy `p`.
-/
def trimStartWhile (p : Char → Bool) (s : String) : String :=
  String.ofList (dropFront p s.toList)

theorem length_dropFront_le (p : Char → Bool) (cs : List Char) : (dropFront p cs).length ≤ cs.length := by
  apply (List.dropWhile_sublist p).length_le

theorem length_dropBack_le (p : Char → Bool) (cs : List Char) : (dropBack p cs).length ≤ cs.length := by
  have := (List.dropWhile_sublist p (l := cs.reverse)).length_le
  simpa [dropBack] using this

theorem length_trim_le (s : String) : (trim s).length ≤ s.length := by
  unfold trim trimChars
  rw [String.length_ofList, ← String.length_toList]
  exact Nat.le_trans (length_dropBack_le _ _) (length_dropFront_le _ _)

theorem length_trimStartWhile_le (p : Char → Bool) (s : String) : (trimStartWhile p s).length ≤ s.length := by
  unfold trimStartWhile
  rw [String.length_ofList, ← String.length_toList]
  apply length_dropFront_le

/--
The text without the trailing characters that satisfy `p`.
-/
def trimEndWhile (p : Char → Bool) (s : String) : String :=
  String.ofList (dropBack p s.toList)

/--
A text is blank if it has no other characters than blanks.
-/
def isBlankText (s : String) : Bool :=
  s.toList.all isBlank

/--
Cut at every character that satisfies `p`. There is always at least one part.
-/
def splitChars (p : Char → Bool) : List Char → List (List Char)
  | [] => [[]]
  | c :: rest =>
    match splitChars p rest with
    | [] => [[c]]
    | part :: parts => if p c then [] :: part :: parts else (c :: part) :: parts

theorem splitChars_of_not {p : Char → Bool} {cs : List Char} (h : ∀ c ∈ cs, p c = false) : splitChars p cs = [cs] := by
  induction cs with
  | nil => rfl
  | cons c rest ih =>
    rw [List.forall_mem_cons] at h
    rw [splitChars, ih h.2]
    simp [h.1]

/--
Cut the text at every character that satisfies `p`.
-/
def splitBy (p : Char → Bool) (s : String) : List String :=
  (splitChars p s.toList).map String.ofList

/--
The maximal runs of characters that do not satisfy `p`.
-/
def runsChars (p : Char → Bool) (cs : List Char) : List (List Char) :=
  (splitChars p cs).filter (fun part => !part.isEmpty)

/--
The words of a text: its maximal runs of non-blank characters.
-/
def words (s : String) : List String :=
  (runsChars isBlank s.toList).map String.ofList

/--
Replace every run of blanks by one space and drop those at the ends.
-/
def squash (s : String) : String :=
  " ".intercalate (words s)

/--
A line feed ends a line, a carriage return in front of it belongs to the line's end, and a final line
feed opens no further line.
-/
def linesChars (cs : List Char) : List (List Char) :=
  let parts := splitChars (· == '\n') cs
  let parts := if parts.getLast? == some [] then parts.dropLast else parts
  stripReturns parts (cs.getLast? == some '\n')
where
  /-- The last part lost no line feed unless the text ended with one, so its return stays. -/
  stripReturns (parts : List (List Char)) (ended : Bool) : List (List Char) :=
    match parts with
    | [] => []
    | [part] => [if ended then dropReturn part else part]
    | part :: rest => dropReturn part :: stripReturns rest ended
  dropReturn (part : List Char) : List Char :=
    if part.getLast? == some '\r' then part.dropLast else part

/--
The lines of a text, without their ends.
-/
def lines (s : String) : List String :=
  (linesChars s.toList).map String.ofList

end ApiSurface.Text
