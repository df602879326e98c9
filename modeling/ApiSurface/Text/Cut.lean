import ApiSurface.Text.Blank

/-!
This module contains ways to cut a text at given characters or at given texts.
-/

namespace ApiSurface.Text

/--
What follows `start` at the front of a list of characters.
-/
def afterChars? : List Char → List Char → Option (List Char)
  | [], cs => some cs
  | _ :: _, [] => none
  | s :: start, c :: cs => if s == c then afterChars? start cs else none

/--
What follows `start` at the front of a text.
-/
def after? (start s : String) : Option String :=
  (afterChars? start.toList s.toList).map String.ofList

/--
What precedes `last` at the end of a text.
-/
def before? (last s : String) : Option String :=
  (afterChars? last.toList.reverse s.toList.reverse).map (fun cs => String.ofList cs.reverse)

/--
The text without `start` at its front, if it is there.
-/
def dropStart (start s : String) : String :=
  (after? start s).getD s

/--
The text without `last` at its end, if it is there.
-/
def dropLast (last s : String) : String :=
  (before? last s).getD s

/--
Remove `start` from the front as often as it is there.
-/
def dropStartsChars (start : List Char) : Nat → List Char → List Char
  | 0, cs => cs
  | fuel + 1, cs =>
    match afterChars? start cs with
    | some rest => if start.isEmpty then cs else dropStartsChars start fuel rest
    | none => cs

/--
The text without any `start` at its front.
-/
def dropStarts (start s : String) : String :=
  String.ofList (dropStartsChars start.toList s.length s.toList)

/--
The text without any `last` at its end.
-/
def dropLasts (last s : String) : String :=
  String.ofList (dropStartsChars last.toList.reverse s.length s.toList.reverse).reverse

/--
The division at the first occurrence of `sep` in a list of characters.
-/
def splitFirstChars (sep : List Char) : List Char → Option (List Char × List Char)
  | [] => if sep.isEmpty then some ([], []) else none
  | c :: cs =>
    match afterChars? sep (c :: cs) with
    | some rest => some ([], rest)
    | none => (splitFirstChars sep cs).map (fun (front, rest) => (c :: front, rest))

/--
The division at the first occurrence of `sep`.
-/
def splitFirst? (sep s : String) : Option (String × String) :=
  (splitFirstChars sep.toList s.toList).map (fun (front, rest) => (String.ofList front, String.ofList rest))

/--
The division at the last occurrence of `sep`.
-/
def splitLast? (sep s : String) : Option (String × String) :=
  (splitFirstChars sep.toList.reverse s.toList.reverse).map fun (back, front) =>
    (String.ofList front.reverse, String.ofList back.reverse)

/--
Whether `part` occurs in the text.
-/
def contains (s part : String) : Bool :=
  (splitFirstChars part.toList s.toList).isSome

/--
Replace one character by another.
-/
def replaceChar (old new : Char) (s : String) : String :=
  String.ofList (s.toList.map (fun c => if c == old then new else c))

/--
The last of the parts between the occurrences of a character.
-/
def lastPart (sep : Char) (s : String) : String :=
  (splitBy (· == sep) s).getLast?.getD s

/--
The first of the parts between the occurrences of a character.
-/
def firstPart (sep : Char) (s : String) : String :=
  (splitBy (· == sep) s).head?.getD s

end ApiSurface.Text
