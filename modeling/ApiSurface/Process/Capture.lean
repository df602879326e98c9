import ApiSurface.Text.Utf8

/-!
This module contains the capture of a program's output as text. The output comes in pieces, which may end within
a character; no more than a number of characters is kept, and a mark shows that there were more.
-/

namespace ApiSurface

/--
The text of an output.
-/
structure Captured where
  text : String := ""
  truncated : Bool := false
deriving DecidableEq, Repr

/--
The mark at the end of a text that is not whole.
-/
def truncationMark : String := "\n[apigraph: output truncated]"

/--
Output on its way to text.
-/
structure Capture where
  /-- How many characters are kept. -/
  limit : Nat
  text : String := ""
  /-- How many characters there are so far. -/
  length : Nat := 0
  truncated : Bool := false
  /-- The start of a character that is not complete. -/
  pending : List UInt8 := []
deriving DecidableEq, Repr

namespace Capture

/--
Keep one more character, if there is room for it.
-/
def pushChar (c : Capture) (x : Char) : Capture :=
  if c.truncated then c
  else if c.length < c.limit then { c with text := c.text.push x, length := c.length + 1 }
  else { c with truncated := true }

/--
Keep a text, as far as there is room for it. A text has no more characters than bytes, so the characters are
counted out one by one only where the bytes might be too many.
-/
def pushText (c : Capture) (s : String) : Capture :=
  if c.truncated then c
  else if c.length + s.utf8ByteSize ≤ c.limit then { c with text := c.text ++ s, length := c.length + s.length }
  else s.toList.foldl pushChar c

/--
Take bytes until they end, until they are unfinished, or until there is no more room.
-/
def absorb (c : Capture) (bs : List UInt8) : Capture :=
  if c.truncated then c
  else
    match h : Utf8.wholeChars bs with
    | (cs, .ends) => c.pushText (String.ofList cs)
    | (cs, .damage rest) =>
      have : rest.length < bs.length := Utf8.wholeChars_damage_length (by rw [h])
      absorb ((c.pushText (String.ofList cs)).pushText (String.singleton Utf8.replacement)) rest
    | (cs, .unfinished rest) =>
      let c := c.pushText (String.ofList cs)
      if c.truncated then c else { c with pending := rest }
termination_by bs.length

/--
Take a piece of output, together with what is left of the pieces before it.
-/
def push (c : Capture) (bytes : List UInt8) : Capture :=
  if c.truncated then c else absorb { c with pending := [] } (c.pending ++ bytes)

/--
The text once the output has ended. A character that never became complete is damaged.
-/
def finish (c : Capture) : Captured :=
  let c := if c.pending.isEmpty || c.truncated then c else c.pushText (String.singleton Utf8.replacement)
  if c.truncated then { text := c.text ++ truncationMark, truncated := true } else { text := c.text }

/--
The text of an output that comes in pieces.
-/
def run (limit : Nat) (pieces : List (List UInt8)) : Captured :=
  (pieces.foldl push { limit := limit }).finish

end Capture

end ApiSurface
