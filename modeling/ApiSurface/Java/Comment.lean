import ApiSurface.Text.Cut
import ApiSurface.Text.Summary
import ApiSurface.Text.Word

/-!
This module contains what a documentation comment says: a summary, and a notice of deprecation.
-/

namespace ApiSurface.Java

open Text

/--
How long a summary of a comment may be.
-/
def docLimit : Nat := 120

/--
What an inline tag says, and what follows it: `x` for `{@code x}`. The opening brace is behind.
-/
def inlineTag? (cs : List Char) : Option (List Char × List Char) :=
  match cs with
  | '@' :: rest =>
    let afterName := rest.dropWhile isWordChar
    let body := afterName.dropWhile isBlank
    let said := body.takeWhile (· != '\x7d')
    if rest.head?.any isWordChar && afterName.head?.any isBlank && said.length < body.length then
      some (said, body.drop (said.length + 1))
    else none
  | _ => none

/--
The characters with what inline tags say instead of the tags.
-/
def withoutTags : Nat → List Char → List Char
  | 0, cs => cs
  | _ + 1, [] => []
  | fuel + 1, c :: rest =>
    if c == '\x7b' then
      match inlineTag? rest with
      | some (said, rest) => said ++ withoutTags fuel rest
      | none => c :: withoutTags fuel rest
    else c :: withoutTags fuel rest

/--
The lines of a comment, without its marks and without inline tags.
-/
def commentLines (raw : String) : List String :=
  let body := dropLasts "*/" (dropStarts "/**" raw)
  (lines body).map fun line =>
    let line := trim (trimStartWhile (· == '*') (trim line))
    String.ofList (withoutTags (line.length + 1) line.toList)

/--
Whether a line of a comment begins with a tag.
-/
def startsTag (line : String) : Bool :=
  line.startsWith "@"

/--
What a comment says.
-/
structure Notice where
  summary : Option String := none
  deprecated : Option String := none

/--
The tag that opens a notice of deprecation.
-/
def deprecationTag : String := "@deprecated"

/--
The notice of deprecation among the lines of a comment: from its tag to the next one.
-/
def deprecationNotice (ls : List String) : Option String :=
  match ls.dropWhile (fun l => !l.startsWith deprecationTag) with
  | [] => none
  | first :: rest =>
    let more := (rest.takeWhile (fun l => !startsTag l)).filter (· != "")
    some (trim (" ".intercalate (trim (dropStarts deprecationTag first) :: more)))

/--
Read a comment.
-/
def Notice.ofComment : Option String → Notice
  | none => {}
  | some raw =>
    let ls := commentLines raw
    { summary := Text.summary ("\n".intercalate (ls.takeWhile (fun l => !startsTag l))) docLimit
      deprecated := deprecationNotice ls }

/--
The deprecation message, if it says anything.
-/
def Notice.message (n : Notice) : Option String :=
  n.deprecated.filter (· != "")

end ApiSurface.Java
