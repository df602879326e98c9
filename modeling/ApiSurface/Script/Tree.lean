/-!
This module contains scripts as trees: words with their parts, and commands.
-/

namespace ApiSurface.Script

mutual

/--
A part of a word. Parts between quotes are never split.
-/
inductive Piece where
  | text (quoted : Bool) (s : String)
  /-- The value of a parameter. -/
  | value (quoted : Bool) (name : String)
  /-- The value of a parameter, or a word if there is none; `orEmpty` says that an empty value counts as none. -/
  | valueOr (quoted : Bool) (name : String) (orEmpty : Bool) (word : List Piece)
  /-- The same, and the word becomes the value of the parameter. -/
  | valueSet (quoted : Bool) (name : String) (orEmpty : Bool) (word : List Piece)
  /-- A word if a parameter has a value. -/
  | wordIf (quoted : Bool) (name : String) (orEmpty : Bool) (word : List Piece)
  /-- The value of a parameter without what a pattern fits at its start or its end. -/
  | trimmed (quoted : Bool) (name : String) (atEnd longest : Bool) (word : List Piece)
  /-- The length of a parameter's value. -/
  | size (quoted : Bool) (name : String)
  /-- The value of a sum. -/
  | sum (quoted : Bool) (word : List Piece)
  /-- What commands write. -/
  | output (quoted : Bool) (body : List Command)

/--
Where a stream of a command comes from or goes to.
-/
inductive Redirect where
  /-- To where another stream goes. -/
  | stream (number target : Nat)
  | file (number : Nat) (appends : Bool) (target : List Piece)
  | input (source : List Piece)

/--
A command.
-/
inductive Command where
  | simple (line : Nat) (assigned : List (String × List Piece)) (words : List (List Piece))
  | group (body : List Command)
  /-- Commands that change nothing for those behind them. -/
  | apart (body : List Command)
  | choose (branches : List (List Command × List Command)) (otherwise : List Command)
  | loop (whileTrue : Bool) (test body : List Command)
  /-- A body for every word; without words, for every argument. -/
  | each (name : String) (words : Option (List (List Piece))) (body : List Command)
  /-- The first branch that has a pattern for a word. -/
  | select (subject : List Piece) (branches : List (List (List Piece) × List Command))
  /-- The second command if the first one succeeds. -/
  | andThen (first second : Command)
  /-- The second command if the first one fails. -/
  | orElse (first second : Command)
  | negated (c : Command)
  /-- The first command writes what the second one reads. -/
  | piped (first second : Command)
  | background (c : Command)
  | redirected (c : Command) (redirects : List Redirect)
  | define (name : String) (body : Command)

end

instance : Inhabited Command := ⟨.group []⟩

/--
A word of a script.
-/
abbrev Word := List Piece

/--
The text of a word that is written without quotes and without parameters.
-/
def Word.plain? : Word → Option String
  | [.text false s] => some s
  | _ => none

end ApiSurface.Script
