import ApiSurface.Text.Blank
import ApiSurface.Text.Quoted

/-!
This module contains the check of a program's name before the program is started.
-/

namespace ApiSurface

/--
Why a program's name is refused.
-/
inductive ExecutableError where
  | empty
  /-- The name has a character that a shell would not take literally. -/
  | metacharacter (program : String) (c : Char)
deriving DecidableEq, Repr

/--
The text for a refused name.
-/
def ExecutableError.message : ExecutableError → String
  | empty => "Invalid executable: executable name is empty"
  | metacharacter program c =>
    "Invalid executable: " ++ Text.quoted program ++ " contains shell metacharacter " ++ Text.quotedAlone c

/--
The characters that a shell does not take literally. Blanks may stand in the path of a program.
-/
def metacharacters : List Char :=
  [';', '&', '|', '$', '\x60', '<', '>', '(', ')', '\x7b', '\x7d', '[', ']', '!', '*', '?', '~', '\'', '"', '\n', '\r',
   '\x00', '%', '^']

/--
Whether a name may be started.
-/
def checkExecutable (program : String) : Except ExecutableError Unit :=
  if Text.isBlankText program then .error .empty
  else
    match program.toList.find? metacharacters.contains with
    | some c => .error (.metacharacter program c)
    | none => .ok ()

end ApiSurface
