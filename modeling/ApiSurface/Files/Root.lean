import ApiSurface.Files.Tree
import ApiSurface.Text.Quoted

/-!
This module contains the check of a path that an analysis starts from.
-/

namespace ApiSurface

/--
Why a path cannot be used.
-/
inductive PathError where
  | empty
  | nullByte (path : String)
  /-- The path goes back to a parent directory. -/
  | goesUp (path : String)
  | refused (path : String) (reason : OsError)
  | notDirectory (path : String)
deriving DecidableEq, Repr

/--
The text for a path that cannot be used.
-/
def PathError.message : PathError → String
  | empty => "Invalid path: path is empty"
  | nullByte path => "Invalid path: " ++ Text.quoted path ++ " contains a null byte"
  | goesUp path => "Invalid path: " ++ path ++ " contains a parent-directory traversal"
  | refused path reason => "Invalid path: " ++ path ++ ": " ++ reason.message
  | notDirectory path => "Invalid path: " ++ path ++ " is not a directory"

/--
The path that a text means, if the text is acceptable and something is there. The text is judged before the
tree is asked.
-/
def FileTree.root (t : FileTree) (cwd : Path) (s : String) : Except PathError Path :=
  if s == "" then .error .empty
  else if s.toList.contains '\x00' then .error (.nullByte s)
  else if Path.goesUp s then .error (.goesUp s)
  else (t.locate cwd s).mapError (.refused s)

end ApiSurface
