import ApiSurface.Text.Cut

/-!
This module contains paths. A path is the list of names that lead from the root to a file; as text the names
stand behind slashes.
-/

namespace ApiSurface

/--
The names from the root to a file or a directory.
-/
abbrev Path := List String

namespace Path

/--
The names in the text of a path. Repeated slashes and single dots add nothing.
-/
def names (s : String) : List String :=
  (Text.splitBy (· == '/') s).filter (fun n => n != "" && n != ".")

/--
Whether the text of a path goes back to a parent directory.
-/
def goesUp (s : String) : Bool :=
  (names s).contains ".."

/--
Whether the text of a path starts at the root.
-/
def isAbsolute (s : String) : Bool :=
  s.startsWith "/"

/--
The text of a path from the root.
-/
def text (p : Path) : String :=
  "/" ++ "/".intercalate p

/--
The text of a path relative to some directory above it.
-/
def relativeText (p : Path) : String :=
  "/".intercalate p

/--
The path behind a directory it lies in.
-/
def within? : Path → Path → Option Path
  | [], p => some p
  | _ :: _, [] => none
  | d :: dir, n :: p => if d == n then within? dir p else none

/--
The last name of a path.
-/
def fileName (p : Path) : String :=
  p.getLast?.getD ""

/--
What follows the last dot of a file's name. A dot in front of everything else starts no extension.
-/
def extension? (name : String) : Option String :=
  match Text.splitLast? "." name with
  | some (stem, ext) => if stem == "" then none else some ext
  | none => none

/--
The text of the directory that the text of a path lies in; there is none for the root.
-/
def parentText? (s : String) : Option String :=
  let bare := Text.dropLasts "/" s
  if bare == "" then none
  else
    match Text.splitLast? "/" bare with
    | none => some ""
    | some (dir, _) =>
      let dir := Text.dropLasts "/" dir
      if dir == "" then some "/" else some dir

/--
The text of a path with one more name behind it.
-/
def join (dir name : String) : String :=
  if name.startsWith "/" then name
  else if dir == "" then name
  else if dir.endsWith "/" then dir ++ name
  else dir ++ "/" ++ name

end Path

end ApiSurface
