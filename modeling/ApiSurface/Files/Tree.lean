import ApiSurface.Files.Path

/-!
This module contains file trees: the files and directories that a run can see, and what the operating system
answers when one of them is asked for.
-/

namespace ApiSurface

/--
A file: its bytes, when it was last changed (in nanoseconds), and whether it may be executed.
-/
structure File where
  content : ByteArray
  modified : Int := 0
  executable : Bool := false

/--
What the operating system refuses a request with.
-/
inductive OsError where
  | notFound
  | denied
  | notDirectory
  | isDirectory
deriving DecidableEq, Repr

/--
The operating system's text for a refusal.
-/
def OsError.message : OsError → String
  | notFound => "No such file or directory (os error 2)"
  | denied => "Permission denied (os error 13)"
  | notDirectory => "Not a directory (os error 20)"
  | isDirectory => "Is a directory (os error 21)"

/--
Why a file has no text.
-/
inductive ReadError where
  | os (e : OsError)
  /-- The bytes are no encoded text. -/
  | encoding
deriving DecidableEq, Repr

/--
The text for a failed reading.
-/
def ReadError.message : ReadError → String
  | os e => e.message
  | encoding => "stream did not contain valid UTF-8"

/--
Files and directories. Every directory above a file or a directory is itself in the tree.
-/
structure FileTree where
  files : List (Path × File) := []
  directories : List Path := [[]]

namespace FileTree

/--
The file at a path.
-/
def file? (t : FileTree) (p : Path) : Option File :=
  (t.files.find? (fun e => e.1 == p)).map (·.2)

/--
Whether there is a file at a path.
-/
def isFile (t : FileTree) (p : Path) : Bool :=
  (t.file? p).isSome

/--
Whether there is a directory at a path.
-/
def isDirectory (t : FileTree) (p : Path) : Bool :=
  t.directories.contains p

/--
Whether there is anything at a path.
-/
def has (t : FileTree) (p : Path) : Bool :=
  t.isFile p || t.isDirectory p

/--
Add a directory and those above it.
-/
def addDirectory (t : FileTree) (p : Path) : FileTree :=
  let above := (List.range (p.length + 1)).map p.take
  { t with directories := t.directories ++ above.filter (fun d => !t.directories.contains d) }

/--
Put a file at a path, instead of the one that was there.
-/
def addFile (t : FileTree) (p : Path) (f : File) : FileTree :=
  let t := t.addDirectory p.dropLast
  { t with files := t.files.filter (fun e => e.1 != p) ++ [(p, f)] }

/--
Remove the file at a path.
-/
def removeFile (t : FileTree) (p : Path) : FileTree :=
  { t with files := t.files.filter (fun e => e.1 != p) }

/--
Follow names from a directory on. Every name but the last has to lead to a directory.
-/
def follow (t : FileTree) (dir : Path) : List String → Except OsError Path
  | [] => .ok dir
  | n :: rest =>
    let next := if n == ".." then dir.dropLast else dir ++ [n]
    if t.isDirectory next then t.follow next rest
    else if t.isFile next then
      if rest.isEmpty then .ok next else .error .notDirectory
    else .error .notFound

/--
The path that a text means for a process in the directory `cwd`.
-/
def locate (t : FileTree) (cwd : Path) (s : String) : Except OsError Path := do
  if s == "" then .error .notFound
  let p ← t.follow (if Path.isAbsolute s then [] else cwd) (Path.names s)
  if s.endsWith "/" && t.isFile p then .error .notDirectory
  return p

/--
The text of a file.
-/
def read (t : FileTree) (p : Path) : Except ReadError String :=
  match t.file? p with
  | some f =>
    match String.fromUTF8? f.content with
    | some s => .ok s
    | none => .error .encoding
  | none => .error (.os (if t.isDirectory p then .isDirectory else .notFound))

/--
Where a file would be written that a text names for a process in the directory `cwd`. The directory of the file
has to be there.
-/
def place (t : FileTree) (cwd : Path) (s : String) : Except OsError Path := do
  if s == "" then .error .notFound
  let names := Path.names s
  let above ← t.follow (if Path.isAbsolute s then [] else cwd) names.dropLast
  if !t.isDirectory above then .error .notDirectory
  let p := match names.getLast? with
    | none => above
    | some n => if n == ".." then above.dropLast else above ++ [n]
  if t.isDirectory p then .error .isDirectory
  if s.endsWith "/" then .error (if t.isFile p then .notDirectory else .isDirectory)
  return p

end FileTree

end ApiSurface
