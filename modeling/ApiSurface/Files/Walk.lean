import ApiSurface.Files.Tree
import ApiSurface.Files.Pattern

/-!
This module contains the walk over a project: all its files but those in directories that never hold public
declarations, and those that exclusion patterns name.
-/

namespace ApiSurface

/--
Names of directories for builds, dependencies, version control and tools.
-/
def skippedDirectories : List String :=
  [".git", ".hg", ".svn", "target", "node_modules", "vendor", "venv", ".venv", "__pycache__", ".mypy_cache",
   ".pytest_cache", ".tox", ".eggs", "build", "dist", "out", "bin", "obj", ".gradle", ".idea", ".vscode",
   ".apigraph"]

/--
Whether directories of this name are left out everywhere.
-/
def isSkippedDirectory (name : String) : Bool :=
  skippedDirectories.contains name || name.endsWith ".egg-info"

/--
The patterns that some lines give.
-/
def patternsOf (lines : List String) : List Pattern :=
  lines.filterMap Pattern.ofLine?

/--
Whether a path, relative to the project, is left out on its own account.
-/
def isSkipped (excludes : List Pattern) (relative : Path) (isDirectory : Bool) : Bool :=
  (isDirectory && isSkippedDirectory relative.fileName) ||
    Pattern.excludes excludes relative.relativeText isDirectory

/--
Whether a walk reaches a file: neither the file nor a directory above it is left out.
-/
def isReached (excludes : List Pattern) (relative : Path) : Bool :=
  !isSkipped excludes relative false &&
    (List.range (relative.length - 1)).all (fun i => !isSkipped excludes (relative.take (i + 1)) true)

/--
Whether a walk reaches a directory: neither the directory nor one above it is left out. Where the walk starts is never
left out.
-/
def isReachedDirectory (excludes : List Pattern) (relative : Path) : Bool :=
  (List.range relative.length).all (fun i => !isSkipped excludes (relative.take (i + 1)) true)

/--
The files below a directory that a walk reaches, with their paths relative to it, in the order of those.
-/
def FileTree.walk (t : FileTree) (root : Path) (excludes : List Pattern) : List (Path × File) :=
  let found := t.files.filterMap fun (p, f) =>
    match Path.within? root p with
    | some [] => none
    | some relative => if isReached excludes relative then some (relative, f) else none
    | none => none
  found.mergeSort (fun a b => decide (a.1.relativeText ≤ b.1.relativeText))

/--
The directories that a walk reaches, with their paths relative to where it starts; that place is one of them.
-/
def FileTree.walkDirectories (t : FileTree) (root : Path) (excludes : List Pattern) : List Path :=
  (t.directories.filterMap (Path.within? root)).filter (isReachedDirectory excludes)

end ApiSurface
