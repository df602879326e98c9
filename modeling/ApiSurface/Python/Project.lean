import ApiSurface.Extraction.Run
import ApiSurface.Python.Parser
import ApiSurface.Python.Scope
import ApiSurface.Toml.Reader

/-!
This module contains what is known of a Python project before its modules are read: its name and version, and
the names that its main module exports.
-/

namespace ApiSurface.Python

open Text

/--
A Python project.
-/
structure Project where
  info : PackageInfo
  /-- The name of the main module. -/
  topModule : Option String := none
  /-- The names that the main module exports. -/
  entrySymbols : List String := []
  /-- Those of them that come from other distributions. -/
  externalReexports : List Import := []
  /-- The root modules of the project. -/
  localRoots : List String := []

/--
The name of the file that makes a directory a package.
-/
def initFile : String := "__init__.py"

/--
The module name that belongs to the name of a package.
-/
def moduleOfPackage (package : String) : String :=
  replaceChar '-' '_' package

/--
The dotted name of the module in a file: `pkg.sub` for `src/pkg/sub/__init__.py`.
-/
def moduleName (path package : String) : String :=
  let path := dropLast ".py" (dropStart "src/" path)
  let path := dropLasts "/" (dropLast "__init__" path)
  if path == "" then moduleOfPackage package else replaceChar '/' '.' path

/--
A field of the project file: in the standard table, or else in that of a common tool.
-/
def projectField (doc : Toml) (field : String) : Option String :=
  let standard := doc.get? "project"
  let tool := (doc.get? "tool").bind (fun t => t.table?.bind (·.get? "poetry"))
  let within (section? : Option Toml) : Option String :=
    ((section?.bind (·.table?)).bind (·.get? field)).bind (·.text?)
  within standard <|> within tool

/--
The name and version that the project file gives.
-/
def readProjectFile (t : FileTree) (root : Path) : Except ProjectError (Option String × Option String) := do
  let path := root ++ ["pyproject.toml"]
  if !t.isFile path then return (none, none)
  let text ← (t.read path).mapError .unreadable
  match Toml.parse? text with
  | none => .error (.malformed path.text)
  | some doc => return (projectField doc "name", projectField doc "version")

/--
The order of paths of one length: by their names from the left.
-/
def pathLe : Path → Path → Bool
  | [], _ => true
  | _ :: _, [] => false
  | a :: p, b :: q => if a == b then pathLe p q else decide (a ≤ b)

/--
The order of what lies in a project: by depth, then by the names.
-/
def shallowerLe (a b : Path) : Bool :=
  a.length < b.length || (a.length == b.length && pathLe a b)

/--
The package file nearest to the root that does not belong to tests, relative to the root. Its name is all that is
looked at, so a directory may be taken for one.
-/
def shallowestInit? (t : FileTree) (root : Path) : Option Path :=
  let found := (t.walk root []).map (·.1) ++ t.walkDirectories root []
  let inits := found.filter fun p => (root ++ p).fileName == initFile && !p.any (fun n => contains n.toLower "test")
  (inits.mergeSort shallowerLe).head?

/--
The name of a directory.
-/
def directoryName (p : Path) : String :=
  p.getLast?.getD "package"

/--
The name of the package: the one that the project file gives, or else that of the directory of the nearest package
file.
-/
def packageName (t : FileTree) (root : Path) (given : Option String) : String :=
  match given with
  | some name => name
  | none => directoryName (root ++ (shallowestInit? t root).getD [initFile]).dropLast

/--
A package file: where it is, and the text of its path relative to the project. The text is empty if the file lies
elsewhere.
-/
structure PackageFile where
  path : Path
  relative : String
deriving DecidableEq, Repr

/--
The text of a path relative to the root, where `text` starts at the root if it is not absolute.
-/
def relativeTo (root : Path) (text : String) : String :=
  if Path.isAbsolute text then ((Path.within? root (Path.names text)).map Path.relativeText).getD ""
  else Path.relativeText (Path.names text)

/--
The package file that a text leads to from the root.
-/
def packageFile? (t : FileTree) (root : Path) (text : String) : Option PackageFile :=
  match t.locate root text with
  | .ok p => if t.isFile p then some ⟨p, relativeTo root text⟩ else none
  | .error _ => none

/--
The texts of the package file in a directory named like the package, at the root and below `src`. Nothing keeps the
name of a package from leading out of the project.
-/
def mainTexts (package : String) : List String :=
  let dir := moduleOfPackage package
  [Path.join dir initFile, Path.join (Path.join "src" dir) initFile]

/--
The package file of the main module: the one that the name of the package leads to, or else the one nearest to the
root.
-/
def mainInit? (t : FileTree) (root : Path) (package : String) : Option PackageFile :=
  (mainTexts package).findSome? (packageFile? t root)
    <|> (shallowestInit? t root).map (fun p => ⟨root ++ p, p.relativeText⟩)

/--
Read what is known of the project at a path.
-/
def Project.load (t : FileTree) (root : Path) : Except ProjectError Project := do
  let (name, version) ← readProjectFile t root
  let package := packageName t root name
  let info : PackageInfo := ⟨package, version⟩
  let roots := [moduleOfPackage package]
  match mainInit? t root package with
  | none => return { info := info, localRoots := roots }
  | some init =>
    let module := moduleName init.relative package
    let roots := firstSegment module :: roots
    let source ← (t.read init.path).mapError .unreadable
    let scope := Scope.ofModuleBody roots (Module.parse source).body
    let reexports := scope.external.filter (·.name.isSome)
    return {
      info := info
      topModule := some module
      entrySymbols := scope.exports.getD [] ++ scope.localImports ++ reexports.map (·.local)
      externalReexports := reexports
      localRoots := roots }

end ApiSurface.Python
