import ApiSurface.Python.Project
import ApiSurface.Python.Surface

/-!
This module contains the extraction of the public surface of Python packages. Only the definitions of a module
itself belong to it; definitions inside of functions or conditions do not.
-/

namespace ApiSurface.Python

open Text

/--
Whether a file belongs to the package: tests, private modules and build scripts at the root do not.
-/
def includesFile (path : String) : Bool :=
  let file := lastPart '/' path
  let isTest := file.startsWith "test_" || file.endsWith "_test.py" || file == "conftest.py"
  let isPrivate := file.startsWith "_" && file != initFile
  !isTest && !isPrivate && !(["setup.py", "noxfile.py", "fabfile.py"].contains path)

/--
Directories that hold no modules of the package.
-/
def skipsDirectory (name : String) : Bool :=
  ["tests", "test", "site-packages", ".nox", "docs"].contains name

/--
The class that a statement declares, if it is public.
-/
def classRecord (scope : Scope) (module file : String) : Statement → List Record
  | .classDef head body =>
    if scope.isVisible head.name then [.declare module (classEntry head body) ⟨file, head.offset⟩] else []
  | _ => []

/--
Add the function that a statement declares, if it is public.
-/
def addFunction (scope : Scope) (c : Callables) : Statement → Callables
  | .function f => if scope.isVisible f.name then f.addTo c false else c
  | _ => c

/--
What a module contributes.
-/
def extractModule (project : Project) (file : SourceFile) : FileReport :=
  let m := Module.parse file.content
  let module := moduleName file.path project.info.name
  let scope := Scope.ofModuleBody project.localRoots m.body
  let functions := (m.body.foldl (addFunction scope) {}).finish
  { records := m.body.flatMap (classRecord scope module file.path)
      ++ functions.map (fun (offset, f) => .function module f ⟨file.path, offset⟩)
      ++ [.imports module scope.external]
    damaged := m.damaged }

/--
Mark a type that the main module exports.
-/
def markEntryPoint (project : Project) (ns : String) (t : TypeEntry) : TypeEntry :=
  if !project.entrySymbols.contains t.name then t
  else
    match project.topModule with
    | some top => { t with entryPoint := true, reExportedFrom := if top == ns then t.reExportedFrom else some top }
    | none => { t with entryPoint := true }

/--
Mark the entry points, and note what is exported from elsewhere.
-/
def finalize (project : Project) (c : Collected) : Collected :=
  { c with
    namespaces := c.namespaces.map (fun ns => { ns with types := ns.types.map (markEntryPoint project ns.name) })
    reexports := c.reexports ++ project.externalReexports }

/--
The extractor for Python packages.
-/
def extractor : Extractor Project where
  language := .python
  conventions := conventions
  includes := includesFile
  skipsDirectory := skipsDirectory
  load := Project.load
  info := Project.info
  extract := extractModule
  finalize := finalize

end ApiSurface.Python
