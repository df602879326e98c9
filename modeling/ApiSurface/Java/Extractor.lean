import ApiSurface.Java.Conventions
import ApiSurface.Java.Parser
import ApiSurface.Java.Project
import ApiSurface.Java.Surface

/-!
This module contains the extraction of the public surface of Java projects.
-/

namespace ApiSurface.Java

open Text

/--
Whether a file belongs to the surface: tests and descriptions of packages and modules do not.
-/
def includesFile (path : String) : Bool :=
  let file := lastPart '/' path
  !(path.startsWith "src/test/" || contains path "/src/test/") &&
    file != "package-info.java" && file != "module-info.java"

/--
The package of a file.
-/
def packageOf (ds : List Declaration) : String :=
  (ds.findSome? (fun
    | .package name => some name
    | _ => none)).getD ""

/--
Packages that are not meant for others.
-/
def isInternal (package : String) : Bool :=
  contains package ".internal" || contains package ".implementation"

/--
The name that an import brings into scope. Imports of all names and of static members bring no type.
-/
def importOf? : Declaration → Option Import
  | .imports path false =>
    (splitLast? "." path).map fun (package, name) =>
      { «local» := name, package := package, name := some name }
  | _ => none

/--
What a file contributes.
-/
def extractFile (_ : PackageInfo) (file : SourceFile) : FileReport :=
  let source := SourceText.parse file.content
  let package := packageOf source.declarations
  if isInternal package then { damaged := source.damaged }
  else
    { records := (entriesOf none false source.declarations).map
          (fun (t, offset) => .declare package t ⟨file.path, offset⟩)
        ++ [.imports package (source.declarations.filterMap importOf?)]
      damaged := source.damaged }

/--
How many names a package's name is made of.
-/
def depth (package : String) : Nat :=
  if package == "" then 0 else (package.toList.filter (· == '.')).length + 1

/--
Mark a type of a package at the top as an entry point.
-/
def markEntryPoint (t : TypeEntry) : TypeEntry :=
  let mainKind := t.kind == .classType || t.kind == .interface || t.kind == .record
  if mainKind && !contains t.name "." then { t with entryPoint := true } else t

/--
The entry points are the outermost classes, interfaces and records of the packages with the shortest names.
-/
def finalize (_ : PackageInfo) (c : Collected) : Collected :=
  match ((c.namespaces.filter (fun ns => !ns.types.isEmpty)).map (fun ns => depth ns.name)).min? with
  | none => c
  | some shallowest =>
    { c with namespaces := c.namespaces.map fun ns =>
        if depth ns.name == shallowest then { ns with types := ns.types.map markEntryPoint } else ns }

/--
The extractor for Java projects.
-/
def extractor : Extractor PackageInfo where
  language := .java
  conventions := conventions
  includes := includesFile
  skipsDirectory := fun _ => false
  load := loadProject
  info := id
  extract := extractFile
  finalize := finalize

end ApiSurface.Java
