import ApiSurface.Extraction.Run
import ApiSurface.Go.Conventions
import ApiSurface.Go.Parser
import ApiSurface.Go.Surface

/-!
This module contains the extraction of the public surface of Go modules. A namespace is an import path: the
module's path joined with the directory. Methods are declared apart from their types, in any file of the package.
-/

namespace ApiSurface.Go

open Text

/--
The module path that a module file gives.
-/
def modulePath? (text : String) : Option String :=
  (lines text).findSome? fun line =>
    (after? "module " (trim line)).map fun m =>
      let isQuote (c : Char) : Bool := c == '"'
      String.ofList (dropBack isQuote (dropFront isQuote (trim m).toList))

/--
Read the identity of the module at a path.
-/
def loadModule (t : FileTree) (root : Path) : Except ProjectError PackageInfo := do
  let path := root ++ ["go.mod"]
  let fallback := root.getLast?.getD "module"
  if !t.isFile path then return { name := fallback }
  let text ← (t.read path).mapError .unreadable
  return { name := (modulePath? text).getD fallback }

/--
Directories that do not belong to the public surface.
-/
def skipsDirectory (name : String) : Bool :=
  ["vendor", "testdata", "internal", "examples"].contains name || name.startsWith "." || name.startsWith "_"

/--
Whether the file is a test from outside its package.
-/
def isExternalTest (ds : List Declaration) : Bool :=
  (ds.findSome? (fun
    | .package name => some (name.endsWith "_test")
    | _ => none)).getD false

/--
The records of a declaration.
-/
def recordsOf (module ns file : String) : Declaration → List Record
  | .imports specs => [.imports ns (specs.filterMap (·.import? module))]
  | .types specs => specs.filterMap (fun s => s.entry?.map (fun t => .declare ns t ⟨file, s.offset⟩))
  | .function f => if isExported f.name then [.function ns f.member ⟨file, f.offset⟩] else []
  | .method receiver f =>
    let receiver := typeBase receiver
    if isExported f.name && isExported receiver then [.member ns receiver f.member ⟨file, f.offset⟩] else []
  | .constants specs => (typedConstants none specs).map (fun (t, n, offset) => .value ns t n ⟨file, offset⟩)
  | _ => []

/--
What a file contributes.
-/
def extractFile (info : PackageInfo) (file : SourceFile) : FileReport :=
  let source := SourceText.parse file.content
  if isExternalTest source.declarations then {}
  else
    let ns := if file.directory == "" then info.name else info.name ++ "/" ++ file.directory
    { records := source.declarations.flatMap (recordsOf info.name ns file.path) ++ [.imports ns []]
      damaged := source.damaged }

/--
The type that a function constructs: one of its own package, named by the first result of a function whose name
begins with `New`.
-/
def constructedType? (types : List TypeEntry) (f : Member) : Option String :=
  if !f.name.startsWith "New" then none
  else
    match f.results with
    | [] => none
    | first :: _ =>
      let base := typeBase first.type
      if types.any (fun t => t.name == base) then some base else none

/--
Put a constructor behind those that a type already has, in front of its other members.
-/
def insertConstructor (members : List Member) (ctor : Member) : List Member :=
  let isConstructor (m : Member) : Bool := m.kind == .constructor
  members.takeWhile isConstructor ++ ctor :: members.dropWhile isConstructor

/--
Give a constructor to the first type of a name.
-/
def giveConstructor (name : String) (ctor : Member) : List TypeEntry → List TypeEntry
  | [] => []
  | t :: rest =>
    if t.name == name then { t with members := insertConstructor t.members ctor } :: rest
    else t :: giveConstructor name ctor rest

/--
Move the functions that construct a type of the namespace to that type.
-/
def groupConstructors (ns : Namespace) : Namespace :=
  let give (types : List TypeEntry) (f : Member) : List TypeEntry :=
    match constructedType? ns.types f with
    | some name => giveConstructor name { f with kind := .constructor, isStatic := true } types
    | none => types
  { ns with
    types := ns.functions.foldl give ns.types
    functions := ns.functions.filter (fun f => (constructedType? ns.types f).isNone) }

/--
A type of a module's main package is an entry point, and a named type with values is an enumeration.
-/
def settleType (isRoot : Bool) (t : TypeEntry) : TypeEntry :=
  { t with
    kind := if t.kind == .aliasType && !t.values.isEmpty then .enum else t.kind
    entryPoint := isRoot || t.entryPoint }

/--
Settle what depends on a whole package.
-/
def finalize (info : PackageInfo) (c : Collected) : Collected :=
  { c with namespaces := c.namespaces.map fun ns =>
      groupConstructors { ns with types := ns.types.map (settleType (ns.name == info.name)) } }

/--
The extractor for Go modules.
-/
def extractor : Extractor PackageInfo where
  language := .go
  conventions := conventions
  includes := fun path => !path.endsWith "_test.go"
  skipsDirectory := skipsDirectory
  load := loadModule
  info := id
  extract := extractFile
  finalize := finalize

end ApiSurface.Go
