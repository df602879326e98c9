import ApiSurface.Index.Basic

/-!
This module contains the rendering of an index as a Python stub file.
-/

namespace ApiSurface.Python.Stub

/--
The parameter list of a definition; a method that is not static gets its receiver.
-/
def paramText (m : Member) (method : Bool) : String :=
  let receiver := method && !m.isStatic
  if m.kind == .property then (if receiver then "self" else "")
  else if receiver then (if m.sig.isEmpty then "self" else "self, " ++ m.sig)
  else m.sig

/--
The lines of a definition.
-/
def defLines (indent : String) (m : Member) (method : Bool) : List String :=
  let ret :=
    match m.ret with
    | some r => " -> " ++ r
    | none => ""
  let async := if m.isAsync then "async " else ""
  (if m.deprecated then [indent ++ "@deprecated"] else []) ++
    (if method && m.isStatic then [indent ++ "@staticmethod"] else []) ++
    [indent ++ async ++ "def " ++ m.name ++ "(" ++ paramText m method ++ ")" ++ ret ++ ": ..."] ++
    (match m.doc with
     | some doc => [indent ++ "    \"\"\"" ++ doc ++ "\"\"\""]
     | none => [])

/--
The lines of the functions of a module; a name that occurred before is marked as an overload.
-/
def functionLines : List String → List Member → List String
  | _, [] => []
  | seen, f :: rest =>
    (if seen.contains f.name then ["@overload"] else []) ++ defLines "" f false ++ functionLines (f.name :: seen) rest

/--
Whether several callable members of the type have this name.
-/
def isRepeated (t : TypeEntry) (name : String) : Bool :=
  decide (2 ≤ (t.callables.filter (fun m => m.name == name)).length)

/--
The lines of a member.
-/
def memberLines (t : TypeEntry) (m : Member) : List String :=
  match m.kind with
  | .field => ["    " ++ m.name ++ ": " ++ m.sig]
  | .property => "    @property" :: defLines "    " m true
  | _ => (if isRepeated t m.name then ["    @overload"] else []) ++ defLines "    " m true

/--
The first line of a class.
-/
def classHeader (t : TypeEntry) : String :=
  if t.parents.isEmpty then "class " ++ t.name ++ ":"
  else "class " ++ t.name ++ "(" ++ ", ".intercalate t.parents ++ "):"

/--
The lines of a class and the blank line after it.
-/
def typeLines (t : TypeEntry) : List String :=
  [classHeader t] ++
    (match t.doc with
     | some doc => ["    \"\"\"" ++ doc ++ "\"\"\""]
     | none => []) ++
    t.values.map (fun v => "    " ++ v ++ " = ...") ++
    t.members.flatMap (memberLines t) ++
    (if t.members.isEmpty && t.values.isEmpty then ["    ..."] else []) ++ [""]

/--
The lines of a module.
-/
def namespaceLines (ns : Namespace) : List String :=
  ["", "# Module: " ++ ns.name, ""] ++ functionLines [] ns.functions ++ ns.types.flatMap typeLines

/--
The lines about the packages outside the standard library.
-/
def dependencyLines (deps : List Dependency) : List String :=
  match deps.filter (fun d => !d.isStdlib) with
  | [] => []
  | external => "# Dependencies" :: external.map (fun d => "#   " ++ d.package ++ ": " ++ ", ".intercalate d.types)

/--
The lines of the stub file.
-/
def lines (i : Index) : List String :=
  ["# " ++ i.package ++ " - Public API Surface"] ++
    (match i.version with
     | some v => ["# Version: " ++ v]
     | none => []) ++
    i.namespaces.flatMap namespaceLines ++ dependencyLines i.dependencies

/--
The stub file.
-/
def render (i : Index) : String :=
  String.join ((lines i).map (· ++ "\n"))

end ApiSurface.Python.Stub
