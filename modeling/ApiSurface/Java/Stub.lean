import ApiSurface.Index.Basic
import ApiSurface.Text.Name

/-!
This module contains the rendering of an index as Java declarations.
-/

namespace ApiSurface.Java.Stub

/--
The word that introduces a type of this kind.
-/
def keyword : TypeKind → String
  | .interface => "interface"
  | .enum => "enum"
  | .record => "record"
  | .annotationType => "@interface"
  | _ => "class"

/--
The first line of a type.
-/
def header (t : TypeEntry) : String :=
  let components :=
    if t.kind == .record then
      "(" ++ ((t.members.find? (fun m => m.kind == .constructor)).map (·.sig)).getD "" ++ ")"
    else ""
  let base := ((t.base.map (" extends " ++ ·))).getD ""
  let verb := if t.kind == .interface then " extends " else " implements "
  let interfaces := if t.interfaces.isEmpty then "" else verb ++ ", ".intercalate t.interfaces
  "public " ++ keyword t.kind ++ " " ++ t.name ++ components ++ base ++ interfaces ++ " \x7b"

/--
The lines of a member of the type with this simple name.
-/
def memberLines (simple : String) (m : Member) : List String :=
  let modifiers := if m.isStatic then "public static " else "public "
  m.doc.toList.map (fun doc => "    /** " ++ doc ++ " */") ++ (if m.deprecated then ["    @Deprecated"] else []) ++
    [match m.kind with
     | .field => "    " ++ modifiers ++ m.sig ++ " " ++ m.name ++ ";"
     | .constructor => "    public " ++ simple ++ "(" ++ m.sig ++ ");"
     | _ => "    " ++ modifiers ++ m.ret.getD "void" ++ " " ++ m.name ++ "(" ++ m.sig ++ ");"]

/--
Whether a member is part of a record's header.
-/
def inHeader (t : TypeEntry) (m : Member) : Bool :=
  t.kind == .record && (m.kind == .property || m.kind == .constructor)

/--
The lines of a type and the blank line after it.
-/
def typeLines (t : TypeEntry) : List String :=
  t.doc.toList.map (fun doc => "/** " ++ doc ++ " */") ++ (if t.deprecated then ["@Deprecated"] else []) ++
    [header t] ++ (if t.values.isEmpty then [] else ["    " ++ ", ".intercalate t.values ++ ";"]) ++
    (t.members.filter (fun m => !inHeader t m)).flatMap (memberLines (Text.lastSegment t.name)) ++ ["\x7d", ""]

/--
The lines of a package.
-/
def namespaceLines (ns : Namespace) : List String :=
  (if ns.name.isEmpty then [""] else ["", "package " ++ ns.name ++ ";", ""]) ++ ns.types.flatMap typeLines

/--
The lines of the stub file.
-/
def lines (i : Index) : List String :=
  ("// " ++ i.package ++ " - Public API Surface") :: i.namespaces.flatMap namespaceLines

/--
The stub file.
-/
def render (i : Index) : String :=
  String.join ((lines i).map (· ++ "\n"))

end ApiSurface.Java.Stub
