import ApiSurface.Index.Basic

/-!
This module contains the rendering of an index as Go declarations.
-/

namespace ApiSurface.Go.Stub

/--
The results of a member, after a space.
-/
def retText (m : Member) : String :=
  match m.ret with
  | some r => " " ++ r
  | none => ""

/--
Comment lines for a documentation and a deprecation message.
-/
def docLines (doc deprecated : Option String) : List String :=
  doc.toList.map ("// " ++ ·) ++ deprecated.toList.map ("// Deprecated: " ++ ·)

/--
The deprecation message of a type, empty if the type has none.
-/
def deprecation (t : TypeEntry) : Option String :=
  t.deprecatedMessage <|> (if t.deprecated then some "" else none)

/--
The lines that declare a type.
-/
def declarationLines (t : TypeEntry) : List String :=
  match t.kind with
  | .interface =>
    ["type " ++ t.name ++ " interface \x7b"] ++ t.interfaces.map ("    " ++ ·) ++
      t.members.map (fun m => "    " ++ m.name ++ "(" ++ m.sig ++ ")" ++ retText m) ++ ["\x7d"]
  | .struct =>
    ["type " ++ t.name ++ " struct \x7b"] ++ t.parents.map ("    " ++ ·) ++
      (t.members.filter (fun m => m.kind == .field)).map (fun m => "    " ++ m.name ++ " " ++ m.sig) ++ ["\x7d"]
  | .delegate =>
    match t.members.head? with
    | some m => ["type " ++ t.name ++ " func(" ++ m.sig ++ ")" ++ retText m]
    | none => ["type " ++ t.name ++ " func()"]
  | _ => ["type " ++ t.name ++ " " ++ t.aliasOf.getD "any"]

/--
The lines that declare the values of a type.
-/
def valueLines (t : TypeEntry) : List String :=
  if t.values.isEmpty then []
  else ["const ("] ++ t.values.map (fun v => "    " ++ v ++ " " ++ t.name ++ " = ...") ++ [")"]

/--
The lines of a callable member outside its type's body.
-/
def memberLines (t : TypeEntry) (m : Member) : List String :=
  let signature := m.name ++ "(" ++ m.sig ++ ")" ++ retText m
  docLines m.doc none ++
    [if m.kind == .constructor then "func " ++ signature else "func (" ++ t.name ++ ") " ++ signature]

/--
The lines of a type and the blank line after it.
-/
def typeLines (t : TypeEntry) : List String :=
  docLines t.doc (deprecation t) ++ declarationLines t ++ valueLines t ++
    (if t.kind == .interface || t.kind == .delegate then [] else t.callables.flatMap (memberLines t)) ++ [""]

/--
The lines of a package.
-/
def namespaceLines (ns : Namespace) : List String :=
  ["", "// Package: " ++ ns.name, ""] ++ ns.types.flatMap typeLines ++
    ns.functions.flatMap (fun f => docLines f.doc none ++ ["func " ++ f.name ++ "(" ++ f.sig ++ ")" ++ retText f])

/--
The lines of the stub file.
-/
def lines (i : Index) : List String :=
  ("// " ++ i.package ++ " - Public API Surface") :: i.namespaces.flatMap namespaceLines

/--
The stub file.
-/
def render (i : Index) : String :=
  String.join ((lines i).map (· ++ "\n"))

end ApiSurface.Go.Stub
