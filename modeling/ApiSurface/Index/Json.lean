import ApiSurface.Index.Basic
import ApiSurface.Json.Decoder
import ApiSurface.Json.Printer

/-!
This module contains the JSON form of an index. Fields stand in the order of the declarations; an absent
text, a flag that is not set and an empty list are left out where the form allows it.
-/

namespace ApiSurface

open Json (Decoder Fields)

/--
The entry of an optional text, if it is there.
-/
def Json.textEntry (name : String) : Option String → List (String × Json)
  | none => []
  | some s => [(name, .str s)]

/--
The entry of a flag, if it is set.
-/
def Json.flagEntry (name : String) : Bool → List (String × Json)
  | false => []
  | true => [(name, .bool true)]

/--
The entry of a list, if it has elements.
-/
def Json.listEntry (name : String) (encode : α → Json) : List α → List (String × Json)
  | [] => []
  | as => [(name, .list (as.map encode))]

open Json (textEntry flagEntry listEntry)

/--
A kind of type, by its name.
-/
def TypeKind.decoder : Decoder TypeKind :=
  Decoder.variant (TypeKind.all.map (fun k => (k.name, k)))

/--
A kind of member, by its name.
-/
def MemberKind.decoder : Decoder MemberKind :=
  Decoder.variant (MemberKind.all.map (fun k => (k.name, k)))

/--
A severity, by its name.
-/
def Severity.decoder : Decoder Severity :=
  Decoder.variant ([Severity.info, .warning, .error].map (fun l => (l.name, l)))

namespace Param

/--
The JSON form.
-/
def toJson (p : Param) : Json :=
  .object (textEntry "name" p.name ++ [("type", .str p.type)] ++ flagEntry "variadic" p.variadic ++
    flagEntry "optional" p.optional)

/--
Read the JSON form.
-/
def decoder : Decoder Param :=
  Decoder.record "ParamInfo" ["name", "type", "variadic", "optional"] <|
    Param.mk <$> Fields.optional "name" Decoder.string <*> Fields.withDefault "type" Decoder.string "" <*>
      Fields.withDefault "variadic" Decoder.bool false <*> Fields.withDefault "optional" Decoder.bool false

end Param

namespace Outcome

/--
The JSON form.
-/
def toJson (r : Outcome) : Json :=
  .object (textEntry "name" r.name ++ [("type", .str r.type)])

/--
Read the JSON form.
-/
def decoder : Decoder Outcome :=
  Decoder.record "ResultInfo" ["name", "type"] <|
    Outcome.mk <$> Fields.optional "name" Decoder.string <*> Fields.withDefault "type" Decoder.string ""

end Outcome

namespace Member

/--
The JSON form.
-/
def toJson (m : Member) : Json :=
  .object ([("name", .str m.name)] ++ textEntry "id" m.id ++ [("kind", .str m.kind.name), ("sig", .str m.sig)] ++
    textEntry "ret" m.ret ++ listEntry "params" Param.toJson m.params ++
    listEntry "results" Outcome.toJson m.results ++ textEntry "doc" m.doc ++ flagEntry "static" m.isStatic ++
    flagEntry "async" m.isAsync ++ flagEntry "deprecated" m.deprecated ++
    textEntry "deprecatedMessage" m.deprecatedMessage ++ textEntry "crossLanguageId" m.crossLanguageId)

/--
The names of the fields, in their order.
-/
def fieldNames : List String :=
  ["name", "id", "kind", "sig", "ret", "params", "results", "doc", "static", "async", "deprecated",
   "deprecatedMessage", "crossLanguageId"]

/--
Read the JSON form.
-/
def decoder : Decoder Member :=
  Decoder.record "MemberInfo" fieldNames <|
    Member.mk <$> Fields.required "name" Decoder.string <*> Fields.optional "id" Decoder.string <*>
      Fields.required "kind" MemberKind.decoder <*> Fields.withDefault "sig" Decoder.string "" <*>
      Fields.optional "ret" Decoder.string <*> Fields.withDefault "params" (Decoder.list Param.decoder) [] <*>
      Fields.withDefault "results" (Decoder.list Outcome.decoder) [] <*> Fields.optional "doc" Decoder.string <*>
      Fields.withDefault "static" Decoder.bool false <*> Fields.withDefault "async" Decoder.bool false <*>
      Fields.withDefault "deprecated" Decoder.bool false <*> Fields.optional "deprecatedMessage" Decoder.string <*>
      Fields.optional "crossLanguageId" Decoder.string

end Member

namespace TypeEntry

/--
The JSON form.
-/
def toJson (t : TypeEntry) : Json :=
  .object ([("name", .str t.name)] ++ textEntry "id" t.id ++ [("kind", .str t.kind.name)] ++
    textEntry "base" t.base ++ listEntry "interfaces" Json.str t.interfaces ++ textEntry "aliasOf" t.aliasOf ++
    textEntry "doc" t.doc ++ flagEntry "entryPoint" t.entryPoint ++ flagEntry "deprecated" t.deprecated ++
    textEntry "deprecatedMessage" t.deprecatedMessage ++ flagEntry "error" t.isError ++
    textEntry "reExportedFrom" t.reExportedFrom ++ textEntry "crossLanguageId" t.crossLanguageId ++
    [("members", .list (t.members.map Member.toJson))] ++ listEntry "values" Json.str t.values)

/--
The names of the fields, in their order.
-/
def fieldNames : List String :=
  ["name", "id", "kind", "base", "interfaces", "aliasOf", "doc", "entryPoint", "deprecated", "deprecatedMessage",
   "error", "reExportedFrom", "crossLanguageId", "members", "values"]

/--
Read the JSON form.
-/
def decoder : Decoder TypeEntry :=
  Decoder.record "TypeInfo" fieldNames <|
    TypeEntry.mk <$> Fields.required "name" Decoder.string <*> Fields.optional "id" Decoder.string <*>
      Fields.required "kind" TypeKind.decoder <*> Fields.optional "base" Decoder.string <*>
      Fields.withDefault "interfaces" (Decoder.list Decoder.string) [] <*> Fields.optional "aliasOf" Decoder.string <*>
      Fields.optional "doc" Decoder.string <*> Fields.withDefault "entryPoint" Decoder.bool false <*>
      Fields.withDefault "deprecated" Decoder.bool false <*> Fields.optional "deprecatedMessage" Decoder.string <*>
      Fields.withDefault "error" Decoder.bool false <*> Fields.optional "reExportedFrom" Decoder.string <*>
      Fields.optional "crossLanguageId" Decoder.string <*> Fields.withDefault "members" (Decoder.list Member.decoder) [] <*>
      Fields.withDefault "values" (Decoder.list Decoder.string) []

end TypeEntry

namespace Namespace

/--
The JSON form.
-/
def toJson (ns : Namespace) : Json :=
  .object ([("name", .str ns.name), ("types", .list (ns.types.map TypeEntry.toJson))] ++
    listEntry "functions" Member.toJson ns.functions)

/--
Read the JSON form.
-/
def decoder : Decoder Namespace :=
  Decoder.record "NamespaceInfo" ["name", "types", "functions"] <|
    Namespace.mk <$> Fields.required "name" Decoder.string <*> Fields.withDefault "types" (Decoder.list TypeEntry.decoder) [] <*>
      Fields.withDefault "functions" (Decoder.list Member.decoder) []

end Namespace

namespace Dependency

/--
The JSON form.
-/
def toJson (d : Dependency) : Json :=
  .object ([("package", .str d.package)] ++ flagEntry "isStdlib" d.isStdlib ++ listEntry "types" Json.str d.types)

/--
Read the JSON form.
-/
def decoder : Decoder Dependency :=
  Decoder.record "DependencyInfo" ["package", "isStdlib", "types"] <|
    Dependency.mk <$> Fields.required "package" Decoder.string <*> Fields.withDefault "isStdlib" Decoder.bool false <*>
      Fields.withDefault "types" (Decoder.list Decoder.string) []

end Dependency

namespace Diagnostic

/--
The JSON form.
-/
def toJson (d : Diagnostic) : Json :=
  .object ([("id", .str d.id), ("text", .str d.text), ("level", .str d.level.name)] ++
    textEntry "targetType" d.targetType ++ textEntry "targetMember" d.targetMember)

/--
Read the JSON form.
-/
def decoder : Decoder Diagnostic :=
  Decoder.record "Diagnostic" ["id", "text", "level", "targetType", "targetMember"] <|
    Diagnostic.mk <$> Fields.required "id" Decoder.string <*> Fields.required "text" Decoder.string <*>
      Fields.required "level" Severity.decoder <*> Fields.optional "targetType" Decoder.string <*>
      Fields.optional "targetMember" Decoder.string

end Diagnostic

namespace Index

/--
The JSON form.
-/
def toJson (i : Index) : Json :=
  .object ([("package", .str i.package)] ++ textEntry "version" i.version ++
    textEntry "crossLanguagePackageId" i.crossLanguagePackageId ++
    [("namespaces", .list (i.namespaces.map Namespace.toJson))] ++
    listEntry "dependencies" Dependency.toJson i.dependencies ++
    [("diagnostics", .list (i.diagnostics.map Diagnostic.toJson))])

/--
Read the JSON form.
-/
def decoder : Decoder Index :=
  Decoder.record "ApiIndex"
      ["package", "version", "crossLanguagePackageId", "namespaces", "dependencies", "diagnostics"] <|
    Index.mk <$> Fields.required "package" Decoder.string <*> Fields.optional "version" Decoder.string <*>
      Fields.optional "crossLanguagePackageId" Decoder.string <*>
      Fields.withDefault "namespaces" (Decoder.list Namespace.decoder) [] <*>
      Fields.withDefault "dependencies" (Decoder.list Dependency.decoder) [] <*>
      Fields.withDefault "diagnostics" (Decoder.list Diagnostic.decoder) []

/--
The index as an indented JSON text.
-/
def render (i : Index) : String :=
  i.toJson.pretty

/--
Read an index from a JSON text.
-/
def parse (text : String) : Except Json.Error Index :=
  Json.decode Index.decoder text

end Index

end ApiSurface
