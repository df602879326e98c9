import ApiSurface.Index.Json
import ApiSurface.Proofs.Json.Decoding

/-!
This module contains the theory of the JSON form of an index: every part of an index is read back from its JSON form,
and so is the whole index from its text.
-/

namespace ApiSurface

open Json (Decoder Fields textEntry flagEntry listEntry)
open Json.Fields (ReadsFrom)

namespace Json.Fields.ReadsFrom

theorem text (name : String) (s : Option String) :
    (Fields.optional name Decoder.string).ReadsFrom [name] (textEntry name s) s := by
  cases s with
  | none => exact .absent
  | some s => exact .present .str rfl

theorem flag (name : String) (b : Bool) :
    (Fields.withDefault name Decoder.bool false).ReadsFrom [name] (flagEntry name b) b := by
  cases b with
  | false => exact .absent
  | true => exact .present .bool rfl

theorem list {d : Decoder α} {encode : α → Json} (h : d.Inverts encode) (name : String) (as : List α) :
    (Fields.withDefault name (Decoder.list d) []).ReadsFrom [name] (listEntry name encode as) as := by
  cases as with
  | nil => exact .absent
  | cons a as => exact .present (h.list.complete (a :: as)) (h.list.decode_eq (a :: as))

end Json.Fields.ReadsFrom

theorem TypeKind.decoder_inverts : TypeKind.decoder.Inverts (fun k => .str k.name) :=
  Decoder.variant_inverts (by intro k; cases k <;> decide) (by intro k l; cases k <;> cases l <;> decide)

theorem MemberKind.decoder_inverts : MemberKind.decoder.Inverts (fun k => .str k.name) :=
  Decoder.variant_inverts (by intro k; cases k <;> decide) (by intro k l; cases k <;> cases l <;> decide)

theorem Severity.decoder_inverts : Severity.decoder.Inverts (fun l => .str l.name) :=
  Decoder.variant_inverts (by intro l; cases l <;> decide) (by intro k l; cases k <;> cases l <;> decide)

theorem Param.decoder_inverts : Param.decoder.Inverts Param.toJson := by
  apply Decoder.record_inverts (by decide)
  intro p
  exact (ReadsFrom.text "name" p.name).map Param.mk
    |>.seq (.withDefault Decoder.string_inverts "type" "" p.type)
    |>.seq (.flag "variadic" p.variadic)
    |>.seq (.flag "optional" p.optional)

theorem Outcome.decoder_inverts : Outcome.decoder.Inverts Outcome.toJson := by
  apply Decoder.record_inverts (by decide)
  intro r
  exact (ReadsFrom.text "name" r.name).map Outcome.mk
    |>.seq (.withDefault Decoder.string_inverts "type" "" r.type)

theorem Member.decoder_inverts : Member.decoder.Inverts Member.toJson := by
  apply Decoder.record_inverts (by decide)
  intro m
  -- the kind and the text of the parameters are written together
  rw [List.append_cons _ ("kind", _)]
  exact (ReadsFrom.required Decoder.string_inverts "name" m.name).map Member.mk
    |>.seq (.text "id" m.id)
    |>.seq (.required MemberKind.decoder_inverts "kind" m.kind)
    |>.seq (.withDefault Decoder.string_inverts "sig" "" m.sig)
    |>.seq (.text "ret" m.ret)
    |>.seq (.list Param.decoder_inverts "params" m.params)
    |>.seq (.list Outcome.decoder_inverts "results" m.results)
    |>.seq (.text "doc" m.doc)
    |>.seq (.flag "static" m.isStatic)
    |>.seq (.flag "async" m.isAsync)
    |>.seq (.flag "deprecated" m.deprecated)
    |>.seq (.text "deprecatedMessage" m.deprecatedMessage)
    |>.seq (.text "crossLanguageId" m.crossLanguageId)

theorem TypeEntry.decoder_inverts : TypeEntry.decoder.Inverts TypeEntry.toJson := by
  apply Decoder.record_inverts (by decide)
  intro t
  exact (ReadsFrom.required Decoder.string_inverts "name" t.name).map TypeEntry.mk
    |>.seq (.text "id" t.id)
    |>.seq (.required TypeKind.decoder_inverts "kind" t.kind)
    |>.seq (.text "base" t.base)
    |>.seq (.list Decoder.string_inverts "interfaces" t.interfaces)
    |>.seq (.text "aliasOf" t.aliasOf)
    |>.seq (.text "doc" t.doc)
    |>.seq (.flag "entryPoint" t.entryPoint)
    |>.seq (.flag "deprecated" t.deprecated)
    |>.seq (.text "deprecatedMessage" t.deprecatedMessage)
    |>.seq (.flag "error" t.isError)
    |>.seq (.text "reExportedFrom" t.reExportedFrom)
    |>.seq (.text "crossLanguageId" t.crossLanguageId)
    |>.seq (.withDefault Member.decoder_inverts.list "members" [] t.members)
    |>.seq (.list Decoder.string_inverts "values" t.values)

theorem Namespace.decoder_inverts : Namespace.decoder.Inverts Namespace.toJson := by
  apply Decoder.record_inverts (by decide)
  intro ns
  exact (ReadsFrom.required Decoder.string_inverts "name" ns.name).map Namespace.mk
    |>.seq (.withDefault TypeEntry.decoder_inverts.list "types" [] ns.types)
    |>.seq (.list Member.decoder_inverts "functions" ns.functions)

theorem Dependency.decoder_inverts : Dependency.decoder.Inverts Dependency.toJson := by
  apply Decoder.record_inverts (by decide)
  intro d
  exact (ReadsFrom.required Decoder.string_inverts "package" d.package).map Dependency.mk
    |>.seq (.flag "isStdlib" d.isStdlib)
    |>.seq (.list Decoder.string_inverts "types" d.types)

theorem Diagnostic.decoder_inverts : Diagnostic.decoder.Inverts Diagnostic.toJson := by
  apply Decoder.record_inverts (by decide)
  intro d
  exact (ReadsFrom.required Decoder.string_inverts "id" d.id).map Diagnostic.mk
    |>.seq (.required Decoder.string_inverts "text" d.text)
    |>.seq (.required Severity.decoder_inverts "level" d.level)
    |>.seq (.text "targetType" d.targetType)
    |>.seq (.text "targetMember" d.targetMember)

theorem Index.decoder_inverts : Index.decoder.Inverts Index.toJson := by
  apply Decoder.record_inverts (by decide)
  intro i
  exact (ReadsFrom.required Decoder.string_inverts "package" i.package).map Index.mk
    |>.seq (.text "version" i.version)
    |>.seq (.text "crossLanguagePackageId" i.crossLanguagePackageId)
    |>.seq (.withDefault Namespace.decoder_inverts.list "namespaces" [] i.namespaces)
    |>.seq (.list Dependency.decoder_inverts "dependencies" i.dependencies)
    |>.seq (.withDefault Diagnostic.decoder_inverts.list "diagnostics" [] i.diagnostics)

theorem Index.parse_render (i : Index) : Index.parse i.render = .ok i :=
  Index.decoder_inverts.decode_pretty i

end ApiSurface
