import ApiSurface.Index.Json
import ApiSurface.Reference.Table

/-!
This module contains the identities that one package has in several languages, and how they are attached to
an index. Attaching fills in identities and changes nothing else.
-/

namespace ApiSurface

/--
Canonical identities for local ids.
-/
structure CrossReference where
  packageId : Option String := none
  ids : List (String × String) := []
deriving DecidableEq, Repr

namespace CrossReference

/--
Read the JSON form.
-/
def decoder : Json.Decoder CrossReference :=
  Json.Decoder.record "CrossLanguageMap" ["packageId", "ids"] <|
    CrossReference.mk <$> Json.Fields.optional "packageId" Json.Decoder.string <*>
      Json.Fields.withDefault "ids" (Json.Decoder.dictionary Json.Decoder.string) []

/--
The canonical identity of a local id.
-/
def lookup? (m : CrossReference) (id : String) : Option String :=
  (m.ids.find? (fun e => e.1 == id)).map (·.2)

/--
The canonical identity of an item with this key, or the identity it had.
-/
def identify (m : CrossReference) (key : String) (previous : Option String) : Option String :=
  m.lookup? key <|> previous

/--
Attach the identity of a member whose key without an id would be `name`.
-/
def attachMember (m : CrossReference) (name : String) (member : Member) : Member :=
  { member with crossLanguageId := m.identify (member.id.getD name) member.crossLanguageId }

/--
Attach the identities of a type and its members.
-/
def attachType (m : CrossReference) (ns : String) (t : TypeEntry) : TypeEntry :=
  let key := t.id.getD (qualify ns t.name)
  { t with
    crossLanguageId := m.identify key t.crossLanguageId
    members := t.members.map (fun member => m.attachMember (key ++ "." ++ member.name) member) }

/--
Attach all identities.
-/
def attach (m : CrossReference) (i : Index) : Index :=
  { i with
    crossLanguagePackageId := m.packageId <|> i.crossLanguagePackageId
    namespaces := i.namespaces.map fun ns =>
      { ns with
        types := ns.types.map (m.attachType ns.name)
        functions := ns.functions.map (fun f => m.attachMember (qualify ns.name f.name) f) } }

end CrossReference

end ApiSurface
