import ApiSurface.Reference.Table

/-!
This module contains the ledger of an extraction: what the files of a project were found to declare, and
the namespaces that the records add up to. A type may be declared in one file and get members from others,
in any order. Of several declarations of a type the one with the least origin counts.
-/

namespace ApiSurface

/--
Where something is declared: the file and the offset in it.
-/
structure Origin where
  file : String
  offset : Nat
deriving DecidableEq, Repr

/--
The order of origins: by file, then by offset.
-/
def Origin.le (a b : Origin) : Bool :=
  if a.file == b.file then decide (a.offset ≤ b.offset) else decide (a.file ≤ b.file)

/--
A name that an import brings into scope; without `name` it stands for the package itself.
-/
structure Import where
  «local» : String
  package : String
  name : Option String := none
deriving DecidableEq, Repr

/--
The order of imports: by local name, package and imported name, whole packages first.
-/
def Import.le (a b : Import) : Bool :=
  if a.local != b.local then decide (a.local ≤ b.local)
  else if a.package != b.package then decide (a.package ≤ b.package)
  else
    match a.name, b.name with
    | none, _ => true
    | some _, none => false
    | some m, some n => decide (m ≤ n)

/--
One thing found in a file.
-/
inductive Record where
  | declare (ns : String) (type : TypeEntry) (origin : Origin)
  | member (ns type : String) (member : Member) (origin : Origin)
  | value (ns type : String) (value : String) (origin : Origin)
  | function (ns : String) (function : Member) (origin : Origin)
  | imports (ns : String) (names : List Import)
deriving Repr

/--
What a list of records adds up to.
-/
structure Collected where
  namespaces : List Namespace := []
  /-- The imports of every namespace, by its name. -/
  imports : List (String × List Import) := []
  /-- How many members belong to types that were never declared. -/
  orphans : Nat := 0
  /-- Names that the package exports again from packages outside the tree. -/
  reexports : List Import := []
deriving Repr

/--
The imports of one namespace.
-/
def Collected.importsOf (c : Collected) (ns : String) : Option (List Import) :=
  (c.imports.find? (fun e => e.1 == ns)).map (·.2)

namespace Ledger

/--
Items in the order of their origins; items of one origin keep their order.
-/
def byOrigin (items : List (Origin × α)) : List α :=
  (items.mergeSort (fun a b => a.1.le b.1)).map (·.2)

/--
The key of a declaration.
-/
def declaredKey? : Record → Option TypeKey
  | .declare ns t _ => some ⟨ns, t.name⟩
  | _ => none

/--
The declaration, with its origin, that a record makes for a key.
-/
def declarationOf? (key : TypeKey) : Record → Option (Origin × TypeEntry)
  | .declare ns t origin => if key == ⟨ns, t.name⟩ then some (origin, t) else none
  | _ => none

/--
The members that a record adds to a key.
-/
def membersOf (key : TypeKey) : Record → List (Origin × Member)
  | .declare ns t origin => if key == ⟨ns, t.name⟩ then t.members.map (fun m => (origin, m)) else []
  | .member ns t m origin => if key == ⟨ns, t⟩ then [(origin, m)] else []
  | _ => []

/--
The values that a record adds to a key.
-/
def valuesOf (key : TypeKey) : Record → List (Origin × String)
  | .declare ns t origin => if key == ⟨ns, t.name⟩ then t.values.map (fun v => (origin, v)) else []
  | .value ns t v origin => if key == ⟨ns, t⟩ then [(origin, v)] else []
  | _ => []

/--
The functions that a record adds to a namespace.
-/
def functionsOf (name : String) : Record → List (Origin × Member)
  | .function ns f origin => if ns == name then [(origin, f)] else []
  | _ => []

/--
The imports that a record adds to a namespace.
-/
def importsOf (name : String) : Record → List Import
  | .imports ns names => if ns == name then names else []
  | _ => []

/--
The first of the items with the least origin.
-/
def earliest? : List (Origin × α) → Option (Origin × α)
  | [] => none
  | x :: rest =>
    match earliest? rest with
    | none => some x
    | some y => if x.1.le y.1 then some x else some y

/--
The type that the records make of a key, if one of them declares it.
-/
def typeOf? (records : List Record) (key : TypeKey) : Option (Origin × TypeEntry) :=
  match earliest? (records.filterMap (declarationOf? key)) with
  | none => none
  | some (origin, t) =>
    let declarations := records.filterMap (declarationOf? key)
    some (origin,
      { t with
        members := byOrigin (records.flatMap (membersOf key))
        values := (byOrigin (records.flatMap (valuesOf key))).eraseDups
        interfaces := (declarations.flatMap (fun d => d.2.interfaces)).eraseDups })

/--
The keys of all declarations.
-/
def declaredKeys (records : List Record) : List TypeKey :=
  (records.filterMap declaredKey?).eraseDups

/--
The namespaces that get a type or a function.
-/
def namespaceNames (records : List Record) : List String :=
  let names := records.filterMap fun
    | .declare ns _ _ => some ns
    | .function ns _ _ => some ns
    | _ => none
  names.eraseDups.mergeSort (fun a b => decide (a ≤ b))

/--
The namespaces that get imports.
-/
def importingNames (records : List Record) : List String :=
  let names := records.filterMap fun
    | .imports ns _ => some ns
    | _ => none
  names.eraseDups.mergeSort (fun a b => decide (a ≤ b))

/--
The members whose type no record declares.
-/
def orphanCount (records : List Record) : Nat :=
  let declared := declaredKeys records
  (records.filter fun
    | .member ns t _ _ => !declared.contains ⟨ns, t⟩
    | _ => false).length

/--
What the records add up to: namespaces by name, and in them types, members, values and functions by origin.
-/
def collect (records : List Record) : Collected where
  namespaces := (namespaceNames records).map fun name =>
    let keys := (declaredKeys records).filter (fun k => k.namespace == name)
    { name := name
      types := byOrigin (keys.filterMap (typeOf? records))
      functions := byOrigin (records.flatMap (functionsOf name)) }
  imports := (importingNames records).map fun name =>
    (name, ((records.flatMap (importsOf name)).mergeSort Import.le).eraseDups)
  orphans := orphanCount records

end Ledger

end ApiSurface
