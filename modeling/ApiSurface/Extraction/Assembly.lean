import ApiSurface.Extraction.Ledger

/-!
This module contains the assembly of an index while records come in, one after the other. A type is drafted when it is
declared for the first time; what was recorded for it before that has waited under its key. Every record is looked at
once, and the order among the records of one origin is kept.
-/

namespace ApiSurface

namespace Keyed

/--
The value under a key, `new` if there is none.
-/
def value [BEq κ] (new : β) (k : κ) : List (κ × β) → β
  | [] => new
  | (key, v) :: entries => if key == k then v else value new k entries

/--
Change the value under a key; a key that is not there yet comes last, with the value `new` before the change.
-/
def alter [BEq κ] (new : β) (k : κ) (f : β → β) : List (κ × β) → List (κ × β)
  | [] => [(k, f new)]
  | (key, v) :: entries => if key == k then (key, f v) :: entries else (key, v) :: alter new k f entries

/--
Change the value under a key, if the key is there.
-/
def modify [BEq κ] (k : κ) (f : β → β) (entries : List (κ × β)) : List (κ × β) :=
  entries.map (fun e => if e.1 == k then (e.1, f e.2) else e)

end Keyed

/--
The members and values recorded for a type, with their origins, in the order in which they came in.
-/
structure Parts where
  members : List (Origin × Member) := []
  values : List (Origin × String) := []
deriving Repr

namespace Parts

/--
The parts that a declaration brings with it.
-/
def ofDeclaration (t : TypeEntry) (origin : Origin) : Parts where
  members := t.members.map (fun m => (origin, m))
  values := t.values.map (fun v => (origin, v))

/--
All parts, the later ones last.
-/
def append (earlier later : Parts) : Parts where
  members := earlier.members ++ later.members
  values := earlier.values ++ later.values

end Parts

/--
A type that is declared: the declaration that counts so far with its origin, and what was recorded for the type.
-/
structure Draft where
  origin : Origin
  type : TypeEntry
  interfaces : List String
  parts : Parts
deriving Repr

namespace Draft

/--
The interfaces with those of a further declaration, each of them once.
-/
def addInterfaces (interfaces more : List String) : List String :=
  more.foldl (fun found name => if found.contains name then found else found ++ [name]) interfaces

/--
The draft that the first declaration of a type makes, with the parts that came before it.
-/
def start (t : TypeEntry) (origin : Origin) (earlier : Parts) : Draft where
  origin := origin
  type := t
  interfaces := addInterfaces [] t.interfaces
  parts := earlier.append (.ofDeclaration t origin)

/--
Add a further declaration. It counts if its origin is less than that of the one before.
-/
def redeclare (d : Draft) (t : TypeEntry) (origin : Origin) : Draft where
  origin := if d.origin.le origin then d.origin else origin
  type := if d.origin.le origin then d.type else t
  interfaces := addInterfaces d.interfaces t.interfaces
  parts := d.parts.append (.ofDeclaration t origin)

/--
The type in its final form: its parts by origin, each value once.
-/
def finish (d : Draft) : Origin × TypeEntry :=
  (d.origin,
    { d.type with
      members := Ledger.byOrigin d.parts.members
      values := (Ledger.byOrigin d.parts.values).eraseDups
      interfaces := d.interfaces })

end Draft

/--
The types in the making: those that are declared, and parts that wait for the declaration of their type. No key occurs
twice.
-/
structure Drafts where
  declared : List (TypeKey × Draft) := []
  waiting : List (TypeKey × Parts) := []
deriving Repr

namespace Drafts

/--
Whether a type is declared already.
-/
def declares (ds : Drafts) (key : TypeKey) : Bool :=
  ds.declared.any (fun e => e.1 == key)

/--
Take in a declaration.
-/
def declare (ds : Drafts) (key : TypeKey) (t : TypeEntry) (origin : Origin) : Drafts :=
  if ds.declares key then { ds with declared := Keyed.modify key (fun d => d.redeclare t origin) ds.declared }
  else
    { declared := ds.declared ++ [(key, .start t origin (Keyed.value {} key ds.waiting))]
      waiting := ds.waiting.filter (fun e => e.1 != key) }

/--
Take in parts from outside a declaration.
-/
def addParts (ds : Drafts) (key : TypeKey) (parts : Parts) : Drafts :=
  if ds.declares key then
    { ds with declared := Keyed.modify key (fun d => { d with parts := d.parts.append parts }) ds.declared }
  else { ds with waiting := Keyed.alter {} key (fun p => p.append parts) ds.waiting }

end Drafts

/--
What the records so far add up to: types in the making, and the functions and imports of namespaces.
-/
structure Assembly where
  drafts : Drafts := {}
  functions : List (String × List (Origin × Member)) := []
  imports : List (String × List Import) := []
deriving Repr

namespace Assembly

/--
Take in one record.
-/
def add (a : Assembly) : Record → Assembly
  | .declare ns t origin => { a with drafts := a.drafts.declare ⟨ns, t.name⟩ t origin }
  | .member ns t m origin => { a with drafts := a.drafts.addParts ⟨ns, t⟩ { members := [(origin, m)] } }
  | .value ns t v origin => { a with drafts := a.drafts.addParts ⟨ns, t⟩ { values := [(origin, v)] } }
  | .function ns f origin => { a with functions := Keyed.alter [] ns (fun fs => fs ++ [(origin, f)]) a.functions }
  | .imports ns names => { a with imports := Keyed.alter [] ns (fun is => is ++ names) a.imports }

/--
Take in all records.
-/
def ofRecords (records : List Record) : Assembly :=
  records.foldl add {}

/--
The names of the namespaces with a declared type or a function, in order.
-/
def namespaceNames (a : Assembly) : List String :=
  let names := a.drafts.declared.map (·.1.namespace) ++ a.functions.map (·.1)
  names.eraseDups.mergeSort (fun x y => decide (x ≤ y))

/--
The result: namespaces by name, and in them types and functions by origin. Members that still wait are orphans.
-/
def finish (a : Assembly) : Collected where
  namespaces := a.namespaceNames.map fun name =>
    let drafts := a.drafts.declared.filter (fun e => e.1.namespace == name)
    { name := name
      types := Ledger.byOrigin (drafts.map (·.2.finish))
      functions := Ledger.byOrigin (Keyed.value [] name a.functions) }
  imports := ((a.imports.map (·.1)).mergeSort (fun x y => decide (x ≤ y))).map fun name =>
    (name, ((Keyed.value [] name a.imports).mergeSort Import.le).eraseDups)
  orphans := a.drafts.waiting.foldl (fun n e => n + e.2.members.length) 0

end Assembly

end ApiSurface
