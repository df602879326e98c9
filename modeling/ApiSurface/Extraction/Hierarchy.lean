import ApiSurface.Extraction.Conventions
import ApiSurface.Extraction.Ledger

/-!
This module contains the hierarchy of the extracted types: which local types a parent expression denotes,
the division of parents into a base and interfaces, and the types that are errors.
-/

namespace ApiSurface

open Text

/--
The declared types and the imports under which their parents are looked up.
-/
structure Hierarchy where
  table : TypeTable
  imports : List (String × List Import)

namespace Hierarchy

/--
The hierarchy of a list of namespaces.
-/
def ofNamespaces (nss : List Namespace) (imports : List (String × List Import)) : Hierarchy :=
  ⟨TypeTable.ofNamespaces nss, imports⟩

/--
The first import that brings the first segment of a name into scope of a namespace.
-/
def importFor? (h : Hierarchy) (ns head : String) : Option Import :=
  match h.imports.find? (fun e => e.1 == ns) with
  | none => none
  | some (_, names) => names.find? (fun i => i.local == firstSegment head)

/--
What follows the first dot.
-/
def afterFirst? (head : String) : Option String :=
  (splitFirstDot head).map (·.2)

/--
The declared type that a name denotes through an import.
-/
def imported? (h : Hierarchy) (ns head : String) : Option TypeKey :=
  match h.importFor? ns head with
  | none => none
  | some i =>
    let key? : Option TypeKey :=
      match i.name, afterFirst? head with
      | some name, none => some ⟨i.package, name⟩
      | some name, some rest => some ⟨i.package, name ++ "." ++ rest⟩
      | none, some rest => some ⟨i.package, rest⟩
      | none, none => none
    key?.filter h.table.contains

/--
The declared types that a parent expression denotes: an imported one, or those found in scope order.
-/
def resolve (h : Hierarchy) (source : TypeKey) (parent : String) : List TypeKey :=
  let head := parentHead parent
  match h.imported? source.namespace head with
  | some key => [key]
  | none => h.table.resolve source head

end Hierarchy

/--
The kind of the last declaration of a key.
-/
def kindOf? (nss : List Namespace) (key : TypeKey) : Option TypeKind :=
  let kinds := nss.flatMap fun ns => ns.types.filterMap fun t =>
    if key == ⟨ns.name, t.name⟩ then some t.kind else none
  kinds.getLast?

/--
Whether a parent of `from` is an interface: by the kind of the first local type it denotes, or by the
language's convention if it denotes none.
-/
def parentIsInterface (c : Conventions) (h : Hierarchy) (nss : List Namespace) (source : TypeKey)
    (parent : String) : Bool :=
  match (h.resolve source parent).head?.bind (kindOf? nss) with
  | some kind => kind == .interface
  | none => c.externalParentIsInterface parent

/--
Divide parents: the first that is not an interface is the base, unless the type itself is an interface, and
the others are interfaces without repetition.
-/
def divideParents (isInterface : String → Bool) (allowBase : Bool) (parents : List String) :
    Option String × List String :=
  let base := if allowBase then parents.find? (fun p => !isInterface p) else none
  let rest :=
    match base with
    | none => parents
    | some b => parents.eraseP (fun p => p == b && !isInterface p)
  (base, rest.eraseDups)

/--
Settle base and interfaces of every type.
-/
def classifyParents (c : Conventions) (nss : List Namespace) (imports : List (String × List Import)) :
    List Namespace :=
  if c.parentsAreExplicit then nss
  else
    let h := Hierarchy.ofNamespaces nss imports
    nss.map fun ns =>
      { ns with types := ns.types.map fun t =>
          let isInterface := parentIsInterface c h nss ⟨ns.name, t.name⟩
          let (base, interfaces) := divideParents isInterface (t.kind != .interface) t.parents
          { t with base := base, interfaces := interfaces } }

end ApiSurface
