import ApiSurface.Extraction.Conventions
import ApiSurface.Extraction.Ledger
import ApiSurface.Text.Word

/-!
This module contains the summary of the packages outside the tree that the surface mentions.
-/

namespace ApiSurface

open Text

/--
The pairs `module.name` in a type expression that start at the border of a word, never overlapping.
-/
def qualifiedPairs : Nat → Bool → List Char → List (String × String)
  | 0, _, _ => []
  | fuel + 1, inWord, cs =>
    match cs with
    | [] => []
    | c :: rest =>
      let next := qualifiedPairs fuel (isWordChar c) rest
      if inWord then next
      else
        match takeIdent cs with
        | some (module, '.' :: after) =>
          match takeIdent after with
          | some (name, last) =>
            (String.ofList module, String.ofList name) :: qualifiedPairs fuel true last
          | none => next
        | _ => next

/--
The texts in which a namespace mentions types.
-/
def mentionedTexts (ns : Namespace) : List String :=
  ns.types.flatMap (fun t => t.parents ++ t.aliasOf.toList ++ t.members.flatMap Member.typeTexts) ++
    ns.functions.flatMap Member.typeTexts

/--
The last import of a local name, among whole packages or among imported names.
-/
def lastImport? (imports : List Import) (whole : Bool) (name : String) : Option Import :=
  (imports.filter (fun i => i.name.isNone == whole && i.local == name)).getLast?

/--
The uses of packages outside the tree in one text: pairs of a package and a name.
-/
def usesIn (isLocalType isLocalNamespace : String → Bool) (imports : List Import) (text : String) :
    List (String × String) :=
  let outside (i : Import) : Bool := !isLocalNamespace i.package
  let qualified := (qualifiedPairs (text.length + 1) false text.toList).filterMap fun (module, name) =>
    ((lastImport? imports true module).filter outside).map (fun i => (i.package, name))
  let plain := (identifierTokens text).filterMap fun token =>
    if isLocalType token then none
    else ((lastImport? imports false token).filter outside).map (fun i => (i.package, i.name.getD token))
  qualified ++ plain

/--
The packages outside the tree, in order, with the names used from each.
-/
def dependencies (c : Conventions) (collected : Collected) : List Dependency :=
  let typeNames := collected.namespaces.flatMap (fun ns => ns.types.map (·.name))
  let namespaceNames := collected.namespaces.map (·.name)
  let used := collected.namespaces.flatMap fun ns =>
    match collected.importsOf ns.name with
    | none => []
    | some imports => (mentionedTexts ns).flatMap (usesIn typeNames.contains namespaceNames.contains imports)
  let exported := collected.reexports.flatMap (fun i => i.name.toList.map (fun name => (i.package, name)))
  let packages := (used.map (·.1) ++ collected.reexports.map (·.package)).eraseDups
  (packages.mergeSort (fun a b => decide (a ≤ b))).map fun package =>
    let names := ((used ++ exported).filter (fun u => u.1 == package)).map (·.2)
    { package := package
      isStdlib := c.isStdlib package
      types := names.eraseDups.mergeSort (fun a b => decide (a ≤ b)) }

end ApiSurface
