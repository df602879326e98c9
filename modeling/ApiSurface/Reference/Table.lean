import ApiSurface.Index.Basic
import ApiSurface.Text.Name

/-!
This module contains the lookup of type names. A reference is written inside some type and is resolved in
scope order: qualified by a namespace, nested in the referring type or in a type around it, in the
referring namespace, anywhere, and last as the innermost name of a nested type.
-/

namespace ApiSurface

open Text

/--
A type, identified by its namespace and its dotted name.
-/
structure TypeKey where
  «namespace» : String
  name : String
deriving DecidableEq, Repr, Inhabited

namespace TypeKey

/--
The order of keys: by namespace, then by name.
-/
def le (a b : TypeKey) : Bool :=
  if a.namespace == b.namespace then decide (a.name ≤ b.name) else decide (a.namespace ≤ b.namespace)

/--
Keys in order.
-/
def sort (keys : List TypeKey) : List TypeKey :=
  keys.mergeSort le

/--
A set of keys as a list: in order and without repetitions.
-/
def toSet (keys : List TypeKey) : List TypeKey :=
  sort keys.eraseDups

end TypeKey

/--
A name qualified by a namespace that may be the unnamed one.
-/
def qualify (ns name : String) : String :=
  if ns.isEmpty then name else ns ++ "." ++ name

/--
The key as text.
-/
def TypeKey.text (k : TypeKey) : String :=
  qualify k.namespace k.name

/--
The declared types of an index, in order of declaration, and the names of all namespaces.
-/
structure TypeTable where
  namespaces : List String
  keys : List TypeKey
deriving Repr

namespace TypeTable

/--
The table of a list of namespaces.
-/
def ofNamespaces (nss : List Namespace) : TypeTable where
  namespaces := (nss.map (·.name)).eraseDups
  keys := nss.flatMap (fun ns => ns.types.map (fun t => ⟨ns.name, t.name⟩))

/--
Whether the key is declared.
-/
def contains (t : TypeTable) (k : TypeKey) : Bool :=
  t.keys.contains k

/--
Whether a qualifier denotes a namespace: by its whole name, or by whole segments at its end.
-/
def denotes (qualifier ns : String) : Bool :=
  ns == qualifier || ns.endsWith ("." ++ qualifier) || ns.endsWith ("/" ++ qualifier)

/--
The declared keys of this name in the namespaces that the qualifier denotes, in order.
-/
def qualified (t : TypeTable) (qualifier name : String) : List TypeKey :=
  TypeKey.sort <|
    (t.namespaces.filter (denotes qualifier)).filterMap fun ns =>
      if t.contains ⟨ns, name⟩ then some ⟨ns, name⟩ else none

/--
A type's dotted name and the names of the types around it, innermost first.
-/
def scopes (name : String) : List String :=
  name :: (qualifierSplits name).map (·.1)

/--
The key of a type nested in the referring type or in one around it, innermost first.
-/
def enclosed (t : TypeTable) (source : TypeKey) (reference : String) : Option TypeKey :=
  (scopes source.name).findSome? fun scope =>
    let key : TypeKey := ⟨source.namespace, scope ++ "." ++ reference⟩
    if t.contains key then some key else none

/--
The declared keys of this full name, in order.
-/
def named (t : TypeTable) (name : String) : List TypeKey :=
  TypeKey.toSet (t.keys.filter (fun k => k.name == name))

/--
The keys of nested types with this innermost name.
-/
def innermost (t : TypeTable) (name : String) : List TypeKey :=
  t.keys.filter fun k =>
    match splitLastDot k.name with
    | some (_, last) => last == name
    | none => false

/--
The keys of nested types with this innermost name, those of the referring namespace if it has any.
-/
def nestedNamed (t : TypeTable) (source : TypeKey) (name : String) : List TypeKey :=
  let near := (t.innermost name).filter (fun k => k.namespace == source.namespace)
  TypeKey.sort (if near.isEmpty then t.innermost name else near)

/--
A reference without the blanks and marks of indirection around it.
-/
def normalize (reference : String) : String :=
  trimStartWhile isIndirection (trim reference)

/--
What was found, if anything was.
-/
def found? (keys : List TypeKey) : Option (List TypeKey) :=
  if keys.isEmpty then none else some keys

theorem length_normalize_le (reference : String) : (normalize reference).length ≤ reference.length := by
  unfold normalize
  exact Nat.le_trans (length_trimStartWhile_le _ _) (length_trim_le _)

/--
The types that a name written inside `source` denotes with all its qualifiers, in order.
-/
def resolveWhole (t : TypeTable) (source : TypeKey) (name : String) : List TypeKey :=
  match (qualifierSplits name).findSome? fun (q, n) => found? (t.qualified q n) with
  | some found => found
  | none =>
    match t.enclosed source name with
    | some key => [key]
    | none => if t.contains ⟨source.namespace, name⟩ then [⟨source.namespace, name⟩] else t.named name

/--
The types that a name written inside `source` can denote, in order. A qualifier that denotes nothing is dropped.
-/
def resolveName (t : TypeTable) (source : TypeKey) (name : String) : List TypeKey :=
  if name.isEmpty then []
  else
    match t.resolveWhole source name with
    | found@(_ :: _) => found
    | [] =>
      match h : splitFirstDot name with
      | none => t.nestedNamed source name
      | some (_, rest) =>
        have : (normalize rest).length < name.length :=
          Nat.lt_of_le_of_lt (length_normalize_le rest) (length_of_splitFirstDot h)
        t.resolveName source (normalize rest)
termination_by name.length

/--
The types that a reference written inside `source` can denote, in order.
-/
def resolve (t : TypeTable) (source : TypeKey) (reference : String) : List TypeKey :=
  t.resolveName source (normalize reference)

/--
The types that a parent expression written inside `source` can denote.
-/
def resolveParent (t : TypeTable) (source : TypeKey) (parent : String) : List TypeKey :=
  t.resolve source (parentHead parent)

end TypeTable

end ApiSurface
