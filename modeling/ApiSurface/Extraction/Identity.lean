import ApiSurface.Reference.Table

/-!
This module contains the ids of types, members and functions. An id is derived from names and parameter
types; one that is taken already gets the least free number from two on.
-/

namespace ApiSurface

/--
The id `base`, or `base` with the least number from `n` on that is not taken.
-/
def freeId (taken : List String) (base : String) : Nat → Nat → String
  | 0, n => base ++ "#" ++ toString n
  | fuel + 1, n =>
    let candidate := base ++ "#" ++ toString n
    if taken.contains candidate then freeId taken base fuel (n + 1) else candidate

/--
The first free id with this base.
-/
def uniqueId (taken : List String) (base : String) : String :=
  if taken.contains base then freeId taken base taken.length 2 else base

/--
The parameter types of a member, without spaces.
-/
def paramTypes (m : Member) : String :=
  ",".intercalate (m.params.map (fun p => String.ofList (p.type.toList.filter (· != ' '))))

/--
The base of a member's id.
-/
def memberIdBase (typeId : String) (m : Member) : String :=
  if m.isCallable then typeId ++ "." ++ m.name ++ "(" ++ paramTypes m ++ ")" else typeId ++ "." ++ m.name

/--
The base of a function's id.
-/
def functionIdBase (ns : String) (f : Member) : String :=
  qualify ns (f.name ++ "(" ++ paramTypes f ++ ")")

/--
Give every member the first free id with its base; the taken ids are threaded through.
-/
def assignMemberIds (base : Member → String) : List String → List Member → List Member × List String
  | taken, [] => ([], taken)
  | taken, m :: rest =>
    let id := uniqueId taken (base m)
    let (rest, taken) := assignMemberIds base (id :: taken) rest
    ({ m with id := some id } :: rest, taken)

/--
Give types and their members ids.
-/
def assignTypeIds (ns : String) : List String → List TypeEntry → List TypeEntry × List String
  | taken, [] => ([], taken)
  | taken, t :: rest =>
    let id := uniqueId taken (qualify ns t.name)
    let (members, taken) := assignMemberIds (memberIdBase id) (id :: taken) t.members
    let (rest, taken) := assignTypeIds ns taken rest
    ({ t with id := some id, members := members } :: rest, taken)

/--
Give everything in the namespaces ids.
-/
def assignNamespaceIds : List String → List Namespace → List Namespace
  | _, [] => []
  | taken, ns :: rest =>
    let (types, taken) := assignTypeIds ns.name taken ns.types
    let (functions, taken) := assignMemberIds (functionIdBase ns.name) taken ns.functions
    { ns with types := types, functions := functions } :: assignNamespaceIds taken rest

/--
Give every type, member and function an id that nothing else in the namespaces has.
-/
def assignIds (nss : List Namespace) : List Namespace :=
  assignNamespaceIds [] nss

end ApiSurface
