import ApiSurface.Extraction.Hierarchy

/-!
This module contains the marking of error types: a type is an error if it says so itself, or if one of its
parents is an error of the tree or an error root outside of it. The search remembers answers; a type whose
answer is still being sought counts as no error.
-/

namespace ApiSurface

open Text

/--
What the search knows: the answers found, and the types it is at.
-/
structure ErrorSearch where
  known : List (TypeKey × Bool)
  visiting : List TypeKey

namespace ErrorSearch

/--
The answer for a key, if it is known.
-/
def answer? (s : ErrorSearch) (k : TypeKey) : Option Bool :=
  (s.known.find? (fun e => e.1 == k)).map (·.2)

/--
The parents of the last declaration of a key.
-/
def parentsOf (nss : List Namespace) (key : TypeKey) : List String :=
  let lists := nss.flatMap fun ns => ns.types.filterMap fun t =>
    if key == ⟨ns.name, t.name⟩ then some t.parents else none
  lists.getLast?.getD []

mutual
/--
Whether the type is an error, looking at most `fuel` types deep.
-/
def visit (c : Conventions) (h : Hierarchy) (nss : List Namespace) (fuel : Nat) (key : TypeKey)
    (s : ErrorSearch) : Bool × ErrorSearch :=
  match fuel with
  | 0 => (false, s)
  | fuel + 1 =>
    match s.answer? key with
    | some known => (known, s)
    | none =>
      if s.visiting.contains key then (false, s)
      else
        let s := { s with visiting := key :: s.visiting }
        let (result, s) := visitParents c h nss fuel key (parentsOf nss key) s
        (result, { s with known := (key, result) :: s.known })
termination_by (fuel, 0, 0)

/--
Whether one of the parents is an error, from the first on.
-/
def visitParents (c : Conventions) (h : Hierarchy) (nss : List Namespace) (fuel : Nat) (key : TypeKey)
    (parents : List String) (s : ErrorSearch) : Bool × ErrorSearch :=
  match parents with
  | [] => (false, s)
  | parent :: rest =>
    let (hit, s) :=
      match h.resolve key parent with
      | [] => (c.isErrorRoot (parentHead parent), s)
      | found => visitAny c h nss fuel found s
    if hit then (true, s) else visitParents c h nss fuel key rest s
termination_by (fuel, 2, parents.length)

/--
Whether one of the types is an error, from the first on.
-/
def visitAny (c : Conventions) (h : Hierarchy) (nss : List Namespace) (fuel : Nat) (keys : List TypeKey)
    (s : ErrorSearch) : Bool × ErrorSearch :=
  match keys with
  | [] => (false, s)
  | key :: rest =>
    let (hit, s) := visit c h nss fuel key s
    if hit then (true, s) else visitAny c h nss fuel rest s
termination_by (fuel, 1, keys.length)
end

end ErrorSearch

/--
The keys of all types, in order and without repetitions.
-/
def typeKeys (nss : List Namespace) : List TypeKey :=
  (nss.flatMap (fun ns => ns.types.map (fun t => ⟨ns.name, t.name⟩))).eraseDups

/--
The types that say of themselves that they are errors.
-/
def declaredErrors (c : Conventions) (nss : List Namespace) : List (TypeKey × Bool) :=
  nss.flatMap fun ns => ns.types.filterMap fun t =>
    if c.isErrorType t then some (⟨ns.name, t.name⟩, true) else none

/--
Set the error flag of every type, visiting the keys in the given order.
-/
def markErrorsInOrder (c : Conventions) (nss : List Namespace) (imports : List (String × List Import))
    (order : List TypeKey) : List Namespace :=
  let h := Hierarchy.ofNamespaces nss imports
  let fuel := (typeKeys nss).length + 1
  let known := order.foldl (fun known key => (ErrorSearch.visit c h nss fuel key ⟨known, []⟩).2.known)
    (declaredErrors c nss)
  nss.map fun ns =>
    { ns with types := ns.types.map fun t =>
        { t with isError := (known.find? (fun e => e.1 == ⟨ns.name, t.name⟩)).any (·.2) } }

/--
Set the error flag of every type.
-/
def markErrors (c : Conventions) (nss : List Namespace) (imports : List (String × List Import)) :
    List Namespace :=
  markErrorsInOrder c nss imports (typeKeys nss)

end ApiSurface
