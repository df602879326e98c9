import ApiSurface.Distinct
import ApiSurface.Reference.Table

/-!
This module contains the graph of references between types: which types a type mentions, and which types
extend or implement it. A consumer gets from the roots to every type along these edges.
-/

namespace ApiSurface

open Text

/--
What the graph knows of a type.
-/
structure TypeNode where
  key : TypeKey
  entryPoint : Bool
  hasOperations : Bool
  rootKind : Bool
deriving DecidableEq, Repr

/--
Types with the edges between them. `references` holds pairs of a type and one it mentions, `implementers`
pairs of a type and one that extends or implements it. No edge and no key occurs twice.
-/
structure ReferenceGraph where
  nodes : List TypeNode := []
  references : List (TypeKey × TypeKey) := []
  implementers : List (TypeKey × TypeKey) := []
deriving Repr

/--
Size and reach of a reference graph.
-/
structure ReachabilityStats where
  types : Nat
  references : Nat
  implementations : Nat
  roots : Nat
  reachable : Nat
deriving DecidableEq, Repr

/--
The statistics as a text of three lines.
-/
def ReachabilityStats.text (s : ReachabilityStats) : String :=
  s!"Reference Graph:\n  Types: {s.types} (roots: {s.roots}, reachable: {s.reachable})\n" ++
    s!"  Edges: {s.references} references, {s.implementations} implementations\n"

namespace ReferenceGraph

/--
Add a type; a key that is already there keeps what either declaration says of it.
-/
def addType (g : ReferenceGraph) (ns : String) (t : TypeEntry) : ReferenceGraph :=
  let key : TypeKey := ⟨ns, t.name⟩
  if g.nodes.any (fun n => n.key == key) then
    { g with nodes := g.nodes.map fun n =>
        if n.key == key then
          { n with
            entryPoint := n.entryPoint || t.entryPoint
            hasOperations := n.hasOperations || t.hasCallables
            rootKind := n.rootKind || t.kind.isRoot }
        else n }
  else { g with nodes := g.nodes ++ [⟨key, t.entryPoint, t.hasCallables, t.kind.isRoot⟩] }

/--
Record that `source` mentions `target`.
-/
def addReference (g : ReferenceGraph) (source target : TypeKey) : ReferenceGraph :=
  { g with references := g.references.insert (source, target) }

/--
Record that `implementer` extends or implements `parent`.
-/
def addImplementation (g : ReferenceGraph) (parent implementer : TypeKey) : ReferenceGraph :=
  { g with implementers := g.implementers.insert (parent, implementer) }

/--
The texts in which a type mentions others: parents, aliased type, signatures and the types in them.
-/
def mentions (t : TypeEntry) : List String :=
  t.parents ++ t.aliasOf.toList ++ t.members.flatMap (fun m => m.sig :: m.typeTexts)

/--
The other types that a type mentions.
-/
def mentionedTypes (table : TypeTable) (key : TypeKey) (t : TypeEntry) : List TypeKey :=
  (((mentions t).flatMap dottedNames).eraseDups.flatMap (table.resolve key)).filter (· != key)

/--
The types that a type's parent expressions denote.
-/
def parentTypes (table : TypeTable) (key : TypeKey) (t : TypeEntry) : List TypeKey :=
  t.parents.flatMap (table.resolveParent key)

/--
Whether the type has, by name, every operation of the interface, which has at least one.
-/
def satisfies (t interface : TypeEntry) : Bool :=
  t.kind != .interface && interface.kind == .interface && interface.hasCallables &&
    interface.callables.all (fun m => t.callables.any (fun o => o.name == m.name))

/--
The graph of an index.
-/
def ofIndex (i : Index) : ReferenceGraph :=
  let table := TypeTable.ofNamespaces i.namespaces
  let types := i.types
  let g : ReferenceGraph := types.foldl (fun g (ns, t) => g.addType ns t) {}
  let g := types.foldl (fun g (ns, t) =>
    let key : TypeKey := ⟨ns, t.name⟩
    let g := (mentionedTypes table key t).foldl (fun g target => g.addReference key target) g
    (parentTypes table key t).foldl (fun g parent => g.addImplementation parent key) g) g
  types.foldl (fun g (ns, t) =>
    types.foldl (fun g (ns', face) =>
      if satisfies t face then g.addImplementation ⟨ns', face.name⟩ ⟨ns, t.name⟩ else g) g) g

/--
The types that a type mentions.
-/
def referencesOf (g : ReferenceGraph) (k : TypeKey) : List TypeKey :=
  (g.references.filter (fun e => e.1 == k)).map (·.2)

/--
The types that extend or implement a type.
-/
def implementersOf (g : ReferenceGraph) (k : TypeKey) : List TypeKey :=
  (g.implementers.filter (fun e => e.1 == k)).map (·.2)

/--
One step of the walk.
-/
def successors (g : ReferenceGraph) (k : TypeKey) : List TypeKey :=
  g.referencesOf k ++ g.implementersOf k

/--
Whether a type mentions one that has operations.
-/
def referencesOperations (g : ReferenceGraph) (k : TypeKey) : Bool :=
  (g.referencesOf k).any (fun r => g.nodes.any (fun n => n.key == r && n.hasOperations))

/--
Whether another type mentions this one.
-/
def isReferenced (g : ReferenceGraph) (k : TypeKey) : Bool :=
  g.references.any (fun (source, target) => target == k && source != target)

/--
The types of a root kind with operations, or with a mention of a type with operations.
-/
def candidates (g : ReferenceGraph) (unreferenced : Bool) : List TypeKey :=
  TypeKey.toSet <|
    (g.nodes.filter fun n =>
      n.rootKind && (!unreferenced || !g.isReferenced n.key) &&
        (n.hasOperations || g.referencesOperations n.key)).map (·.key)

/--
Where the walk starts: at the entry points; without any, at the candidates that no other type mentions;
without any, at all candidates.
-/
def roots (g : ReferenceGraph) : List TypeKey :=
  match TypeKey.toSet ((g.nodes.filter (·.entryPoint)).map (·.key)) with
  | entries@(_ :: _) => entries
  | [] =>
    match g.candidates true with
    | found@(_ :: _) => found
    | [] => g.candidates false

/--
Where the edges lead, once for every edge.
-/
def targets (g : ReferenceGraph) : List TypeKey :=
  (g.references ++ g.implementers).map (·.2)

/--
The targets that are still to be visited.
-/
def unvisited (g : ReferenceGraph) (visited : List TypeKey) : List TypeKey :=
  g.targets.filter (fun k => !visited.contains k)

/--
The successors of a type that are still to be visited, each once.
-/
def fresh (g : ReferenceGraph) (visited : List TypeKey) (k : TypeKey) : List TypeKey :=
  ((g.successors k).filter (fun n => !visited.contains n)).eraseDups

theorem mem_successors {g : ReferenceGraph} {k n : TypeKey} :
    n ∈ g.successors k ↔ (k, n) ∈ g.references ∨ (k, n) ∈ g.implementers := by
  simp [successors, referencesOf, implementersOf]

theorem mem_fresh {g : ReferenceGraph} {visited : List TypeKey} {k n : TypeKey} :
    n ∈ g.fresh visited k ↔ n ∈ g.successors k ∧ n ∉ visited := by
  simp [fresh, List.mem_eraseDups]

theorem nodup_fresh (g : ReferenceGraph) (visited : List TypeKey) (k : TypeKey) : (g.fresh visited k).Nodup := by
  apply Distinct.nodup_eraseDups

theorem mem_unvisited_of_mem_fresh {g : ReferenceGraph} {visited : List TypeKey} {k n : TypeKey}
    (h : n ∈ g.fresh visited k) : n ∈ g.unvisited visited := by
  rw [mem_fresh, mem_successors] at h
  have htarget : n ∈ g.targets := by
    simp only [targets, List.mem_map, List.mem_append]
    exact ⟨(k, n), h.1, rfl⟩
  simp [unvisited, htarget, h.2]

theorem unvisited_append (g : ReferenceGraph) (visited new : List TypeKey) :
    g.unvisited (visited ++ new) = (g.unvisited visited).filter (fun k => !new.contains k) := by
  simp only [unvisited, List.filter_filter]
  congr 1
  funext k
  simp [Bool.and_comm]

theorem length_unvisited_append_fresh (g : ReferenceGraph) (visited : List TypeKey) (k : TypeKey) :
    (g.unvisited (visited ++ g.fresh visited k)).length + (g.fresh visited k).length
      ≤
    (g.unvisited visited).length := by
  rw [unvisited_append]
  apply Distinct.length_filter_add_length_le
  . apply nodup_fresh
  . intro n hn
    exact mem_unvisited_of_mem_fresh hn

/--
Walk from the keys of `queue`, all of them in `visited`, until the queue is empty. A type is queued only when
it is visited for the first time, so there is an end to it.
-/
def walk (g : ReferenceGraph) (visited queue : List TypeKey) : List TypeKey :=
  match queue with
  | [] => visited
  | k :: queue => g.walk (visited ++ g.fresh visited k) (queue ++ g.fresh visited k)
termination_by queue.length + (g.unvisited visited).length
decreasing_by
  have := g.length_unvisited_append_fresh visited k
  simp only [List.length_append, List.length_cons]
  omega

/--
Everything that can be reached from the given keys, in order.
-/
def reachableFrom (g : ReferenceGraph) (start : List TypeKey) : List TypeKey :=
  TypeKey.sort (g.walk start.eraseDups start.eraseDups)

/--
Everything that can be reached from the roots.
-/
def reachable (g : ReferenceGraph) : List TypeKey :=
  g.reachableFrom g.roots

/--
The statistics of a graph.
-/
def stats (g : ReferenceGraph) : ReachabilityStats where
  types := g.nodes.length
  references := g.references.length
  implementations := g.implementers.length
  roots := g.roots.length
  reachable := g.reachable.length

end ReferenceGraph

end ApiSurface
