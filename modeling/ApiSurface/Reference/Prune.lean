import ApiSurface.Reference.Graph

/-!
This module contains pruning: an index without the types that no root reaches.
-/

namespace ApiSurface.Index

/--
Keep the types whose key is in `kept`, and then the namespaces that are not empty.
-/
def restrict (i : Index) (kept : List TypeKey) : Index :=
  let namespaces := i.namespaces.map fun ns =>
    { ns with types := ns.types.filter (fun t => kept.contains ⟨ns.name, t.name⟩) }
  { i with namespaces := namespaces.filter (fun ns => !ns.isEmpty) }

/--
The index without the types that no root reaches, and the statistics of the graph that was walked.
-/
def pruneWithStats (i : Index) : Index × ReachabilityStats :=
  let g := ReferenceGraph.ofIndex i
  (i.restrict g.reachable, g.stats)

/--
The index without the types that no root reaches.
-/
def prune (i : Index) : Index :=
  i.pruneWithStats.1

end ApiSurface.Index
