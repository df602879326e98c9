import Mathlib.Data.Finset.Card
import ApiSurface.Proofs.Reference.Functions

/-!
This module contains what pruning takes away and what its statistics count. All that is reachable is declared, so the
kept types have as many keys as there are reachable ones; everything but types out of reach, and namespaces with
nothing left in them, stays as it is and where it is.
-/

namespace ApiSurface

theorem toFinset_eraseDups [DecidableEq α] (xs : List α) : xs.eraseDups.toFinset = xs.toFinset := by
  ext x
  rw [List.mem_toFinset, List.mem_toFinset, List.mem_eraseDups]

theorem TypeKey.nodup_toSet (keys : List TypeKey) : (toSet keys).Nodup := by
  unfold toSet
  rw [nodup_sort]
  apply Distinct.nodup_eraseDups

namespace ReferenceGraph

theorem mem_keys_of_mem_candidates {g : ReferenceGraph} {unreferenced : Bool} {k : TypeKey}
    (hk : k ∈ g.candidates unreferenced) : k ∈ g.nodes.map (·.key) := by
  unfold candidates at hk
  rw [TypeKey.mem_toSet] at hk
  exact List.map_subset _ (List.filter_subset_self _) hk

theorem mem_keys_of_mem_roots {g : ReferenceGraph} {k : TypeKey} (hk : k ∈ g.roots) : k ∈ g.nodes.map (·.key) := by
  unfold roots at hk
  split at hk
  . next hentries =>
    rw [← hentries, TypeKey.mem_toSet] at hk
    exact List.map_subset _ (List.filter_subset_self _) hk
  . split at hk
    . next hfound =>
      rw [← hfound] at hk
      exact mem_keys_of_mem_candidates hk
    . exact mem_keys_of_mem_candidates hk

theorem nodup_roots (g : ReferenceGraph) : g.roots.Nodup := by
  unfold roots
  split
  . next hentries =>
    rw [← hentries]
    apply TypeKey.nodup_toSet
  . split
    . next hfound =>
      rw [← hfound]
      apply TypeKey.nodup_toSet
    . apply TypeKey.nodup_toSet

theorem roots_subset_reachable (g : ReferenceGraph) : g.roots ⊆ g.reachable := by
  intro k hk
  exact mem_reachable.mpr (Reaches.of_mem hk)

theorem length_roots_le (g : ReferenceGraph) : g.roots.length ≤ g.reachable.length := by
  exact (List.subperm_of_subset g.nodup_roots g.roots_subset_reachable).length_le

theorem map_key_nodes_ofIndex (i : Index) : (ofIndex i).nodes.map (·.key) = (i.types.map declaredKey).eraseDups := by
  rw [ofIndex_nodes, List.map_map]
  apply List.map_id'

end ReferenceGraph

namespace Index

variable {i : Index}

theorem declares_of_mem_roots {k : TypeKey} (hk : k ∈ (ReferenceGraph.ofIndex i).roots) : i.Declares k := by
  have hnode := ReferenceGraph.mem_keys_of_mem_roots hk
  rw [ReferenceGraph.map_key_nodes_ofIndex, List.mem_eraseDups] at hnode
  exact hnode

theorem declares_target_of_edge {a b : TypeKey} (hedge : (ReferenceGraph.ofIndex i).Edge a b) : i.Declares b := by
  rw [ReferenceGraph.edge_ofIndex_iff] at hedge
  rcases hedge with ⟨d, -, rfl, hmention⟩ | ⟨d, hd, rfl, -⟩ | ⟨d, hd, rfl, -⟩
  . obtain ⟨-, text, -, name, -, hresolve⟩ := ReferenceGraph.mem_mentionedTypes.mp hmention
    exact declares_of_mem_resolve hresolve
  . exact List.mem_map_of_mem hd
  . exact List.mem_map_of_mem hd

theorem declares_of_mem_reachable {k : TypeKey} (hk : k ∈ (ReferenceGraph.ofIndex i).reachable) : i.Declares k := by
  rw [ReferenceGraph.mem_reachable] at hk
  have hclosed : (ReferenceGraph.ofIndex i).Closed {k | i.Declares k} := by
    intro a _ b hedge
    exact declares_target_of_edge hedge
  exact hclosed.mem_of_reaches (fun r hr => declares_of_mem_roots hr) hk

theorem declares_prune_iff_mem_reachable {k : TypeKey} :
    i.prune.Declares k ↔ k ∈ (ReferenceGraph.ofIndex i).reachable := by
  rw [declares_prune]
  exact and_iff_right_of_imp declares_of_mem_reachable

theorem mem_reachable_of_entryPoint {d : String × TypeEntry} (hd : d ∈ i.types) (hentry : d.2.entryPoint = true) :
    declaredKey d ∈ (ReferenceGraph.ofIndex i).reachable := by
  apply ReferenceGraph.roots_subset_reachable
  exact (ReferenceGraph.mem_roots_of_entry ⟨d, hd, hentry⟩).mpr ⟨d, hd, rfl, hentry⟩

theorem length_nodes_ofIndex (i : Index) :
    (ReferenceGraph.ofIndex i).nodes.length = (i.types.map declaredKey).toFinset.card := by
  rw [← List.length_map (·.key), ReferenceGraph.map_key_nodes_ofIndex, ← toFinset_eraseDups]
  exact (List.toFinset_card_of_nodup (Distinct.nodup_eraseDups _)).symm

theorem card_keys_prune (i : Index) :
    (i.prune.types.map declaredKey).toFinset.card = (ReferenceGraph.ofIndex i).reachable.length := by
  have hkeys : (i.prune.types.map declaredKey).toFinset = (ReferenceGraph.ofIndex i).reachable.toFinset := by
    ext k
    rw [List.mem_toFinset, List.mem_toFinset]
    exact declares_prune_iff_mem_reachable
  rw [hkeys]
  exact List.toFinset_card_of_nodup (ReferenceGraph.nodup_reachableFrom _ _)

theorem length_reachable_le (i : Index) :
    (ReferenceGraph.ofIndex i).reachable.length ≤ (ReferenceGraph.ofIndex i).nodes.length := by
  rw [← card_keys_prune, length_nodes_ofIndex]
  apply Finset.card_le_card
  intro k hk
  rw [List.mem_toFinset] at hk ⊢
  exact (declares_prune.mp hk).1

theorem namespaces_restrict (i : Index) (kept : List TypeKey) :
    (i.restrict kept).namespaces
      =
    i.namespaces.filterMap fun ns =>
      let types := ns.types.filter (fun t => decide (⟨ns.name, t.name⟩ ∈ kept))
      if types = [] ∧ ns.functions = [] then none else some { ns with types := types } := by
  unfold restrict
  dsimp only
  rw [← List.filterMap_eq_filter, List.filterMap_map]
  congr 1
  funext ns
  simp only [Function.comp_apply, Option.guard, Namespace.isEmpty, List.contains_eq_mem]
  simp only [Bool.not_eq_eq_eq_not, Bool.not_true, Bool.and_eq_false_imp, List.isEmpty_iff]
  split <;> split <;> simp_all

theorem filter_entryPoint_prune (i : Index) :
    i.prune.types.filter (fun d => d.2.entryPoint) = i.types.filter (fun d => d.2.entryPoint) := by
  rw [prune_eq, types_restrict, List.filter_filter]
  apply List.filter_congr
  intro d hd
  cases hentry : d.2.entryPoint with
  | false => rfl
  | true => simpa using mem_reachable_of_entryPoint hd hentry

theorem pruneWithStats_frame_and_counts (i : Index) :
    { i.pruneWithStats.1 with namespaces := i.namespaces } = i ∧
    i.pruneWithStats.1.namespaces
      =
    (i.namespaces.filterMap fun ns =>
      let types := ns.types.filter (fun t => decide (⟨ns.name, t.name⟩ ∈ (ReferenceGraph.ofIndex i).reachable))
      if types = [] ∧ ns.functions = [] then none else some { ns with types := types }) ∧
    i.pruneWithStats.1.types
      =
    i.types.filter (fun d => decide (declaredKey d ∈ (ReferenceGraph.ofIndex i).reachable)) ∧
    i.pruneWithStats.1.functions = i.functions ∧
    i.pruneWithStats.1.types.filter (fun d => d.2.entryPoint) = i.types.filter (fun d => d.2.entryPoint) ∧
    (i.pruneWithStats.1.types.map declaredKey).toFinset.card = i.pruneWithStats.2.reachable ∧
    i.pruneWithStats.2.types = (i.types.map declaredKey).toFinset.card ∧
    i.pruneWithStats.2.roots ≤ i.pruneWithStats.2.reachable ∧
    i.pruneWithStats.2.reachable ≤ i.pruneWithStats.2.types := by
  refine ⟨rfl, ?_, ?_, ?_, ?_, ?_, ?_, ?_, ?_⟩
  . exact i.namespaces_restrict _
  . have htypes := i.types_restrict (ReferenceGraph.ofIndex i).reachable
    simp only [List.contains_eq_mem] at htypes
    exact htypes
  . exact i.functions_restrict _
  . exact i.filter_entryPoint_prune
  . exact i.card_keys_prune
  . exact i.length_nodes_ofIndex
  . exact ReferenceGraph.length_roots_le _
  . exact i.length_reachable_le

end Index

end ApiSurface
