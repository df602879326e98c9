import ApiSurface.Proofs.Reference.Prune

/-!
This module contains what the order of declarations means for reachability: nothing. Namespaces, the types in them and
their members may come in any order; names then stand for the same types, and the graph has the same nodes and edges,
so it has the same roots and the same types are reachable.
-/

namespace ApiSurface

/--
The elements of the second list are those of the first, in another order and each changed as `R` allows.
-/
def ReorderedBy (R : α → β → Prop) (xs : List α) (ys : List β) : Prop :=
  ∃ zs, xs.Perm zs ∧ List.Forall₂ R zs ys

namespace ReorderedBy

variable {R : α → β → Prop} {S : γ → δ → Prop} {xs xs' : List α} {ys ys' : List β}

theorem append (h : ReorderedBy R xs ys) (h' : ReorderedBy R xs' ys') : ReorderedBy R (xs ++ xs') (ys ++ ys') := by
  obtain ⟨zs, hperm, hrel⟩ := h
  obtain ⟨zs', hperm', hrel'⟩ := h'
  exact ⟨zs ++ zs', hperm.append hperm', List.rel_append hrel hrel'⟩

theorem map {f : α → γ} {g : β → δ} (h : ReorderedBy R xs ys) (hfg : ∀ x y, R x y → S (f x) (g y)) :
    ReorderedBy S (xs.map f) (ys.map g) := by
  obtain ⟨zs, hperm, hrel⟩ := h
  exact ⟨zs.map f, hperm.map f, List.rel_map hfg hrel⟩

theorem flatMap {f : α → List γ} {g : β → List δ} (h : ReorderedBy R xs ys)
    (hfg : ∀ x y, R x y → ReorderedBy S (f x) (g y)) : ReorderedBy S (xs.flatMap f) (ys.flatMap g) := by
  obtain ⟨zs, hperm, hrel⟩ := h
  have hparts : ReorderedBy S (zs.flatMap f) (ys.flatMap g) := by
    clear hperm
    induction hrel with
    | nil => exact ⟨[], .refl _, .nil⟩
    | cons hxy _ ih => exact (hfg _ _ hxy).append ih
  obtain ⟨ws, hws, hrel⟩ := hparts
  exact ⟨ws, (hperm.flatMap_right f).trans hws, hrel⟩

theorem map_perm {f : α → γ} {g : β → γ} (h : ReorderedBy R xs ys) (hfg : ∀ x y, R x y → f x = g y) :
    (xs.map f).Perm (ys.map g) := by
  obtain ⟨zs, hperm, hrel⟩ := h
  have hmap : zs.map f = ys.map g := by
    rw [← List.forall₂_eq_eq_eq]
    exact List.rel_map hfg hrel
  rw [← hmap]
  exact hperm.map f

theorem exists_mem_iff {P : α → Prop} {Q : β → Prop} (h : ReorderedBy R xs ys) (hPQ : ∀ x y, R x y → (P x ↔ Q y)) :
    (∃ x ∈ xs, P x) ↔ ∃ y ∈ ys, Q y := by
  obtain ⟨zs, hperm, hrel⟩ := h
  simp only [hperm.mem_iff]
  clear hperm
  induction hrel with
  | nil => simp
  | cons hxy _ ih => rw [List.exists_mem_cons_iff, List.exists_mem_cons_iff, hPQ _ _ hxy, ih]

theorem any_eq {p : α → Bool} {q : β → Bool} (h : ReorderedBy R xs ys) (hpq : ∀ x y, R x y → p x = q y) :
    xs.any p = ys.any q := by
  rw [Bool.eq_iff_iff, List.any_eq_true, List.any_eq_true]
  apply h.exists_mem_iff
  intro x y hxy
  rw [hpq x y hxy]

end ReorderedBy

/--
The type with its members in another order.
-/
def TypeEntry.Reordered (s t : TypeEntry) : Prop :=
  ∃ members, s.members.Perm members ∧ t = { s with members := members }

/--
The namespace with its types in another order, and in each type the members.
-/
def Namespace.Reordered (m n : Namespace) : Prop :=
  ∃ types, ReorderedBy TypeEntry.Reordered m.types types ∧ n = { m with types := types }

/--
The index with its namespaces in another order, in each of them the types, and in each type the members.
-/
def Index.Reordered (i j : Index) : Prop :=
  ∃ namespaces, ReorderedBy Namespace.Reordered i.namespaces namespaces ∧ j = { i with namespaces := namespaces }

/--
Declarations in namespaces of the same name, of types that differ in the order of their members alone.
-/
def DeclarationReordered (d e : String × TypeEntry) : Prop :=
  d.1 = e.1 ∧ d.2.Reordered e.2

namespace TypeEntry.Reordered

variable {s t s' t' : TypeEntry}

theorem hasCallables_eq (h : s.Reordered t) : s.hasCallables = t.hasCallables := by
  obtain ⟨members, hperm, rfl⟩ := h
  exact hperm.any_eq

theorem callables_perm (h : s.Reordered t) : s.callables.Perm t.callables := by
  obtain ⟨members, hperm, rfl⟩ := h
  exact hperm.filter _

theorem mentions_perm (h : s.Reordered t) : (ReferenceGraph.mentions s).Perm (ReferenceGraph.mentions t) := by
  obtain ⟨members, hperm, rfl⟩ := h
  exact (hperm.flatMap_right _).append_left _

theorem satisfies_eq (h : s.Reordered t) (h' : s'.Reordered t') :
    ReferenceGraph.satisfies s s' = ReferenceGraph.satisfies t t' := by
  have hany : ∀ m : Member,
      s.callables.any (fun o => o.name == m.name) = t.callables.any (fun o => o.name == m.name) := by
    intro m
    exact h.callables_perm.any_eq
  unfold ReferenceGraph.satisfies
  simp only [hany, h'.hasCallables_eq, h'.callables_perm.all_eq]
  obtain ⟨members, -, rfl⟩ := h
  obtain ⟨members', -, rfl⟩ := h'
  rfl

end TypeEntry.Reordered

namespace DeclarationReordered

variable {d e : String × TypeEntry}

theorem declaredKey_eq (h : DeclarationReordered d e) : declaredKey d = declaredKey e := by
  obtain ⟨hns, members, -, ht⟩ := h
  unfold declaredKey
  rw [hns, ht]

theorem parents_eq (h : DeclarationReordered d e) : d.2.parents = e.2.parents := by
  obtain ⟨-, members, -, ht⟩ := h
  rw [ht]
  rfl

end DeclarationReordered

namespace Index.Reordered

variable {i j : Index} (h : i.Reordered j)

include h

theorem types_reordered : ReorderedBy DeclarationReordered i.types j.types := by
  obtain ⟨namespaces, hnamespaces, rfl⟩ := h
  apply hnamespaces.flatMap
  rintro m n ⟨types, htypes, rfl⟩
  apply htypes.map
  intro s t hst
  exact ⟨rfl, hst⟩

theorem declaredKeys_perm : (i.types.map declaredKey).Perm (j.types.map declaredKey) := by
  apply h.types_reordered.map_perm
  intro d e hde
  exact hde.declaredKey_eq

/--
The table of a reordered index is a part of the table, and that with nothing left out.
-/
theorem restricts : TypeTable.Restricts (fun _ => true) (TypeTable.ofNamespaces i.namespaces)
    (TypeTable.ofNamespaces j.namespaces) where
  wellFormed := TypeTable.wellFormed_ofNamespaces _
  small_wellFormed := TypeTable.wellFormed_ofNamespaces _
  keys_perm := by
    rw [ofNamespaces_keys, ofNamespaces_keys, List.filter_true]
    exact h.declaredKeys_perm.symm

theorem resolve_eq (source : TypeKey) (reference : String) :
    (TypeTable.ofNamespaces i.namespaces).resolve source reference
      =
    (TypeTable.ofNamespaces j.namespaces).resolve source reference := by
  symm
  apply h.restricts.resolve_eq_self
  intros
  rfl

theorem nodeOf_eq (k : TypeKey) : ReferenceGraph.nodeOf i.types k = ReferenceGraph.nodeOf j.types k := by
  unfold ReferenceGraph.nodeOf
  congr 1
  all_goals
    apply h.types_reordered.any_eq
    intro d e hde
    rw [hde.declaredKey_eq]
    congr 1
  . obtain ⟨-, members, -, ht⟩ := hde
    rw [ht]
  . exact hde.2.hasCallables_eq
  . obtain ⟨-, members, -, ht⟩ := hde
    rw [ht]

theorem mentionEdge_iff {a b : TypeKey} {d e : String × TypeEntry} (hde : DeclarationReordered d e) :
    ReferenceGraph.MentionEdge (TypeTable.ofNamespaces i.namespaces) a b d
      ↔
    ReferenceGraph.MentionEdge (TypeTable.ofNamespaces j.namespaces) a b e := by
  unfold ReferenceGraph.MentionEdge
  simp only [ReferenceGraph.mem_mentionedTypes, hde.declaredKey_eq, hde.2.mentions_perm.mem_iff, h.resolve_eq]

theorem parentEdge_iff {a b : TypeKey} {d e : String × TypeEntry} (hde : DeclarationReordered d e) :
    ReferenceGraph.ParentEdge (TypeTable.ofNamespaces i.namespaces) a b d
      ↔
    ReferenceGraph.ParentEdge (TypeTable.ofNamespaces j.namespaces) a b e := by
  unfold ReferenceGraph.ParentEdge
  simp only [ReferenceGraph.mem_parentTypes, hde.declaredKey_eq, hde.parents_eq, h.resolve_eq]

theorem satisfiedEdge_iff {a b : TypeKey} {d e : String × TypeEntry} (hde : DeclarationReordered d e) :
    ReferenceGraph.SatisfiedEdge i.types a b d ↔ ReferenceGraph.SatisfiedEdge j.types a b e := by
  unfold ReferenceGraph.SatisfiedEdge
  rw [hde.declaredKey_eq]
  apply and_congr_right
  intro _
  apply h.types_reordered.exists_mem_iff
  intro face face' hface
  rw [hface.declaredKey_eq, hde.2.satisfies_eq hface.2]

end Index.Reordered

namespace ReferenceGraph

/--
No edge occurs twice.
-/
structure EdgesDistinct (g : ReferenceGraph) : Prop where
  references : g.references.Nodup
  implementers : g.implementers.Nodup

namespace EdgesDistinct

variable {g : ReferenceGraph} (h : g.EdgesDistinct)

include h

theorem addReference (source target : TypeKey) : (g.addReference source target).EdgesDistinct :=
  ⟨h.references.insert, h.implementers⟩

theorem addImplementation (parent implementer : TypeKey) : (g.addImplementation parent implementer).EdgesDistinct :=
  ⟨h.references, h.implementers.insert⟩

theorem addMentions (table : TypeTable) (d : String × TypeEntry) : (addMentions table g d).EdgesDistinct := by
  unfold ReferenceGraph.addMentions
  apply List.foldlRecOn
  . apply List.foldlRecOn
    . exact h
    . intro g hg target _
      exact hg.addReference _ _
  . intro g hg parent _
    exact hg.addImplementation _ _

theorem addSatisfied (types : List (String × TypeEntry)) (d : String × TypeEntry) :
    (addSatisfied types g d).EdgesDistinct := by
  unfold ReferenceGraph.addSatisfied
  apply List.foldlRecOn
  . exact h
  . intro g hg face _
    split
    . exact hg.addImplementation _ _
    . exact hg

end EdgesDistinct

theorem edgesDistinct_withTypes (i : Index) : (withTypes i).EdgesDistinct where
  references := by simp [withTypes_references]
  implementers := by simp [withTypes_implementers]

theorem edgesDistinct_ofIndex (i : Index) : (ofIndex i).EdgesDistinct := by
  rw [ofIndex_eq]
  apply List.foldlRecOn
  . apply List.foldlRecOn
    . exact edgesDistinct_withTypes i
    . intro g hg d _
      exact hg.addMentions _ d
  . intro g hg d _
    exact hg.addSatisfied _ d

/--
Both graphs have the same nodes and edges.
-/
structure Matches (g g' : ReferenceGraph) : Prop where
  nodes : g.nodes.Perm g'.nodes
  references : g.references.Perm g'.references
  implementers : g.implementers.Perm g'.implementers

theorem matches_of_reordered {i j : Index} (h : i.Reordered j) : (ofIndex i).Matches (ofIndex j) where
  nodes := by
    rw [ofIndex_nodes, ofIndex_nodes, funext h.nodeOf_eq]
    exact (eraseDups_perm h.declaredKeys_perm).map _
  references := by
    rw [List.perm_ext_iff_of_nodup (edgesDistinct_ofIndex i).references (edgesDistinct_ofIndex j).references]
    rintro ⟨a, b⟩
    rw [mem_ofIndex_references, mem_ofIndex_references]
    exact h.types_reordered.exists_mem_iff (fun _ _ => h.mentionEdge_iff)
  implementers := by
    rw [List.perm_ext_iff_of_nodup (edgesDistinct_ofIndex i).implementers (edgesDistinct_ofIndex j).implementers]
    rintro ⟨a, b⟩
    rw [mem_ofIndex_implementers, mem_ofIndex_implementers]
    apply or_congr
    . exact h.types_reordered.exists_mem_iff (fun _ _ => h.parentEdge_iff)
    . exact h.types_reordered.exists_mem_iff (fun _ _ => h.satisfiedEdge_iff)

namespace Matches

variable {g g' : ReferenceGraph} (h : g.Matches g')

include h

theorem isReferenced_eq (k : TypeKey) : g.isReferenced k = g'.isReferenced k := by
  unfold isReferenced
  exact h.references.any_eq

theorem referencesOperations_eq (k : TypeKey) : g.referencesOperations k = g'.referencesOperations k := by
  unfold referencesOperations referencesOf
  simp only [h.nodes.any_eq]
  exact ((h.references.filter _).map _).any_eq

theorem candidates_eq (unreferenced : Bool) : g.candidates unreferenced = g'.candidates unreferenced := by
  unfold candidates
  simp only [h.isReferenced_eq, h.referencesOperations_eq]
  apply TypeKey.toSet_eq_of_mem_iff
  intro k
  exact ((h.nodes.filter _).map _).mem_iff

theorem roots_eq : g.roots = g'.roots := by
  have hentries : TypeKey.toSet ((g.nodes.filter (·.entryPoint)).map (·.key))
      = TypeKey.toSet ((g'.nodes.filter (·.entryPoint)).map (·.key)) := by
    apply TypeKey.toSet_eq_of_mem_iff
    intro k
    exact ((h.nodes.filter _).map _).mem_iff
  unfold roots
  rw [hentries, h.candidates_eq, h.candidates_eq]

theorem edge_eq : g.Edge = g'.Edge := by
  funext a b
  unfold Edge
  rw [h.references.mem_iff, h.implementers.mem_iff]

theorem reachable_eq : g.reachable = g'.reachable := by
  have hmem : ∀ k, k ∈ g.reachable ↔ k ∈ g'.reachable := by
    intro k
    rw [mem_reachable, mem_reachable]
    unfold Reaches
    rw [h.roots_eq, h.edge_eq]
  -- both lists are sorted and without repetitions, so they are fixed by their elements
  have hperm := (List.perm_ext_iff_of_nodup (nodup_reachableFrom g g.roots) (nodup_reachableFrom g' g'.roots)).mpr hmem
  refine hperm.eq_of_pairwise ?_ (TypeKey.pairwise_sort _) (TypeKey.pairwise_sort _)
  intro a b _ _
  exact TypeKey.le_antisymm

theorem stats_eq : g.stats = g'.stats := by
  unfold stats
  rw [h.nodes.length_eq, h.references.length_eq, h.implementers.length_eq, h.roots_eq, h.reachable_eq]

end Matches

theorem ofIndex_of_reordered (i j : Index) (h : i.Reordered j) :
    (ofIndex i).roots = (ofIndex j).roots ∧
    (ofIndex i).reachable = (ofIndex j).reachable ∧
    (ofIndex i).stats = (ofIndex j).stats ∧
    ∀ source reference,
      (TypeTable.ofNamespaces i.namespaces).resolve source reference
        = (TypeTable.ofNamespaces j.namespaces).resolve source reference ∧
      (TypeTable.ofNamespaces i.namespaces).resolveParent source reference
        = (TypeTable.ofNamespaces j.namespaces).resolveParent source reference := by
  have hmatches := matches_of_reordered h
  refine ⟨hmatches.roots_eq, hmatches.reachable_eq, hmatches.stats_eq, ?_⟩
  intro source reference
  exact ⟨h.resolve_eq source reference, h.resolve_eq source (Text.parentHead reference)⟩

end ReferenceGraph

namespace Shop

def find : Member := { name := "find", kind := .method, sig := "(id: str) -> models.Item" }

def options : Member := { name := "options", kind := .property, sig := "Options" }

def client : TypeEntry := { name := "Client", kind := .classType, entryPoint := true, members := [find, options] }

def clientOptions : TypeEntry := { name := "Client.Options", kind := .struct }

/--
The second declaration of the client.
-/
def clientAlias : TypeEntry := { name := "Client", kind := .aliasType, aliasOf := some "legacy.Client" }

def models : Namespace := { name := "shop.models", types := [{ name := "Item", kind := .struct }] }

def index : Index where
  package := "shop"
  namespaces := [{ name := "shop", types := [client, clientOptions, clientAlias] }, models]

/--
The namespaces and types of `index` from the last to the first, with the members of the client exchanged.
-/
def reversed : Index where
  package := "shop"
  namespaces := [models,
    { name := "shop", types := [clientAlias, clientOptions, { client with members := [options, find] }] }]

theorem reordered_self (t : TypeEntry) : t.Reordered t :=
  ⟨t.members, .refl _, rfl⟩

theorem index_reordered : index.Reordered reversed := by
  have htypes : ReorderedBy TypeEntry.Reordered [client, clientOptions, clientAlias]
      [clientAlias, clientOptions, { client with members := [options, find] }] :=
    ⟨_, (List.reverse_perm _).symm, .cons (reordered_self _) (.cons (reordered_self _)
      (.cons ⟨[options, find], .swap _ _ _, rfl⟩ .nil))⟩
  have hmodels : models.Reordered models :=
    ⟨models.types, ⟨_, .refl _, .cons (reordered_self _) .nil⟩, rfl⟩
  exact ⟨_, ⟨_, (List.reverse_perm _).symm, .cons hmodels (.cons ⟨_, htypes, rfl⟩ .nil)⟩, rfl⟩

theorem reversed_roots_and_names :
    index.Reordered reversed ∧
    (ReferenceGraph.ofIndex reversed).roots = [⟨"shop", "Client"⟩] ∧
    (TypeTable.ofNamespaces reversed.namespaces).resolve ⟨"shop", "Client"⟩ "Options" = [⟨"shop", "Client.Options"⟩] ∧
    (TypeTable.ofNamespaces reversed.namespaces).resolve ⟨"shop", "Client"⟩ "models.Item"
      = [⟨"shop.models", "Item"⟩] := by
  obtain ⟨hroots, -, -, hresolve⟩ := ReferenceGraph.ofIndex_of_reordered index reversed index_reordered
  refine ⟨index_reordered, ?_, ?_, ?_⟩
  . rw [← hroots]
    decide +kernel
  . rw [← (hresolve _ _).1]
    decide +kernel
  . rw [← (hresolve _ _).1]
    decide +kernel

end Shop

end ApiSurface
