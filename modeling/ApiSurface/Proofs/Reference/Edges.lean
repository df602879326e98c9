import Mathlib.Data.List.Induction
import ApiSurface.Proofs.Reference.Reachability

/-!
This module contains what the graph of an index consists of: one node for every declared key, with what any of
its declarations says of it, and an edge for every mention, every parent and every satisfied interface.
-/

namespace ApiSurface

/--
The key of a declaration.
-/
def declaredKey (d : String × TypeEntry) : TypeKey :=
  ⟨d.1, d.2.name⟩

theorem foldl_iff_of_step (P : γ → Prop) (Q : δ → Prop) {f : γ → δ → γ} (hstep : ∀ g x, P (f g x) ↔ P g ∨ Q x)
    (xs : List δ) (g : γ) : P (xs.foldl f g) ↔ P g ∨ ∃ x ∈ xs, Q x := by
  induction xs generalizing g with
  | nil => simp
  | cons x xs ih =>
    rw [List.foldl_cons, ih, hstep, List.exists_mem_cons_iff, or_assoc]

theorem foldl_eq_of_step (p : γ → ε) {f : γ → δ → γ} (hstep : ∀ g x, p (f g x) = p g) (xs : List δ) (g : γ) :
    p (xs.foldl f g) = p g := by
  induction xs generalizing g with
  | nil => rfl
  | cons x xs ih => rw [List.foldl_cons, ih, hstep]

namespace ReferenceGraph

/--
The graph with the nodes of an index and no edges yet.
-/
def withTypes (i : Index) : ReferenceGraph :=
  i.types.foldl (fun g (ns, t) => g.addType ns t) {}

/--
The graph with the edges that the texts of one declaration give.
-/
def addMentions (table : TypeTable) (g : ReferenceGraph) (d : String × TypeEntry) : ReferenceGraph :=
  (parentTypes table (declaredKey d) d.2).foldl (fun g parent => g.addImplementation parent (declaredKey d))
    ((mentionedTypes table (declaredKey d) d.2).foldl (fun g target => g.addReference (declaredKey d) target) g)

/--
The graph with the edges from the interfaces that one declaration satisfies.
-/
def addSatisfied (types : List (String × TypeEntry)) (g : ReferenceGraph) (d : String × TypeEntry) :
    ReferenceGraph :=
  types.foldl (fun g face =>
    if satisfies d.2 face.2 then g.addImplementation (declaredKey face) (declaredKey d) else g) g

theorem ofIndex_eq (i : Index) :
    ofIndex i
      =
    i.types.foldl (addSatisfied i.types)
      (i.types.foldl (addMentions (TypeTable.ofNamespaces i.namespaces)) (withTypes i)) := by
  rfl

/--
A declaration of `a` mentions `b`.
-/
def MentionEdge (table : TypeTable) (a b : TypeKey) (d : String × TypeEntry) : Prop :=
  declaredKey d = a ∧ b ∈ mentionedTypes table a d.2

/--
A declaration of `b` names `a` as a parent.
-/
def ParentEdge (table : TypeTable) (a b : TypeKey) (d : String × TypeEntry) : Prop :=
  declaredKey d = b ∧ a ∈ parentTypes table b d.2

/--
A declaration of `b` has all operations of a declaration of the interface `a`.
-/
def SatisfiedEdge (types : List (String × TypeEntry)) (a b : TypeKey) (d : String × TypeEntry) : Prop :=
  declaredKey d = b ∧ ∃ face ∈ types, declaredKey face = a ∧ satisfies d.2 face.2 = true

section OneDeclaration

variable (table : TypeTable) (types : List (String × TypeEntry)) (g : ReferenceGraph) (d : String × TypeEntry)

theorem addType_references (ns : String) (t : TypeEntry) : (g.addType ns t).references = g.references := by
  unfold addType
  dsimp only
  split <;> rfl

theorem addType_implementers (ns : String) (t : TypeEntry) : (g.addType ns t).implementers = g.implementers := by
  unfold addType
  dsimp only
  split <;> rfl

theorem addMentions_nodes : (addMentions table g d).nodes = g.nodes := by
  unfold addMentions
  rw [foldl_eq_of_step nodes, foldl_eq_of_step nodes]
  all_goals
    intros
    rfl

theorem addSatisfied_nodes : (addSatisfied types g d).nodes = g.nodes := by
  unfold addSatisfied
  apply foldl_eq_of_step nodes
  intro g face
  split <;> rfl

theorem addSatisfied_references : (addSatisfied types g d).references = g.references := by
  unfold addSatisfied
  apply foldl_eq_of_step references
  intro g face
  split <;> rfl

theorem mem_addMentions_references {a b : TypeKey} :
    (a, b) ∈ (addMentions table g d).references ↔ (a, b) ∈ g.references ∨ MentionEdge table a b d := by
  unfold addMentions MentionEdge
  rw [foldl_eq_of_step references]
  . rw [foldl_iff_of_step (fun g : ReferenceGraph => (a, b) ∈ g.references)
      (fun target => declaredKey d = a ∧ target = b)]
    . grind
    . intro g target
      simp only [addReference, List.mem_insert_iff, Prod.mk.injEq]
      grind
  . intros
    rfl

theorem mem_addMentions_implementers {a b : TypeKey} :
    (a, b) ∈ (addMentions table g d).implementers ↔ (a, b) ∈ g.implementers ∨ ParentEdge table a b d := by
  unfold addMentions ParentEdge
  rw [foldl_iff_of_step (fun g : ReferenceGraph => (a, b) ∈ g.implementers)
    (fun parent => declaredKey d = b ∧ parent = a)]
  . rw [foldl_eq_of_step implementers]
    . grind
    . intros
      rfl
  . intro g parent
    simp only [addImplementation, List.mem_insert_iff, Prod.mk.injEq]
    grind

theorem mem_addSatisfied_implementers {a b : TypeKey} :
    (a, b) ∈ (addSatisfied types g d).implementers ↔ (a, b) ∈ g.implementers ∨ SatisfiedEdge types a b d := by
  unfold addSatisfied SatisfiedEdge
  rw [foldl_iff_of_step (fun g : ReferenceGraph => (a, b) ∈ g.implementers)
    (fun face => declaredKey d = b ∧ declaredKey face = a ∧ satisfies d.2 face.2 = true)]
  . grind
  . intro g face
    split
    . simp only [addImplementation, List.mem_insert_iff, Prod.mk.injEq]
      grind
    . simp_all

end OneDeclaration

theorem withTypes_references (i : Index) : (withTypes i).references = [] := by
  unfold withTypes
  apply foldl_eq_of_step references
  intro g d
  apply addType_references

theorem withTypes_implementers (i : Index) : (withTypes i).implementers = [] := by
  unfold withTypes
  apply foldl_eq_of_step implementers
  intro g d
  apply addType_implementers

theorem mem_ofIndex_references {i : Index} {a b : TypeKey} :
    (a, b) ∈ (ofIndex i).references ↔ ∃ d ∈ i.types, MentionEdge (TypeTable.ofNamespaces i.namespaces) a b d := by
  rw [ofIndex_eq, foldl_eq_of_step references]
  . rw [foldl_iff_of_step (fun g : ReferenceGraph => (a, b) ∈ g.references)
      (MentionEdge (TypeTable.ofNamespaces i.namespaces) a b)]
    . simp [withTypes_references]
    . intro g d
      apply mem_addMentions_references
  . apply addSatisfied_references

theorem mem_ofIndex_implementers {i : Index} {a b : TypeKey} :
    (a, b) ∈ (ofIndex i).implementers
      ↔
    (∃ d ∈ i.types, ParentEdge (TypeTable.ofNamespaces i.namespaces) a b d) ∨
    (∃ d ∈ i.types, SatisfiedEdge i.types a b d) := by
  rw [ofIndex_eq, foldl_iff_of_step (fun g : ReferenceGraph => (a, b) ∈ g.implementers)
    (SatisfiedEdge i.types a b)]
  . rw [foldl_iff_of_step (fun g : ReferenceGraph => (a, b) ∈ g.implementers)
      (ParentEdge (TypeTable.ofNamespaces i.namespaces) a b)]
    . simp [withTypes_implementers]
    . intro g d
      apply mem_addMentions_implementers
  . intro g d
    apply mem_addSatisfied_implementers

theorem edge_ofIndex_iff {i : Index} {a b : TypeKey} :
    (ofIndex i).Edge a b
      ↔
    (∃ d ∈ i.types, MentionEdge (TypeTable.ofNamespaces i.namespaces) a b d) ∨
    (∃ d ∈ i.types, ParentEdge (TypeTable.ofNamespaces i.namespaces) a b d) ∨
    (∃ d ∈ i.types, SatisfiedEdge i.types a b d) := by
  unfold Edge
  rw [mem_ofIndex_references, mem_ofIndex_implementers]

/--
What the declarations of a key say of it together.
-/
def nodeOf (types : List (String × TypeEntry)) (k : TypeKey) : TypeNode where
  key := k
  entryPoint := types.any (fun d => declaredKey d == k && d.2.entryPoint)
  hasOperations := types.any (fun d => declaredKey d == k && d.2.hasCallables)
  rootKind := types.any (fun d => declaredKey d == k && d.2.kind.isRoot)

theorem nodeOf_append (types : List (String × TypeEntry)) (d : String × TypeEntry) (k : TypeKey) :
    nodeOf (types ++ [d]) k
      =
    if k == declaredKey d then
      { nodeOf types k with
        entryPoint := (nodeOf types k).entryPoint || d.2.entryPoint
        hasOperations := (nodeOf types k).hasOperations || d.2.hasCallables
        rootKind := (nodeOf types k).rootKind || d.2.kind.isRoot }
    else nodeOf types k := by
  by_cases h : k = declaredKey d
  . simp [nodeOf, h]
  . have hne : (declaredKey d == k) = false := by simpa using Ne.symm h
    simp [nodeOf, hne, h]

theorem nodeOf_nil_of_not_mem {types : List (String × TypeEntry)} {k : TypeKey}
    (h : k ∉ types.map declaredKey) : nodeOf types k = ⟨k, false, false, false⟩ := by
  have hnone : ∀ d ∈ types, (declaredKey d == k) = false := by
    intro d hd
    rw [beq_eq_false_iff_ne]
    intro heq
    exact h (heq ▸ List.mem_map_of_mem hd)
  simp only [nodeOf, TypeNode.mk.injEq, true_and, List.any_eq_false]
  refine ⟨?_, ?_, ?_⟩
  all_goals
    intro d hd
    simp [hnone d hd]

theorem addType_nodes {g : ReferenceGraph} {types : List (String × TypeEntry)} (d : String × TypeEntry)
    (h : g.nodes = (types.map declaredKey).eraseDups.map (nodeOf types)) :
    (g.addType d.1 d.2).nodes = ((types ++ [d]).map declaredKey).eraseDups.map (nodeOf (types ++ [d])) := by
  have hany : g.nodes.any (fun n => n.key == declaredKey d) = true ↔ declaredKey d ∈ types.map declaredKey := by
    rw [h, List.any_map, List.any_eq_true]
    simp only [Function.comp_apply, nodeOf, List.mem_eraseDups, beq_iff_eq, exists_eq_right]
  change (if g.nodes.any (fun n => n.key == declaredKey d) then _ else _ : ReferenceGraph).nodes = _
  rw [List.map_append, List.map_singleton]
  by_cases hmem : declaredKey d ∈ types.map declaredKey
  . -- the key is known: its node takes in what the declaration says of it, and no node is added
    rw [if_pos (hany.mpr hmem), Distinct.eraseDups_append_of_mem hmem]
    dsimp only
    rw [h, List.map_map]
    apply List.map_congr_left
    intro k _
    rw [nodeOf_append]
    rfl
  . rw [if_neg (mt hany.mp hmem), Distinct.eraseDups_append_of_not_mem hmem]
    dsimp only
    rw [h, List.map_append, List.map_singleton]
    congr 1
    . apply List.map_congr_left
      intro k hk
      rw [nodeOf_append, if_neg]
      rw [beq_iff_eq]
      intro heq
      exact hmem (heq ▸ List.mem_eraseDups.mp hk)
    . rw [nodeOf_append, nodeOf_nil_of_not_mem hmem]
      simp [declaredKey]

theorem withTypes_nodes (i : Index) :
    (withTypes i).nodes = (i.types.map declaredKey).eraseDups.map (nodeOf i.types) := by
  unfold withTypes
  induction i.types using List.reverseRecOn with
  | nil => rfl
  | append_singleton types d ih =>
    rw [List.foldl_append, List.foldl_cons, List.foldl_nil]
    apply addType_nodes d ih

theorem ofIndex_nodes (i : Index) :
    (ofIndex i).nodes = (i.types.map declaredKey).eraseDups.map (nodeOf i.types) := by
  rw [ofIndex_eq, foldl_eq_of_step nodes, foldl_eq_of_step nodes, withTypes_nodes]
  . apply addMentions_nodes
  . apply addSatisfied_nodes

theorem mem_entries_iff {i : Index} {k : TypeKey} :
    k ∈ ((ofIndex i).nodes.filter (·.entryPoint)).map (·.key)
      ↔
    ∃ d ∈ i.types, declaredKey d = k ∧ d.2.entryPoint = true := by
  rw [ofIndex_nodes]
  simp only [List.mem_map, List.mem_filter, List.mem_eraseDups]
  constructor
  . rintro ⟨n, ⟨⟨_, _, rfl⟩, hentry⟩, rfl⟩
    simpa [nodeOf] using hentry
  . rintro ⟨d, hd, rfl, hentry⟩
    refine ⟨nodeOf i.types (declaredKey d), ⟨⟨_, ⟨d, hd, rfl⟩, rfl⟩, ?_⟩, rfl⟩
    simp only [nodeOf, List.any_eq_true]
    exact ⟨d, hd, by simp [hentry]⟩

theorem mem_roots_of_entry {i : Index} (hentry : ∃ d ∈ i.types, d.2.entryPoint = true) {k : TypeKey} :
    k ∈ (ofIndex i).roots ↔ ∃ d ∈ i.types, declaredKey d = k ∧ d.2.entryPoint = true := by
  rw [← mem_entries_iff]
  unfold roots
  split
  . next hcons => rw [← hcons, TypeKey.mem_toSet]
  . next hnil =>
    obtain ⟨d, hd, hflag⟩ := hentry
    have hmem := TypeKey.mem_toSet.mpr (mem_entries_iff.mpr ⟨d, hd, rfl, hflag⟩)
    rw [hnil] at hmem
    simp at hmem

end ReferenceGraph

end ApiSurface
