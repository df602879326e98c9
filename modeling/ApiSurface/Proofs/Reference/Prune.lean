import ApiSurface.Proofs.Lists
import ApiSurface.Proofs.Reference.Edges
import ApiSurface.Proofs.Reference.Restriction
import ApiSurface.Reference.Prune

/-!
This module contains the theory of pruning. What is reachable is closed under mentions, so no name that a kept
type mentions loses a type it stands for; and every path between kept types is still there afterwards, so a
second pruning finds nothing to remove.
-/

namespace ApiSurface

open Text

theorem ofNamespaces_keys (i : Index) : (TypeTable.ofNamespaces i.namespaces).keys = i.types.map declaredKey := by
  unfold TypeTable.ofNamespaces Index.types
  rw [List.map_flatMap]
  simp [declaredKey, Function.comp_def]

namespace Index

theorem types_restrict (i : Index) (kept : List TypeKey) :
    (i.restrict kept).types = i.types.filter (fun d => kept.contains (declaredKey d)) := by
  unfold restrict types
  dsimp only
  rw [flatMap_filter_of_nil]
  . rw [List.flatMap_map, List.filter_flatMap]
    congr 1
    funext ns
    rw [List.filter_map]
    rfl
  . intro ns _ hempty
    simp only [Namespace.isEmpty, Bool.not_eq_false', Bool.and_eq_true, List.isEmpty_iff] at hempty
    simp [hempty.1]

theorem mem_types_restrict {i : Index} {kept : List TypeKey} {d : String × TypeEntry} :
    d ∈ (i.restrict kept).types ↔ d ∈ i.types ∧ declaredKey d ∈ kept := by
  simp [types_restrict]

theorem restricts_restrict (i : Index) (kept : List TypeKey) :
    TypeTable.Restricts (fun k => kept.contains k) (TypeTable.ofNamespaces i.namespaces)
      (TypeTable.ofNamespaces (i.restrict kept).namespaces) where
  wellFormed := TypeTable.wellFormed_ofNamespaces _
  small_wellFormed := TypeTable.wellFormed_ofNamespaces _
  keys_perm := by
    rw [ofNamespaces_keys, ofNamespaces_keys, types_restrict, List.filter_map]
    rfl

theorem restrict_eq_self {i : Index} {kept : List TypeKey} (hnonempty : ∀ ns ∈ i.namespaces, ns.isEmpty = false)
    (hkept : ∀ d ∈ i.types, declaredKey d ∈ kept) : i.restrict kept = i := by
  have hmap : ∀ ns ∈ i.namespaces,
      { ns with types := ns.types.filter (fun t => kept.contains ⟨ns.name, t.name⟩) } = ns := by
    intro ns hns
    have hall : ns.types.filter (fun t => kept.contains ⟨ns.name, t.name⟩) = ns.types := by
      rw [List.filter_eq_self]
      intro t ht
      rw [List.contains_iff_mem]
      apply hkept (ns.name, t)
      simp only [types, List.mem_flatMap, List.mem_map]
      exact ⟨ns, hns, t, ht, rfl⟩
    rw [hall]
  have hnamespaces : (i.namespaces.map fun ns =>
      { ns with types := ns.types.filter (fun t => kept.contains ⟨ns.name, t.name⟩) }) = i.namespaces := by
    rw [List.map_congr_left hmap, List.map_id']
  have hfilter : i.namespaces.filter (fun ns => !ns.isEmpty) = i.namespaces := by
    rw [List.filter_eq_self]
    intro ns hns
    simp [hnonempty ns hns]
  unfold restrict
  rw [hnamespaces]
  dsimp only
  rw [hfilter]

theorem restrict_nonempty (i : Index) (kept : List TypeKey) :
    ∀ ns ∈ (i.restrict kept).namespaces, ns.isEmpty = false := by
  intro ns hns
  simp only [restrict, List.mem_filter] at hns
  simpa using hns.2

theorem prune_eq (i : Index) : i.prune = i.restrict (ReferenceGraph.ofIndex i).reachable := by
  rfl

theorem mem_types_prune {i : Index} {d : String × TypeEntry} :
    d ∈ i.prune.types ↔ d ∈ i.types ∧ declaredKey d ∈ (ReferenceGraph.ofIndex i).reachable := by
  rw [prune_eq, mem_types_restrict]

end Index

namespace ReferenceGraph

theorem mem_mentionedTypes {table : TypeTable} {a b : TypeKey} {t : TypeEntry} :
    b ∈ mentionedTypes table a t ↔ b ≠ a ∧ ∃ text ∈ mentions t, ∃ d ∈ dottedNames text, b ∈ table.resolve a d := by
  simp only [mentionedTypes, List.mem_filter, List.mem_flatMap, List.mem_eraseDups, bne_iff_ne]
  grind

theorem mem_parentTypes {table : TypeTable} {a b : TypeKey} {t : TypeEntry} :
    a ∈ parentTypes table b t ↔ ∃ parent ∈ t.parents, a ∈ table.resolve b (parentHead parent) := by
  simp only [parentTypes, List.mem_flatMap]
  rfl

theorem edge_restrict {i : Index} {kept : List TypeKey} {a b : TypeKey} (ha : a ∈ kept) (hb : b ∈ kept)
    (hedge : (ofIndex i).Edge a b) : (ofIndex (i.restrict kept)).Edge a b := by
  -- a name whose meaning is gone may get another one and so lead to new edges, but no edge between kept types
  -- is lost: its target is part of the old answer, and it is still there
  have htable := i.restricts_restrict kept
  rw [edge_ofIndex_iff] at hedge ⊢
  rcases hedge with ⟨d, hd, rfl, hmention⟩ | ⟨d, hd, rfl, hparent⟩ | ⟨d, hd, rfl, face, hface, rfl, hsatisfies⟩
  . refine Or.inl ⟨d, Index.mem_types_restrict.mpr ⟨hd, ha⟩, rfl, ?_⟩
    rw [mem_mentionedTypes] at hmention ⊢
    obtain ⟨hne, text, htext, name, hname, hresolve⟩ := hmention
    exact ⟨hne, text, htext, name, hname, htable.mem_resolve hresolve (List.contains_iff_mem.mpr hb)⟩
  . refine Or.inr (Or.inl ⟨d, Index.mem_types_restrict.mpr ⟨hd, hb⟩, rfl, ?_⟩)
    rw [mem_parentTypes] at hparent ⊢
    obtain ⟨parent, hmem, hresolve⟩ := hparent
    exact ⟨parent, hmem, htable.mem_resolve hresolve (List.contains_iff_mem.mpr ha)⟩
  . refine Or.inr (Or.inr ⟨d, Index.mem_types_restrict.mpr ⟨hd, hb⟩, rfl, ?_⟩)
    exact ⟨face, Index.mem_types_restrict.mpr ⟨hface, ha⟩, rfl, hsatisfies⟩

theorem reaches_restrict {i : Index} {kept : List TypeKey} {start : List TypeKey} {k : TypeKey}
    (hkept : ∀ n, (ofIndex i).Reaches start n → n ∈ kept) (h : (ofIndex i).Reaches start k) :
    (ofIndex (i.restrict kept)).Reaches start k := by
  obtain ⟨r, hr, hpath⟩ := h
  refine ⟨r, hr, ?_⟩
  induction hpath with
  | refl => exact Relation.ReflTransGen.refl
  | tail hpath hedge ih =>
    have ha := hkept _ ⟨r, hr, hpath⟩
    have hb := hkept _ ⟨r, hr, hpath.tail hedge⟩
    exact ih.tail (edge_restrict ha hb hedge)

theorem mem_roots_prune {i : Index} (hentry : ∃ d ∈ i.types, d.2.entryPoint = true) {r : TypeKey}
    (hr : r ∈ (ofIndex i).roots) : r ∈ (ofIndex i.prune).roots := by
  have hkept : ∀ d ∈ i.types, d.2.entryPoint = true → d ∈ i.prune.types := by
    intro d hd hflag
    have hroot := (mem_roots_of_entry hentry).mpr ⟨d, hd, rfl, hflag⟩
    exact Index.mem_types_prune.mpr ⟨hd, mem_reachable.mpr (Reaches.of_mem hroot)⟩
  have hentry' : ∃ d ∈ i.prune.types, d.2.entryPoint = true := by
    obtain ⟨d, hd, hflag⟩ := hentry
    exact ⟨d, hkept d hd hflag, hflag⟩
  obtain ⟨d, hd, rfl, hflag⟩ := (mem_roots_of_entry hentry).mp hr
  exact (mem_roots_of_entry hentry').mpr ⟨d, hkept d hd hflag, rfl, hflag⟩

theorem reachable_prune_of_roots {i : Index} (hroots : ∀ r ∈ (ofIndex i).roots, r ∈ (ofIndex i.prune).roots)
    {k : TypeKey} (hk : k ∈ (ofIndex i).reachable) : k ∈ (ofIndex i.prune).reachable := by
  rw [mem_reachable] at hk ⊢
  have hreach : (ofIndex i.prune).Reaches (ofIndex i).roots k := by
    apply reaches_restrict
    . intro n hn
      exact mem_reachable.mpr hn
    . exact hk
  obtain ⟨r, hr, hpath⟩ := hreach
  exact ⟨r, hroots r hr, hpath⟩

theorem reachable_prune {i : Index} (hentry : ∃ d ∈ i.types, d.2.entryPoint = true) {k : TypeKey}
    (hk : k ∈ (ofIndex i).reachable) : k ∈ (ofIndex i.prune).reachable := by
  apply reachable_prune_of_roots _ hk
  intro r hr
  exact mem_roots_prune hentry hr

end ReferenceGraph

/--
The texts of a type in which it can mention others.
-/
inductive TypeEntry.HasText (t : TypeEntry) : String → Prop where
  | base : t.base = some text → HasText t text
  | interface : text ∈ t.interfaces → HasText t text
  | aliasOf : t.aliasOf = some text → HasText t text
  | signature : m ∈ t.members → HasText t m.sig
  | param : m ∈ t.members → p ∈ m.params → HasText t p.type
  | result : m ∈ t.members → r ∈ m.results → HasText t r.type
  | ret : m ∈ t.members → m.ret = some text → HasText t text

theorem TypeEntry.HasText.mem_mentions {t : TypeEntry} {text : String} (h : t.HasText text) :
    text ∈ ReferenceGraph.mentions t := by
  simp only [ReferenceGraph.mentions, TypeEntry.parents, Member.typeTexts, List.mem_append, List.mem_flatMap,
    List.mem_cons, List.mem_map, Option.mem_toList]
  cases h with
  | base h => exact Or.inl (Or.inl (Or.inl h))
  | interface h => exact Or.inl (Or.inl (Or.inr h))
  | aliasOf h => exact Or.inl (Or.inr h)
  | signature hm => exact Or.inr ⟨_, hm, Or.inl rfl⟩
  | param hm hp => exact Or.inr ⟨_, hm, Or.inr (Or.inl (Or.inl ⟨_, hp, rfl⟩))⟩
  | result hm hr => exact Or.inr ⟨_, hm, Or.inr (Or.inl (Or.inr ⟨_, hr, rfl⟩))⟩
  | ret hm h => exact Or.inr ⟨_, hm, Or.inr (Or.inr h)⟩

namespace Index

theorem mem_reachable_of_mem_resolve {i : Index} {d : String × TypeEntry} {text name : String} {k : TypeKey}
    (hd : d ∈ i.prune.types) (htext : d.2.HasText text) (hname : name ∈ dottedNames text)
    (hk : k ∈ (TypeTable.ofNamespaces i.namespaces).resolve (declaredKey d) name) :
    k ∈ (ReferenceGraph.ofIndex i).reachable := by
  rw [mem_types_prune] at hd
  by_cases heq : k = declaredKey d
  . rw [heq]
    exact hd.2
  . apply ReferenceGraph.reachable_closed hd.2
    rw [ReferenceGraph.edge_ofIndex_iff]
    refine Or.inl ⟨d, hd.1, rfl, ?_⟩
    rw [ReferenceGraph.mem_mentionedTypes]
    exact ⟨heq, text, htext.mem_mentions, name, hname, hk⟩

theorem resolve_prune (i : Index) (ns : String) (t : TypeEntry) (text name : String) (ht : (ns, t) ∈ i.prune.types)
    (htext : t.HasText text) (hname : name ∈ dottedNames text) :
    (TypeTable.ofNamespaces i.prune.namespaces).resolve ⟨ns, t.name⟩ name
      = (TypeTable.ofNamespaces i.namespaces).resolve ⟨ns, t.name⟩ name ∧
    ∀ k ∈ (TypeTable.ofNamespaces i.namespaces).resolve ⟨ns, t.name⟩ name,
      ∃ t', (k.namespace, t') ∈ i.prune.types ∧ t'.name = k.name := by
  have hkept : ∀ k ∈ (TypeTable.ofNamespaces i.namespaces).resolve ⟨ns, t.name⟩ name,
      k ∈ (ReferenceGraph.ofIndex i).reachable := by
    intro k hk
    exact mem_reachable_of_mem_resolve ht htext hname hk
  constructor
  . apply (i.restricts_restrict _).resolve_eq_self
    intro k hk
    exact List.contains_iff_mem.mpr (hkept k hk)
  . intro k hk
    have hdeclared := TypeTable.mem_keys_of_mem_resolveName (TypeTable.wellFormed_ofNamespaces _) hk
    rw [ofNamespaces_keys, List.mem_map] at hdeclared
    obtain ⟨d, hd, rfl⟩ := hdeclared
    exact ⟨d.2, mem_types_prune.mpr ⟨hd, hkept _ hk⟩, rfl⟩

/--
The operation of `storeClient`.
-/
def storeLoad : Member where
  name := "load"
  kind := .method
  sig := "(id: str) -> models.Item"

/--
The entry point of `storeIndex`.
-/
def storeClient : TypeEntry where
  name := "Client"
  kind := .classType
  entryPoint := true
  members := [storeLoad]

/--
An index with an entry point, a type that it mentions, one that extends this type, and one that nothing reaches.
-/
def storeIndex : Index where
  package := "store"
  namespaces := [
    { name := "store", types := [storeClient, { name := "Extra", kind := .classType, base := some "Item" }] },
    { name := "store.models", types := [{ name := "Item", kind := .struct }] },
    { name := "legacy", types := [{ name := "Client.models.Item", kind := .struct }] }]

theorem storeIndex_entry : ∃ d ∈ storeIndex.types, d.2.entryPoint = true := by
  refine ⟨("store", storeClient), ?_, rfl⟩
  decide +kernel

theorem storeIndex_client_kept : ("store", storeClient) ∈ storeIndex.prune.types := by
  have hmem : ("store", storeClient) ∈ storeIndex.types := by decide +kernel
  have hroot := (ReferenceGraph.mem_roots_of_entry storeIndex_entry).mpr ⟨_, hmem, rfl, rfl⟩
  rw [mem_types_prune, ReferenceGraph.mem_reachable]
  exact ⟨hmem, ReferenceGraph.Reaches.of_mem hroot⟩

theorem storeIndex_resolve_prune :
    (TypeTable.ofNamespaces storeIndex.prune.namespaces).resolve ⟨"store", "Client"⟩ "models.Item"
      =
    [⟨"store.models", "Item"⟩] := by
  have htext : storeClient.HasText storeLoad.sig := .signature List.mem_cons_self
  have hname : "models.Item" ∈ dottedNames storeLoad.sig := by decide +kernel
  have hresolve := (resolve_prune storeIndex "store" storeClient _ _ storeIndex_client_kept htext hname).1
  have hbefore : (TypeTable.ofNamespaces storeIndex.namespaces).resolve ⟨"store", "Client"⟩ "models.Item"
      = [⟨"store.models", "Item"⟩] := by decide +kernel
  exact hresolve.trans hbefore

theorem prune_prune (i : Index) (hentry : ∃ d ∈ i.types, d.2.entryPoint = true) : i.prune.prune = i.prune := by
  rw [prune_eq i.prune]
  apply restrict_eq_self
  . apply restrict_nonempty
  . intro d hd
    rw [mem_types_prune] at hd
    exact ReferenceGraph.reachable_prune hentry hd.2

theorem storeIndex_prune_prune : storeIndex.prune.prune = storeIndex.prune := by
  exact prune_prune storeIndex storeIndex_entry

end Index

end ApiSurface
