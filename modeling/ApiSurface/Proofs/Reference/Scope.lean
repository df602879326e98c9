import ApiSurface.Proofs.Reference.Frame

/-!
This module contains what can be relied on in an answer of a name lookup: it is in order, it stays inside the declared
types and inside the innermost name that was looked for, and a plain name means the type that is nested closest to
where it is written. So the graph of an index has no edge to or from a type that is not declared.
-/

namespace ApiSurface

open Text

/--
One of the namespaces declares a type of this key.
-/
def DeclaredIn (nss : List Namespace) (k : TypeKey) : Prop :=
  ∃ ns ∈ nss, ns.name = k.namespace ∧ ∃ t ∈ ns.types, t.name = k.name

/--
The type `scope` is the type `name`, or one around it.
-/
def Encloses (scope name : String) : Prop :=
  name = scope ∨ ∃ inner, name = scope ++ "." ++ inner

/--
In `scope`, which is the referring type or one around it, a type of the name `reference` is declared.
-/
structure NestedIn (nss : List Namespace) (source : TypeKey) (reference scope : String) : Prop where
  encloses : Encloses scope source.name
  declared : DeclaredIn nss ⟨source.namespace, scope ++ "." ++ reference⟩

/--
Of the types in which a type of the name `reference` is declared, `scope` is the one around which all others are.
-/
structure InnermostIn (nss : List Namespace) (source : TypeKey) (reference scope : String) : Prop
    extends NestedIn nss source reference scope where
  innermost : ∀ outer, NestedIn nss source reference outer → Encloses outer scope

namespace TypeTable

variable {t : TypeTable} {nss : List Namespace} {source : TypeKey} {reference scope : String}

theorem mem_keys_ofNamespaces {k : TypeKey} : k ∈ (ofNamespaces nss).keys ↔ DeclaredIn nss k := by
  simp only [ofNamespaces, DeclaredIn, List.mem_flatMap, List.mem_map]
  constructor
  . rintro ⟨ns, hns, t, ht, rfl⟩
    exact ⟨ns, hns, rfl, t, ht, rfl⟩
  . rintro ⟨ns, hns, hname, t, ht, htype⟩
    exact ⟨ns, hns, t, ht, by rw [hname, htype]⟩

theorem contains_ofNamespaces_iff {k : TypeKey} : (ofNamespaces nss).contains k = true ↔ DeclaredIn nss k := by
  rw [contains_iff_mem, mem_keys_ofNamespaces]

theorem declares_iff_declaredIn {i : Index} {k : TypeKey} : i.Declares k ↔ DeclaredIn i.namespaces k := by
  rw [Index.Declares, ← ofNamespaces_keys, mem_keys_ofNamespaces]

theorem mem_scopes {name : String} : scope ∈ scopes name ↔ Encloses scope name := by
  unfold scopes Encloses
  rw [List.mem_cons, List.mem_map, eq_comm]
  simp only [Prod.exists, mem_qualifierSplits, exists_and_right, exists_eq_right]

theorem pairwise_scopes (name : String) : (scopes name).Pairwise (fun inner outer => Encloses outer inner) := by
  unfold scopes
  rw [List.pairwise_cons]
  constructor
  . intro outer houter
    exact mem_scopes.mp (List.mem_cons_of_mem name houter)
  . rw [List.pairwise_map]
    exact (pairwise_qualifierSplits name).imp Or.inr

section Sorted

theorem pairwise_declared (k : TypeKey) : (t.declared k).Pairwise (fun a b => a.le b = true) := by
  unfold declared
  split <;> simp

theorem pairwise_of_mem_stages {found : List TypeKey} (hfound : found ∈ t.stages source reference) :
    found.Pairwise (fun a b => a.le b = true) := by
  simp only [stages, List.mem_append, List.mem_map, List.mem_cons, List.not_mem_nil, or_false] at hfound
  rcases hfound with (⟨_, _, rfl⟩ | ⟨_, _, rfl⟩) | rfl | rfl
  . apply TypeKey.pairwise_sort
  . apply pairwise_declared
  . apply pairwise_declared
  . apply TypeKey.pairwise_sort

theorem pairwise_of_mem_nestedStages {found : List TypeKey} (hfound : found ∈ t.nestedStages source reference) :
    found.Pairwise (fun a b => a.le b = true) := by
  simp only [nestedStages, List.mem_cons, List.not_mem_nil, or_false] at hfound
  rcases hfound with rfl | rfl
  all_goals apply TypeKey.pairwise_sort

theorem pairwise_firstFound {stages : List (List TypeKey)}
    (h : ∀ found ∈ stages, found.Pairwise (fun a b => a.le b = true)) :
    (firstFound stages).Pairwise (fun a b => a.le b = true) := by
  cases firstFound_eq_nil_or_mem stages with
  | inl hnil => simp [hnil]
  | inr hmem => exact h _ hmem

theorem pairwise_resolveName (t : TypeTable) (source : TypeKey) (name : String) :
    (t.resolveName source name).Pairwise (fun a b => a.le b = true) := by
  fun_induction t.resolveName source name with
  | case1 => simp
  | case2 name _ first found hwhole =>
    rw [← hwhole, resolveWhole_eq_firstFound]
    exact pairwise_firstFound fun _ => pairwise_of_mem_stages
  | case3 =>
    rw [nestedNamed_eq_firstFound]
    exact pairwise_firstFound fun _ => pairwise_of_mem_nestedStages
  | case4 name _ _ q rest hdot _ ih => exact ih

end Sorted

section Precedence

theorem enclosed_of_nestedIn (h : NestedIn nss source reference scope) :
    ∃ inner, InnermostIn nss source reference inner ∧
      (ofNamespaces nss).enclosed source reference = some ⟨source.namespace, inner ++ "." ++ reference⟩ := by
  have hsome : ((ofNamespaces nss).enclosed source reference).isSome = true := by
    unfold enclosed
    rw [List.findSome?_isSome_iff]
    exact ⟨scope, mem_scopes.mpr h.encloses, by simp [contains_ofNamespaces_iff.mpr h.declared]⟩
  obtain ⟨k, hk⟩ := Option.isSome_iff_exists.mp hsome
  -- the scopes before the one that is found declare nothing of the name, and those behind it are around it
  obtain ⟨before, inner, behind, hscopes, hinner, hbefore⟩ := List.findSome?_eq_some_iff.mp hk
  have hpairwise := pairwise_scopes source.name
  rw [hscopes, List.pairwise_append, List.pairwise_cons] at hpairwise
  dsimp only at hinner
  rw [Option.ite_none_right_eq_some, Option.some.injEq, contains_ofNamespaces_iff] at hinner
  obtain ⟨hdeclared, rfl⟩ := hinner
  have hmem : inner ∈ scopes source.name := by simp [hscopes]
  refine ⟨inner, ⟨⟨mem_scopes.mp hmem, hdeclared⟩, ?_⟩, hk⟩
  intro outer houter
  have hmem := mem_scopes.mpr houter.encloses
  rw [hscopes, List.mem_append, List.mem_cons] at hmem
  rcases hmem with hmem | rfl | hmem
  . have := hbefore outer hmem
    simp [contains_ofNamespaces_iff.mpr houter.declared] at this
  . exact Or.inl rfl
  . exact hpairwise.2.1.1 outer hmem

theorem enclosed_of_not_nestedIn (h : ∀ scope, ¬ NestedIn nss source reference scope) :
    (ofNamespaces nss).enclosed source reference = none := by
  unfold enclosed
  rw [List.findSome?_eq_none_iff]
  intro scope hscope
  dsimp only
  rw [if_neg]
  intro hcontains
  exact h scope ⟨mem_scopes.mp hscope, contains_ofNamespaces_iff.mp hcontains⟩

theorem resolve_of_resolveWhole {found : List TypeKey} (hne : reference ≠ "") (hplain : IsPlain reference)
    (hfound : found ≠ []) (h : t.resolveWhole source reference = found) : t.resolve source reference = found := by
  unfold resolve
  rw [normalize_of_isPlain hplain, resolveName_of_whole]
  . exact h
  . simpa using hne
  . rw [h]
    exact hfound

theorem resolve_of_nestedIn (hne : reference ≠ "") (hplain : IsPlain reference) (hdot : '.' ∉ reference.toList)
    (h : NestedIn nss source reference scope) :
    ∃ inner, InnermostIn nss source reference inner ∧
      (ofNamespaces nss).resolve source reference = [⟨source.namespace, inner ++ "." ++ reference⟩] := by
  obtain ⟨inner, hinner, henclosed⟩ := enclosed_of_nestedIn h
  refine ⟨inner, hinner, resolve_of_resolveWhole hne hplain (by simp) ?_⟩
  unfold resolveWhole
  rw [qualifierSplits_eq_nil hdot, henclosed]
  rfl

theorem resolve_of_not_nestedIn (hne : reference ≠ "") (hplain : IsPlain reference) (hdot : '.' ∉ reference.toList)
    (h : ∀ scope, ¬ NestedIn nss source reference scope) (hnear : DeclaredIn nss ⟨source.namespace, reference⟩) :
    (ofNamespaces nss).resolve source reference = [⟨source.namespace, reference⟩] := by
  apply resolve_of_resolveWhole hne hplain (by simp)
  unfold resolveWhole
  rw [qualifierSplits_eq_nil hdot, enclosed_of_not_nestedIn h, if_pos (contains_ofNamespaces_iff.mpr hnear)]
  rfl

end Precedence

theorem declaredIn_of_mem_resolve {k : TypeKey} (hk : k ∈ (ofNamespaces nss).resolve source reference) :
    DeclaredIn nss k :=
  mem_keys_ofNamespaces.mp (mem_keys_of_mem_resolveName (wellFormed_ofNamespaces nss) hk)

theorem lastSegment_of_mem_resolve {k : TypeKey} (hplain : IsPlain reference)
    (hk : k ∈ (ofNamespaces nss).resolve source reference) : lastSegment k.name = lastSegment reference := by
  unfold resolve at hk
  rw [normalize_of_isPlain hplain] at hk
  exact lastSegment_of_mem_resolveName (wellFormed_ofNamespaces nss) hplain hk

theorem resolve_answers_in_scope_order (nss : List Namespace) :
    (∀ source reference,
      ((ofNamespaces nss).resolve source reference).Pairwise (fun a b => a.le b = true) ∧
      (∀ k ∈ (ofNamespaces nss).resolve source reference, DeclaredIn nss k) ∧
      (reference ≠ "" → IsPlain reference →
        (∀ k ∈ (ofNamespaces nss).resolve source reference, lastSegment k.name = lastSegment reference) ∧
        ('.' ∉ reference.toList →
          ((∃ scope, NestedIn nss source reference scope) →
            ∃ inner, InnermostIn nss source reference inner ∧
              (ofNamespaces nss).resolve source reference = [⟨source.namespace, inner ++ "." ++ reference⟩]) ∧
          ((∀ scope, ¬ NestedIn nss source reference scope) → DeclaredIn nss ⟨source.namespace, reference⟩ →
            (ofNamespaces nss).resolve source reference = [⟨source.namespace, reference⟩])))) ∧
    (∀ i : Index, i.namespaces = nss →
      (∀ e ∈ (ReferenceGraph.ofIndex i).references, DeclaredIn nss e.1 ∧ DeclaredIn nss e.2) ∧
      (∀ e ∈ (ReferenceGraph.ofIndex i).implementers, DeclaredIn nss e.1 ∧ DeclaredIn nss e.2) ∧
      (∀ k ∈ (ReferenceGraph.ofIndex i).reachable, DeclaredIn nss k)) := by
  constructor
  . intro source reference
    refine ⟨pairwise_resolveName _ _ _, fun k => declaredIn_of_mem_resolve, ?_⟩
    intro hne hplain
    refine ⟨fun k => lastSegment_of_mem_resolve hplain, ?_⟩
    intro hdot
    constructor
    . rintro ⟨scope, hscope⟩
      exact resolve_of_nestedIn hne hplain hdot hscope
    . exact resolve_of_not_nestedIn hne hplain hdot
  . rintro i rfl
    have hedge : ∀ e : TypeKey × TypeKey, (ReferenceGraph.ofIndex i).Edge e.1 e.2 →
        DeclaredIn i.namespaces e.1 ∧ DeclaredIn i.namespaces e.2 := by
      intro e he
      rw [← declares_iff_declaredIn, ← declares_iff_declaredIn]
      exact ⟨Index.declares_of_edge he, Index.declares_target_of_edge he⟩
    refine ⟨?_, ?_, ?_⟩
    . intro e he
      exact hedge e (Or.inl he)
    . intro e he
      exact hedge e (Or.inr he)
    . intro k hk
      exact declares_iff_declaredIn.mp (Index.declares_of_mem_reachable hk)

end TypeTable

namespace Shop

/--
A type of the name `Options` at every level around the pages of a client, and one in another namespace.
-/
def namespaces : List Namespace := [
  { name := "shop"
    types := [
      { name := "Options", kind := .classType },
      { name := "Client", kind := .classType },
      { name := "Client.Options", kind := .classType },
      { name := "Client.Pages", kind := .classType },
      { name := "Client.Pages.Options", kind := .classType },
      { name := "Client.Pages.Page", kind := .classType }] },
  { name := "shop.models", types := [{ name := "Options", kind := .classType }] }]

theorem page_options_nested : NestedIn namespaces ⟨"shop", "Client.Pages.Page"⟩ "Options" "Client.Pages" where
  encloses := Or.inr ⟨"Page", by decide +kernel⟩
  declared := by
    rw [← TypeTable.contains_ofNamespaces_iff]
    decide +kernel

theorem page_options_resolved :
    NestedIn namespaces ⟨"shop", "Client.Pages.Page"⟩ "Options" "Client.Pages" ∧
    ∃ inner, InnermostIn namespaces ⟨"shop", "Client.Pages.Page"⟩ "Options" inner ∧
      (TypeTable.ofNamespaces namespaces).resolve ⟨"shop", "Client.Pages.Page"⟩ "Options"
        =
      [⟨"shop", inner ++ "." ++ "Options"⟩] := by
  obtain ⟨-, -, hplain⟩ := (TypeTable.resolve_answers_in_scope_order namespaces).1 ⟨"shop", "Client.Pages.Page"⟩ "Options"
  obtain ⟨-, hscopes⟩ := hplain (by decide) (isPlain_of_isVisibleAscii (by decide +kernel))
  exact ⟨page_options_nested, (hscopes (by decide +kernel)).1 ⟨_, page_options_nested⟩⟩

example :
    (TypeTable.ofNamespaces namespaces).resolve ⟨"shop", "Client.Pages.Page"⟩ "Options"
      =
    [⟨"shop", "Client.Pages.Options"⟩] := by
  decide +kernel

end Shop

end ApiSurface
