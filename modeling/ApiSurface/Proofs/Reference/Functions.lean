import ApiSurface.Proofs.Reference.Prune

/-!
This module contains what pruning does to free functions. All of them are kept, but the walk goes over types alone: a
type is kept as a root or because of another type that is kept, and never because a function mentions it.
-/

namespace ApiSurface

/--
The texts of a member in which it can mention types.
-/
inductive Member.HasText (m : Member) : String → Prop where
  | signature : HasText m m.sig
  | param : p ∈ m.params → HasText m p.type
  | result : r ∈ m.results → HasText m r.type
  | ret : m.ret = some text → HasText m text

namespace Index

/--
Every free function with the name of its namespace, in order.
-/
def functions (i : Index) : List (String × Member) :=
  i.namespaces.flatMap (fun ns => ns.functions.map (fun f => (ns.name, f)))

/--
A type of the index has this key.
-/
def Declares (i : Index) (k : TypeKey) : Prop :=
  k ∈ i.types.map declaredKey

/--
The free function `f` of the namespace `ns` mentions `k`: the name `name` in one of its texts stands for this type.
-/
structure FunctionMentions (i : Index) (ns : String) (f : Member) (text name : String) (k : TypeKey) : Prop where
  declared : (ns, f) ∈ i.functions
  hasText : f.HasText text
  hasName : name ∈ Text.dottedNames text
  resolves : k ∈ (TypeTable.ofNamespaces i.namespaces).resolve ⟨ns, f.name⟩ name

theorem functions_restrict (i : Index) (kept : List TypeKey) : (i.restrict kept).functions = i.functions := by
  unfold restrict functions
  dsimp only
  rw [flatMap_filter_of_nil]
  . rw [List.flatMap_map]
  . intro ns _ hempty
    simp only [Namespace.isEmpty, Bool.not_eq_false', Bool.and_eq_true, List.isEmpty_iff] at hempty
    simp [hempty.2]

theorem declares_prune {i : Index} {k : TypeKey} :
    i.prune.Declares k ↔ i.Declares k ∧ k ∈ (ReferenceGraph.ofIndex i).reachable := by
  simp only [Declares, List.mem_map, mem_types_prune]
  constructor
  . rintro ⟨d, ⟨hd, hreach⟩, rfl⟩
    exact ⟨⟨d, hd, rfl⟩, hreach⟩
  . rintro ⟨⟨d, hd, rfl⟩, hreach⟩
    exact ⟨d, ⟨hd, hreach⟩, rfl⟩

theorem declares_of_mem_resolve {i : Index} {source k : TypeKey} {reference : String}
    (hk : k ∈ (TypeTable.ofNamespaces i.namespaces).resolve source reference) : i.Declares k := by
  rw [Declares, ← ofNamespaces_keys]
  exact TypeTable.mem_keys_of_mem_resolveName (TypeTable.wellFormed_ofNamespaces _) hk

theorem declares_of_edge {i : Index} {a b : TypeKey} (hedge : (ReferenceGraph.ofIndex i).Edge a b) : i.Declares a := by
  rw [ReferenceGraph.edge_ofIndex_iff] at hedge
  rcases hedge with ⟨d, hd, rfl, -⟩ | ⟨d, -, rfl, hparent⟩ | ⟨d, -, rfl, face, hface, rfl, -⟩
  . exact List.mem_map_of_mem hd
  . obtain ⟨parent, -, hresolve⟩ := ReferenceGraph.mem_parentTypes.mp hparent
    exact declares_of_mem_resolve hresolve
  . exact List.mem_map_of_mem hface

theorem declares_prune_iff_step {i : Index} {k : TypeKey} (hk : i.Declares k) :
    i.prune.Declares k
      ↔
    k ∈ (ReferenceGraph.ofIndex i).roots ∨ ∃ a, i.prune.Declares a ∧ (ReferenceGraph.ofIndex i).Edge a k := by
  rw [declares_prune, and_iff_right hk]
  constructor
  . intro hreach
    obtain ⟨r, hr, hpath⟩ := ReferenceGraph.mem_reachable.mp hreach
    -- the path is empty, or its last edge starts at a type that is reachable as well
    cases Relation.ReflTransGen.cases_tail hpath with
    | inl heq =>
      left
      rw [heq]
      exact hr
    | inr hstep =>
      obtain ⟨a, hpath, hedge⟩ := hstep
      right
      exact ⟨a, declares_prune.mpr ⟨declares_of_edge hedge, ReferenceGraph.mem_reachable.mpr ⟨r, hr, hpath⟩⟩, hedge⟩
  . rintro (hroot | ⟨a, ha, hedge⟩)
    . exact ReferenceGraph.mem_reachable.mpr (ReferenceGraph.Reaches.of_mem hroot)
    . exact ReferenceGraph.reachable_closed (declares_prune.mp ha).2 hedge

section

variable {i : Index} {ns : String} {f : Member} {text name : String} {k : TypeKey}

theorem FunctionMentions.declares (h : i.FunctionMentions ns f text name k) : i.Declares k :=
  declares_of_mem_resolve h.resolves

theorem FunctionMentions.prune (h : i.FunctionMentions ns f text name k) (hkept : i.prune.Declares k) :
    i.prune.FunctionMentions ns f text name k where
  declared := by
    rw [prune_eq, functions_restrict]
    exact h.declared
  hasText := h.hasText
  hasName := h.hasName
  resolves := by
    have hreach := List.contains_iff_mem.mpr (declares_prune.mp hkept).2
    exact (i.restricts_restrict _).mem_resolve h.resolves hreach

end

theorem function_type_kept_iff (i : Index) :
    i.prune.functions = i.functions ∧
    ∀ ns f text name k, i.FunctionMentions ns f text name k →
      (i.prune.Declares k
        ↔
       k ∈ (ReferenceGraph.ofIndex i).roots ∨ ∃ a, i.prune.Declares a ∧ (ReferenceGraph.ofIndex i).Edge a k) ∧
      (i.prune.Declares k → i.prune.FunctionMentions ns f text name k) := by
  constructor
  . rw [prune_eq, functions_restrict]
  . intro ns f text name k hk
    exact ⟨declares_prune_iff_step hk.declares, hk.prune⟩

end Index

namespace Mail

def send : Member := { name := "send", kind := .method, sig := "(m: Message)" }

def connect : Member := { name := "connect", kind := .method, sig := "() -> Session" }

def draft : Member := { name := "draft", kind := .method, sig := "() -> Message" }

/--
An entry point that mentions a message, and two functions: one mentions the message, the other a type that is mentioned
nowhere else.
-/
def index : Index where
  package := "mail"
  namespaces := [{
    name := "mail"
    types := [
      { name := "Client", kind := .classType, entryPoint := true, members := [send] },
      { name := "Message", kind := .classType },
      { name := "Session", kind := .classType }]
    functions := [connect, draft] }]

theorem client_kept : index.prune.Declares ⟨"mail", "Client"⟩ := by
  have hroot : ⟨"mail", "Client"⟩ ∈ (ReferenceGraph.ofIndex index).roots := by decide +kernel
  have hdeclared : index.Declares ⟨"mail", "Client"⟩ := by
    unfold Index.Declares
    decide +kernel
  exact Index.declares_prune.mpr ⟨hdeclared, ReferenceGraph.mem_reachable.mpr (ReferenceGraph.Reaches.of_mem hroot)⟩

theorem draft_mentions_message : index.FunctionMentions "mail" draft draft.sig "Message" ⟨"mail", "Message"⟩ where
  declared := by decide
  hasText := .signature
  hasName := by decide +kernel
  resolves := by decide +kernel

theorem draft_mentions_message_after_prune :
    index.prune.FunctionMentions "mail" draft draft.sig "Message" ⟨"mail", "Message"⟩ := by
  obtain ⟨hkept, hmentions⟩ := (Index.function_type_kept_iff index).2 "mail" draft _ _ _ draft_mentions_message
  have hedge : (ReferenceGraph.ofIndex index).Edge ⟨"mail", "Client"⟩ ⟨"mail", "Message"⟩ := by
    left
    decide +kernel
  exact hmentions (hkept.mpr (Or.inr ⟨_, client_kept, hedge⟩))

theorem connect_dangles :
    ("mail", connect) ∈ index.prune.functions ∧
    index.FunctionMentions "mail" connect connect.sig "Session" ⟨"mail", "Session"⟩ ∧
    index.Declares ⟨"mail", "Session"⟩ ∧ ¬ index.prune.Declares ⟨"mail", "Session"⟩ := by
  have hmentions : index.FunctionMentions "mail" connect connect.sig "Session" ⟨"mail", "Session"⟩ :=
    ⟨by decide, .signature, by decide +kernel, by decide +kernel⟩
  refine ⟨?_, hmentions, hmentions.declares, ?_⟩
  . rw [Index.prune_eq, Index.functions_restrict]
    exact hmentions.declared
  . intro hkept
    have hmem := (Index.declares_prune.mp hkept).2
    have hclosed : (⟨"mail", "Session"⟩ : TypeKey) ∈ [⟨"mail", "Client"⟩, (⟨"mail", "Message"⟩ : TypeKey)] := by
      apply ReferenceGraph.mem_of_mem_reachable _ _ hmem
      . decide +kernel
      . decide +kernel
    simp at hclosed

end Mail

end ApiSurface
