import Mathlib.Data.Fintype.Card
import Mathlib.Data.Set.Finite.List
import ApiSurface.Proofs.Reference.Prune

/-!
This module contains where the walk starts in an index without entry points: at the candidates that no other type
mentions, and only if there are none, at all candidates. So a type with operations can be out of reach. It is within
reach if the types that mention it, directly or through others, are candidates and none of them is on a cycle.
-/

namespace ApiSurface

namespace Index

/--
A declaration of the key has operations.
-/
def HasOperations (i : Index) (k : TypeKey) : Prop :=
  ∃ d ∈ i.types, declaredKey d = k ∧ d.2.hasCallables = true

/--
A declaration of `a` mentions the other type `b`.
-/
def Mentions (i : Index) (a b : TypeKey) : Prop :=
  ∃ d ∈ i.types, ReferenceGraph.MentionEdge (TypeTable.ofNamespaces i.namespaces) a b d

/--
No other type mentions the key.
-/
def Unmentioned (i : Index) (k : TypeKey) : Prop :=
  ∀ a, ¬ i.Mentions a k

/--
The key is of a root kind, and it has operations or mentions a type that has some.
-/
structure Candidate (i : Index) (k : TypeKey) : Prop where
  rootKind : ∃ d ∈ i.types, declaredKey d = k ∧ d.2.kind.isRoot = true
  operations : i.HasOperations k ∨ ∃ r, i.Mentions k r ∧ i.HasOperations r

/--
One of the candidates is mentioned by no other type.
-/
def HasFreeCandidate (i : Index) : Prop :=
  ∃ c, i.Candidate c ∧ i.Unmentioned c

variable {i : Index} {a b k : TypeKey}

theorem Mentions.ne (hab : i.Mentions a b) : a ≠ b := by
  obtain ⟨d, -, -, hmem⟩ := hab
  exact (ReferenceGraph.mem_mentionedTypes.mp hmem).1.symm

theorem Mentions.declared (hab : i.Mentions a b) : a ∈ i.types.map declaredKey := by
  obtain ⟨d, hd, rfl, -⟩ := hab
  exact List.mem_map_of_mem hd

theorem mem_references_iff_mentions : (a, b) ∈ (ReferenceGraph.ofIndex i).references ↔ i.Mentions a b := by
  apply ReferenceGraph.mem_ofIndex_references

theorem edge_of_mentions (hab : i.Mentions a b) : (ReferenceGraph.ofIndex i).Edge a b :=
  Or.inl (mem_references_iff_mentions.mpr hab)

theorem edges_of_mentions (hpath : Relation.ReflTransGen i.Mentions a b) :
    Relation.ReflTransGen (ReferenceGraph.ofIndex i).Edge a b := by
  induction hpath with
  | refl => exact Relation.ReflTransGen.refl
  | tail _ hstep ih => exact ih.tail (edge_of_mentions hstep)

theorem finite_setOf_mentions (i : Index) (k : TypeKey) : {a | Relation.ReflTransGen i.Mentions a k}.Finite := by
  apply (List.finite_toSet (k :: i.types.map declaredKey)).subset
  intro a ha
  cases Relation.ReflTransGen.cases_head ha with
  | inl heq => exact heq ▸ List.mem_cons_self
  | inr hstep =>
    obtain ⟨b, hab, -⟩ := hstep
    exact List.mem_cons_of_mem k hab.declared

theorem exists_unmentioned_of_acyclic
    (hacyclic : ∀ a, Relation.ReflTransGen i.Mentions a k → ¬ Relation.TransGen i.Mentions a a) :
    ∃ c, Relation.ReflTransGen i.Mentions c k ∧ i.Unmentioned c := by
  let above (x y : {a // Relation.ReflTransGen i.Mentions a k}) : Prop := Relation.TransGen i.Mentions x.1 y.1
  have : Finite {a // Relation.ReflTransGen i.Mentions a k} := (finite_setOf_mentions i k).to_subtype
  have : IsTrans _ above := ⟨fun _ _ _ => Relation.TransGen.trans⟩
  have : Std.Irrefl above := ⟨fun x => hacyclic x.1 x.2⟩
  -- finitely many types lead to `k`, and one of them has none before it
  obtain ⟨c, -, hmin⟩ := (Finite.wellFounded_of_trans_of_irrefl above).has_min Set.univ
    ⟨⟨k, Relation.ReflTransGen.refl⟩, Set.mem_univ _⟩
  refine ⟨c.1, c.2, ?_⟩
  intro a ha
  exact hmin ⟨a, Relation.ReflTransGen.head ha c.2⟩ (Set.mem_univ _) (Relation.TransGen.single ha)

end Index

namespace ReferenceGraph

variable {i : Index} {k : TypeKey}

theorem isReferenced_iff : (ofIndex i).isReferenced k = true ↔ ∃ a, i.Mentions a k := by
  simp only [isReferenced, List.any_eq_true, Bool.and_eq_true, beq_iff_eq, bne_iff_ne, Prod.exists]
  constructor
  . rintro ⟨a, b, hedge, rfl, -⟩
    exact ⟨a, Index.mem_references_iff_mentions.mp hedge⟩
  . rintro ⟨a, ha⟩
    exact ⟨a, k, Index.mem_references_iff_mentions.mpr ha, rfl, ha.ne⟩

theorem mem_nodes_iff {n : TypeNode} :
    n ∈ (ofIndex i).nodes ↔ n.key ∈ i.types.map declaredKey ∧ n = nodeOf i.types n.key := by
  rw [ofIndex_nodes, List.mem_map]
  constructor
  . rintro ⟨k, hk, rfl⟩
    exact ⟨List.mem_eraseDups.mp hk, rfl⟩
  . rintro ⟨hk, hn⟩
    exact ⟨n.key, List.mem_eraseDups.mpr hk, hn.symm⟩

theorem nodeOf_hasOperations_iff : (nodeOf i.types k).hasOperations = true ↔ i.HasOperations k := by
  simp only [nodeOf, List.any_eq_true, Bool.and_eq_true, beq_iff_eq]
  rfl

theorem nodeOf_rootKind_iff :
    (nodeOf i.types k).rootKind = true ↔ ∃ d ∈ i.types, declaredKey d = k ∧ d.2.kind.isRoot = true := by
  simp only [nodeOf, List.any_eq_true, Bool.and_eq_true, beq_iff_eq]

theorem any_nodes_hasOperations_iff :
    (ofIndex i).nodes.any (fun n => n.key == k && n.hasOperations) = true ↔ i.HasOperations k := by
  simp only [List.any_eq_true, Bool.and_eq_true, beq_iff_eq]
  constructor
  . rintro ⟨n, hn, rfl, hops⟩
    rw [(mem_nodes_iff.mp hn).2] at hops
    exact nodeOf_hasOperations_iff.mp hops
  . intro hops
    have hdeclared : k ∈ i.types.map declaredKey := by
      obtain ⟨d, hd, hkey, -⟩ := hops
      exact hkey ▸ List.mem_map_of_mem hd
    exact ⟨nodeOf i.types k, mem_nodes_iff.mpr ⟨hdeclared, rfl⟩, rfl, nodeOf_hasOperations_iff.mpr hops⟩

theorem referencesOperations_iff :
    (ofIndex i).referencesOperations k = true ↔ ∃ r, i.Mentions k r ∧ i.HasOperations r := by
  unfold referencesOperations
  rw [List.any_eq_true]
  simp only [any_nodes_hasOperations_iff, referencesOf, List.mem_map, List.mem_filter, beq_iff_eq, Prod.exists]
  constructor
  . rintro ⟨r, ⟨a, b, ⟨hedge, rfl⟩, rfl⟩, hops⟩
    exact ⟨b, Index.mem_references_iff_mentions.mp hedge, hops⟩
  . rintro ⟨r, hmention, hops⟩
    exact ⟨r, ⟨k, r, ⟨Index.mem_references_iff_mentions.mpr hmention, rfl⟩, rfl⟩, hops⟩

theorem isReferenced_eq_false_iff : (ofIndex i).isReferenced k = false ↔ i.Unmentioned k := by
  rw [← Bool.not_eq_true, isReferenced_iff, not_exists]
  rfl

theorem mem_candidates_iff {unreferenced : Bool} :
    k ∈ (ofIndex i).candidates unreferenced ↔ i.Candidate k ∧ (unreferenced = true → i.Unmentioned k) := by
  unfold candidates
  rw [TypeKey.mem_toSet]
  simp only [List.mem_map, List.mem_filter, Bool.and_eq_true, Bool.or_eq_true, Bool.not_eq_true',
    isReferenced_eq_false_iff, referencesOperations_iff]
  constructor
  . rintro ⟨n, ⟨hn, ⟨hroot, hfree⟩, hops⟩, rfl⟩
    rw [(mem_nodes_iff.mp hn).2] at hroot hops
    rw [nodeOf_rootKind_iff] at hroot
    rw [nodeOf_hasOperations_iff] at hops
    exact ⟨⟨hroot, hops⟩, fun hflag => hfree.resolve_left (by simp [hflag])⟩
  . rintro ⟨hcandidate, hfree⟩
    have hdeclared : k ∈ i.types.map declaredKey := by
      obtain ⟨d, hd, hkey, -⟩ := hcandidate.rootKind
      exact hkey ▸ List.mem_map_of_mem hd
    refine ⟨nodeOf i.types k, ⟨mem_nodes_iff.mpr ⟨hdeclared, rfl⟩, ⟨?_, ?_⟩, ?_⟩, rfl⟩
    . exact nodeOf_rootKind_iff.mpr hcandidate.rootKind
    . cases unreferenced with
      | false => exact Or.inl rfl
      | true => exact Or.inr (hfree rfl)
    . exact hcandidate.operations.imp_left nodeOf_hasOperations_iff.mpr

theorem mem_roots_of_no_entry (hentry : ∀ d ∈ i.types, d.2.entryPoint = false) :
    k ∈ (ofIndex i).roots ↔ i.Candidate k ∧ (i.HasFreeCandidate → i.Unmentioned k) := by
  unfold roots
  split
  . next hcons =>
    have hmem : _ ∈ TypeKey.toSet (((ofIndex i).nodes.filter (·.entryPoint)).map (·.key)) :=
      hcons ▸ List.mem_cons_self
    obtain ⟨d, hd, -, hflag⟩ := mem_entries_iff.mp (TypeKey.mem_toSet.mp hmem)
    simp [hentry d hd] at hflag
  . split
    . next hcons =>
      have hfree : i.HasFreeCandidate := by
        have hmem : _ ∈ (ofIndex i).candidates true := hcons ▸ List.mem_cons_self
        obtain ⟨hcandidate, hfree⟩ := mem_candidates_iff.mp hmem
        exact ⟨_, hcandidate, hfree rfl⟩
      rw [← hcons, mem_candidates_iff]
      simp [hfree]
    . next hnil =>
      have hfree : ¬ i.HasFreeCandidate := by
        rintro ⟨c, hcandidate, hfree⟩
        have hmem := mem_candidates_iff.mpr ⟨hcandidate, fun _ : true = true => hfree⟩
        simp [hnil] at hmem
      rw [mem_candidates_iff]
      simp [hfree]

theorem mem_reachable_of_no_entry (hentry : ∀ d ∈ i.types, d.2.entryPoint = false) :
    k ∈ (ofIndex i).reachable
      ↔
    ∃ c, i.Candidate c ∧ (i.HasFreeCandidate → i.Unmentioned c) ∧ Relation.ReflTransGen (ofIndex i).Edge c k := by
  rw [mem_reachable]
  unfold Reaches
  simp only [mem_roots_of_no_entry hentry, and_assoc]

theorem mem_reachable_of_mentioned_by_candidates (hentry : ∀ d ∈ i.types, d.2.entryPoint = false)
    (hk : i.Candidate k)
    (habove : ∀ a, Relation.TransGen i.Mentions a k → i.Candidate a ∧ ¬ Relation.TransGen i.Mentions a a) :
    k ∈ (ofIndex i).reachable := by
  have hacyclic : ∀ a, Relation.ReflTransGen i.Mentions a k → ¬ Relation.TransGen i.Mentions a a := by
    intro a ha hcycle
    exact (habove a (hcycle.trans_left ha)).2 hcycle
  obtain ⟨c, hpath, hfree⟩ := Index.exists_unmentioned_of_acyclic hacyclic
  have hcandidate : i.Candidate c := by
    cases Relation.reflTransGen_iff_eq_or_transGen.mp hpath with
    | inl heq => exact heq ▸ hk
    | inr hpath => exact (habove c hpath).1
  rw [mem_reachable_of_no_entry hentry]
  exact ⟨c, hcandidate, fun _ => hfree, Index.edges_of_mentions hpath⟩

theorem mem_reachable_iff_led_to (i : Index) (hentry : ∀ d ∈ i.types, d.2.entryPoint = false) (ns : String)
    (t : TypeEntry) (ht : (ns, t) ∈ i.types) (hkind : t.kind ∈ [.classType, .struct, .interface, .record])
    (hops : t.hasCallables = true) :
    (⟨ns, t.name⟩ ∈ (ofIndex i).reachable
      ↔
     (i.HasFreeCandidate →
        ∃ c, i.Candidate c ∧ i.Unmentioned c ∧ Relation.ReflTransGen (ofIndex i).Edge c ⟨ns, t.name⟩)) ∧
    ((∀ a, Relation.TransGen i.Mentions a ⟨ns, t.name⟩ → i.Candidate a ∧ ¬ Relation.TransGen i.Mentions a a) →
      ⟨ns, t.name⟩ ∈ (ofIndex i).reachable) ∧
    ((ns, t) ∈ i.prune.types ↔ ⟨ns, t.name⟩ ∈ (ofIndex i).reachable) := by
  have hcandidate : i.Candidate ⟨ns, t.name⟩ := by
    refine ⟨⟨(ns, t), ht, rfl, ?_⟩, Or.inl ⟨(ns, t), ht, rfl, hops⟩⟩
    revert hkind
    cases t.kind <;> simp [TypeKind.isRoot]
  refine ⟨?_, mem_reachable_of_mentioned_by_candidates hentry hcandidate, ?_⟩
  . rw [mem_reachable_of_no_entry hentry]
    constructor
    . rintro ⟨c, hc, hfree, hpath⟩ hexists
      exact ⟨c, hc, hfree hexists, hpath⟩
    . intro hled
      by_cases hexists : i.HasFreeCandidate
      . obtain ⟨c, hc, hfree, hpath⟩ := hled hexists
        exact ⟨c, hc, fun _ => hfree, hpath⟩
      . exact ⟨_, hcandidate, fun h => absurd h hexists, Relation.ReflTransGen.refl⟩
  . rw [Index.mem_types_prune]
    exact and_iff_right ht

end ReferenceGraph

namespace Exchange

def send : Member := { name := "send", kind := .method, sig := "(m: Message)" }

def encode : Member := { name := "encode", kind := .method }

def reply : Member := { name := "reply", kind := .method, sig := "() -> Response" }

def retry : Member := { name := "retry", kind := .method, sig := "() -> Request" }

def client : TypeEntry := { name := "Client", kind := .classType, members := [send] }

def message : TypeEntry := { name := "Message", kind := .classType, members := [encode] }

def request : TypeEntry := { name := "Request", kind := .classType, members := [reply] }

def response : TypeEntry := { name := "Response", kind := .classType, members := [retry] }

/--
A client that mentions a message, and two types that mention each other.
-/
def index : Index where
  package := "exchange"
  namespaces := [{ name := "exchange", types := [client, message, request, response] }]

theorem no_entry : ∀ d ∈ index.types, d.2.entryPoint = false := by
  decide

theorem request_not_mem_reachable : ⟨"exchange", "Request"⟩ ∉ (ReferenceGraph.ofIndex index).reachable := by
  intro hmem
  have hkept : (⟨"exchange", "Request"⟩ : TypeKey) ∈ [⟨"exchange", "Client"⟩, (⟨"exchange", "Message"⟩ : TypeKey)] := by
    apply ReferenceGraph.mem_of_mem_reachable _ _ hmem
    . decide +kernel
    . decide +kernel
  simp at hkept

theorem client_free : index.Candidate ⟨"exchange", "Client"⟩ ∧ index.Unmentioned ⟨"exchange", "Client"⟩ := by
  have hmem : ⟨"exchange", "Client"⟩ ∈ (ReferenceGraph.ofIndex index).candidates true := by decide +kernel
  obtain ⟨hcandidate, hfree⟩ := ReferenceGraph.mem_candidates_iff.mp hmem
  exact ⟨hcandidate, hfree rfl⟩

theorem client_leads_to_message :
    (ReferenceGraph.ofIndex index).Edge ⟨"exchange", "Client"⟩ ⟨"exchange", "Message"⟩ := by
  left
  decide +kernel

theorem message_mem_reachable : ⟨"exchange", "Message"⟩ ∈ (ReferenceGraph.ofIndex index).reachable := by
  have hreach := (ReferenceGraph.mem_reachable_iff_led_to index no_entry "exchange" message (by decide) (by decide)
    (by decide)).1
  apply hreach.mpr
  intro _
  exact ⟨_, client_free.1, client_free.2, Relation.ReflTransGen.single client_leads_to_message⟩

theorem request_pruned :
    (∀ d ∈ index.types, d.2.entryPoint = false) ∧ ("exchange", request) ∈ index.types ∧
    request.kind = .classType ∧ request.hasCallables = true ∧
    ⟨"exchange", "Request"⟩ ∉ (ReferenceGraph.ofIndex index).reachable ∧ ("exchange", request) ∉ index.prune.types := by
  refine ⟨no_entry, by decide, rfl, by decide, request_not_mem_reachable, ?_⟩
  intro hmem
  exact request_not_mem_reachable (Index.mem_types_prune.mp hmem).2

end Exchange

end ApiSurface
