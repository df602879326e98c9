import ApiSurface.Proofs.Reference.Roots

/-!
This module contains what pruning does to an index without entry points if it is repeated. Every candidate that is
kept is a candidate as before, but the types that mentioned it may be gone. So the second pruning may start at fewer
types than the first one; the third one changes nothing.
-/

namespace ApiSurface

namespace Index

section Restrict

variable {i : Index} {kept : List TypeKey} {a b k : TypeKey}

theorem exists_types_restrict (P : TypeEntry → Prop) :
    (∃ d ∈ (i.restrict kept).types, declaredKey d = k ∧ P d.2)
      ↔
    (∃ d ∈ i.types, declaredKey d = k ∧ P d.2) ∧ k ∈ kept := by
  simp only [mem_types_restrict]
  constructor
  . rintro ⟨d, ⟨hd, hkept⟩, rfl, hP⟩
    exact ⟨⟨d, hd, rfl, hP⟩, hkept⟩
  . rintro ⟨⟨d, hd, rfl, hP⟩, hkept⟩
    exact ⟨d, ⟨hd, hkept⟩, rfl, hP⟩

theorem hasOperations_restrict : (i.restrict kept).HasOperations k ↔ i.HasOperations k ∧ k ∈ kept := by
  exact exists_types_restrict (fun t => t.hasCallables = true)

variable (hclosed : ∀ a ∈ kept, ∀ b, i.Mentions a b → b ∈ kept)

include hclosed

theorem mentionedTypes_restrict {d : String × TypeEntry} (hd : d ∈ i.types) (hkept : declaredKey d ∈ kept) :
    b ∈ ReferenceGraph.mentionedTypes (TypeTable.ofNamespaces (i.restrict kept).namespaces) (declaredKey d) d.2
      ↔
    b ∈ ReferenceGraph.mentionedTypes (TypeTable.ofNamespaces i.namespaces) (declaredKey d) d.2 := by
  -- all that a name stands for is kept, so the name stands for the same as before
  have hresolve : ∀ text ∈ ReferenceGraph.mentions d.2, ∀ name ∈ Text.dottedNames text,
      (TypeTable.ofNamespaces (i.restrict kept).namespaces).resolve (declaredKey d) name
        = (TypeTable.ofNamespaces i.namespaces).resolve (declaredKey d) name := by
    intro text htext name hname
    apply (i.restricts_restrict kept).resolve_eq_self
    intro k hk
    rw [List.contains_iff_mem]
    by_cases heq : k = declaredKey d
    . rw [heq]
      exact hkept
    . apply hclosed (declaredKey d) hkept
      refine ⟨d, hd, rfl, ?_⟩
      rw [ReferenceGraph.mem_mentionedTypes]
      exact ⟨heq, text, htext, name, hname, hk⟩
  rw [ReferenceGraph.mem_mentionedTypes, ReferenceGraph.mem_mentionedTypes]
  apply and_congr_right
  intro _
  constructor
  . rintro ⟨text, htext, name, hname, hb⟩
    exact ⟨text, htext, name, hname, hresolve text htext name hname ▸ hb⟩
  . rintro ⟨text, htext, name, hname, hb⟩
    exact ⟨text, htext, name, hname, (hresolve text htext name hname).symm ▸ hb⟩

theorem mentions_restrict : (i.restrict kept).Mentions a b ↔ i.Mentions a b ∧ a ∈ kept := by
  constructor
  . rintro ⟨d, hd, rfl, hb⟩
    rw [mem_types_restrict] at hd
    rw [mentionedTypes_restrict hclosed hd.1 hd.2] at hb
    exact ⟨⟨d, hd.1, rfl, hb⟩, hd.2⟩
  . rintro ⟨⟨d, hd, rfl, hb⟩, hkept⟩
    rw [← mentionedTypes_restrict hclosed hd hkept] at hb
    exact ⟨d, mem_types_restrict.mpr ⟨hd, hkept⟩, rfl, hb⟩

theorem candidate_restrict : (i.restrict kept).Candidate k ↔ i.Candidate k ∧ k ∈ kept := by
  have hoperations : k ∈ kept →
      (((i.restrict kept).HasOperations k ∨ ∃ r, (i.restrict kept).Mentions k r ∧ (i.restrict kept).HasOperations r)
        ↔ (i.HasOperations k ∨ ∃ r, i.Mentions k r ∧ i.HasOperations r)) := by
    intro hkept
    simp only [hasOperations_restrict, mentions_restrict hclosed, hkept, and_true]
    apply or_congr_right
    constructor
    . rintro ⟨r, hmention, hops, -⟩
      exact ⟨r, hmention, hops⟩
    . rintro ⟨r, hmention, hops⟩
      exact ⟨r, hmention, hops, hclosed k hkept r hmention⟩
  have hrootKind := @exists_types_restrict i kept k (fun t => t.kind.isRoot = true)
  constructor
  . rintro ⟨hroot, hops⟩
    obtain ⟨hroot, hkept⟩ := hrootKind.mp hroot
    exact ⟨⟨hroot, (hoperations hkept).mp hops⟩, hkept⟩
  . rintro ⟨⟨hroot, hops⟩, hkept⟩
    exact ⟨hrootKind.mpr ⟨hroot, hkept⟩, (hoperations hkept).mpr hops⟩

theorem Unmentioned.restrict (hk : i.Unmentioned k) : (i.restrict kept).Unmentioned k := by
  intro a ha
  exact hk a ((mentions_restrict hclosed).mp ha).1

end Restrict

variable {i : Index}

theorem reachable_closed_mentions (i : Index) :
    ∀ a ∈ (ReferenceGraph.ofIndex i).reachable, ∀ b, i.Mentions a b → b ∈ (ReferenceGraph.ofIndex i).reachable := by
  intro a ha b hab
  exact ReferenceGraph.reachable_closed ha (edge_of_mentions hab)

theorem no_entry_prune (hentry : ∀ d ∈ i.types, d.2.entryPoint = false) :
    ∀ d ∈ i.prune.types, d.2.entryPoint = false := by
  intro d hd
  exact hentry d (mem_types_prune.mp hd).1

theorem prune_eq_self_iff (hnonempty : ∀ ns ∈ i.namespaces, ns.isEmpty = false) :
    i.prune = i ↔ ∀ d ∈ i.types, declaredKey d ∈ (ReferenceGraph.ofIndex i).reachable := by
  constructor
  . intro heq d hd
    rw [← heq] at hd
    exact (mem_types_prune.mp hd).2
  . apply restrict_eq_self hnonempty

theorem prune_prune_eq_iff (i : Index) :
    i.prune.prune = i.prune ↔ ∀ d ∈ i.prune.types, declaredKey d ∈ (ReferenceGraph.ofIndex i.prune).reachable := by
  apply prune_eq_self_iff
  apply restrict_nonempty

theorem mem_roots_prune_of_no_entry (hentry : ∀ d ∈ i.types, d.2.entryPoint = false)
    (hstage : i.prune.HasFreeCandidate → i.HasFreeCandidate) {r : TypeKey}
    (hr : r ∈ (ReferenceGraph.ofIndex i).roots) : r ∈ (ReferenceGraph.ofIndex i.prune).roots := by
  have hkept := ReferenceGraph.mem_reachable.mpr (ReferenceGraph.Reaches.of_mem hr)
  rw [ReferenceGraph.mem_roots_of_no_entry hentry] at hr
  rw [ReferenceGraph.mem_roots_of_no_entry (no_entry_prune hentry)]
  constructor
  . exact (candidate_restrict i.reachable_closed_mentions).mpr ⟨hr.1, hkept⟩
  . intro hfree
    exact (hr.2 (hstage hfree)).restrict i.reachable_closed_mentions

theorem prune_prune_of_free_candidate (hentry : ∀ d ∈ i.types, d.2.entryPoint = false)
    (hstage : i.prune.HasFreeCandidate → i.HasFreeCandidate) : i.prune.prune = i.prune := by
  rw [prune_prune_eq_iff]
  intro d hd
  apply ReferenceGraph.reachable_prune_of_roots
  . intro r hr
    exact mem_roots_prune_of_no_entry hentry hstage hr
  . exact (mem_types_prune.mp hd).2

theorem prune_prune_iff_of_no_entry (i : Index) (hentry : ∀ d ∈ i.types, d.2.entryPoint = false) :
    (i.prune.prune = i.prune
      ↔
     (i.prune.HasFreeCandidate → i.HasFreeCandidate) ∨
     (∀ d ∈ i.prune.types, ∃ c, i.prune.Candidate c ∧ i.prune.Unmentioned c ∧
        Relation.ReflTransGen (ReferenceGraph.ofIndex i.prune).Edge c (declaredKey d))) ∧
    i.prune.prune.prune = i.prune.prune := by
  have hentry' := no_entry_prune hentry
  refine ⟨⟨?_, ?_⟩, ?_⟩
  . intro heq
    by_cases hfree : i.prune.HasFreeCandidate
    . right
      rw [prune_prune_eq_iff] at heq
      intro d hd
      obtain ⟨c, hc, hunmentioned, hpath⟩ := (ReferenceGraph.mem_reachable_of_no_entry hentry').mp (heq d hd)
      exact ⟨c, hc, hunmentioned hfree, hpath⟩
    . left
      intro h
      exact absurd h hfree
  . rintro (hstage | hled)
    . exact prune_prune_of_free_candidate hentry hstage
    . rw [prune_prune_eq_iff]
      intro d hd
      obtain ⟨c, hc, hunmentioned, hpath⟩ := hled d hd
      rw [ReferenceGraph.mem_reachable_of_no_entry hentry']
      exact ⟨c, hc, fun _ => hunmentioned, hpath⟩
  . -- the first pruning starts at the free candidates of `i.prune`, or else there are none of them
    by_cases hfree : i.prune.HasFreeCandidate
    . exact prune_prune_of_free_candidate hentry' (fun _ => hfree)
    . have heq := prune_prune_of_free_candidate hentry (fun h => absurd h hfree)
      rw [heq, heq]

end Index

namespace Exchange

theorem prune_prune_index : index.prune.prune = index.prune := by
  have hiff := (Index.prune_prune_iff_of_no_entry index no_entry).1
  apply hiff.mpr
  left
  intro _
  exact ⟨_, client_free⟩

/--
The types of `index` and another name for the client.
-/
def namedIndex : Index where
  package := "exchange"
  namespaces := [{
    name := "exchange"
    types := [{ name := "Sender", kind := .aliasType, aliasOf := some "Client" }, client, message, request, response] }]

theorem namedIndex_no_entry : ∀ d ∈ namedIndex.types, d.2.entryPoint = false := by
  decide

theorem namedIndex_not_free : ¬ namedIndex.HasFreeCandidate := by
  rintro ⟨c, hcandidate, hfree⟩
  have hmem := ReferenceGraph.mem_candidates_iff.mpr ⟨hcandidate, fun _ : true = true => hfree⟩
  have hnil : (ReferenceGraph.ofIndex namedIndex).candidates true = [] := by decide +kernel
  simp [hnil] at hmem

theorem namedIndex_candidate_iff {k : TypeKey} : namedIndex.Candidate k ↔ k ∈ index.types.map declaredKey := by
  have hlist : (((ReferenceGraph.ofIndex namedIndex).nodes.filter fun n =>
      n.rootKind && (!false || !(ReferenceGraph.ofIndex namedIndex).isReferenced n.key) &&
        (n.hasOperations || (ReferenceGraph.ofIndex namedIndex).referencesOperations n.key)).map (·.key))
      = index.types.map declaredKey := by decide +kernel
  have hmem := @ReferenceGraph.mem_candidates_iff namedIndex k false
  unfold ReferenceGraph.candidates at hmem
  rw [TypeKey.mem_toSet, hlist] at hmem
  simpa using hmem.symm

theorem namedIndex_mem_reachable_iff {k : TypeKey} :
    k ∈ (ReferenceGraph.ofIndex namedIndex).reachable ↔ k ∈ index.types.map declaredKey := by
  have hroots : ∀ r, r ∈ (ReferenceGraph.ofIndex namedIndex).roots ↔ r ∈ index.types.map declaredKey := by
    intro r
    rw [ReferenceGraph.mem_roots_of_no_entry namedIndex_no_entry, namedIndex_candidate_iff]
    simp [namedIndex_not_free]
  constructor
  . apply ReferenceGraph.mem_of_mem_reachable
    . intro r hr
      exact (hroots r).mp hr
    . decide +kernel
  . intro hk
    rw [← hroots] at hk
    exact ReferenceGraph.mem_reachable.mpr (ReferenceGraph.Reaches.of_mem hk)

theorem prune_namedIndex : namedIndex.prune = index := by
  have hrestrict : namedIndex.prune = namedIndex.restrict (index.types.map declaredKey) := by
    rw [Index.prune_eq]
    unfold Index.restrict
    simp only [List.contains_eq_mem, namedIndex_mem_reachable_iff]
  rw [hrestrict]
  decide

theorem prune_prune_namedIndex_ne :
    (∀ d ∈ namedIndex.types, d.2.entryPoint = false) ∧ namedIndex.prune.prune ≠ namedIndex.prune := by
  refine ⟨namedIndex_no_entry, ?_⟩
  rw [prune_namedIndex, ne_eq, Index.prune_eq_self_iff (by decide)]
  intro hall
  exact request_not_mem_reachable (hall ("exchange", request) (by decide))

end Exchange

end ApiSurface
