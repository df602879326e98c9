import Mathlib.Data.List.Nodup
import ApiSurface.Proofs.Extraction.ErrorSearch
import ApiSurface.Python.Conventions

/-!
This module contains the theory of the search for error types. Where no type is above itself, a type gets the
error flag exactly if some chain of parents leads from it to an error, in whatever order the types are visited:
every answer that the search remembers is right.
-/

namespace ApiSurface

open Text

/--
One of the parents that the type `k` declares denotes the local type `p`.
-/
def Hierarchy.ParentStep (h : Hierarchy) (nss : List Namespace) (k p : TypeKey) : Prop :=
  ∃ t, (k, t) ∈ declarations nss ∧ ∃ parent ∈ t.parents, p ∈ h.resolve k parent

/--
The type `k` is an error without regard to other types of the tree.
-/
def Hierarchy.ErrorSource (c : Conventions) (h : Hierarchy) (nss : List Namespace) (k : TypeKey) : Prop :=
  ∃ t, (k, t) ∈ declarations nss ∧ (c.isErrorType t = true ∨ ∃ parent ∈ t.parents, ErrorParent c h k parent)

/--
A chain of local parents leads from `k` to an error.
-/
def Hierarchy.LeadsToError (c : Conventions) (h : Hierarchy) (nss : List Namespace) (k : TypeKey) : Prop :=
  ∃ s, Relation.ReflTransGen (h.ParentStep nss) k s ∧ ErrorSource c h nss s

/--
A hierarchy of distinct types in which no type is above itself.
-/
structure Hierarchy.Acyclic (h : Hierarchy) (nss : List Namespace) : Prop where
  distinct : ((declarations nss).map (·.1)).Nodup
  resolve_declared : ∀ k parent, ∀ p ∈ h.resolve k parent, p ∈ typeKeys nss
  no_cycle : ∀ k, ¬ Relation.TransGen (h.ParentStep nss) k k

theorem Hierarchy.no_cycle_of_rank {h : Hierarchy} {nss : List Namespace} (rank : TypeKey → Nat)
    (hrank : ∀ d ∈ declarations nss, ∀ parent ∈ d.2.parents, ∀ p ∈ h.resolve d.1 parent, rank p < rank d.1)
    (k : TypeKey) : ¬ Relation.TransGen (h.ParentStep nss) k k := by
  have hdown : ∀ {a b}, Relation.TransGen (h.ParentStep nss) a b → rank b < rank a := by
    intro a b hpath
    induction hpath with
    | single hstep =>
      obtain ⟨t, ht, parent, hparent, hp⟩ := hstep
      exact hrank _ ht parent hparent _ hp
    | tail _ hstep ih =>
      obtain ⟨t, ht, parent, hparent, hp⟩ := hstep
      exact Nat.lt_trans (hrank _ ht parent hparent _ hp) ih
  intro hcycle
  exact Nat.lt_irrefl _ (hdown hcycle)

theorem ErrorSearch.parentsOf_eq {nss : List Namespace} (hdistinct : ((declarations nss).map (·.1)).Nodup) {k : TypeKey}
    {t : TypeEntry} (ht : (k, t) ∈ declarations nss) : parentsOf nss k = t.parents := by
  -- a key has one declaration, so the last one is this one
  have hall : ∀ ps ∈ (declarations nss).filterMap (fun d => if k == d.1 then some d.2.parents else none),
      ps = t.parents := by
    intro ps hps
    simp only [List.mem_filterMap, Option.ite_none_right_eq_some, beq_iff_eq, Option.some.injEq] at hps
    obtain ⟨d, hd, hk, rfl⟩ := hps
    rw [List.inj_on_of_nodup_map hdistinct hd ht hk.symm]
  have hmem : t.parents ∈ (declarations nss).filterMap (fun d => if k == d.1 then some d.2.parents else none) := by
    rw [List.mem_filterMap]
    exact ⟨(k, t), ht, by simp⟩
  rw [parentsOf_eq_getLast, List.getLast?_eq_some_getLast (List.ne_nil_of_mem hmem), Option.getD_some]
  exact hall _ (List.getLast_mem _)

section Distinct

variable {c : Conventions} {h : Hierarchy} {nss : List Namespace} {k : TypeKey}

theorem Hierarchy.extends_eq_parentStep (hdistinct : ((declarations nss).map (·.1)).Nodup) :
    h.Extends nss = h.ParentStep nss := by
  funext k p
  apply propext
  constructor
  . rintro ⟨parent, hparent, hp⟩
    obtain ⟨t, ht, hmem⟩ := ErrorSearch.exists_of_mem_parentsOf hparent
    exact ⟨t, ht, parent, hmem, hp⟩
  . rintro ⟨t, ht, parent, hparent, hp⟩
    exact ⟨parent, ErrorSearch.parentsOf_eq hdistinct ht ▸ hparent, hp⟩

theorem Hierarchy.ownError_iff_errorSource (hdistinct : ((declarations nss).map (·.1)).Nodup) :
    h.OwnError c nss k ↔ h.ErrorSource c nss k := by
  constructor
  . rintro (⟨t, ht, htype⟩ | ⟨parent, hparent, hroot⟩)
    . exact ⟨t, ht, Or.inl htype⟩
    . obtain ⟨t, ht, hmem⟩ := ErrorSearch.exists_of_mem_parentsOf hparent
      exact ⟨t, ht, Or.inr ⟨parent, hmem, hroot⟩⟩
  . rintro ⟨t, ht, htype | ⟨parent, hparent, hroot⟩⟩
    . exact Or.inl ⟨t, ht, htype⟩
    . exact Or.inr ⟨parent, ErrorSearch.parentsOf_eq hdistinct ht ▸ hparent, hroot⟩

theorem Hierarchy.inheritsError_iff_leadsToError (hdistinct : ((declarations nss).map (·.1)).Nodup) :
    h.InheritsError c nss k ↔ h.LeadsToError c nss k := by
  unfold InheritsError LeadsToError
  simp only [extends_eq_parentStep hdistinct, ownError_iff_errorSource hdistinct]

theorem Hierarchy.Acyclic.inheritsOffCycle (hacyclic : h.Acyclic nss) (hk : h.InheritsError c nss k) :
    h.InheritsOffCycle c nss k := by
  have hrel : h.ExtendsOffCycle nss = h.Extends nss := by
    funext a b
    apply propext
    apply and_iff_left
    rw [extends_eq_parentStep hacyclic.distinct]
    apply hacyclic.no_cycle
  unfold InheritsOffCycle
  rw [hrel]
  exact hk

end Distinct

theorem markErrorsInOrder_of_acyclic {c : Conventions} {nss : List Namespace} {imports : List (String × List Import)}
    (hacyclic : (Hierarchy.ofNamespaces nss imports).Acyclic nss) {order : List TypeKey}
    (horder : order.Perm (typeKeys nss)) {flag : TypeKey → Bool}
    (hflag : ∀ k, flag k = true ↔ (Hierarchy.ofNamespaces nss imports).LeadsToError c nss k) :
    markErrorsInOrder c nss imports order = setErrorFlags flag nss := by
  rw [markErrorsInOrder_eq_setErrorFlags]
  apply setErrorFlags_congr
  intro k hk
  rw [Bool.eq_iff_iff, hflag, ← Hierarchy.inheritsError_iff_leadsToError hacyclic.distinct]
  constructor
  . apply inheritsError_of_errorFlag horder
  . intro herror
    exact errorFlag_of_inheritsOffCycle horder hk (hacyclic.inheritsOffCycle herror)

theorem markErrors_iff_leadsToError (c : Conventions) (nss : List Namespace) (imports : List (String × List Import))
    (hdistinct : (TypeTable.ofNamespaces nss).keys.Nodup)
    (hacyclic : ∀ k, ¬ Relation.TransGen ((Hierarchy.ofNamespaces nss imports).ParentStep nss) k k) :
    ∃ flag : TypeKey → Bool,
      (∀ k, flag k = true ↔
        ∃ s, Relation.ReflTransGen ((Hierarchy.ofNamespaces nss imports).ParentStep nss) k s ∧
          (Hierarchy.ofNamespaces nss imports).ErrorSource c nss s) ∧
      markErrors c nss imports = setErrorFlags flag nss ∧
      ∀ order, order.Perm (typeKeys nss) → markErrorsInOrder c nss imports order = setErrorFlags flag nss := by
  classical
  have hproper : (Hierarchy.ofNamespaces nss imports).Acyclic nss :=
    ⟨keys_ofNamespaces_eq nss ▸ hdistinct, fun _ _ _ => Hierarchy.mem_typeKeys_of_mem_resolve, hacyclic⟩
  refine ⟨fun k => decide ((Hierarchy.ofNamespaces nss imports).LeadsToError c nss k), ?_, ?_, ?_⟩
  . intro k
    exact decide_eq_true_iff
  . exact markErrorsInOrder_of_acyclic hproper (List.Perm.refl _) (fun k => decide_eq_true_iff)
  . intro order horder
    exact markErrorsInOrder_of_acyclic hproper horder (fun k => decide_eq_true_iff)

/--
An error of one namespace and a type of another that extends it.
-/
def storeErrors : List Namespace := [
  { name := "store.client", types := [
      { name := "Client", kind := .classType },
      { name := "Timeout", kind := .classType, base := some "StoreError", interfaces := ["Sized"] }] },
  { name := "store.errors", types := [{ name := "StoreError", kind := .classType, base := some "Exception" }] }]

/--
The import through which the second is found.
-/
def storeImports : List (String × List Import) :=
  [("store.client", [{ «local» := "StoreError", package := "store.errors", name := some "StoreError" }])]

theorem storeErrors_timeout_marked :
    ∃ flag : TypeKey → Bool, flag ⟨"store.client", "Timeout"⟩ = true ∧
      markErrors Python.conventions storeErrors storeImports = setErrorFlags flag storeErrors := by
  have hacyclic : ∀ k,
      ¬ Relation.TransGen ((Hierarchy.ofNamespaces storeErrors storeImports).ParentStep storeErrors) k k :=
    Hierarchy.no_cycle_of_rank (fun k => if k.name = "Timeout" then 1 else 0) (by decide +kernel)
  obtain ⟨flag, hflag, hmark, -⟩ :=
    markErrors_iff_leadsToError Python.conventions storeErrors storeImports (by decide) hacyclic
  refine ⟨flag, (hflag _).mpr ⟨⟨"store.errors", "StoreError"⟩, Relation.ReflTransGen.single ?_, ?_⟩, hmark⟩
  . exact ⟨{ name := "Timeout", kind := .classType, base := some "StoreError", interfaces := ["Sized"] },
      by decide, "StoreError", by decide, by decide +kernel⟩
  . exact ⟨{ name := "StoreError", kind := .classType, base := some "Exception" },
      by decide, Or.inr ⟨"Exception", by decide, by decide +kernel, by decide +kernel⟩⟩

end ApiSurface
