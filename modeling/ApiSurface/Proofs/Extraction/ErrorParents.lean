import ApiSurface.Java.Conventions
import ApiSurface.Proofs.Extraction.ErrorSearch
import ApiSurface.Python.Conventions

/-!
This module contains what a parent that is a root of error types does for the type that declares it. The roots of
both languages are plain names, so the lookup of one finds only types of its innermost name. A type with such a
parent is therefore marked unless a declared type of that name captures the parent. The declaring type itself can be
the one: a `TimeoutError` that extends `builtins.TimeoutError` is not marked.
-/

namespace ApiSurface

open Text

/--
What the names of error roots are put together from.
-/
def rootParts : List String :=
  Python.builtinExceptions ++ Java.throwables ++ Java.throwablePackages ++ ["builtins.", "."]

theorem isPlain_of_mem_rootParts {part : String} (h : part ∈ rootParts) : IsPlain part := by
  have hall : rootParts.all isVisibleAscii = true := by decide +kernel
  exact isPlain_of_isVisibleAscii (List.all_eq_true.mp hall part h)

theorem Python.isPlain_of_isErrorRoot {head : String} (h : Python.conventions.isErrorRoot head = true) :
    IsPlain head := by
  have hmem : builtinName head ∈ builtinExceptions := List.contains_iff_mem.mp h
  have hname : IsPlain (builtinName head) := isPlain_of_mem_rootParts (by simp [rootParts, hmem])
  unfold builtinName at hname
  split at hname
  . next hstart =>
    obtain ⟨name, hhead⟩ := String.startsWith_string_iff.mp hstart
    have hqualified : head = "builtins." ++ (head.drop 9).toString := by
      rw [← String.toList_inj, String.toList_append, ← hhead]
      simp [← hhead]
    have hmodule : IsPlain "builtins." := isPlain_of_mem_rootParts (by simp [rootParts])
    rw [hqualified]
    exact hmodule.append hname
  . exact hname

theorem Java.isPlain_of_isErrorRoot {head : String} (h : Java.conventions.isErrorRoot head = true) : IsPlain head := by
  change isThrowable head = true at h
  unfold isThrowable at h
  split at h
  . next package simple hsplit =>
    rw [Bool.and_eq_true, List.contains_iff_mem, List.contains_iff_mem] at h
    have hpackage : IsPlain package := isPlain_of_mem_rootParts (by simp [rootParts, h.2])
    have hdot : IsPlain "." := isPlain_of_mem_rootParts (by simp [rootParts])
    have hsimple : IsPlain simple := isPlain_of_mem_rootParts (by simp [rootParts, h.1])
    rw [mem_qualifierSplits.mp (List.mem_of_mem_head? hsplit)]
    exact (hpackage.append hdot).append hsimple
  . have hmem : head ∈ throwables := List.contains_iff_mem.mp h
    exact isPlain_of_mem_rootParts (by simp [rootParts, hmem])

namespace Hierarchy

variable {c : Conventions} {h : Hierarchy} {nss : List Namespace} {imports : List (String × List Import)}
  {k p : TypeKey} {parent : String}

theorem imported?_eq_none {ns head : String}
    (himport : ∀ e ∈ h.imports, e.1 = ns → ∀ i ∈ e.2, i.local ≠ firstSegment head) : h.imported? ns head = none := by
  have hnone : h.importFor? ns head = none := by
    unfold importFor?
    split
    . rfl
    . next hfind =>
      rw [List.find?_eq_none]
      intro i hi hlocal
      have hns := List.find?_some hfind
      exact himport _ (List.mem_of_find?_eq_some hfind) (beq_iff_eq.mp hns) i hi (beq_iff_eq.mp hlocal)
  unfold imported?
  rw [hnone]

theorem lastSegment_of_mem_resolve (hplain : IsPlain (parentHead parent))
    (himport : ∀ e ∈ imports, e.1 = k.namespace → ∀ i ∈ e.2, i.local ≠ firstSegment (parentHead parent))
    (hp : p ∈ (ofNamespaces nss imports).resolve k parent) :
    lastSegment p.name = lastSegment (parentHead parent) := by
  unfold resolve at hp
  dsimp only at hp
  rw [imported?_eq_none himport] at hp
  dsimp only [TypeTable.resolve] at hp
  rw [TypeTable.normalize_of_isPlain hplain] at hp
  exact TypeTable.lastSegment_of_mem_resolveName (TypeTable.wellFormed_ofNamespaces nss) hplain hp

theorem not_inheritsError_of_resolve_self (htype : ∀ t, (k, t) ∈ declarations nss → c.isErrorType t = false)
    (hself : ∀ parent ∈ ErrorSearch.parentsOf nss k, h.resolve k parent = [k]) : ¬ h.InheritsError c nss k := by
  have hstay : ∀ s, Relation.ReflTransGen (h.Extends nss) k s → s = k := by
    intro s hchain
    induction hchain with
    | refl => rfl
    | tail _ hstep ih =>
      obtain ⟨parent, hparent, hp⟩ := ih ▸ hstep
      rw [hself parent hparent] at hp
      exact List.mem_singleton.mp hp
  rintro ⟨s, hchain, hs⟩
  rw [hstay s hchain] at hs
  rcases hs with ⟨t, ht, herror⟩ | ⟨parent, hparent, hnone, -⟩
  . rw [htype t ht] at herror
    simp at herror
  . rw [hself parent hparent] at hnone
    simp at hnone

end Hierarchy

theorem errorRoot_marks_unless_captured (c : Conventions) (hc : c = Python.conventions ∨ c = Java.conventions)
    (nss : List Namespace) (imports : List (String × List Import)) (k : TypeKey) (parent : String)
    (hparent : parent ∈ ErrorSearch.parentsOf nss k) (hroot : c.isErrorRoot (parentHead parent) = true)
    (himport : ∀ e ∈ imports, e.1 = k.namespace → ∀ i ∈ e.2, i.local ≠ firstSegment (parentHead parent))
    (order : List TypeKey) (horder : order.Perm (typeKeys nss)) :
    markErrorsInOrder c nss imports order = setErrorFlags (errorFlag c nss imports order) nss ∧
    ((∀ p ∈ typeKeys nss, lastSegment p.name ≠ lastSegment (parentHead parent)) →
      errorFlag c nss imports order k = true) ∧
    (errorFlag c nss imports order k = false →
      (Hierarchy.ofNamespaces nss imports).resolve k parent ≠ [] ∧
      ∀ p ∈ (Hierarchy.ofNamespaces nss imports).resolve k parent,
        p ∈ typeKeys nss ∧
        lastSegment p.name = lastSegment (parentHead parent) ∧
        ((Hierarchy.ofNamespaces nss imports).InheritsOffCycle c nss p →
          Relation.TransGen ((Hierarchy.ofNamespaces nss imports).Extends nss) k k)) := by
  have hplain : IsPlain (parentHead parent) := by
    rcases hc with rfl | rfl
    . exact Python.isPlain_of_isErrorRoot hroot
    . exact Java.isPlain_of_isErrorRoot hroot
  have hk : k ∈ typeKeys nss := by
    obtain ⟨t, ht, -⟩ := ErrorSearch.exists_of_mem_parentsOf hparent
    exact mem_typeKeys.mpr ⟨t, ht⟩
  have hunmarked : errorFlag c nss imports order k = false →
      ¬ (Hierarchy.ofNamespaces nss imports).InheritsOffCycle c nss k := by
    intro hflag hoff
    rw [errorFlag_of_inheritsOffCycle horder hk hoff] at hflag
    simp at hflag
  have hcaptured : errorFlag c nss imports order k = false →
      (Hierarchy.ofNamespaces nss imports).resolve k parent ≠ [] := by
    intro hflag hnone
    exact hunmarked hflag ⟨k, Relation.ReflTransGen.refl, Or.inr ⟨parent, hparent, hnone, hroot⟩⟩
  refine ⟨markErrorsInOrder_eq_setErrorFlags c nss imports order, ?_, ?_⟩
  . intro hfree
    by_contra hflag
    obtain ⟨p, hp⟩ := List.exists_mem_of_ne_nil _ (hcaptured (Bool.eq_false_iff.mpr hflag))
    exact hfree p (Hierarchy.mem_typeKeys_of_mem_resolve hp) (Hierarchy.lastSegment_of_mem_resolve hplain himport hp)
  . intro hflag
    refine ⟨hcaptured hflag, fun p hp => ⟨Hierarchy.mem_typeKeys_of_mem_resolve hp,
      Hierarchy.lastSegment_of_mem_resolve hplain himport hp, ?_⟩⟩
    intro herror
    by_contra hcycle
    exact hunmarked hflag (Hierarchy.InheritsOffCycle.of_extends ⟨⟨parent, hparent, hp⟩, hcycle⟩ herror)

/--
A module with one type of this name, whose parent is an error of the language.
-/
def timeoutModule (name : String) : List Namespace :=
  [{ name := "net", types := [{ name := name, kind := .classType, base := some "builtins.TimeoutError" }] }]

theorem timeoutModule_requestTimeout_marked :
    "builtins.TimeoutError" ∈ ErrorSearch.parentsOf (timeoutModule "RequestTimeout") ⟨"net", "RequestTimeout"⟩ ∧
    Python.conventions.isErrorRoot (parentHead "builtins.TimeoutError") = true ∧
    errorFlag Python.conventions (timeoutModule "RequestTimeout") [] (typeKeys (timeoutModule "RequestTimeout"))
      ⟨"net", "RequestTimeout"⟩ = true := by
  have hparent : "builtins.TimeoutError" ∈
      ErrorSearch.parentsOf (timeoutModule "RequestTimeout") ⟨"net", "RequestTimeout"⟩ := by
    decide
  have hroot : Python.conventions.isErrorRoot (parentHead "builtins.TimeoutError") = true := by
    decide +kernel
  obtain ⟨-, hmarked, -⟩ := errorRoot_marks_unless_captured Python.conventions (Or.inl rfl) _ [] _ _ hparent hroot
    (by simp) _ (List.Perm.refl _)
  exact ⟨hparent, hroot, hmarked (by decide +kernel)⟩

theorem timeoutModule_timeoutError_not_marked :
    "builtins.TimeoutError" ∈ ErrorSearch.parentsOf (timeoutModule "TimeoutError") ⟨"net", "TimeoutError"⟩ ∧
    Python.conventions.isErrorRoot (parentHead "builtins.TimeoutError") = true ∧
    (∀ run, IsQualifierRun run (parentHead "builtins.TimeoutError") →
      ∀ ns ∈ timeoutModule "TimeoutError", TypeTable.denotes run ns.name = false) ∧
    markErrors Python.conventions (timeoutModule "TimeoutError") []
      =
    setErrorFlags (fun _ => false) (timeoutModule "TimeoutError") := by
  refine ⟨by decide, by decide +kernel, ?_, ?_⟩
  . intro run hrun
    have hall : ∀ run ∈ qualifierRuns (parentHead "builtins.TimeoutError"),
        ∀ ns ∈ timeoutModule "TimeoutError", TypeTable.denotes run ns.name = false := by
      decide +kernel
    exact hall run (mem_qualifierRuns.mpr hrun)
  . unfold markErrors
    rw [markErrorsInOrder_eq_setErrorFlags]
    apply setErrorFlags_congr
    intro k hk
    have hself : k = ⟨"net", "TimeoutError"⟩ := by
      have : typeKeys (timeoutModule "TimeoutError") = [⟨"net", "TimeoutError"⟩] := by decide
      rw [this] at hk
      exact List.mem_singleton.mp hk
    rw [hself, Bool.eq_false_iff]
    intro hflag
    refine Hierarchy.not_inheritsError_of_resolve_self (fun _ _ => rfl) ?_
      (inheritsError_of_errorFlag (List.Perm.refl _) hflag)
    decide +kernel

end ApiSurface
