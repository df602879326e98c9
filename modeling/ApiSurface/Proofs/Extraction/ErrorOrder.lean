import ApiSurface.Proofs.Extraction.ErrorSearch
import ApiSurface.Python.Conventions

/-!
This module contains what the order of visits does to the error flags. The type that is visited first gets the right
flag, so the flag of a type is the same in all orders exactly if no order misses it. The types of a cycle can be
missed: two types that extend each other get different flags in different orders.
-/

namespace ApiSurface

open Text

theorem markErrorsInOrder_flags_agree_iff (c : Conventions) (nss : List Namespace)
    (imports : List (String × List Import)) (k : TypeKey) (hk : k ∈ typeKeys nss) :
    (∀ order, order.Perm (typeKeys nss) →
      markErrorsInOrder c nss imports order = setErrorFlags (errorFlag c nss imports order) nss ∧
      (errorFlag c nss imports order k = true → (Hierarchy.ofNamespaces nss imports).InheritsError c nss k) ∧
      ((Hierarchy.ofNamespaces nss imports).InheritsOffCycle c nss k → errorFlag c nss imports order k = true)) ∧
    ((∀ order order', order.Perm (typeKeys nss) → order'.Perm (typeKeys nss) →
        errorFlag c nss imports order k = errorFlag c nss imports order' k)
      ↔
     (∀ order, order.Perm (typeKeys nss) →
        (errorFlag c nss imports order k = true ↔ (Hierarchy.ofNamespaces nss imports).InheritsError c nss k))) := by
  refine ⟨?_, ?_, ?_⟩
  . intro order horder
    exact ⟨markErrorsInOrder_eq_setErrorFlags c nss imports order, inheritsError_of_errorFlag horder,
      errorFlag_of_inheritsOffCycle horder hk⟩
  . intro hagree order horder
    have hfirst : (k :: (typeKeys nss).erase k).Perm (typeKeys nss) := (List.perm_cons_erase hk).symm
    rw [hagree order _ horder hfirst]
    exact errorFlag_first hfirst
  . intro hright order order' horder horder'
    rw [Bool.eq_iff_iff, hright order horder, hright order' horder']

/--
Two errors that extend each other, one of which also extends a root of errors, and a third that extends this one.
-/
def retryErrors : List Namespace := [
  { name := "store", types := [
      { name := "Failure", kind := .classType, base := some "Retry", interfaces := ["Exception"] },
      { name := "Retry", kind := .classType, base := some "Failure" },
      { name := "Timeout", kind := .classType, base := some "Failure" }] }]

namespace retryErrors

def failure : TypeKey := ⟨"store", "Failure"⟩

def retry : TypeKey := ⟨"store", "Retry"⟩

def timeout : TypeKey := ⟨"store", "Timeout"⟩

def hierarchy : Hierarchy := Hierarchy.ofNamespaces retryErrors []

theorem typeKeys_eq : typeKeys retryErrors = [failure, retry, timeout] := by
  decide

theorem declaredErrors_eq : declaredErrors Python.conventions retryErrors = [] := by
  decide

@[simp]
theorem parentsOf_failure : ErrorSearch.parentsOf retryErrors failure = ["Retry", "Exception"] := by
  decide

@[simp]
theorem parentsOf_retry : ErrorSearch.parentsOf retryErrors retry = ["Failure"] := by
  decide

@[simp]
theorem parentsOf_timeout : ErrorSearch.parentsOf retryErrors timeout = ["Failure"] := by
  decide

@[simp]
theorem resolve_retry : hierarchy.resolve failure "Retry" = [retry] := by
  decide +kernel

@[simp]
theorem resolve_exception : hierarchy.resolve failure "Exception" = [] := by
  decide +kernel

@[simp]
theorem resolve_failure_of_retry : hierarchy.resolve retry "Failure" = [failure] := by
  decide +kernel

@[simp]
theorem resolve_failure_of_timeout : hierarchy.resolve timeout "Failure" = [failure] := by
  decide +kernel

@[simp]
theorem isErrorRoot_exception : Python.conventions.isErrorRoot (parentHead "Exception") = true := by
  decide +kernel

open ErrorSearch in
theorem visitAll_failure_first :
    visitAll Python.conventions hierarchy retryErrors 4 [failure, retry, timeout] []
      =
    [(timeout, true), (failure, true), (retry, false)] := by
  have hne : failure ≠ retry ∧ failure ≠ timeout ∧ retry ≠ timeout := by decide
  simp [visitAll, visit, visitParents, visitAny, hne, hne.1.symm]

open ErrorSearch in
theorem visitAll_retry_first :
    visitAll Python.conventions hierarchy retryErrors 4 [retry, failure, timeout] []
      =
    [(timeout, true), (retry, true), (failure, true)] := by
  have hne : failure ≠ retry ∧ failure ≠ timeout ∧ retry ≠ timeout := by decide
  simp [visitAll, visit, visitParents, visitAny, hne, hne.1.symm]

open ErrorSearch in
theorem markErrors_eq {order : List TypeKey} {known : List (TypeKey × Bool)} {flag : TypeKey → Bool}
    (hvisit : visitAll Python.conventions hierarchy retryErrors 4 order [] = known)
    (hflag : ∀ k ∈ [failure, retry, timeout], (answer? ⟨known, []⟩ k == some true) = flag k) :
    markErrorsInOrder Python.conventions retryErrors [] order = setErrorFlags flag retryErrors := by
  rw [markErrorsInOrder_eq_setErrorFlags]
  apply setErrorFlags_congr
  unfold errorFlag
  rw [declaredErrors_eq, typeKeys_eq]
  change ∀ k ∈ _, (answer? ⟨visitAll _ hierarchy _ 4 _ _, _⟩ k == _) = _
  rw [hvisit]
  exact hflag

theorem markErrors_failure_first :
    markErrorsInOrder Python.conventions retryErrors [] [failure, retry, timeout]
      =
    setErrorFlags (fun k => k != retry) retryErrors := by
  apply markErrors_eq visitAll_failure_first
  decide

theorem markErrors_retry_first :
    markErrorsInOrder Python.conventions retryErrors [] [retry, failure, timeout]
      =
    setErrorFlags (fun _ => true) retryErrors := by
  apply markErrors_eq visitAll_retry_first
  decide

theorem not_extends_timeout (k : TypeKey) : ¬ hierarchy.Extends retryErrors k timeout := by
  rintro ⟨parent, hparent, hp⟩
  obtain ⟨t, ht, hmem⟩ := ErrorSearch.exists_of_mem_parentsOf hparent
  have hnone : ∀ d ∈ declarations retryErrors, ∀ parent ∈ d.2.parents, timeout ∉ hierarchy.resolve d.1 parent := by
    decide +kernel
  exact hnone (k, t) ht parent hmem hp

theorem timeout_inheritsOffCycle : hierarchy.InheritsOffCycle Python.conventions retryErrors timeout := by
  refine ⟨failure, Relation.ReflTransGen.single ⟨⟨"Failure", by simp, by simp⟩, ?_⟩, ?_⟩
  . intro hcycle
    obtain ⟨k, -, hlast⟩ := Relation.TransGen.tail'_iff.mp hcycle
    exact not_extends_timeout k hlast
  . exact Or.inr ⟨"Exception", by simp, by simp, by simp⟩

end retryErrors

open retryErrors in
theorem retryErrors_timeout_flags :
    errorFlag Python.conventions retryErrors [] [failure, retry, timeout] timeout = true ∧
    errorFlag Python.conventions retryErrors [] [retry, failure, timeout] timeout = true := by
  have hkey : timeout ∈ typeKeys retryErrors := by
    rw [typeKeys_eq]
    decide
  obtain ⟨hflags, -⟩ := markErrorsInOrder_flags_agree_iff Python.conventions retryErrors [] timeout hkey
  constructor
  . exact (hflags _ (by rw [typeKeys_eq])).2.2 timeout_inheritsOffCycle
  . exact (hflags _ (by rw [typeKeys_eq]; exact List.Perm.swap _ _ _)).2.2 timeout_inheritsOffCycle

open retryErrors in
theorem retryErrors_flags_differ :
    [failure, retry, timeout].Perm (typeKeys retryErrors) ∧
    [retry, failure, timeout].Perm (typeKeys retryErrors) ∧
    markErrorsInOrder Python.conventions retryErrors [] [failure, retry, timeout]
      ≠ markErrorsInOrder Python.conventions retryErrors [] [retry, failure, timeout] := by
  rw [typeKeys_eq, markErrors_failure_first, markErrors_retry_first]
  exact ⟨List.Perm.refl _, List.Perm.swap _ _ _, by decide⟩

end ApiSurface
