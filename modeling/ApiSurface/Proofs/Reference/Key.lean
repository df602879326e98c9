import Mathlib.Data.List.Nodup
import Mathlib.Data.Prod.Lex
import Mathlib.Data.String.Basic
import ApiSurface.Distinct
import ApiSurface.Reference.Table

/-!
This module contains the theory of sorted lists of keys: the order of keys is linear, so a list of keys has
one sorted form, and a set of keys has one form as a list.
-/

namespace ApiSurface.TypeKey

/--
The key as a pair in lexicographic order.
-/
def lex (k : TypeKey) : String ×ₗ String :=
  toLex (k.namespace, k.name)

theorem lex_injective {a b : TypeKey} (h : a.lex = b.lex) : a = b := by
  cases a
  cases b
  simpa [lex] using h

theorem le_iff_lex_le {a b : TypeKey} : a.le b = true ↔ a.lex ≤ b.lex := by
  unfold le lex
  rw [Prod.Lex.toLex_le_toLex]
  split
  . next heq =>
    rw [beq_iff_eq] at heq
    simp [heq]
  . next hne =>
    rw [beq_iff_eq] at hne
    simp [hne, le_iff_lt_or_eq]

theorem le_trans (a b c : TypeKey) (hab : a.le b = true) (hbc : b.le c = true) : a.le c = true := by
  rw [le_iff_lex_le] at hab hbc ⊢
  exact hab.trans hbc

theorem le_total (a b : TypeKey) : (a.le b || b.le a) = true := by
  rw [Bool.or_eq_true, le_iff_lex_le, le_iff_lex_le]
  apply LinearOrder.le_total

theorem le_antisymm {a b : TypeKey} (hab : a.le b = true) (hba : b.le a = true) : a = b := by
  rw [le_iff_lex_le] at hab hba
  apply lex_injective
  exact hab.antisymm hba

theorem sort_perm (keys : List TypeKey) : (sort keys).Perm keys := by
  apply List.mergeSort_perm

theorem pairwise_sort (keys : List TypeKey) : (sort keys).Pairwise (fun a b => a.le b = true) := by
  apply List.pairwise_mergeSort le_trans le_total

@[simp]
theorem mem_sort {keys : List TypeKey} {k : TypeKey} : k ∈ sort keys ↔ k ∈ keys := by
  apply (sort_perm keys).mem_iff

@[simp]
theorem nodup_sort {keys : List TypeKey} : (sort keys).Nodup ↔ keys.Nodup := by
  apply (sort_perm keys).nodup_iff

@[simp]
theorem isEmpty_sort (keys : List TypeKey) : (sort keys).isEmpty = keys.isEmpty := by
  cases keys with
  | nil => simp [sort]
  | cons k keys =>
    have : k ∈ sort (k :: keys) := by simp
    rw [List.isEmpty_cons, List.isEmpty_eq_false_iff]
    exact List.ne_nil_of_mem this

theorem sort_eq_of_perm {xs ys : List TypeKey} (h : xs.Perm ys) : sort xs = sort ys := by
  have hperm : (sort xs).Perm (sort ys) := (sort_perm xs).trans (h.trans (sort_perm ys).symm)
  apply hperm.eq_of_pairwise
  . intro a b _ _
    exact le_antisymm
  . apply pairwise_sort
  . apply pairwise_sort

theorem sort_eq_of_mem_iff {xs ys : List TypeKey} (hxs : xs.Nodup) (hys : ys.Nodup)
    (h : ∀ k, k ∈ xs ↔ k ∈ ys) : sort xs = sort ys := by
  apply sort_eq_of_perm
  exact (List.perm_ext_iff_of_nodup hxs hys).mpr h

theorem sort_filter (p : TypeKey → Bool) (keys : List TypeKey) : sort (keys.filter p) = (sort keys).filter p := by
  have hperm : (sort (keys.filter p)).Perm ((sort keys).filter p) :=
    (sort_perm _).trans ((sort_perm keys).symm.filter p)
  apply hperm.eq_of_pairwise
  . intro a b _ _
    exact le_antisymm
  . apply pairwise_sort
  . apply (pairwise_sort keys).filter

@[simp]
theorem mem_toSet {keys : List TypeKey} {k : TypeKey} : k ∈ toSet keys ↔ k ∈ keys := by
  simp [toSet, List.mem_eraseDups]

theorem toSet_eq_of_mem_iff {xs ys : List TypeKey} (h : ∀ k, k ∈ xs ↔ k ∈ ys) : toSet xs = toSet ys := by
  apply sort_eq_of_mem_iff
  . apply Distinct.nodup_eraseDups
  . apply Distinct.nodup_eraseDups
  . intro k
    rw [List.mem_eraseDups, List.mem_eraseDups, h]

theorem toSet_filter (p : TypeKey → Bool) (keys : List TypeKey) :
    toSet (keys.filter p) = (toSet keys).filter p := by
  unfold toSet
  rw [← sort_filter]
  apply sort_eq_of_mem_iff
  . apply Distinct.nodup_eraseDups
  . apply (Distinct.nodup_eraseDups keys).filter
  . intro k
    simp [List.mem_eraseDups]

end ApiSurface.TypeKey
