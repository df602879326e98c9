import Mathlib.Data.List.Nodup
import Mathlib.Data.List.Perm.Basic
import Mathlib.Data.String.Basic
import Mathlib.Order.Defs.LinearOrder
import ApiSurface.Distinct

/-!
This module contains facts about lists that the theories of this library share. Sorting is stable, so a sorted list
is fixed by the order among the elements of each key alone; if no two elements share a key, it is fixed by which
elements there are. A loop that remembers the keys it has seen keeps each key at the place where it occurs first.
-/

namespace ApiSurface

theorem flatMap_filter_of_nil {f : α → List β} {p : α → Bool} {xs : List α} (h : ∀ x ∈ xs, p x = false → f x = []) :
    (xs.filter p).flatMap f = xs.flatMap f := by
  induction xs with
  | nil => rfl
  | cons x xs ih =>
    rw [List.flatMap_cons, ← ih (fun y hy => h y (List.mem_cons_of_mem x hy))]
    cases hp : p x with
    | true => simp [hp]
    | false => simp [hp, h x List.mem_cons_self hp]

theorem eraseDups_perm [BEq α] [LawfulBEq α] {xs ys : List α} (h : xs.Perm ys) : xs.eraseDups.Perm ys.eraseDups := by
  rw [List.perm_ext_iff_of_nodup (Distinct.nodup_eraseDups xs) (Distinct.nodup_eraseDups ys)]
  intro a
  rw [List.mem_eraseDups, List.mem_eraseDups, h.mem_iff]

theorem append_cons_inj {sep : α} {p q r s : List α} (hp : sep ∉ p) (hq : sep ∉ q)
    (h : p ++ sep :: r = q ++ sep :: s) : p = q ∧ r = s := by
  induction p generalizing q with
  | nil =>
    cases q with
    | nil => exact ⟨rfl, (List.cons.inj h).2⟩
    | cons b q =>
      obtain ⟨rfl, -⟩ := List.cons.inj h
      exact absurd List.mem_cons_self hq
  | cons a p ih =>
    cases q with
    | nil =>
      obtain ⟨rfl, -⟩ := List.cons.inj h
      exact absurd List.mem_cons_self hp
    | cons b q =>
      obtain ⟨rfl, hrest⟩ := List.cons.inj h
      rw [List.mem_cons, not_or] at hp hq
      obtain ⟨rfl, rfl⟩ := ih hp.2 hq.2 hrest
      exact ⟨rfl, rfl⟩

theorem eq_of_map_eq {f : α → β} {l l' : List α} (h : l.map f = l'.map f)
    (hinj : ∀ a ∈ l, ∀ b ∈ l', f a = f b → a = b) : l = l' := by
  induction l generalizing l' with
  | nil => exact (List.map_eq_nil_iff.1 h.symm).symm
  | cons a rest ih =>
    cases l' with
    | nil => simp at h
    | cons b rest' =>
      rw [List.map_cons, List.map_cons, List.cons.injEq] at h
      rw [hinj a List.mem_cons_self b List.mem_cons_self h.1]
      congr 1
      apply ih h.2
      intro x hx y hy
      exact hinj x (List.mem_cons_of_mem a hx) y (List.mem_cons_of_mem b hy)

theorem pairwise_zipIdx (l : List α) : l.zipIdx.Pairwise (fun x y => x.2 < y.2) := by
  have hrange : (l.zipIdx.map Prod.snd).Pairwise (· < ·) := by
    rw [List.zipIdx_map_snd]
    exact List.pairwise_lt_range' 1
  exact List.pairwise_map.1 hrange

/--
The order compares keys that are linearly ordered.
-/
structure SortsBy [LinearOrder κ] (le : α → α → Bool) (key : α → κ) : Prop where
  le_iff : ∀ a b, le a b = true ↔ key a ≤ key b

namespace SortsBy

variable [LinearOrder κ] {le : α → α → Bool} {key : α → κ} (h : SortsBy le key)

include h

theorem le_trans (a b c : α) (hab : le a b = true) (hbc : le b c = true) : le a c = true := by
  rw [h.le_iff] at hab hbc ⊢
  exact hab.trans hbc

theorem le_total (a b : α) : (le a b || le b a) = true := by
  rw [Bool.or_eq_true, h.le_iff, h.le_iff]
  apply LinearOrder.le_total

theorem pairwise_mergeSort (xs : List α) : (xs.mergeSort le).Pairwise (fun a b => key a ≤ key b) := by
  have hsorted := List.pairwise_mergeSort h.le_trans h.le_total xs
  apply hsorted.imp
  intro a b hab
  exact (h.le_iff a b).mp hab

theorem pairwise_lt_mergeSort {xs : List α} (hdistinct : (xs.map key).Nodup) :
    (xs.mergeSort le).Pairwise (fun a b => key a < key b) := by
  have hsorted : ((xs.mergeSort le).map key).Nodup := ((List.mergeSort_perm xs le).map key).nodup_iff.mpr hdistinct
  rw [List.Nodup, List.pairwise_map] at hsorted
  apply ((h.pairwise_mergeSort xs).and hsorted).imp
  rintro a b ⟨hle, hne⟩
  exact lt_of_le_of_ne hle hne

theorem filter_mergeSort (xs : List α) (k : κ) :
    (xs.mergeSort le).filter (fun x => decide (key x = k)) = xs.filter (fun x => decide (key x = k)) := by
  have hclass : (xs.filter (fun x => decide (key x = k))).Pairwise (fun a b => le a b = true) := by
    rw [List.pairwise_filter]
    apply List.pairwise_of_forall
    intro a b ha hb
    rw [decide_eq_true_iff] at ha hb
    rw [h.le_iff, ha, hb]
  -- elements of one key are in order already, so sorting keeps them as a part of the list
  have hkept := List.sublist_mergeSort h.le_trans h.le_total hclass List.filter_sublist
  have hsub := hkept.filter (fun x => decide (key x = k))
  rw [List.filter_filter] at hsub
  simp only [Bool.and_self] at hsub
  have hlength := ((List.mergeSort_perm xs le).filter (fun x => decide (key x = k))).length_eq
  exact (hsub.eq_of_length hlength.symm).symm

omit h in
theorem mem_iff_of_filter_eq {xs ys : List α}
    (heq : ∀ k, xs.filter (fun x => decide (key x = k)) = ys.filter (fun x => decide (key x = k))) (z : α) :
    z ∈ xs ↔ z ∈ ys := by
  have hclass := congrArg (z ∈ ·) (heq (key z))
  simpa [List.mem_filter] using hclass

omit h in
theorem key_head_le {x y : α} {xs : List α} (hxs : (x :: xs).Pairwise (fun a b => key a ≤ key b))
    (hy : y ∈ x :: xs) : key x ≤ key y := by
  rw [List.mem_cons] at hy
  cases hy with
  | inl hy => rw [hy]
  | inr hy => exact List.rel_of_pairwise_cons hxs hy

omit h in
theorem eq_of_filter_eq {xs ys : List α} (hxs : xs.Pairwise (fun a b => key a ≤ key b))
    (hys : ys.Pairwise (fun a b => key a ≤ key b))
    (heq : ∀ k, xs.filter (fun x => decide (key x = k)) = ys.filter (fun x => decide (key x = k))) : xs = ys := by
  have hmem := mem_iff_of_filter_eq heq
  induction xs generalizing ys with
  | nil =>
    symm
    rw [List.eq_nil_iff_forall_not_mem]
    intro y hy
    simpa using (hmem y).mpr hy
  | cons x xs ih =>
    cases ys with
    | nil => simpa using (hmem x).mp List.mem_cons_self
    | cons y ys =>
      -- each head is the least of its list, and the lists have the same elements
      have hle := key_head_le hxs ((hmem y).mpr List.mem_cons_self)
      have hge := key_head_le hys ((hmem x).mp List.mem_cons_self)
      have hfirst := heq (key x)
      simp only [List.filter_cons, hle.antisymm hge, decide_true, ↓reduceIte, List.cons.injEq] at hfirst
      obtain ⟨rfl, -⟩ := hfirst
      have hrest : ∀ k, xs.filter (fun z => decide (key z = k)) = ys.filter (fun z => decide (key z = k)) := by
        intro k
        have hk := heq k
        simp only [List.filter_cons] at hk
        split at hk
        . exact List.cons.inj hk |>.2
        . exact hk
      rw [ih hxs.of_cons hys.of_cons hrest (mem_iff_of_filter_eq hrest)]

theorem mergeSort_eq_of_filter_eq {xs ys : List α}
    (heq : ∀ k, xs.filter (fun x => decide (key x = k)) = ys.filter (fun x => decide (key x = k))) :
    xs.mergeSort le = ys.mergeSort le := by
  apply eq_of_filter_eq (h.pairwise_mergeSort xs) (h.pairwise_mergeSort ys)
  intro k
  rw [h.filter_mergeSort, h.filter_mergeSort, heq]

theorem mergeSort_eq_of_perm {xs ys : List α} (hperm : xs.Perm ys)
    (hinj : ∀ a ∈ xs, ∀ b ∈ xs, key a = key b → a = b) : xs.mergeSort le = ys.mergeSort le := by
  have hsorted : (xs.mergeSort le).Perm (ys.mergeSort le) :=
    (List.mergeSort_perm xs le).trans (hperm.trans (List.mergeSort_perm ys le).symm)
  refine hsorted.eq_of_pairwise ?_ (h.pairwise_mergeSort xs) (h.pairwise_mergeSort ys)
  intro a b ha hb hab hba
  rw [List.mem_mergeSort] at ha hb
  exact hinj a ha b (hperm.mem_iff.mpr hb) (hab.antisymm hba)

end SortsBy

theorem sortsBy_name : SortsBy (fun a b : String => decide (a ≤ b)) id :=
  ⟨fun _ _ => decide_eq_true_iff⟩

/--
Names that are sorted once each are strictly increasing.
-/
theorem pairwise_lt_sorted_names (names : List String) :
    (names.eraseDups.mergeSort (fun a b => decide (a ≤ b))).Pairwise (· < ·) := by
  apply sortsBy_name.pairwise_lt_mergeSort
  rw [List.map_id]
  exact Distinct.nodup_eraseDups names

/--
The elements whose key is neither in `seen` nor that of an earlier element.
-/
def keepUnseen [BEq κ] (key : α → κ) (seen : List κ) : List α → List α
  | [] => []
  | x :: xs => if seen.contains (key x) then keepUnseen key seen xs else x :: keepUnseen key (key x :: seen) xs

/--
The elements at those places of a list where no earlier place has the same key.
-/
def firstOfEach [BEq κ] (key : α → κ) (xs : List α) : List α :=
  (xs.zipIdx.filter (fun (x, place) => (xs.take place).all (fun earlier => key earlier != key x))).map (·.1)

section KeepUnseen

variable [BEq κ] [LawfulBEq κ] {key : α → κ} {seen seen' : List κ}

theorem keepUnseen_cons_of_mem {x : α} (h : key x ∈ seen) (xs : List α) :
    keepUnseen key seen (x :: xs) = keepUnseen key seen xs := by
  rw [keepUnseen, if_pos]
  rwa [List.contains_iff_mem]

theorem keepUnseen_cons_of_not_mem {x : α} (h : key x ∉ seen) (xs : List α) :
    keepUnseen key seen (x :: xs) = x :: keepUnseen key (key x :: seen) xs := by
  rw [keepUnseen, if_neg]
  rwa [List.contains_iff_mem]

theorem keepUnseen_congr (h : ∀ k, k ∈ seen ↔ k ∈ seen') (xs : List α) :
    keepUnseen key seen xs = keepUnseen key seen' xs := by
  induction xs generalizing seen seen' with
  | nil => rfl
  | cons x xs ih =>
    by_cases hx : key x ∈ seen
    . rw [keepUnseen_cons_of_mem hx, keepUnseen_cons_of_mem ((h _).mp hx), ih h]
    . have hx' : key x ∉ seen' := by rwa [← h]
      rw [keepUnseen_cons_of_not_mem hx, keepUnseen_cons_of_not_mem hx']
      rw [ih]
      intro k
      simp [h k]

theorem mem_keys_keepUnseen {xs : List α} {k : κ} :
    k ∈ (keepUnseen key seen xs).map key ↔ k ∈ xs.map key ∧ k ∉ seen := by
  induction xs generalizing seen with
  | nil => simp [keepUnseen]
  | cons x xs ih =>
    by_cases hx : key x ∈ seen
    . rw [keepUnseen_cons_of_mem hx, ih, List.map_cons, List.mem_cons]
      constructor
      . rintro ⟨hk, hseen⟩
        exact ⟨Or.inr hk, hseen⟩
      . rintro ⟨rfl | hk, hseen⟩
        . exact absurd hx hseen
        . exact ⟨hk, hseen⟩
    . rw [keepUnseen_cons_of_not_mem hx, List.map_cons, List.mem_cons, ih, List.map_cons, List.mem_cons, List.mem_cons]
      by_cases hk : k = key x
      . simp [hk, hx]
      . simp [hk]

theorem nodup_keys_keepUnseen (xs : List α) : ((keepUnseen key seen xs).map key).Nodup := by
  induction xs generalizing seen with
  | nil => simp [keepUnseen]
  | cons x xs ih =>
    by_cases hx : key x ∈ seen
    . rw [keepUnseen_cons_of_mem hx]
      exact ih
    . rw [keepUnseen_cons_of_not_mem hx, List.map_cons, List.nodup_cons]
      refine ⟨?_, ih⟩
      rw [mem_keys_keepUnseen]
      simp

theorem keepUnseen_sublist (xs : List α) : (keepUnseen key seen xs).Sublist xs := by
  induction xs generalizing seen with
  | nil => exact .slnil
  | cons x xs ih =>
    by_cases hx : key x ∈ seen
    . rw [keepUnseen_cons_of_mem hx]
      exact ih.cons x
    . rw [keepUnseen_cons_of_not_mem hx]
      exact ih.cons_cons x

theorem keepUnseen_keepUnseen (h : seen' ⊆ seen) (xs : List α) :
    keepUnseen key seen (keepUnseen key seen' xs) = keepUnseen key seen xs := by
  induction xs generalizing seen seen' with
  | nil => rfl
  | cons x xs ih =>
    by_cases hx' : key x ∈ seen'
    . rw [keepUnseen_cons_of_mem hx', keepUnseen_cons_of_mem (h hx'), ih h]
    . rw [keepUnseen_cons_of_not_mem hx']
      by_cases hx : key x ∈ seen
      . rw [keepUnseen_cons_of_mem hx, keepUnseen_cons_of_mem hx, ih]
        exact List.cons_subset.mpr ⟨hx, h⟩
      . rw [keepUnseen_cons_of_not_mem hx, keepUnseen_cons_of_not_mem hx, ih]
        exact List.cons_subset_cons _ h

/--
What is kept behind `before` are the elements at the later places that no earlier place shares its key with.
-/
theorem keepUnseen_eq_filter (before xs : List α) :
    keepUnseen key (before.map key) xs
      =
    ((xs.zipIdx before.length).filter
      (fun (x, place) => ((before ++ xs).take place).all (fun earlier => key earlier != key x))).map (·.1) := by
  induction xs generalizing before with
  | nil => rfl
  | cons x xs ih =>
    have hrest := ih (before ++ [x])
    rw [List.append_assoc, List.length_append] at hrest
    have hfirst : ((before ++ x :: xs).take before.length).all (fun earlier => key earlier != key x) = true
        ↔ key x ∉ before.map key := by
      rw [List.take_left, List.all_eq_true, List.mem_map, not_exists]
      simp only [bne_iff_ne, ne_eq, not_and]
    rw [List.zipIdx_cons, List.filter_cons]
    by_cases hx : key x ∈ before.map key
    . rw [keepUnseen_cons_of_mem hx, if_neg (fun hall => hfirst.mp hall hx)]
      refine Eq.trans ?_ hrest
      apply keepUnseen_congr
      intro k
      rw [List.map_append, List.mem_append, List.map_singleton, List.mem_singleton]
      grind
    . rw [keepUnseen_cons_of_not_mem hx, if_pos (hfirst.mpr hx), List.map_cons]
      congr 1
      refine Eq.trans ?_ hrest
      apply keepUnseen_congr
      intro k
      rw [List.map_append, List.mem_append, List.map_singleton, List.mem_singleton, List.mem_cons, or_comm]

theorem keepUnseen_eq_firstOfEach (xs : List α) : keepUnseen key [] xs = firstOfEach key xs :=
  keepUnseen_eq_filter [] xs

end KeepUnseen

section EraseDups

variable [BEq α] [LawfulBEq α]

theorem keepUnseen_id (seen xs : List α) :
    keepUnseen id seen xs = (xs.filter (fun x => !seen.contains x)).eraseDups := by
  induction xs generalizing seen with
  | nil => rfl
  | cons x xs ih =>
    by_cases hx : x ∈ seen
    . have hkey : id x ∈ seen := hx
      rw [keepUnseen_cons_of_mem hkey, ih, List.filter_cons_of_neg (by simpa using hx)]
    . have hkey : id x ∉ seen := hx
      rw [keepUnseen_cons_of_not_mem hkey, ih, List.filter_cons_of_pos (by simpa using hx),
        List.eraseDups_cons, List.filter_filter, id]
      congr 3
      funext y
      rw [List.contains_cons, Bool.not_or]

theorem eraseDups_eq_keepUnseen (xs : List α) : xs.eraseDups = keepUnseen id [] xs := by
  rw [keepUnseen_id]
  congr 1
  exact (List.filter_eq_self.mpr (fun _ _ => rfl)).symm

theorem eraseDups_eq_firstOfEach (xs : List α) : xs.eraseDups = firstOfEach id xs := by
  rw [eraseDups_eq_keepUnseen, keepUnseen_eq_firstOfEach]

theorem eraseDups_eraseDups (xs : List α) : xs.eraseDups.eraseDups = xs.eraseDups := by
  rw [eraseDups_eq_keepUnseen xs.eraseDups, eraseDups_eq_keepUnseen xs, keepUnseen_keepUnseen (List.Subset.refl _)]

end EraseDups

end ApiSurface
