/-!
This module contains facts about lists without repetitions: removing repetitions, and counting what is left of
a list once distinct elements of it are taken away.
-/

namespace ApiSurface.Distinct

variable [BEq α] [LawfulBEq α]

theorem nodup_eraseDups (xs : List α) : xs.eraseDups.Nodup := by
  -- what is left after the first element has lost all its copies, so the induction is on the length
  induction hlen : xs.length using Nat.strongRecOn generalizing xs with
  | ind n ih =>
    cases xs with
    | nil => simp
    | cons x rest =>
      have hshort : (rest.filter (fun y => !y == x)).length < n := by
        have := List.length_filter_le (fun y => !y == x) rest
        simp only [List.length_cons] at hlen
        omega
      have hrest := ih _ hshort _ rfl
      rw [List.eraseDups_cons, List.nodup_cons]
      constructor
      . simp [List.mem_eraseDups]
      . exact hrest

theorem eraseDups_append_of_mem {xs : List α} {x : α} (h : x ∈ xs) : (xs ++ [x]).eraseDups = xs.eraseDups := by
  simp [List.eraseDups_append, List.removeAll, h]

theorem eraseDups_append_of_not_mem {xs : List α} {x : α} (h : x ∉ xs) :
    (xs ++ [x]).eraseDups = xs.eraseDups ++ [x] := by
  simp [List.eraseDups_append, List.removeAll, h, List.eraseDups_cons]

theorem length_filter_add_length_le {taken xs : List α} (hnodup : taken.Nodup) (hsub : ∀ x ∈ taken, x ∈ xs) :
    (xs.filter (fun x => !taken.contains x)).length + taken.length ≤ xs.length := by
  induction taken generalizing xs with
  | nil => apply List.length_filter_le
  | cons a taken ih =>
    rw [List.nodup_cons] at hnodup
    have hless : (xs.filter (fun x => !x == a)).length < xs.length := by
      rw [List.length_filter_lt_length_iff_exists]
      exact ⟨a, hsub a (by simp), by simp⟩
    have hrest : ∀ x ∈ taken, x ∈ xs.filter (fun x => !x == a) := by
      intro x hx
      rw [List.mem_filter]
      refine ⟨hsub x (by simp [hx]), ?_⟩
      have : x ≠ a := by
        intro heq
        exact hnodup.1 (heq ▸ hx)
      simp [this]
    have hsplit : xs.filter (fun x => !(a :: taken).contains x)
        = (xs.filter (fun x => !x == a)).filter (fun x => !taken.contains x) := by
      rw [List.filter_filter]
      congr 1
      funext x
      simp [Bool.and_comm]
    have := ih hnodup.2 hrest
    rw [hsplit]
    simp only [List.length_cons]
    omega

end ApiSurface.Distinct
