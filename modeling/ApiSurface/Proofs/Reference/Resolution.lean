import ApiSurface.Proofs.Reference.Key
import ApiSurface.Proofs.Text.Name

/-!
This module contains the theory of name lookup. A lookup goes through stages, takes what the first stage finds
that finds anything, and starts again without the first qualifier if none does. Every stage selects declared
keys, and what a plain name finds has the innermost name that was looked for.
-/

namespace ApiSurface

open Text

/--
What the first of the stages finds that finds anything.
-/
def firstFound : List (List α) → List α
  | [] => []
  | found :: later => if found.isEmpty then firstFound later else found

theorem firstFound_append (xs ys : List (List α)) :
    firstFound (xs ++ ys) = if (firstFound xs).isEmpty then firstFound ys else firstFound xs := by
  induction xs with
  | nil => simp [firstFound]
  | cons x xs ih =>
    simp only [List.cons_append, firstFound]
    split
    . exact ih
    . simp

theorem firstFound_singleton (found : List α) : firstFound [found] = found := by
  cases found <;> rfl

theorem firstFound_eq_nil_or_mem (stages : List (List α)) : firstFound stages = [] ∨ firstFound stages ∈ stages := by
  induction stages with
  | nil => exact Or.inl rfl
  | cons found later ih =>
    rw [firstFound]
    split
    . exact ih.imp_right (List.mem_cons_of_mem found)
    . exact Or.inr List.mem_cons_self

theorem mem_of_mem_firstFound {stages : List (List α)} {x : α} (h : x ∈ firstFound stages) :
    ∃ found ∈ stages, x ∈ found := by
  cases firstFound_eq_nil_or_mem stages with
  | inl hnil => simp [hnil] at h
  | inr hmem => exact ⟨firstFound stages, hmem, h⟩

namespace TypeTable

/--
What a well-made table promises: every namespace is there once, and so is that of every key.
-/
structure WellFormed (t : TypeTable) : Prop where
  namespaces_nodup : t.namespaces.Nodup
  namespace_mem : ∀ k ∈ t.keys, k.namespace ∈ t.namespaces

theorem wellFormed_ofNamespaces (nss : List Namespace) : (ofNamespaces nss).WellFormed where
  namespaces_nodup := Distinct.nodup_eraseDups _
  namespace_mem := by
    intro k hk
    simp only [ofNamespaces, List.mem_flatMap, List.mem_map] at hk
    obtain ⟨ns, hns, t, _, rfl⟩ := hk
    simp only [ofNamespaces, List.mem_eraseDups, List.mem_map]
    exact ⟨ns, hns, rfl⟩

theorem contains_iff_mem {t : TypeTable} {k : TypeKey} : t.contains k = true ↔ k ∈ t.keys := by
  simp [contains]

/--
The key alone, if it is declared.
-/
def declared (t : TypeTable) (k : TypeKey) : List TypeKey :=
  if t.contains k then [k] else []

/--
What the stages of a lookup with all qualifiers find, in the order in which they are tried.
-/
def stages (t : TypeTable) (source : TypeKey) (reference : String) : List (List TypeKey) :=
  (qualifierSplits reference).map (fun (q, n) => t.qualified q n) ++
  (scopes source.name).map (fun scope => t.declared ⟨source.namespace, scope ++ "." ++ reference⟩) ++
  [t.declared ⟨source.namespace, reference⟩, t.named reference]

/--
What the stages find that come after all others for a name without dots.
-/
def nestedStages (t : TypeTable) (source : TypeKey) (name : String) : List (List TypeKey) :=
  [TypeKey.sort ((t.innermost name).filter (fun k => k.namespace == source.namespace)),
    TypeKey.sort (t.innermost name)]

theorem findSome?_found? (f : α → List TypeKey) (xs : List α) :
    (xs.findSome? fun x => found? (f x)) = found? (firstFound (xs.map f)) := by
  induction xs with
  | nil => rfl
  | cons x xs ih =>
    rw [List.map_cons, firstFound, List.findSome?_cons, ih]
    unfold found?
    split <;> split <;> simp_all

theorem enclosed_eq_firstFound (t : TypeTable) (source : TypeKey) (reference : String) :
    (t.enclosed source reference).toList
      =
    firstFound ((scopes source.name).map
      (fun scope => t.declared ⟨source.namespace, scope ++ "." ++ reference⟩)) := by
  unfold enclosed
  induction scopes source.name with
  | nil => simp [firstFound]
  | cons scope outer ih =>
    rw [List.map_cons, firstFound, List.findSome?_cons, ← ih]
    unfold declared
    split <;> split <;> simp_all

theorem nestedNamed_eq_firstFound (t : TypeTable) (source : TypeKey) (name : String) :
    t.nestedNamed source name = firstFound (t.nestedStages source name) := by
  unfold nestedStages
  rw [firstFound, firstFound_singleton, TypeKey.isEmpty_sort]
  unfold nestedNamed
  dsimp only
  rw [apply_ite TypeKey.sort]

theorem resolveWhole_eq_firstFound (t : TypeTable) (source : TypeKey) (name : String) :
    t.resolveWhole source name = firstFound (t.stages source name) := by
  unfold resolveWhole stages
  rw [findSome?_found?]
  simp only [List.append_assoc, firstFound_append, ← enclosed_eq_firstFound, firstFound]
  generalize firstFound ((qualifierSplits name).map _) = q
  cases q with
  | cons => rfl
  | nil =>
    cases t.enclosed source name with
    | some => rfl
    | none => by_cases hcontains : t.contains ⟨source.namespace, name⟩ <;> simp [found?, declared, hcontains]

section Equations

variable {t : TypeTable} {source : TypeKey} {name : String}

theorem resolveName_of_isEmpty (h : name.isEmpty = true) : t.resolveName source name = [] := by
  rw [resolveName, if_pos h]

theorem resolveName_of_whole (hname : ¬ name.isEmpty = true) (h : t.resolveWhole source name ≠ []) :
    t.resolveName source name = t.resolveWhole source name := by
  rw [resolveName, if_neg hname]
  split
  . next hwhole => rw [hwhole]
  . next hwhole => exact absurd hwhole h

theorem resolveName_of_nested (hname : ¬ name.isEmpty = true) (h : t.resolveWhole source name = [])
    (hdot : splitFirstDot name = none) : t.resolveName source name = t.nestedNamed source name := by
  rw [resolveName, if_neg hname, h]
  dsimp only
  split
  . rfl
  . simp_all

theorem resolveName_of_dropped {q rest : String} (hname : ¬ name.isEmpty = true)
    (h : t.resolveWhole source name = []) (hdot : splitFirstDot name = some (q, rest)) :
    t.resolveName source name = t.resolveName source (normalize rest) := by
  rw [resolveName, if_neg hname, h]
  dsimp only
  split
  . simp_all
  . simp_all

end Equations

theorem mem_qualified {t : TypeTable} (hwf : t.WellFormed) {q n : String} {k : TypeKey} :
    k ∈ t.qualified q n ↔ k ∈ t.keys ∧ k.name = n ∧ denotes q k.namespace = true := by
  unfold qualified
  simp only [TypeKey.mem_sort, List.mem_filterMap, List.mem_filter]
  constructor
  . rintro ⟨ns, ⟨_, hdenotes⟩, hk⟩
    split at hk
    . next hcontains =>
      cases hk
      exact ⟨contains_iff_mem.mp hcontains, rfl, hdenotes⟩
    . simp at hk
  . rintro ⟨hmem, rfl, hdenotes⟩
    refine ⟨k.namespace, ⟨hwf.namespace_mem k hmem, hdenotes⟩, ?_⟩
    rw [if_pos (contains_iff_mem.mpr hmem)]

theorem nodup_qualified {t : TypeTable} (hwf : t.WellFormed) (q n : String) :
    ((t.namespaces.filter (denotes q)).filterMap fun ns =>
      if t.contains ⟨ns, n⟩ then some (⟨ns, n⟩ : TypeKey) else none).Nodup := by
  apply List.Nodup.filterMap
  . intro ns ns' k hk hk'
    simp only [Option.mem_def, Option.ite_none_right_eq_some, Option.some.injEq] at hk hk'
    have := hk.2.trans hk'.2.symm
    simpa using this
  . apply hwf.namespaces_nodup.filter

theorem mem_keys_of_mem_declared {t : TypeTable} {k n : TypeKey} (h : n ∈ t.declared k) : n ∈ t.keys := by
  unfold declared at h
  split at h
  . next hcontains =>
    rw [List.mem_singleton] at h
    rw [h]
    exact contains_iff_mem.mp hcontains
  . simp at h

theorem mem_keys_of_mem_stages {t : TypeTable} (hwf : t.WellFormed) {source k : TypeKey} {reference : String}
    {found : List TypeKey} (hfound : found ∈ t.stages source reference) (hk : k ∈ found) : k ∈ t.keys := by
  simp only [stages, List.mem_append, List.mem_map, List.mem_cons, List.not_mem_nil, or_false] at hfound
  rcases hfound with (⟨x, _, rfl⟩ | ⟨scope, _, rfl⟩) | rfl | rfl
  . exact ((mem_qualified hwf).mp hk).1
  . exact mem_keys_of_mem_declared hk
  . exact mem_keys_of_mem_declared hk
  . simp only [named, TypeKey.mem_toSet, List.mem_filter] at hk
    exact hk.1

theorem mem_keys_of_mem_nestedStages {t : TypeTable} {source k : TypeKey} {name : String} {found : List TypeKey}
    (hfound : found ∈ t.nestedStages source name) (hk : k ∈ found) : k ∈ t.keys := by
  simp only [nestedStages, List.mem_cons, List.not_mem_nil, or_false] at hfound
  rcases hfound with rfl | rfl
  all_goals
    simp only [innermost, TypeKey.mem_sort, List.mem_filter] at hk
    simp [hk]

theorem normalize_of_isPlain {reference : String} (h : IsPlain reference) : normalize reference = reference := by
  unfold normalize
  rw [h.trim_eq, h.trimStartWhile_eq]

theorem eq_of_mem_declared {t : TypeTable} {k n : TypeKey} (h : n ∈ t.declared k) : n = k := by
  unfold declared at h
  split at h
  . exact List.mem_singleton.mp h
  . simp at h

theorem lastSegment_of_mem_stages {t : TypeTable} (hwf : t.WellFormed) {source k : TypeKey} {reference : String}
    {found : List TypeKey} (hfound : found ∈ t.stages source reference) (hk : k ∈ found) :
    lastSegment k.name = lastSegment reference := by
  simp only [stages, List.mem_append, List.mem_map, List.mem_cons, List.not_mem_nil, or_false] at hfound
  rcases hfound with (⟨⟨q, n⟩, hsplit, rfl⟩ | ⟨scope, _, rfl⟩) | rfl | rfl
  . rw [((mem_qualified hwf).mp hk).2.1, mem_qualifierSplits.mp hsplit, lastSegment_append]
  . rw [eq_of_mem_declared hk, lastSegment_append]
  . rw [eq_of_mem_declared hk]
  . simp only [named, TypeKey.mem_toSet, List.mem_filter, beq_iff_eq] at hk
    rw [hk.2]

theorem lastSegment_of_mem_nestedStages {t : TypeTable} {source k : TypeKey} {name : String} {found : List TypeKey}
    (hfound : found ∈ t.nestedStages source name) (hk : k ∈ found) : lastSegment k.name = name := by
  have hinnermost : k ∈ t.innermost name := by
    simp only [nestedStages, List.mem_cons, List.not_mem_nil, or_false] at hfound
    rcases hfound with rfl | rfl
    . rw [TypeKey.mem_sort] at hk
      exact (List.mem_filter.mp hk).1
    . exact TypeKey.mem_sort.mp hk
  have hlast := (List.mem_filter.mp hinnermost).2
  split at hlast
  . next hsplit =>
    rw [lastSegment_of_splitLastDot hsplit]
    exact beq_iff_eq.mp hlast
  . simp at hlast

theorem lastSegment_of_mem_resolveName {t : TypeTable} (hwf : t.WellFormed) {source k : TypeKey} {name : String}
    (hplain : IsPlain name) (h : k ∈ t.resolveName source name) : lastSegment k.name = lastSegment name := by
  fun_induction t.resolveName source name with
  | case1 => simp at h
  | case2 name _ first found hwhole =>
    rw [← hwhole, resolveWhole_eq_firstFound] at h
    obtain ⟨found, hfound, hk⟩ := mem_of_mem_firstFound h
    exact lastSegment_of_mem_stages hwf hfound hk
  | case3 name _ _ hdot =>
    rw [nestedNamed_eq_firstFound] at h
    obtain ⟨found, hfound, hk⟩ := mem_of_mem_firstFound h
    rw [lastSegment_of_mem_nestedStages hfound hk, lastSegment_of_splitFirstDot hdot]
  | case4 name _ _ q rest hdot _ ih =>
    -- a dropped qualifier leaves the innermost name, and a plain rest is looked up as it stands
    rw [eq_of_splitFirstDot hdot] at hplain ⊢
    have hrest : IsPlain rest := hplain.right
    rw [normalize_of_isPlain hrest] at h ih
    rw [ih hrest h, lastSegment_append]

theorem mem_keys_of_mem_resolveName {t : TypeTable} (hwf : t.WellFormed) {source k : TypeKey} {name : String}
    (h : k ∈ t.resolveName source name) : k ∈ t.keys := by
  fun_induction t.resolveName source name with
  | case1 => simp at h
  | case2 name _ first found hwhole =>
    rw [← hwhole, resolveWhole_eq_firstFound] at h
    obtain ⟨found, hfound, hk⟩ := mem_of_mem_firstFound h
    exact mem_keys_of_mem_stages hwf hfound hk
  | case3 =>
    rw [nestedNamed_eq_firstFound] at h
    obtain ⟨found, hfound, hk⟩ := mem_of_mem_firstFound h
    exact mem_keys_of_mem_nestedStages hfound hk
  | case4 name _ _ q rest hdot _ ih => exact ih h

end TypeTable

end ApiSurface
