import ApiSurface.Proofs.Reference.Resolution

/-!
This module contains what happens to name lookup when a table loses some of its keys: a lookup finds what is
left of the old answer, as long as something is left of it. Only an answer that is lost as a whole lets a later
stage answer instead.
-/

namespace ApiSurface

open Text

/--
Nothing was found, or something of what was found is kept.
-/
def Survives (kept : α → Bool) (found : List α) : Prop :=
  found = [] ∨ ∃ x ∈ found, kept x = true

theorem Survives.filter_eq_nil_iff {kept : α → Bool} {found : List α} (h : Survives kept found) :
    found.filter kept = [] ↔ found = [] := by
  constructor
  . intro hfilter
    cases h with
    | inl h => exact h
    | inr h =>
      obtain ⟨x, hx, hkept⟩ := h
      have : x ∈ found.filter kept := List.mem_filter.mpr ⟨hx, hkept⟩
      simp [hfilter] at this
  . intro h
    simp [h]

theorem firstFound_map_filter {kept : α → Bool} {stages : List (List α)} (h : Survives kept (firstFound stages)) :
    firstFound (stages.map (List.filter kept)) = (firstFound stages).filter kept := by
  induction stages with
  | nil => simp [firstFound]
  | cons found later ih =>
    rw [firstFound] at h
    rw [List.map_cons, firstFound, firstFound]
    split at h
    . next hempty =>
      rw [List.isEmpty_iff] at hempty
      simp [hempty, ih h]
    . next hne =>
      rw [List.isEmpty_iff] at hne
      have : found.filter kept ≠ [] := by
        rw [ne_eq, h.filter_eq_nil_iff]
        exact hne
      simp [hne, this]

namespace TypeTable

/--
The second table declares the keys of the first that are kept, as often as the first, in any order.
-/
structure Restricts (kept : TypeKey → Bool) (t small : TypeTable) : Prop where
  wellFormed : t.WellFormed
  small_wellFormed : small.WellFormed
  keys_perm : small.keys.Perm (t.keys.filter kept)

namespace Restricts

variable {kept : TypeKey → Bool} {t small : TypeTable}

theorem mem_keys (h : Restricts kept t small) {k : TypeKey} : k ∈ small.keys ↔ k ∈ t.keys ∧ kept k = true := by
  rw [h.keys_perm.mem_iff, List.mem_filter]

theorem declared_eq (h : Restricts kept t small) (k : TypeKey) : small.declared k = (t.declared k).filter kept := by
  have hcontains : small.contains k = (t.contains k && kept k) := by
    rw [Bool.eq_iff_iff, Bool.and_eq_true, contains_iff_mem, contains_iff_mem, h.mem_keys]
  unfold declared
  rw [hcontains]
  cases t.contains k <;> cases hkept : kept k <;> simp [hkept]

theorem qualified_eq (h : Restricts kept t small) (q n : String) :
    small.qualified q n = (t.qualified q n).filter kept := by
  have hmem : ∀ k, k ∈ small.qualified q n ↔ k ∈ (t.qualified q n).filter kept := by
    intro k
    rw [List.mem_filter, mem_qualified h.wellFormed, mem_qualified h.small_wellFormed, h.mem_keys]
    constructor
    . rintro ⟨⟨hk, hkept⟩, hrest⟩
      exact ⟨⟨hk, hrest⟩, hkept⟩
    . rintro ⟨⟨hk, hrest⟩, hkept⟩
      exact ⟨⟨hk, hkept⟩, hrest⟩
  -- the namespaces may come in another order in the smaller table, but both answers are sorted
  unfold qualified at hmem ⊢
  rw [← TypeKey.sort_filter] at hmem ⊢
  apply TypeKey.sort_eq_of_mem_iff
  . apply nodup_qualified h.small_wellFormed
  . apply (nodup_qualified h.wellFormed q n).filter
  . intro k
    simpa only [TypeKey.mem_sort] using hmem k

theorem named_eq (h : Restricts kept t small) (name : String) : small.named name = (t.named name).filter kept := by
  unfold named
  rw [← TypeKey.toSet_filter, List.filter_filter]
  apply TypeKey.toSet_eq_of_mem_iff
  intro k
  simp only [List.mem_filter, h.mem_keys, Bool.and_eq_true]
  grind

theorem innermost_perm (h : Restricts kept t small) (name : String) :
    (small.innermost name).Perm ((t.innermost name).filter kept) := by
  unfold innermost
  rw [List.filter_comm]
  exact h.keys_perm.filter _

theorem stages_eq (h : Restricts kept t small) (source : TypeKey) (reference : String) :
    small.stages source reference = (t.stages source reference).map (List.filter kept) := by
  simp [stages, h.qualified_eq, h.declared_eq, h.named_eq, Function.comp_def]

theorem nestedStages_eq (h : Restricts kept t small) (source : TypeKey) (name : String) :
    small.nestedStages source name = (t.nestedStages source name).map (List.filter kept) := by
  have hnear : ((small.innermost name).filter (fun k => k.namespace == source.namespace)).Perm
      (((t.innermost name).filter (fun k => k.namespace == source.namespace)).filter kept) := by
    rw [List.filter_comm]
    exact (h.innermost_perm name).filter _
  simp only [nestedStages, List.map_cons, List.map_nil, ← TypeKey.sort_filter]
  rw [TypeKey.sort_eq_of_perm hnear, TypeKey.sort_eq_of_perm (h.innermost_perm name)]

theorem resolveWhole_eq (h : Restricts kept t small) {source : TypeKey} {name : String}
    (hsurvives : Survives kept (t.resolveWhole source name)) :
    small.resolveWhole source name = (t.resolveWhole source name).filter kept := by
  rw [resolveWhole_eq_firstFound] at hsurvives
  rw [resolveWhole_eq_firstFound, resolveWhole_eq_firstFound, h.stages_eq]
  apply firstFound_map_filter hsurvives

theorem nestedNamed_eq (h : Restricts kept t small) {source : TypeKey} {name : String}
    (hsurvives : Survives kept (t.nestedNamed source name)) :
    small.nestedNamed source name = (t.nestedNamed source name).filter kept := by
  rw [nestedNamed_eq_firstFound] at hsurvives
  rw [nestedNamed_eq_firstFound, nestedNamed_eq_firstFound, h.nestedStages_eq]
  apply firstFound_map_filter hsurvives

theorem resolveName_eq (h : Restricts kept t small) {source : TypeKey} {name : String}
    (hsurvives : Survives kept (t.resolveName source name)) :
    small.resolveName source name = (t.resolveName source name).filter kept := by
  fun_induction t.resolveName source name with
  | case1 name hname => rw [resolveName_of_isEmpty hname, List.filter_nil]
  | case2 name hname first found hwhole =>
    -- a stage answers already, so what comes after it does not matter in either table
    rw [← hwhole] at hsurvives ⊢
    have hsmall : small.resolveWhole source name ≠ [] := by
      rw [h.resolveWhole_eq hsurvives, ne_eq, hsurvives.filter_eq_nil_iff, hwhole]
      simp
    rw [resolveName_of_whole hname hsmall, h.resolveWhole_eq hsurvives]
  | case3 name hname hwhole hdot =>
    have hsmall : small.resolveWhole source name = [] := by
      rw [h.resolveWhole_eq (Or.inl hwhole), hwhole, List.filter_nil]
    rw [resolveName_of_nested hname hsmall hdot, h.nestedNamed_eq hsurvives]
  | case4 name hname hwhole q rest hdot _ ih =>
    have hsmall : small.resolveWhole source name = [] := by
      rw [h.resolveWhole_eq (Or.inl hwhole), hwhole, List.filter_nil]
    rw [resolveName_of_dropped hname hsmall hdot]
    apply ih hsurvives

theorem resolve_eq (h : Restricts kept t small) {source : TypeKey} {reference : String}
    (hsurvives : Survives kept (t.resolve source reference)) :
    small.resolve source reference = (t.resolve source reference).filter kept := by
  unfold resolve at hsurvives ⊢
  apply h.resolveName_eq hsurvives

theorem mem_resolve (h : Restricts kept t small) {source k : TypeKey} {reference : String}
    (hk : k ∈ t.resolve source reference) (hkept : kept k = true) : k ∈ small.resolve source reference := by
  rw [h.resolve_eq (Or.inr ⟨k, hk, hkept⟩)]
  exact List.mem_filter.mpr ⟨hk, hkept⟩

theorem resolve_eq_self (h : Restricts kept t small) {source : TypeKey} {reference : String}
    (hkept : ∀ k ∈ t.resolve source reference, kept k = true) :
    small.resolve source reference = t.resolve source reference := by
  have hsurvives : Survives kept (t.resolve source reference) := by
    cases hfound : t.resolve source reference with
    | nil => exact Or.inl rfl
    | cons k found =>
      rw [hfound] at hkept
      exact Or.inr ⟨k, List.mem_cons_self, hkept k List.mem_cons_self⟩
  rw [h.resolve_eq hsurvives]
  exact List.filter_eq_self.mpr hkept

end Restricts

end TypeTable

end ApiSurface
