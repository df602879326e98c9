import Mathlib.Data.Prod.Lex
import Mathlib.Order.WithBot
import ApiSurface.Extraction.Ledger
import ApiSurface.Proofs.Lists

/-!
This module contains the theory of what is sorted when records are added up: origins and imports are linearly
ordered, and the declaration that counts is the first one after sorting.
-/

namespace ApiSurface

namespace Origin

/--
The origin as a pair in lexicographic order.
-/
def lex (o : Origin) : String ×ₗ Nat :=
  toLex (o.file, o.offset)

theorem lex_injective {a b : Origin} (h : a.lex = b.lex) : a = b := by
  cases a
  cases b
  simpa [lex] using h

theorem le_iff_lex_le {a b : Origin} : a.le b = true ↔ a.lex ≤ b.lex := by
  unfold le lex
  rw [Prod.Lex.toLex_le_toLex]
  split
  . next heq =>
    rw [beq_iff_eq] at heq
    simp [heq]
  . next hne =>
    rw [beq_iff_eq] at hne
    simp [hne, le_iff_lt_or_eq]

end Origin

theorem sortsBy_origin : SortsBy (fun a b : Origin × α => a.1.le b.1) (fun x => x.1.lex) :=
  ⟨fun _ _ => Origin.le_iff_lex_le⟩

namespace Import

/--
The place of an imported name among others: a whole package comes first.
-/
def nameRank : Option String → WithBot String
  | none => ⊥
  | some name => name

theorem nameRank_injective {a b : Option String} (h : nameRank a = nameRank b) : a = b := by
  cases a <;> cases b <;> simp_all [nameRank]

/--
The parts of the import in lexicographic order.
-/
def lex (i : Import) : String ×ₗ (String ×ₗ WithBot String) :=
  toLex (i.local, toLex (i.package, nameRank i.name))

theorem lex_injective {a b : Import} (h : a.lex = b.lex) : a = b := by
  cases a
  cases b
  simp only [lex, toLex_inj, Prod.mk.injEq] at h
  obtain ⟨rfl, rfl, hname⟩ := h
  rw [nameRank_injective hname]

theorem le_iff_lex_le {a b : Import} : a.le b = true ↔ a.lex ≤ b.lex := by
  unfold le lex
  rw [Prod.Lex.toLex_le_toLex, Prod.Lex.toLex_le_toLex]
  split
  . next hlocal =>
    rw [bne_iff_ne] at hlocal
    simp [hlocal, le_iff_lt_or_eq]
  . next hlocal =>
    have hlocal : a.local = b.local := by simpa using hlocal
    split
    . next hpackage =>
      rw [bne_iff_ne] at hpackage
      simp [hlocal, hpackage, le_iff_lt_or_eq]
    . next hpackage =>
      have hpackage : a.package = b.package := by simpa using hpackage
      cases ha : a.name <;> cases hb : b.name <;> simp [hlocal, hpackage, nameRank]

end Import

theorem sortsBy_import : SortsBy Import.le Import.lex :=
  ⟨fun _ _ => Import.le_iff_lex_le⟩

namespace Ledger

theorem byOrigin_eq_of_filter_eq {xs ys : List (Origin × α)}
    (heq : ∀ k, xs.filter (fun x => decide (x.1.lex = k)) = ys.filter (fun x => decide (x.1.lex = k))) :
    byOrigin xs = byOrigin ys := by
  unfold byOrigin
  rw [sortsBy_origin.mergeSort_eq_of_filter_eq heq]

theorem byOrigin_eq_of_perm {xs ys : List (Origin × α)} (hperm : xs.Perm ys) (hnodup : (xs.map (·.1)).Nodup) :
    byOrigin xs = byOrigin ys := by
  unfold byOrigin
  rw [sortsBy_origin.mergeSort_eq_of_perm hperm]
  intro a ha b hb heq
  exact List.inj_on_of_nodup_map hnodup ha hb (Origin.lex_injective heq)

theorem mem_byOrigin {items : List (Origin × α)} {a : α} : a ∈ byOrigin items ↔ ∃ o, (o, a) ∈ items := by
  simp [byOrigin, List.mem_mergeSort]

theorem map_byOrigin (f : α → β) (items : List (Origin × α)) :
    (byOrigin items).map f = byOrigin (items.map (fun x => (x.1, f x.2))) := by
  unfold byOrigin
  have hsort := List.map_mergeSort (r := fun a b : Origin × α => a.1.le b.1) (s := fun a b => a.1.le b.1)
    (f := fun x => (x.1, f x.2)) (l := items) (fun _ _ _ _ => rfl)
  rw [← hsort]
  simp

theorem earliest?_eq_head? (items : List (Origin × α)) :
    earliest? items = (items.mergeSort (fun a b => a.1.le b.1)).head? := by
  induction items with
  | nil => simp [earliest?]
  | cons x rest ih =>
    have hsorts := sortsBy_origin (α := α)
    obtain ⟨smaller, others, hsort, hrest, hlt⟩ := List.mergeSort_cons hsorts.le_trans hsorts.le_total x rest
    have hsorted := List.pairwise_mergeSort hsorts.le_trans hsorts.le_total (x :: rest)
    rw [hsort] at hsorted ⊢
    rw [earliest?, ih, hrest]
    cases smaller with
    | nil =>
      cases others with
      | nil => rfl
      | cons y others =>
        have hle : x.1.le y.1 = true := List.rel_of_pairwise_cons hsorted List.mem_cons_self
        simp [hle]
    | cons y smaller =>
      have hgt := hlt y List.mem_cons_self
      simp_all

theorem isSome_earliest? {items : List (Origin × α)} : (earliest? items).isSome = true ↔ items ≠ [] := by
  rw [earliest?_eq_head?, List.isSome_head?, ← List.length_pos_iff, List.length_mergeSort, List.length_pos_iff]

theorem mem_of_earliest? {items : List (Origin × α)} {x : Origin × α} (h : earliest? items = some x) : x ∈ items := by
  rw [earliest?_eq_head?] at h
  exact List.mem_mergeSort.mp (List.mem_of_mem_head? h)

theorem earliest?_eq_of_filter_eq {xs ys : List (Origin × α)}
    (heq : ∀ k, xs.filter (fun x => decide (x.1.lex = k)) = ys.filter (fun x => decide (x.1.lex = k))) :
    earliest? xs = earliest? ys := by
  rw [earliest?_eq_head?, earliest?_eq_head?, sortsBy_origin.mergeSort_eq_of_filter_eq heq]

end Ledger

end ApiSurface
