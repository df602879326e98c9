import ApiSurface.Extraction.Order
import ApiSurface.Proofs.Extraction.Origin

/-!
This module contains the theory of files that are read at the same time. Their records reach the ledger in an
order that nobody chose; what is certain is only which records there are, and the order within each file.
-/

namespace ApiSurface

/--
The place a record names. Imports are recorded without one.
-/
def Record.origin? : Record → Option Origin
  | .declare _ _ origin => some origin
  | .member _ _ _ origin => some origin
  | .value _ _ _ origin => some origin
  | .function _ _ origin => some origin
  | .imports _ _ => none

/--
Whether a record names a place in this file.
-/
def Record.isFrom (path : String) (r : Record) : Bool :=
  r.origin?.any (fun o => o.file == path)

/--
What one file records, in its order. Every place that the records name is in the file.
-/
structure FileRecords where
  path : String
  records : List Record
  origin_file : ∀ r ∈ records, ∀ o ∈ r.origin?, o.file = path

namespace Ledger

/--
An order in which records can arrive if the files are taken up in batches, one batch after the other.
-/
inductive Batched : List (List (List Record)) → List Record → Prop where
  | done : Batched [] []
  | step : Interleaving batch first → Batched batches others → Batched (batch :: batches) (first ++ others)

/--
At most one of the files has records of which `p` holds.
-/
def OneHolds (p : Record → Bool) (files : List (List Record)) : Prop :=
  files.Pairwise (fun f g => f.filter p = [] ∨ g.filter p = [])

namespace OneHolds

variable {p : Record → Bool} {before after : List (List Record)} {r : Record} {rest : List Record}

theorem tail (h : OneHolds p (before ++ (r :: rest) :: after)) : OneHolds p (before ++ rest :: after) := by
  have hless : ∀ {f : List Record}, (r :: rest).filter p = [] ∨ f.filter p = [] →
      rest.filter p = [] ∨ f.filter p = [] := by
    intro f hf
    refine hf.imp_left ?_
    intro hnil
    rw [List.filter_eq_nil_iff] at hnil ⊢
    exact fun x hx => hnil x (List.mem_cons_of_mem r hx)
  unfold OneHolds at h ⊢
  rw [List.pairwise_append, List.pairwise_cons] at h ⊢
  obtain ⟨hbefore, ⟨hrest, hafter⟩, hcross⟩ := h
  refine ⟨hbefore, ⟨fun g hg => hless (hrest g hg), hafter⟩, ?_⟩
  intro f hf
  rw [List.forall_mem_cons]
  exact ⟨(hless (hcross f hf _ List.mem_cons_self).symm).symm, fun g hg => hcross f hf g (List.mem_cons_of_mem _ hg)⟩

theorem filter_before_eq_nil (h : OneHolds p (before ++ (r :: rest) :: after)) (hr : p r = true) :
    before.flatten.filter p = [] := by
  rw [List.filter_flatten, List.flatten_eq_nil_iff]
  intro l hl
  obtain ⟨f, hf, rfl⟩ := List.mem_map.mp hl
  have hnil := (List.pairwise_append.mp h).2.2 f hf _ List.mem_cons_self
  simpa [List.filter_cons, hr] using hnil

end OneHolds

namespace Interleaving

variable {files : List (List Record)} {arrived : List Record}

theorem perm (h : Interleaving files arrived) : arrived.Perm files.flatten := by
  induction h with
  | done hdone =>
    rw [List.flatten_eq_nil_iff.mpr hdone]
  | @step rest after arrived r before _ ih =>
    simp only [List.flatten_append, List.flatten_cons, List.cons_append] at ih ⊢
    exact (ih.cons r).trans List.perm_middle.symm

theorem filter_eq {p : Record → Bool} (h : Interleaving files arrived) (hone : OneHolds p files) :
    arrived.filter p = files.flatten.filter p := by
  induction h with
  | done hdone => rw [List.flatten_eq_nil_iff.mpr hdone]
  | @step rest after arrived r before _ ih =>
    have ih := ih hone.tail
    simp only [List.flatten_append, List.flatten_cons, List.filter_append] at ih ⊢
    rw [List.filter_cons, List.filter_cons]
    split
    . next hr => simpa [hone.filter_before_eq_nil hr] using ih
    . exact ih

end Interleaving

theorem Batched.interleaving {batches : List (List (List Record))} {arrived : List Record}
    (h : Batched batches arrived) : Interleaving batches.flatten arrived := by
  induction h with
  | done => exact .done (by simp)
  | step hbatch _ ih => exact hbatch.append ih

/--
Both lists hold the same records, and the records of each file in the same order.
-/
structure SameByFile (xs ys : List Record) : Prop where
  perm : xs.Perm ys
  filter_eq : ∀ path, xs.filter (Record.isFrom path) = ys.filter (Record.isFrom path)

theorem filter_isFrom_eq_nil {f : FileRecords} {path : String} (hne : f.path ≠ path) :
    f.records.filter (Record.isFrom path) = [] := by
  rw [List.filter_eq_nil_iff]
  intro r hr hfrom
  rw [Record.isFrom, Option.any_eq_true] at hfrom
  obtain ⟨o, ho, hfile⟩ := hfrom
  rw [beq_iff_eq] at hfile
  exact hne ((f.origin_file r hr o ho).symm.trans hfile)

theorem Interleaving.sameByFile {files : List FileRecords} {arrived : List Record}
    (hpaths : (files.map (·.path)).Nodup) (h : Interleaving (files.map (·.records)) arrived) :
    SameByFile arrived (files.flatMap (·.records)) where
  perm := h.perm
  filter_eq := by
    intro path
    apply h.filter_eq
    rw [OneHolds, List.pairwise_map]
    rw [List.Nodup, List.pairwise_map] at hpaths
    apply hpaths.imp
    intro f g hne
    by_cases hf : f.path = path
    . exact Or.inr (filter_isFrom_eq_nil (fun hg => hne (hf.trans hg.symm)))
    . exact Or.inl (filter_isFrom_eq_nil hf)

/--
What is taken from a record keeps the place that the record names.
-/
def Placed (f : Record → List (Origin × α)) : Prop :=
  ∀ r, ∀ x ∈ f r, r.origin? = some x.1

theorem placed_declarationOf? (key : TypeKey) : Placed (fun r => (declarationOf? key r).toList) := by
  intro r x hx
  cases r <;> simp_all [declarationOf?, Record.origin?]
  grind

theorem placed_membersOf (key : TypeKey) : Placed (membersOf key) := by
  intro r x hx
  cases r <;> grind [membersOf, Record.origin?]

theorem placed_valuesOf (key : TypeKey) : Placed (valuesOf key) := by
  intro r x hx
  cases r <;> grind [valuesOf, Record.origin?]

theorem placed_functionsOf (name : String) : Placed (functionsOf name) := by
  intro r x hx
  cases r <;> grind [functionsOf, Record.origin?]

theorem Placed.filter_flatMap {f : Record → List (Origin × α)} (hf : Placed f) (k : String ×ₗ Nat)
    (records : List Record) :
    (records.flatMap f).filter (fun x => decide (x.1.lex = k))
      =
    (records.filter (Record.isFrom (ofLex k).1)).flatMap (fun r => (f r).filter (fun x => decide (x.1.lex = k))) := by
  rw [List.filter_flatMap, flatMap_filter_of_nil]
  intro r _ hother
  -- a record of another file has nothing to offer for this place
  rw [List.filter_eq_nil_iff]
  intro x hx hk
  rw [decide_eq_true_iff] at hk
  simp [Record.isFrom, hf r x hx, ← hk, Origin.lex] at hother

namespace SameByFile

variable {xs ys : List Record} (h : SameByFile xs ys)

include h

theorem symm : SameByFile ys xs :=
  ⟨h.perm.symm, fun path => (h.filter_eq path).symm⟩

theorem filter_flatMap_eq {f : Record → List (Origin × α)} (hf : Placed f) (k : String ×ₗ Nat) :
    (xs.flatMap f).filter (fun x => decide (x.1.lex = k))
      =
    (ys.flatMap f).filter (fun x => decide (x.1.lex = k)) := by
  rw [hf.filter_flatMap k xs, hf.filter_flatMap k ys, h.filter_eq]

theorem byOrigin_flatMap_eq {f : Record → List (Origin × α)} (hf : Placed f) :
    byOrigin (xs.flatMap f) = byOrigin (ys.flatMap f) := by
  apply byOrigin_eq_of_filter_eq
  exact h.filter_flatMap_eq hf

end SameByFile

end Ledger

end ApiSurface
