import ApiSurface.Extraction.Ledger

/-!
This module contains the orders that an extraction leaves open. Files are read at the same time, so their records
arrive mixed, and errors are marked over a table that has its keys in no order of their own.
-/

namespace ApiSurface

namespace Ledger

/--
An order in which the records of several files can arrive: at each step, one of the files that are not yet done
hands in its next record.
-/
inductive Interleaving : List (List Record) → List Record → Prop where
  | done : (∀ f ∈ files, f = []) → Interleaving files []
  | step (before : List (List Record)) : Interleaving (before ++ rest :: after) arrived →
      Interleaving (before ++ (r :: rest) :: after) (r :: arrived)

namespace Interleaving

variable {files more : List (List Record)} {arrived later : List Record}

theorem append (h : Interleaving files arrived) (hmore : Interleaving more later) :
    Interleaving (files ++ more) (arrived ++ later) := by
  induction h with
  | done hdone =>
    rw [List.nil_append]
    induction hmore with
    | done hmoreDone =>
      apply Interleaving.done
      intro f hf
      rw [List.mem_append] at hf
      exact hf.elim (hdone f) (hmoreDone f)
    | step before _ ih =>
      rw [← List.append_assoc] at ih ⊢
      exact .step (_ ++ before) ih
  | step before _ ih =>
    rw [List.append_assoc, List.cons_append] at ih ⊢
    rw [List.cons_append]
    exact .step before ih

theorem single (file : List Record) : Interleaving [file] file := by
  induction file with
  | nil => exact .done (by simp)
  | cons r rest ih => exact .step [] ih

theorem sequential (files : List (List Record)) : Interleaving files files.flatten := by
  induction files with
  | nil => exact .done (by simp)
  | cons file files ih => exact (single file).append ih

end Interleaving

end Ledger

/--
A choice of the orders of an extraction.
-/
structure Orders where
  /-- The records of all files, as they arrive. -/
  arrival : List (List Record) → List Record
  /-- The keys of all types, as they are visited. -/
  visits : List TypeKey → List TypeKey
  interleaving : ∀ files, Ledger.Interleaving files (arrival files)
  perm : ∀ keys, (visits keys).Perm keys

/--
One file after the other, and the types as they are declared.
-/
def Orders.inTurn : Orders where
  arrival := List.flatten
  visits := id
  interleaving := Ledger.Interleaving.sequential
  perm := List.Perm.refl

end ApiSurface
