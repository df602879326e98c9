import Mathlib.Data.List.Induction
import ApiSurface.Decimal.Unsigned

/-!
This module contains the theory of the natural numbers in settings: which texts stand for a number, and that
reading finds the number of exactly those, as long as it is small enough.
-/

namespace ApiSurface.Decimal

/--
The characters are the digits of a number, perhaps behind zeros and a plus sign.
-/
def Denotes (cs : List Char) (n : Nat) : Prop :=
  ∃ (zeros : Nat) (plus : List Char), (plus = [] ∨ plus = ['+']) ∧
    cs = plus ++ (List.replicate zeros '0' ++ Nat.toDigits 10 n)

variable {cs ds : List Char} {n m : Nat}

theorem digitsValue_eq_ofDigitChars (ds : List Char) : digitsValue ds = Nat.ofDigitChars 10 ds 0 := by
  unfold digitsValue Nat.ofDigitChars
  simp only [Nat.mul_comm]
  rfl

theorem digitsValue_append_singleton (ds : List Char) (d : Char) :
    digitsValue (ds ++ [d]) = 10 * digitsValue ds + (d.toNat - 48) := by
  unfold digitsValue
  rw [List.foldl_append, List.foldl_cons, List.foldl_nil]
  omega

theorem digitsValue_written (zeros n : Nat) :
    digitsValue (List.replicate zeros '0' ++ Nat.toDigits 10 n) = n := by
  rw [digitsValue_eq_ofDigitChars, Nat.ofDigitChars_append, Nat.ofDigitChars_replicate_zero]
  simp

theorem isDigit_of_mem_written {zeros : Nat} {d : Char}
    (h : d ∈ List.replicate zeros '0' ++ Nat.toDigits 10 n) : d.isDigit = true := by
  rw [List.mem_append] at h
  cases h with
  | inl h =>
    rw [List.eq_of_mem_replicate h]
    rfl
  | inr h => exact Nat.isDigit_of_mem_toDigits (by decide) (by decide) h

theorem toDigits_of_isDigit {d : Char} (h : d.isDigit = true) :
    d.toNat - 48 < 10 ∧ Nat.toDigits 10 (d.toNat - 48) = [d] := by
  have hrange : 48 ≤ d.toNat ∧ d.toNat ≤ 57 := by
    simpa [Char.isDigit, UInt32.le_iff_toNat_le] using h
  have hlt : d.toNat - 48 < 10 := by omega
  have hchar : Nat.digitChar (d.toNat - 48) = d := by
    rw [← Char.toNat_inj, Nat.toNat_digitChar_of_lt_ten hlt]
    omega
  rw [Nat.toDigits_of_lt_base hlt, hchar]
  exact ⟨hlt, rfl⟩

/--
Digits are zeros and then the digits of the number that they are.
-/
theorem eq_written_of_digits (hne : ds ≠ []) (hds : ∀ d ∈ ds, d.isDigit = true) :
    ∃ zeros, ds = List.replicate zeros '0' ++ Nat.toDigits 10 (digitsValue ds) := by
  induction ds using List.reverseRecOn with
  | nil => contradiction
  | append_singleton ds d ih =>
    rw [List.forall_mem_append, List.forall_mem_singleton] at hds
    have hlast := toDigits_of_isDigit hds.2
    rw [digitsValue_append_singleton]
    by_cases hnil : ds = []
    . subst hnil
      refine ⟨0, ?_⟩
      rw [show digitsValue [] = 0 from rfl, Nat.mul_zero, Nat.zero_add, hlast.2]
      rfl
    . have hfront := ih hnil hds.1
      cases hfront with
      | intro zeros hzeros =>
        cases Nat.eq_zero_or_pos (digitsValue ds) with
        | inl hzero =>
          -- the digit of a zero is itself one of the zeros in front
          refine ⟨zeros + 1, ?_⟩
          rw [hzero, Nat.toDigits_zero, ← List.replicate_succ'] at hzeros
          rw [hzero, Nat.mul_zero, Nat.zero_add, hlast.2, ← hzeros]
        | inr hpos =>
          refine ⟨zeros, ?_⟩
          rw [← Nat.toDigits_append_toDigits (by decide) hpos hlast.1, hlast.2, ← List.append_assoc, ← hzeros]

/--
The digits behind a plus sign, if there is one.
-/
def digitsOf (cs : List Char) : List Char :=
  match cs with
  | '+' :: rest => rest
  | cs => cs

theorem denotes_iff : Denotes cs n ↔
    digitsOf cs ≠ [] ∧ (∀ d ∈ digitsOf cs, d.isDigit = true) ∧ digitsValue (digitsOf cs) = n := by
  constructor
  . intro h
    obtain ⟨zeros, plus, hplus, rfl⟩ := h
    have hdigits : digitsOf (plus ++ (List.replicate zeros '0' ++ Nat.toDigits 10 n)) =
        List.replicate zeros '0' ++ Nat.toDigits 10 n := by
      cases hplus with
      | inl hplus =>
        subst hplus
        unfold digitsOf
        split
        . next rest hcons =>
          have hmem : '+' ∈ List.replicate zeros '0' ++ Nat.toDigits 10 n := by
            rw [List.nil_append] at hcons
            rw [hcons]
            apply List.mem_cons_self
          exact absurd (isDigit_of_mem_written hmem) (by decide)
        . rfl
      | inr hplus =>
        subst hplus
        rfl
    rw [hdigits]
    refine ⟨?_, ?_, ?_⟩
    . simp
    . intro d hd
      apply isDigit_of_mem_written hd
    . apply digitsValue_written
  . intro h
    have hdigits := eq_written_of_digits h.1 h.2.1
    rw [h.2.2] at hdigits
    cases hdigits with
    | intro zeros hzeros =>
      unfold digitsOf at hzeros
      split at hzeros
      . next rest =>
        refine ⟨zeros, ['+'], Or.inr rfl, ?_⟩
        rw [hzeros]
        rfl
      . refine ⟨zeros, [], Or.inl rfl, ?_⟩
        rw [List.nil_append, ← hzeros]

theorem Denotes.unique (h : Denotes cs n) (h' : Denotes cs m) : n = m := by
  rw [denotes_iff] at h h'
  rw [← h.2.2, ← h'.2.2]

/--
A text is read as a number exactly if it stands for that number and the number is below the bound.
-/
theorem unsigned?_eq_some_iff {s : String} : unsigned? s = some n ↔ Denotes s.toList n ∧ n < Nat.pow 2 64 := by
  have hunsigned : unsigned? s =
      if (digitsOf s.toList).isEmpty || !(digitsOf s.toList).all Char.isDigit then none
      else if digitsValue (digitsOf s.toList) < Nat.pow 2 64 then some (digitsValue (digitsOf s.toList))
      else none := rfl
  rw [hunsigned, denotes_iff]
  split
  . next hnone =>
    rw [Bool.or_eq_true, List.isEmpty_iff, Bool.not_eq_true', List.all_eq_false] at hnone
    constructor
    . intro h
      contradiction
    . intro h
      cases hnone with
      | inl hempty => exact absurd hempty h.1.1
      | inr hother =>
        obtain ⟨d, hd, hdigit⟩ := hother
        exact absurd (h.1.2.1 d hd) hdigit
  . next hsome =>
    rw [Bool.or_eq_true, not_or, List.isEmpty_iff, Bool.not_eq_true', Bool.not_eq_false, List.all_eq_true] at hsome
    split
    . next hlt =>
      rw [Option.some.injEq]
      constructor
      . intro h
        subst h
        exact ⟨⟨hsome.1, hsome.2, rfl⟩, hlt⟩
      . intro h
        exact h.1.2.2
    . next hlt =>
      constructor
      . intro h
        contradiction
      . intro h
        rw [h.1.2.2] at hlt
        exact absurd h.2 hlt

end ApiSurface.Decimal
