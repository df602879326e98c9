import ApiSurface.Proofs.Text.Lossy

/-!
This module contains the reading of bytes that come in pieces. What has been read of some bytes stays read when
more of them come, and reading goes on with the bytes that were left.
-/

namespace ApiSurface.Utf8

/--
The characters of bytes that may go on, and the bytes at the end that may be the start of a character.
-/
def decodePart (bs : List UInt8) : List Char × List UInt8 :=
  match h : next bs with
  | .ends => ([], [])
  | .char c rest =>
    have := next_char_length h
    (c :: (decodePart rest).1, (decodePart rest).2)
  | .damage rest =>
    have := next_damage_length h
    (replacement :: (decodePart rest).1, (decodePart rest).2)
  | .unfinished => ([], bs)
termination_by bs.length

section Equations

variable {bs rest : List UInt8}

@[simp]
theorem decodePart_nil : decodePart [] = ([], []) := by
  have hnext : next [] = .ends := rfl
  rw [decodePart]
  split <;> simp_all

theorem decodePart_of_char {c : Char} (h : next bs = .char c rest) :
    decodePart bs = (c :: (decodePart rest).1, (decodePart rest).2) := by
  rw [decodePart]
  split <;> simp_all

theorem decodePart_of_damage (h : next bs = .damage rest) :
    decodePart bs = (replacement :: (decodePart rest).1, (decodePart rest).2) := by
  rw [decodePart]
  split <;> simp_all

theorem decodePart_of_unfinished (h : next bs = .unfinished) : decodePart bs = ([], bs) := by
  rw [decodePart]
  split <;> simp_all

end Equations

theorem tail_append_of_damage {n : Nat} {ranges : List (UInt8 × UInt8)} {bs rest : List UInt8}
    (h : tail n ranges bs = .damage rest) (more : List UInt8) :
    tail n ranges (bs ++ more) = .damage (rest ++ more) := by
  fun_induction tail n ranges bs with
  | case1 => simp at h
  | case2 => simp at h
  | case3 n low high ranges b bs hfits ih =>
    rw [List.cons_append, tail, if_pos hfits]
    exact ih h
  | case4 n low high ranges b bs hfits =>
    cases h
    rw [List.cons_append, tail, if_neg hfits]

theorem next_append_of_char {bs rest : List UInt8} {c : Char} (h : next bs = .char c rest) (more : List UInt8) :
    next (bs ++ more) = .char c (rest ++ more) := by
  rw [eq_encode_append_of_next h, List.append_assoc, next_encode_append]

theorem next_append_of_damage {bs rest : List UInt8} (h : next bs = .damage rest) (more : List UInt8) :
    next (bs ++ more) = .damage (rest ++ more) := by
  cases bs with
  | nil => simp [next] at h
  | cons b bs =>
    rw [List.cons_append]
    rcases next_cons_cases b bs with ⟨_, hnext⟩ | ⟨hb, hlead, hnext⟩ | ⟨n, ranges, hb, hlead, hnext⟩
    . simp [hnext] at h
    . rw [hnext] at h
      cases h
      rw [next_of_lead? hb, hlead]
    . rw [hnext] at h
      rw [next_of_lead? hb, hlead]
      apply tail_append_of_damage h

theorem decodePart_append (bs more : List UInt8) :
    decodePart (bs ++ more)
      =
    ((decodePart bs).1 ++ (decodePart ((decodePart bs).2 ++ more)).1,
      (decodePart ((decodePart bs).2 ++ more)).2) := by
  fun_induction decodePart bs with
  | case1 bs hnext =>
    rw [eq_nil_of_next hnext]
    simp
  | case2 bs c rest hnext _ ih =>
    rw [decodePart_of_char (next_append_of_char hnext more), ih]
    rfl
  | case3 bs rest hnext _ ih =>
    rw [decodePart_of_damage (next_append_of_damage hnext more), ih]
    rfl
  | case4 => simp

theorem decode_eq_decodePart (bs : List UInt8) :
    decode bs = (decodePart bs).1 ++ if (decodePart bs).2.isEmpty then [] else [replacement] := by
  fun_induction decode bs with
  | case1 bs hnext =>
    rw [eq_nil_of_next hnext]
    simp
  | case2 bs c rest hnext _ ih =>
    rw [decodePart_of_char hnext, ih]
    rfl
  | case3 bs rest hnext _ ih =>
    rw [decodePart_of_damage hnext, ih]
    rfl
  | case4 bs hnext =>
    have hne : bs ≠ [] := (damage_of_next_unfinished hnext).ne_nil
    rw [decodePart_of_unfinished hnext]
    simp [hne]

theorem decodePart_eq_wholeChars (bs : List UInt8) :
    decodePart bs
      =
    match wholeChars bs with
    | (cs, .ends) => (cs, [])
    | (cs, .damage rest) => (cs ++ replacement :: (decodePart rest).1, (decodePart rest).2)
    | (cs, .unfinished rest) => (cs, rest) := by
  fun_induction wholeChars bs with
  | case1 bs hnext =>
    rw [eq_nil_of_next hnext]
    simp
  | case2 bs c rest hnext _ cs stop hwhole ih =>
    rw [decodePart_of_char hnext, ih, hwhole]
    cases stop <;> rfl
  | case3 bs rest hnext =>
    rw [decodePart_of_damage hnext]
    rfl
  | case4 bs hnext => rw [decodePart_of_unfinished hnext]

end ApiSurface.Utf8
