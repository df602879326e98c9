import Mathlib.Data.List.Forall2
import Mathlib.Tactic.SplitIfs
import ApiSurface.Text.Utf8

/-!
This module contains the theory of reading text that may be damaged. The sequences that are read as a character
are exactly the encodings of characters, and what is read as one damage is the longest start of an encoding that
does not go on, or a byte that starts none.
-/

namespace ApiSurface.Utf8

/--
The byte lies in the range.
-/
def Fits (range : UInt8 × UInt8) (b : UInt8) : Prop :=
  range.1 ≤ b ∧ b ≤ range.2

/--
The number that the bytes of a sequence make together with its start.
-/
def number (n : Nat) (bs : List UInt8) : Nat :=
  bs.foldl (fun n b => n * 64 + b.toNat % 64) n

section Tail

variable {n : Nat} {ranges : List (UInt8 × UInt8)}

theorem tail_append_of_fits {mid : List UInt8} (h : List.Forall₂ Fits ranges mid) (rest : List UInt8) :
    tail n ranges (mid ++ rest) = .char (Char.ofNat (number n mid)) rest := by
  induction h generalizing n with
  | nil => rfl
  | cons hfits _ ih =>
    rw [List.cons_append, tail, if_pos]
    . apply ih
    . simpa [Fits] using hfits

theorem fits_of_tail_char {bs rest : List UInt8} {c : Char} (h : tail n ranges bs = .char c rest) :
    ∃ mid, List.Forall₂ Fits ranges mid ∧ bs = mid ++ rest ∧ c = Char.ofNat (number n mid) := by
  fun_induction tail n ranges bs with
  | case1 n rest =>
    cases h
    exact ⟨[], .nil, rfl, rfl⟩
  | case2 => simp at h
  | case3 n low high ranges b bs hfits ih =>
    obtain ⟨mid, hmid, rfl, rfl⟩ := ih h
    refine ⟨b :: mid, .cons ?_ hmid, rfl, rfl⟩
    simpa [Fits] using hfits
  | case4 => simp at h

theorem fits_of_tail_damage {bs rest : List UInt8} (h : tail n ranges bs = .damage rest) :
    ∃ done range later mid b after, ranges = done ++ range :: later ∧ List.Forall₂ Fits done mid ∧
      rest = b :: after ∧ bs = mid ++ rest ∧ ¬ Fits range b := by
  fun_induction tail n ranges bs with
  | case1 => simp at h
  | case2 => simp at h
  | case3 n low high ranges b bs hfits ih =>
    obtain ⟨done, range, later, mid, x, after, rfl, hmid, rfl, rfl, hx⟩ := ih h
    refine ⟨(low, high) :: done, range, later, b :: mid, x, after, rfl, .cons ?_ hmid, rfl, rfl, hx⟩
    simpa [Fits] using hfits
  | case4 n low high ranges b bs hfits =>
    cases h
    refine ⟨[], (low, high), ranges, [], b, bs, rfl, .nil, rfl, rfl, ?_⟩
    simpa [Fits] using hfits

theorem fits_of_tail_unfinished {bs : List UInt8} (h : tail n ranges bs = .unfinished) :
    ∃ done range later, ranges = done ++ range :: later ∧ List.Forall₂ Fits done bs := by
  fun_induction tail n ranges bs with
  | case1 => simp at h
  | case2 n range ranges => exact ⟨[], range, ranges, rfl, .nil⟩
  | case3 n low high ranges b bs hfits ih =>
    obtain ⟨done, range, later, rfl, hbs⟩ := ih h
    refine ⟨(low, high) :: done, range, later, rfl, .cons ?_ hbs⟩
    simpa [Fits] using hfits
  | case4 => simp at h

theorem tail_ne_ends (bs : List UInt8) : tail n ranges bs ≠ .ends := by
  fun_induction tail n ranges bs with
  | case1 => simp
  | case2 => simp
  | case3 _ _ _ _ _ _ _ ih => exact ih
  | case4 => simp

end Tail

theorem next_of_lt {b : UInt8} (hb : b.toNat < 0x80) (bs : List UInt8) :
    next (b :: bs) = .char (Char.ofNat b.toNat) bs := by
  rw [next, if_pos (UInt8.lt_iff_toNat_lt.mpr hb)]

theorem next_of_lead? {b : UInt8} (hb : 0x80 ≤ b.toNat) (bs : List UInt8) :
    next (b :: bs)
      =
    match lead? b with
    | none => .damage bs
    | some (n, ranges) => tail n ranges bs := by
  have hlt : ¬ b < 0x80 := by
    rw [UInt8.lt_iff_toNat_lt]
    exact Nat.not_lt.mpr hb
  rw [next]
  exact if_neg hlt

theorem next_cons_cases (b : UInt8) (bs : List UInt8) :
    (b.toNat < 0x80 ∧ next (b :: bs) = .char (Char.ofNat b.toNat) bs) ∨
    (0x80 ≤ b.toNat ∧ lead? b = none ∧ next (b :: bs) = .damage bs) ∨
    (∃ n ranges, 0x80 ≤ b.toNat ∧ lead? b = some (n, ranges) ∧ next (b :: bs) = tail n ranges bs) := by
  by_cases hb : b.toNat < 0x80
  . exact Or.inl ⟨hb, next_of_lt hb bs⟩
  . rw [Nat.not_lt] at hb
    rw [next_of_lead? hb]
    cases lead? b with
    | none => exact Or.inr (Or.inl ⟨hb, rfl, rfl⟩)
    | some lead => exact Or.inr (Or.inr ⟨lead.1, lead.2, hb, rfl, rfl⟩)

theorem eq_nil_of_next {bs : List UInt8} (h : next bs = .ends) : bs = [] := by
  cases bs with
  | nil => rfl
  | cons b bs =>
    rcases next_cons_cases b bs with ⟨_, hnext⟩ | ⟨_, _, hnext⟩ | ⟨n, ranges, _, _, hnext⟩
    . simp [hnext] at h
    . simp [hnext] at h
    . rw [hnext] at h
      exact absurd h (tail_ne_ends _)

theorem val_toNat_ofNat {v : Nat} (h : v.isValidChar) : (Char.ofNat v).val.toNat = v := by
  unfold Char.ofNat
  rw [dif_pos h]
  rfl

theorem ofNat_eq_iff {v : Nat} {b : UInt8} : UInt8.ofNat v = b ↔ v % 256 = b.toNat := by
  rw [← UInt8.toNat_inj]
  simp

theorem fits_iff {range : UInt8 × UInt8} {b : UInt8} :
    Fits range b ↔ range.1.toNat ≤ b.toNat ∧ b.toNat ≤ range.2.toNat := by
  unfold Fits
  rw [UInt8.le_iff_toNat_le, UInt8.le_iff_toNat_le]

theorem lead?_eq (b : UInt8) :
    lead? b
      =
    if 0xC2 ≤ b.toNat ∧ b.toNat ≤ 0xDF then some (b.toNat % 32, [continuation])
    else if b.toNat = 0xE0 then some (b.toNat % 16, [(0xA0, 0xBF), continuation])
    else if b.toNat = 0xED then some (b.toNat % 16, [(0x80, 0x9F), continuation])
    else if 0xE1 ≤ b.toNat ∧ b.toNat ≤ 0xEF then some (b.toNat % 16, [continuation, continuation])
    else if b.toNat = 0xF0 then some (b.toNat % 8, [(0x90, 0xBF), continuation, continuation])
    else if b.toNat = 0xF4 then some (b.toNat % 8, [(0x80, 0x8F), continuation, continuation])
    else if 0xF1 ≤ b.toNat ∧ b.toNat ≤ 0xF3 then some (b.toNat % 8, [continuation, continuation, continuation])
    else none := by
  simp only [lead?, UInt8.le_iff_toNat_le, Bool.and_eq_true, decide_eq_true_eq, beq_iff_eq, ← UInt8.toNat_inj,
    UInt8.reduceToNat]

theorem lead_two {b y : UInt8} (hb : 0xC2 ≤ b.toNat ∧ b.toNat ≤ 0xDF) (hy : 0x80 ≤ y.toNat ∧ y.toNat ≤ 0xBF) :
    ∃ n ranges, lead? b = some (n, ranges) ∧ List.Forall₂ Fits ranges [y] := by
  rw [lead?_eq, if_pos hb]
  refine ⟨_, _, rfl, ?_⟩
  simpa [fits_iff, continuation] using hy

theorem lead_three {b y z : UInt8} (hb : 0xE0 ≤ b.toNat ∧ b.toNat ≤ 0xEF) (hy : 0x80 ≤ y.toNat ∧ y.toNat ≤ 0xBF)
    (hz : 0x80 ≤ z.toNat ∧ z.toNat ≤ 0xBF) (hlong : b.toNat = 0xE0 → 0xA0 ≤ y.toNat)
    (hsurrogate : b.toNat = 0xED → y.toNat ≤ 0x9F) :
    ∃ n ranges, lead? b = some (n, ranges) ∧ List.Forall₂ Fits ranges [y, z] := by
  -- the range after E0 leaves out what two bytes can encode, and the one after ED the surrogates
  rw [lead?_eq]
  split_ifs
  any_goals omega
  all_goals
    refine ⟨_, _, rfl, ?_⟩
    simp only [List.forall₂_cons, fits_iff, continuation, UInt8.reduceToNat, List.Forall₂.nil, and_true]
    omega

theorem lead_four {b y z w : UInt8} (hb : 0xF0 ≤ b.toNat ∧ b.toNat ≤ 0xF4) (hy : 0x80 ≤ y.toNat ∧ y.toNat ≤ 0xBF)
    (hz : 0x80 ≤ z.toNat ∧ z.toNat ≤ 0xBF) (hw : 0x80 ≤ w.toNat ∧ w.toNat ≤ 0xBF)
    (hlong : b.toNat = 0xF0 → 0x90 ≤ y.toNat) (hbeyond : b.toNat = 0xF4 → y.toNat ≤ 0x8F) :
    ∃ n ranges, lead? b = some (n, ranges) ∧ List.Forall₂ Fits ranges [y, z, w] := by
  -- the range after F0 leaves out what three bytes can encode, and the one after F4 what is no character
  rw [lead?_eq]
  split_ifs
  any_goals omega
  all_goals
    refine ⟨_, _, rfl, ?_⟩
    simp only [List.forall₂_cons, fits_iff, continuation, UInt8.reduceToNat, List.Forall₂.nil, and_true]
    omega

theorem encode_one {v : Nat} {x : UInt8} (hv : v ≤ 0x7f) (hx : x.toNat = v) :
    String.utf8EncodeChar (Char.ofNat v) = [x] := by
  unfold String.utf8EncodeChar
  rw [val_toNat_ofNat (by left; omega)]
  dsimp only
  rw [if_pos hv]
  simp only [List.cons.injEq, ofNat_eq_iff, and_true]
  omega

theorem encode_two {v : Nat} {x y : UInt8} (hlow : 0x80 ≤ v) (hhigh : v ≤ 0x7ff) (hx : x.toNat = v / 64 + 0xc0)
    (hy : y.toNat = v % 64 + 0x80) : String.utf8EncodeChar (Char.ofNat v) = [x, y] := by
  unfold String.utf8EncodeChar
  rw [val_toNat_ofNat (by left; omega)]
  dsimp only
  rw [if_neg (by omega), if_pos hhigh]
  simp only [List.cons.injEq, ofNat_eq_iff, and_true]
  omega

theorem encode_three {v : Nat} {x y z : UInt8} (hlow : 0x800 ≤ v) (hhigh : v ≤ 0xffff) (hvalid : v.isValidChar)
    (hx : x.toNat = v / 4096 + 0xe0) (hy : y.toNat = v / 64 % 64 + 0x80) (hz : z.toNat = v % 64 + 0x80) :
    String.utf8EncodeChar (Char.ofNat v) = [x, y, z] := by
  unfold String.utf8EncodeChar
  rw [val_toNat_ofNat hvalid]
  dsimp only
  rw [if_neg (by omega), if_neg (by omega), if_pos hhigh]
  simp only [List.cons.injEq, ofNat_eq_iff, and_true]
  omega

theorem encode_four {v : Nat} {x y z w : UInt8} (hlow : 0x10000 ≤ v) (hhigh : v < 0x110000)
    (hx : x.toNat = v / 262144 + 0xf0) (hy : y.toNat = v / 4096 % 64 + 0x80) (hz : z.toNat = v / 64 % 64 + 0x80)
    (hw : w.toNat = v % 64 + 0x80) : String.utf8EncodeChar (Char.ofNat v) = [x, y, z, w] := by
  unfold String.utf8EncodeChar
  rw [val_toNat_ofNat (by right; omega)]
  dsimp only
  rw [if_neg (by omega), if_neg (by omega), if_neg (by omega)]
  simp only [List.cons.injEq, ofNat_eq_iff, and_true]
  omega

theorem encode_of_lead {b : UInt8} {n : Nat} {ranges : List (UInt8 × UInt8)} {mid : List UInt8}
    (hlead : lead? b = some (n, ranges)) (hmid : List.Forall₂ Fits ranges mid) :
    String.utf8EncodeChar (Char.ofNat (number n mid)) = b :: mid := by
  rw [lead?_eq] at hlead
  split_ifs at hlead
  all_goals
    cases hlead
    simp only [List.forall₂_cons_left_iff, List.forall₂_nil_left_iff, fits_iff, continuation,
      UInt8.reduceToNat] at hmid
  -- of the seven kinds of first bytes one asks for one more byte, three for two, and three for three
  . obtain ⟨x, _, hx, rfl, rfl⟩ := hmid
    simp only [number, List.foldl_cons, List.foldl_nil]
    apply encode_two <;> omega
  iterate 3
    obtain ⟨x, _, hx, ⟨y, _, hy, rfl, rfl⟩, rfl⟩ := hmid
    simp only [number, List.foldl_cons, List.foldl_nil]
    apply encode_three <;> omega
  iterate 3
    obtain ⟨x, _, hx, ⟨y, _, hy, ⟨z, _, hz, rfl, rfl⟩, rfl⟩, rfl⟩ := hmid
    simp only [number, List.foldl_cons, List.foldl_nil]
    apply encode_four <;> omega

theorem encode_cases (c : Char) :
    (∃ b, b.toNat < 0x80 ∧ String.utf8EncodeChar c = [b]) ∨
    (∃ b n ranges mid, 0x80 ≤ b.toNat ∧ lead? b = some (n, ranges) ∧ List.Forall₂ Fits ranges mid ∧
      String.utf8EncodeChar c = b :: mid) := by
  have hvalid : c.val.toNat.isValidChar := c.valid
  unfold String.utf8EncodeChar
  generalize c.val.toNat = v at hvalid
  dsimp only
  -- one case for each length of an encoding
  split_ifs
  . left
    refine ⟨_, ?_, rfl⟩
    rw [UInt8.toNat_ofNat']
    omega
  . have hlead : ∃ n ranges, lead? (.ofNat (v / 64 % 0x20 + 0xc0)) = some (n, ranges) ∧
        List.Forall₂ Fits ranges [.ofNat (v % 0x40 + 0x80)] := by
      apply lead_two <;> simp only [UInt8.toNat_ofNat'] <;> omega
    obtain ⟨n, ranges, hlead, hfits⟩ := hlead
    refine Or.inr ⟨_, n, ranges, _, ?_, hlead, hfits, rfl⟩
    rw [UInt8.toNat_ofNat']
    omega
  . have hlead : ∃ n ranges, lead? (.ofNat (v / 4096 % 0x10 + 0xe0)) = some (n, ranges) ∧
        List.Forall₂ Fits ranges [.ofNat (v / 64 % 0x40 + 0x80), .ofNat (v % 0x40 + 0x80)] := by
      apply lead_three <;> simp only [UInt8.toNat_ofNat'] <;> omega
    obtain ⟨n, ranges, hlead, hfits⟩ := hlead
    refine Or.inr ⟨_, n, ranges, _, ?_, hlead, hfits, rfl⟩
    rw [UInt8.toNat_ofNat']
    omega
  . have hlead : ∃ n ranges, lead? (.ofNat (v / 262144 % 0x08 + 0xf0)) = some (n, ranges) ∧
        List.Forall₂ Fits ranges
          [.ofNat (v / 4096 % 0x40 + 0x80), .ofNat (v / 64 % 0x40 + 0x80), .ofNat (v % 0x40 + 0x80)] := by
      apply lead_four <;> simp only [UInt8.toNat_ofNat'] <;> omega
    obtain ⟨n, ranges, hlead, hfits⟩ := hlead
    refine Or.inr ⟨_, n, ranges, _, ?_, hlead, hfits, rfl⟩
    rw [UInt8.toNat_ofNat']
    omega

theorem fits_of_encode_eq {c : Char} {b : UInt8} {n : Nat} {ranges : List (UInt8 × UInt8)} {mid : List UInt8}
    (hb : 0x80 ≤ b.toNat) (hlead : lead? b = some (n, ranges)) (h : String.utf8EncodeChar c = b :: mid) :
    List.Forall₂ Fits ranges mid := by
  rcases encode_cases c with ⟨x, hx, heq⟩ | ⟨x, m, ranges', mid', _, hlead', hmid', heq⟩
  . cases heq.symm.trans h
    omega
  . cases heq.symm.trans h
    rw [hlead] at hlead'
    cases hlead'
    exact hmid'

theorem lead_ranges_nonempty {b : UInt8} {n : Nat} {ranges : List (UInt8 × UInt8)}
    (hlead : lead? b = some (n, ranges)) : ∀ range ∈ ranges, Fits range range.1 := by
  rw [lead?_eq] at hlead
  split_ifs at hlead
  all_goals
    cases hlead
    simp [fits_iff, continuation]

theorem exists_fits_append {done later : List (UInt8 × UInt8)} {mid : List UInt8}
    (hlater : ∀ range ∈ later, Fits range range.1) (hmid : List.Forall₂ Fits done mid) :
    ∃ more, List.Forall₂ Fits (done ++ later) (mid ++ more) := by
  refine ⟨later.map (·.1), ?_⟩
  apply List.rel_append hmid
  rw [List.forall₂_map_right_iff, List.forall₂_same]
  exact hlater

end ApiSurface.Utf8
