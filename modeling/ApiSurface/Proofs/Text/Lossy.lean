import Mathlib.Data.List.Basic
import ApiSurface.Proofs.Text.Utf8

/-!
This module contains what it means to read bytes as text although they may be damaged, stated by encodings alone:
encoded characters are read as they are, and each damage is the longest start of an encoding that is not a whole
one, or a byte that no encoding starts with. There is exactly one such reading of any bytes.
-/

namespace ApiSurface.Utf8

/--
Bytes that some encoded character starts with.
-/
def Starts (bs : List UInt8) : Prop :=
  ∃ c, bs <+: String.utf8EncodeChar c

/--
The first bytes are one damage of what stands in front of the rest.
-/
inductive Damage : List UInt8 → List UInt8 → Prop where
  /-- No character starts with the byte. -/
  | stray : ¬ Starts [b] → Damage [b] rest
  /-- A character starts with the bytes, but they are not all of it, and none goes on as the rest does. -/
  | broken : bad ≠ [] → Starts bad → (∀ c, bad ≠ String.utf8EncodeChar c) →
      (∀ b after, rest = b :: after → ¬ Starts (bad ++ [b])) → Damage bad rest

/--
The text that bytes are read as when every damage is replaced.
-/
inductive Lossy : List UInt8 → List Char → Prop where
  | nil : Lossy [] []
  | char : Lossy rest cs → Lossy (String.utf8EncodeChar c ++ rest) (c :: cs)
  | damage : Damage bad rest → Lossy rest cs → Lossy (bad ++ rest) (replacement :: cs)

theorem encode_append_inj {c c' : Char} {rest rest' : List UInt8}
    (h : String.utf8EncodeChar c ++ rest = String.utf8EncodeChar c' ++ rest') : c = c' ∧ rest = rest' := by
  have hc : some c = some c' := by
    rw [← ByteArray.utf8DecodeChar?_utf8EncodeChar_append (b := rest.toByteArray),
      ← ByteArray.utf8DecodeChar?_utf8EncodeChar_append (b := rest'.toByteArray), ← List.toByteArray_append,
      ← List.toByteArray_append, h]
  cases hc
  exact ⟨rfl, List.append_cancel_left h⟩

theorem Starts.of_isPrefix {bs bs' : List UInt8} (h : Starts bs) (hbs : bs' <+: bs) : Starts bs' := by
  obtain ⟨c, hc⟩ := h
  exact ⟨c, hbs.trans hc⟩

theorem starts_cons_iff {b : UInt8} {bs : List UInt8} {n : Nat} {ranges : List (UInt8 × UInt8)}
    (hb : 0x80 ≤ b.toNat) (hlead : lead? b = some (n, ranges)) :
    Starts (b :: bs) ↔ ∃ mid, List.Forall₂ Fits ranges mid ∧ bs <+: mid := by
  constructor
  . rintro ⟨c, later, heq⟩
    rw [List.cons_append] at heq
    exact ⟨bs ++ later, fits_of_encode_eq hb hlead heq.symm, List.prefix_append _ _⟩
  . rintro ⟨mid, hmid, hbs⟩
    refine ⟨Char.ofNat (number n mid), ?_⟩
    rw [encode_of_lead hlead hmid, List.cons_prefix_cons]
    exact ⟨rfl, hbs⟩

theorem not_starts_of_lead_none {b : UInt8} (hb : 0x80 ≤ b.toNat) (hlead : lead? b = none) : ¬ Starts [b] := by
  rintro ⟨c, hc⟩
  rcases encode_cases c with ⟨x, hx, heq⟩ | ⟨x, n, ranges, mid, _, hlead', _, heq⟩
  . rw [heq, List.cons_prefix_cons] at hc
    rw [hc.1] at hb
    omega
  . rw [heq, List.cons_prefix_cons] at hc
    rw [hc.1, hlead'] at hlead
    simp at hlead

theorem damage_of_fits {b : UInt8} {n : Nat} {done later : List (UInt8 × UInt8)} {range : UInt8 × UInt8}
    {mid rest : List UInt8} (hb : 0x80 ≤ b.toNat) (hlead : lead? b = some (n, done ++ range :: later))
    (hmid : List.Forall₂ Fits done mid) (hrest : ∀ x after, rest = x :: after → ¬ Fits range x) :
    Damage (b :: mid) rest := by
  apply Damage.broken
  . simp
  . rw [starts_cons_iff hb hlead]
    have hnonempty := lead_ranges_nonempty hlead
    obtain ⟨more, hmore⟩ := exists_fits_append (fun r hr => hnonempty r (List.mem_append_right _ hr)) hmid
    exact ⟨mid ++ more, hmore, List.prefix_append _ _⟩
  . intro c heq
    have hlength := (fits_of_encode_eq hb hlead heq.symm).length_eq
    have := hmid.length_eq
    simp only [List.length_append, List.length_cons] at hlength
    omega
  . intro x after hx hstarts
    rw [List.cons_append, starts_cons_iff hb hlead] at hstarts
    obtain ⟨whole, hwhole, suffix, rfl⟩ := hstarts
    have hdrop := List.forall₂_drop mid.length hwhole
    rw [← hmid.length_eq, List.drop_left, hmid.length_eq, List.append_assoc, List.drop_left] at hdrop
    cases hdrop with
    | cons hfits _ => exact hrest x after hx hfits

theorem next_encode_append (c : Char) (rest : List UInt8) :
    next (String.utf8EncodeChar c ++ rest) = .char c rest := by
  have hinj : ∀ c', String.utf8EncodeChar c' = String.utf8EncodeChar c → c' = c := by
    intro c' heq
    exact (encode_append_inj (congrArg (· ++ []) heq)).1
  rcases encode_cases c with ⟨b, hb, heq⟩ | ⟨b, n, ranges, mid, hb, hlead, hmid, heq⟩
  . have hc := hinj _ ((encode_one (by omega) rfl).trans heq.symm)
    rw [heq, List.cons_append, List.nil_append, next_of_lt hb, hc]
  . have hc := hinj _ ((encode_of_lead hlead hmid).trans heq.symm)
    rw [heq, List.cons_append, next_of_lead? hb, hlead]
    dsimp only
    rw [tail_append_of_fits hmid, hc]

theorem eq_encode_append_of_next {bs rest : List UInt8} {c : Char} (h : next bs = .char c rest) :
    bs = String.utf8EncodeChar c ++ rest := by
  cases bs with
  | nil => simp [next] at h
  | cons b bs =>
    rcases next_cons_cases b bs with ⟨hb, hnext⟩ | ⟨_, _, hnext⟩ | ⟨n, ranges, _, hlead, hnext⟩
    . rw [hnext] at h
      cases h
      rw [encode_one (Nat.le_of_lt_succ hb) rfl]
      rfl
    . simp [hnext] at h
    . rw [hnext] at h
      obtain ⟨mid, hmid, rfl, rfl⟩ := fits_of_tail_char h
      rw [encode_of_lead hlead hmid]
      rfl

theorem damage_of_next {bs rest : List UInt8} (h : next bs = .damage rest) :
    ∃ bad, bs = bad ++ rest ∧ Damage bad rest := by
  cases bs with
  | nil => simp [next] at h
  | cons b bs =>
    rcases next_cons_cases b bs with ⟨_, hnext⟩ | ⟨hb, hlead, hnext⟩ | ⟨n, ranges, hb, hlead, hnext⟩
    . simp [hnext] at h
    . rw [hnext] at h
      cases h
      exact ⟨[b], rfl, .stray (not_starts_of_lead_none hb hlead)⟩
    . rw [hnext] at h
      obtain ⟨done, range, later, mid, x, after, rfl, hmid, rfl, rfl, hx⟩ := fits_of_tail_damage h
      refine ⟨b :: mid, rfl, damage_of_fits hb hlead hmid ?_⟩
      intro y after' heq
      cases heq
      exact hx

theorem damage_of_next_unfinished {bs : List UInt8} (h : next bs = .unfinished) : Damage bs [] := by
  cases bs with
  | nil => simp [next] at h
  | cons b bs =>
    rcases next_cons_cases b bs with ⟨_, hnext⟩ | ⟨_, _, hnext⟩ | ⟨n, ranges, hb, hlead, hnext⟩
    . simp [hnext] at h
    . simp [hnext] at h
    . rw [hnext] at h
      obtain ⟨done, range, later, rfl, hmid⟩ := fits_of_tail_unfinished h
      apply damage_of_fits hb hlead hmid
      intro x after heq
      cases heq

theorem Damage.ne_nil {bad rest : List UInt8} (h : Damage bad rest) : bad ≠ [] := by
  cases h with
  | stray => simp
  | broken hne => exact hne

theorem Damage.not_starts {bad rest after : List UInt8} {x : UInt8} (h : Damage bad rest)
    (hrest : rest = x :: after) : ¬ Starts (bad ++ [x]) := by
  cases h with
  | stray hstray =>
    intro hstarts
    exact hstray (hstarts.of_isPrefix (List.prefix_append _ _))
  | broken _ _ _ hmax => exact hmax x after hrest

theorem Damage.append_ne_encode {bad rest rest' : List UInt8} {c : Char} (h : Damage bad rest) :
    bad ++ rest ≠ String.utf8EncodeChar c ++ rest' := by
  intro heq
  rcases List.append_eq_append_iff.mp heq with ⟨more, hencode, hrest⟩ | ⟨more, hbad, _⟩
  . -- the character has at least the bytes of the damage
    cases more with
    | cons x more =>
      apply h.not_starts hrest
      refine ⟨c, more, ?_⟩
      rw [hencode, List.append_assoc]
      rfl
    | nil =>
      rw [List.append_nil] at hencode
      cases h with
      | stray hstray =>
        apply hstray
        refine ⟨c, [], ?_⟩
        rw [List.append_nil, hencode]
      | broken _ _ hwhole => exact hwhole c hencode.symm
  . -- the damage has all bytes of the character and perhaps more
    have hne : String.utf8EncodeChar c ≠ [] := String.utf8EncodeChar_ne_nil
    cases h with
    | stray hstray =>
      cases hbytes : String.utf8EncodeChar c with
      | nil => exact absurd hbytes hne
      | cons y ys =>
        rw [hbytes, List.cons_append, List.cons.injEq] at hbad
        apply hstray
        refine ⟨c, ?_⟩
        rw [hbytes, hbad.1]
        simp
    | broken _ hstarts hwhole =>
      obtain ⟨c', later, hc'⟩ := hstarts
      rw [hbad, List.append_assoc] at hc'
      have := encode_append_inj (hc'.trans (List.append_nil _).symm)
      apply hwhole c
      rw [hbad, (List.append_eq_nil_iff.mp this.2).1, List.append_nil]

theorem Damage.eq_nil_of_append {bad rest more rest' : List UInt8} (h : Damage bad rest)
    (h' : Damage (bad ++ more) rest') (hrest : rest = more ++ rest') : more = [] := by
  cases more with
  | nil => rfl
  | cons x more =>
    exfalso
    apply h.not_starts hrest
    generalize hlonger : bad ++ x :: more = longer at h'
    cases h' with
    | stray =>
      have hlength := congrArg List.length hlonger
      have := List.length_pos_of_ne_nil h.ne_nil
      simp only [List.length_append, List.length_cons, List.length_nil] at hlength
      omega
    | broken _ hstarts =>
      apply hstarts.of_isPrefix
      refine ⟨more, ?_⟩
      rw [← hlonger, List.append_assoc]
      rfl

theorem Damage.append_inj {bad rest bad' rest' : List UInt8} (h : Damage bad rest) (h' : Damage bad' rest')
    (heq : bad ++ rest = bad' ++ rest') : rest = rest' := by
  rcases List.append_eq_append_iff.mp heq with ⟨more, rfl, hrest⟩ | ⟨more, rfl, hrest⟩
  . rw [hrest, h.eq_nil_of_append h' hrest]
    rfl
  . rw [hrest, h'.eq_nil_of_append h hrest]
    rfl

theorem Lossy.unique {bs : List UInt8} {cs cs' : List Char} (h : Lossy bs cs) (h' : Lossy bs cs') : cs = cs' := by
  induction h generalizing cs' with
  | nil =>
    generalize hbs : ([] : List UInt8) = bs at h'
    cases h' with
    | nil => rfl
    | char => exact absurd (List.append_eq_nil_iff.mp hbs.symm).1 String.utf8EncodeChar_ne_nil
    | damage hbad => exact absurd (List.append_eq_nil_iff.mp hbs.symm).1 hbad.ne_nil
  | @char rest cs c hrest ih =>
    generalize hbs : String.utf8EncodeChar c ++ rest = bs at h'
    cases h' with
    | nil => exact absurd (List.append_eq_nil_iff.mp hbs).1 String.utf8EncodeChar_ne_nil
    | char hrest' =>
      obtain ⟨rfl, rfl⟩ := encode_append_inj hbs
      rw [ih hrest']
    | damage hbad => exact absurd hbs.symm hbad.append_ne_encode
  | @damage bad rest cs hbad hrest ih =>
    generalize hbs : bad ++ rest = bs at h'
    cases h' with
    | nil => exact absurd (List.append_eq_nil_iff.mp hbs).1 hbad.ne_nil
    | char => exact absurd hbs hbad.append_ne_encode
    | damage hbad' hrest' =>
      obtain rfl := hbad.append_inj hbad' hbs
      rw [ih hrest']

theorem lossy_decode (bs : List UInt8) : Lossy bs (decode bs) := by
  fun_induction decode bs with
  | case1 bs hnext =>
    rw [eq_nil_of_next hnext]
    exact .nil
  | case2 bs c rest hnext _ ih =>
    rw [eq_encode_append_of_next hnext]
    exact .char ih
  | case3 bs rest hnext _ ih =>
    obtain ⟨bad, rfl, hbad⟩ := damage_of_next hnext
    exact .damage hbad ih
  | case4 bs hnext =>
    rw [← List.append_nil bs]
    exact .damage (damage_of_next_unfinished hnext) .nil

theorem lossy_iff {bs : List UInt8} {cs : List Char} : Lossy bs cs ↔ cs = decode bs := by
  constructor
  . intro h
    exact h.unique (lossy_decode bs)
  . intro h
    rw [h]
    apply lossy_decode

end ApiSurface.Utf8
