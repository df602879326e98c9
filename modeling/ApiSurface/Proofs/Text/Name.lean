import Mathlib.Data.List.TakeWhile
import Mathlib.Data.String.Basic
import ApiSurface.Text.Name

/-!
This module contains the theory of dotted names: how a name can be divided at its dots, which segment is the last,
which of its segments can stand together as a qualifier, and which names are left alone when they are trimmed.
-/

namespace ApiSurface.Text

theorem splitChars_ne_nil (p : Char → Bool) (cs : List Char) : splitChars p cs ≠ [] := by
  cases cs with
  | nil => simp [splitChars]
  | cons c rest =>
    rw [splitChars]
    split
    . simp
    . split <;> simp

theorem not_of_mem_splitChars {p : Char → Bool} {cs part : List Char} (h : part ∈ splitChars p cs) :
    ∀ c ∈ part, p c = false := by
  induction cs generalizing part with
  | nil =>
    obtain rfl := List.mem_singleton.mp h
    simp
  | cons c rest ih =>
    rw [splitChars] at h
    split at h
    . next hnil => exact absurd hnil (splitChars_ne_nil p rest)
    . next first parts hparts =>
      rw [hparts] at ih
      split at h
      . rw [List.mem_cons] at h
        rcases h with rfl | h
        . simp
        . exact ih h
      . next hc =>
        rw [List.mem_cons] at h
        rcases h with rfl | h
        . intro d hd
          rw [List.mem_cons] at hd
          rcases hd with rfl | hd
          . exact Bool.eq_false_iff.mpr hc
          . exact ih List.mem_cons_self d hd
        . exact ih (List.mem_cons_of_mem first h)

/--
The name consists of ASCII letters, digits and underscores.
-/
def IsIdentifier (name : String) : Prop :=
  ∀ c ∈ name.toList, isIdentRest c = true

theorem isIdentifier_of_mem_identifierTokens {s token : String} (h : token ∈ identifierTokens s) :
    IsIdentifier token := by
  obtain ⟨part, hpart, rfl⟩ := List.mem_map.mp h
  have hmem : part ∈ splitChars (fun c => !isIdentRest c) s.toList := (List.mem_filter.mp hpart).1
  intro c hc
  rw [String.toList_ofList] at hc
  simpa using not_of_mem_splitChars hmem c hc

section Splits

variable {c : Char} {cs front back : List Char}

theorem splitsAtLastFirst_cons (c x : Char) (rest : List Char) :
    splitsAtLastFirst c (x :: rest)
      =
    (splitsAtLastFirst c rest).map (Prod.map (x :: ·) id) ++ if x = c then [([], rest)] else [] := by
  rw [splitsAtLastFirst]
  simp only [beq_iff_eq]
  split
  . rfl
  . rw [List.append_nil]
    rfl

theorem mem_splitsAtLastFirst : (front, back) ∈ splitsAtLastFirst c cs ↔ cs = front ++ c :: back := by
  induction cs generalizing front with
  | nil => simp [splitsAtLastFirst]
  | cons x rest ih =>
    rw [splitsAtLastFirst_cons, List.mem_append]
    have hlater : (front, back) ∈ (splitsAtLastFirst c rest).map (Prod.map (x :: ·) id)
        ↔ ∃ front', front = x :: front' ∧ rest = front' ++ c :: back := by
      simp only [List.mem_map, Prod.exists, Prod.map_apply, id, Prod.mk.injEq]
      constructor
      . rintro ⟨front', back', hmem, rfl, rfl⟩
        exact ⟨front', rfl, ih.mp hmem⟩
      . rintro ⟨front', rfl, hrest⟩
        exact ⟨front', back, ih.mpr hrest, rfl, rfl⟩
    have hhere : (front, back) ∈ (if x = c then [([], rest)] else []) ↔ x = c ∧ front = [] ∧ back = rest := by
      split <;> simp_all
    rw [hlater, hhere]
    cases front with
    | nil => simp [eq_comm]
    | cons y front => simp [eq_comm, and_comm]

theorem pairwise_splitsAtLastFirst (c : Char) (cs : List Char) :
    (splitsAtLastFirst c cs).Pairwise (fun later earlier => ∃ between, later.1 = earlier.1 ++ c :: between) := by
  induction cs with
  | nil => simp [splitsAtLastFirst]
  | cons x rest ih =>
    rw [splitsAtLastFirst_cons, List.pairwise_append]
    refine ⟨?_, ?_, ?_⟩
    . rw [List.pairwise_map]
      apply ih.imp
      rintro later earlier ⟨between, hlater⟩
      exact ⟨between, by simp [hlater]⟩
    . split <;> simp
    . -- the division at `x` itself comes last, and all others have `x` in front
      intro later hlater earlier hearlier
      obtain ⟨split, -, rfl⟩ := List.mem_map.mp hlater
      split at hearlier
      . next hx =>
        rw [List.mem_singleton] at hearlier
        exact ⟨split.1, by simp [hearlier, hx]⟩
      . simp at hearlier

/--
The part behind the last occurrence of `c` is in the part behind any of them.
-/
theorem map_head?_splitsAtLastFirst (c : Char) (front back : List Char) :
    (splitsAtLastFirst c (front ++ c :: back)).head?.map (·.2)
      =
    some (((splitsAtLastFirst c back).head?.map (·.2)).getD back) := by
  induction front with
  | nil =>
    rw [List.nil_append, splitsAtLastFirst_cons]
    cases splitsAtLastFirst c back <;> simp
  | cons x front ih =>
    rw [List.cons_append, splitsAtLastFirst_cons]
    cases hsplits : splitsAtLastFirst c (front ++ c :: back) with
    | nil => simp [hsplits] at ih
    | cons split later =>
      rw [hsplits] at ih
      simpa using ih

end Splits

section Names

variable {s q n run : String}

theorem mem_qualifierSplits : (q, n) ∈ qualifierSplits s ↔ s = q ++ "." ++ n := by
  unfold qualifierSplits
  simp only [List.mem_map, Prod.exists, Prod.mk.injEq, mem_splitsAtLastFirst]
  constructor
  . rintro ⟨front, back, hs, rfl, rfl⟩
    rw [← String.toList_inj]
    simp [hs]
  . rintro rfl
    exact ⟨q.toList, n.toList, by simp, by simp, by simp⟩

theorem pairwise_qualifierSplits (s : String) :
    (qualifierSplits s).Pairwise (fun longer shorter => ∃ between, longer.1 = shorter.1 ++ "." ++ between) := by
  unfold qualifierSplits
  rw [List.pairwise_map]
  apply (pairwise_splitsAtLastFirst '.' s.toList).imp
  rintro longer shorter ⟨between, hlonger⟩
  refine ⟨String.ofList between, ?_⟩
  rw [← String.toList_inj]
  simp [hlonger]

theorem qualifierSplits_eq_nil (h : '.' ∉ s.toList) : qualifierSplits s = [] := by
  apply List.eq_nil_iff_forall_not_mem.mpr
  rintro ⟨q, n⟩ hsplit
  apply h
  rw [mem_qualifierSplits.mp hsplit]
  simp

theorem toList_lastSegment (s : String) :
    (lastSegment s).toList = ((splitsAtLastFirst '.' s.toList).head?.map (·.2)).getD s.toList := by
  unfold lastSegment splitLastDot qualifierSplits
  rw [List.head?_map]
  cases (splitsAtLastFirst '.' s.toList).head? <;> simp

theorem lastSegment_append (q n : String) : lastSegment (q ++ "." ++ n) = lastSegment n := by
  have htext : (q ++ "." ++ n).toList = q.toList ++ '.' :: n.toList := by simp
  rw [← String.toList_inj, toList_lastSegment, toList_lastSegment, htext, map_head?_splitsAtLastFirst, Option.getD_some]

theorem lastSegment_of_splitLastDot (h : splitLastDot s = some (q, n)) : lastSegment s = n := by
  unfold lastSegment
  rw [h]

theorem lastSegment_of_splitFirstDot (h : splitFirstDot s = none) : lastSegment s = s := by
  unfold lastSegment splitLastDot
  rw [List.getLast?_eq_none_iff.mp h]
  rfl

theorem eq_of_splitFirstDot (h : splitFirstDot s = some (q, n)) : s = q ++ "." ++ n :=
  mem_qualifierSplits.mp (List.mem_of_getLast? h)

/--
The run stands in the name, from one dot or the front of the name to another dot: it consists of whole segments, and
the last one of the name is not among them.
-/
def IsQualifierRun (run name : String) : Prop :=
  ∃ back, name = run ++ "." ++ back ∨ ∃ front, name = front ++ "." ++ run ++ "." ++ back

/--
All qualifier runs of a name.
-/
def qualifierRuns (name : String) : List String :=
  (qualifierSplits name).flatMap fun (q, _) => q :: (qualifierSplits q).map (·.2)

theorem mem_qualifierRuns : run ∈ qualifierRuns s ↔ IsQualifierRun run s := by
  simp only [qualifierRuns, List.mem_flatMap, List.mem_cons, List.mem_map, Prod.exists, mem_qualifierSplits]
  constructor
  . rintro ⟨q, back, rfl, rfl | ⟨front, n, rfl, rfl⟩⟩
    . exact ⟨back, Or.inl rfl⟩
    . exact ⟨back, Or.inr ⟨front, rfl⟩⟩
  . rintro ⟨back, rfl | ⟨front, rfl⟩⟩
    . exact ⟨run, back, rfl, Or.inl rfl⟩
    . exact ⟨front ++ "." ++ run, back, rfl, Or.inr ⟨front, run, rfl, rfl⟩⟩

/--
There are no blanks and no marks of indirection in the name.
-/
def IsPlain (name : String) : Prop :=
  ∀ c ∈ name.toList, isBlank c = false ∧ isIndirection c = false

theorem IsPlain.append (hq : IsPlain q) (hn : IsPlain n) : IsPlain (q ++ n) := by
  intro c hc
  rw [String.toList_append, List.mem_append] at hc
  exact hc.elim (hq c) (hn c)

theorem IsPlain.right (h : IsPlain (q ++ n)) : IsPlain n := by
  intro c hc
  apply h
  rw [String.toList_append]
  exact List.mem_append_right _ hc

/--
The name is written in ASCII characters from `+` to `~`. It is asked of the bytes so that it is quickly checked of a
literal.
-/
def isVisibleAscii (name : String) : Bool :=
  name.toByteArray.data.toList.all (fun b => 43 ≤ b.toNat && b.toNat ≤ 126)

theorem head_utf8EncodeChar (c : Char) :
    ∃ b rest, String.utf8EncodeChar c = b :: rest ∧ (b.toNat = c.toNat ∨ 192 ≤ b.toNat) := by
  have hval : c.val.toNat = c.toNat := rfl
  unfold String.utf8EncodeChar
  dsimp only
  rw [hval]
  split_ifs
  all_goals
    refine ⟨_, _, rfl, ?_⟩
    rw [UInt8.toNat_ofNat']
    omega

theorem data_toByteArray (s : String) : s.toByteArray.data.toList = s.toList.flatMap String.utf8EncodeChar := by
  rw [← String.utf8Encode_toList, List.utf8Encode, List.data_toByteArray]

theorem isPlain_of_isVisibleAscii (h : isVisibleAscii s = true) : IsPlain s := by
  intro c hc
  unfold isVisibleAscii at h
  obtain ⟨b, rest, hbytes, hb⟩ := head_utf8EncodeChar c
  have hmem : b ∈ s.toByteArray.data.toList := by
    rw [data_toByteArray, List.mem_flatMap]
    exact ⟨c, hc, by simp [hbytes]⟩
  have hrange : 43 ≤ b.toNat ∧ b.toNat ≤ 126 := by simpa using List.all_eq_true.mp h b hmem
  have hvisible : 43 ≤ c.toNat ∧ c.toNat ≤ 126 := by omega
  constructor
  . simp only [isBlank, Bool.or_eq_false_iff, Bool.and_eq_false_iff, decide_eq_false_iff_not, beq_eq_false_iff_ne]
    omega
  . unfold isIndirection
    rw [Bool.or_eq_false_iff, beq_eq_false_iff_ne, beq_eq_false_iff_ne]
    constructor
    . rintro rfl
      revert hvisible
      decide
    . rintro rfl
      revert hvisible
      decide

theorem dropFront_eq_self {p : Char → Bool} {cs : List Char} (h : ∀ c ∈ cs, p c = false) : dropFront p cs = cs := by
  unfold dropFront
  rw [List.dropWhile_eq_self_iff]
  intro hlength
  rw [h _ (List.getElem_mem hlength)]
  simp

theorem dropBack_eq_self {p : Char → Bool} {cs : List Char} (h : ∀ c ∈ cs, p c = false) : dropBack p cs = cs := by
  have hreverse : dropFront p cs.reverse = cs.reverse := dropFront_eq_self (fun c hc => h c (List.mem_reverse.mp hc))
  unfold dropFront at hreverse
  unfold dropBack
  rw [hreverse, List.reverse_reverse]

theorem IsPlain.trim_eq (h : IsPlain s) : trim s = s := by
  have hblank : ∀ c ∈ s.toList, isBlank c = false := fun c hc => (h c hc).1
  unfold trim trimChars
  rw [dropFront_eq_self hblank, dropBack_eq_self hblank, String.ofList_toList]

theorem IsPlain.trimStartWhile_eq (h : IsPlain s) : trimStartWhile isIndirection s = s := by
  unfold trimStartWhile
  rw [dropFront_eq_self (fun c hc => (h c hc).2), String.ofList_toList]

end Names

end ApiSurface.Text
