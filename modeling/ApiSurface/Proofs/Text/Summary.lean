import Mathlib.Data.List.DropRight
import ApiSurface.Proofs.Text.Name
import ApiSurface.Text.Summary

/-!
This module contains the theory of trimmed texts, of lines and of summaries. A summary is there unless all lines are
blank. It is a line that fits and has no blanks at its ends, so a summary is its own summary.
-/

namespace ApiSurface.Text

/--
There is no blank at either end of the text.
-/
structure IsTrimmed (s : String) : Prop where
  front : ∀ c rest, s.toList = c :: rest → isBlank c = false
  back : ∀ c rest, s.toList = rest ++ [c] → isBlank c = false

/--
The second text is the first one without the blanks at its ends.
-/
structure Trims (line trimmed : String) : Prop where
  parts : ∃ front back, line = front ++ trimmed ++ back ∧ isBlankText front = true ∧ isBlankText back = true
  isTrimmed : IsTrimmed trimmed

section Trimming

variable {p : Char → Bool} {cs rest : List Char} {c : Char} {s : String}

theorem dropBack_eq_rdropWhile (p : Char → Bool) (cs : List Char) : dropBack p cs = cs.rdropWhile p := by
  rfl

theorem not_of_dropFront_eq_cons (h : dropFront p cs = c :: rest) : p c = false := by
  have hhead := List.head?_dropWhile_not p cs
  unfold dropFront at h
  rw [h] at hhead
  exact hhead

theorem not_of_dropBack_eq_append (h : dropBack p cs = rest ++ [c]) : p c = false := by
  rw [dropBack_eq_rdropWhile] at h
  have hlast := List.rdropWhile_last_not p cs (by simp [h])
  simpa [h] using hlast

theorem dropFront_split (p : Char → Bool) (cs : List Char) :
    ∃ front, cs = front ++ dropFront p cs ∧ front.all p = true := by
  refine ⟨cs.takeWhile p, List.takeWhile_append_dropWhile.symm, ?_⟩
  exact List.all_takeWhile

theorem dropBack_split (p : Char → Bool) (cs : List Char) :
    ∃ back, cs = dropBack p cs ++ back ∧ back.all p = true := by
  refine ⟨cs.rtakeWhile p, List.rdropWhile_append_rtakeWhile.symm, ?_⟩
  rw [List.all_eq_true]
  intro c
  exact List.mem_rtakeWhile_imp

theorem isBlankText_ofList (cs : List Char) : isBlankText (String.ofList cs) = cs.all isBlank := by
  rw [isBlankText, String.toList_ofList]

theorem isTrimmed_trim (s : String) : IsTrimmed (trim s) where
  front := by
    intro c rest h
    obtain ⟨back, hback, -⟩ := dropBack_split isBlank (dropFront isBlank s.toList)
    unfold trim trimChars at h
    rw [String.toList_ofList] at h
    rw [h, List.cons_append] at hback
    exact not_of_dropFront_eq_cons hback
  back := by
    intro c rest h
    unfold trim trimChars at h
    rw [String.toList_ofList] at h
    exact not_of_dropBack_eq_append h

theorem trims_trim (s : String) : Trims s (trim s) where
  parts := by
    obtain ⟨front, hfront, hfrontBlank⟩ := dropFront_split isBlank s.toList
    obtain ⟨back, hback, hbackBlank⟩ := dropBack_split isBlank (dropFront isBlank s.toList)
    refine ⟨String.ofList front, String.ofList back, ?_, ?_, ?_⟩
    . rw [← String.toList_inj]
      simp only [trim, trimChars, String.toList_append, String.toList_ofList, List.append_assoc]
      rw [← hback, ← hfront]
    . rw [isBlankText_ofList, hfrontBlank]
    . rw [isBlankText_ofList, hbackBlank]
  isTrimmed := isTrimmed_trim s

theorem IsTrimmed.trim_eq (h : IsTrimmed s) : trim s = s := by
  have hfront : dropFront isBlank s.toList = s.toList := by
    cases hs : s.toList with
    | nil => rfl
    | cons c rest => simp [dropFront, h.front c rest hs]
  have hback : dropBack isBlank s.toList = s.toList := by
    rw [dropBack_eq_rdropWhile, List.rdropWhile_eq_self_iff]
    intro hne
    rw [h.back _ _ (List.dropLast_append_getLast hne).symm]
    simp
  unfold trim trimChars
  rw [hfront, hback, String.ofList_toList]

theorem trim_eq_empty_iff : trim s = "" ↔ isBlankText s = true := by
  unfold trim trimChars isBlankText
  rw [← String.toList_inj, String.toList_ofList, dropBack_eq_rdropWhile, String.toList_empty,
    List.rdropWhile_eq_nil_iff, List.all_eq_true]
  constructor
  . intro h c hc
    obtain ⟨front, hfront, hblank⟩ := dropFront_split isBlank s.toList
    rw [hfront, List.mem_append] at hc
    exact hc.elim (List.all_eq_true.mp hblank c) (h c)
  . intro h c hc
    exact h c ((List.dropWhile_sublist isBlank).subset hc)

end Trimming

section Lines

variable {p : Char → Bool} {cs line : List Char} {s : String}

theorem subset_of_mem_stripReturns {parts : List (List Char)} {ended : Bool}
    (h : line ∈ linesChars.stripReturns parts ended) : ∃ part ∈ parts, line ⊆ part := by
  have hdrop : ∀ part, linesChars.dropReturn part ⊆ part := by
    intro part
    unfold linesChars.dropReturn
    split
    . exact List.dropLast_subset part
    . simp
  fun_induction linesChars.stripReturns parts ended with
  | case1 => simp at h
  | case2 part =>
    rw [List.mem_singleton] at h
    refine ⟨part, by simp, ?_⟩
    rw [h]
    split
    . exact hdrop part
    . simp
  | case3 part rest _ ih =>
    rw [List.mem_cons] at h
    cases h with
    | inl h => exact ⟨part, by simp, h ▸ hdrop part⟩
    | inr h =>
      obtain ⟨later, hlater, hsub⟩ := ih h
      exact ⟨later, List.mem_cons_of_mem part hlater, hsub⟩

theorem not_mem_of_mem_linesChars (h : line ∈ linesChars cs) : '\n' ∉ line := by
  unfold linesChars at h
  obtain ⟨part, hpart, hsub⟩ := subset_of_mem_stripReturns h
  have hmem : part ∈ splitChars (· == '\n') cs := by
    split at hpart
    . exact List.dropLast_subset _ hpart
    . exact hpart
  intro hnewline
  simpa using not_of_mem_splitChars hmem '\n' (hsub hnewline)

theorem linesChars_of_not_mem (hne : cs ≠ []) (h : '\n' ∉ cs) : linesChars cs = [cs] := by
  have hsplit : splitChars (· == '\n') cs = [cs] := by
    apply splitChars_of_not
    intro c hc
    rw [beq_eq_false_iff_ne]
    rintro rfl
    exact h hc
  have hended : (cs.getLast? == some '\n') = false := by
    rw [beq_eq_false_iff_ne]
    intro hlast
    exact h (List.mem_of_getLast? hlast)
  unfold linesChars
  simp [hsplit, hended, hne, linesChars.stripReturns]

theorem not_mem_of_mem_lines {text : String} (h : text ∈ lines s) : '\n' ∉ text.toList := by
  obtain ⟨line, hline, rfl⟩ := List.mem_map.mp h
  rw [String.toList_ofList]
  exact not_mem_of_mem_linesChars hline

theorem lines_of_not_mem (hne : s ≠ "") (h : '\n' ∉ s.toList) : lines s = [s] := by
  unfold lines
  rw [linesChars_of_not_mem (by simpa using hne) h]
  simp

end Lines

/--
The text is one line without blanks at its ends, with at least one character and at most `max` of them.
-/
structure FitsLine (max : Nat) (text : String) : Prop where
  nonempty : text ≠ ""
  oneLine : lines text = [text]
  isTrimmed : IsTrimmed text
  length_le : text.length ≤ max

/--
The line is the first one of the text that is not blank.
-/
def IsFirstLine (doc line : String) : Prop :=
  ∃ before after, lines doc = before ++ line :: after ∧ (∀ l ∈ before, isBlankText l = true) ∧ isBlankText line = false

/--
The second text is what the first `n` characters of the line are without the blanks at their end.
-/
structure CutsTo (n : Nat) (line kept : String) : Prop where
  parts : ∃ blanks rest, line = kept ++ blanks ++ rest ∧ isBlankText blanks = true ∧ (kept ++ blanks).length = n
  back : ∀ c rest, kept.toList = rest ++ [c] → isBlank c = false

/--
What a summary says when `line` is the first line that is not blank, without the blanks at its ends.
-/
def shorten (max : Nat) (line : String) : String :=
  if line.length ≤ max then line else trimEnd (String.ofList (line.toList.take (max - 3))) ++ ellipsis

section Summaries

variable {doc line text : String} {max n : Nat}

theorem summary_eq_map_find? (doc : String) (max : Nat) :
    summary doc max = ((lines doc).find? (fun line => !isBlankText line)).map (fun line => shorten max (trim line)) := by
  have hblank : ((fun line : String => !line.isEmpty) ∘ trim) = fun line => !isBlankText line := by
    funext line
    rw [Function.comp_apply, Bool.not_inj_iff, Bool.eq_iff_iff, String.isEmpty_iff, trim_eq_empty_iff]
  unfold summary
  rw [List.find?_map, hblank]
  cases (lines doc).find? (fun line => !isBlankText line) with
  | none => rfl
  | some line =>
    dsimp only [Option.map_some]
    unfold shorten
    split <;> rfl

theorem cutsTo_trimEnd (h : n ≤ line.length) : CutsTo n line (trimEnd (String.ofList (line.toList.take n))) where
  parts := by
    obtain ⟨blanks, hcut, hblank⟩ := dropBack_split isBlank (line.toList.take n)
    have hkept : trimEnd (String.ofList (line.toList.take n)) ++ String.ofList blanks = String.ofList (line.toList.take n) := by
      rw [← String.toList_inj]
      simp only [trimEnd, String.toList_append, String.toList_ofList]
      exact hcut.symm
    refine ⟨String.ofList blanks, String.ofList (line.toList.drop n), ?_, ?_, ?_⟩
    . rw [hkept, ← String.toList_inj]
      simp
    . rw [isBlankText_ofList, hblank]
    . rw [hkept, String.length_ofList, List.length_take, String.length_toList]
      omega
  back := by
    intro c rest hkept
    unfold trimEnd at hkept
    rw [String.toList_ofList, String.toList_ofList] at hkept
    exact not_of_dropBack_eq_append hkept

theorem CutsTo.length_le {kept : String} (h : CutsTo n line kept) : kept.length ≤ n := by
  obtain ⟨blanks, rest, -, -, hlength⟩ := h.parts
  rw [String.length_append] at hlength
  omega

theorem CutsTo.toList_isPrefix {kept : String} (h : CutsTo n line kept) : kept.toList <+: line.toList := by
  obtain ⟨blanks, rest, hline, -, -⟩ := h.parts
  rw [hline, String.toList_append, String.toList_append, List.append_assoc]
  exact List.prefix_append _ _

theorem CutsTo.isTrimmed_append_ellipsis {kept : String} (h : CutsTo n line kept) (hline : IsTrimmed line) :
    IsTrimmed (kept ++ ellipsis) where
  front := by
    intro c rest hc
    obtain ⟨behind, hbehind⟩ := h.toList_isPrefix
    rw [String.toList_append] at hc
    cases hkept : kept.toList with
    | nil =>
      rw [hkept, List.nil_append] at hc
      have hdot : '.' = c := (List.cons.inj hc).1
      rw [← hdot]
      decide
    | cons k ks =>
      rw [hkept] at hc hbehind
      have hk : k = c := (List.cons.inj hc).1
      rw [← hk]
      exact hline.front k _ hbehind.symm
  back := by
    intro c rest hc
    rw [String.toList_append] at hc
    have hdot : '.' = c := by simpa [ellipsis] using congrArg List.getLast? hc
    rw [← hdot]
    decide

theorem CutsTo.fitsLine {kept : String} (h : CutsTo (max - 3) line kept) (hmax : 3 ≤ max) (hline : IsTrimmed line)
    (hnewline : '\n' ∉ line.toList) : FitsLine max (kept ++ ellipsis) := by
  have hne : kept ++ ellipsis ≠ "" := by
    intro hempty
    simpa [ellipsis] using congrArg String.toList hempty
  refine ⟨hne, lines_of_not_mem hne ?_, h.isTrimmed_append_ellipsis hline, ?_⟩
  . rw [String.toList_append, List.mem_append]
    rintro (hmem | hmem)
    . exact hnewline (h.toList_isPrefix.subset hmem)
    . revert hmem
      decide
  . have hellipsis : ellipsis.length = 3 := by decide
    have := h.length_le
    rw [String.length_append]
    omega

theorem fitsLine_shorten (hmax : 3 ≤ max) (hne : line ≠ "") (hline : IsTrimmed line) (hnewline : '\n' ∉ line.toList) :
    FitsLine max (shorten max line) := by
  unfold shorten
  split
  . next hfits => exact ⟨hne, lines_of_not_mem hne hnewline, hline, hfits⟩
  . next hlong =>
    have hcut : CutsTo (max - 3) line (trimEnd (String.ofList (line.toList.take (max - 3)))) := by
      apply cutsTo_trimEnd
      omega
    exact hcut.fitsLine hmax hline hnewline

theorem FitsLine.summary_eq (h : FitsLine max text) : summary text max = some text := by
  have hblank : isBlankText text = false := by
    rw [← Bool.not_eq_true, ← trim_eq_empty_iff, h.isTrimmed.trim_eq]
    exact h.nonempty
  rw [summary_eq_map_find?, h.oneLine, List.find?_cons, hblank]
  simp [shorten, h.isTrimmed.trim_eq, h.length_le]

theorem summary_eq_some_iff :
    summary doc max = some text ↔ ∃ line, IsFirstLine doc line ∧ text = shorten max (trim line) := by
  rw [summary_eq_map_find?, Option.map_eq_some_iff]
  simp only [List.find?_eq_some_iff_append, IsFirstLine]
  constructor
  . rintro ⟨line, ⟨hline, before, after, hlines, hbefore⟩, htext⟩
    exact ⟨line, ⟨before, after, hlines, by simpa using hbefore, by simpa using hline⟩, htext.symm⟩
  . rintro ⟨line, ⟨before, after, hlines, hbefore, hline⟩, htext⟩
    exact ⟨line, ⟨by simpa using hline, before, after, hlines, by simpa using hbefore⟩, htext.symm⟩

theorem summary_eq_none_iff : summary doc max = none ↔ ∀ line ∈ lines doc, isBlankText line = true := by
  rw [summary_eq_map_find?, Option.map_eq_none_iff, List.find?_eq_none]
  simp

theorem IsFirstLine.not_newline_mem_trim (h : IsFirstLine doc line) : '\n' ∉ (trim line).toList := by
  obtain ⟨before, after, hlines, -, -⟩ := h
  obtain ⟨front, back, hline, -, -⟩ := (trims_trim line).parts
  have hmem : '\n' ∉ line.toList := by
    apply not_mem_of_mem_lines (s := doc)
    simp [hlines]
  rw [hline, String.toList_append, String.toList_append] at hmem
  simp only [List.mem_append, not_or] at hmem
  exact hmem.1.2

theorem IsFirstLine.trim_ne_empty (h : IsFirstLine doc line) : trim line ≠ "" := by
  obtain ⟨before, after, -, -, hline⟩ := h
  rw [ne_eq, trim_eq_empty_iff, hline]
  simp

theorem summary_gives_first_line (doc : String) (max : Nat) (hmax : 3 ≤ max) :
    (summary doc max = none ↔ ∀ line ∈ lines doc, isBlankText line = true) ∧
    (∀ text, summary doc max = some text →
      FitsLine max text ∧
      (∃ line trimmed, IsFirstLine doc line ∧ Trims line trimmed ∧
        (trimmed.length ≤ max → text = trimmed) ∧
        (max < trimmed.length → ∃ kept, CutsTo (max - 3) trimmed kept ∧ text = kept ++ "...")) ∧
      summary text max = some text) := by
  refine ⟨summary_eq_none_iff, ?_⟩
  intro text hsummary
  obtain ⟨line, hline, htext⟩ := summary_eq_some_iff.mp hsummary
  have hfits : FitsLine max (shorten max (trim line)) :=
    fitsLine_shorten hmax hline.trim_ne_empty (isTrimmed_trim line) hline.not_newline_mem_trim
  rw [← htext] at hfits
  refine ⟨hfits, ⟨line, trim line, hline, trims_trim line, ?_, ?_⟩, hfits.summary_eq⟩
  . intro hle
    rw [htext, shorten, if_pos hle]
  . intro hlt
    rw [htext, shorten, if_neg (Nat.not_le.mpr hlt)]
    exact ⟨_, cutsTo_trimEnd (by omega), rfl⟩

end Summaries

namespace Sending

/--
A blank line, and a line that is cut behind a blank when its summary may have 9 characters.
-/
def doc : String := "  \n\tSends one message. \r\nWaits for it."

theorem doc_summary_cut :
    3 ≤ 9 ∧
    summary doc 9 = some "Sends..." ∧
    FitsLine 9 "Sends..." ∧
    summary "Sends..." 9 = some "Sends..." := by
  have htext : summary doc 9 = some "Sends..." := by decide +kernel
  obtain ⟨hfits, -, hagain⟩ := (summary_gives_first_line doc 9 (by decide)).2 _ htext
  exact ⟨by decide, htext, hfits, hagain⟩

end Sending

end ApiSurface.Text
