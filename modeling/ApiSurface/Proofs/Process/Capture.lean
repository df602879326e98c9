import ApiSurface.Proofs.Text.Incremental
import ApiSurface.Process.Capture

/-!
This module contains the theory of captured output: whatever the pieces are in which the bytes of an output come,
what is captured is the text of all its bytes, or the first characters of it and the mark.
-/

namespace ApiSurface

/--
A text as it is captured when no more than `limit` characters are kept.
-/
def Captured.ofChars (limit : Nat) (cs : List Char) : Captured :=
  if cs.length ≤ limit then { text := String.ofList cs, truncated := false }
  else { text := String.ofList (cs.take limit) ++ truncationMark, truncated := true }

theorem length_le_utf8ByteSize (cs : List Char) : cs.length ≤ (String.ofList cs).utf8ByteSize := by
  induction cs with
  | nil => simp
  | cons c cs ih =>
    have := c.utf8Size_pos
    rw [String.ofList_cons, String.utf8ByteSize_append, String.utf8ByteSize_singleton, List.length_cons]
    omega

namespace Capture

/--
The characters seen so far are kept as far as there is room for them.
-/
structure Keeps (limit : Nat) (cs : List Char) (c : Capture) : Prop where
  limit_eq : c.limit = limit
  text_eq : c.text = String.ofList (cs.take limit)
  length_eq : c.length = min cs.length limit
  truncated_iff : c.truncated = true ↔ limit < cs.length

variable {limit : Nat} {cs : List Char} {c : Capture}

theorem Keeps.append_of_truncated (h : Keeps limit cs c) (htruncated : c.truncated = true) (more : List Char) :
    Keeps limit (cs ++ more) c := by
  have hlimit := h.truncated_iff.mp htruncated
  refine ⟨h.limit_eq, ?_, ?_, ?_⟩
  . rw [h.text_eq, List.take_append_of_le_length (Nat.le_of_lt hlimit)]
  . rw [h.length_eq, List.length_append]
    omega
  . simp only [htruncated, List.length_append, true_iff]
    omega

theorem Keeps.append_of_fits (h : Keeps limit cs c) (more : List Char) (hfits : (cs ++ more).length ≤ limit) :
    Keeps limit (cs ++ more)
      { c with text := c.text ++ String.ofList more, length := c.length + more.length } := by
  rw [List.length_append] at hfits
  refine ⟨h.limit_eq, ?_, ?_, ?_⟩
  . dsimp only
    rw [h.text_eq, List.take_of_length_le (by omega), List.take_of_length_le (by simpa using hfits),
      String.ofList_append]
  . dsimp only
    rw [h.length_eq, List.length_append]
    omega
  . dsimp only
    rw [h.truncated_iff, List.length_append]
    omega

theorem Keeps.pushChar (h : Keeps limit cs c) (x : Char) : Keeps limit (cs ++ [x]) (c.pushChar x) := by
  unfold Capture.pushChar
  split
  . next htruncated => exact h.append_of_truncated htruncated [x]
  . next htruncated =>
    rw [h.truncated_iff] at htruncated
    have hlength := h.length_eq
    split
    . next hroom =>
      rw [h.limit_eq] at hroom
      have hfits : (cs ++ [x]).length ≤ limit := by
        rw [List.length_append, List.length_singleton]
        omega
      simpa [String.append_singleton] using h.append_of_fits [x] hfits
    . next hroom =>
      rw [h.limit_eq] at hroom
      refine ⟨h.limit_eq, ?_, ?_, ?_⟩
      . dsimp only
        rw [h.text_eq, List.take_append_of_le_length (by omega)]
      . dsimp only
        rw [hlength, List.length_append]
        omega
      . simp only [List.length_append, List.length_singleton, true_iff]
        omega

theorem Keeps.foldl_pushChar (h : Keeps limit cs c) (more : List Char) :
    Keeps limit (cs ++ more) (more.foldl Capture.pushChar c) := by
  induction more generalizing cs c with
  | nil => simpa using h
  | cons x more ih =>
    rw [List.foldl_cons, List.append_cons]
    exact ih (h.pushChar x)

theorem Keeps.pushText (h : Keeps limit cs c) (more : List Char) :
    Keeps limit (cs ++ more) (c.pushText (String.ofList more)) := by
  unfold Capture.pushText
  split
  . next htruncated => exact h.append_of_truncated htruncated more
  . next htruncated =>
    rw [h.truncated_iff] at htruncated
    split
    . next hroom =>
      -- the bytes fit, so the characters do, and both ways of counting agree
      rw [h.limit_eq, h.length_eq] at hroom
      have := length_le_utf8ByteSize more
      have hfits : (cs ++ more).length ≤ limit := by
        rw [List.length_append]
        omega
      simpa using h.append_of_fits more hfits
    . simpa using h.foldl_pushChar more

@[simp]
theorem pending_pushChar (c : Capture) (x : Char) : (c.pushChar x).pending = c.pending := by
  unfold pushChar
  split
  . rfl
  . split <;> rfl

@[simp]
theorem pending_foldl_pushChar (c : Capture) (cs : List Char) : (cs.foldl pushChar c).pending = c.pending := by
  induction cs generalizing c with
  | nil => rfl
  | cons x cs ih => rw [List.foldl_cons, ih, pending_pushChar]

@[simp]
theorem pending_pushText (c : Capture) (s : String) : (c.pushText s).pending = c.pending := by
  unfold pushText
  split
  . rfl
  . split
    . rfl
    . apply pending_foldl_pushChar

theorem Keeps.setPending (h : Keeps limit cs c) (bs : List UInt8) : Keeps limit cs { c with pending := bs } :=
  ⟨h.limit_eq, h.text_eq, h.length_eq, h.truncated_iff⟩

theorem Keeps.pushReplacement (h : Keeps limit cs c) :
    Keeps limit (cs ++ [Utf8.replacement]) (c.pushText (String.singleton Utf8.replacement)) := by
  rw [String.singleton_eq_ofList]
  exact h.pushText [Utf8.replacement]

/--
The characters read so far are kept as far as there is room for them. As long as there is, the bytes of a character
that is not complete wait for more.
-/
structure Holds (limit : Nat) (part : List Char × List UInt8) (c : Capture) : Prop where
  keeps : Keeps limit part.1 c
  pending_eq : c.truncated = false → c.pending = part.2

theorem holds_start (limit : Nat) : Holds limit (Utf8.decodePart []) { limit := limit } := by
  refine ⟨⟨rfl, ?_, ?_, ?_⟩, ?_⟩ <;> simp

theorem Keeps.absorb (h : Keeps limit cs c) (hpending : c.pending = []) (bs : List UInt8) :
    Holds limit (cs ++ (Utf8.decodePart bs).1, (Utf8.decodePart bs).2) (c.absorb bs) := by
  fun_induction Capture.absorb c bs generalizing cs with
  | case1 c bs htruncated => exact ⟨h.append_of_truncated htruncated _, by simp [htruncated]⟩
  | case2 c bs _ more hwhole =>
    rw [Utf8.decodePart_eq_wholeChars, hwhole]
    exact ⟨h.pushText more, by simp [hpending]⟩
  | case3 c bs _ more rest hwhole _ ih =>
    have hread := ih (h.pushText more).pushReplacement (by simp [hpending])
    rw [Utf8.decodePart_eq_wholeChars bs, hwhole]
    simpa using hread
  | case4 c bs _ more rest hwhole =>
    rw [Utf8.decodePart_eq_wholeChars, hwhole]
    refine ⟨h.pushText more, ?_⟩
    simp_all
  | case5 c bs _ more rest hwhole =>
    rw [Utf8.decodePart_eq_wholeChars, hwhole]
    exact ⟨(h.pushText more).setPending rest, fun _ => rfl⟩

variable {bytes : List UInt8}

theorem Holds.push (h : Holds limit (Utf8.decodePart bytes) c) (more : List UInt8) :
    Holds limit (Utf8.decodePart (bytes ++ more)) (c.push more) := by
  rw [Utf8.decodePart_append]
  unfold Capture.push
  split
  . -- the bytes are dropped, and no character of them would have been kept
    next htruncated => exact ⟨h.keeps.append_of_truncated htruncated _, by simp [htruncated]⟩
  . next htruncated =>
    rw [h.pending_eq (by simpa using htruncated)]
    exact (h.keeps.setPending []).absorb rfl _

theorem Holds.foldl_push (h : Holds limit (Utf8.decodePart bytes) c) (pieces : List (List UInt8)) :
    Holds limit (Utf8.decodePart (bytes ++ pieces.flatten)) (pieces.foldl Capture.push c) := by
  induction pieces generalizing bytes c with
  | nil => simpa using h
  | cons piece pieces ih =>
    rw [List.foldl_cons, List.flatten_cons, ← List.append_assoc]
    exact ih (h.push piece)

theorem Keeps.captured (h : Keeps limit cs c) :
    (if c.truncated then { text := c.text ++ truncationMark, truncated := true } else { text := c.text } : Captured)
      =
    Captured.ofChars limit cs := by
  unfold Captured.ofChars
  split
  . next htruncated =>
    rw [h.truncated_iff] at htruncated
    rw [if_neg (by omega), h.text_eq]
  . next htruncated =>
    rw [h.truncated_iff] at htruncated
    rw [if_pos (by omega), h.text_eq, List.take_of_length_le (by omega)]

theorem Holds.finish (h : Holds limit (Utf8.decodePart bytes) c) :
    c.finish = Captured.ofChars limit (Utf8.decode bytes) := by
  unfold Capture.finish
  apply Keeps.captured
  rw [Utf8.decode_eq_decodePart]
  cases htruncated : c.truncated with
  | true =>
    rw [Bool.or_true, if_pos rfl]
    exact h.keeps.append_of_truncated htruncated _
  | false =>
    rw [Bool.or_false, h.pending_eq htruncated]
    split
    . simpa using h.keeps
    . exact h.keeps.pushReplacement

theorem run_eq_ofChars_decode (limit : Nat) (pieces : List (List UInt8)) :
    (∀ cs, Utf8.Lossy pieces.flatten cs ↔ cs = Utf8.decode pieces.flatten) ∧
    run limit pieces = Captured.ofChars limit (Utf8.decode pieces.flatten) := by
  refine ⟨fun cs => Utf8.lossy_iff, ?_⟩
  have h := (holds_start limit).foldl_push pieces
  rw [List.nil_append] at h
  exact h.finish

example : run 2 [[0x61, 0xC3], [0xA9], [0xE2, 0x82]] = { text := "aé" ++ truncationMark, truncated := true } := by
  decide +kernel

end Capture

end ApiSurface
