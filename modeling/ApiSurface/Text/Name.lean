import ApiSurface.Text.Blank

/-!
This module contains what the index needs to know about names inside type expressions: identifier
tokens, dotted names, the head of a parent expression, and the ways to split a dotted name.
-/

namespace ApiSurface.Text

/--
The ASCII characters that can start an identifier.
-/
def isIdentStart (c : Char) : Bool :=
  c.isAlpha || c == '_'

/--
The ASCII characters that can continue an identifier.
-/
def isIdentRest (c : Char) : Bool :=
  c.isAlphanum || c == '_'

/--
The maximal runs of ASCII letters, digits and underscores.
-/
def identifierTokens (s : String) : List String :=
  (runsChars (fun c => !isIdentRest c) s.toList).map String.ofList

/--
The identifier at the front, if there is one, and what follows it.
-/
def takeIdent (cs : List Char) : Option (List Char × List Char) :=
  match cs with
  | [] => none
  | c :: rest => if isIdentStart c then some (c :: rest.takeWhile isIdentRest, rest.dropWhile isIdentRest) else none

theorem takeIdent_length {cs name after : List Char} (h : takeIdent cs = some (name, after)) :
    after.length < cs.length := by
  unfold takeIdent at h
  split at h
  . simp at h
  . next c rest =>
    split at h
    . cases h
      exact Nat.lt_succ_of_le (List.dropWhile_sublist _).length_le
    . simp at h

/--
The longest continuation `.name.name...` at the front, and what follows it.
-/
def takeSegments (cs : List Char) : List Char × List Char :=
  match cs with
  | '.' :: rest =>
    match h : takeIdent rest with
    | some (name, after) =>
      have := takeIdent_length h
      let (more, last) := takeSegments after
      ('.' :: name ++ more, last)
    | none => ([], '.' :: rest)
  | cs => ([], cs)
termination_by cs.length

theorem takeSegments_length (cs : List Char) : (takeSegments cs).2.length ≤ cs.length := by
  fun_induction takeSegments cs with
  | case1 rest name after hident _ more last hsegments ih =>
    have := takeIdent_length hident
    rw [hsegments] at ih
    dsimp only at ih ⊢
    rw [List.length_cons]
    omega
  | case2 => apply Nat.le_refl
  | case3 => apply Nat.le_refl

/--
The dotted names in a list of characters, scanning from the left and never overlapping.
-/
def dottedChars (cs : List Char) : List (List Char) :=
  match cs with
  | [] => []
  | c :: rest =>
    match h : takeIdent (c :: rest) with
    | some (name, after) =>
      have := Nat.lt_of_le_of_lt (takeSegments_length after) (takeIdent_length h)
      (name ++ (takeSegments after).1) :: dottedChars (takeSegments after).2
    | none => dottedChars rest
termination_by cs.length
decreasing_by
  . exact this
  . exact Nat.lt_succ_self _

/--
The dotted names that a type expression mentions, with their qualifiers.
-/
def dottedNames (s : String) : List String :=
  (dottedChars s.toList).map String.ofList

/--
The part in front of type arguments or of a call: what precedes the first `[`, `<` or `(`.
-/
def beforeArguments (s : String) : String :=
  String.ofList (s.toList.takeWhile (fun c => c != '[' && c != '<' && c != '('))

/--
Marks of indirection in front of a type.
-/
def isIndirection (c : Char) : Bool :=
  c == '*' || c == '&'

/--
The name a parent expression is about: `pkg.Base` for `*pkg.Base[T]`.
-/
def parentHead (s : String) : String :=
  trimStartWhile isIndirection (trim (beforeArguments s))

/--
Every way to divide the characters at an occurrence of `c`, the last occurrence first.
-/
def splitsAtLastFirst (c : Char) : List Char → List (List Char × List Char)
  | [] => []
  | x :: rest =>
    let later := (splitsAtLastFirst c rest).map (fun (front, back) => (x :: front, back))
    if x == c then later ++ [([], rest)] else later

/--
Every division of a dotted name into qualifier and name, the longest qualifier first.
-/
def qualifierSplits (s : String) : List (String × String) :=
  (splitsAtLastFirst '.' s.toList).map (fun (front, back) => (String.ofList front, String.ofList back))

/--
The division at the last dot.
-/
def splitLastDot (s : String) : Option (String × String) :=
  (qualifierSplits s).head?

/--
The division at the first dot.
-/
def splitFirstDot (s : String) : Option (String × String) :=
  (qualifierSplits s).getLast?

theorem length_of_mem_splitsAtLastFirst {c : Char} {cs front back : List Char}
    (h : (front, back) ∈ splitsAtLastFirst c cs) : back.length < cs.length := by
  induction cs generalizing front with
  | nil => simp [splitsAtLastFirst] at h
  | cons x rest ih =>
    have hlater : (front, back) ∈ (splitsAtLastFirst c rest).map (fun (front, back) => (x :: front, back)) →
        back.length < rest.length := by
      intro hmem
      obtain ⟨split, hsplit, heq⟩ := List.mem_map.mp hmem
      cases heq
      exact ih hsplit
    unfold splitsAtLastFirst at h
    dsimp only at h
    split at h
    . rw [List.mem_append, List.mem_singleton] at h
      cases h with
      | inl h => exact Nat.lt_succ_of_lt (hlater h)
      | inr h =>
        cases h
        exact Nat.lt_succ_self _
    . exact Nat.lt_succ_of_lt (hlater h)

theorem length_of_splitFirstDot {s front back : String} (h : splitFirstDot s = some (front, back)) :
    back.length < s.length := by
  obtain ⟨split, hsplit, heq⟩ := List.mem_map.mp (List.mem_of_getLast? h)
  cases heq
  rw [String.length_ofList, ← String.length_toList]
  exact length_of_mem_splitsAtLastFirst hsplit

/--
What follows the last dot, or everything.
-/
def lastSegment (s : String) : String :=
  match splitLastDot s with
  | some (_, name) => name
  | none => s

/--
What precedes the first dot, or everything.
-/
def firstSegment (s : String) : String :=
  match splitFirstDot s with
  | some (name, _) => name
  | none => s

/--
The unqualified name of a type expression: `Base` for `*pkg.Base[T]`.
-/
def bareName (s : String) : String :=
  lastSegment (trimStartWhile (· == '*') (trim (beforeArguments s)))

end ApiSurface.Text
