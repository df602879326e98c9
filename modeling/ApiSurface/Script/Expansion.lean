import ApiSurface.Script.Reader
import ApiSurface.Text.Blank

/-!
This module contains what words become: fields, patterns and sums.
-/

namespace ApiSurface.Script

/--
A part of an expanded word.
-/
inductive Fragment where
  /-- A text between quotes. -/
  | fixed (s : String)
  /-- A text of the script without quotes. -/
  | plain (s : String)
  /-- The value of something without quotes, which is split at blanks. -/
  | loose (s : String)
  /-- The end of a field. -/
  | cut
deriving Repr

/--
The field that is being built, if it has begun, and those before it, the last one first.
-/
structure Fields where
  current : Option String := none
  done : List String := []

namespace Fields

/--
Add a text to the current field.
-/
def add (f : Fields) (s : String) : Fields :=
  { f with current := some (f.current.getD "" ++ s) }

/--
End the current field.
-/
def close (f : Fields) : Fields :=
  match f.current with
  | some s => { current := none, done := s :: f.done }
  | none => f

/--
Add a character that ends the field if it is a blank.
-/
def addLoose (f : Fields) (c : Char) : Fields :=
  if c == ' ' || c == '\t' || c == '\n' then f.close else f.add c.toString

/--
Add a part of a word.
-/
def push (f : Fields) : Fragment → Fields
  | .fixed s => f.add s
  | .plain s => f.add s
  | .loose s => s.toList.foldl addLoose f
  | .cut => f.close

end Fields

/--
The fields of an expanded word.
-/
def fieldsOf (fs : List Fragment) : List String :=
  (fs.foldl Fields.push {}).close.done.reverse

/--
The text of an expanded word that is not split.
-/
def textOf (fs : List Fragment) : String :=
  fs.foldl (fun s f => match f with
    | .fixed t => s ++ t
    | .plain t => s ++ t
    | .loose t => s ++ t
    | .cut => s ++ " ") ""

/--
The characters of an expanded word, each with whether it stands for itself.
-/
def patternOf (fs : List Fragment) : List (Bool × Char) :=
  fs.flatMap fun
    | .fixed s => s.toList.map (true, ·)
    | .plain s => s.toList.map (false, ·)
    | .loose s => s.toList.map (false, ·)
    | .cut => []

/--
The ranges between brackets, whose opening one is behind, and the pattern behind them.
-/
def bracketRanges (first : Bool) (acc : List (Char × Char)) :
    List (Bool × Char) → Option (List (Char × Char) × List (Bool × Char))
  | [] => none
  | (_, c) :: rest =>
    if c == ']' && !first then some (acc, rest)
    else
      let (high, used) := match rest with
        | (_, '-') :: (_, e) :: _ => if e == ']' then (c, 0) else (e, 2)
        | _ => (c, 0)
      bracketRanges false (acc ++ [(c, high)]) (rest.drop used)
termination_by ps => ps.length
decreasing_by
  simp only [List.length_cons, List.length_drop]
  omega

/--
Whether a pattern fits a text from the first to the last character.
-/
def fits : Nat → List (Bool × Char) → List Char → Bool
  | 0, _, _ => false
  | _ + 1, [], cs => cs.isEmpty
  | fuel + 1, (fixed, p) :: ps, cs =>
    if !fixed && p == '*' then
      fits fuel ps cs ||
        match cs with
        | [] => false
        | _ :: cs => fits fuel ((fixed, p) :: ps) cs
    else
      match cs with
      | [] => false
      | c :: cs =>
        if !fixed && p == '?' then fits fuel ps cs
        else if !fixed && p == '[' then
          let (negated, inner) := match ps with
            | (false, '!') :: rest => (true, rest)
            | _ => (false, ps)
          match bracketRanges true [] inner with
          | some (ranges, rest) => (ranges.any (fun (low, high) => low ≤ c && c ≤ high) != negated) && fits fuel rest cs
          | none => p == c && fits fuel ps cs
        else p == c && fits fuel ps cs

/--
Whether a pattern fits a text.
-/
def matchesText (pattern : List (Bool × Char)) (s : String) : Bool :=
  fits (pattern.length + s.length + 1) pattern s.toList

/--
A text without the shortest or the longest part at its start, or at its end, that a pattern fits.
-/
def trimBy (pattern : List (Bool × Char)) (atEnd longest : Bool) (s : String) : String :=
  let cs := s.toList
  let sizes := List.range (cs.length + 1)
  let hit (n : Nat) : Bool :=
    let part := if atEnd then cs.drop (cs.length - n) else cs.take n
    matchesText pattern (String.ofList part)
  match (if longest then sizes.reverse else sizes).find? hit with
  | some n => String.ofList (if atEnd then cs.take (cs.length - n) else cs.drop n)
  | none => s

/--
Read a whole number with an optional sign.
-/
def number? (s : String) : Option Int :=
  let cs := Text.trimChars s.toList
  let (negative, digits) := match cs with
    | '-' :: rest => (true, rest)
    | '+' :: rest => (false, rest)
    | _ => (false, cs)
  if digits.isEmpty || !digits.all Char.isDigit then none
  else
    let n : Int := digits.foldl (fun n d => n * 10 + (d.toNat - 48 : Nat)) 0
    some (if negative then -n else n)

/--
The operators of sums, those that bind least first.
-/
def operators : List (List String) :=
  [["||"], ["&&"], ["==", "!="], ["<=", ">=", "<", ">"], ["+", "-"], ["*", "/", "%"]]

/--
What an operator makes of two numbers; nothing divides by zero.
-/
def operate (op : String) (a b : Int) : Option Int :=
  let truth (p : Bool) : Option Int := some (if p then 1 else 0)
  match op with
  | "||" => truth (a != 0 || b != 0)
  | "&&" => truth (a != 0 && b != 0)
  | "==" => truth (a == b)
  | "!=" => truth (a != b)
  | "<=" => truth (decide (a ≤ b))
  | ">=" => truth (decide (b ≤ a))
  | "<" => truth (decide (a < b))
  | ">" => truth (decide (b < a))
  | "+" => some (a + b)
  | "-" => some (a - b)
  | "*" => some (a * b)
  | "/" => if b == 0 then none else some (a.tdiv b)
  | "%" => if b == 0 then none else some (a.tmod b)
  | _ => none

mutual

/--
The value of a sum whose operators are those of the given levels.
-/
def level (value : String → String) (fuel : Nat) (ops : List (List String)) (cs : List Char) : Option (Int × List Char) :=
  match fuel with
  | 0 => none
  | fuel + 1 =>
    match ops with
    | [] => operand value fuel cs
    | now :: tighter => do
      let (a, cs) ← level value fuel tighter cs
      levelRest value fuel now tighter a cs

/--
What follows the first operand of a level.
-/
def levelRest (value : String → String) (fuel : Nat) (now : List String) (tighter : List (List String)) (a : Int)
    (cs : List Char) : Option (Int × List Char) :=
  match fuel with
  | 0 => none
  | fuel + 1 =>
    let cs := Text.dropFront Text.isBlank cs
    match now.find? (fun op => (Text.afterChars? op.toList cs).isSome) with
    | none => some (a, cs)
    | some op => do
      let (b, cs) ← level value fuel tighter (cs.drop op.length)
      let r ← operate op a b
      levelRest value fuel now tighter r cs

/--
A number, a name, or a sum in parentheses.
-/
def operand (value : String → String) (fuel : Nat) (cs : List Char) : Option (Int × List Char) :=
  match fuel with
  | 0 => none
  | fuel + 1 =>
    match Text.dropFront Text.isBlank cs with
    | '(' :: rest => do
      let (a, cs) ← level value fuel operators rest
      match Text.dropFront Text.isBlank cs with
      | ')' :: rest => return (a, rest)
      | _ => none
    | '-' :: rest => do
      let (a, cs) ← operand value fuel rest
      return (-a, cs)
    | '!' :: rest => do
      let (a, cs) ← operand value fuel rest
      return (if a == 0 then 1 else 0, cs)
    | c :: rest =>
      if c.isDigit then
        (number? (String.ofList ((c :: rest).takeWhile Char.isDigit))).map (·, (c :: rest).dropWhile Char.isDigit)
      else if isNameChar c then
        let name := String.ofList ((c :: rest).takeWhile isNameChar)
        let v := value name
        (if v == "" then some 0 else number? v).map (·, (c :: rest).dropWhile isNameChar)
      else none
    | [] => none

end

/--
The value of a sum.
-/
def sumOf (value : String → String) (s : String) : Option Int :=
  if Text.isBlankText s then some 0
  else
    match level value (16 * s.length + 64) operators s.toList with
    | some (n, rest) => if (Text.trimChars rest).isEmpty then some n else none
    | none => none

end ApiSurface.Script
