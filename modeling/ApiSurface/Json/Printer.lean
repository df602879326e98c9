import ApiSurface.Json.Basic

/-!
This module contains the two written forms of a JSON value: on one line, and indented by two spaces with
every element and entry on a line of its own.
-/

namespace ApiSurface.Json

/--
The lower-case hexadecimal digit of a number below sixteen.
-/
def hexChar (n : Nat) : Char :=
  if n < 10 then Char.ofNat ('0'.toNat + n) else Char.ofNat ('a'.toNat + (n - 10))

/--
The form of a character inside a string: quotes, backslashes and control characters are escaped, the
latter by name where they have one.
-/
def escapeChar (c : Char) : List Char :=
  if c == '"' then ['\\', '"']
  else if c == '\\' then ['\\', '\\']
  else if c == '\n' then ['\\', 'n']
  else if c == '\r' then ['\\', 'r']
  else if c == '\t' then ['\\', 't']
  else if c == '\x08' then ['\\', 'b']
  else if c == '\x0c' then ['\\', 'f']
  else if c.toNat < 0x20 then ['\\', 'u', '0', '0', hexChar (c.toNat / 16), hexChar (c.toNat % 16)]
  else [c]

/--
The written form of a string.
-/
def stringChars (s : String) : List Char :=
  '"' :: (s.toList.flatMap escapeChar ++ ['"'])

/--
The written form of a number.
-/
def numberChars : Number → List Char
  | .int n => (toString n).toList
  | .float text => text.toList
  | .outOfRange => "null".toList

mutual
/--
The value on one line, without blanks.
-/
def compactChars : Json → List Char
  | null => "null".toList
  | bool true => "true".toList
  | bool false => "false".toList
  | num n => numberChars n
  | str s => stringChars s
  | badStr _ => "null".toList
  | arr items _ => '[' :: (compactItems items ++ [']'])
  | obj entries _ => '{' :: (compactEntries entries ++ ['}'])
  | broken _ => "null".toList

/-- The elements of a list, separated by commas. -/
def compactItems : List Json → List Char
  | [] => []
  | [j] => compactChars j
  | j :: rest => compactChars j ++ ',' :: compactItems rest

/-- The entries of an object, separated by commas. -/
def compactEntries : List (String × Json) → List Char
  | [] => []
  | [(k, j)] => stringChars k ++ ':' :: compactChars j
  | (k, j) :: rest => stringChars k ++ ':' :: (compactChars j ++ ',' :: compactEntries rest)
end

/--
A new line at this depth of nesting.
-/
def newLine (depth : Nat) : List Char :=
  '\n' :: List.replicate (2 * depth) ' '

mutual
/--
The value over several lines; an empty list or object stays on its line.
-/
def prettyChars (depth : Nat) : Json → List Char
  | arr [] _ => ['[', ']']
  | arr (j :: rest) _ => '[' :: (prettyItems (depth + 1) (j :: rest) ++ newLine depth ++ [']'])
  | obj [] _ => ['{', '}']
  | obj (e :: rest) _ => '{' :: (prettyEntries (depth + 1) (e :: rest) ++ newLine depth ++ ['}'])
  | null => "null".toList
  | bool true => "true".toList
  | bool false => "false".toList
  | num n => numberChars n
  | str s => stringChars s
  | badStr _ => "null".toList
  | broken _ => "null".toList

/-- The elements of a list, each on a line of its own. -/
def prettyItems (depth : Nat) : List Json → List Char
  | [] => []
  | [j] => newLine depth ++ prettyChars depth j
  | j :: rest => newLine depth ++ prettyChars depth j ++ ',' :: prettyItems depth rest

/-- The entries of an object, each on a line of its own. -/
def prettyEntries (depth : Nat) : List (String × Json) → List Char
  | [] => []
  | [(k, j)] => newLine depth ++ stringChars k ++ ':' :: ' ' :: prettyChars depth j
  | (k, j) :: rest =>
    newLine depth ++ stringChars k ++ ':' :: ' ' :: (prettyChars depth j ++ ',' :: prettyEntries depth rest)
end

/--
The one-line form.
-/
def compact (j : Json) : String :=
  String.ofList j.compactChars

/--
The indented form.
-/
def pretty (j : Json) : String :=
  String.ofList (j.prettyChars 0)

end ApiSurface.Json
