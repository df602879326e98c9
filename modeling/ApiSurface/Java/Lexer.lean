import ApiSurface.Code.Token

/-!
This module contains the lexer of Java. Closing angle brackets are single tokens, because they may close several
lists of type arguments. Comments are kept with the token that follows them.
-/

namespace ApiSurface.Java.Lexer

open Code

/--
The signs of more than one character, longer ones first.
-/
def signs : List String :=
  ["<<=", "...", "->", "::", "&&", "||", "++", "--", "==", "!=", "<=", ">=", "+=", "-=", "*=", "/=", "%=", "&=",
   "|=", "^=", "<<"]

/--
What the lexer knows: where it is, the comments since the last token, and the tokens so far, the last one first.
-/
structure State where
  cursor : Cursor
  comments : List Comment := []
  tokens : List Token := []

namespace State

/--
Leave out the next `n` characters.
-/
def skip (s : State) (n : Nat) : State :=
  { s with cursor := s.cursor.skip n }

/--
Make a token of the next `n` characters; it gets the comments.
-/
def emit (s : State) (kind : TokenKind) (n : Nat) : State :=
  { cursor := s.cursor.skip n
    comments := []
    tokens := { s.cursor.token kind n with comments := s.comments } :: s.tokens }

/--
Make a comment of the next `n` characters.
-/
def comment (s : State) (n : Nat) : State :=
  let after := s.cursor.skip n
  { s with cursor := after, comments := s.comments ++ [⟨s.cursor.slice n, s.cursor.row, after.row⟩] }

end State

/--
Whether a character can start a name.
-/
def isNameStart (c : Char) : Bool :=
  Code.isNameStart c || c == '$'

/--
Whether a character can continue a name.
-/
def isNameRest (c : Char) : Bool :=
  Code.isNameRest c || c == '$'

/--
One step.
-/
def step (s : State) : State :=
  let cs := s.cursor.ahead
  match cs with
  | [] => s
  | c :: rest =>
    if c == ' ' || c == '\t' || c == '\n' || c == '\r' || c == '\x0c' || c.toNat == 0xFEFF then s.skip 1
    else if startsWith "//" cs then s.comment (runLength (· != '\n') cs)
    else if startsWith "/*" cs then
      match distanceTo? "*/".toList (rest.drop 1) with
      | some n => s.comment (n + 4)
      | none => s.emit .sign cs.length
    else if startsWith "\"\"\"" cs then
      match blockQuotedLength? ['"', '"', '"'] (cs.drop 3) with
      | some n => s.emit .text (n + 3)
      | none => s.emit .sign 3
    else if c == '"' || c == '\'' then
      match quotedLength? c rest with
      | some n => s.emit .text (n + 1)
      | none => s.emit .sign 1
    else if isNameStart c then s.emit .word (runLength isNameRest cs)
    else if c.isDigit || (c == '.' && rest.head?.any Char.isDigit) then s.emit .number (numberLength cs)
    else s.emit .sign (signLength signs cs)

/--
Step until the text ends.
-/
def steps : Nat → State → State
  | 0, s => s
  | fuel + 1, s => if s.cursor.ahead.isEmpty then s else steps fuel (step s)

/--
The tokens of a text.
-/
def tokens (source : List Char) : List Token :=
  (steps (source.length + 1) { cursor := { ahead := source } }).tokens.reverse

end ApiSurface.Java.Lexer
