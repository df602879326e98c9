import ApiSurface.Code.Token

/-!
This module contains the lexer of Go. A line end is a token where it ends a statement: after a name, a literal,
a closing bracket or one of a few words and signs. Comments are kept with the token that follows them.
-/

namespace ApiSurface.Go.Lexer

open Code

/--
The signs of more than one character, longer ones first.
-/
def signs : List String :=
  ["<<=", ">>=", "&^=", "...", "&&", "||", "<-", "++", "--", "==", "!=", "<=", ">=", ":=", "+=", "-=", "*=",
   "/=", "%=", "&=", "|=", "^=", "<<", ">>", "&^"]

/--
Words that are no names.
-/
def keywords : List String :=
  ["break", "case", "chan", "const", "continue", "default", "defer", "else", "fallthrough", "for", "func", "go",
   "goto", "if", "import", "interface", "map", "package", "range", "return", "select", "struct", "switch",
   "type", "var"]

/--
Whether a line end after a token ends a statement.
-/
def endsStatement (t : Token) : Bool :=
  match t.kind with
  | .word => !keywords.contains t.text || ["break", "continue", "fallthrough", "return"].contains t.text
  | .number | .text => true
  | .sign => [")", "]", "\x7d", "++", "--"].contains t.text
  | _ => false

/--
What the lexer knows: where it is, the comments since the last token, and the tokens so far, the last one first.
-/
structure State where
  cursor : Cursor
  comments : List Comment := []
  tokens : List Token := []

namespace State

/--
Leave out the next `n` characters.
-/
def skip (s : State) (n : Nat) : State :=
  { s with cursor := s.cursor.skip n }

/--
Make a token of the next `n` characters; it gets the comments.
-/
def emit (s : State) (kind : TokenKind) (n : Nat) : State :=
  { cursor := s.cursor.skip n
    comments := []
    tokens := { s.cursor.token kind n with comments := s.comments } :: s.tokens }

/--
Make a comment of the next `n` characters.
-/
def comment (s : State) (n : Nat) : State :=
  let after := s.cursor.skip n
  { s with cursor := after, comments := s.comments ++ [⟨s.cursor.slice n, s.cursor.row, after.row⟩] }

/--
A line ends. If that ends a statement, it is a token; the comments wait for the next one.
-/
def endLine (s : State) : State :=
  let t := s.cursor.token .newline 1
  let s := s.skip 1
  if s.tokens.head?.any endsStatement then { s with tokens := t :: s.tokens } else s

end State

/--
One step.
-/
def step (s : State) : State :=
  let cs := s.cursor.ahead
  match cs with
  | [] => s
  | c :: rest =>
    if c == '\n' then s.endLine
    else if c == ' ' || c == '\t' || c == '\r' || c == '\x0c' || c == '\x0b' || c.toNat == 0xFEFF then s.skip 1
    else if startsWith "//" cs then s.comment (runLength (· != '\n') cs)
    else if startsWith "/*" cs then
      match distanceTo? "*/".toList (rest.drop 1) with
      | some n => s.comment (n + 4)
      | none => s.emit .sign cs.length
    else if c == '"' || c == '\'' then
      match quotedLength? c rest with
      | some n => s.emit .text (n + 1)
      | none => s.emit .sign 1
    else if c == '\x60' then
      match distanceTo? ['\x60'] rest with
      | some n => s.emit .text (n + 2)
      | none => s.emit .sign cs.length
    else if isNameStart c then s.emit .word (runLength isNameRest cs)
    else if c.isDigit || (c == '.' && rest.head?.any Char.isDigit) then s.emit .number (numberLength cs)
    else s.emit .sign (signLength signs cs)

/--
Step until the text ends.
-/
def steps : Nat → State → State
  | 0, s => s
  | fuel + 1, s => if s.cursor.ahead.isEmpty then s else steps fuel (step s)

/--
The tokens of a text.
-/
def tokens (source : List Char) : List Token :=
  (steps (source.length + 1) { cursor := { ahead := source } }).tokens.reverse

end ApiSurface.Go.Lexer
