import ApiSurface.Code.Token

/-!
This module contains the lexer of Python. Line ends and indentation become tokens: a block begins where a
line ends in a colon and the next one is indented further, and ends at the first line that is indented less.
A line that is indented further for no such reason is an ordinary line.
-/

namespace ApiSurface.Python.Lexer

open Code

/--
The signs of more than one character, longer ones first.
-/
def signs : List String :=
  ["**=", "//=", ">>=", "<<=", "...", "!=", "->", ":=", "==", "<=", ">=", "<>", "+=", "-=", "*=", "/=", "%=",
   "&=", "|=", "^=", "@=", "**", "//", "<<", ">>"]

/--
What the lexer is inside of.
-/
inductive Context where
  /-- An open bracket, inside of which line ends mean nothing. -/
  | bracket
  /-- The characters of a literal with expressions in it. -/
  | literal (quotes : List Char)
  /-- An expression in such a literal. -/
  | hole
  /-- The format that may follow an expression in a literal. -/
  | format
deriving DecidableEq

/--
What the lexer knows.
-/
structure State where
  cursor : Cursor
  contexts : List Context := []
  /-- The indentations of the open blocks, the innermost first. -/
  indents : List Nat := []
  /-- The tokens so far, the last one first. -/
  tokens : List Token := []

namespace State

/--
Leave out the next `n` characters.
-/
def skip (s : State) (n : Nat) : State :=
  { s with cursor := s.cursor.skip n }

/--
Make a token of the next `n` characters.
-/
def emit (s : State) (kind : TokenKind) (n : Nat) : State :=
  { s with cursor := s.cursor.skip n, tokens := s.cursor.token kind n :: s.tokens }

/--
Enter a context.
-/
def enter (s : State) (c : Context) : State :=
  { s with contexts := c :: s.contexts }

/--
Leave the innermost context.
-/
def leave (s : State) : State :=
  { s with contexts := s.contexts.drop 1 }

/--
The indentation of the innermost block.
-/
def indent (s : State) : Nat :=
  s.indents.head?.getD 0

end State

/--
The indentation of the next line that has more than a comment on it. A tab counts as eight columns. The
first argument is the indentation so far, the second says whether a comment is being passed over.
-/
def nextIndent : Nat → Bool → List Char → Nat
  | _, _, [] => 0
  | n, comment, c :: rest =>
    if c == '\n' || c == '\r' || c == '\x0c' then nextIndent 0 (comment && c != '\n') rest
    else if comment then nextIndent n true rest
    else if c == ' ' then nextIndent (n + 1) false rest
    else if c == '\t' then nextIndent (n + 8) false rest
    else if c == '#' then nextIndent n true rest
    else n

/--
End the blocks that are indented further than a line.
-/
def closeBlocks (indent : Nat) : List Nat → State → State
  | [], s => s
  | top :: outer, s =>
    if indent < top then closeBlocks indent outer { s with indents := outer, tokens := s.cursor.token .dedent 0 :: s.tokens }
    else s

/--
The line has ended; the next one has this indentation.
-/
def endLine (s : State) (indent : Nat) : State :=
  match s.tokens with
  | [] => s
  | last :: _ =>
    if last.kind == .newline || last.kind == .indent || last.kind == .dedent then closeBlocks indent s.indents s
    else if last.kind == .sign && last.text == ":" && s.indent < indent then
      { s with indents := indent :: s.indents, tokens := s.cursor.token .indent 0 :: s.tokens }
    else closeBlocks indent s.indents { s with tokens := s.cursor.token .newline 0 :: s.tokens }

/--
The length of the letters in front of the quotes of a literal, if a literal begins here.
-/
def literalMark? (cs : List Char) : Option Nat :=
  let n := runLength (fun c => "rRbBuUfF".toList.contains c) (cs.take 3)
  match cs.drop n with
  | c :: _ => if c == '"' || c == '\'' then some n else none
  | [] => none

/--
The quotes at the front: three or one.
-/
def quotesAt (cs : List Char) : List Char :=
  match cs with
  | [] => []
  | q :: _ => if [q, q, q].isPrefixOf cs then [q, q, q] else [q]

/--
A literal whose letters have length `n` begins here.
-/
def literal (s : State) (n : Nat) : State :=
  let cs := s.cursor.ahead
  let quotes := quotesAt (cs.drop n)
  let start := n + quotes.length
  let body := cs.drop start
  if (cs.take n).any (fun c => c == 'f' || c == 'F') then
    (s.emit .openText start).enter (.literal quotes)
  else
    let length :=
      match quotes with
      | [q] => quotedLength? q body
      | _ => blockQuotedLength? quotes body
    match length with
    | some m => s.emit .text (start + m)
    | none => s.emit .sign start

/--
Read a sign, and follow the brackets.
-/
def sign (s : State) : State :=
  let n := signLength signs s.cursor.ahead
  match s.cursor.ahead, s.contexts with
  | ':' :: _, .hole :: _ => (s.skip 1).enter .format
  | '!' :: c :: _, .hole :: _ => if c == '=' then s.emit .sign 2 else s.skip 1
  | c :: _, context :: _ =>
    if c == '(' || c == '[' || c == '\x7b' then (s.emit .sign 1).enter .bracket
    else if c == ')' || c == ']' || c == '\x7d' then (s.emit .sign 1).leave
    else if context == .hole && c == ':' then (s.skip 1).enter .format
    else s.emit .sign n
  | c :: _, [] =>
    if c == '(' || c == '[' || c == '\x7b' then (s.emit .sign 1).enter .bracket else s.emit .sign n
  | [], _ => s

/--
One step outside of literals. With `lax` every line end counts, also inside of brackets.
-/
def codeStep (lax : Bool) (s : State) : State :=
  let cs := s.cursor.ahead
  match cs with
  | [] => s
  | c :: rest =>
    if c == '\n' then
      let s := s.skip 1
      if s.contexts.isEmpty || lax then endLine { s with contexts := [] } (nextIndent 0 false rest) else s
    else if c == '\\' && startsWith "\n" rest then s.skip 2
    else if c == '\\' && startsWith "\r\n" rest then s.skip 3
    else if c == ' ' || c == '\t' || c == '\r' || c == '\x0c' || c.toNat == 0xFEFF then s.skip 1
    else if c == '#' then s.skip (runLength (· != '\n') cs)
    else
      match literalMark? cs with
      | some n => literal s n
      | none =>
        if isNameStart c then s.emit .word (runLength isNameRest cs)
        else if c.isDigit || (c == '.' && rest.head?.any Char.isDigit) then s.emit .number (numberLength cs)
        else sign s

/--
One step inside a literal with expressions in it.
-/
def literalStep (quotes : List Char) (s : State) : State :=
  let cs := s.cursor.ahead
  if quotes.isPrefixOf cs then (s.emit .closeText quotes.length).leave
  else
    match cs with
    | [] => s
    | '\x7b' :: '\x7b' :: _ => s.skip 2
    | '\x7d' :: '\x7d' :: _ => s.skip 2
    | '\x7b' :: _ => (s.emit .sign 1).enter .hole
    | '\\' :: '\x7b' :: _ => s.skip 1
    | '\\' :: _ => s.skip 2
    | '\n' :: _ => if quotes.length == 1 then s.leave else s.skip 1
    | _ => s.skip 1

/--
One step inside the format of an expression in a literal.
-/
def formatStep (s : State) : State :=
  match s.cursor.ahead with
  | '\x7d' :: _ => (s.emit .sign 1).leave.leave
  | '\x7b' :: _ => (s.emit .sign 1).enter .hole
  | _ => s.skip 1

/--
One step.
-/
def step (lax : Bool) (s : State) : State :=
  match s.contexts with
  | .literal quotes :: _ => literalStep quotes s
  | .format :: _ => formatStep s
  | _ => codeStep lax s

/--
Step until the text ends.
-/
def steps (lax : Bool) : Nat → State → State
  | 0, s => s
  | fuel + 1, s => if s.cursor.ahead.isEmpty then s else steps lax fuel (step lax s)

/--
The state after the whole text.
-/
def finish (lax : Bool) (source : List Char) : State :=
  let s := steps lax (2 * source.length + 2) { cursor := { ahead := source } }
  { s with tokens := (endLine s 0).tokens }

/--
The tokens of a text. If brackets stay open to its end, line ends count inside of brackets too, so that the
damage stays within a line.
-/
def tokens (source : List Char) : List Token :=
  let s := finish false source
  if s.contexts.isEmpty then s.tokens.reverse else (finish true source).tokens.reverse

end ApiSurface.Python.Lexer
