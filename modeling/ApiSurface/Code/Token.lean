/-!
This module contains the tokens of a program text and the cursor with which the lexers walk over it.
-/

namespace ApiSurface.Code

/--
The kinds of tokens.
-/
inductive TokenKind where
  /-- A name or a keyword. -/
  | word
  | number
  /-- A literal of characters. -/
  | text
  /-- Where a literal with expressions in it begins. -/
  | openText
  /-- Where a literal with expressions in it ends. -/
  | closeText
  /-- An operator or a mark of punctuation. -/
  | sign
  /-- The end of a statement that a line end stands for. -/
  | newline
  /-- Where a block begins that is marked by its indentation. -/
  | indent
  /-- Where such a block ends. -/
  | dedent
deriving DecidableEq, Repr

/--
A comment, with the rows it reaches from and to.
-/
structure Comment where
  text : String
  row : Nat
  stopRow : Nat
deriving DecidableEq, Repr

/--
A token. Offsets count characters.
-/
structure Token where
  kind : TokenKind
  text : String
  start : Nat
  stop : Nat
  row : Nat
  /-- The comments between this token and the one before it. -/
  comments : List Comment := []
deriving Repr

/--
A place in a text: what is ahead, how many characters and how many line ends are behind.
-/
structure Cursor where
  ahead : List Char
  offset : Nat := 0
  row : Nat := 0
deriving Repr

namespace Cursor

/--
The place after the next `n` characters.
-/
def skip : Nat → Cursor → Cursor
  | 0, c => c
  | n + 1, c =>
    match c.ahead with
    | [] => c
    | ch :: rest => skip n ⟨rest, c.offset + 1, if ch == '\n' then c.row + 1 else c.row⟩

/--
The next `n` characters.
-/
def slice (n : Nat) (c : Cursor) : String :=
  String.ofList (c.ahead.take n)

/--
The token that the next `n` characters make.
-/
def token (kind : TokenKind) (n : Nat) (c : Cursor) : Token :=
  { kind := kind, text := c.slice n, start := c.offset, stop := c.offset + n, row := c.row }

end Cursor

/--
Whether a character can start a name. Beyond ASCII every character that is no blank can.
-/
def isNameStart (c : Char) : Bool :=
  c.isAlpha || c == '_' || c.toNat > 0xA0

/--
Whether a character can continue a name.
-/
def isNameRest (c : Char) : Bool :=
  isNameStart c || c.isDigit

/--
How many characters in front satisfy `p`.
-/
def runLength (p : Char → Bool) (cs : List Char) : Nat :=
  (cs.takeWhile p).length

/--
The length of the number at the front: letters, digits, points and underscores, and a sign after the
letter of a decimal exponent.
-/
def numberLength : List Char → Nat
  | [] => 0
  | [c] => if isNumberRest c then 1 else 0
  | c :: d :: rest =>
    if !isNumberRest c then 0
    else if (c == 'e' || c == 'E') && (d == '+' || d == '-') && rest.head?.any Char.isDigit then
      2 + numberLength rest
    else 1 + numberLength (d :: rest)
where
  isNumberRest (c : Char) : Bool :=
    c.isAlphanum || c == '_' || c == '.'

/--
Whether the characters begin with a text.
-/
def startsWith (s : String) (cs : List Char) : Bool :=
  s.toList.isPrefixOf cs

/--
The first of the signs that the characters begin with.
-/
def signLength (signs : List String) (cs : List Char) : Nat :=
  match signs.find? (fun s => startsWith s cs) with
  | some s => s.length
  | none => 1

/--
How many characters precede the first occurrence of a text, if there is one.
-/
def distanceTo? (s : List Char) : List Char → Option Nat
  | [] => if s.isEmpty then some 0 else none
  | c :: rest => if s.isPrefixOf (c :: rest) then some 0 else (distanceTo? s rest).map (· + 1)

/--
The length of a literal on one line whose opening quote is behind: up to and with the closing quote. A
backslash takes the next character with it. There is none if the line ends first.
-/
def quotedLength? (quote : Char) : List Char → Option Nat
  | [] => none
  | [c] => if c == quote then some 1 else none
  | c :: d :: rest =>
    if c == quote then some 1
    else if c == '\n' then none
    else if c == '\\' then (quotedLength? quote rest).map (· + 2)
    else (quotedLength? quote (d :: rest)).map (· + 1)

/--
The length of a literal over several lines whose opening quotes are behind.
-/
def blockQuotedLength? (quotes : List Char) : List Char → Option Nat
  | [] => none
  | [_] => none
  | c :: d :: rest =>
    if quotes.isPrefixOf (c :: d :: rest) then some quotes.length
    else if c == '\\' then (blockQuotedLength? quotes rest).map (· + 2)
    else (blockQuotedLength? quotes (d :: rest)).map (· + 1)

end ApiSurface.Code
