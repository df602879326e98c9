import ApiSurface.Code.Term
import ApiSurface.Code.Token

/-!
This module contains parsers over tokens. A parser either fails or gives a result and the rest of the
input. Where a text is damaged a parser can note it and go on.
-/

namespace ApiSurface.Code

/--
What a parser works on.
-/
structure Input where
  source : Array Char
  tokens : List Token
  /-- Where the last token that was read ends. -/
  stop : Nat := 0
  /-- Whether something was missing or had to be left out. -/
  damaged : Bool := false

/--
A parser backtracks: if one alternative fails, the next one starts from the same input.
-/
abbrev Parser := StateT Input Option

namespace Parser

/--
The next token, which stays in the input.
-/
def peek? : Parser (Option Token) :=
  return (← get).tokens.head?

/--
Read the next token if it satisfies `p`.
-/
def satisfy (p : Token → Bool) : Parser Token := do
  let input ← get
  match input.tokens with
  | [] => failure
  | t :: rest =>
    if p t then
      set { input with tokens := rest, stop := t.stop }
      return t
    else failure

/--
Read a token of a kind.
-/
def kind (k : TokenKind) : Parser Token :=
  satisfy (fun t => t.kind == k)

/--
Whether a token is this sign.
-/
def isSign (s : String) (t : Token) : Bool :=
  t.kind == .sign && t.text == s

/--
Whether a token is this word.
-/
def isWord (s : String) (t : Token) : Bool :=
  t.kind == .word && t.text == s

/--
Read a sign.
-/
def sign (s : String) : Parser Token :=
  satisfy (isSign s)

/--
Read a word.
-/
def word (s : String) : Parser Token :=
  satisfy (isWord s)

/--
Read one of some signs.
-/
def signOf (ss : List String) : Parser Token :=
  satisfy (fun t => t.kind == .sign && ss.contains t.text)

/--
Read one of some words.
-/
def wordOf (ss : List String) : Parser Token :=
  satisfy (fun t => t.kind == .word && ss.contains t.text)

/--
Whether the next token satisfies `p`.
-/
def next (p : Token → Bool) : Parser Bool :=
  return (← peek?).any p

/--
Succeed without reading if the next token satisfies `p`.
-/
def ahead (p : Token → Bool) : Parser Unit := do
  if ← next p then return () else failure

/--
Whether `p` succeeds; if so its tokens are read.
-/
def accept (p : Parser α) : Parser Bool :=
  (p *> pure true) <|> pure false

/--
Read with `p` as often as it succeeds and reads something, at most `fuel` times.
-/
def repeated (p : Parser α) : Nat → Parser (List α)
  | 0 => return []
  | fuel + 1 => do
    let before := (← get).tokens.length
    match ← optional p with
    | none => return []
    | some x =>
      if (← get).tokens.length < before then
        return x :: (← repeated p fuel)
      else return [x]

/--
Read with `p` as often as it succeeds.
-/
def many (p : Parser α) : Parser (List α) := do
  repeated p (← get).tokens.length

/--
Read one or more items with a separator between them.
-/
def sepBy1 (p : Parser α) (sep : Parser β) : Parser (List α) := do
  let first ← p
  return first :: (← many (sep *> p))

/--
Read any number of items with a separator between them; there may be one more at the end.
-/
def sepBy (p : Parser α) (sep : Parser β) : Parser (List α) := do
  match ← optional (sepBy1 p sep) with
  | none => return []
  | some xs =>
    discard (optional sep)
    return xs

/--
Note that the text is damaged.
-/
def damage : Parser Unit :=
  modify (fun input => { input with damaged := true })

/--
Where the next token starts, or where the last one ended.
-/
def position : Parser Nat := do
  let input ← get
  return (input.tokens.head?.map (·.start)).getD input.stop

/--
The row of the next token.
-/
def row : Parser Nat :=
  return ((← peek?).map (·.row)).getD 0

/--
The source text from an offset to where the last token that was read ends.
-/
def textFrom (start : Nat) : Parser String := do
  let input ← get
  return String.ofList (input.source.extract start input.stop).toList

/--
What `p` reads, with its source text.
-/
def spanned (p : Parser α) : Parser (α × String) := do
  let start ← position
  let x ← p
  return (x, ← textFrom start)

/--
Whether a comment stands in front of the next token: something between the tokens that is no blank.
-/
def commentAhead : Parser Bool := do
  let input ← get
  match input.tokens with
  | [] => return false
  | t :: _ => return (input.source.extract input.stop t.start).any (fun c => !c.isWhitespace && c != '\x0c' && c != '\\')

/--
A term in parentheses. A comment behind the opening one comes first among what they hold, so that the term is not
taken for their value.
-/
def parenthesizedTerm (commented : Bool) (t : Term) : Term :=
  if commented then .group [t] else .wrapped [] t

/--
Read up to the sign that closes a bracket, over whole bracketed parts, and read that sign as well.
-/
def closeBracket (openers closers : List String) : Parser Unit := do
  let input ← get
  set (go input.tokens 0 input)
where
  go : List Token → Nat → Input → Input
    | [], _, input => { input with tokens := [], damaged := true }
    | t :: rest, depth, input =>
      if t.kind == .sign && openers.contains t.text then go rest (depth + 1) { input with stop := t.stop }
      else if t.kind == .sign && closers.contains t.text then
        match depth with
        | 0 => { input with tokens := rest, stop := t.stop }
        | depth + 1 => go rest depth { input with stop := t.stop }
      else go rest depth { input with stop := t.stop }

/--
The result of a parser on the tokens of a source text, and whether the text was damaged.
-/
def run (p : Parser α) (source : List Char) (tokens : List Token) : Option (α × Bool) :=
  (StateT.run p { source := source.toArray, tokens := tokens }).map (fun (x, input) => (x, input.damaged))

end Parser

end ApiSurface.Code
