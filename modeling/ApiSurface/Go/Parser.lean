import ApiSurface.Go.Statement

/-!
This module contains the parser of Go files. At the top of a file declarations and statements are read; what
cannot be read is left out, and the file counts as damaged.
-/

namespace ApiSurface.Go

open Code Code.Parser

/--
A declaration with what it does.
-/
abbrev Piece := Declaration × Term

namespace Grammar

/--
The name of the package. A line end need not follow it.
-/
def packageClause : Parser Piece := do
  discard (word "package")
  return (.package (← ident), .plain)

/--
An imported package.
-/
def importSpec : Parser ImportSpec := do
  let name ← optional (ident <|> (·.text) <$> sign ".")
  let path ← kind .text
  return ⟨name, String.ofList (Text.dropBack isQuote (Text.dropFront isQuote path.text.toList))⟩
where
  isQuote (c : Char) : Bool :=
    c == '"' || c == '\x60'

/--
A declaration of imports. A line end need not follow it, nor the last import in parentheses.
-/
def importDeclaration : Parser Piece := do
  discard (word "import")
  if ← accept (sign "(") then
    terminators
    let specs ← many (importSpec <* itemEnd ")" <* terminators)
    discard (sign ")")
    return (.imports specs, .plain)
  return (.imports [← importSpec], .plain)

/--
A declaration of types. Types without comments of their own have those of the declaration.
-/
def typeDeclaration (g : Grammar) : Parser Piece := do
  let comments ← commentsAbove
  let specs ← grouped "type" (typeSpec g)
  let own (s : TypeSpec) : TypeSpec := if s.comments.isEmpty then { s with comments := comments } else s
  return (.types (specs.map (fun s => own s.1)), .group (specs.map (·.2)))

/--
A declaration of constants.
-/
def constDeclaration (g : Grammar) : Parser Piece := do
  let specs ← grouped "const" (constSpec g)
  return (.constants (specs.map (·.1)), .group (specs.map (·.2)))

/--
A function or a method.
-/
def functionDeclaration (g : Grammar) : Parser Piece := do
  let comments ← commentsAbove
  let offset ← position
  discard (word "func")
  let receiver ← optional (parameters g <* ahead (fun t => t.kind == .word))
  let n ← ident
  let generic ← optional (typeParameters g)
  let (s, t) ← signature g
  let body ← optional g.block
  let f : Function := ⟨n, offset, s, comments⟩
  let term := Term.group ((receiver.toList.map (·.2)) ++ generic.toList ++ [t] ++ body.toList)
  match receiver with
  | none => return (.function f, term)
  | some (groups, _) =>
    match groups.find? (fun p => !p.variadic) with
    | some p => return (.method p.type f, term)
    | none => return (.other, term)

/--
A declaration after which a line end has to follow, or a statement.
-/
def terminated (g : Grammar) (fuel : Nat) : Parser Piece := do
  let p ← typeDeclaration g
    <|> constDeclaration g
    <|> (do return (.other, ← varDeclaration g))
    <|> (do return (.other, ← statement g fuel))
  if !(← accept terminator) then
    if (← get).tokens.isEmpty then damage else failure
  return p

/--
One item at the top of a file.
-/
def topLevel (g : Grammar) (fuel : Nat) : Parser Piece :=
  ((packageClause <|> importDeclaration <|> functionDeclaration g) <* optional terminator) <|> terminated g fuel

/--
Words that begin a declaration.
-/
def declarationWords : List String :=
  ["package", "import", "func", "type", "const", "var"]

/--
Leave out a token and what follows it on its line, up to where a declaration can begin.
-/
def skipItem : Parser Unit := do
  let input ← get
  set { input with tokens := go (input.tokens.drop 1), damaged := true }
where
  go : List Token → List Token
    | [] => []
    | t :: rest =>
      if t.kind == .newline then rest
      else if t.kind == .word && declarationWords.contains t.text then t :: rest
      else go rest

/--
The items of a file.
-/
def items (g : Grammar) (depth : Nat) : Nat → Parser (List Piece)
  | 0 => return []
  | fuel + 1 => do
    terminators
    if (← get).tokens.isEmpty then return []
    match ← optional (topLevel g depth) with
    | some p => return p :: (← items g depth fuel)
    | none =>
      skipItem
      items g depth fuel

end Grammar

/--
Parse a file.
-/
def SourceText.parse (source : String) : SourceText :=
  let cs := source.toList
  let tokens := Lexer.tokens cs
  let depth := tokens.length + 1
  let g := Grammar.ofDepth (2 * depth)
  match Parser.run (Grammar.items g depth depth) cs tokens with
  | some (ps, damaged) => ⟨ps.map (·.1), .group (ps.map (·.2)), damaged⟩
  | none => ⟨[], .plain, true⟩

end ApiSurface.Go
