import ApiSurface.Code.Parser
import ApiSurface.Go.Lexer
import ApiSurface.Go.Tree
import ApiSurface.Text.Cut

/-!
This module contains the parsers of Go types.
-/

namespace ApiSurface.Go

open Code Code.Parser

/--
The parsers that depend on each other.
-/
structure Grammar where
  type : Parser TypeExpression
  /-- An expression; the argument says whether braces may follow a type in it. -/
  expression : Bool → Parser Term
  /-- A block with its braces. -/
  block : Parser Term

namespace Grammar

/--
A name.
-/
def ident : Parser String :=
  (·.text) <$> satisfy (fun t => t.kind == .word && !Lexer.keywords.contains t.text)

/--
The end of a statement: a line end or a semicolon.
-/
def terminator : Parser Unit :=
  discard (kind .newline) <|> discard (sign ";")

/--
Read on to where another statement can begin.
-/
def terminators : Parser Unit :=
  discard (many terminator)

/--
The end of an item in brackets. It may be missing in front of the bracket that closes.
-/
def itemEnd (closer : String) : Parser Unit :=
  terminator <|> ahead (isSign closer)

/--
The comment lines directly above a row, without the slashes, if comments stand on consecutive rows.
-/
def linesAbove (row : Nat) : List Comment → List String
  | [] => []
  | c :: earlier =>
    if c.stopRow + 1 == row then linesAbove c.row earlier ++ [Text.trim (Text.dropStart "//" c.text)] else []

/--
The comment lines directly above the next token.
-/
def commentsAbove : Parser (List String) := do
  match ← peek? with
  | some t => return linesAbove t.row t.comments.reverse
  | none => return []

/--
An entry of a parameter list before it is known which entries are names.
-/
structure Entry where
  name : Option String
  type : TypeExpression
  variadic : Bool

/--
The text of a type that is nothing but a name.
-/
def plainName? (t : TypeExpression) : Option String :=
  match t.term, t.body with
  | .name n, .other => if n == t.text then some n else none
  | _, _ => none

/--
Sort the entries of a parameter list: names without a type in front of an entry with one belong to it.
-/
def groups : List TypeExpression → List Entry → List (List String × TypeExpression × Bool)
  | waiting, [] => waiting.map (fun t => ([], t, false))
  | waiting, e :: rest =>
    match e.name with
    | none =>
      if e.variadic then waiting.map (fun t => ([], t, false)) ++ ([], e.type, true) :: groups [] rest
      else if (plainName? e.type).isSome then groups (waiting ++ [e.type]) rest
      else waiting.map (fun t => ([], t, false)) ++ ([], e.type, false) :: groups [] rest
    | some n =>
      if e.variadic then waiting.map (fun t => ([], t, false)) ++ ([n], e.type, true) :: groups [] rest
      else (waiting.filterMap plainName? ++ [n], e.type, false) :: groups [] rest

/--
One entry of a parameter list. Behind a lone name a name is expected first, so that any word can be one.
-/
def entry (g : Grammar) (behindName : Bool) : Parser Entry :=
  (do
    let n ← if behindName then (·.text) <$> kind .word else ident
    let variadic ← accept (sign "...")
    let t ← g.type
    ahead (fun t => isSign "," t || isSign ")" t)
    return ⟨some n, t, variadic⟩)
    <|> (do
      let variadic ← accept (sign "...")
      return ⟨none, ← g.type, variadic⟩)

/--
The entries of a parameter list.
-/
def entries (g : Grammar) : Nat → Bool → Parser (List Entry)
  | 0, _ => return []
  | fuel + 1, behindName => do
    match ← optional (entry g behindName) with
    | none => return []
    | some e =>
      if ← accept (sign ",") then
        return e :: (← entries g fuel (e.name.isNone && !e.variadic && (plainName? e.type).isSome))
      return [e]

/--
A parameter list, and what it binds.
-/
def parameters (g : Grammar) : Parser (List ParameterGroup × Term) := do
  discard (sign "(")
  let entries ← entries g ((← get).tokens.length) false
  discard (optional (kind .newline))
  discard (sign ")")
  let gs := groups [] entries
  let term (x : List String × TypeExpression × Bool) : Term :=
    let (names, t, variadic) := x
    if variadic then t.term else .bind (names.map (fun n => (n, some t.text, none))) [t.term]
  return (gs.map (fun (names, t, variadic) => ⟨names, Text.squash t.text, variadic⟩), .group (gs.map term))

/--
The results of a function: a list, one type, or nothing.
-/
def results (g : Grammar) : Parser (List ParameterGroup × Term) :=
  parameters g
    <|> (do
      let t ← g.type
      return ([⟨[], Text.squash t.text, false⟩], t.term))
    <|> pure ([], .plain)

/--
The signature of a function.
-/
def signature (g : Grammar) : Parser (Signature × Term) := do
  let (ps, a) ← parameters g
  let (rs, b) ← results g
  return (⟨ps, rs⟩, .group [a, b])

/--
A name with its package, if it has one.
-/
def typeName : Parser Term := do
  let first ← ident
  match ← optional (sign "." *> ident) with
  | some n => return .member (.name first) n
  | none => return .name first

/--
The arguments of a generic type.
-/
def typeArguments (g : Grammar) : Parser (List Term) := do
  discard (sign "[")
  let ts ← sepBy1 (do
    let parts ← sepBy1 (do discard (optional (sign "~")); g.type) (sign "|")
    return Term.group (parts.map (·.term))) (sign ",")
  discard (optional (sign ","))
  discard (optional (kind .newline))
  discard (sign "]")
  return ts

/--
A named type, which may be generic.
-/
def namedType (g : Grammar) : Parser Term := do
  let n ← typeName
  match ← optional (typeArguments g) with
  | some ts => return .group (n :: ts)
  | none => return n

/--
The names and the type of a field, or an embedded type.
-/
def field (g : Grammar) : Parser (Field × Term) := do
  let comments ← commentsAbove
  let named : Parser (Field × Term) := do
    let names ← sepBy1 ident (sign ",")
    let t ← g.type
    discard (optional (kind .text))
    itemEnd "\x7d"
    return (⟨names, t.text, comments⟩, t.term)
  let embedded : Parser (Field × Term) := do
    discard (optional (sign "*"))
    let (t, text) ← spanned (namedType g)
    discard (optional (kind .text))
    itemEnd "\x7d"
    return (⟨[], text, comments⟩, t)
  named <|> embedded

/--
The items between braces, each of them with its end.
-/
def braced (item : Parser α) : Parser (List α) := do
  discard (sign "\x7b")
  terminators
  let xs ← many (item <* terminators)
  discard (sign "\x7d")
  return xs

/--
A struct type.
-/
def structType (g : Grammar) : Parser (TypeBody × Term) := do
  discard (word "struct")
  let fields ← braced (field g)
  return (.struct (fields.map (·.1)), .group (fields.map (·.2)))

/--
An element of an interface.
-/
def element (g : Grammar) : Parser (Element × Term) := do
  let comments ← commentsAbove
  let method : Parser (Element × Term) := do
    let n ← ident
    ahead (isSign "(")
    let (s, t) ← signature g
    itemEnd "\x7d"
    return (.method n s comments, t)
  let types : Parser (Element × Term) := do
    let ts ← sepBy1 (spanned (do discard (optional (sign "~")); g.type)) (sign "|")
    itemEnd "\x7d"
    return (.types (ts.map (fun t => Text.squash t.2)), .group (ts.map (·.1.term)))
  method <|> types

/--
An interface type.
-/
def interfaceType (g : Grammar) : Parser (TypeBody × Term) := do
  discard (word "interface")
  let elements ← braced (element g)
  return (.interface (elements.map (·.1)), .group (elements.map (·.2)))

/--
A type of another kind: pointers, slices, arrays, maps, channels, and types in parentheses.
-/
def builtType (g : Grammar) : Parser Term :=
  (do discard (sign "*"); return .group [(← g.type).term])
    <|> (do
      discard (sign "[")
      let length ← optional ((do discard (sign "..."); return Term.plain) <|> g.expression true)
      discard (sign "]")
      return .group (length.toList ++ [(← g.type).term]))
    <|> (do
      discard (word "map")
      discard (sign "[")
      let k ← g.type
      discard (sign "]")
      return .group [k.term, (← g.type).term])
    <|> (do
      discard (optional (sign "<-"))
      discard (word "chan")
      discard (optional (sign "<-"))
      return .group [(← g.type).term])
    <|> (do
      discard (sign "(")
      let t ← g.type
      discard (sign ")")
      return .group [t.term])

/--
A type.
-/
def typeRule (g : Grammar) : Parser TypeExpression := do
  let ((body, term), text) ← spanned (
    structType g
      <|> interfaceType g
      <|> (do
        discard (word "func")
        let (s, t) ← signature g
        return (.function s, t))
      <|> (do return (.other, ← namedType g))
      <|> (do return (.other, ← builtType g)))
  return ⟨body, text, term⟩

end Grammar

end ApiSurface.Go
