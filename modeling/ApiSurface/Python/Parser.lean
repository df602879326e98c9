import ApiSurface.Python.Expression
import ApiSurface.Python.Tree
import ApiSurface.Text.Cut

/-!
This module contains the parser of Python modules. A line that cannot be read is left out together with its
block, and the module counts as damaged.
-/

namespace ApiSurface.Python

open Code Code.Parser

/--
A statement with what it does.
-/
abbrev Piece := Statement × Term

namespace Grammar

/--
A statement that declares nothing.
-/
def done (es : List Expression) (idioms : List String) : Piece :=
  (.other, .other idioms (es.map (·.term)))

/--
A dotted name.
-/
def dotted : Parser String := do
  let (_, text) ← spanned (sepBy1 ident (sign "."))
  return text

/--
A name with an optional other name for it.
-/
def importedName (p : Parser String) : Parser ImportedName := do
  let path ← p
  let nickname ← optional (word "as" *> ident)
  return ⟨path, nickname⟩

/--
An import of modules.
-/
def importRule : Parser Piece := do
  discard (word "import")
  return (.imports (← sepBy1 (importedName dotted) (sign ",")), .plain)

/--
An import of names from a module.
-/
def importFromRule : Parser Piece := do
  discard (word "from")
  let start ← position
  let dots ← many (signOf [".", "..."])
  let path ← optional dotted
  if dots.isEmpty && path.isNone then failure
  let module ← textFrom start
  discard (word "import")
  let names ←
    (do discard (sign "*"); return [])
      <|> (do
        discard (sign "(")
        let names ← sepBy (importedName dotted) (sign ",")
        closing ")"
        return names)
      <|> sepBy (importedName dotted) (sign ",")
  if module == "__future__" then return (.other, .plain)
  return (.importsFrom module (!dots.isEmpty) names, .plain)

/--
The right side of an assignment.
-/
structure RightSide where
  /-- The literals of a list or a tuple. -/
  items : Option (List String)
  /-- The value, if it is one expression. -/
  value : Option Term
  term : Term

/--
The targets of an assignment as an expression: one target, or an unnamed group.
-/
def assigned (es : List Expression) (single : Bool) : Expression :=
  match es, single with
  | [e], true => e
  | _, _ => .ofParts es

/--
The name that an assignment to an expression binds.
-/
def boundName : Expression → Option String
  | ⟨.name, .name n⟩ => some n
  | ⟨.member, .member _ field⟩ => some field
  | _ => none

/--
The term of an assignment.
-/
def assignmentTerm (left : Expression) (type : Option (Expression × String)) (right : Option RightSide) : Term :=
  let parts := left.term :: (type.toList.map (·.1.term) ++ right.toList.map (·.term))
  match boundName left with
  | some n => .bind [(n, type.map (·.2), right.bind (·.value))] parts
  | none => .group parts

/--
Expressions with commas between them, and whether they are one expression without a comma.
-/
def expressionList (g : Grammar) : Parser (List Expression × Bool) := do
  let star : Parser Expression := do
    match ← optional (sign "*") with
    | some _ => return .ofParts [← g.expression]
    | none => g.expression
  let first ← star
  let rest ← many (sign "," *> star)
  let comma ← accept (sign ",")
  return (first :: rest, rest.isEmpty && !comma)

/--
Signs of assignments that change a value.
-/
def updateSigns : List String :=
  ["+=", "-=", "*=", "/=", "%=", "&=", "|=", "^=", "@=", "**=", "//=", ">>=", "<<="]

/--
The right side of an assignment, which may be an assignment itself.
-/
def rightSide (g : Grammar) : Nat → Parser RightSide
  | 0 => failure
  | fuel + 1 => do
    if ← next (isWord "yield") then
      let e ← yieldRule g
      return ⟨none, some e.term, e.term⟩
    let (es, single) ← expressionList g
    let e := assigned es single
    if ← accept (sign "=") then
      let right ← rightSide g fuel
      let t := assignmentTerm e none (some right)
      return ⟨none, some t, t⟩
    if ← accept (signOf updateSigns) then
      let right ← rightSide g fuel
      return ⟨none, none, .group [e.term, right.term]⟩
    let items :=
      match e.form with
      | .items literals => some literals
      | _ => none
    return ⟨items, some e.term, e.term⟩

/--
An expression or an assignment.
-/
def expressionStatement (g : Grammar) : Parser Piece := do
  if ← next (isWord "yield") then
    return done [← yieldRule g] []
  let start ← position
  let (es, single) ← expressionList g
  let e := assigned es single
  let target ← textFrom start
  let isName := match e.form with
    | .name => true
    | _ => false
  let fuel := (← get).tokens.length
  if ← accept (sign ":") then
    let type ← spanned (do discard (optional (sign "*")); g.expression)
    let right ← optional (sign "=" *> rightSide g fuel)
    return (.assign target isName (some type.2) (right.bind (·.items)), assignmentTerm e (some type) right)
  if ← accept (sign "=") then
    let right ← rightSide g fuel
    return (.assign target isName none right.items, assignmentTerm e none (some right))
  if ← accept (signOf updateSigns) then
    let right ← rightSide g fuel
    return (.other, .group [e.term, right.term])
  let term := Term.group (es.map (·.term))
  match es with
  | ⟨.literal raw, _⟩ :: _ => return (.literal raw, term)
  | _ => return (.other, term)

/--
A name for a type.
-/
def typeStatement (g : Grammar) : Parser Piece := do
  discard (word "type")
  discard ident
  discard (optional (sign "[" *> closeBracket ["["] ["]"]))
  discard (sign "=")
  return done [← g.expression] []

/--
The oldest form of printing and executing, which take their arguments without parentheses.
-/
def bareCommand (g : Grammar) : Parser Piece := do
  discard (wordOf ["print", "exec"])
  let es ← sepBy1 g.expression (sign "," <|> word "in")
  discard (optional (sign ","))
  return done es []

/--
A statement on one line.
-/
def simpleStatement (g : Grammar) : Parser Piece :=
  importRule
    <|> importFromRule
    <|> (do discard (wordOf ["pass", "break", "continue"]); return done [] [])
    <|> (do discard (wordOf ["return", "del"]); return done (← expressions g) [])
    <|> (do discard (word "assert"); return done (← sepBy1 g.expression (sign ",")) [])
    <|> (do
      discard (word "raise")
      let es ← expressions g
      let cause ← optional (word "from" *> g.expression)
      return done (es ++ cause.toList) [])
    <|> (do discard (wordOf ["global", "nonlocal"]); discard (sepBy1 ident (sign ",")); return done [] [])
    <|> (typeStatement g <* ahead lineEnds)
    <|> (expressionStatement g <* ahead lineEnds)
    <|> (bareCommand g <* ahead lineEnds)
where
  lineEnds (t : Token) : Bool :=
    t.kind == .newline || t.kind == .dedent || t.kind == .indent || isSign ";" t

/--
The statements on one line, to its end.
-/
def simpleLine (g : Grammar) : Parser (List Piece) := do
  let ps ← sepBy1 (simpleStatement g) (sign ";")
  discard (optional (sign ";"))
  discard (kind .newline)
  return ps

/--
Leave out what remains of a line, and the block that belongs to it.
-/
def skipLine : Parser Unit := do
  let input ← get
  set { go input.tokens 0 input with damaged := true }
where
  go : List Token → Nat → Input → Input
    | [], _, input => { input with tokens := [] }
    | t :: rest, depth, input =>
      match t.kind, depth with
      | .newline, 0 => { input with tokens := rest, stop := t.stop }
      | .indent, _ => go rest (depth + 1) input
      | .dedent, 0 => { input with tokens := t :: rest }
      | .dedent, 1 => { input with tokens := rest, stop := t.stop }
      | .dedent, depth + 2 => go rest (depth + 1) input
      | _, _ => go rest depth input

/--
The statements of a block; what cannot be read is left out.
-/
def block (statement : Parser (List Piece)) (blockEnd : Parser Unit) : Nat → Parser (List Piece)
  | 0 => return []
  | fuel + 1 => do
    if ← accept blockEnd then return []
    match ← optional statement with
    | some ps => return ps ++ (← block statement blockEnd fuel)
    | none =>
      skipLine
      block statement blockEnd fuel

/--
What belongs to the head of a statement: a block, the rest of the line, or nothing.
-/
def suite (g : Grammar) (statement : Parser (List Piece)) : Parser (List Piece) := do
  discard (sign ":")
  if ← accept (kind .newline) then return []
  if ← accept (kind .indent) then
    let fuel := (← get).tokens.length + 1
    return ← block statement (discard (kind .dedent)) fuel
  simpleLine g

/--
The declarations among pieces.
-/
def statements (ps : List Piece) : List Statement :=
  ps.map (·.1)

/--
What pieces do.
-/
def termOf (ps : List Piece) : Term :=
  .group (ps.map (·.2))

/--
A statement that runs if a condition holds.
-/
def ifStatement (g : Grammar) (suite : Parser (List Piece)) : Parser Piece := do
  discard (word "if")
  let c ← g.expression
  let body ← suite
  let others ← many (do
    discard (word "elif")
    let c ← g.expression
    return Term.group [c.term, termOf (← suite)])
  let last ← optional (word "else" *> suite)
  let last := last.getD []
  return (.guarded (statements (body ++ last)), .group ([c.term, termOf body] ++ others ++ [termOf last]))

/--
A loop over values.
-/
def forStatement (g : Grammar) (suite : Parser (List Piece)) (isAsync : Bool) : Parser Piece := do
  discard (word "for")
  let ts ← targets g
  discard (word "in")
  let sources ← expressions g
  let body ← suite
  let last ← optional (word "else" *> suite)
  let idioms := if isAsync then ["async", "streaming"] else []
  return (.other, .other idioms ((ts ++ sources).map (·.term) ++ [termOf body, termOf (last.getD [])]))

/--
A loop with a condition.
-/
def whileStatement (g : Grammar) (suite : Parser (List Piece)) : Parser Piece := do
  discard (word "while")
  let c ← g.expression
  let body ← suite
  let last ← optional (word "else" *> suite)
  return (.other, .group [c.term, termOf body, termOf (last.getD [])])

/--
A statement with handlers for exceptions.
-/
def tryStatement (g : Grammar) (suite : Parser (List Piece)) : Parser Piece := do
  discard (word "try")
  let body ← suite
  let handlers ← many (do
    discard (word "except")
    let grouped ← accept (sign "*")
    let es ← expressions g
    let inner ← suite
    let term := Term.group (es.map (·.term) ++ [termOf inner])
    return (if grouped then [] else statements inner, term))
  let other ← optional (word "else" *> suite)
  let last ← optional (word "finally" *> suite)
  let other := other.getD []
  let declared := statements body ++ (handlers.map (·.1)).flatten ++ statements other
  return (.guarded declared,
    .other ["error-handling"] ([termOf body] ++ handlers.map (·.2) ++ [termOf other, termOf (last.getD [])]))

/--
A statement with managed resources.
-/
def withStatement (g : Grammar) (suite : Parser (List Piece)) (isAsync : Bool) : Parser Piece := do
  discard (word "with")
  let es ← expressions g
  let body ← suite
  return (.other, .other (if isAsync then ["async"] else []) (es.map (·.term) ++ [termOf body]))

/--
A choice by pattern. Patterns call nothing.
-/
def matchStatement (g : Grammar) (suite : Parser (List Piece)) : Parser Piece := do
  discard (word "match")
  let subject ← expressions g
  discard (sign ":")
  discard (kind .indent)
  let case : Parser Term := do
    discard (word "case")
    skipPattern
    let guard ← optional (word "if" *> g.expression)
    let body ← suite
    return .group (guard.toList.map (·.term) ++ [termOf body])
  let cases ← many case
  if cases.isEmpty then failure
  discard (kind .dedent)
  return (.other, .group (subject.map (·.term) ++ cases))
where
  /-- Leave out a pattern: up to its guard or its colon, over whole brackets. -/
  skipPattern : Parser Unit := do
    let input ← get
    set (go input.tokens 0 input)
  go : List Token → Nat → Input → Input
    | [], _, input => { input with tokens := [] }
    | t :: rest, depth, input =>
      if depth == 0 && (isSign ":" t || isWord "if" t) then { input with tokens := t :: rest }
      else if t.kind == .sign && ["(", "[", "\x7b"].contains t.text then go rest (depth + 1) { input with stop := t.stop }
      else if t.kind == .sign && [")", "]", "\x7d"].contains t.text then go rest (depth - 1) { input with stop := t.stop }
      else go rest depth { input with stop := t.stop }

/--
A parameter of a function, if it has a name, and what its type and its default do.
-/
def parameter (g : Grammar) : Parser (Option Parameter × Term) := do
  let start ← position
  let stars ← optional (signOf ["*", "**"])
  let arity := match stars with
    | none => Arity.one
    | some t => if t.text == "*" then .positional else .keyword
  if stars.isNone then
    if ← accept (sign "/") then return (none, .plain)
    if ← accept (sign "(") then
      closeBracket ["("] [")"]
      let name ← textFrom start
      match ← optional (sign "=" *> g.expression) with
      | some e => return (some { name := name, optional := true }, .group [e.term])
      | none => return (none, .plain)
  match ← optional ident with
  | none => if stars.isSome then return (none, .plain) else failure
  | some n =>
    let name := Text.trimStartWhile (· == '*') (← textFrom start)
    let type ← optional (sign ":" *> spanned (do discard (optional (sign "*")); g.expression))
    let default ← optional (sign "=" *> g.expression)
    let parts := type.toList.map (·.1.term) ++ default.toList.map (·.term)
    let term :=
      if type.isSome && stars.isNone then
        .bind [(n, type.map (·.2), default.map (·.term))] parts
      else .group parts
    return (some { name := name, arity := arity, type := type.map (·.2), optional := default.isSome }, term)

/--
The literal that a body begins with.
-/
def leadingLiteral (body : List Piece) : Option String :=
  match body with
  | (.literal raw, _) :: _ => some raw
  | _ => none

/--
The parameters of types.
-/
def typeParameters : Parser Unit :=
  discard (optional (sign "[" *> closeBracket ["["] ["]"]))

/--
A function definition, and what its parameters and its body do.
-/
def functionDefinition (g : Grammar) (suite : Parser (List Piece)) (decorators : List Decorator) : Parser Piece := do
  let offset ← position
  let isAsync ← accept (word "async")
  discard (word "def")
  let n ← ident
  typeParameters
  discard (sign "(")
  let params ← sepBy (parameter g) (sign ",")
  closing ")"
  let returns ← optional (sign "->" *> spanned g.expression)
  let body ← suite
  let f : Function :=
    { name := n, offset := offset, isAsync := isAsync, decorators := decorators,
      parameters := params.filterMap (·.1), returns := returns.map (·.2), literal := leadingLiteral body }
  return (.function f, .group (params.map (·.2) ++ returns.toList.map (·.1.term) ++ [termOf body]))

/--
Whether a class argument names a class.
-/
def namesClass : Form → Bool
  | .name | .member | .subscript => true
  | _ => false

/--
A class definition.
-/
def classDefinition (g : Grammar) (suite : Parser (List Piece)) (decorators : List Decorator) : Parser Piece := do
  let offset ← position
  discard (word "class")
  let n ← ident
  typeParameters
  let args ← optional (do
    discard (sign "(")
    let args ← sepBy (spanned (argument g)) (sign ",")
    closing ")"
    return args)
  let args := args.getD []
  let body ← suite
  let head : ClassHead :=
    { name := n, offset := offset, decorators := decorators,
      parents := (args.filter (fun a => namesClass a.1.form)).map (·.2), literal := leadingLiteral body }
  return (.classDef head (statements body), .group (args.map (·.1.term) ++ [termOf body]))

/--
A decorator, and what it does.
-/
def decorator (g : Grammar) : Parser (Decorator × Term) := do
  discard (sign "@")
  let (e, text) ← spanned g.expression
  discard (kind .newline)
  match e.form with
  | .call callee literals => return (⟨callee, literals.head?⟩, e.term)
  | _ => return (⟨text, none⟩, e.term)

/--
A definition with its decorators.
-/
def definition (g : Grammar) (suite : Parser (List Piece)) : Parser Piece := do
  let ds ← many (decorator g)
  let decorators := ds.map (·.1)
  let (s, t) ← functionDefinition g suite decorators <|> classDefinition g suite decorators
  return (s, .group (ds.map (·.2) ++ [t]))

/--
A loop or a resource block that may suspend.
-/
def asyncStatement (g : Grammar) (suite : Parser (List Piece)) : Parser Piece := do
  discard (word "async")
  forStatement g suite true <|> withStatement g suite true

/--
A statement with a body.
-/
def compoundStatement (g : Grammar) (suite : Parser (List Piece)) : Parser Piece :=
  definition g suite
    <|> ifStatement g suite
    <|> forStatement g suite false
    <|> whileStatement g suite
    <|> tryStatement g suite
    <|> withStatement g suite false
    <|> asyncStatement g suite
    <|> matchStatement g suite

/--
A statement, or the statements of a line.
-/
def statementRule (g : Grammar) (suite : Parser (List Piece)) : Parser (List Piece) :=
  (do return [← compoundStatement g suite]) <|> simpleLine g

/--
A statement in which blocks are nested at most so deep.
-/
def statement (g : Grammar) : Nat → Parser (List Piece)
  | 0 => failure
  | depth + 1 => statementRule g (suite g (statement g depth))

end Grammar

/--
Parse a module.
-/
def Module.parse (source : String) : Module :=
  let cs := source.toList
  let tokens := Lexer.tokens cs
  let depth := tokens.length + 1
  let statement := (Grammar.ofDepth (2 * depth)).statement depth
  let whole := Grammar.block statement (do if (← get).tokens.isEmpty then return () else failure) depth
  match Parser.run whole cs tokens with
  | some (ps, damaged) => ⟨Grammar.statements ps, Grammar.termOf ps, damaged⟩
  | none => ⟨[], .plain, true⟩

end ApiSurface.Python
