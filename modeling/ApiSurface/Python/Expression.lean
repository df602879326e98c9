import ApiSurface.Code.Parser
import ApiSurface.Code.Term
import ApiSurface.Python.Lexer

/-!
This module contains the parser of Python expressions. Operators are not ranked: what matters of an
expression is whether it is a name, a member, a call or a literal, and which expressions it is made of.
-/

namespace ApiSurface.Python

open Code Code.Parser

/--
Words that are no names.
-/
def keywords : List String :=
  ["False", "None", "True", "and", "as", "assert", "async", "await", "break", "class", "continue", "def",
   "del", "elif", "else", "except", "finally", "for", "from", "global", "if", "import", "in", "is", "lambda",
   "nonlocal", "not", "or", "pass", "raise", "return", "try", "while", "with", "yield"]

/--
What an expression is, beyond what it does.
-/
inductive Form where
  | name
  | member
  | subscript
  /-- A call: the source text of what is called, and the literals among the arguments. -/
  | call (callee : String) (literals : List String)
  | literal (raw : String)
  /-- A list or a tuple: the literals among its items. -/
  | items (literals : List String)
  | other

/--
An expression: its form and what it does.
-/
structure Expression where
  form : Form
  term : Term

namespace Expression

/--
An expression of no special form.
-/
def ofParts (parts : List Expression) : Expression :=
  ⟨.other, .group (parts.map (·.term))⟩

/--
The literals among some expressions.
-/
def literals (es : List Expression) : List String :=
  es.filterMap fun e =>
    match e.form with
    | .literal raw => some raw
    | _ => none

end Expression

/--
The parsers that depend on each other.
-/
structure Grammar where
  expression : Parser Expression
  /-- An operand with everything that binds closer than an operator. -/
  operand : Parser Expression

namespace Grammar

/--
A name.
-/
def ident : Parser String :=
  (·.text) <$> satisfy (fun t => t.kind == .word && !keywords.contains t.text)

/--
Whether a statement ends at a token.
-/
def endsHead (t : Token) : Bool :=
  t.kind == .newline || t.kind == .indent || t.kind == .dedent || isSign ":" t

/--
The bracket that closes. In a damaged text it may be missing where the line or the head of a statement ends.
-/
def closing (s : String) : Parser Unit := do
  if ← accept (sign s) then return ()
  match ← peek? with
  | none => damage
  | some t => if endsHead t then damage else failure

/--
Signs between operands.
-/
def operatorSigns : List String :=
  ["+", "-", "*", "/", "%", "@", "&", "|", "^", "<", ">", "==", "!=", "<=", ">=", "<>", "**", "//", "<<", ">>"]

/--
An operator between operands. The word `in` is one unless it divides the head of a loop.
-/
def operator (withIn : Bool) : Parser Unit :=
  discard (signOf operatorSigns)
    <|> discard (wordOf ["and", "or"])
    <|> (if withIn then discard (word "in") else failure)
    <|> (do discard (word "not"); discard (word "in"))
    <|> (do discard (word "is"); discard (optional (word "not")))

/--
The signs and words in front of an operand.
-/
def unary : Parser Unit :=
  discard (signOf ["-", "+", "~"]) <|> discard (word "not")

/--
Operands with operators between them.
-/
def operation (g : Grammar) (withIn : Bool) : Parser Expression := do
  let one : Parser (Bool × Expression) := do
    let marks ← many unary
    return (!marks.isEmpty, ← g.operand)
  let (marked, first) ← one
  let rest ← many (operator withIn *> one)
  if rest.isEmpty then
    return if marked then .ofParts [first] else first
  else return .ofParts (first :: rest.map (·.2))

/--
Names and expressions that a loop or a comprehension assigns to.
-/
def targets (g : Grammar) : Parser (List Expression) :=
  sepBy (do discard (optional (sign "*")); operation g false) (sign ",")

/--
The clauses of a comprehension.
-/
def clauses (g : Grammar) : Parser (List Expression) := do
  let loop : Parser (List Expression) := do
    discard (optional (word "async"))
    discard (word "for")
    let ts ← targets g
    discard (word "in")
    let sources ← sepBy1 (operation g true <* optional (do
      discard (word "if"); discard g.expression; discard (word "else"); discard g.expression)) (sign ",")
    return ts ++ sources
  let condition : Parser (List Expression) := do
    discard (word "if")
    return [← g.expression]
  let first ← loop
  let rest ← many (loop <|> condition)
  return first ++ rest.flatten

/--
The parameters of a lambda expression: what their defaults do.
-/
def lambdaParameters (g : Grammar) : Parser (List Expression) := do
  let one : Parser (List Expression) := do
    match ← optional (signOf ["*", "**", "/"]) with
    | some _ => discard (optional ident)
    | none => discard ident <|> (do discard (sign "("); closeBracket ["("] [")"])
    match ← optional (sign "=" *> g.expression) with
    | some e => return [e]
    | none => return []
  return (← sepBy one (sign ",")).flatten

/--
An anonymous function.
-/
def lambda (g : Grammar) : Parser Expression := do
  discard (word "lambda")
  let defaults ← lambdaParameters g
  discard (sign ":")
  let body ← g.expression
  return .ofParts (defaults ++ [body])

/--
An expression: a choice by condition, a naming of a value, or an operation.
-/
def expressionRule (g : Grammar) : Parser Expression := do
  let e ← lambda g <|> operation g true
  match e.term with
  | .name n =>
    if ← accept (sign ":=") then
      let value ← g.expression
      return ⟨.other, .bind [(n, none, some value.term)] [value.term]⟩
  | _ => pure ()
  let choice : Parser (List Expression) := do
    discard (word "if")
    let c ← operation g true
    discard (word "else")
    return [c, ← g.expression]
  let e ←
    match ← optional choice with
    | some parts => pure (.ofParts (e :: parts))
    | none => pure e
  match ← optional (word "as" *> spanned (operation g true)) with
  | some (target, text) =>
    return ⟨.other, .bind [(text, none, some e.term)] [e.term, target.term]⟩
  | none => return e

/--
What yields a value to a caller.
-/
def yieldRule (g : Grammar) : Parser Expression := do
  discard (word "yield")
  if ← accept (word "from") then
    return .ofParts [← g.expression]
  return .ofParts (← sepBy (do discard (optional (sign "*")); g.expression) (sign ","))

/--
An item of a display: an expression, an unpacked one, or a pair.
-/
def item (g : Grammar) : Parser Expression := do
  match ← optional (signOf ["*", "**"]) with
  | some _ => return .ofParts [← g.expression]
  | none =>
    let e ← g.expression
    match ← optional (sign ":" *> g.expression) with
    | some v => return .ofParts [e, v]
    | none => return e

/--
An argument of a call.
-/
def argument (g : Grammar) : Parser Expression := do
  match ← optional (signOf ["*", "**"]) with
  | some _ => return .ofParts [← g.expression]
  | none =>
    (do discard ident; discard (sign "="); return .ofParts [← g.expression])
      <|> (do
        let e ← g.expression
        match ← optional (clauses g) with
        | some cs => return .ofParts (e :: cs)
        | none => return e)

/--
The arguments of a call, from the bracket on.
-/
def arguments (g : Grammar) : Parser (List Expression) := do
  discard (sign "(")
  let args ← sepBy (argument g) (sign ",")
  closing ")"
  return args

/--
An index: an expression, or a slice.
-/
def index (g : Grammar) : Parser Expression := do
  let part := do discard (optional (sign "*")); g.expression
  let first ← optional part
  let rest ← many (sign ":" *> optional part)
  if first.isNone && rest.isEmpty then failure
  match first, rest with
  | some e, [] => return e
  | _, _ => return .ofParts (first.toList ++ rest.filterMap id)

/--
A form in parentheses.
-/
def parenthesized (g : Grammar) : Parser Expression := do
  discard (sign "(")
  let commented ← commentAhead
  if ← accept (sign ")") then return ⟨.items [], .plain⟩
  if ← next (isWord "yield") then
    let e ← yieldRule g
    closing ")"
    return ⟨.other, parenthesizedTerm commented e.term⟩
  let first ← item g
  match ← optional (clauses g) with
  | some cs =>
    closing ")"
    return .ofParts (first :: cs)
  | none =>
    let rest ← many (sign "," *> item g)
    let comma ← accept (sign ",")
    closing ")"
    if rest.isEmpty && !comma then return ⟨.other, parenthesizedTerm commented first.term⟩
    else
      let all := first :: rest
      return ⟨.items (Expression.literals all), .group (all.map (·.term))⟩

/--
A list, a set or a dictionary, or a comprehension of one.
-/
def display (g : Grammar) (opener closer : String) : Parser Expression := do
  discard (sign opener)
  let items ← sepBy (item g) (sign ",")
  let cs ← optional (clauses g)
  closing closer
  match cs with
  | some cs => return .ofParts (items ++ cs)
  | none =>
    let form := if opener == "[" then .items (Expression.literals items) else .other
    return ⟨form, .group (items.map (·.term))⟩

/--
A literal; expressions may be inside it.
-/
def literalPart (g : Grammar) : Parser (List Expression) := do
  match ← optional (kind .text) with
  | some _ => return []
  | none =>
    discard (kind .openText)
    let hole : Parser (List Expression) := do
      discard (sign "\x7b")
      let es ← sepBy (g.expression <|> yieldRule g) (sign ",")
      discard (optional (sign "="))
      discard (optional ident)
      let inner ← many (do
        discard (sign "\x7b")
        let e ← g.expression
        discard (sign "\x7d")
        return e)
      discard (sign "\x7d")
      return es ++ inner
    let holes ← many hole
    discard (kind .closeText)
    return holes.flatten

/--
One literal, or several that are joined.
-/
def literalRule (g : Grammar) : Parser Expression := do
  let (first, raw) ← spanned (literalPart g)
  let rest ← many (literalPart g)
  let parts := (first ++ rest.flatten).map (·.term)
  return ⟨if rest.isEmpty then .literal raw else .other, .group parts⟩

/--
An operand without its suffixes.
-/
def atom (g : Grammar) : Parser Expression :=
  (do return ⟨.name, .name (← ident)⟩)
    <|> literalRule g
    <|> (do discard (kind .number); return .ofParts [])
    <|> parenthesized g
    <|> display g "[" "]"
    <|> display g "\x7b" "\x7d"
    <|> (do discard (sign "..."); return .ofParts [])
    <|> (do discard (wordOf ["True", "False", "None"]); return .ofParts [])
    <|> (do discard (sign "*"); return .ofParts [← g.expression])
    <|> lambda g

/--
The suffixes of an operand: members, calls and indices.
-/
def suffixes (g : Grammar) (start line : Nat) : Nat → Expression → Parser Expression
  | 0, e => return e
  | fuel + 1, e => do
    match ← peek? with
    | none => return e
    | some t =>
      if isSign "." t then
        discard (sign ".")
        let field ← (·.text) <$> kind .word
        suffixes g start line fuel ⟨.member, .member e.term field⟩
      else if isSign "(" t then
        let callee ← textFrom start
        let args ← arguments g
        suffixes g start line fuel
          ⟨.call callee (Expression.literals args), .call line e.term (args.map (·.term))⟩
      else if isSign "[" t then
        discard (sign "[")
        let indices ← sepBy (index g) (sign ",")
        closing "]"
        suffixes g start line fuel ⟨.subscript, .group (e.term :: indices.map (·.term))⟩
      else return e

/--
An operand with its suffixes.
-/
def operandRule (g : Grammar) : Parser Expression := do
  if ← accept (word "await") then
    let e ← g.operand
    return ⟨.other, .wrapped ["async"] e.term⟩
  let start ← position
  let line := (← row) + 1
  let e ← atom g
  suffixes g start line (← get).tokens.length e

/--
Expressions with commas between them.
-/
def expressions (g : Grammar) : Parser (List Expression) :=
  sepBy (do
    match ← optional (sign "*") with
    | some _ => return .ofParts [← g.expression]
    | none => g.expression) (sign ",")

/--
The grammar of expressions that are nested at most so deep.
-/
def ofDepth : Nat → Grammar
  | 0 => ⟨failure, failure⟩
  | depth + 1 =>
    let g := ofDepth depth
    ⟨expressionRule g, operandRule g⟩

end Grammar

end ApiSurface.Python
