import ApiSurface.Go.Grammar

/-!
This module contains the parsers of Go expressions and statements. Operators are not ranked: what matters of an
expression is whether it is a name, a field, a call or a composite literal, and which expressions it is made of.
-/

namespace ApiSurface.Go

open Code Code.Parser

namespace Grammar

/--
Signs between operands.
-/
def operatorSigns : List String :=
  ["+", "-", "*", "/", "%", "&", "|", "^", "<<", ">>", "&^", "&&", "||", "==", "!=", "<", "<=", ">", ">="]

/--
Signs in front of an operand. The value of the operand is what matters.
-/
def unarySigns : List String :=
  ["+", "-", "!", "^", "*", "&", "<-"]

/--
The braces of a composite literal: values, with keys or without.
-/
def literalValue (g : Grammar) : Nat → Parser (List Term)
  | 0 => failure
  | fuel + 1 => do
    discard (sign "\x7b")
    let one : Parser Term := (do return .group (← literalValue g fuel)) <|> g.expression true
    let xs ← sepBy (do
      let a ← one
      match ← optional (sign ":" *> one) with
      | some b => return Term.group [a, b]
      | none => return a) (sign ",")
    discard (optional (kind .newline))
    discard (sign "\x7d")
    return xs

/--
The braces of a composite literal in an input of any length.
-/
def literalBraces (g : Grammar) : Parser (List Term) := do
  literalValue g ((← get).tokens.length + 1)

/--
An argument of a call: an expression or a type.
-/
def argument (g : Grammar) : Parser Term :=
  (do
    let e ← g.expression true
    discard (optional (sign "..."))
    ahead (fun t => isSign "," t || isSign ")" t || t.kind == .newline)
    return e)
    <|> (do return (← g.type).term)

/--
The arguments of a call.
-/
def arguments (g : Grammar) : Parser (List Term) := do
  discard (sign "(")
  let args ← sepBy (argument g) (sign ",")
  discard (optional (kind .newline))
  discard (sign ")")
  return args

/--
An index or a slice.
-/
def indices (g : Grammar) : Parser (List Term) := do
  discard (sign "[")
  let first ← optional (g.expression true)
  let rest ← many (sign ":" *> optional (g.expression true))
  discard (sign "]")
  return first.toList ++ rest.filterMap id

/--
A function literal.
-/
def functionLiteral (g : Grammar) : Parser Term := do
  discard (word "func")
  let (_, t) ← signature g
  return .group [t, ← g.block]

/--
A literal or a conversion that begins with a type which is no plain name.
-/
def typedOperand (g : Grammar) : Parser Term := do
  ahead (fun t => isSign "[" t || t.kind == .word && ["map", "struct", "chan", "interface", "func"].contains t.text)
  let t ← g.type
  (do return .construct t.text (t.term :: (← literalBraces g)))
    <|> (do return .group (t.term :: (← arguments g)))

/--
An operand without suffixes.
-/
def atom (g : Grammar) : Parser Term :=
  (do return .name (← ident))
    <|> (do discard (kind .number <|> kind .text); return .plain)
    <|> (do
      discard (sign "(")
      let commented ← commentAhead
      let e ← (g.expression true <* sign ")") <|> (do return (← g.type).term) <* sign ")"
      return parenthesizedTerm commented e)
    <|> functionLiteral g
    <|> typedOperand g

/--
Whether a term can be the type of a composite literal.
-/
def namesType : Term → Bool
  | .name _ => true
  | .member (.name _) _ => true
  | _ => false

/--
The suffixes of an operand. `start` is where it starts, `line` the line it starts on.
-/
def suffixes (g : Grammar) (braces : Bool) (start line : Nat) : Nat → Term → Parser Term
  | 0, e => return e
  | fuel + 1, e => do
    match ← peek? with
    | none => return e
    | some t =>
      if isSign "." t then
        let selector : Parser Term := do
          discard (sign ".")
          return .member e (← ident)
        let assertion : Parser Term := do
          discard (sign ".")
          discard (sign "(")
          let t ← (do discard (word "type"); return Term.plain) <|> (do return (← g.type).term)
          discard (sign ")")
          return .group [e, t]
        suffixes g braces start line fuel (← selector <|> assertion)
      else if isSign "(" t then
        suffixes g braces start line fuel (.call line e (← arguments g))
      else if isSign "[" t then
        let generic : Parser Term := do
          if !namesType e then failure
          let ts ← typeArguments g
          if ← next (isSign "(") then return .call line e (ts ++ (← arguments g))
          if !braces then failure
          let type ← textFrom start
          ahead (isSign "\x7b")
          return .construct type (e :: ts ++ (← literalBraces g))
        let index : Parser Term := do return .group (e :: (← indices g))
        suffixes g braces start line fuel (← generic <|> index)
      else if isSign "\x7b" t && braces && namesType e then
        let type ← textFrom start
        match ← optional (literalBraces g) with
        | some parts => suffixes g braces start line fuel (.construct type (e :: parts))
        | none => return e
      else return e

/--
An operand with the signs in front of it and its suffixes, and whether there were signs.
-/
def operand (g : Grammar) (braces : Bool) : Parser Term := do
  let marks ← many (signOf unarySigns)
  let start ← position
  let line := (← row) + 1
  let e ← atom g
  let e ← suffixes g braces start line (← get).tokens.length e
  return marks.foldr (fun _ e => .wrapped [] e) e

/--
An expression.
-/
def expressionRule (g : Grammar) (braces : Bool) : Parser Term := do
  let first ← operand g braces
  let rest ← many (signOf operatorSigns *> operand g braces)
  if rest.isEmpty then return first else return .group (first :: rest)

/--
Expressions with commas between them.
-/
def expressions (g : Grammar) (braces : Bool) : Parser (List Term) :=
  sepBy1 (g.expression braces) (sign ",")

/--
The name that an assignment to a term binds.
-/
def boundName : Term → Option String
  | .name n => some n
  | .member _ field => some field
  | _ => none

/--
The signs of assignments.
-/
def assignmentSigns : List String :=
  [":=", "=", "+=", "-=", "*=", "/=", "%=", "&=", "|=", "^=", "<<=", ">>=", "&^="]

/--
An assignment of expressions to expressions. The first of each belong together.
-/
def assignment (left right : List Term) : Term :=
  match left with
  | [] => .group right
  | first :: _ =>
    match boundName first with
    | some n => .bind [(n, none, right.head?)] (left ++ right)
    | none => .group (left ++ right)

/--
A simple statement: an assignment, a range over values, a sending, a counting, or an expression.
-/
def simpleStatement (g : Grammar) (braces : Bool) : Parser Term :=
  (do
    discard (word "range")
    return .group [← g.expression braces])
    <|> (do
      let left ← expressions g braces
      match ← optional (signOf assignmentSigns) with
      | some _ =>
        if ← accept (word "range") then
          return .group (left ++ [← g.expression braces])
        return assignment left (← expressions g braces)
      | none =>
        match ← optional (signOf ["++", "--"]) with
        | some _ => return .group left
        | none =>
          match ← optional (sign "<-" *> g.expression braces) with
          | some e => return .group (left ++ [e])
          | none => return .group left)

/--
Variables of one line.
-/
def varSpec (g : Grammar) : Parser Term := do
  let names ← sepBy1 ident (sign ",")
  let type ← optional g.type
  let values ← optional (sign "=" *> expressions g true)
  let values := values.getD []
  return .bind (names.map (fun n => (n, type.map (·.text), values.head?))) (type.toList.map (·.term) ++ values)

/--
Items behind a word: one, or several in parentheses with an end each.
-/
def grouped (keyword : String) (item : Parser α) : Parser (List α) := do
  discard (word keyword)
  if ← accept (sign "(") then
    terminators
    let xs ← many (do
      let x ← item
      if !(← accept terminator) then damage
      terminators
      return x)
    discard (sign ")")
    return xs
  return [← item]

/--
A declaration of variables.
-/
def varDeclaration (g : Grammar) : Parser Term := do
  return .group (← grouped "var" (varSpec g))

/--
Constants of one line, and what their values do.
-/
def constSpec (g : Grammar) : Parser (ConstSpec × Term) := do
  let name : Parser (String × Nat) := do
    let at_ ← position
    return (← ident, at_)
  let names ← sepBy1 name (sign ",")
  let type ← optional g.type
  let values ← optional (sign "=" *> expressions g true)
  return (⟨names, type.map (·.text), values.isSome⟩, .group (type.toList.map (·.term) ++ values.getD []))

/--
The parameters of a generic declaration.
-/
def typeParameters (g : Grammar) : Parser Term := do
  discard (sign "[")
  let ps ← sepBy1 (do
    discard (sepBy1 ident (sign ","))
    let ts ← sepBy1 (do discard (optional (sign "~")); g.type) (sign "|")
    return Term.group (ts.map (·.term))) (sign ",")
  discard (optional (sign ","))
  discard (sign "]")
  return .group ps

/--
A declared type.
-/
def typeSpec (g : Grammar) : Parser (TypeSpec × Term) := do
  let comments ← commentsAbove
  let offset ← position
  let n ← ident
  let body (isAlias : Bool) : Parser (TypeSpec × Term) := do
    let t ← g.type
    return (⟨n, offset, isAlias, t.body, t.text, comments⟩, t.term)
  (do
    let ps ← typeParameters g
    let isAlias ← accept (sign "=")
    let (spec, t) ← body isAlias
    return (spec, .group [ps, t]))
    <|> (do discard (sign "="); body true)
    <|> body false

/--
A declaration inside a function.
-/
def localDeclaration (g : Grammar) : Parser Term :=
  varDeclaration g
    <|> (do return .group ((← grouped "const" (constSpec g)).map (·.2)))
    <|> (do return .group ((← grouped "type" (typeSpec g)).map (·.2)))

/--
The statements up to where `stop` succeeds without reading.
-/
def statementList (statement : Parser Term) : Parser (List Term) := do
  terminators
  many (do
    let t ← statement
    if !(← accept terminator) then ahead (fun t => isSign "\x7d" t || isWord "case" t || isWord "default" t)
    terminators
    return t)

/--
The head of a statement: simple statements with semicolons between them.
-/
def head (g : Grammar) : Parser (List Term) := do
  let first ← optional (simpleStatement g false)
  let rest ← many (sign ";" *> optional (simpleStatement g false))
  return first.toList ++ rest.filterMap id

/--
A choice by condition.
-/
def ifStatement (g : Grammar) : Nat → Parser Term
  | 0 => failure
  | fuel + 1 => do
    discard (word "if")
    let h ← head g
    let body ← g.block
    let other ← optional (word "else" *> (ifStatement g fuel <|> g.block))
    return .group (h ++ [body] ++ other.toList)

/--
The cases between braces: what stands before the colon, and the statements after it.
-/
def cases (statement caseHead : Parser Term) : Parser (List Term) := do
  discard (sign "\x7b")
  terminators
  let cs ← many (do
    let h ← (word "case" *> caseHead) <|> (do discard (word "default"); return Term.plain)
    discard (sign ":")
    return Term.group (h :: (← statementList statement)))
  discard (sign "\x7d")
  return cs

/--
The values or types of a case.
-/
def caseValues (g : Grammar) : Parser Term := do
  let one : Parser Term :=
    (g.expression true <* ahead (fun t => isSign "," t || isSign ":" t)) <|> (do return (← g.type).term)
  return .group (← sepBy1 one (sign ","))

/--
A choice by value or by type.
-/
def switchStatement (g : Grammar) (statement : Parser Term) : Parser Term := do
  discard (word "switch")
  -- A name for the value whose type is asked for is no variable of that value.
  let init : Parser (List Term) := do
    let h ← head g
    return h
  let asked : Parser (List Term) := do
    let first ← optional (simpleStatement g false <* sign ";")
    discard ident
    discard (sign ":=")
    let e ← g.expression false
    ahead (isSign "\x7b")
    match e with
    | .group [_, .other [] []] => return first.toList ++ [e]
    | _ => failure
  let h ← asked <|> init
  return .group (h ++ (← cases statement (caseValues g)))

/--
A choice by communication. A name for what is received is no variable of it.
-/
def selectStatement (g : Grammar) (statement : Parser Term) : Parser Term := do
  discard (word "select")
  let communication : Parser Term := do
    let s ← simpleStatement g true
    match s with
    | .bind _ parts => return .group parts
    | s => return s
  return .other ["channel-select"] (← cases statement communication)

/--
A statement.
-/
def statementRule (g : Grammar) (statement : Parser Term) : Parser Term :=
  localDeclaration g
    <|> (do ifStatement g ((← get).tokens.length + 1))
    <|> (do
      discard (word "for")
      let h ← head g
      return .group (h ++ [← g.block]))
    <|> switchStatement g statement
    <|> selectStatement g statement
    <|> (do discard (word "go"); return .other ["goroutine"] [← g.expression true])
    <|> (do discard (word "defer"); return .other ["defer-cleanup"] [← g.expression true])
    <|> (do
      discard (word "return")
      let es ← optional (expressions g true)
      return .group (es.getD []))
    <|> (do discard (wordOf ["break", "continue", "goto"]); discard (optional ident); return .plain)
    <|> (do discard (word "fallthrough"); return .plain)
    <|> g.block
    <|> (do
      discard ident
      discard (sign ":")
      terminators
      let s ← optional statement
      return s.getD .plain)
    <|> simpleStatement g true

/--
A statement in which statements are nested at most so deep.
-/
def statement (g : Grammar) : Nat → Parser Term
  | 0 => failure
  | depth + 1 => statementRule g (statement g depth)

/--
A block: statements in braces.
-/
def blockRule (g : Grammar) : Parser Term := do
  discard (sign "\x7b")
  let ss ← statementList (statement g ((← get).tokens.length + 1))
  discard (sign "\x7d")
  return .group ss

/--
The grammar of types, expressions and blocks that are nested at most so deep.
-/
def ofDepth : Nat → Grammar
  | 0 => ⟨failure, fun _ => failure, failure⟩
  | depth + 1 =>
    let g := ofDepth depth
    ⟨typeRule g, expressionRule g, blockRule g⟩

end Grammar

end ApiSurface.Go
