import ApiSurface.Java.Grammar

/-!
This module contains the parsers of Java expressions and statements. Operators are not ranked: what matters of an
expression is whether it is a name, a field, a call or a construction, and which expressions it is made of.
-/

namespace ApiSurface.Java

open Code Code.Parser

/--
The parsers that depend on each other.
-/
structure Grammar where
  expression : Parser Term
  /-- An operand with everything that binds closer than an operator. -/
  operand : Parser Term
  statement : Parser Term
  /-- The body of a class in braces. -/
  classBody : Parser Term
  /-- The declaration of a class, an interface, an enumeration or a record. -/
  typeDeclaration : Parser Term

namespace Grammar

/--
Signs between operands. A shift to the right is made of several signs.
-/
def operator : Parser Unit :=
  discard (signOf ["+", "-", "*", "/", "%", "&", "|", "^", "<<", "&&", "||", "==", "!=", "<", "<=", ">="])
    <|> (do
      discard (sign ">")
      discard (many (signOf [">", ">="])))

/--
Signs of assignments.
-/
def assignmentSigns : List String :=
  ["=", "+=", "-=", "*=", "/=", "%=", "&=", "|=", "^=", "<<="]

/--
The name that an assignment to a term binds.
-/
def boundName : Term → Option String
  | .name n => some n
  | .member _ field => some field
  | _ => none

/--
An assignment of a value.
-/
def assignment (left right : Term) : Term :=
  match boundName left with
  | some n => .bind [(n, none, some right)] [left, right]
  | none => .group [left, right]

/--
The arguments of a call.
-/
def arguments (g : Grammar) : Parser (List Term) := do
  discard (sign "(")
  let args ← sepBy g.expression (sign ",")
  discard (sign ")")
  return args

/--
The values of an array in braces.
-/
def arrayValues (g : Grammar) : Nat → Parser Term
  | 0 => failure
  | fuel + 1 => do
    discard (sign "\x7b")
    let xs ← sepBy (arrayValues g fuel <|> g.expression) (sign ",")
    discard (optional (sign ","))
    discard (sign "\x7d")
    return .group xs

/--
The values of an array, nested as deep as the input allows.
-/
def arrayBraces (g : Grammar) : Parser Term := do
  arrayValues g ((← get).tokens.length + 1)

/--
A parameter with a type, or one that stands for all further arguments.
-/
def parameter : Parser (Option Parameter × Term) := do
  discard modifiers
  let t ← type
  annotations
  if ← accept (sign "...") then
    let n ← ident
    dimensions
    return (some ⟨t, n, true⟩, .plain)
  if ← accept (do discard (optional (ident *> sign ".")); word "this") then return (none, .plain)
  let n ← ident
  dimensions
  return (some ⟨t, n, false⟩, .bind [(n, some t, none)] [])

/--
A list of parameters in parentheses. In a damaged text the closing one may be missing in front of a body.
-/
def parameters : Parser (List (Option Parameter × Term)) := do
  discard (sign "(")
  let ps ← sepBy parameter (sign ",")
  if !(← accept (sign ")")) then
    ahead (isSign "\x7b")
    damage
  return ps

/--
The body of a lambda expression.
-/
def lambdaBody (g : Grammar) : Parser Term := do
  discard (sign "->")
  if ← next (isSign "\x7b") then g.statement else g.expression

/--
A lambda expression.
-/
def lambda (g : Grammar) : Parser Term := do
  let ps : List Term ←
    (do
      discard ident
      ahead (isSign "->")
      return [])
      <|> (do
        discard (sign "(")
        discard (sepBy ident (sign ","))
        discard (sign ")")
        ahead (isSign "->")
        return [])
      <|> (do
        let ps ← parameters
        ahead (isSign "->")
        return ps.map (·.2))
  return .other ["async-callback"] (ps ++ [← lambdaBody g])

/--
Whether a token can begin an operand behind a type in parentheses.
-/
def startsOperand (t : Token) : Bool :=
  match t.kind with
  | .word => t.text != "instanceof"
  | .number | .text => true
  | .sign => ["(", "!", "~"].contains t.text
  | _ => false

/--
A conversion to a type.
-/
def cast (g : Grammar) : Parser Term := do
  discard (sign "(")
  let primitive ← next (fun t => t.kind == .word && primitiveTypes.contains t.text)
  discard (sepBy1 anyType (sign "&"))
  discard (sign ")")
  ahead (fun t => startsOperand t || primitive && (isSign "+" t || isSign "-" t || isSign "++" t || isSign "--" t))
  let e ← lambda g <|> g.operand
  return .group [e]

/--
The construction of an object or an array.
-/
def construction (g : Grammar) : Parser Term := do
  discard (word "new")
  discard (optional (typeArguments anyType))
  annotations
  let depth ← typeDepth
  let (_, t) ← spanned (plainType depth)
  if ← next (isSign "(") then
    let args ← arguments g
    let body ← optional g.classBody
    return .construct t (args ++ body.toList)
  let sizes ← many (do
    annotations
    discard (sign "[")
    let e ← optional g.expression
    discard (sign "]")
    return e)
  if sizes.isEmpty then failure
  let values ← optional (arrayBraces g)
  return .group (sizes.filterMap id ++ values.toList)

/--
A pattern that a value is compared with.
-/
def pattern : Nat → Parser Unit
  | 0 => failure
  | fuel + 1 => do
    discard modifiers
    anyType
    if ← accept (sign "(") then
      discard (sepBy (pattern fuel) (sign ","))
      discard (sign ")")
    discard (optional ident)

/--
A pattern, nested as deep as the input allows.
-/
def patternRule : Parser Unit := do
  pattern ((← get).tokens.length + 1)

/--
The cases of a switch: what they compare with, and what they do.
-/
def cases (g : Grammar) : Parser (List Term) := do
  discard (sign "\x7b")
  let label : Parser (List Term) :=
    (do
      discard (word "case")
      let ends (t : Token) : Bool := isSign "," t || isSign ":" t || isSign "->" t || isWord "when" t
      let one : Parser Term :=
        (do discard dotted; ahead ends; return Term.plain)
          <|> (g.expression <* ahead ends)
          <|> (do discard (word "default"); return Term.plain)
          <|> (do patternRule; return Term.plain)
      let es ← sepBy1 one (sign ",")
      let guard ← optional (word "when" *> g.expression)
      return es ++ guard.toList)
      <|> (do discard (word "default"); return [])
  let old : Parser Term := do
    let es ← label
    discard (sign ":")
    let ss ← many g.statement
    return .group (es ++ ss)
  let arrow : Parser Term := do
    let es ← label
    discard (sign "->")
    return .group (es ++ [← g.statement])
  let cs ← many (arrow <|> old)
  discard (sign "\x7d")
  return cs

/--
A choice by value.
-/
def switchRule (g : Grammar) : Parser Term := do
  discard (word "switch")
  discard (sign "(")
  let e ← g.expression
  discard (sign ")")
  return .group (e :: (← cases g))

/--
The class of a type, or a method of one, as a value.
-/
def typeValue : Parser Term :=
  (do
    anyType
    discard (sign ".")
    discard (word "class")
    return .plain)
    <|> (do
      anyType
      discard (sign "::")
      discard (optional (typeArguments anyType))
      discard (kind .word)
      return .plain)

/--
An operand without its suffixes.
-/
def atom (g : Grammar) : Parser Term :=
  lambda g
    <|> cast g
    <|> typeValue
    <|> (do return .name (← ident))
    <|> (do discard (kind .number <|> kind .text); return .plain)
    <|> (do discard (wordOf ["true", "false", "null", "this", "super"]); return .plain)
    <|> construction g
    <|> switchRule g
    <|> (do
      discard (sign "(")
      let commented ← commentAhead
      let e ← g.expression
      discard (sign ")")
      return parenthesizedTerm commented e)

/--
The suffixes of an operand: fields, calls, elements and methods as values.
-/
def suffixes (g : Grammar) (line : Nat) : Nat → Term → Parser Term
  | 0, e => return e
  | fuel + 1, e => do
    match ← peek? with
    | none => return e
    | some t =>
      if isSign "." t then
        discard (sign ".")
        if ← next (isWord "new") then
          let c ← construction g
          match c with
          | .construct type parts => suffixes g line fuel (.construct type (e :: parts))
          | c => suffixes g line fuel (.group [e, c])
        else
          discard (optional (typeArguments anyType))
          let n ← (·.text) <$> kind .word
          if n == "super" && (← next (isSign ".")) then suffixes g line fuel e
          else suffixes g line fuel (if n == "this" || n == "super" then .group [e] else .member e n)
      else if isSign "(" t then
        match e with
        | .name _ => suffixes g line fuel (.call line e (← arguments g))
        | .member _ _ => suffixes g line fuel (.call line e (← arguments g))
        | _ => suffixes g line fuel (.group (e :: (← arguments g)))
      else if isSign "[" t then
        discard (sign "[")
        let i ← g.expression
        discard (sign "]")
        suffixes g line fuel (.group [e, i])
      else if isSign "::" t then
        discard (sign "::")
        discard (optional (typeArguments anyType))
        discard (kind .word)
        suffixes g line fuel (.group [e])
      else if isSign "++" t || isSign "--" t then
        discard (signOf ["++", "--"])
        return .group [e]
      else return e

/--
An operand with its suffixes and the signs in front of it.
-/
def operandRule (g : Grammar) : Parser Term := do
  let marks ← many (signOf ["+", "-", "!", "~", "++", "--"])
  let line := (← row) + 1
  let e ← atom g
  let e ← suffixes g line (← get).tokens.length e
  return if marks.isEmpty then e else .group [e]

/--
An expression.
-/
def expressionRule (g : Grammar) : Parser Term := do
  let first ← g.operand
  let rest ← many (
    (operator *> g.operand)
      <|> (do discard (word "instanceof"); patternRule; return Term.plain))
  let e := if rest.isEmpty then first else .group (first :: rest)
  if ← accept (sign "?") then
    let yes ← g.expression
    discard (sign ":")
    let no ← g.expression
    return .group [e, yes, no]
  if ← accept (signOf assignmentSigns) then
    return assignment e (← g.expression)
  return e

/--
The names that a declaration gives to values, with the values.
-/
def declarators (g : Grammar) : Parser (List (String × Option Term)) :=
  sepBy1 (do
    let n ← ident
    dimensions
    let v ← optional (sign "=" *> (arrayBraces g <|> g.expression))
    return (n, v)) (sign ",")

/--
The term of a declaration of variables.
-/
def declaredTerm (type : String) (ds : List (String × Option Term)) : Term :=
  .bind (ds.map (fun (n, v) => (n, some type, v))) (ds.filterMap (·.2))

/--
A declaration of local variables, without its end.
-/
def localVariables (g : Grammar) : Parser Term := do
  discard modifiers
  let t ← type
  return declaredTerm t (← declarators g)

/--
A condition in parentheses.
-/
def condition (g : Grammar) : Parser Term := do
  discard (sign "(")
  let e ← g.expression
  discard (sign ")")
  return e

/--
Statements in braces. In a damaged text the closing brace may be missing at the end.
-/
def block (g : Grammar) : Parser Term := do
  discard (sign "\x7b")
  let ss ← many g.statement
  if !(← accept (sign "\x7d")) then
    if (← get).tokens.isEmpty then damage else failure
  return .group ss

/--
A loop over a collection. It counts as paging if its text says so.
-/
def loopOver (g : Grammar) : Parser Term := do
  let (parts, text) ← spanned (do
    discard (word "for")
    discard (sign "(")
    discard modifiers
    anyType
    discard ident
    dimensions
    discard (sign ":")
    let e ← g.expression
    discard (sign ")")
    let body ← g.statement
    return [e, body])
  let text := text.toLower
  let pages := Text.contains text "page" || Text.contains text "iterator"
  return .other (if pages then ["pagination"] else []) parts

/--
A loop with a counter.
-/
def loop (g : Grammar) : Parser Term := do
  discard (word "for")
  discard (sign "(")
  let init ← (do return [← localVariables g <* sign ";"]) <|> (sepBy g.expression (sign ",") <* sign ";")
  let c ← optional g.expression
  discard (sign ";")
  let update ← sepBy g.expression (sign ",")
  discard (sign ")")
  let body ← g.statement
  return .group (init ++ c.toList ++ update ++ [body])

/--
The resources of a statement that closes them.
-/
def resources (g : Grammar) : Parser (List Term) := do
  discard (sign "(")
  let one : Parser Term :=
    (do
      discard modifiers
      anyType
      discard ident
      discard (sign "=")
      g.expression)
      <|> g.expression
  let rs ← sepBy one (sign ";")
  discard (sign ")")
  return rs

/--
A statement with handlers for exceptions.
-/
def tryStatement (g : Grammar) : Parser Term := do
  discard (word "try")
  let rs ← optional (resources g)
  let body ← block g
  let handlers ← many (do
    discard (word "catch")
    discard (sign "(")
    discard modifiers
    discard (sepBy1 anyType (sign "|"))
    discard ident
    discard (sign ")")
    block g)
  let last ← optional (word "finally" *> block g)
  return .other ["error-handling"] (rs.getD [] ++ [body] ++ handlers ++ last.toList)

/--
A call of another constructor.
-/
def constructorCall (g : Grammar) : Parser Term := do
  discard (optional (typeArguments anyType))
  discard (wordOf ["this", "super"])
  let args ← arguments g
  discard (sign ";")
  return .group args

/--
A statement.
-/
def statementRule (g : Grammar) : Parser Term :=
  block g
    <|> (do discard (sign ";"); return .plain)
    <|> (do
      discard (word "if")
      let c ← condition g
      let yes ← g.statement
      let no ← optional (word "else" *> g.statement)
      return .group ([c, yes] ++ no.toList))
    <|> (do
      discard (word "while")
      let c ← condition g
      return .group [c, ← g.statement])
    <|> (do
      discard (word "do")
      let body ← g.statement
      discard (word "while")
      let c ← condition g
      discard (sign ";")
      return .group [body, c])
    <|> loopOver g
    <|> loop g
    <|> tryStatement g
    <|> (switchRule g <* optional (sign ";"))
    <|> (do
      discard (word "synchronized")
      let c ← condition g
      return .group [c, ← block g])
    <|> (do
      discard (wordOf ["return", "throw", "yield"])
      let e ← optional g.expression
      discard (sign ";")
      return .group e.toList)
    <|> (do
      discard (wordOf ["break", "continue"])
      discard (optional ident)
      discard (sign ";")
      return .plain)
    <|> (do
      discard (word "assert")
      let c ← g.expression
      let m ← optional (sign ":" *> g.expression)
      discard (sign ";")
      return .group (c :: m.toList))
    <|> (do
      discard ident
      discard (sign ":")
      g.statement)
    <|> g.typeDeclaration
    <|> (localVariables g <* sign ";")
    <|> constructorCall g
    <|> (g.expression <* sign ";")

end Grammar

end ApiSurface.Java
