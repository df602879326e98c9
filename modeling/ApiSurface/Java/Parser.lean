import ApiSurface.Java.Statement

/-!
This module contains the parser of Java files. What cannot be read is left out, and the file counts as damaged.
-/

namespace ApiSurface.Java

open Code Code.Parser

/--
A declaration with what it does.
-/
abbrev Piece := Declaration × Term

namespace Grammar

/--
The exceptions that a method declares.
-/
def throwsClause : Parser Unit :=
  discard (optional (word "throws" *> sepBy1 anyType (sign ",")))

/--
The parameters among those of a list that have a name.
-/
def named (ps : List (Option Parameter × Term)) : List Parameter :=
  ps.filterMap (·.1)

/--
The body of a method, or a semicolon.
-/
def methodBody (g : Grammar) : Parser (List Term) :=
  (do discard (sign ";"); return []) <|> (do return [← block g])

/--
The default of an element of an annotation type.
-/
def elementDefault (g : Grammar) : Parser (List Term) := do
  if !(← accept (word "default")) then return []
  (do return [← arrayBraces g])
    <|> (do discard annotationRule; return [])
    <|> (do return [← g.expression])

/--
A constructor; a record may leave its parameters out.
-/
def constructorDeclaration (g : Grammar) (m : Modifiers) (comment : Option String) : Parser Piece := do
  discard (optional typeParameters)
  discard ident
  if ← next (isSign "\x7b") then return (.other, ← block g)
  let ps ← parameters
  throwsClause
  let body ← block g
  return (.constructor ⟨m, named ps, comment⟩, .group (ps.map (·.2) ++ [body]))

/--
A method, or an element of an annotation type.
-/
def methodDeclaration (g : Grammar) (sort : TypeSort) (m : Modifiers) (comment : Option String) : Parser Piece := do
  discard (optional typeParameters)
  annotations
  let t ← type
  let n ← ident
  let ps ← parameters
  dimensions
  throwsClause
  let c : Callable := ⟨m, named ps, comment⟩
  if sort == .annotationType then
    let default ← elementDefault g
    discard (sign ";")
    return (.element n t c, .group default)
  let body ← methodBody g
  return (.method n t c, .group (ps.map (·.2) ++ body))

/--
Fields. In an interface they are constants.
-/
def fieldDeclaration (g : Grammar) (sort : TypeSort) (m : Modifiers) (comment : Option String) : Parser Piece := do
  let t ← type
  let ds ← declarators g
  discard (sign ";")
  let isConstant := sort == .interface || sort == .annotationType
  let term := if isConstant then .group (ds.filterMap (·.2)) else declaredTerm t ds
  return (.field m isConstant t (ds.map (·.1)) comment, term)

/--
A member of a type, or a type in its body.
-/
def memberDeclaration (g : Grammar) (nested : Parser Piece) (sort : TypeSort) : Parser Piece :=
  (do discard (sign ";"); return (.other, .plain))
    <|> nested
    <|> (do discard (optional (word "static")); return (.other, ← block g))
    <|> (do
      let comment ← documentation
      let m ← modifiers
      constructorDeclaration g m comment
        <|> methodDeclaration g sort m comment
        <|> fieldDeclaration g sort m comment)

/--
The members of a type up to the closing brace; what cannot be read is left out.
-/
def members (member : Parser Piece) : Nat → Parser (List Piece)
  | 0 => return []
  | fuel + 1 => do
    if ← accept (sign "\x7d") then return []
    if (← get).tokens.isEmpty then
      damage
      return []
    match ← optional member with
    | some p => return p :: (← members member fuel)
    | none =>
      damage
      discard (satisfy (fun _ => true))
      members member fuel

/--
The members of a type in braces.
-/
def body (member : Parser Piece) : Parser (List Piece) := do
  discard (sign "\x7b")
  members member ((← get).tokens.length + 1)

/--
A constant of an enumeration.
-/
def enumConstant (g : Grammar) (member : Parser Piece) : Parser Piece := do
  discard modifiers
  let n ← ident
  let args ← optional (arguments g)
  let ps := (← optional (body member)).getD []
  return (.constant n (ps.map (·.1)), .group (args.getD [] ++ ps.map (·.2)))

/--
The body of an enumeration: constants, then members behind a semicolon.
-/
def enumBody (g : Grammar) (member : Parser Piece) : Parser (List Piece) := do
  discard (sign "\x7b")
  let constants ← sepBy (enumConstant g member) (sign ",")
  discard (optional (sign ","))
  discard (optional (sign ";"))
  let ps ← members member ((← get).tokens.length + 1)
  return constants ++ [(.enumSection (ps.map (·.1)), .group (ps.map (·.2)))]

/--
Types behind a word.
-/
def typesAfter (w : String) : Parser (List String) := do
  match ← optional (word w *> sepBy1 type (sign ",")) with
  | some ts => return ts
  | none => return []

/--
The declaration of a type. `nested` reads the types in its body.
-/
def typeDeclarationRule (g : Grammar) (nested : Parser Piece) : Parser Piece := do
  let comment ← documentation
  let offset ← position
  let m ← modifiers
  let start (sort : TypeSort) : Parser TypeHead := do
    let n ← ident
    discard (optional typeParameters)
    return { sort := sort, modifiers := m, name := n, offset := offset, comment := comment }
  let finish (h : TypeHead) (front : List Term) (ps : List Piece) : Piece :=
    (.type h (ps.map (·.1)), .group (front ++ ps.map (·.2)))
  (do
    discard (word "class")
    let h ← start .classType
    let base ← optional (word "extends" *> type)
    let interfaces ← typesAfter "implements"
    discard (typesAfter "permits")
    let ps ← body (memberDeclaration g nested .classType)
    return finish { h with superclass := base, interfaces := interfaces } [] ps)
    <|> (do
      discard (word "interface")
      let h ← start .interface
      let interfaces ← typesAfter "extends"
      discard (typesAfter "permits")
      let ps ← body (memberDeclaration g nested .interface)
      return finish { h with interfaces := interfaces } [] ps)
    <|> (do
      discard (word "enum")
      let h ← start .enum
      let interfaces ← typesAfter "implements"
      let ps ← enumBody g (memberDeclaration g nested .enum)
      return finish { h with interfaces := interfaces } [] ps)
    <|> (do
      discard (word "record")
      let h ← start .record
      let components ← parameters
      let interfaces ← typesAfter "implements"
      let ps ← body (memberDeclaration g nested .record)
      return finish { h with interfaces := interfaces, components := named components } (components.map (·.2)) ps)
    <|> (do
      discard (sign "@")
      discard (word "interface")
      let h ← start .annotationType
      let ps ← body (memberDeclaration g nested .annotationType)
      return finish h [] ps)

/--
The declaration of a type in which types are nested at most so deep.
-/
def nestedType (g : Grammar) : Nat → Parser Piece
  | 0 => failure
  | depth + 1 => typeDeclarationRule g (nestedType g depth)

/--
The declaration of a type, nested as deep as the input allows.
-/
def anyTypeDeclaration (g : Grammar) : Parser Piece := do
  nestedType g ((← get).tokens.length + 1)

/--
The body of an anonymous class.
-/
def classBodyRule (g : Grammar) : Parser Term := do
  let ps ← body (memberDeclaration g (anyTypeDeclaration g) .classType)
  return .group (ps.map (·.2))

/--
The grammar of expressions, statements and class bodies that are nested at most so deep.
-/
def ofDepth : Nat → Grammar
  | 0 => ⟨failure, failure, failure, failure, failure⟩
  | depth + 1 =>
    let g := ofDepth depth
    ⟨expressionRule g, operandRule g, statementRule g, classBodyRule g, (·.2) <$> anyTypeDeclaration g⟩

/--
The package of a file.
-/
def packageDeclaration : Parser Piece := do
  annotations
  discard (word "package")
  let n ← dotted
  discard (sign ";")
  return (.package n, .plain)

/--
An import.
-/
def importDeclaration : Parser Piece := do
  discard (word "import")
  let isStatic ← accept (word "static")
  let path ← dotted
  let all ← accept (do discard (sign "."); sign "*")
  discard (sign ";")
  return (.imports path (isStatic || all), .plain)

/--
A module declaration, which declares no types.
-/
def moduleDeclaration : Parser Piece := do
  annotations
  discard (accept (word "open"))
  discard (word "module")
  discard dotted
  discard (sign "\x7b")
  closeBracket ["\x7b"] ["\x7d"]
  return (.other, .plain)

/--
One item at the top of a file.
-/
def topLevel (g : Grammar) : Parser Piece :=
  packageDeclaration
    <|> importDeclaration
    <|> moduleDeclaration
    <|> anyTypeDeclaration g
    <|> (do
      let m ← modifiers
      let (_, t) ← methodDeclaration g .classType m none
      return (.other, t))
    <|> (do return (.other, ← g.statement))

/--
The items of a file.
-/
def items (g : Grammar) : Nat → Parser (List Piece)
  | 0 => return []
  | fuel + 1 => do
    if (← get).tokens.isEmpty then return []
    match ← optional (topLevel g) with
    | some p => return p :: (← items g fuel)
    | none =>
      damage
      discard (satisfy (fun _ => true))
      items g fuel

end Grammar

/--
Parse a file.
-/
def SourceText.parse (source : String) : SourceText :=
  let cs := source.toList
  let tokens := Lexer.tokens cs
  let depth := tokens.length + 1
  match Parser.run (Grammar.items (Grammar.ofDepth (2 * depth)) depth) cs tokens with
  | some (ps, damaged) => ⟨ps.map (·.1), .group (ps.map (·.2)), damaged⟩
  | none => ⟨[], .plain, true⟩

end ApiSurface.Java
