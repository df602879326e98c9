import ApiSurface.Code.Parser
import ApiSurface.Java.Lexer
import ApiSurface.Java.Tree
import ApiSurface.Text.Cut

/-!
This module contains the parsers of Java names, types, annotations and modifiers.
-/

namespace ApiSurface.Java

open Code Code.Parser

/--
Words that are no names.
-/
def keywords : List String :=
  ["abstract", "assert", "boolean", "break", "byte", "case", "catch", "char", "class", "const", "continue",
   "default", "do", "double", "else", "enum", "extends", "final", "finally", "float", "for", "goto", "if",
   "implements", "import", "instanceof", "int", "interface", "long", "native", "new", "package", "private",
   "protected", "public", "return", "short", "static", "strictfp", "super", "switch", "synchronized", "this",
   "throw", "throws", "transient", "try", "void", "volatile", "while", "true", "false", "null"]

/--
The types that are words of the language.
-/
def primitiveTypes : List String :=
  ["boolean", "byte", "char", "double", "float", "int", "long", "short", "void"]

/--
The words that modify a declaration.
-/
def modifierWords : List String :=
  ["public", "protected", "private", "abstract", "static", "final", "strictfp", "default", "synchronized", "native",
   "transient", "volatile", "sealed", "non"]

namespace Grammar

/--
A name.
-/
def ident : Parser String :=
  (·.text) <$> satisfy (fun t => t.kind == .word && !keywords.contains t.text)

/--
A dotted name.
-/
def dotted : Parser String := do
  let (_, text) ← spanned (do
    discard ident
    discard (many (do discard (sign "."); ident)))
  return text

/--
Leave out everything up to the closing parenthesis.
-/
def skipParentheses : Parser Unit := do
  discard (sign "(")
  closeBracket ["("] [")"]

/--
An annotation; the result is its name.
-/
def annotationRule : Parser String := do
  discard (sign "@")
  if ← next (isWord "interface") then failure
  let n ← dotted
  discard (optional skipParentheses)
  return n

/--
Annotations, which say nothing here.
-/
def annotations : Parser Unit :=
  discard (many annotationRule)

/--
The arguments of a generic type, over whole brackets.
-/
def typeArguments (type : Parser Unit) : Parser Unit := do
  discard (sign "<")
  let one : Parser Unit := do
    annotations
    if ← accept (sign "?") then
      discard (optional (wordOf ["extends", "super"] *> type))
    else type
  discard (optional (sepBy1 one (sign "," <|> sign "&")))
  discard (sign ">")

/--
The brackets behind a type or a name.
-/
def dimensions : Parser Unit :=
  discard (many (do
    annotations
    discard (sign "[")
    sign "]"))

/--
A type without the brackets of arrays, in which types are nested at most so deep.
-/
def plainType : Nat → Parser Unit
  | 0 => failure
  | depth + 1 => do
    annotations
    let inner : Parser Unit := plainType depth *> dimensions
    if ← accept (wordOf primitiveTypes) then return ()
    let part : Parser Unit := do
      annotations
      discard ident
      discard (optional (typeArguments inner))
    part
    discard (many (do discard (sign "."); part))

/--
How deep types can be nested in the rest of the input.
-/
def typeDepth : Parser Nat :=
  return (← get).tokens.length + 1

/--
A type.
-/
def anyType : Parser Unit := do
  plainType (← typeDepth)
  dimensions

/--
A type, as its source text.
-/
def type : Parser String := do
  return (← spanned anyType).2

/--
The parameters of a generic declaration.
-/
def typeParameters : Parser Unit := do
  discard (sign "<")
  discard (sepBy (do
    annotations
    discard ident
    discard (optional (word "extends" *> sepBy1 anyType (sign "&")))) (sign ","))
  discard (sign ">")

/--
Add a modifier.
-/
def addModifier (m : Modifiers) (w : String) : Modifiers :=
  match w with
  | "public" => { m with isPublic := true }
  | "protected" => { m with isProtected := true }
  | "private" => { m with isPrivate := true }
  | "static" => { m with isStatic := true }
  | _ => m

/--
The modifiers of a declaration. Words that are names elsewhere count only in front of a declaration.
-/
def modifiers : Parser Modifiers := do
  let one : Parser (Modifiers → Modifiers) :=
    (do
      let n ← annotationRule
      let deprecated := Text.lastPart '.' n == "Deprecated"
      return fun m => { m with isDeprecated := m.isDeprecated || deprecated })
      <|> (do
        discard (word "non")
        discard (sign "-")
        discard (word "sealed")
        return id)
      <|> (do
        discard (word "sealed")
        ahead (fun t => t.kind == .word)
        return id)
      <|> (do
        discard (word "default")
        ahead (fun t => !isSign ":" t && !isSign "->" t)
        return id)
      <|> (do
        let t ← wordOf (modifierWords.filter (fun w => w != "non" && w != "sealed" && w != "default"))
        return fun m => addModifier m t.text)
  return (← many one).foldl (fun m f => f m) {}

/--
The comment directly above the next token, if it is documentation.
-/
def documentation : Parser (Option String) := do
  match ← peek? with
  | some t => return (t.comments.getLast?.map (·.text)).filter (·.startsWith "/**")
  | none => return none

end Grammar

end ApiSurface.Java
