import ApiSurface.Code.Term

/-!
This module contains what a Java file declares, as far as its public surface depends on it.
-/

namespace ApiSurface.Java

open Code

/--
The words in front of a declaration that matter.
-/
structure Modifiers where
  isPublic : Bool := false
  isProtected : Bool := false
  isPrivate : Bool := false
  isStatic : Bool := false
  /-- The declaration is annotated as deprecated. -/
  isDeprecated : Bool := false
deriving DecidableEq, Repr

/--
A parameter of a method.
-/
structure Parameter where
  type : String
  name : String
  variadic : Bool := false
deriving Repr

/--
The kinds of type declarations.
-/
inductive TypeSort where
  | classType
  | interface
  | enum
  | record
  | annotationType
deriving DecidableEq, Repr

/--
The head of a type declaration.
-/
structure TypeHead where
  sort : TypeSort
  modifiers : Modifiers
  name : String
  offset : Nat
  superclass : Option String := none
  interfaces : List String := []
  /-- The components of a record. -/
  components : List Parameter := []
  /-- The documentation comment directly above. -/
  comment : Option String := none
deriving Repr

/--
What a method or a constructor declares.
-/
structure Callable where
  modifiers : Modifiers
  parameters : List Parameter
  comment : Option String
deriving Repr

/--
A declaration: a type with what is directly in its body, or something in the body of one.
-/
inductive Declaration where
  | type (head : TypeHead) (body : List Declaration)
  /-- A constant of an enumeration, with the declarations in its own body. -/
  | constant (name : String) (body : List Declaration)
  /-- The part of an enumeration behind its constants. -/
  | enumSection (body : List Declaration)
  | constructor (c : Callable)
  | method (name type : String) (c : Callable)
  /-- An element of an annotation type. -/
  | element (name type : String) (c : Callable)
  | field (modifiers : Modifiers) (isConstant : Bool) (type : String) (names : List String) (comment : Option String)
  | package (name : String)
  /-- An import: its path, and whether it is of all names or of static members. -/
  | imports (path : String) (isBroad : Bool)
  | other
deriving Repr

/--
What a file holds.
-/
structure SourceText where
  declarations : List Declaration
  /-- Everything the file does. -/
  term : Term
  damaged : Bool
deriving Repr

end ApiSurface.Java
