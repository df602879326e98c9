import ApiSurface.Code.Term

/-!
This module contains what a Go file declares, as far as its public surface depends on it.
-/

namespace ApiSurface.Go

open Code

/--
Parameters or results of one type.
-/
structure ParameterGroup where
  names : List String := []
  type : String
  variadic : Bool := false
deriving Repr

/--
What a function takes and gives.
-/
structure Signature where
  parameters : List ParameterGroup := []
  results : List ParameterGroup := []
deriving Repr

/--
A field of a struct; one without names is embedded.
-/
structure Field where
  names : List String
  type : String
  /-- The comment lines directly above. -/
  comments : List String
deriving Repr

/--
An element of an interface.
-/
inductive Element where
  | method (name : String) (signature : Signature) (comments : List String)
  /-- Embedded types, or the members of a type set. -/
  | types (texts : List String)
deriving Repr

/--
What a type is made of.
-/
inductive TypeBody where
  | struct (fields : List Field)
  | interface (elements : List Element)
  | function (signature : Signature)
  | other
deriving Repr

/--
A type, with its source text.
-/
structure TypeExpression where
  body : TypeBody
  text : String
  term : Term

/--
A declared type.
-/
structure TypeSpec where
  name : String
  offset : Nat
  isAlias : Bool
  body : TypeBody
  text : String
  /-- The comment lines directly above, or else those above the whole declaration. -/
  comments : List String
deriving Repr

/--
A function or a method.
-/
structure Function where
  name : String
  offset : Nat
  signature : Signature
  comments : List String
deriving Repr

/--
The constants of one line: names with their offsets.
-/
structure ConstSpec where
  names : List (String × Nat)
  type : Option String
  hasValue : Bool
deriving Repr

/--
An imported package and its name here.
-/
structure ImportSpec where
  name : Option String
  path : String
deriving Repr

/--
A declaration at the top of a file.
-/
inductive Declaration where
  | package (name : String)
  | imports (specs : List ImportSpec)
  | types (specs : List TypeSpec)
  | function (f : Function)
  | method (receiver : String) (f : Function)
  | constants (specs : List ConstSpec)
  | other
deriving Repr

/--
What a file holds.
-/
structure SourceText where
  declarations : List Declaration
  /-- Everything the file does. -/
  term : Term
  damaged : Bool
deriving Repr

end ApiSurface.Go
