import ApiSurface.Code.Term

/-!
This module contains what a Python module declares, as far as its public surface depends on it.
-/

namespace ApiSurface.Python

open Code

/--
A decorator: the name in front of its arguments, and the first literal among them.
-/
structure Decorator where
  name : String
  message : Option String
deriving Repr

/--
How many arguments a parameter takes.
-/
inductive Arity where
  | one
  /-- All further positional arguments. -/
  | positional
  /-- All further keyword arguments. -/
  | keyword
deriving DecidableEq, Repr

/--
The marks in front of a parameter's name.
-/
def Arity.stars : Arity → String
  | one => ""
  | positional => "*"
  | keyword => "**"

/--
A parameter with a name.
-/
structure Parameter where
  name : String
  arity : Arity := .one
  type : Option String := none
  optional : Bool := false
deriving Repr

/--
A function definition. `literal` is the literal that its body begins with.
-/
structure Function where
  name : String
  offset : Nat
  isAsync : Bool
  decorators : List Decorator
  parameters : List Parameter
  returns : Option String
  literal : Option String
deriving Repr

/--
The head of a class definition. `parents` are the arguments that name classes.
-/
structure ClassHead where
  name : String
  offset : Nat
  decorators : List Decorator
  parents : List String
  literal : Option String
deriving Repr

/--
A name that an import statement mentions, and its name here.
-/
structure ImportedName where
  path : String
  nickname : Option String
deriving Repr

/--
A statement, as far as it declares something.
-/
inductive Statement where
  | function (f : Function)
  | classDef (head : ClassHead) (body : List Statement)
  /-- `import a.b, c as d` -/
  | imports (names : List ImportedName)
  /-- `from m import a, b as c`; `relative` if the module is found from the importing one. -/
  | importsFrom (module : String) (relative : Bool) (names : List ImportedName)
  /-- An assignment to the target; `items` are the literals of a list or tuple on the right. -/
  | assign (target : String) (isName : Bool) (type : Option String) (items : Option (List String))
  /-- An expression that is a literal, as written. -/
  | literal (raw : String)
  /-- The parts of a statement that may or may not run, as far as they belong to the module. -/
  | guarded (body : List Statement)
  | other
deriving Repr

/--
What a module holds.
-/
structure Module where
  body : List Statement
  /-- Everything the module does. -/
  term : Term
  damaged : Bool
deriving Repr

end ApiSurface.Python
