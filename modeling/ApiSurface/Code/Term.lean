/-!
This module contains terms: what a program text says, reduced to the constructs that show which operations
it calls on which values. All languages share them.
-/

namespace ApiSurface.Code

/--
An expression or a statement of a program.
-/
inductive Term where
  | name (text : String)
  /-- A field or a method of an object. -/
  | member (object : Term) (field : String)
  | call (line : Nat) (callee : Term) (arguments : List Term)
  /-- The construction of a value of a named type. -/
  | construct (type : String) (parts : List Term)
  /-- A form that has the value of the term in it, such as parentheses. -/
  | wrapped (idioms : List String) (inner : Term)
  /-- Names that get a declared type, a value, or both. -/
  | bind (targets : List (String × Option String × Option Term)) (parts : List Term)
  /-- Any other form; some are idioms worth reporting. -/
  | other (idioms : List String) (parts : List Term)
deriving Repr, Inhabited

namespace Term

/--
A term without anything of interest in it.
-/
def plain : Term :=
  .other [] []

/--
Some terms side by side.
-/
def group (parts : List Term) : Term :=
  .other [] parts

end Term

/--
One thing that a program does.
-/
inductive Occurrence where
  | bind (name : String) (declared : Option String) (value : Option Term)
  | call (line : Nat) (receiver : Term) (method : String)
  | idiom (name : String)
deriving Repr

namespace Term

/--
The occurrence of a call, if it is a call on an object.
-/
def callOccurrence (line : Nat) : Term → List Occurrence
  | .member object field => [.call line object field]
  | _ => []

mutual

/--
What a term does, in the order of the text: every construct in front of its parts.
-/
def occurrences : Term → List Occurrence
  | .name _ => []
  | .member object _ => object.occurrences
  | .call line callee arguments =>
    callOccurrence line callee ++ callee.occurrences ++ occurrencesOf arguments
  | .construct _ parts => occurrencesOf parts
  | .wrapped idioms inner => idioms.map .idiom ++ inner.occurrences
  | .bind targets parts =>
    targets.map (fun (n, declared, value) => .bind n declared value) ++ occurrencesOf parts
  | .other idioms parts => idioms.map .idiom ++ occurrencesOf parts

/--
What terms do, one after the other.
-/
def occurrencesOf : List Term → List Occurrence
  | [] => []
  | t :: rest => t.occurrences ++ occurrencesOf rest

end

end Term

end ApiSurface.Code
