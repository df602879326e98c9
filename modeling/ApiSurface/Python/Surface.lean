import ApiSurface.Python.Conventions
import ApiSurface.Python.Literal
import ApiSurface.Python.Overload
import ApiSurface.Python.Tree
import ApiSurface.Text.Blank

/-!
This module contains the entries that Python classes and functions get in an index.
-/

namespace ApiSurface.Python

open Text

/--
The unqualified name of a decorator.
-/
def Decorator.bare (d : Decorator) : String :=
  bareName d.name

/--
Names with two underscores at both ends.
-/
def isSpecialName (name : String) : Bool :=
  name.utf8ByteSize > 4 && name.startsWith "__" && name.endsWith "__"

/--
Whether a member of a class is public.
-/
def isPublicMember (name : String) : Bool :=
  !name.startsWith "_" || isSpecialName name

namespace Parameter

/--
The type of a parameter, if it is declared.
-/
def typeText (p : Parameter) : String :=
  (p.type.map squash).getD ""

/--
How a signature shows a parameter.
-/
def shown (p : Parameter) : String :=
  p.arity.stars ++ p.name
    ++ (if p.typeText == "" then "" else ": " ++ p.typeText)
    ++ (if p.optional then " = ..." else "")

/--
The entry of a parameter.
-/
def entry (p : Parameter) : Param :=
  { name := some p.name, type := p.typeText, variadic := p.arity != .one, optional := p.optional }

end Parameter

namespace Function

/--
Whether the function only changes or deletes a property.
-/
def isAccessor (f : Function) : Bool :=
  f.decorators.any (fun d => d.name.endsWith ".setter" || d.name.endsWith ".deleter")

/--
Whether a decorator of this name is on the function.
-/
def hasDecorator (f : Function) (names : List String) : Bool :=
  f.decorators.any (fun d => names.contains d.bare)

/--
Whether the function is one signature of several.
-/
def isOverload (f : Function) : Bool :=
  f.hasDecorator ["overload"]

/--
The kind of member a function is.
-/
def memberKind (f : Function) (inClass : Bool) : MemberKind :=
  if !inClass then .method
  else if f.hasDecorator ["property", "cached_property"] then .property
  else if f.name == "__init__" || f.name == "__new__" then .constructor
  else if indexerMethods.contains f.name then .indexer
  else if operatorMethods.contains f.name then .operator
  else .method

/--
The parameters that a caller sees: without the object or the class that a method gets by itself.
-/
def callerParameters (f : Function) (inClass : Bool) : List Parameter :=
  if inClass && !f.hasDecorator ["staticmethod"] then f.parameters.drop 1 else f.parameters

/--
The entry of a function.
-/
def member (f : Function) (inClass : Bool) : Member :=
  let kind := f.memberKind inClass
  let params := f.callerParameters inClass
  let ret := f.returns.map squash
  let deprecation := (f.decorators.filter (fun d => d.bare == "deprecated")).getLast?
  { name := f.name
    kind := kind
    sig := if kind == .property then ret.getD "" else ", ".intercalate (params.map Parameter.shown)
    ret := ret
    params := if kind == .property then [] else params.map Parameter.entry
    doc := documentation f.literal
    isStatic := f.hasDecorator ["staticmethod", "classmethod"]
    isAsync := f.isAsync
    deprecated := deprecation.isSome
    deprecatedMessage := deprecation.bind (fun d => d.message.map literalValue) }

/--
Add the function to the callables of its scope.
-/
def addTo (c : Callables) (f : Function) (inClass : Bool) : Callables :=
  if f.isAccessor then c
  else if f.isOverload then c.pushOverload f.offset (f.member inClass)
  else c.pushImplementation f.offset (f.member inClass)

end Function

namespace ClassHead

/--
The parents of a class, without the root of all classes.
-/
def parentTexts (h : ClassHead) : List String :=
  (h.parents.map squash).filter (· != "object")

/--
The kind of type a class is.
-/
def typeKind (h : ClassHead) : TypeKind :=
  let bases := h.parentTexts.map bareName
  if bases.any enumBases.contains then .enum
  else if bases.contains "Protocol" then .interface
  else if bases.any recordBases.contains || h.decorators.any (fun d => d.bare == "dataclass") then .record
  else .classType

end ClassHead

/--
What is found in the body of a class: its values if it is an enumeration, and its members.
-/
structure ClassBody where
  values : List String := []
  members : Callables := {}

/--
Add what a statement in the body of a class declares.
-/
def ClassBody.add (kind : TypeKind) (b : ClassBody) : Statement → ClassBody
  | .function f => if isPublicMember f.name then { b with members := f.addTo b.members true } else b
  | .assign target true type _ =>
    if target.startsWith "_" then b
    else if kind == .enum then { b with values := b.values ++ [target] }
    else
      match type with
      | none => b
      | some t =>
        let t := squash t
        { b with members := b.members.pushPlain { name := target, kind := .field, sig := t, ret := some t } }
  | _ => b

/--
The entry of a class.
-/
def classEntry (h : ClassHead) (body : List Statement) : TypeEntry :=
  let kind := h.typeKind
  let b := body.foldl (ClassBody.add kind) {}
  let deprecation := h.decorators.find? (fun d => d.bare == "deprecated")
  { name := h.name
    kind := kind
    base := h.parentTexts.head?
    interfaces := h.parentTexts.drop 1
    doc := documentation h.literal
    deprecated := deprecation.isSome
    deprecatedMessage := deprecation.bind (fun d => d.message.map literalValue)
    members := b.members.finish.map (·.2)
    values := b.values }

end ApiSurface.Python
