import ApiSurface.Index.Basic
import ApiSurface.Java.Comment
import ApiSurface.Java.Tree

/-!
This module contains the entries that Java types get in an index. Nested types are named by the path from their
outermost type.
-/

namespace ApiSurface.Java

open Text

/--
Whether a member is visible outside its package. In an interface all members are, unless they are private.
-/
def Modifiers.isVisible (m : Modifiers) (inInterface : Bool) : Bool :=
  if inInterface then !m.isPrivate else m.isPublic || m.isProtected

/--
Whether members of a type of this sort are public by themselves.
-/
def TypeSort.isInterface (s : TypeSort) : Bool :=
  s == .interface || s == .annotationType

/--
The kind that an index has for a sort of types.
-/
def TypeSort.kind : TypeSort → TypeKind
  | .classType => .classType
  | .interface => .interface
  | .enum => .enum
  | .record => .record
  | .annotationType => .annotationType

/--
How a signature shows a parameter.
-/
def Parameter.shown (p : Parameter) : String :=
  squash p.type ++ (if p.variadic then "... " else " ") ++ p.name

/--
The entry of a parameter.
-/
def Parameter.entry (p : Parameter) : Param :=
  { name := some p.name, type := squash p.type, variadic := p.variadic }

/--
The member that a method or a constructor makes.
-/
def Callable.member (c : Callable) (name : String) (kind : MemberKind) (ret : Option String) : Member :=
  let notice := Notice.ofComment c.comment
  { name := name
    kind := kind
    sig := ", ".intercalate (c.parameters.map Parameter.shown)
    ret := ret
    params := c.parameters.map Parameter.entry
    doc := notice.summary
    isStatic := c.modifiers.isStatic
    deprecated := c.modifiers.isDeprecated || notice.deprecated.isSome
    deprecatedMessage := notice.message }

/--
The member that a field makes.
-/
def fieldMember (m : Modifiers) (isConstant : Bool) (type : String) (comment : Option String) (name : String) :
    Member :=
  let notice := Notice.ofComment comment
  { name := name
    kind := .field
    sig := squash type
    ret := some (squash type)
    doc := notice.summary
    isStatic := m.isStatic || isConstant
    deprecated := m.isDeprecated || notice.deprecated.isSome
    deprecatedMessage := notice.message }

/--
The members that a declaration in the body of a type makes, if they are visible.
-/
def Declaration.members (typeName : String) (inInterface : Bool) : Declaration → List Member
  | .constructor c => if c.modifiers.isVisible false then [c.member typeName .constructor none] else []
  | .method name ret c =>
    if c.modifiers.isVisible inInterface then [c.member name .method (some (squash ret))] else []
  | .element name ret c => [c.member name .method (some (squash ret))]
  | .field m isConstant t names comment =>
    if m.isVisible inInterface || isConstant then names.map (fieldMember m isConstant t comment) else []
  | _ => []

/--
The members that the components of a record make: a constructor with all of them, and a property for each.
-/
def componentMembers (typeName : String) (components : List Parameter) : List Member :=
  let cs := components.filter (fun p => !p.variadic)
  let ctor : Member :=
    { name := typeName, kind := .constructor, sig := ", ".intercalate (cs.map Parameter.shown),
      params := cs.map Parameter.entry }
  ctor :: cs.map (fun p => { name := p.name, kind := .property, sig := squash p.type, ret := some (squash p.type) })

/--
What a declaration adds to the body of a type. What stands behind the constants of an enumeration is in its body like
the constants.
-/
def Declaration.items : Declaration → List Declaration
  | .enumSection ds => ds
  | d => [d]

/--
The value that a constant of an enumeration stands for.
-/
def Declaration.value? : Declaration → Option String
  | .constant name _ => some name
  | _ => none

/--
The entry of a type under a name.
-/
def TypeHead.entry (h : TypeHead) (name : String) (body : List Declaration) : TypeEntry :=
  let notice := Notice.ofComment h.comment
  let own := if h.sort == .record then componentMembers h.name h.components else []
  { name := name
    kind := h.sort.kind
    base := h.superclass.map squash
    interfaces := h.interfaces.map squash
    doc := notice.summary
    deprecated := h.modifiers.isDeprecated || notice.deprecated.isSome
    deprecatedMessage := notice.message
    members := own ++ (body.flatMap Declaration.items).flatMap (Declaration.members h.name h.sort.isInterface)
    values := body.filterMap Declaration.value? }

/--
The path of a type's name in its outer type.
-/
def nestedName (outer : Option String) (simple : String) : String :=
  match outer with
  | some o => o ++ "." ++ simple
  | none => simple

/--
Whether a type is visible: at the top of a file it has to be public, inside another type it is like a member.
-/
def TypeHead.isVisible (h : TypeHead) (outer : Option String) (inInterface : Bool) : Bool :=
  match outer with
  | none => h.modifiers.isPublic
  | some _ => h.modifiers.isVisible inInterface

mutual

/--
The entries, with their offsets, of a type and the types in its body. Types in something invisible have none.
-/
def Declaration.entries (outer : Option String) (inInterface : Bool) : Declaration → List (TypeEntry × Nat)
  | .type h body =>
    if h.isVisible outer inInterface then
      let name := nestedName outer h.name
      (h.entry name body, h.offset) :: bodyEntries name h.sort.isInterface body
    else []
  | _ => []

/--
The entries of declarations, one after the other.
-/
def entriesOf (outer : Option String) (inInterface : Bool) : List Declaration → List (TypeEntry × Nat)
  | [] => []
  | d :: rest => d.entries outer inInterface ++ entriesOf outer inInterface rest

/--
The entries of what is in the body of a type.
-/
def bodyEntries (outer : String) (inInterface : Bool) : List Declaration → List (TypeEntry × Nat)
  | [] => []
  | .enumSection ds :: rest => entriesOf (some outer) inInterface ds ++ bodyEntries outer inInterface rest
  | d :: rest => d.entries (some outer) inInterface ++ bodyEntries outer inInterface rest

end

end ApiSurface.Java
