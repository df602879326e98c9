/-!
This module contains the index of a package's public surface: namespaces with types and free functions,
types with members, and the findings attached to them.
-/

namespace ApiSurface

/--
The kinds of types an index distinguishes.
-/
inductive TypeKind where
  | classType
  | interface
  | struct
  | enum
  | record
  /-- A type of functions. -/
  | delegate
  | annotationType
  /-- A name for another type. -/
  | aliasType
deriving DecidableEq, Repr

namespace TypeKind

/--
The kind's name in every output.
-/
def name : TypeKind → String
  | classType => "class"
  | interface => "interface"
  | struct => "struct"
  | enum => "enum"
  | record => "record"
  | delegate => "delegate"
  | annotationType => "annotation"
  | aliasType => "alias"

/--
All kinds.
-/
def all : List TypeKind :=
  [classType, interface, struct, enum, record, delegate, annotationType, aliasType]

/--
The kinds from which a walk over the surface can start.
-/
def isRoot : TypeKind → Bool
  | classType | interface | struct | record => true
  | _ => false

/--
Read a kind by its name or by a word some languages have for it, in any case.
-/
def ofWord? (s : String) : Option TypeKind :=
  match s.toLower with
  | "class" => some classType
  | "interface" | "protocol" | "trait" => some interface
  | "struct" => some struct
  | "enum" => some enum
  | "record" => some record
  | "delegate" | "func" => some delegate
  | "annotation" => some annotationType
  | "alias" | "type" => some aliasType
  | _ => none

/--
The text for a word that is no kind.
-/
def unknownMessage (s : String) : String :=
  "Parse error: Unknown type kind: " ++ s

end TypeKind

/--
The kinds of members.
-/
inductive MemberKind where
  | constructor
  | method
  | property
  | field
  | event
  | indexer
  | operator
deriving DecidableEq, Repr

namespace MemberKind

/--
The kind's name in every output.
-/
def name : MemberKind → String
  | constructor => "constructor"
  | method => "method"
  | property => "property"
  | field => "field"
  | event => "event"
  | indexer => "indexer"
  | operator => "operator"

/--
All kinds.
-/
def all : List MemberKind :=
  [constructor, method, property, field, event, indexer, operator]

/--
Whether a member of this kind is something a caller invokes.
-/
def isCallable : MemberKind → Bool
  | constructor | method | indexer | operator => true
  | _ => false

/--
Whether a member of this kind only holds data.
-/
def isData (k : MemberKind) : Bool :=
  !k.isCallable

end MemberKind

/--
A parameter of a callable member.
-/
structure Param where
  name : Option String := none
  type : String := ""
  variadic : Bool := false
  optional : Bool := false
deriving DecidableEq, Repr

/--
A result of a callable member.
-/
structure Outcome where
  name : Option String := none
  type : String := ""
deriving DecidableEq, Repr

/--
A member of a type, or a free function.
-/
structure Member where
  name : String
  id : Option String := none
  kind : MemberKind
  /-- The parameter list as the language writes it. -/
  sig : String := ""
  ret : Option String := none
  params : List Param := []
  results : List Outcome := []
  doc : Option String := none
  isStatic : Bool := false
  isAsync : Bool := false
  deprecated : Bool := false
  deprecatedMessage : Option String := none
  crossLanguageId : Option String := none
deriving DecidableEq, Repr

namespace Member

/--
The texts of the types a member mentions: parameters, results, return type.
-/
def typeTexts (m : Member) : List String :=
  m.params.map (·.type) ++ m.results.map (·.type) ++ m.ret.toList

/--
Whether the member is something a caller invokes.
-/
def isCallable (m : Member) : Bool :=
  m.kind.isCallable

end Member

/--
A type of the surface. A nested type is named by the dotted path from its outermost type.
-/
structure TypeEntry where
  name : String
  id : Option String := none
  kind : TypeKind
  base : Option String := none
  interfaces : List String := []
  aliasOf : Option String := none
  doc : Option String := none
  entryPoint : Bool := false
  deprecated : Bool := false
  deprecatedMessage : Option String := none
  isError : Bool := false
  reExportedFrom : Option String := none
  crossLanguageId : Option String := none
  members : List Member := []
  values : List String := []
deriving DecidableEq, Repr

namespace TypeEntry

/--
The members a caller invokes.
-/
def callables (t : TypeEntry) : List Member :=
  t.members.filter (·.isCallable)

/--
Whether the type has operations.
-/
def hasCallables (t : TypeEntry) : Bool :=
  t.members.any (·.isCallable)

/--
An entry point with operations.
-/
def isClient (t : TypeEntry) : Bool :=
  t.entryPoint && t.hasCallables

/--
A type that holds data and has no operations.
-/
def isModel (t : TypeEntry) : Bool :=
  !t.hasCallables && t.members.any (·.kind.isData)

/--
The parent expressions: base first, then interfaces.
-/
def parents (t : TypeEntry) : List String :=
  t.base.toList ++ t.interfaces

end TypeEntry

/--
A namespace with its types and free functions.
-/
structure Namespace where
  name : String
  types : List TypeEntry := []
  functions : List Member := []
deriving DecidableEq, Repr

/--
A namespace without types and functions.
-/
def Namespace.isEmpty (ns : Namespace) : Bool :=
  ns.types.isEmpty && ns.functions.isEmpty

/--
A package outside the tree that the surface mentions.
-/
structure Dependency where
  package : String
  isStdlib : Bool := false
  types : List String := []
deriving DecidableEq, Repr

/--
How grave a finding is.
-/
inductive Severity where
  | info
  | warning
  | error
deriving DecidableEq, Repr

/--
The severity's name in every output.
-/
def Severity.name : Severity → String
  | info => "info"
  | warning => "warning"
  | error => "error"

/--
A finding about an index.
-/
structure Diagnostic where
  id : String
  text : String
  level : Severity
  targetType : Option String := none
  targetMember : Option String := none
deriving DecidableEq, Repr

/--
The public surface of a package.
-/
structure Index where
  package : String
  version : Option String := none
  crossLanguagePackageId : Option String := none
  namespaces : List Namespace := []
  dependencies : List Dependency := []
  diagnostics : List Diagnostic := []
deriving DecidableEq, Repr

namespace Index

/--
Every type with the name of its namespace, in order.
-/
def types (i : Index) : List (String × TypeEntry) :=
  i.namespaces.flatMap (fun ns => ns.types.map (fun t => (ns.name, t)))

/--
How many types the index has.
-/
def typeCount (i : Index) : Nat :=
  i.namespaces.foldl (fun n ns => n + ns.types.length) 0

/--
The first type of this name.
-/
def findType? (i : Index) (name : String) : Option TypeEntry :=
  (i.types.map (·.2)).find? (fun t => t.name == name)

/--
An index whose namespaces are all empty.
-/
def isEmpty (i : Index) : Bool :=
  i.namespaces.all (·.isEmpty)

end Index

end ApiSurface
