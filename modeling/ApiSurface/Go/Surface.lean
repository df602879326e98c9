import ApiSurface.Extraction.Ledger
import ApiSurface.Go.Tree
import ApiSurface.Text.Cut
import ApiSurface.Text.Summary
import ApiSurface.Text.UpperCase

/-!
This module contains the entries that Go types and functions get in an index.
-/

namespace ApiSurface.Go

open Text

/--
How long a summary of a comment may be.
-/
def docLimit : Nat := 120

/--
The word that opens a notice of deprecation.
-/
def deprecationMark : String := "Deprecated:"

/--
Names that begin with a capital are public.
-/
def isExported (name : String) : Bool :=
  name.toList.head?.any isUpperCase

/--
The name of a type without pointers and type arguments.
-/
def typeBase (s : String) : String :=
  let s := trimStartWhile (· == '*') (trim s)
  trim (firstPart '[' s)

/--
What the comment above a declaration says: a summary and a notice of deprecation.
-/
structure Notice where
  summary : Option String
  deprecated : Option String

/--
Read the comment lines above a declaration. Block comments are no documentation.
-/
def Notice.ofLines (lines : List String) : Notice :=
  let lines := lines.filter (fun l => !l.startsWith "/*")
  let mark := lines.dropWhile (fun l => !l.startsWith deprecationMark)
  { summary := Text.summary ("\n".intercalate lines) docLimit
    deprecated :=
      if mark.isEmpty then none
      else some (" ".intercalate ((mark.takeWhile (· != "")).map (fun l => trim (dropStarts deprecationMark l)))) }

/--
The deprecation message, if it says anything.
-/
def Notice.message (n : Notice) : Option String :=
  n.deprecated.filter (· != "")

/--
A member with what its comment says.
-/
def Notice.onMember (n : Notice) (m : Member) : Member :=
  { m with doc := n.summary, deprecated := n.deprecated.isSome, deprecatedMessage := n.message }

/--
A type with what its comment says.
-/
def Notice.onType (n : Notice) (t : TypeEntry) : TypeEntry :=
  { t with doc := n.summary, deprecated := n.deprecated.isSome, deprecatedMessage := n.message }

namespace ParameterGroup

/--
How a signature shows the type of parameters.
-/
def shownType (p : ParameterGroup) : String :=
  if p.variadic then "..." ++ p.type else p.type

/--
How a signature shows parameters.
-/
def shown (p : ParameterGroup) : List String :=
  if p.names.isEmpty then [p.shownType] else p.names.map (fun n => n ++ " " ++ p.shownType)

/--
The entries of parameters.
-/
def params (p : ParameterGroup) : List Param :=
  if p.names.isEmpty then [{ type := p.type, variadic := p.variadic }]
  else p.names.map (fun n => { name := some n, type := p.type, variadic := p.variadic })

/--
The entries of results.
-/
def outcomes (p : ParameterGroup) : List Outcome :=
  if p.names.isEmpty then [{ type := p.type }] else p.names.map (fun n => { name := some n, type := p.type })

end ParameterGroup

/--
The return type that results make: several are listed in parentheses.
-/
def returnType : List Outcome → Option String
  | [] => none
  | [o] => some o.type
  | os => some ("(" ++ ", ".intercalate (os.map (·.type)) ++ ")")

/--
The member that a signature makes.
-/
def Signature.member (s : Signature) (name : String) : Member :=
  let results := s.results.flatMap ParameterGroup.outcomes
  { name := name
    kind := .method
    sig := ", ".intercalate (s.parameters.flatMap ParameterGroup.shown)
    ret := returnType results
    params := s.parameters.flatMap ParameterGroup.params
    results := results }

/--
The members that a field makes: one for every public name.
-/
def Field.members (f : Field) : List Member :=
  let type := squash f.type
  (f.names.filter isExported).map fun n =>
    (Notice.ofLines f.comments).onMember { name := n, kind := .field, sig := type, ret := some type }

/--
The type that an embedded field adds to the surface.
-/
def Field.embedded? (f : Field) : Option String :=
  let base := typeBase (squash f.type)
  if f.names.isEmpty && isExported (lastPart '.' base) then some base else none

/--
The method that an element of an interface declares, if it is public.
-/
def Element.member? : Element → Option Member
  | .method n s comments => if isExported n then some ((Notice.ofLines comments).onMember (s.member n)) else none
  | .types _ => none

/--
The types that an element of an interface embeds.
-/
def Element.embedded : Element → List String
  | .method _ _ _ => []
  | .types texts => texts.filter (fun t => !t.startsWith "~")

/--
The entry of a type, without its comment.
-/
def TypeSpec.bareEntry (s : TypeSpec) : TypeEntry :=
  if s.isAlias then { name := s.name, kind := .aliasType, aliasOf := some (squash s.text) }
  else
    match s.body with
    | .struct fields =>
      { name := s.name, kind := .struct, interfaces := fields.filterMap Field.embedded?,
        members := fields.flatMap Field.members }
    | .interface elements =>
      { name := s.name, kind := .interface, interfaces := elements.flatMap Element.embedded,
        members := elements.filterMap Element.member? }
    | .function signature => { name := s.name, kind := .delegate, members := [signature.member "Invoke"] }
    | .other => { name := s.name, kind := .aliasType, aliasOf := some (squash s.text) }

/--
The entry of a type, if it is public.
-/
def TypeSpec.entry? (s : TypeSpec) : Option TypeEntry :=
  if isExported s.name then some ((Notice.ofLines s.comments).onType s.bareEntry) else none

/--
The entry of a function.
-/
def Function.member (f : Function) : Member :=
  (Notice.ofLines f.comments).onMember (f.signature.member f.name)

/--
The constants of a declaration that are values of a type. A line without type and value repeats the one before
it, one with a value alone has no type.
-/
def typedConstants : Option String → List ConstSpec → List (String × String × Nat)
  | _, [] => []
  | current, s :: rest =>
    let current := match s.type, s.hasValue with
      | some t, _ => some (squash t)
      | none, true => none
      | none, false => current
    let own := match current with
      | some t => (s.names.filter (fun n => isExported n.1)).map (fun (n, offset) => (t, n, offset))
      | none => []
    own ++ typedConstants current rest

/--
An import, if it is of a package outside the module and brings a name into scope.
-/
def ImportSpec.import? (module : String) (s : ImportSpec) : Option Import :=
  if s.path == module || s.path.startsWith (module ++ "/") then none
  else
    match s.name with
    | some "_" => none
    | some "." => none
    | some n => some { «local» := n, package := s.path }
    | none => some { «local» := lastPart '/' s.path, package := s.path }

end ApiSurface.Go
