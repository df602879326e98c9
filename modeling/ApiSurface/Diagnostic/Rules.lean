import ApiSurface.Index.Basic
import ApiSurface.Text.Name

/-!
This module contains the rules that check a finished index, and the merging of findings. A finding is
identified by its rule, its text and its targets, so that checking twice reports nothing twice.
-/

namespace ApiSurface

open Text

namespace Diagnostic

/--
What identifies a finding.
-/
def key (d : Diagnostic) : String × String × Option String × Option String :=
  (d.id, d.text, d.targetType, d.targetMember)

/--
The finding as a line of text.
-/
def line (d : Diagnostic) : String :=
  s!"[{d.level.name}] {d.id}: {d.text}"

/--
The findings whose key is neither in `seen` nor that of an earlier one.
-/
def mergeFrom (seen : List (String × String × Option String × Option String)) : List Diagnostic → List Diagnostic
  | [] => []
  | d :: rest => if seen.contains d.key then mergeFrom seen rest else d :: mergeFrom (d.key :: seen) rest

/--
Merge lists of findings, keeping the first of every key.
-/
def merge (lists : List (List Diagnostic)) : List Diagnostic :=
  mergeFrom [] lists.flatten

/--
A source file was not read or parsed completely.
-/
def partialExtraction (text : String) : Diagnostic :=
  { id := "APG100", level := .warning, text := text }

/--
The toolchain has something to say.
-/
def toolchainWarning (text : String) : Diagnostic :=
  { id := "APG101", level := .warning, text := text }

end Diagnostic

namespace Index

/--
Public types without documentation.
-/
def missingDocumentation (i : Index) : List Diagnostic :=
  i.types.filterMap fun (_, t) =>
    if isBlankText (t.doc.getD "") then
      some { id := "APG001", level := .info, text := s!"Public type `{t.name}` has no documentation",
             targetType := some t.name }
    else none

/--
Entry points without operations.
-/
def emptyEntryPoints (i : Index) : List Diagnostic :=
  i.types.filterMap fun (_, t) =>
    if t.entryPoint && !t.hasCallables then
      some { id := "APG002", level := .warning,
             text := s!"Entry point `{t.name}` exposes no operations; it may be misclassified",
             targetType := some t.name }
    else none

/--
The names of the deprecated types.
-/
def deprecatedNames (i : Index) : List String :=
  (i.types.filter (·.2.deprecated)).map (·.2.name)

/--
The parameters of a member whose first deprecated type is another type than its owner.
-/
def deprecatedParameters (deprecated : List String) (owner : Option String) (m : Member) : List Diagnostic :=
  if !m.isCallable then []
  else
    m.params.filterMap fun p =>
      match (identifierTokens p.type).find? deprecated.contains with
      | none => none
      | some hit =>
        if owner == some hit then none
        else
          let name := p.name.getD "_"
          let member :=
            match owner with
            | some o => o ++ "." ++ m.name
            | none => m.name
          some { id := "APG003", level := .warning,
                 text := s!"Parameter `{name}` of `{member}` uses deprecated type `{hit}`",
                 targetType := owner, targetMember := some m.name }

/--
The findings of all rules.
-/
def findings (i : Index) : List Diagnostic :=
  let deprecated := i.deprecatedNames
  let parameters := i.namespaces.flatMap fun ns =>
    ns.types.flatMap (fun t => t.members.flatMap (deprecatedParameters deprecated (some t.name))) ++
      ns.functions.flatMap (deprecatedParameters deprecated none)
  Diagnostic.merge [i.missingDocumentation ++ i.emptyEntryPoints ++ parameters]

/--
The index with the findings of all rules added to its own.
-/
def diagnose (i : Index) : Index :=
  { i with diagnostics := Diagnostic.merge [i.diagnostics, i.findings] }

end Index

end ApiSurface
