import ApiSurface.Extraction.Ledger
import ApiSurface.Python.Literal
import ApiSurface.Python.Tree
import ApiSurface.Text.Name

/-!
This module contains what a Python module says about its names: which of them it exports and which of them it
imports. Statements that may or may not run count as well.
-/

namespace ApiSurface.Python

open Text

/--
The exports and imports of a module.
-/
structure Scope where
  /-- The names that the module lists as its exports. -/
  exports : Option (List String) := none
  /-- Names imported from the project itself. -/
  localImports : List String := []
  external : List Import := []
deriving Repr

namespace Scope

/--
The import of a module, unless it belongs to the project.
-/
def ofModule (localRoots : List String) (n : ImportedName) : Option Import :=
  let root := firstSegment n.path
  if root == "" || localRoots.contains root then none
  else some { «local» := n.nickname.getD root, package := root }

/--
Add names that are imported from a module.
-/
def addNames (s : Scope) (localRoots : List String) (module : String) (relative : Bool) (names : List ImportedName) :
    Scope :=
  let root := firstSegment module
  let exported (n : ImportedName) : String := n.nickname.getD n.path
  if relative || localRoots.contains root then
    { s with localImports := s.localImports ++ names.map exported }
  else
    let imports := names.map fun n => { «local» := exported n, package := root, name := some n.path }
    { s with external := s.external ++ imports }

mutual

/--
Add what a statement says.
-/
def addStatement (localRoots : List String) (s : Scope) : Statement → Scope
  | .imports names => { s with external := s.external ++ names.filterMap (ofModule localRoots) }
  | .importsFrom module relative names => s.addNames localRoots module relative names
  | .assign target _ _ (some items) =>
    if target == "__all__" then { s with exports := some (items.map literalValue) } else s
  | .guarded body => addStatements localRoots s body
  | _ => s

/--
Add what statements say, in their order.
-/
def addStatements (localRoots : List String) (s : Scope) : List Statement → Scope
  | [] => s
  | st :: rest => addStatements localRoots (addStatement localRoots s st) rest

end

/--
The scope of a module in a project with these root modules.
-/
def ofModuleBody (localRoots : List String) (body : List Statement) : Scope :=
  addStatements localRoots {} body

/--
Whether a name of the module is public.
-/
def isVisible (s : Scope) (name : String) : Bool :=
  match s.exports with
  | some names => names.contains name
  | none => !name.startsWith "_"

end Scope

end ApiSurface.Python
