import ApiSurface.Files.Path
import ApiSurface.Language

/-!
This module contains manifests: the files that a language's own tools build a project by.
-/

namespace ApiSurface

/--
A manifest, and where compiled classes are if that is said.
-/
structure Manifest where
  language : Language
  path : String
  classes : Option String := none
deriving DecidableEq, Repr

namespace Manifest

/--
The name of a language's manifests.
-/
def fileName : Language → String
  | .python => "pyproject.toml"
  | .go => "go.mod"
  | .java => "pom.xml"

/--
The directory of the project.
-/
def root (m : Manifest) : String :=
  (Path.parentText? m.path).getD "."

/--
What has to be built before the project can be analyzed, and how to build it.
-/
def artifact? (m : Manifest) : Option (String × String) :=
  match m.language with
  | .java =>
    some (m.classes.getD (Path.join (Path.join m.root "target") "classes"), "run \x60mvn compile\x60 in " ++ m.root)
  | _ => none

end Manifest

end ApiSurface
