import ApiSurface.Go.Extractor
import ApiSurface.Go.Stub
import ApiSurface.Java.Extractor
import ApiSurface.Java.Stub
import ApiSurface.Python.Extractor
import ApiSurface.Python.Stub
import ApiSurface.Toolchain.Run

/-!
This module contains the two ways to the index of a package: from its sources, or by the analyzer of its language.
Every index that is found gets the same finish, and every run is reported.
-/

namespace ApiSurface

namespace Language

/--
Extract the index of the project at a path from its sources, in some orders.
-/
def extractIn (l : Language) (orders : Orders) (t : FileTree) (cwd : Path) (excludes : List String) (cancelled : Bool)
    (target : String) : Except Failure Index :=
  match l with
  | python => Python.extractor.run orders t cwd excludes cancelled target
  | go => Go.extractor.run orders t cwd excludes cancelled target
  | java => Java.extractor.run orders t cwd excludes cancelled target

/--
Extract the index of the project at a path from its sources, one file after the other.
-/
def extract (l : Language) (t : FileTree) (cwd : Path) (excludes : List String) (cancelled : Bool) (target : String) :
    Except Failure Index :=
  l.extractIn .inTurn t cwd excludes cancelled target

/--
An index in the words of the language.
-/
def stub (l : Language) (i : Index) : String :=
  match l with
  | python => Python.Stub.render i
  | go => Go.Stub.render i
  | java => Java.Stub.render i

end Language

/--
What an index is wanted of.
-/
inductive Target where
  | source (path : String)
  | manifest (m : Manifest)
deriving DecidableEq, Repr

/--
The name of the way to the index.
-/
def Target.mode : Target → String
  | source _ => "source"
  | manifest _ => "toolchain"

namespace Workbench

/--
The index of a target.
-/
def graph (w : Workbench) (m : Machine) (cache : AvailabilityCache) (l : Language) (target : Target)
    (map : Option CrossReference) : Except Failure Index × AvailabilityCache :=
  match target with
  | .source path =>
    ((l.extractIn w.orders m.files m.directory w.config.exclude w.cancelled path).map (·.finish map), cache)
  | .manifest manifest =>
    let (result, cache) := w.run m cache manifest
    (result.map (·.finish map), cache)

end Workbench

/--
The report of a run.
-/
structure RunEvent where
  language : Language
  mode : String
  types : Nat := 0
  diagnostics : Nat := 0
  outcome : String
deriving DecidableEq, Repr

/--
The report of a run that gave an index or failed.
-/
def RunEvent.of (l : Language) (target : Target) : Except Failure Index → RunEvent
  | .ok i =>
    { language := l, mode := target.mode, types := i.typeCount, diagnostics := i.diagnostics.length
      outcome := "success" }
  | .error f => { language := l, mode := target.mode, outcome := f.message }

end ApiSurface
