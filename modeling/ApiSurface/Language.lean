/-!
This module contains the languages whose packages can be analyzed.
-/

namespace ApiSurface

/--
A language.
-/
inductive Language where
  | python
  | go
  | java
deriving DecidableEq, Repr

namespace Language

/--
The language's name in every output.
-/
def name : Language → String
  | python => "python"
  | go => "go"
  | java => "java"

/--
All languages.
-/
def all : List Language :=
  [python, go, java]

/--
The extensions of the language's source files.
-/
def extensions : Language → List String
  | python => ["py"]
  | go => ["go"]
  | java => ["java"]

/--
Read a language by its name or by a common word for it, in any case.
-/
def ofWord? (s : String) : Option Language :=
  match s.toLower with
  | "python" | "py" => some python
  | "go" | "golang" => some go
  | "java" | "jvm" => some java
  | _ => none

/--
The text for a word that is no language.
-/
def unknownMessage (s : String) : String :=
  "Unknown language: " ++ s

end Language

end ApiSurface
