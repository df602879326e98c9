import ApiSurface.Language

/-!
This module contains how the analyzer of each language is found: as a program of its own, as a script for an
interpreter, or as an image for a container runtime.
-/

namespace ApiSurface

/--
Where to look for the analyzer of a language.
-/
structure Toolchain where
  language : Language
  /-- The analyzer as a program of its own. -/
  program : String
  /-- The tool that a variable can give another path for. -/
  tool : String
  /-- The interpreters, best first. -/
  interpreters : List String
  /-- What an interpreter has to answer with success. -/
  versionArguments : List String
  /-- What stands between an interpreter and the script. -/
  scriptArguments : List String := []
  /-- The analyzer as a script. -/
  script : String
  /-- The analyzer as an image. -/
  image : String
  /-- What to do if nothing is found. -/
  hint : String
deriving DecidableEq, Repr

namespace Toolchain

/--
The toolchain of a language.
-/
def of : Language → Toolchain
  | .python =>
    { language := .python
      program := "apigraph-python-analyzer"
      tool := "PYTHON"
      interpreters := ["python3", "python"]
      versionArguments := ["--version"]
      script := "extract_api.py"
      image := "apigraph/python-analyzer:latest"
      hint := "Install Python 3.9+ (https://www.python.org/downloads/) or set APIGRAPH_PYTHON_PATH" }
  | .go =>
    { language := .go
      program := "apigraph-go-analyzer"
      tool := "GO"
      interpreters := ["go"]
      versionArguments := ["version"]
      scriptArguments := ["run"]
      script := "extract_api.go"
      image := "apigraph/go-analyzer:latest"
      hint := "Install Go 1.21+ (https://go.dev/dl/) or set APIGRAPH_GO_PATH" }
  | .java =>
    { language := .java
      program := "apigraph-java-analyzer"
      tool := "JBANG"
      interpreters := ["jbang"]
      versionArguments := ["--version"]
      script := "ExtractApi.java"
      image := "apigraph/java-analyzer:latest"
      hint := "Install JBang (https://www.jbang.dev/download/) or set APIGRAPH_JBANG_PATH" }

/--
The variable that gives another path for the tool.
-/
def variableName (tc : Toolchain) (stem : String) : String :=
  stem ++ "_" ++ tc.tool ++ "_PATH"

end Toolchain

end ApiSurface
