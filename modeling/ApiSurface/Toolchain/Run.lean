import ApiSurface.Extraction.Run
import ApiSurface.Index.Json
import ApiSurface.Toolchain.Cache
import ApiSurface.Toolchain.Manifest

/-!
This module contains the running of a language's analyzer on a project. The analyzer writes an index; output that
is cut off, or that comes with a failure, is never taken for one.
-/

namespace ApiSurface

/--
What runs of analyzers and extractions share.
-/
structure Workbench where
  config : Config
  sandbox : Sandbox
  resolver : Resolver
  cancelled : Bool := false
  /-- The orders in which the workers happen to extract. -/
  orders : Orders := .inTurn

namespace Workbench

/--
The workbench that settings ask for on a machine.
-/
def ofConfig (c : Config) (m : Machine) : Workbench :=
  { config := c
    sandbox := Sandbox.of (c.processTimeout * 1000) c.maxOutput
    resolver := Resolver.ofConfig c m }

/--
Search for the analyzer of a language.
-/
def search (w : Workbench) (m : Machine) (l : Language) : Resolution :=
  w.resolver.resolve m (Toolchain.of l)

/--
The directory of the analyzers' scripts.
-/
def analyzers (w : Workbench) : String :=
  w.config.analyzers.getD (Path.join (w.resolver.host.getD ".") "analyzers")

/--
What an analyzer is told.
-/
def analyzerArguments (root : String) (artifact : Option String) : List String :=
  [root, "--json"] ++ match artifact with
    | some a => ["--classes", a]
    | none => []

/--
How a directory is shown to a container.
-/
def mount (directory inside : String) : String :=
  directory ++ ":" ++ inside ++ ":ro"

/--
Where the project is in a container.
-/
def containerRoot : String := "/workspace"

/--
Where compiled classes are in a container if they are not in the project.
-/
def containerClasses : String := "/classes"

/--
The path of an artifact relative to the project, if it lies there.
-/
def insideRoot? (root : Path) (artifact : String) : Option String :=
  if Path.isAbsolute artifact then (Path.within? root (Path.names artifact)).map Path.relativeText else none

/--
What a container runtime is told. The project can only be read, and nothing else can be reached.
-/
def containerArguments (root : Path) (artifact : Option String) (image : String) : List String :=
  let (mounts, classes) := match artifact with
    | none => ([], none)
    | some a =>
      match insideRoot? root a with
      | some relative => ([], some (Path.join containerRoot relative))
      | none => (["-v", mount a containerClasses], some containerClasses)
  ["run", "--rm", "--network=none", "-v", mount root.text containerRoot] ++ mounts ++ [image] ++
    analyzerArguments containerRoot classes

/--
How much of an analyzer's complaints is shown.
-/
def complaintLength : Nat := 2000

/--
The start of a text without the blanks around it.
-/
def head (s : String) (max : Nat) : String :=
  let cs := Text.trimChars s.toList
  if cs.length ≤ max then String.ofList cs else String.ofList (cs.take max) ++ "..."

/--
The artifact that a project needs, if it needs one.
-/
def requireArtifact (m : Machine) (manifest : Manifest) : Except Failure (Option String) :=
  match manifest.artifact? with
  | none => .ok none
  | some (path, remedy) => if m.has path then .ok (some path) else .error (.artifactMissing path remedy)

/--
How the analyzer is run that was found.
-/
def invocation (w : Workbench) (m : Machine) (tc : Toolchain) (root : Path) (artifact : Option String) :
    Availability → Except Failure Invocation
  | .unavailable reason => .error (.unavailable tc.language.name reason tc.hint)
  | .program path => .ok { program := path, arguments := analyzerArguments root.text artifact }
  | .interpreter path =>
    let script := Path.join w.analyzers tc.script
    if m.isFile script then
      .ok { program := path, arguments := tc.scriptArguments ++ [script] ++ analyzerArguments root.text artifact }
    else
      .error (.artifactMissing script
        ("install the " ++ tc.language.name ++
          " analyzer scripts or set \x60analyzers_dir\x60 in apigraph.toml"))
  | .container runtime image => .ok { program := runtime, arguments := containerArguments root artifact image }

/--
The index in what an analyzer wrote. Its complaints become a finding.
-/
def indexOf (w : Workbench) (tc : Toolchain) (tool : String) (warnings : List Diagnostic) (r : ProcessResult) :
    Except Failure Index :=
  if r.exit.timedOut then .error (.timeout tool (w.config.processTimeout * 1000))
  else if r.exit.cancelled then .error (.cancelled tool)
  else if r.out.truncated then
    .error (.malformedOutput
      (tool ++ " output exceeded " ++ toString w.config.maxOutput ++ " characters and was truncated"))
  else if !r.exit.success then
    .error (.extraction
      (tool ++ " exited with code " ++ toString r.exit.code ++ ": " ++ head r.err.text complaintLength))
  else
    match Index.parse r.out.text with
    | .error e => .error (.malformedOutput ("JSON error: " ++ e.message))
    | .ok index =>
      let complaints :=
        if Text.isBlankText r.err.text then []
        else [Diagnostic.toolchainWarning
          (tc.language.name ++ " reported: " ++ head r.err.text complaintLength)]
      .ok { index with diagnostics := Diagnostic.merge [index.diagnostics, warnings ++ complaints] }

/--
Analyze the project of a manifest with a way of starting programs. What was found about analyzers is dropped if the
analyzer does not start.
-/
def runWith (w : Workbench) (m : Machine) (execute : Invocation → Except LaunchError ProcessResult)
    (cache : AvailabilityCache) (manifest : Manifest) : Except Failure Index × AvailabilityCache :=
  let tc := Toolchain.of manifest.language
  match m.files.root m.directory manifest.root with
  | .error e => (.error (.invalidTarget e.message), cache)
  | .ok root =>
    match requireArtifact m manifest with
    | .error f => (.error f, cache)
    | .ok artifact =>
      let (resolved, cache) := cache.resolve (w.search m) manifest.language
      match w.invocation m tc root artifact resolved.availability with
      | .error f => (.error f, cache)
      | .ok i =>
        let i := { i with timeout := some (w.config.processTimeout * 1000), cancelled := w.cancelled }
        match execute i with
        | .error e =>
          (.error (.unavailable tc.language.name e.message tc.hint), cache.invalidate (some manifest.language))
        | .ok r => (w.indexOf tc i.program (resolved.warning.toList.map Diagnostic.toolchainWarning) r, cache)

/--
Analyze the project of a manifest under the limits of the sandbox.
-/
def run (w : Workbench) (m : Machine) (cache : AvailabilityCache) (manifest : Manifest) :
    Except Failure Index × AvailabilityCache :=
  w.runWith m (w.sandbox.execute m) cache manifest

end Workbench

end ApiSurface
