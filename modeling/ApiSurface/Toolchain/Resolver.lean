import ApiSurface.Config
import ApiSurface.Process.Sandbox
import ApiSurface.Toolchain.Basic

/-!
This module contains the search for an analyzer on a machine. The order is strict: the analyzer's own program, an
interpreter for its script, a container runtime with its image. That a file exists is never enough, each
possibility has to answer when it is started.
-/

namespace ApiSurface

/--
How an analyzer can be run.
-/
inductive Availability where
  /-- As a program of its own. -/
  | program (path : String)
  /-- By an interpreter. -/
  | interpreter (path : String)
  /-- In a container. -/
  | container (runtime image : String)
  | unavailable (reason : String)
deriving DecidableEq, Repr

namespace Availability

/--
Whether there is a way at all.
-/
def isAvailable : Availability → Bool
  | unavailable _ => false
  | _ => true

/--
The name of the way.
-/
def mode : Availability → String
  | program _ => "native"
  | interpreter _ => "runtime"
  | container _ _ => "docker"
  | unavailable _ => "unavailable"

/--
The way in words.
-/
def text : Availability → String
  | program path => "native binary " ++ path
  | interpreter path => "runtime interpreter " ++ path
  | container runtime image => runtime ++ " image " ++ image
  | unavailable reason => "unavailable: " ++ reason

end Availability

/--
What a search gives: a way, and a warning if a setting was not followed.
-/
structure Resolution where
  availability : Availability
  warning : Option String := none
deriving DecidableEq, Repr

/--
How to search.
-/
structure Resolver where
  /-- What the names of variables start with. -/
  variableStem : String := "APIGRAPH"
  /-- Where the analyzers' own programs are. -/
  host : Option String := none
  /-- The container runtimes, best first. -/
  runtimes : List String := ["docker", "podman"]
  /-- How long a possibility may take to answer, in milliseconds. -/
  checkTime : Nat := 15000
  sandbox : Sandbox

namespace Resolver

/--
The search that settings ask for on a machine.
-/
def ofConfig (c : Config) (m : Machine) : Resolver :=
  { variableStem := c.variableStem
    host := c.host.orElse (fun _ => m.home)
    runtimes := match c.containerRuntime with
      | some r => [r]
      | none => ["docker", "podman"]
    sandbox := Sandbox.of (c.processTimeout * 1000) c.maxOutput }

/--
Whether a program, once started, ends with one of some codes.
-/
def responds (r : Resolver) (m : Machine) (program : String) (arguments : List String) (accepted : List Int) : Bool :=
  match r.sandbox.execute m { program := program, arguments := arguments, timeout := some r.checkTime } with
  | .ok result => !result.exit.timedOut && !result.exit.cancelled && accepted.contains result.exit.code
  | .error _ => false

/--
The analyzer's own program, or why it cannot be used. It may answer a question for help with a failure.
-/
def findProgram (r : Resolver) (m : Machine) (tc : Toolchain) : Except String String :=
  match r.host with
  | none => .error "native binary (host directory unknown)"
  | some dir =>
    let path := Path.join dir tc.program
    if !m.isFile path then .error ("native binary " ++ path ++ " (missing)")
    else if r.responds m path ["--help"] [0, 1] then .ok path
    else .error ("native binary " ++ path ++ " (failed --help)")

/--
The interpreter that a variable names, or the warning if it cannot be used.
-/
def checkVariable (r : Resolver) (m : Machine) (tc : Toolchain) (name value : String) : Except String String :=
  match checkExecutable value with
  | .error e => .error ("Ignoring " ++ name ++ ": " ++ e.message)
  | .ok () =>
    if r.responds m value tc.versionArguments [0] then .ok value
    else .error ("Ignoring " ++ name ++ ": " ++ value ++ " did not pass the version check")

/--
The path of an interpreter, or why it cannot be used.
-/
def checkInterpreter (r : Resolver) (m : Machine) (tc : Toolchain) (name : String) : Except String String :=
  match m.which? name with
  | none => .error (name ++ " (not on PATH)")
  | some path =>
    if r.responds m path tc.versionArguments [0] then .ok path else .error (path ++ " (failed version check)")

/--
The path of a container runtime, or why it cannot be used.
-/
def checkRuntime (r : Resolver) (m : Machine) (tc : Toolchain) (name : String) : Except String String :=
  match m.which? name with
  | none => .error (name ++ " (not on PATH)")
  | some path =>
    if r.responds m path ["image", "inspect", tc.image] [0] then .ok path
    else .error (name ++ " image " ++ tc.image ++ " (not present)")

/--
The first name that passes a check, or what each of them failed by.
-/
def firstOf (check : String → Except String String) : List String → Except (List String) String
  | [] => .error []
  | name :: rest =>
    match check name with
    | .ok path => .ok path
    | .error e =>
      match firstOf check rest with
      | .ok path => .ok path
      | .error es => .error (e :: es)

/--
The text for an analyzer that is not found, with all that was tried.
-/
def notFound (tc : Toolchain) (tried : List String) : String :=
  "No " ++ tc.language.name ++ " analyzer toolchain found. Tried: " ++ "; ".intercalate tried ++ ". " ++ tc.hint

/--
Search among interpreters and container runtimes, after some possibilities were tried.
-/
def resolveFurther (r : Resolver) (m : Machine) (tc : Toolchain) (tried : List String) (warning : Option String) :
    Resolution :=
  match firstOf (r.checkInterpreter m tc) tc.interpreters with
  | .ok path => { availability := .interpreter path, warning := warning }
  | .error interpreters =>
    match firstOf (r.checkRuntime m tc) r.runtimes with
    | .ok path => { availability := .container path tc.image, warning := warning }
    | .error runtimes =>
      { availability := .unavailable (notFound tc (tried ++ interpreters ++ runtimes)), warning := warning }

/--
Search for an analyzer.
-/
def resolve (r : Resolver) (m : Machine) (tc : Toolchain) : Resolution :=
  match r.findProgram m tc with
  | .ok path => { availability := .program path }
  | .error e =>
    let name := tc.variableName r.variableStem
    match m.value? name with
    | none => r.resolveFurther m tc [e] none
    | some value =>
      match r.checkVariable m tc name value with
      | .ok path => { availability := .interpreter path }
      | .error warning => r.resolveFurther m tc [e, "$" ++ name ++ " (" ++ value ++ ")"] (some warning)

end Resolver

end ApiSurface
