import ApiSurface.Files.Tree
import ApiSurface.Process.Timeout
import ApiSurface.Toml.Reader

/-!
This module contains the settings of a run: what a file says, what variables of the environment say instead, and
what holds if neither does.
-/

namespace ApiSurface

/--
The settings.
-/
structure Config where
  /-- How long an analyzer may run, in seconds. -/
  timeout : Nat := Timeout.default
  /-- How many characters of an analyzer's output are kept. -/
  maxOutput : Nat := 10000000
  maxWorkers : Option Nat := none
  batchSize : Nat := 256
  /-- What the names of variables start with. -/
  variableStem : String := "APIGRAPH"
  /-- Where the analyzers' scripts are. -/
  analyzers : Option String := none
  /-- Where the analyzers' own programs are. -/
  host : Option String := none
  containerRuntime : Option String := none
  /-- Patterns of files that are left out. -/
  exclude : List String := []
deriving DecidableEq, Repr

/--
Why there are no settings.
-/
inductive ConfigError where
  | unreadable (reason : ReadError)
  | malformed
deriving DecidableEq, Repr

/--
The text for settings that cannot be used.
-/
def ConfigError.message : ConfigError → String
  | unreadable reason => reason.message
  | malformed => "TOML parse error"

namespace Config

/--
The value of a key, which has to be of the right kind if it is there.
-/
def setting (t : Toml) (key : String) (read : Toml → Option α) (default : α) : Option α :=
  match t.get? key with
  | none => some default
  | some v => read v

/--
A number that is not negative.
-/
def natural? : Toml → Option Nat
  | .int n => if n < 0 then none else some n.toNat
  | _ => none

/--
A list of texts.
-/
def texts? : Toml → Option (List String)
  | .arr items => items.mapM Toml.text?
  | _ => none

/--
The settings in a document. Keys that are no settings do not matter.
-/
def ofToml? (t : Toml) : Option Config := do
  let d : Config := {}
  return {
    timeout := ← setting t "timeout_secs" natural? d.timeout
    maxOutput := ← setting t "max_output_chars" natural? d.maxOutput
    maxWorkers := ← setting t "max_workers" (fun v => (natural? v).map some) none
    batchSize := ← setting t "batch_size" natural? d.batchSize
    variableStem := ← setting t "env_prefix" Toml.text? d.variableStem
    analyzers := ← setting t "analyzers_dir" (fun v => v.text?.map some) none
    host := ← setting t "host_dir" (fun v => v.text?.map some) none
    containerRuntime := ← setting t "container_runtime" (fun v => v.text?.map some) none
    exclude := ← setting t "exclude" texts? d.exclude }

/--
The settings in a text.
-/
def parse? (s : String) : Option Config :=
  (Toml.parse? s).bind ofToml?

/--
The name of the file if no other one is given.
-/
def defaultFile : String := "apigraph.toml"

/--
The settings in a file; there are none if the file is missing.
-/
def load (t : FileTree) (cwd : Path) (file : String) : Except ConfigError (Option Config) :=
  match t.locate cwd file with
  | .error _ => .ok none
  | .ok p =>
    match t.read p with
    | .error e => .error (.unreadable e)
    | .ok s =>
      match parse? s with
      | some c => .ok (some c)
      | none => .error .malformed

/--
The variable for the time an analyzer may run.
-/
def timeoutVariable : String := "APIGRAPH_PROCESS_TIMEOUT_SECS"

/--
The variable for the number of workers.
-/
def workersVariable : String := "APIGRAPH_MAX_WORKERS"

/--
The settings with what variables say. A number of workers that is not positive is not taken.
-/
def withVariables (c : Config) (valueOf? : String → Option String) : Config :=
  let c := match valueOf? timeoutVariable with
    | some s => { c with timeout := Timeout.ofText s }
    | none => c
  match (valueOf? workersVariable).bind (fun s => Decimal.unsigned? (Text.trim s)) with
  | some n => if n > 0 then { c with maxWorkers := some n } else c
  | none => c

/--
The settings for a run: of the file, if there is one, and of variables.
-/
def resolve (t : FileTree) (cwd : Path) (file : String) (valueOf? : String → Option String) :
    Except ConfigError Config := do
  let found ← load t cwd file
  return (found.getD {}).withVariables valueOf?

/--
How long an analyzer may really run, in seconds.
-/
def processTimeout (c : Config) : Nat :=
  Timeout.ofWish c.timeout

/--
How many files are handed out at once.
-/
def effectiveBatchSize (c : Config) : Nat :=
  max c.batchSize 1

/--
The number of workers, if one is set.
-/
def workers (c : Config) : Option Nat :=
  c.maxWorkers.filter (· > 0)

end Config

end ApiSurface
