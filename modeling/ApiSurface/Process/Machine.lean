import ApiSurface.Files.Tree

/-!
This module contains machines: what a run sees of the system it runs on. These are files, variables, and programs
that can be started. What a program does once it is started is known as a whole, with times; how much of it
happens is for those to decide who may stop it.
-/

namespace ApiSurface

/--
What a program is started with.
-/
structure Launch where
  program : String
  arguments : List String := []
  directory : Path := []
  environment : List (String × String) := []
  input : List UInt8 := []

/--
The streams that a program writes to.
-/
inductive Stream where
  | out
  | err
deriving DecidableEq, Repr

/--
A piece of output. Times are in milliseconds from the start.
-/
structure Output where
  time : Nat
  stream : Stream
  bytes : List UInt8
deriving DecidableEq, Repr

/--
How a program ends.
-/
inductive Ending where
  | exit (code : Nat)
  | signal
deriving DecidableEq, Repr

/--
What a program does if it is left alone.
-/
structure Activity where
  /-- The output, in the order of time. -/
  outputs : List Output := []
  /-- When and how the program ends, if it does. -/
  ending : Option (Nat × Ending) := some (0, .exit 0)
  /-- When the last program that was started by it ends, if all do. -/
  closed : Option Nat := some 0
deriving DecidableEq, Repr

namespace Activity

/--
What is written to a stream before some time, if there is one.
-/
def written (a : Activity) (stream : Stream) (until? : Option Nat) : List (List UInt8) :=
  (a.outputs.filter fun o => o.stream == stream && until?.all (o.time < ·)).map (·.bytes)

end Activity

/--
A machine.
-/
structure Machine where
  files : FileTree := {}
  /-- The directory that relative paths start from. -/
  directory : Path := []
  environment : List (String × String) := []
  /-- The directory of the program that is running, if it is known. -/
  home : Option String := none
  /-- What happens when a program is started while the files are these. -/
  start : FileTree → Launch → Except OsError Activity

namespace Machine

/--
The value of a variable.
-/
def value? (m : Machine) (name : String) : Option String :=
  m.environment.lookup name

/--
The directories in which programs are looked for.
-/
def searchPath (m : Machine) : List String :=
  (Text.splitBy (· == ':') ((m.value? "PATH").getD "")).filter (· != "")

/--
Whether a path leads to a file that may be executed.
-/
def isExecutable (m : Machine) (path : String) : Bool :=
  match m.files.locate m.directory path with
  | .ok p => (m.files.file? p).any (·.executable)
  | .error _ => false

/--
Whether a path leads to a file.
-/
def isFile (m : Machine) (path : String) : Bool :=
  match m.files.locate m.directory path with
  | .ok p => m.files.isFile p
  | .error _ => false

/--
Whether a path leads anywhere.
-/
def has (m : Machine) (path : String) : Bool :=
  (m.files.locate m.directory path).isOk

/--
The path of a program: a name with a slash is a path itself, any other one is looked for.
-/
def which? (m : Machine) (name : String) : Option String :=
  if name == "" then none
  else if Text.contains name "/" then
    let path := if Path.isAbsolute name then name else Path.join m.directory.text name
    if m.isExecutable path then some path else none
  else (m.searchPath.map (fun dir => Path.join dir name)).find? m.isExecutable

end Machine

end ApiSurface
