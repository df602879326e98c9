import ApiSurface.Files.Root
import ApiSurface.Process.BoundedReader
import ApiSurface.Process.Capture
import ApiSurface.Process.Executable
import ApiSurface.Process.Machine
import ApiSurface.Process.Timeout

/-!
This module contains the running of external programs under limits: the name is checked before anything is
started, the time is bounded, the caller may cancel, and only so much output is kept. Programs that outlive the
one that started them are stopped with it.
-/

namespace ApiSurface

/--
A wish to run a program.
-/
structure Invocation where
  program : String
  arguments : List String := []
  /-- The directory to run in, if it is not that of the caller. -/
  directory : Option String := none
  /-- How long the program may run, in milliseconds. -/
  timeout : Option Nat := none
  input : Option (List UInt8) := none
  /-- Variables beside those of the caller. -/
  environment : List (String × String) := []
  cancelled : Bool := false

/--
The program and its arguments as one line.
-/
def Invocation.line (i : Invocation) : String :=
  " ".intercalate (i.program :: i.arguments)

/--
Why a program was not started.
-/
inductive LaunchError where
  | executable (reason : ExecutableError)
  | directory (reason : PathError)
  /-- An argument or a variable holds the character that ends texts for the system. -/
  | nul (program : String)
  | refused (program : String) (reason : OsError)
deriving DecidableEq, Repr

/--
The text for a program that was not started.
-/
def LaunchError.message : LaunchError → String
  | executable reason => reason.message
  | directory reason => reason.message
  | nul program => "Failed to spawn " ++ program ++ ": nul byte found in provided data"
  | refused program reason => "Failed to spawn " ++ program ++ ": " ++ reason.message

/--
How a program ended.
-/
structure ProcessExit where
  /-- The program's own code, or -1 if it was stopped. -/
  code : Int
  timedOut : Bool := false
  cancelled : Bool := false
deriving DecidableEq, Repr

namespace ProcessExit

/--
Whether the program ended by itself and reported success.
-/
def success (e : ProcessExit) : Bool :=
  !e.timedOut && !e.cancelled && e.code == 0

end ProcessExit

/--
What came of a program whose output was kept.
-/
structure ProcessResult where
  exit : ProcessExit
  out : Captured
  err : Captured
deriving DecidableEq, Repr

/--
Whether some of the output was not kept.
-/
def ProcessResult.truncated (r : ProcessResult) : Bool :=
  r.out.truncated || r.err.truncated

/--
What came of a program whose output was read while it ran.
-/
structure StreamResult where
  exit : ProcessExit
  truncated : Bool
  err : Captured
deriving DecidableEq, Repr

/--
The limits for programs.
-/
structure Sandbox where
  /-- How long a program may run, in milliseconds. -/
  timeout : Nat
  /-- How much output is kept. -/
  maxOutput : Nat
deriving DecidableEq, Repr

namespace Sandbox

/--
The longest time in milliseconds.
-/
def longest : Nat := Timeout.longest * 1000

/--
How long output is waited for once a program has ended, in milliseconds.
-/
def grace : Nat := 5000

/--
Limits within what is sensible.
-/
def of (timeout maxOutput : Nat) : Sandbox :=
  { timeout := min timeout longest, maxOutput := max maxOutput 1 }

/--
The time that a program gets.
-/
def timeFor (s : Sandbox) (i : Invocation) : Nat :=
  min (i.timeout.getD s.timeout) longest

/--
Whether all that is handed to a program can be written for the system, where a null character ends a text.
-/
def writable (i : Invocation) : Bool :=
  i.arguments.all clean && i.environment.all (fun v => clean v.1 && clean v.2)
where
  /-- Whether a text has no null character. -/
  clean (s : String) : Bool :=
    !s.toList.contains '\x00'

/--
Start a program, if its name and its directory are acceptable.
-/
def start (m : Machine) (i : Invocation) : Except LaunchError Activity := do
  (checkExecutable i.program).mapError .executable
  let directory ← match i.directory with
    | some d => (m.files.root m.directory d).mapError .directory
    | none => pure m.directory
  if !writable i then .error (.nul i.program)
  if !m.files.isDirectory directory then .error (.refused i.program .notDirectory)
  let environment := i.environment ++ m.environment.filter (fun v => !i.environment.any (·.1 == v.1))
  (m.start m.files
    { program := i.program
      arguments := i.arguments
      directory := directory
      environment := environment
      input := i.input.getD [] }).mapError (.refused i.program)

/--
The code of an ending.
-/
def codeOf : Ending → Int
  | .exit code => code
  | .signal => -1

/--
How a program ends that gets some time, and until when its output counts.
-/
def watch (a : Activity) (time : Nat) (cancelled : Bool) : ProcessExit × Option Nat :=
  if cancelled then ({ code := -1, cancelled := true }, some 0)
  else
    match a.ending with
    | some (t, e) =>
      if t < time then
        ({ code := codeOf e }, if a.closed.any (· ≤ t + grace) then none else some (t + grace))
      else ({ code := -1, timedOut := true }, some time)
    | none => ({ code := -1, timedOut := true }, some time)

/--
Run a program and keep its output.
-/
def execute (s : Sandbox) (m : Machine) (i : Invocation) : Except LaunchError ProcessResult := do
  let a ← start m i
  let (exit, until?) := watch a (s.timeFor i) i.cancelled
  return {
    exit := exit
    out := Capture.run s.maxOutput (a.written .out until?)
    err := Capture.run s.maxOutput (a.written .err until?) }

/--
How a program ends whose output is read to its end, and until when its output counts. The reading goes on as long
as a program that was started by it keeps the output open.
-/
def watchStream (a : Activity) (time : Nat) (cancelled : Bool) : ProcessExit × Option Nat :=
  if cancelled then ({ code := -1, cancelled := true }, some 0)
  else
    match a.ending with
    | some (t, e) =>
      if t < time then
        if a.closed.any (· < time) then ({ code := codeOf e }, none)
        else ({ code := codeOf e, timedOut := true }, some time)
      else ({ code := -1, timedOut := true }, some time)
    | none => ({ code := -1, timedOut := true }, some time)

/--
Run a program and read its output while it runs, all of it or a number of bytes; the rest of it is read without
being handed out.
-/
def stream (s : Sandbox) (m : Machine) (i : Invocation) (wanted : Option Nat) :
    Except LaunchError (List UInt8 × StreamResult) := do
  let a ← start m i
  let (exit, until?) := watchStream a (s.timeFor i) i.cancelled
  let reader := BoundedReader.of (ByteStream.ofPieces (a.written .out until?)) s.maxOutput
  let handed := ByteSource.readWanted wanted reader
  let (_, drained) := ByteSource.drain handed.after
  return (handed.bytes,
    { exit := exit, truncated := drained.truncated, err := Capture.run s.maxOutput (a.written .err until?) })

end Sandbox

end ApiSurface
