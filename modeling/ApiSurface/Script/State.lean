import ApiSurface.Process.Machine
import ApiSurface.Script.Expansion

/-!
This module contains what a script has at hand while it runs: variables, arguments, streams, a clock, and the
files it can see.
-/

namespace ApiSurface.Script

/--
Where output goes.
-/
inductive Sink where
  | stream (s : Stream)
  /-- To the one who asked for it. -/
  | kept
  | nothing
  | file (p : Path)
deriving DecidableEq, Repr

/--
How a script goes on behind a command.
-/
inductive Flow where
  | next
  /-- The script ends. -/
  | exit
  /-- The script is killed. -/
  | killed
  /-- The script never ends. -/
  | endless
  /-- Loops are left, or begun again. -/
  | leave (again : Bool) (loops : Nat)
  /-- A function ends. -/
  | back
deriving DecidableEq, Repr

/--
The state of a running script. Times are in milliseconds.
-/
structure State where
  /-- The name of the script. -/
  name : String
  arguments : List String
  environment : List (String × String)
  exported : List String
  functions : List (String × Command) := []
  /-- Whether a command that fails ends the script. -/
  strict : Bool := false
  status : Nat := 0
  time : Nat := 0
  /-- When the last of the commands in the background ends, if all do. -/
  behind : Option Nat := some 0
  /-- The output, the latest one first. -/
  outputs : List Output := []
  /-- Output that was asked for, the latest one first. -/
  kept : List (List UInt8) := []
  out : Sink := .stream .out
  err : Sink := .stream .err
  input : List UInt8
  directory : Path
  files : FileTree

namespace State

/--
The value of a variable.
-/
def value? (st : State) (name : String) : Option String :=
  st.environment.lookup name

/--
Give a variable a value.
-/
def assign (st : State) (name value : String) : State :=
  { st with environment := (name, value) :: st.environment.filter (·.1 != name) }

/--
The value of a parameter.
-/
def parameter? (st : State) (name : String) : Option String :=
  match name with
  | "@" | "*" => if st.arguments.isEmpty then none else some (" ".intercalate st.arguments)
  | "#" => some (toString st.arguments.length)
  | "?" => some (toString st.status)
  | "$" => some "4242"
  | "!" => some "4243"
  | "-" => some ""
  | "0" => some st.name
  | _ =>
    if name.toList.all Char.isDigit then
      st.arguments[(number? name).getD 0 |>.toNat |>.pred]?
    else
      match st.value? name with
      | some v => some v
      | none => if name == "PWD" then some st.directory.text else none

/--
Write to a sink.
-/
def emit (st : State) (sink : Sink) (bytes : List UInt8) : State :=
  if bytes.isEmpty then st
  else
    match sink with
    | .stream s => { st with outputs := { time := st.time, stream := s, bytes := bytes } :: st.outputs }
    | .kept => { st with kept := bytes :: st.kept }
    | .nothing => st
    | .file p =>
      let before := ((st.files.file? p).map (·.content)).getD ByteArray.empty
      { st with files := st.files.addFile p { content := before ++ ⟨bytes.toArray⟩ } }

/--
Write bytes.
-/
def write (st : State) (bytes : List UInt8) : State :=
  st.emit st.out bytes

/--
Write a text.
-/
def print (st : State) (s : String) : State :=
  st.write s.toUTF8.toList

/--
Write a complaint.
-/
def complain (st : State) (s : String) : State :=
  st.emit st.err (s ++ "\n").toUTF8.toList

/--
Set the result of a command.
-/
def withStatus (st : State) (n : Nat) : State :=
  { st with status := n }

/--
The state in which a command that fails does not end the script, because its result is asked for.
-/
def asked (st : State) : State :=
  { st with strict := false }

/--
The state behind a command whose result was asked for.
-/
def behindAsked (st inner : State) : State :=
  { inner with strict := st.strict || inner.strict }

/--
How a script goes on behind a command: one that failed ends it if the script is strict.
-/
def checked (st : State) (flow : Flow) : State × Flow :=
  (st, if flow == .next && st.strict && st.status != 0 then .exit else flow)

/--
The bytes that were asked for.
-/
def keptBytes (st : State) : List UInt8 :=
  st.kept.reverse.flatten

/--
The state behind commands that ran apart: what they wrote, and how long they took, counts.
-/
def after (st inner : State) : State :=
  { st with
    status := inner.status, time := inner.time, behind := inner.behind, outputs := inner.outputs, kept := inner.kept,
    files := inner.files, input := inner.input }

/--
When all that runs until some time or longer has ended.
-/
def later (a b : Option Nat) : Option Nat :=
  match a, b with
  | some a, some b => some (max a b)
  | _, _ => none

end State

end ApiSurface.Script
