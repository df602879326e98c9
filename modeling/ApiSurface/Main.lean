import ApiSurface.Cli.Run
import ApiSurface.Script.Run

/-!
This module contains the program: it shows the files of the machine to the command line, and does what that asks
for. Analyzers are run if they are scripts.
-/

namespace ApiSurface.Main

/--
Directories that are not looked into.
-/
def unseen : List String := [".git", "node_modules"]

/--
Read a file, or all files below a directory.
-/
partial def load (t : FileTree) (path : String) : IO FileTree := do
  let real ← IO.FS.realPath path
  let names := Path.names real.toString
  if ← real.isDir then
    let mut t := t.addDirectory names
    for entry in ← real.readDir do
      if !unseen.contains entry.fileName then
        t ← (load t entry.path.toString) <|> pure t
    return t
  else
    let time := (← real.metadata).modified
    let content ← IO.FS.readBinFile real
    return t.addFile names
      { content := content, modified := time.sec * 1000000000 + time.nsec.toNat, executable := true }

/--
Read what is there of the places that a run may ask for.
-/
def loadAll (t : FileTree) (paths : List String) : IO FileTree :=
  paths.foldlM (fun t p => (load t p) <|> pure t) t

/--
The variables that matter for settings.
-/
def environment (c : Config) : IO (List (String × String)) := do
  let names := ["PATH", Config.timeoutVariable, Config.workersVariable] ++
    Language.all.map (fun l => (Toolchain.of l).variableName c.variableStem)
  names.filterMapM fun n => do
    return (← IO.getEnv n).map (n, ·)

/--
The text of a time in milliseconds.
-/
def timeText (ms : Nat) : String :=
  if ms < 1000 then toString ms ++ ".00ms" else Decimal.placesText (ms / 10) 2 ++ "s"

end ApiSurface.Main

open ApiSurface in
/--
Run the command line on this machine.
-/
def main (args : List String) : IO UInt32 := do
  let started ← IO.monoMsNow
  let cwd := (← IO.currentDir).toString
  let files ← Main.loadAll {} (cwd :: args.filter (fun a => !a.startsWith "-" && Text.contains a "/"))
  let settings := match Cli.Request.read args with
    | .ok r => r.config.getD Config.defaultFile
    | .error _ => Config.defaultFile
  let config := ((Config.load files (Path.names cwd) settings).toOption.join).getD {}
  let files ← Main.loadAll files (config.host.toList ++ config.analyzers.toList)
  let home := (← IO.appPath).parent.map (·.toString)
  let machine := { Script.machine files (Path.names cwd) (← Main.environment config) with home := home }
  let r := Cli.run machine args
  match r.written with
  | some (p, s) => IO.FS.writeFile p.text s
  | none => pure ()
  (← IO.getStdout).putStr r.out
  let err ← IO.getStderr
  for line in r.lines do
    err.putStrLn line
  if r.timed then err.putStrLn ("⏱️ " ++ Main.timeText ((← IO.monoMsNow) - started))
  return UInt32.ofNat r.code
