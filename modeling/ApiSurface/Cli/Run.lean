import ApiSurface.Cli.Arguments
import ApiSurface.Decimal.Fixed
import ApiSurface.Engine
import ApiSurface.Fingerprint
import ApiSurface.Reference.Prune
import ApiSurface.Usage.Samples

/-!
This module contains the command line: what each command writes for machines, what it tells people beside that,
and how it ends.
-/

namespace ApiSurface.Cli

/--
What a run leaves behind.
-/
structure Result where
  /-- Zero for success. -/
  code : Nat := 0
  /-- The output for machines. -/
  out : String := ""
  /-- The lines for people. -/
  lines : List String := []
  /-- Whether people are told how long it took. -/
  timed : Bool := false
  /-- The file that is written. -/
  written : Option (Path × String) := none

/--
The files after a run.
-/
def Result.filesAfter (r : Result) (t : FileTree) : FileTree :=
  match r.written with
  | some (p, s) => t.addFile p { content := s.toUTF8 }
  | none => t

/--
Why a command gave up, with the causes behind it, the deepest one last.
-/
structure Trouble where
  text : String
  causes : List String := []
deriving DecidableEq, Repr

namespace Trouble

/--
A cause with its lines indented; one of several causes has a number.
-/
def causeLines (number : Option Nat) (cause : String) : List String :=
  match Text.splitBy (· == '\n') cause with
  | [] => []
  | first :: rest =>
    match number with
    | none => ("    " ++ first) :: rest.map ("    " ++ ·)
    | some n => ("".pushn ' ' (5 - (toString n).length) ++ toString n ++ ": " ++ first) :: rest.map ("       " ++ ·)

/--
The lines that tell of trouble.
-/
def lines (t : Trouble) : List String :=
  let first := Text.splitBy (· == '\n') ("Error: " ++ t.text)
  match t.causes with
  | [] => first
  | [c] => first ++ ["", "Caused by:"] ++ causeLines none c
  | cs => first ++ ["", "Caused by:"] ++ (cs.zipIdx.flatMap fun (c, i) => causeLines (some i) c)

/--
Trouble with a file that was read.
-/
def ofRead (text : String) (e : ReadError) : Trouble :=
  { text := text, causes := [e.message] }

/--
Trouble with a document.
-/
def ofJson (e : Json.Error) : Trouble :=
  { text := "JSON error: " ++ e.message, causes := [e.message] }

end Trouble

namespace Line

/--
A title.
-/
def header (s : String) : String := "📦 " ++ s

/--
Good news.
-/
def success (s : String) : String := "✅ " ++ s

/--
Bad news.
-/
def failure (s : String) : String := "❌ " ++ s

/--
Something to look at.
-/
def warning (s : String) : String := "⚠️ " ++ s

/--
A fact with its label.
-/
def info (label value : String) : String := "ℹ️ " ++ label ++ ": " ++ value

/--
A row of a summary.
-/
def row (label value : String) : String := "  " ++ label ++ " " ++ value

/--
The lines that begin a section.
-/
def sectionStart (title : String) : List String := ["", "━" ++ title ++ "━"]

/--
A finding, with what it is about.
-/
def finding (d : Diagnostic) : String :=
  let anchor := match d.targetType, d.targetMember with
    | some t, some m => " [" ++ t ++ "." ++ m ++ "]"
    | some t, none => " [" ++ t ++ "]"
    | none, _ => ""
  "  " ++ d.level.name ++ " " ++ d.id ++ " " ++ d.text ++ anchor

/--
What is known of a language's analyzer.
-/
def availability (l : Language) (a : Availability) : String :=
  "  " ++ (if a.isAvailable then "✅" else "❌") ++ " " ++ l.name ++ "".pushn ' ' (8 - l.name.length) ++ " " ++ a.text

end Line

/--
Read a file.
-/
def readFile (m : Machine) (path : String) : Except ReadError String :=
  match m.files.locate m.directory path with
  | .ok p => m.files.read p
  | .error e => .error (.os e)

/--
Read a file of identities.
-/
def readMap (m : Machine) (path : String) : Except Trouble CrossReference :=
  let trouble (text cause : String) : Trouble :=
    { text := "Failed to load id map " ++ path, causes := [text ++ cause, cause] }
  match readFile m path with
  | .error e => .error (trouble "IO error: " e.message)
  | .ok s => (Json.decode CrossReference.decoder s).mapError (fun e => trouble "JSON error: " e.message)

/--
The lines about an index.
-/
def summary (l : Language) (i : Index) (stats : Option ReachabilityStats) (findings : List Diagnostic)
    (output : Option String) : List String :=
  [Line.header (i.package ++ " " ++ l.name), Line.row "Namespaces:" (toString i.namespaces.length),
    Line.row "Types:" (toString i.typeCount)] ++
  (match stats with
    | some s =>
      [Line.row "Reachable:" (toString s.reachable ++ " of " ++ toString s.types ++ " (" ++ toString s.roots ++ " roots)")]
    | none => []) ++
  (if findings.isEmpty then [] else Line.sectionStart "Diagnostics" ++ findings.map Line.finding) ++
  (match output with
    | some p => [Line.info "Written to" p]
    | none => [])

/--
Write the index of a target.
-/
def graph (c : Config) (m : Machine) (l : Language) (target : Target) (stubs prune : Bool) (map output : Option String) :
    Except (List String × Trouble) Result := do
  let map ← match map with
    | some p => ((readMap m p).map some).mapError (fun t => ([], t))
    | none => pure none
  let (result, _) := (Workbench.ofConfig c m).graph m {} l target map
  let index ← result.mapError fun f => ([Line.failure f.message], { text := l.name ++ " engine failed" })
  let (shown, stats) := if prune then
      let (pruned, stats) := index.pruneWithStats
      (pruned, some stats)
    else (index, none)
  let rendered := if stubs then l.stub shown else shown.render
  let (out, written) ← match output with
    | none => pure (rendered ++ "\n", none)
    | some name =>
      match m.files.place m.directory name with
      | .ok p => pure ("", some (p, rendered))
      | .error e => .error ([], { text := "Failed to write " ++ name, causes := [e.message] })
  return { out := out, lines := summary l shown stats index.diagnostics output, timed := true, written := written }

/--
Write the fingerprint of a source tree.
-/
def fingerprint (c : Config) (m : Machine) (path : String) (language : Option Language) :
    Except (List String × Trouble) Result := do
  let extensions := match language with
    | some l => l.extensions
    | none => Language.all.flatMap Language.extensions
  let f ← (Fingerprint.compute m.files m.directory path extensions c.exclude).mapError
    (fun e => ([], { text := e.message }))
  let line := if f.isEmpty then Line.warning ("No " ++ "/".intercalate extensions ++ " files under " ++ path)
    else Line.header ("🔑 " ++ path)
  return { out := f.text ++ "\n", lines := [line] }

/--
The lines about the use of operations.
-/
def usageLines (i : Index) (r : UsageReport) : List String :=
  [Line.header ("🎯 " ++ i.package), Line.row "Sample files:" (toString r.fileCount),
    Line.row "Covered:" (toString r.covered.length), Line.row "Uncovered:" (toString r.uncovered.length),
    Line.row "Coverage:" (Decimal.percentText r.covered.length r.total)] ++
  (if r.patterns.isEmpty then [] else [Line.row "Patterns:" (", ".intercalate r.patterns)]) ++
  (if r.uncovered.isEmpty then []
    else Line.sectionStart "Uncovered operations" ++
      r.uncovered.map (fun op => "  " ++ op.client ++ "." ++ op.method ++ " " ++ op.sig))

/--
Report which operations samples use.
-/
def usage (m : Machine) (l : Language) (index samples : String) (json : Bool) : Except (List String × Trouble) Result := do
  let text ← (readFile m index).mapError fun e => ([], Trouble.ofRead ("Failed to read index " ++ index) e)
  let i ← (Index.parse text).mapError fun e => ([], Trouble.ofJson e)
  let r ← (UsageReport.analyze i m.files m.directory l samples).mapError fun e => ([], { text := e.message })
  if json then return { out := r.toJson.pretty ++ "\n" }
  else return { lines := usageLines i r }

/--
The lines about the analyzer of a language.
-/
def doctorLines (l : Language) (r : Resolution) : List String :=
  [Line.availability l r.availability] ++ (r.warning.toList.map Line.warning) ++
    if r.availability.isAvailable then [] else ["      " ++ (Toolchain.of l).hint]

/--
Report which analyzers can be run.
-/
def doctor (c : Config) (m : Machine) (language : Option Language) : Result :=
  let languages := match language with
    | some l => [l]
    | none => Language.all
  let found := languages.map fun l => (l, (Workbench.ofConfig c m).search m l)
  { lines := [Line.header "⚙️ Analyzer toolchains"] ++ found.flatMap (fun (l, r) => doctorLines l r) ++
      if found.all (fun (_, r) => r.availability.isAvailable) then [Line.success "All toolchains available"] else [] }

/--
Do what is asked for, with settings.
-/
def act (c : Config) (m : Machine) : Action → Except (List String × Trouble) Result
  | .graph l path manifest classes stubs prune map output =>
    let target := match manifest with
      | some p => .manifest { language := l, path := p, classes := if l == .java then classes else none }
      | none => .source (path.getD ".")
    graph c m l target stubs prune map output
  | .fingerprint path language => fingerprint c m path language
  | .usage l index samples json => usage m l index samples json
  | .doctor language _ => .ok (doctor c m language)

/--
Do what is asked for; trouble is told and ends the run.
-/
def perform (m : Machine) (r : Request) : Result :=
  let failed (lines : List String) (t : Trouble) : Result := { code := 1, lines := lines ++ t.lines }
  match Config.resolve m.files m.directory (r.config.getD Config.defaultFile) m.value? with
  | .error e => failed [] { text := e.message }
  | .ok c =>
    match act c m r.action with
    | .ok result => result
    | .error (lines, t) => failed lines t

/--
How the commands are called.
-/
def helpText : String :=
  "Usage: apigraph [OPTIONS] <COMMAND>\n\nCommands:\n  graph        Extract the API index of a package\n" ++
  "  fingerprint  Print the metadata fingerprint of a source tree\n" ++
  "  usage        Report which client operations sample programs exercise\n" ++
  "  doctor       Show which external analyzers are available\n"

/--
The version of the program.
-/
def versionText : String := "apigraph 0.1.0\n"

/--
Run the command line.
-/
def run (m : Machine) (args : List String) : Result :=
  match Request.read args with
  | .ok r => perform m r
  | .error .rejected => { code := 2 }
  | .error .help => { out := helpText }
  | .error .version => { out := versionText }

end ApiSurface.Cli
