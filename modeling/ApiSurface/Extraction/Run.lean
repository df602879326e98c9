import ApiSurface.CrossReference
import ApiSurface.Diagnostic.Rules
import ApiSurface.Extraction.Assembly
import ApiSurface.Extraction.Dependencies
import ApiSurface.Extraction.ErrorTypes
import ApiSurface.Extraction.Hierarchy
import ApiSurface.Extraction.Identity
import ApiSurface.Extraction.Order
import ApiSurface.Failure
import ApiSurface.Files.Root
import ApiSurface.Files.Walk
import ApiSurface.Language

/-!
This module contains the extraction of an index from a source tree: find the files, record what each of them
declares, add the records up, and settle what depends on all of them together. A language contributes an
extractor.
-/

namespace ApiSurface

/--
The identity of a package.
-/
structure PackageInfo where
  name : String
  version : Option String := none
deriving DecidableEq, Repr

/--
A source file: its path relative to the project, and its text.
-/
structure SourceFile where
  path : String
  content : String

namespace SourceFile

/--
The directory part of the path; empty for files at the top.
-/
def directory (f : SourceFile) : String :=
  match Text.splitLast? "/" f.path with
  | some (dir, _) => dir
  | none => ""

end SourceFile

/--
What a file contributes.
-/
structure FileReport where
  records : List Record := []
  /-- The text could not be read in full. -/
  damaged : Bool := false

/--
Why the configuration of a project cannot be used.
-/
inductive ProjectError where
  | unreadable (reason : ReadError)
  | malformed (path : String)
deriving DecidableEq, Repr

/--
The text for a configuration that cannot be used.
-/
def ProjectError.message : ProjectError → String
  | unreadable reason => "IO error: " ++ reason.message
  | malformed path => "Parse error: " ++ path ++ ": TOML parse error"

/--
What extraction needs to know of a language. `σ` is what is read once for the whole project.
-/
structure Extractor (σ : Type) where
  language : Language
  conventions : Conventions
  /-- Whether a file belongs to the public surface. -/
  includes : String → Bool
  /-- Whether directories of this name do not. -/
  skipsDirectory : String → Bool
  load : FileTree → Path → Except ProjectError σ
  info : σ → PackageInfo
  extract : σ → SourceFile → FileReport
  /-- What is settled once all files are added up. -/
  finalize : σ → Collected → Collected

namespace Extractor

/--
Whether a file of a project, by its path, is one that the extractor reads.
-/
def wants (x : Extractor σ) (relative : Path) : Bool :=
  (Path.extension? relative.fileName).any (fun e => x.language.extensions.contains e) &&
    !relative.dropLast.any x.skipsDirectory && x.includes relative.relativeText

/--
The files that the extractor reads, by their paths.
-/
def discover (x : Extractor σ) (t : FileTree) (root : Path) (excludes : List Pattern) : List (Path × File) :=
  (t.walk root excludes).filter (fun e => x.wants e.1)

/--
What a file contributes, and the finding if it could not be read in full.
-/
def extractFile (x : Extractor σ) (project : σ) (relative : Path) (f : File) : List Record × List Diagnostic :=
  let path := relative.relativeText
  match String.fromUTF8? f.content with
  | none => ([], [.partialExtraction ("Could not read " ++ path ++ ": " ++ ReadError.encoding.message)])
  | some content =>
    let report := x.extract project ⟨path, content⟩
    (report.records,
      if report.damaged then [.partialExtraction (path ++ " has syntax errors; extraction may be incomplete")]
      else [])

/--
What the records of a project add up to, with the parents of every type told apart.
-/
def classified (x : Extractor σ) (project : σ) (records : List Record) : Collected :=
  let c := x.finalize project (Assembly.ofRecords records).finish
  { c with namespaces := classifyParents x.conventions c.namespaces c.imports }

/--
The index that the records of some files add up to.
-/
def assemble (x : Extractor σ) (orders : Orders) (project : σ) (records : List (List Record))
    (findings : List Diagnostic) : Index :=
  let c := x.classified project (orders.arrival records)
  let visits := orders.visits (typeKeys c.namespaces)
  let c := { c with namespaces := markErrorsInOrder x.conventions c.namespaces c.imports visits }
  let info := x.info project
  { package := info.name
    version := info.version
    namespaces := (assignIds c.namespaces).filter (fun ns => !ns.isEmpty)
    dependencies := dependencies x.conventions c
    diagnostics := findings }

/--
Extract the index of the project at a path.
-/
def run (x : Extractor σ) (orders : Orders) (t : FileTree) (cwd : Path) (excludes : List String) (cancelled : Bool)
    (target : String) : Except Failure Index := do
  let root ← (t.root cwd target).mapError (fun e => .invalidTarget e.message)
  if !t.isDirectory root then .error (.invalidTarget (root.text ++ " is not a directory"))
  let project ← (x.load t root).mapError fun e =>
    .extraction ("reading project configuration: " ++ e.message)
  let files := x.discover t root (patternsOf excludes)
  if files.isEmpty then
    .error (.extraction ("no " ++ x.language.name ++ " source files under " ++ root.text))
  if cancelled then .error (.cancelled (x.language.name ++ " source extraction"))
  let found := files.map (fun (relative, f) => x.extractFile project relative f)
  let index := x.assemble orders project (found.map (·.1)) (found.flatMap (·.2))
  match index.isEmpty, index.diagnostics with
  | true, first :: rest =>
    .error (.extraction ("nothing extracted; " ++ toString (rest.length + 1) ++ " files failed (" ++ first.text ++ ")"))
  | _, _ => .ok index

end Extractor

/--
What every new index gets: the findings about it, and the ids that other languages know its parts by.
-/
def Index.finish (i : Index) (map : Option CrossReference) : Index :=
  match map with
  | some m => m.attach i.diagnose
  | none => i.diagnose

end ApiSurface
