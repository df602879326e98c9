import ApiSurface.Files.Root
import ApiSurface.Files.Walk
import ApiSurface.Go.Parser
import ApiSurface.Java.Parser
import ApiSurface.Language
import ApiSurface.Python.Parser
import ApiSurface.Usage.Report

/-!
This module contains the analysis of the sample programs in a directory.
-/

namespace ApiSurface

/--
Whether a file is a test and no sample.
-/
def isTestFile : Language → String → Bool
  | .python, name => name.startsWith "test_" || name.endsWith "_test.py"
  | .go, name => name.endsWith "_test.go"
  | .java, _ => false

/--
What a program does.
-/
def programTerm : Language → String → Code.Term
  | .python, source => (Python.Module.parse source).term
  | .go, source => (Go.SourceText.parse source).term
  | .java, source => (Java.SourceText.parse source).term

/--
The sample programs below a directory, by their paths.
-/
def sampleFiles (t : FileTree) (root : Path) (l : Language) : List (Path × File) :=
  (t.walk root []).filter fun (p, _) =>
    (Path.extension? p.fileName).any (fun e => l.extensions.contains e) && !isTestFile l p.fileName

/--
The scan of a sample; a file that is no text has none.
-/
def scanFile (c : Clients) (l : Language) (relative : Path) (f : File) : Option FileScan :=
  (String.fromUTF8? f.content).map (fun source => Scan.ofTerm c relative.relativeText (programTerm l source))

/--
Report which operations of an index the samples at a path call. Without operations there is nothing to report.
-/
def UsageReport.analyze (i : Index) (t : FileTree) (cwd : Path) (l : Language) (samples : String) :
    Except PathError UsageReport := do
  let c := Clients.ofIndex i
  if c.operations.isEmpty then return {}
  let root ← t.root cwd samples
  let files := sampleFiles t root l
  return .ofScans c files.length (files.filterMap (fun (p, f) => scanFile c l p f))

end ApiSurface
