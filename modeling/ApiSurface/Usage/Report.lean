import ApiSurface.Json.Basic
import ApiSurface.Usage.Scan

/-!
This module contains the report on sample programs: the operations they cover, the operations they leave out, and
the share of the former.
-/

namespace ApiSurface

/--
An operation that no sample calls.
-/
structure UncoveredOperation where
  client : String
  method : String
  sig : String
deriving DecidableEq, Repr

/--
What samples cover.
-/
structure UsageReport where
  fileCount : Nat := 0
  covered : List CoveredOperation := []
  uncovered : List UncoveredOperation := []
  /-- The idioms of the samples, in order. -/
  patterns : List String := []
deriving DecidableEq, Repr

namespace UsageReport

/--
The first occurrence of every operation.
-/
def firstOccurrences : List (String × String) → List CoveredOperation → List CoveredOperation
  | _, [] => []
  | seen, op :: rest =>
    if seen.contains (op.client, op.method) then firstOccurrences seen rest
    else op :: firstOccurrences ((op.client, op.method) :: seen) rest

/--
The operations that neither the client nor one of its relatives has called.
-/
def uncoveredOf (c : Clients) (seen : List (String × String)) : List UncoveredOperation :=
  let isSeen (client method : String) : Bool := seen.contains (client, method)
  let left := c.all.filter fun (client, method, _) =>
    !isSeen client method && !(c.relatives client).any (fun other => isSeen other method)
  left.map (fun (client, method, sig) => ⟨client, method, sig⟩)

/--
The report on scans, which come in the order of the files.
-/
def ofScans (c : Clients) (fileCount : Nat) (scans : List FileScan) : UsageReport :=
  let covered := firstOccurrences [] (scans.flatMap (·.covered))
  { fileCount := fileCount
    covered := covered
    uncovered := uncoveredOf c (covered.map (fun op => (op.client, op.method)))
    patterns := (scans.flatMap (·.patterns)).eraseDups.mergeSort (fun a b => decide (a ≤ b)) }

/--
How many operations the report is about.
-/
def total (r : UsageReport) : Nat :=
  r.covered.length + r.uncovered.length

/--
A fraction in millionths, rounded to the nearest; a half goes to the even neighbour.
-/
def millionths (part whole : Nat) : Nat :=
  let scaled := part * 1000000
  let quotient := scaled / whole
  let twice := 2 * (scaled % whole)
  if twice > whole || (twice == whole && quotient % 2 == 1) then quotient + 1 else quotient

/--
The covered share with a number of decimals, at most six. There is none of nothing.
-/
def coverageText (r : UsageReport) : String :=
  let n := if r.total == 0 then 0 else millionths r.covered.length r.total
  let digits := toString (n % 1000000)
  toString (n / 1000000) ++ "." ++ "".pushn '0' (6 - digits.length) ++ digits

/--
The report as a JSON text.
-/
def toJson (r : UsageReport) : Json :=
  .object [
    ("fileCount", .nat r.fileCount),
    ("covered", .list (r.covered.map fun op => .object [
      ("client", .str op.client), ("method", .str op.method), ("file", .str op.file), ("line", .nat op.line)])),
    ("uncovered", .list (r.uncovered.map fun op => .object [
      ("client", .str op.client), ("method", .str op.method), ("sig", .str op.sig)])),
    ("patterns", .list (r.patterns.map .str))]

end UsageReport

end ApiSurface
