import ApiSurface.Toolchain.Run

/-!
This module contains proofs about what an analyzer answers: the first thing that is wrong with an answer is the one
that is told of, and an index is taken only from an answer that nothing is wrong with. The obstacles of a whole run are
listed here, since those of an answer are the last of them.
-/

namespace ApiSurface

/--
What can stand between a run and its index, in the order of the run.
-/
inductive Obstacle where
  /-- The project's directory is not valid. -/
  | target
  /-- What has to be built first is not there. -/
  | artifact
  /-- There is no way to run the analyzer. -/
  | toolchain
  /-- There is an interpreter for the analyzer, but not the script. -/
  | script
  /-- The program does not start. -/
  | launch
  | timeout
  | cancellation
  /-- Some of the output was not kept. -/
  | truncation
  | exitCode
  /-- The output is no index. -/
  | output

namespace Obstacle

/--
The place of an obstacle in the order.
-/
def place : Obstacle → Nat
  | target => 0
  | artifact => 1
  | toolchain => 2
  | script => 3
  | launch => 4
  | timeout => 5
  | cancellation => 6
  | truncation => 7
  | exitCode => 8
  | output => 9

theorem place_inj {o o' : Obstacle} (h : o.place = o'.place) : o = o' := by
  cases o <;> cases o' <;> simp_all [place]

/--
The first obstacle that a relation has, with its failure.
-/
def First (hinders : Obstacle → Failure → Prop) (o : Obstacle) (f : Failure) : Prop :=
  hinders o f ∧ ∀ o' f', hinders o' f' → o.place ≤ o'.place

theorem First.eq {hinders : Obstacle → Failure → Prop} {o o' : Obstacle} {f f' : Failure}
    (h : First hinders o f) (h' : First hinders o' f') : o = o' :=
  place_inj (Nat.le_antisymm (h.2 o' f' h'.1) (h'.2 o f h.1))

end Obstacle

/--
What is wrong with an analyzer's answer, and the failure that tells of it.
-/
inductive ProcessResult.Spoiled (w : Workbench) (tool : String) (r : ProcessResult) : Obstacle → Failure → Prop where
  | timeout : r.exit.timedOut = true → Spoiled w tool r .timeout (.timeout tool (w.config.processTimeout * 1000))
  | cancellation : r.exit.cancelled = true → Spoiled w tool r .cancellation (.cancelled tool)
  | truncation : r.out.truncated = true →
      Spoiled w tool r .truncation
        (.malformedOutput
          (tool ++ " output exceeded " ++ toString w.config.maxOutput ++ " characters and was truncated"))
  | exitCode : r.exit.code ≠ 0 →
      Spoiled w tool r .exitCode
        (.extraction (tool ++ " exited with code " ++ toString r.exit.code ++ ": " ++
          Workbench.head r.err.text Workbench.complaintLength))
  | output {e} : Index.parse r.out.text = .error e →
      Spoiled w tool r .output (.malformedOutput ("JSON error: " ++ e.message))

/--
An answer that an index can be taken from.
-/
structure ProcessResult.Holds (r : ProcessResult) (parsed : Index) : Prop where
  inTime : r.exit.timedOut = false
  notCancelled : r.exit.cancelled = false
  whole : r.out.truncated = false
  exitCode : r.exit.code = 0
  parses : Index.parse r.out.text = .ok parsed

/--
The warning of what an analyzer complained of.
-/
def ProcessResult.complaints (r : ProcessResult) (l : Language) : List Diagnostic :=
  if Text.isBlankText r.err.text then []
  else [Diagnostic.toolchainWarning (l.name ++ " reported: " ++ Workbench.head r.err.text Workbench.complaintLength)]

namespace ProcessResult

variable {w : Workbench} {tool : String} {r : ProcessResult} {o : Obstacle} {f f' : Failure} {parsed parsed' : Index}

theorem Spoiled.failure_eq (h : Spoiled w tool r o f) (h' : Spoiled w tool r o f') : f = f' := by
  cases h with
  | output he =>
    cases h' with
    | output he' => rw [Except.error.inj (he.symm.trans he')]
  | _ =>
    cases h'
    rfl

theorem Spoiled.launch_lt (h : Spoiled w tool r o f) : Obstacle.launch.place < o.place := by
  cases h <;> decide

theorem Holds.not_spoiled (h : r.Holds parsed) : ¬ Spoiled w tool r o f := by
  intro hspoiled
  cases hspoiled with
  | timeout ht => exact absurd (ht.symm.trans h.inTime) (by decide)
  | cancellation hc => exact absurd (hc.symm.trans h.notCancelled) (by decide)
  | truncation ht => exact absurd (ht.symm.trans h.whole) (by decide)
  | exitCode hcode => exact hcode h.exitCode
  | output he => cases he.symm.trans h.parses

theorem Holds.index_eq (h : r.Holds parsed) (h' : r.Holds parsed') : parsed = parsed' :=
  Except.ok.inj (h.parses.symm.trans h'.parses)

end ProcessResult

namespace Workbench

/--
An answer is told of by the first thing that is wrong with it, and gives an index if nothing is.
-/
theorem indexOf_cases (w : Workbench) (tc : Toolchain) (tool : String) (warnings : List Diagnostic)
    (r : ProcessResult) :
    (∃ o f, Obstacle.First (ProcessResult.Spoiled w tool r) o f ∧ w.indexOf tc tool warnings r = .error f) ∨
    (∃ parsed, r.Holds parsed ∧
      w.indexOf tc tool warnings r =
        .ok { parsed with
          diagnostics := Diagnostic.merge [parsed.diagnostics, warnings ++ r.complaints tc.language] }) := by
  unfold indexOf
  split
  next ht =>
    refine Or.inl ⟨.timeout, _, ⟨.timeout ht, ?_⟩, rfl⟩
    intro o f h
    cases h <;> decide
  next ht =>
    split
    next hc =>
      refine Or.inl ⟨.cancellation, _, ⟨.cancellation hc, ?_⟩, rfl⟩
      intro o f h
      cases h with
      | timeout ht' => exact absurd ht' ht
      | _ => decide
    next hc =>
      split
      next hw =>
        refine Or.inl ⟨.truncation, _, ⟨.truncation hw, ?_⟩, rfl⟩
        intro o f h
        cases h with
        | timeout ht' => exact absurd ht' ht
        | cancellation hc' => exact absurd hc' hc
        | _ => decide
      next hw =>
        have hsuccess : r.exit.success = (r.exit.code == 0) := by
          simp [ProcessExit.success, ht, hc]
        rw [hsuccess]
        split
        next hcode =>
          refine Or.inl ⟨.exitCode, _, ⟨.exitCode (by simpa using hcode), ?_⟩, rfl⟩
          intro o f h
          cases h with
          | timeout ht' => exact absurd ht' ht
          | cancellation hc' => exact absurd hc' hc
          | truncation hw' => exact absurd hw' hw
          | _ => decide
        next hcode =>
          have hzero : r.exit.code = 0 := by simpa using hcode
          split
          next e he =>
            refine Or.inl ⟨.output, _, ⟨.output he, ?_⟩, rfl⟩
            intro o f h
            cases h with
            | timeout ht' => exact absurd ht' ht
            | cancellation hc' => exact absurd hc' hc
            | truncation hw' => exact absurd hw' hw
            | exitCode hcode' => exact absurd hzero hcode'
            | output => exact Nat.le_refl _
          next parsed hparsed =>
            rw [Bool.not_eq_true] at ht hc hw
            exact Or.inr ⟨parsed, ⟨ht, hc, hw, hzero, hparsed⟩, rfl⟩

end Workbench

end ApiSurface
