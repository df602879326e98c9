import ApiSurface.Proofs.Toolchain.Answer
import ApiSurface.Proofs.Toolchain.Cache

/-!
This module contains proofs about running a language's analyzer: which runs give an index and which index they give,
by what the others fail, and what is remembered after each. A run passes its obstacles in a fixed order, and the first
one in its way is the one that is told of.
-/

namespace ApiSurface

namespace Workbench

section Preparation

variable {w : Workbench} {m : Machine} {manifest : Manifest} {tc : Toolchain} {root : Path}
  {artifact : Option String} {way : Availability} {f : Failure}

theorem requireArtifact_eq_error_iff :
    requireArtifact m manifest = .error f ↔
      ∃ path remedy, manifest.artifact? = some (path, remedy) ∧ m.has path = false ∧
        f = .artifactMissing path remedy := by
  unfold requireArtifact
  split
  next hnone => simp [hnone]
  next path remedy hsome =>
    rw [hsome]
    split
    next hhas => simp [hhas]
    next hhas =>
      rw [Bool.not_eq_true] at hhas
      simp only [Except.error.injEq, Option.some.injEq, Prod.mk.injEq]
      constructor
      . rintro rfl
        exact ⟨path, remedy, ⟨rfl, rfl⟩, hhas, rfl⟩
      . rintro ⟨_, _, ⟨rfl, rfl⟩, _, rfl⟩
        rfl

theorem has_of_requireArtifact {path remedy : String} (h : requireArtifact m manifest = .ok artifact)
    (hpath : manifest.artifact? = some (path, remedy)) : m.has path = true := by
  rw [← Bool.not_eq_false]
  intro hmissing
  have herror := requireArtifact_eq_error_iff.mpr ⟨path, remedy, hpath, hmissing, rfl⟩
  cases herror.symm.trans h

/--
The failure of a script that is not there.
-/
def scriptMissing (w : Workbench) (tc : Toolchain) : Failure :=
  .artifactMissing (Path.join w.analyzers tc.script)
    ("install the " ++ tc.language.name ++ " analyzer scripts or set \x60analyzers_dir\x60 in apigraph.toml")

theorem invocation_eq_error_iff :
    w.invocation m tc root artifact way = .error f ↔
      (∃ reason, way = .unavailable reason ∧ f = .unavailable tc.language.name reason tc.hint) ∨
      (∃ path, way = .interpreter path ∧ m.isFile (Path.join w.analyzers tc.script) = false ∧
        f = w.scriptMissing tc) := by
  cases way with
  | unavailable reason =>
    rw [invocation, Except.error.injEq, eq_comm]
    simp
  | program path => simp [invocation]
  | container runtime image => simp [invocation]
  | interpreter path =>
    simp only [invocation]
    split
    next hfile => simp [hfile]
    next hfile =>
      rw [Bool.not_eq_true] at hfile
      rw [Except.error.injEq, eq_comm]
      simp [hfile, scriptMissing]

end Preparation

end Workbench

/--
A run of an analyzer with all that it depends on. Starting a program may have any outcome.
-/
structure Attempt where
  workbench : Workbench
  machine : Machine
  execute : Invocation → Except LaunchError ProcessResult
  cache : AvailabilityCache
  manifest : Manifest

namespace Attempt

/--
What the run gives, and what is remembered after it.
-/
def outcome (a : Attempt) : Except Failure Index × AvailabilityCache :=
  a.workbench.runWith a.machine a.execute a.cache a.manifest

/--
The language of the project.
-/
def language (a : Attempt) : Language :=
  a.manifest.language

/--
Where to look for the analyzer.
-/
def toolchain (a : Attempt) : Toolchain :=
  Toolchain.of a.language

/--
The directory of the project, if it is valid.
-/
def target (a : Attempt) : Except PathError Path :=
  a.machine.files.root a.machine.directory a.manifest.root

/--
What is known of the analyzer when the run needs it, and what is remembered from then on.
-/
def resolved (a : Attempt) : Resolution × AvailabilityCache :=
  a.cache.resolve (a.workbench.search a.machine) a.language

/--
How the analyzer can be run.
-/
def way (a : Attempt) : Availability :=
  a.resolved.1.availability

/--
The analyzer as a script.
-/
def script (a : Attempt) : String :=
  Path.join a.workbench.analyzers a.toolchain.script

/--
The wish to run the analyzer that the run arrives at.
-/
inductive Starts (a : Attempt) : Invocation → Prop where
  | intro {root artifact i} :
      a.target = .ok root →
      Workbench.requireArtifact a.machine a.manifest = .ok artifact →
      a.workbench.invocation a.machine a.toolchain root artifact a.way = .ok i →
      Starts a
        { i with timeout := some (a.workbench.config.processTimeout * 1000), cancelled := a.workbench.cancelled }

/--
The project is there, with all that has to be built first.
-/
structure ProjectReady (a : Attempt) : Prop where
  target : ∃ root, a.target = .ok root
  artifact : ∀ path remedy, a.manifest.artifact? = some (path, remedy) → a.machine.has path = true

/--
All that a run needs before it starts the analyzer.
-/
structure Prepared (a : Attempt) : Prop extends a.ProjectReady where
  toolchain : ∀ reason, a.way ≠ .unavailable reason
  script : ∀ path, a.way = .interpreter path → a.machine.isFile a.script = true

/--
What keeps the run from starting the analyzer at all, and the failure that tells of it.
-/
inductive Unprepared (a : Attempt) : Obstacle → Failure → Prop where
  | target {e} : a.target = .error e → Unprepared a .target (.invalidTarget e.message)
  | artifact {path remedy} : a.manifest.artifact? = some (path, remedy) → a.machine.has path = false →
      Unprepared a .artifact (.artifactMissing path remedy)
  | toolchain {reason} : a.way = .unavailable reason →
      Unprepared a .toolchain (.unavailable a.toolchain.language.name reason a.toolchain.hint)
  | script {path} : a.way = .interpreter path → a.machine.isFile a.script = false →
      Unprepared a .script (a.workbench.scriptMissing a.toolchain)

/--
What stands between the run and its index, and the failure that tells of it.
-/
inductive Hindered (a : Attempt) : Obstacle → Failure → Prop where
  | preparation {o f} : a.Unprepared o f → Hindered a o f
  | launch {i e} : a.Starts i → a.execute i = .error e →
      Hindered a .launch (.unavailable a.toolchain.language.name e.message a.toolchain.hint)
  | answer {i r o f} : a.Starts i → a.execute i = .ok r → r.Spoiled a.workbench i.program o f → Hindered a o f

/--
The analyzer does not start.
-/
def Refused (a : Attempt) : Prop :=
  ∃ i e, a.Starts i ∧ a.execute i = .error e

/--
The index of a run: the analyzer's, with the warnings of the search and of the analyzer behind its findings.
-/
def indexOf (a : Attempt) (r : ProcessResult) (parsed : Index) : Index :=
  { parsed with
    diagnostics := Diagnostic.merge
      [parsed.diagnostics,
        a.resolved.1.warning.toList.map Diagnostic.toolchainWarning ++ r.complaints a.toolchain.language] }

/--
What is remembered after a run that an obstacle stopped.
-/
def rememberedAt (a : Attempt) : Obstacle → AvailabilityCache
  | .target => a.cache
  | .artifact => a.cache
  | .launch => a.resolved.2.invalidate (some a.language)
  | _ => a.resolved.2

variable {a : Attempt} {i i' : Invocation} {r : ProcessResult} {o : Obstacle} {f f' : Failure}

section Preparation

theorem Unprepared.failure_eq (h : a.Unprepared o f) (h' : a.Unprepared o f') : f = f' := by
  cases h with
  | target he =>
    obtain ⟨he'⟩ := h'
    rw [Except.error.inj (he.symm.trans he')]
  | artifact hpath =>
    obtain - | ⟨hpath'⟩ := h'
    cases hpath.symm.trans hpath'
    rfl
  | toolchain hreason =>
    obtain - | - | ⟨hreason'⟩ := h'
    cases hreason.symm.trans hreason'
    rfl
  | script =>
    cases h'
    rfl

theorem Unprepared.lt_launch (h : a.Unprepared o f) : o.place < Obstacle.launch.place := by
  cases h <;> decide

theorem projectReady_iff : a.ProjectReady ↔ ∀ o f, a.Unprepared o f → Obstacle.toolchain.place ≤ o.place := by
  constructor
  . intro h o f hun
    cases hun with
    | target he =>
      obtain ⟨root, hroot⟩ := h.target
      cases he.symm.trans hroot
    | artifact hpath hmissing => exact absurd (hmissing.symm.trans (h.artifact _ _ hpath)) (by decide)
    | _ => decide
  . intro h
    refine ⟨?_, ?_⟩
    . cases htarget : a.target with
      | error e => exact absurd (h _ _ (.target htarget)) (by decide)
      | ok root => exact ⟨root, rfl⟩
    . intro path remedy hpath
      rw [← Bool.not_eq_false]
      intro hmissing
      exact absurd (h _ _ (.artifact hpath hmissing)) (by decide)

theorem Prepared.not_unprepared (h : a.Prepared) : ¬ a.Unprepared o f := by
  intro hun
  have hle := projectReady_iff.mp h.toProjectReady o f hun
  cases hun with
  | toolchain hreason => exact h.toolchain _ hreason
  | script hpath hmissing => exact absurd (hmissing.symm.trans (h.script _ hpath)) (by decide)
  | _ => exact absurd hle (by decide)

theorem Starts.eq (h : a.Starts i) (h' : a.Starts i') : i = i' := by
  obtain ⟨hroot, hartifact, hi⟩ := h
  obtain ⟨hroot', hartifact', hi'⟩ := h'
  obtain rfl := Except.ok.inj (hroot.symm.trans hroot')
  obtain rfl := Except.ok.inj (hartifact.symm.trans hartifact')
  obtain rfl := Except.ok.inj (hi.symm.trans hi')
  rfl

theorem Starts.prepared (hi : a.Starts i) : a.Prepared := by
  obtain @⟨root, artifact, i, hroot, hartifact, hinvocation⟩ := hi
  have hway : ∀ f, a.workbench.invocation a.machine a.toolchain root artifact a.way ≠ .error f := by
    intro f herror
    cases herror.symm.trans hinvocation
  refine ⟨⟨⟨root, hroot⟩, fun _ _ => Workbench.has_of_requireArtifact hartifact⟩, ?_, ?_⟩
  . intro reason hreason
    exact hway _ (Workbench.invocation_eq_error_iff.mpr (Or.inl ⟨reason, hreason, rfl⟩))
  . intro path hpath
    rw [← Bool.not_eq_false]
    intro hmissing
    exact hway _ (Workbench.invocation_eq_error_iff.mpr (Or.inr ⟨path, hpath, hmissing, rfl⟩))

/--
A run is stopped before the analyzer is started, or it starts the analyzer.
-/
theorem unprepared_or_starts (a : Attempt) :
    (∃ o f, Obstacle.First a.Unprepared o f ∧ a.outcome = (.error f, a.rememberedAt o)) ∨ ∃ i, a.Starts i := by
  unfold outcome Workbench.runWith
  dsimp only
  split
  next e he =>
    refine Or.inl ⟨.target, _, ⟨.target he, ?_⟩, rfl⟩
    intro o f h
    exact Nat.zero_le _
  next root hroot =>
    split
    next f hf =>
      obtain ⟨path, remedy, hpath, hmissing, rfl⟩ := Workbench.requireArtifact_eq_error_iff.mp hf
      refine Or.inl ⟨.artifact, _, ⟨.artifact hpath hmissing, ?_⟩, rfl⟩
      intro o f h
      cases h with
      | target he => cases he.symm.trans hroot
      | _ => decide
    next artifact hartifact =>
      have hready : a.ProjectReady := ⟨⟨root, hroot⟩, fun _ _ => Workbench.has_of_requireArtifact hartifact⟩
      have hle := projectReady_iff.mp hready
      split
      next f hf =>
        rcases Workbench.invocation_eq_error_iff.mp hf with ⟨reason, hreason, rfl⟩ | ⟨path, hpath, hmissing, rfl⟩
        . exact Or.inl ⟨.toolchain, _, ⟨.toolchain hreason, hle⟩, rfl⟩
        . refine Or.inl ⟨.script, _, ⟨.script hpath hmissing, ?_⟩, rfl⟩
          intro o f h
          have hplace := hle o f h
          cases h with
          | toolchain hreason => cases hpath.symm.trans hreason
          | script => exact Nat.le_refl _
          | _ => exact absurd hplace (by decide)
      next i hi => exact Or.inr ⟨_, .intro hroot hartifact hi⟩

theorem exists_starts_iff : (∃ i, a.Starts i) ↔ a.Prepared := by
  constructor
  . rintro ⟨i, hi⟩
    exact hi.prepared
  . intro h
    rcases a.unprepared_or_starts with ⟨o, f, hfirst, _⟩ | hstarts
    . exact absurd hfirst.1 h.not_unprepared
    . exact hstarts

end Preparation

section Outcome

theorem outcome_of_starts (hi : a.Starts i) :
    a.outcome =
      match a.execute i with
      | .error e =>
        (.error (.unavailable a.toolchain.language.name e.message a.toolchain.hint), a.rememberedAt .launch)
      | .ok r =>
        (a.workbench.indexOf a.toolchain i.program
          (a.resolved.1.warning.toList.map Diagnostic.toolchainWarning) r, a.resolved.2) := by
  obtain ⟨hroot, hartifact, hinvocation⟩ := hi
  unfold target at hroot
  unfold way resolved toolchain language at hinvocation
  unfold outcome Workbench.runWith
  simp only [hroot, hartifact, hinvocation]
  rfl

/--
Once the analyzer has answered, all that can stand in the way is in its answer.
-/
theorem Starts.hindered_iff (hi : a.Starts i) (hr : a.execute i = .ok r) :
    a.Hindered o f ↔ r.Spoiled a.workbench i.program o f := by
  refine ⟨?_, .answer hi hr⟩
  intro h
  cases h with
  | preparation hun => exact absurd hun hi.prepared.not_unprepared
  | launch hi' he =>
    obtain rfl := hi.eq hi'
    cases he.symm.trans hr
  | answer hi' hr' hspoiled =>
    obtain rfl := hi.eq hi'
    obtain rfl := Except.ok.inj (hr.symm.trans hr')
    exact hspoiled

theorem Starts.hindered_iff_of_refused {e : LaunchError} (hi : a.Starts i) (he : a.execute i = .error e) :
    a.Hindered o f ↔
      o = .launch ∧ f = .unavailable a.toolchain.language.name e.message a.toolchain.hint := by
  constructor
  . intro h
    cases h with
    | preparation hun => exact absurd hun hi.prepared.not_unprepared
    | launch hi' he' =>
      obtain rfl := hi.eq hi'
      obtain rfl := Except.error.inj (he.symm.trans he')
      exact ⟨rfl, rfl⟩
    | answer hi' hr =>
      obtain rfl := hi.eq hi'
      cases he.symm.trans hr
  . rintro ⟨rfl, rfl⟩
    exact .launch hi he

theorem first_of_unprepared (h : Obstacle.First a.Unprepared o f) : Obstacle.First a.Hindered o f := by
  refine ⟨.preparation h.1, ?_⟩
  intro o' f' h'
  cases h' with
  | preparation hun => exact h.2 o' f' hun
  | launch => exact Nat.le_of_lt h.1.lt_launch
  | answer _ _ hspoiled => exact Nat.le_of_lt (Nat.lt_trans h.1.lt_launch hspoiled.launch_lt)

theorem Hindered.failure_eq (h : a.Hindered o f) (h' : a.Hindered o f') : f = f' := by
  cases h with
  | preparation hun =>
    cases h' with
    | preparation hun' => exact hun.failure_eq hun'
    | launch hi => exact absurd hun hi.prepared.not_unprepared
    | answer hi => exact absurd hun hi.prepared.not_unprepared
  | launch hi he =>
    rw [hi.hindered_iff_of_refused he] at h'
    exact h'.2.symm
  | answer hi hr hspoiled =>
    rw [hi.hindered_iff hr] at h'
    exact hspoiled.failure_eq h'

theorem first_hindered_unique {o' : Obstacle} (h : Obstacle.First a.Hindered o f)
    (h' : Obstacle.First a.Hindered o' f') : f = f' := by
  obtain rfl := h.eq h'
  exact h.1.failure_eq h'.1

/--
All that a run can do: the first thing in its way stops it, or there is nothing and it gives the index.
-/
theorem outcome_cases (a : Attempt) :
    (∃ o f, Obstacle.First a.Hindered o f ∧ a.outcome = (.error f, a.rememberedAt o)) ∨
    (∃ i r parsed, a.Starts i ∧ a.execute i = .ok r ∧ r.Holds parsed ∧
      a.outcome = (.ok (a.indexOf r parsed), a.resolved.2)) := by
  rcases a.unprepared_or_starts with ⟨o, f, hfirst, hout⟩ | ⟨i, hi⟩
  . exact Or.inl ⟨o, f, first_of_unprepared hfirst, hout⟩
  . have hout := outcome_of_starts hi
    cases hr : a.execute i with
    | error e =>
      rw [hr] at hout
      refine Or.inl ⟨.launch, _, ⟨.launch hi hr, ?_⟩, hout⟩
      intro o f h
      obtain ⟨rfl, _⟩ := (hi.hindered_iff_of_refused hr).mp h
      exact Nat.le_refl _
    | ok r =>
      rw [hr] at hout
      dsimp only at hout
      rcases a.workbench.indexOf_cases a.toolchain i.program
          (a.resolved.1.warning.toList.map Diagnostic.toolchainWarning) r with
        ⟨o, f, hfirst, hindex⟩ | ⟨parsed, hholds, hindex⟩
      . rw [hindex] at hout
        refine Or.inl ⟨o, f, ⟨.answer hi hr hfirst.1, ?_⟩, ?_⟩
        . intro o' f' h
          exact hfirst.2 o' f' ((hi.hindered_iff hr).mp h)
        . rw [hout]
          cases hfirst.1 <;> rfl
      . rw [hindex] at hout
        exact Or.inr ⟨i, r, parsed, hi, hr, hholds, hout⟩

theorem outcome_eq_ok_iff {index : Index} :
    a.outcome.1 = .ok index ↔
      ∃ i r parsed, a.Starts i ∧ a.execute i = .ok r ∧ r.Holds parsed ∧ index = a.indexOf r parsed := by
  constructor
  . intro h
    rcases a.outcome_cases with ⟨o, f, _, hout⟩ | ⟨i, r, parsed, hi, hr, hholds, hout⟩
    . rw [hout] at h
      cases h
    . rw [hout] at h
      exact ⟨i, r, parsed, hi, hr, hholds, (Except.ok.inj h).symm⟩
  . rintro ⟨i, r, parsed, hi, hr, hholds, rfl⟩
    rcases a.outcome_cases with ⟨o, f, hfirst, _⟩ | ⟨i', r', parsed', hi', hr', hholds', hout⟩
    . exact absurd ((hi.hindered_iff hr).mp hfirst.1) hholds.not_spoiled
    . obtain rfl := hi.eq hi'
      obtain rfl := Except.ok.inj (hr.symm.trans hr')
      rw [hout, hholds.index_eq hholds']

theorem outcome_eq_error_iff : a.outcome.1 = .error f ↔ ∃ o, Obstacle.First a.Hindered o f := by
  constructor
  . intro h
    rcases a.outcome_cases with ⟨o, f', hfirst, hout⟩ | ⟨i, r, parsed, _, _, _, hout⟩
    . rw [hout] at h
      obtain rfl := Except.error.inj h
      exact ⟨o, hfirst⟩
    . rw [hout] at h
      cases h
  . rintro ⟨o, hfirst⟩
    rcases a.outcome_cases with ⟨o', f', hfirst', hout⟩ | ⟨i, r, parsed, hi, hr, hholds, _⟩
    . rw [hout, first_hindered_unique hfirst hfirst']
    . exact absurd ((hi.hindered_iff hr).mp hfirst.1) hholds.not_spoiled

end Outcome

section Memory

theorem Refused.prepared (h : a.Refused) : a.Prepared := by
  obtain ⟨i, _, hi, _⟩ := h
  exact hi.prepared

theorem Starts.not_refused (hi : a.Starts i) (hr : a.execute i = .ok r) : ¬ a.Refused := by
  rintro ⟨i', e, hi', he⟩
  obtain rfl := hi.eq hi'
  cases he.symm.trans hr

/--
What is remembered depends on how far the run got: it forgets the analyzer that did not start, keeps the answer that it
asked for, and changes nothing if it did not ask.
-/
theorem remembered_cases (a : Attempt) :
    (a.Refused ∧ a.outcome.2 = a.resolved.2.invalidate (some a.language)) ∨
    (¬ a.Refused ∧ a.ProjectReady ∧ a.outcome.2 = a.resolved.2) ∨
    (¬ a.Refused ∧ ¬ a.ProjectReady ∧ a.outcome.2 = a.cache) := by
  rcases a.outcome_cases with ⟨o, f, hfirst, hout⟩ | ⟨i, r, parsed, hi, hr, _, hout⟩
  . rw [hout]
    obtain ⟨h, hle⟩ := hfirst
    cases h with
    | preparation hun =>
      have hnot : ¬ a.Refused := fun hrefused => hrefused.prepared.not_unprepared hun
      have hready : a.ProjectReady ↔ Obstacle.toolchain.place ≤ o.place := by
        rw [projectReady_iff]
        refine ⟨fun h => h o f hun, fun h o' f' hun' => Nat.le_trans h (hle o' f' (.preparation hun'))⟩
      rw [hready]
      cases hun with
      | target => exact Or.inr (Or.inr ⟨hnot, by decide, rfl⟩)
      | artifact => exact Or.inr (Or.inr ⟨hnot, by decide, rfl⟩)
      | toolchain => exact Or.inr (Or.inl ⟨hnot, by decide, rfl⟩)
      | script => exact Or.inr (Or.inl ⟨hnot, by decide, rfl⟩)
    | launch hi he => exact Or.inl ⟨⟨_, _, hi, he⟩, rfl⟩
    | answer hi hr hspoiled =>
      refine Or.inr (Or.inl ⟨hi.not_refused hr, hi.prepared.toProjectReady, ?_⟩)
      cases hspoiled <;> rfl
  . rw [hout]
    exact Or.inr (Or.inl ⟨hi.not_refused hr, hi.prepared.toProjectReady, rfl⟩)

theorem get?_outcome_eq_none_iff :
    a.outcome.2.get? a.language = none ↔
      a.Refused ∨ (¬ a.ProjectReady ∧ a.cache.get? a.language = none) := by
  rcases a.remembered_cases with ⟨hrefused, hout⟩ | ⟨hnot, hready, hout⟩ | ⟨hnot, hready, hout⟩
  . rw [hout]
    simp [hrefused, AvailabilityCache.invalidate]
  . rw [hout, resolved, AvailabilityCache.get?_resolve_self]
    simp [hnot, hready]
  . rw [hout]
    simp [hnot, hready]

theorem eq_resolved_of_get?_outcome {known : Resolution} (h : a.outcome.2.get? a.language = some known) :
    known = a.resolved.1 := by
  rcases a.remembered_cases with ⟨_, hout⟩ | ⟨_, _, hout⟩ | ⟨_, _, hout⟩
  . rw [hout, AvailabilityCache.invalidate, AvailabilityCache.get?_erase_self] at h
    cases h
  . rw [hout, resolved, AvailabilityCache.get?_resolve_self] at h
    exact (Option.some.inj h).symm
  . rw [hout] at h
    rw [resolved, AvailabilityCache.resolve_of_get? _ _ h]

theorem get?_outcome_of_ne {l : Language} (h : l ≠ a.language) : a.outcome.2.get? l = a.cache.get? l := by
  have hresolved : a.resolved.2.get? l = a.cache.get? l :=
    AvailabilityCache.get?_resolve_of_ne _ _ h
  rcases a.remembered_cases with ⟨_, hout⟩ | ⟨_, _, hout⟩ | ⟨_, _, hout⟩
  . rw [hout, AvailabilityCache.invalidate, AvailabilityCache.get?_erase_of_ne h, hresolved]
  . rw [hout, hresolved]
  . rw [hout]

end Memory

/--
A run gives an index exactly if the project is there with what it needs, there is a way to run the analyzer, and the
analyzer starts, ends by itself with success and writes an index in full; the index is then that one, with the warnings
behind its findings. Any other run fails by the first thing in its way. The language's analyzer is forgotten exactly if
it does not start, and nothing else changes what is known of it or of the other languages' analyzers.
-/
theorem index_iff_unhindered (a : Attempt) :
    (∀ index, a.outcome.1 = .ok index ↔
      a.Prepared ∧
      ∃ i r parsed, a.Starts i ∧ a.execute i = .ok r ∧ r.Holds parsed ∧ index = a.indexOf r parsed) ∧
    ((∃ i, a.Starts i) ↔ a.Prepared) ∧
    (∀ f, a.outcome.1 = .error f ↔ ∃ o, Obstacle.First a.Hindered o f) ∧
    (a.outcome.2.get? a.language = none ↔ a.Refused ∨ (¬ a.ProjectReady ∧ a.cache.get? a.language = none)) ∧
    (∀ known, a.outcome.2.get? a.language = some known → known = a.resolved.1) ∧
    (∀ l, l ≠ a.language → a.outcome.2.get? l = a.cache.get? l) ∧
    (a.execute = a.workbench.sandbox.execute a.machine →
      a.workbench.run a.machine a.cache a.manifest = a.outcome) := by
  refine ⟨?_, exists_starts_iff, fun f => outcome_eq_error_iff, get?_outcome_eq_none_iff,
    fun known => eq_resolved_of_get?_outcome, fun l => get?_outcome_of_ne, ?_⟩
  . intro index
    rw [outcome_eq_ok_iff]
    constructor
    . rintro ⟨i, r, parsed, hi, h⟩
      exact ⟨hi.prepared, i, r, parsed, hi, h⟩
    . exact And.right
  . intro hexecute
    rw [Workbench.run, outcome, hexecute]

end Attempt

end ApiSurface
