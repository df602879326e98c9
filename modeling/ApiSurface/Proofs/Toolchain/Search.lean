import Mathlib.Data.List.Forall2
import ApiSurface.Toolchain.Resolver

/-!
This module contains proofs about the search for an analyzer. The possibilities are tried in one order, the first that
answers is taken, and if none does, it is told what was tried, in that order.
-/

namespace ApiSurface

/--
The program that is started to run an analyzer.
-/
def Availability.command? : Availability → Option String
  | program path => some path
  | interpreter path => some path
  | container runtime _ => some runtime
  | unavailable _ => none

namespace Resolver

/--
A program may be started, is started, and ends by itself with some code in the time that a possibility has to answer.
-/
structure Exits (r : Resolver) (m : Machine) (program : String) (arguments : List String) (code : Int) : Prop where
  executable : checkExecutable program = .ok ()
  writable : arguments.all Sandbox.writable.clean = true
  directory : m.files.isDirectory m.directory = true
  ends : ∃ a t e,
    m.start m.files
      { program := program, arguments := arguments, directory := m.directory, environment := m.environment } = .ok a ∧
    a.ending = some (t, e) ∧ t < min r.checkTime Sandbox.longest ∧ Sandbox.codeOf e = code

/--
A possibility to run an analyzer.
-/
inductive Possibility where
  /-- The analyzer's own program. -/
  | program
  /-- The interpreter that the variable names. -/
  | setting (value : String)
  | interpreter (name : String)
  | runtime (name : String)
deriving DecidableEq, Repr

variable (r : Resolver) (m : Machine) (tc : Toolchain)

/--
The possibilities in the order in which they are tried. The variable gives one only if it is set.
-/
def possibilities : List Possibility :=
  .program :: ((m.value? (tc.variableName r.variableStem)).toList.map .setting ++
    (tc.interpreters.map .interpreter ++ r.runtimes.map .runtime))

/--
A possibility answers, and this is the way to run the analyzer that it gives.
-/
inductive Accepts : Possibility → Availability → Prop where
  | program {dir code} : r.host = some dir → m.isFile (Path.join dir tc.program) = true →
      r.Exits m (Path.join dir tc.program) ["--help"] code → code = 0 ∨ code = 1 →
      Accepts .program (.program (Path.join dir tc.program))
  | setting {value} : checkExecutable value = .ok () → r.Exits m value tc.versionArguments 0 →
      Accepts (.setting value) (.interpreter value)
  | interpreter {name path} : m.which? name = some path → r.Exits m path tc.versionArguments 0 →
      Accepts (.interpreter name) (.interpreter path)
  | runtime {name path} : m.which? name = some path → r.Exits m path ["image", "inspect", tc.image] 0 →
      Accepts (.runtime name) (.container path tc.image)

/--
The variable's value cannot be used, and this is the warning.
-/
inductive Ignored (value : String) : String → Prop where
  | executable {e} : checkExecutable value = .error e →
      Ignored value ("Ignoring " ++ tc.variableName r.variableStem ++ ": " ++ e.message)
  | silent : checkExecutable value = .ok () → ¬ r.Exits m value tc.versionArguments 0 →
      Ignored value
        ("Ignoring " ++ tc.variableName r.variableStem ++ ": " ++ value ++ " did not pass the version check")

/--
A possibility cannot be used, and this is what is told of it.
-/
inductive Refuses : Possibility → String → Prop where
  | hostUnknown : r.host = none → Refuses .program "native binary (host directory unknown)"
  | programMissing {dir} : r.host = some dir → m.isFile (Path.join dir tc.program) = false →
      Refuses .program ("native binary " ++ Path.join dir tc.program ++ " (missing)")
  | programFails {dir} : r.host = some dir → m.isFile (Path.join dir tc.program) = true →
      ¬ r.Exits m (Path.join dir tc.program) ["--help"] 0 → ¬ r.Exits m (Path.join dir tc.program) ["--help"] 1 →
      Refuses .program ("native binary " ++ Path.join dir tc.program ++ " (failed --help)")
  | setting {value warning} : Ignored r m tc value warning →
      Refuses (.setting value) ("$" ++ tc.variableName r.variableStem ++ " (" ++ value ++ ")")
  | interpreterMissing {name} : m.which? name = none → Refuses (.interpreter name) (name ++ " (not on PATH)")
  | interpreterFails {name path} : m.which? name = some path → ¬ r.Exits m path tc.versionArguments 0 →
      Refuses (.interpreter name) (path ++ " (failed version check)")
  | runtimeMissing {name} : m.which? name = none → Refuses (.runtime name) (name ++ " (not on PATH)")
  | imageMissing {name path} : m.which? name = some path → ¬ r.Exits m path ["image", "inspect", tc.image] 0 →
      Refuses (.runtime name) (name ++ " image " ++ tc.image ++ " (not present)")

/--
The first of some possibilities that answers gives this way.
-/
def TakesFirst (ps : List Possibility) (way : Availability) : Prop :=
  ∃ before p after, ps = before ++ p :: after ∧ (∀ q ∈ before, ∃ text, Refuses r m tc q text) ∧ Accepts r m tc p way

/--
None of some possibilities can be used, and this is what is told of them.
-/
def RefusesAll (ps : List Possibility) (tried : List String) : Prop :=
  List.Forall₂ (Refuses r m tc) ps tried

variable {r m tc}
variable {p : Possibility} {ps ps' : List Possibility} {way way' : Availability} {text text' : String}
  {tried tried' : List String}

section Probe

variable {program : String} {arguments : List String} {code : Int} {accepted : List Int} {timeout : Option Nat}

theorem start_eq_ok_iff {a : Activity} :
    Sandbox.start m { program := program, arguments := arguments, timeout := timeout } = .ok a ↔
      checkExecutable program = .ok () ∧ arguments.all Sandbox.writable.clean = true ∧
      m.files.isDirectory m.directory = true ∧
      m.start m.files
        { program := program, arguments := arguments, directory := m.directory, environment := m.environment } =
          .ok a := by
  have henvironment :
      m.environment.filter (fun v => !([] : List (String × String)).any (·.1 == v.1)) = m.environment := by
    simp
  unfold Sandbox.start Sandbox.writable
  simp only [henvironment, List.nil_append, List.all_nil, Bool.and_true, Option.getD_none]
  cases checkExecutable program with
  | error e => simp [Except.mapError, bind, Except.bind]
  | ok u =>
    by_cases harguments : arguments.all Sandbox.writable.clean = true
    . by_cases hdirectory : m.files.isDirectory m.directory = true
      . cases hstart : m.start m.files
          { program := program, arguments := arguments, directory := m.directory, environment := m.environment } <;>
        simp [Except.mapError, bind, Except.bind, pure, Except.pure, harguments, hdirectory, hstart]
      . simp [Except.mapError, bind, Except.bind, pure, Except.pure, harguments, hdirectory]
    . simp [Except.mapError, bind, Except.bind, pure, Except.pure, harguments]

/--
A program that is watched has ended by itself with a code exactly if it ended in its time.
-/
theorem watch_ended_iff {a : Activity} {time : Nat} :
    ((Sandbox.watch a time false).1.timedOut = false ∧ (Sandbox.watch a time false).1.cancelled = false ∧
      (Sandbox.watch a time false).1.code = code) ↔
      ∃ t e, a.ending = some (t, e) ∧ t < time ∧ Sandbox.codeOf e = code := by
  simp only [Sandbox.watch, Bool.false_eq_true, if_false]
  split
  next t e hending =>
    split
    next htime => simp [hending, htime]
    next htime => simp [hending, htime]
  next hending => simp [hending]

/--
How an executed program ends is decided by the watch over what it does.
-/
theorem exists_execute_iff {s : Sandbox} {i : Invocation} {P : ProcessExit → Prop} :
    (∃ result, s.execute m i = .ok result ∧ P result.exit) ↔
      ∃ a, Sandbox.start m i = .ok a ∧ P (Sandbox.watch a (s.timeFor i) i.cancelled).1 := by
  unfold Sandbox.execute
  cases Sandbox.start m i with
  | error e => simp [bind, Except.bind]
  | ok a => simp [bind, Except.bind, pure, Except.pure]

theorem exits_iff_execute :
    r.Exits m program arguments code ↔
      ∃ result,
        r.sandbox.execute m { program := program, arguments := arguments, timeout := some r.checkTime } = .ok result ∧
        result.exit.timedOut = false ∧ result.exit.cancelled = false ∧ result.exit.code = code := by
  rw [exists_execute_iff (P := fun exit => exit.timedOut = false ∧ exit.cancelled = false ∧ exit.code = code)]
  simp only [start_eq_ok_iff, Sandbox.timeFor, Option.getD_some, watch_ended_iff]
  constructor
  . rintro ⟨hexecutable, hwritable, hdirectory, a, t, e, hstart, hends⟩
    exact ⟨a, ⟨hexecutable, hwritable, hdirectory, hstart⟩, t, e, hends⟩
  . rintro ⟨a, ⟨hexecutable, hwritable, hdirectory, hstart⟩, t, e, hends⟩
    exact ⟨hexecutable, hwritable, hdirectory, a, t, e, hstart, hends⟩

theorem responds_iff :
    r.responds m program arguments accepted = true ↔ ∃ code ∈ accepted, r.Exits m program arguments code := by
  unfold responds
  simp only [exits_iff_execute]
  cases r.sandbox.execute m { program := program, arguments := arguments, timeout := some r.checkTime } with
  | error e => simp
  | ok result => simp [and_assoc, and_comm]

theorem responds_zero_iff :
    r.responds m program arguments [0] = true ↔ r.Exits m program arguments 0 := by
  simp [responds_iff]

theorem responds_zero_one_iff :
    r.responds m program arguments [0, 1] = true ↔
      r.Exits m program arguments 0 ∨ r.Exits m program arguments 1 := by
  simp [responds_iff]

end Probe

section Attempt

variable (r m tc) in
/--
Try one possibility: the way that it gives, or what is told of it.
-/
def attempt : Possibility → Except String Availability
  | .program => (r.findProgram m tc).map .program
  | .setting value =>
    match r.checkVariable m tc (tc.variableName r.variableStem) value with
    | .ok path => .ok (.interpreter path)
    | .error _ => .error ("$" ++ tc.variableName r.variableStem ++ " (" ++ value ++ ")")
  | .interpreter name => (r.checkInterpreter m tc name).map .interpreter
  | .runtime name => (r.checkRuntime m tc name).map (.container · tc.image)

theorem checkVariable_eq_ok {value : String} (hexecutable : checkExecutable value = .ok ())
    (hexits : r.Exits m value tc.versionArguments 0) (name : String) :
    r.checkVariable m tc name value = .ok value := by
  unfold checkVariable
  rw [hexecutable]
  exact if_pos (responds_zero_iff.mpr hexits)

theorem Ignored.checkVariable_eq {value warning : String} (h : Ignored r m tc value warning) :
    r.checkVariable m tc (tc.variableName r.variableStem) value = .error warning := by
  unfold checkVariable
  cases h with
  | executable herror => rw [herror]
  | silent hexecutable hfails =>
    rw [hexecutable]
    exact if_neg (mt responds_zero_iff.mp hfails)

theorem Accepts.attempt_eq (h : Accepts r m tc p way) : attempt r m tc p = .ok way := by
  cases h with
  | program hhost hfile hexits hcode =>
    have hresponds := responds_zero_one_iff.mpr (hcode.imp (· ▸ hexits) (· ▸ hexits))
    simp [attempt, findProgram, hhost, hfile, hresponds, Except.map]
  | setting hexecutable hexits =>
    rw [attempt, checkVariable_eq_ok hexecutable hexits]
  | interpreter hwhich hexits =>
    simp [attempt, checkInterpreter, hwhich, responds_zero_iff.mpr hexits, Except.map]
  | runtime hwhich hexits =>
    simp [attempt, checkRuntime, hwhich, responds_zero_iff.mpr hexits, Except.map]

theorem Refuses.attempt_eq (h : Refuses r m tc p text) : attempt r m tc p = .error text := by
  cases h with
  | hostUnknown hhost => simp [attempt, findProgram, hhost, Except.map]
  | programMissing hhost hmissing => simp [attempt, findProgram, hhost, hmissing, Except.map]
  | programFails hhost hfile hzero hone =>
    have hresponds := mt responds_zero_one_iff.mp (not_or.mpr ⟨hzero, hone⟩)
    simp [attempt, findProgram, hhost, hfile, hresponds, Except.map]
  | setting hignored => rw [attempt, hignored.checkVariable_eq]
  | interpreterMissing hmissing => simp [attempt, checkInterpreter, hmissing, Except.map]
  | interpreterFails hwhich hfails =>
    simp [attempt, checkInterpreter, hwhich, mt responds_zero_iff.mp hfails, Except.map]
  | runtimeMissing hmissing => simp [attempt, checkRuntime, hmissing, Except.map]
  | imageMissing hwhich hfails =>
    simp [attempt, checkRuntime, hwhich, mt responds_zero_iff.mp hfails, Except.map]

theorem exits_or_ignored (r : Resolver) (m : Machine) (tc : Toolchain) (value : String) :
    (checkExecutable value = .ok () ∧ r.Exits m value tc.versionArguments 0) ∨
      ∃ warning, Ignored r m tc value warning := by
  cases hexecutable : checkExecutable value with
  | error e => exact Or.inr ⟨_, .executable hexecutable⟩
  | ok u =>
    by_cases hexits : r.Exits m value tc.versionArguments 0
    . exact Or.inl ⟨rfl, hexits⟩
    . exact Or.inr ⟨_, .silent hexecutable hexits⟩

theorem accepts_or_refuses (r : Resolver) (m : Machine) (tc : Toolchain) (p : Possibility) :
    (∃ way, Accepts r m tc p way) ∨ ∃ text, Refuses r m tc p text := by
  cases p with
  | program =>
    cases hhost : r.host with
    | none => exact Or.inr ⟨_, .hostUnknown hhost⟩
    | some dir =>
      cases hfile : m.isFile (Path.join dir tc.program) with
      | false => exact Or.inr ⟨_, .programMissing hhost hfile⟩
      | true =>
        by_cases hzero : r.Exits m (Path.join dir tc.program) ["--help"] 0
        . exact Or.inl ⟨_, .program hhost hfile hzero (Or.inl rfl)⟩
        . by_cases hone : r.Exits m (Path.join dir tc.program) ["--help"] 1
          . exact Or.inl ⟨_, .program hhost hfile hone (Or.inr rfl)⟩
          . exact Or.inr ⟨_, .programFails hhost hfile hzero hone⟩
  | setting value =>
    rcases exits_or_ignored r m tc value with ⟨hexecutable, hexits⟩ | ⟨warning, hignored⟩
    . exact Or.inl ⟨_, .setting hexecutable hexits⟩
    . exact Or.inr ⟨_, .setting hignored⟩
  | interpreter name =>
    cases hwhich : m.which? name with
    | none => exact Or.inr ⟨_, .interpreterMissing hwhich⟩
    | some path =>
      by_cases hexits : r.Exits m path tc.versionArguments 0
      . exact Or.inl ⟨_, .interpreter hwhich hexits⟩
      . exact Or.inr ⟨_, .interpreterFails hwhich hexits⟩
  | runtime name =>
    cases hwhich : m.which? name with
    | none => exact Or.inr ⟨_, .runtimeMissing hwhich⟩
    | some path =>
      by_cases hexits : r.Exits m path ["image", "inspect", tc.image] 0
      . exact Or.inl ⟨_, .runtime hwhich hexits⟩
      . exact Or.inr ⟨_, .imageMissing hwhich hexits⟩

theorem attempt_eq_ok_iff : attempt r m tc p = .ok way ↔ Accepts r m tc p way := by
  refine ⟨?_, Accepts.attempt_eq⟩
  intro h
  rcases accepts_or_refuses r m tc p with ⟨way', h'⟩ | ⟨text, h'⟩
  . obtain rfl := Except.ok.inj (h.symm.trans h'.attempt_eq)
    exact h'
  . cases h.symm.trans h'.attempt_eq

theorem attempt_eq_error_iff : attempt r m tc p = .error text ↔ Refuses r m tc p text := by
  refine ⟨?_, Refuses.attempt_eq⟩
  intro h
  rcases accepts_or_refuses r m tc p with ⟨way, h'⟩ | ⟨text', h'⟩
  . cases h.symm.trans h'.attempt_eq
  . obtain rfl := Except.error.inj (h.symm.trans h'.attempt_eq)
    exact h'

theorem Refuses.not_accepts (h : Refuses r m tc p text) : ¬ Accepts r m tc p way := by
  intro h'
  cases h.attempt_eq.symm.trans h'.attempt_eq

theorem Accepts.way_eq (h : Accepts r m tc p way) (h' : Accepts r m tc p way') : way = way' :=
  Except.ok.inj (h.attempt_eq.symm.trans h'.attempt_eq)

theorem Refuses.text_eq (h : Refuses r m tc p text) (h' : Refuses r m tc p text') : text = text' :=
  Except.error.inj (h.attempt_eq.symm.trans h'.attempt_eq)

end Attempt

section Order

theorem Accepts.takesFirst (h : Accepts r m tc p way) (ps : List Possibility) : TakesFirst r m tc (p :: ps) way :=
  ⟨[], p, ps, rfl, by simp, h⟩

theorem TakesFirst.append (h : TakesFirst r m tc ps way) (ps' : List Possibility) :
    TakesFirst r m tc (ps ++ ps') way := by
  obtain ⟨before, p, after, rfl, hbefore, haccepts⟩ := h
  exact ⟨before, p, after ++ ps', by simp, hbefore, haccepts⟩

theorem RefusesAll.exists_of_mem (h : RefusesAll r m tc ps tried) (hp : p ∈ ps) :
    ∃ text, Refuses r m tc p text := by
  induction h with
  | nil => cases hp
  | cons hrefuses _ ih =>
    rcases List.mem_cons.mp hp with rfl | hp
    . exact ⟨_, hrefuses⟩
    . exact ih hp

theorem RefusesAll.takesFirst_append (h : RefusesAll r m tc ps tried) (h' : TakesFirst r m tc ps' way) :
    TakesFirst r m tc (ps ++ ps') way := by
  obtain ⟨before, p, after, rfl, hbefore, haccepts⟩ := h'
  refine ⟨ps ++ before, p, after, by simp, ?_, haccepts⟩
  intro q hq
  rcases List.mem_append.mp hq with hq | hq
  . exact h.exists_of_mem hq
  . exact hbefore q hq

theorem RefusesAll.append (h : RefusesAll r m tc ps tried) (h' : RefusesAll r m tc ps' tried') :
    RefusesAll r m tc (ps ++ ps') (tried ++ tried') :=
  List.rel_append h h'

theorem RefusesAll.not_takesFirst (h : RefusesAll r m tc ps tried) : ¬ TakesFirst r m tc ps way := by
  rintro ⟨before, p, after, rfl, -, haccepts⟩
  obtain ⟨text, hrefuses⟩ := h.exists_of_mem (List.mem_append_right before List.mem_cons_self)
  exact hrefuses.not_accepts haccepts

theorem RefusesAll.tried_eq (h : RefusesAll r m tc ps tried) (h' : RefusesAll r m tc ps tried') : tried = tried' := by
  induction h generalizing tried' with
  | nil =>
    cases h'
    rfl
  | cons hrefuses _ ih =>
    obtain - | ⟨hrefuses', h'⟩ := h'
    rw [hrefuses.text_eq hrefuses', ih h']

theorem takesFirst_cons_iff :
    TakesFirst r m tc (p :: ps) way ↔
      Accepts r m tc p way ∨ (∃ text, Refuses r m tc p text) ∧ TakesFirst r m tc ps way := by
  constructor
  . rintro ⟨before, q, after, heq, hbefore, haccepts⟩
    cases before with
    | nil =>
      obtain ⟨rfl, -⟩ := List.cons.inj heq
      exact Or.inl haccepts
    | cons q' before =>
      obtain ⟨rfl, rfl⟩ := List.cons.inj heq
      refine Or.inr ⟨hbefore p List.mem_cons_self, before, q, after, rfl, ?_, haccepts⟩
      intro q' hq'
      exact hbefore q' (List.mem_cons_of_mem p hq')
  . rintro (haccepts | ⟨⟨text, hrefuses⟩, htakes⟩)
    . exact haccepts.takesFirst ps
    . exact RefusesAll.takesFirst_append (.cons hrefuses .nil) htakes

theorem takesFirst_append_iff :
    TakesFirst r m tc (ps ++ ps') way ↔
      TakesFirst r m tc ps way ∨ (∀ p ∈ ps, ∃ text, Refuses r m tc p text) ∧ TakesFirst r m tc ps' way := by
  induction ps with
  | nil =>
    have hnil : ¬ TakesFirst r m tc [] way := by
      rintro ⟨before, p, after, heq, -⟩
      simp at heq
    simp [hnil]
  | cons p ps ih => 
    rw [List.cons_append, takesFirst_cons_iff, takesFirst_cons_iff, ih, List.forall_mem_cons]
    tauto

theorem TakesFirst.exists_accepts (h : TakesFirst r m tc ps way) : ∃ p ∈ ps, Accepts r m tc p way := by
  obtain ⟨before, p, after, rfl, -, haccepts⟩ := h
  exact ⟨p, List.mem_append_right before List.mem_cons_self, haccepts⟩

theorem TakesFirst.way_eq (h : TakesFirst r m tc ps way) (h' : TakesFirst r m tc ps way') : way = way' := by
  induction ps with
  | nil =>
    obtain ⟨before, p, after, heq, -⟩ := h
    simp at heq
  | cons p ps ih =>
    rw [takesFirst_cons_iff] at h h'
    rcases h with haccepts | ⟨⟨text, hrefuses⟩, htakes⟩
    . rcases h' with haccepts' | ⟨⟨text, hrefuses⟩, -⟩
      . exact haccepts.way_eq haccepts'
      . exact absurd haccepts hrefuses.not_accepts
    . rcases h' with haccepts' | ⟨-, htakes'⟩
      . exact absurd haccepts' hrefuses.not_accepts
      . exact ih htakes htakes'

end Order

section Search

/--
What a list of names gives that are checked one after the other.
-/
theorem firstOf_cases {check : String → Except String String} {make : String → Possibility}
    {give : String → Availability} (h : ∀ name, attempt r m tc (make name) = (check name).map give)
    (names : List String) :
    (∃ path, firstOf check names = .ok path ∧ TakesFirst r m tc (names.map make) (give path)) ∨
      ∃ tried, firstOf check names = .error tried ∧ RefusesAll r m tc (names.map make) tried := by
  induction names with
  | nil => exact Or.inr ⟨[], rfl, .nil⟩
  | cons name names ih =>
    cases hcheck : check name with
    | ok path =>
      have haccepts : Accepts r m tc (make name) (give path) := by
        rw [← attempt_eq_ok_iff, h, hcheck, Except.map]
      refine Or.inl ⟨path, ?_, haccepts.takesFirst _⟩
      rw [firstOf, hcheck]
    | error e =>
      have hrefuses : Refuses r m tc (make name) e := by
        rw [← attempt_eq_error_iff, h, hcheck, Except.map]
      have hone : RefusesAll r m tc [make name] [e] := .cons hrefuses .nil
      rcases ih with ⟨path, hfirst, htakes⟩ | ⟨tried, hfirst, hall⟩
      . refine Or.inl ⟨path, ?_, hone.takesFirst_append htakes⟩
        rw [firstOf, hcheck, hfirst]
      . refine Or.inr ⟨e :: tried, ?_, hone.append hall⟩
        rw [firstOf, hcheck, hfirst]

/--
The availability that a search gives over some possibilities.
-/
def Gives (r : Resolver) (m : Machine) (tc : Toolchain) (ps : List Possibility) (way : Availability) : Prop :=
  TakesFirst r m tc ps way ∨ ∃ tried, RefusesAll r m tc ps tried ∧ way = .unavailable (notFound tc tried)

theorem gives_resolveFurther (h : RefusesAll r m tc ps tried) (warning : Option String) :
    Gives r m tc (ps ++ (tc.interpreters.map .interpreter ++ r.runtimes.map .runtime))
      (r.resolveFurther m tc tried warning).availability := by
  have hinterpreter : ∀ name,
      attempt r m tc (.interpreter name) = (r.checkInterpreter m tc name).map .interpreter := fun _ => rfl
  have hruntime : ∀ name,
      attempt r m tc (.runtime name) = (r.checkRuntime m tc name).map (.container · tc.image) := fun _ => rfl
  unfold resolveFurther
  rcases firstOf_cases hinterpreter tc.interpreters with ⟨path, hfirst, htakes⟩ | ⟨tried', hfirst, hall⟩
  . rw [hfirst]
    exact Or.inl (h.takesFirst_append (htakes.append _))
  . rw [hfirst]
    rcases firstOf_cases hruntime r.runtimes with ⟨path, hlater, htakes⟩ | ⟨tried'', hlater, hall'⟩
    . rw [hlater]
      exact Or.inl (h.takesFirst_append (hall.takesFirst_append htakes))
    . rw [hlater]
      refine Or.inr ⟨tried ++ (tried' ++ tried''), h.append (hall.append hall'), ?_⟩
      rw [← List.append_assoc]

theorem gives_resolve (r : Resolver) (m : Machine) (tc : Toolchain) :
    Gives r m tc (r.possibilities m tc) (r.resolve m tc).availability := by
  unfold resolve possibilities
  cases hprogram : r.findProgram m tc with
  | ok path =>
    have haccepts : Accepts r m tc .program (.program path) := by
      rw [← attempt_eq_ok_iff, attempt, hprogram, Except.map]
    exact Or.inl (haccepts.takesFirst _)
  | error e =>
    have hrefuses : Refuses r m tc .program e := by
      rw [← attempt_eq_error_iff, attempt, hprogram, Except.map]
    have hone : RefusesAll r m tc [.program] [e] := .cons hrefuses .nil
    dsimp only
    cases hvalue : m.value? (tc.variableName r.variableStem) with
    | none => exact gives_resolveFurther hone none
    | some value =>
      dsimp only
      cases hcheck : r.checkVariable m tc (tc.variableName r.variableStem) value with
      | ok path =>
        have haccepts : Accepts r m tc (.setting value) (.interpreter path) := by
          rw [← attempt_eq_ok_iff, attempt, hcheck]
        exact Or.inl (hone.takesFirst_append (haccepts.takesFirst _))
      | error warning =>
        have hsetting :
            Refuses r m tc (.setting value) ("$" ++ tc.variableName r.variableStem ++ " (" ++ value ++ ")") := by
          rw [← attempt_eq_error_iff, attempt, hcheck]
        -- the search goes on as without the variable, but with one more refusal and a warning
        exact gives_resolveFurther (hone.append (.cons hsetting .nil)) (some warning)

theorem Accepts.isAvailable (h : Accepts r m tc p way) : way.isAvailable = true := by
  cases h <;> rfl

theorem availability_eq_iff (h : way.isAvailable = true) :
    (r.resolve m tc).availability = way ↔ TakesFirst r m tc (r.possibilities m tc) way := by
  have hgives := gives_resolve r m tc
  constructor
  . rintro rfl
    rcases hgives with htakes | ⟨tried, -, hway⟩
    . exact htakes
    . rw [hway] at h
      cases h
  . intro htakes
    rcases hgives with htakes' | ⟨tried, hall, -⟩
    . exact htakes'.way_eq htakes
    . exact absurd htakes hall.not_takesFirst

theorem availability_eq_unavailable_iff {reason : String} :
    (r.resolve m tc).availability = .unavailable reason ↔
      ∃ tried, RefusesAll r m tc (r.possibilities m tc) tried ∧ reason = notFound tc tried := by
  constructor
  . intro h
    rcases gives_resolve r m tc with htakes | ⟨tried, hall, hway⟩
    . obtain ⟨p, -, haccepts⟩ := htakes.exists_accepts
      rw [h] at haccepts
      cases haccepts.isAvailable
    . exact ⟨tried, hall, Availability.unavailable.inj (h.symm.trans hway)⟩
  . rintro ⟨tried, hall, rfl⟩
    rcases gives_resolve r m tc with htakes | ⟨tried', hall', hway⟩
    . exact absurd htakes hall.not_takesFirst
    . rw [hway, hall.tried_eq hall']

theorem takesFirst_settings_iff {value? : Option String} :
    TakesFirst r m tc (value?.toList.map .setting) way ↔
      ∃ value, value? = some value ∧ Accepts r m tc (.setting value) way := by
  cases value? with
  | none =>
    constructor
    . intro h
      obtain ⟨p, hp, -⟩ := h.exists_accepts
      cases hp
    . rintro ⟨value, hvalue, -⟩
      cases hvalue
  | some value =>
    constructor
    . intro h
      obtain ⟨p, hp, haccepts⟩ := h.exists_accepts
      obtain rfl := List.mem_singleton.mp hp
      exact ⟨value, rfl, haccepts⟩
    . rintro ⟨value', hvalue, haccepts⟩
      obtain rfl := Option.some.inj hvalue
      exact haccepts.takesFirst []

theorem forall_settings_iff {value? : Option String} :
    (∀ p ∈ value?.toList.map Possibility.setting, ∃ text, Refuses r m tc p text) ↔
      ∀ value, value? = some value → ∃ warning, Ignored r m tc value warning := by
  cases value? with
  | none => simp
  | some value =>
    have hiff : (∃ text, Refuses r m tc (.setting value) text) ↔ ∃ warning, Ignored r m tc value warning := by
      constructor
      . rintro ⟨text, hrefuses⟩
        cases hrefuses with
        | setting hignored => exact ⟨_, hignored⟩
      . rintro ⟨warning, hignored⟩
        exact ⟨_, .setting hignored⟩
    simp [hiff]

theorem possibilities_takesFirst_iff :
    TakesFirst r m tc (r.possibilities m tc) way ↔
      Accepts r m tc .program way ∨
      (∃ text, Refuses r m tc .program text) ∧
        ((∃ value, m.value? (tc.variableName r.variableStem) = some value ∧ Accepts r m tc (.setting value) way) ∨
        (∀ value, m.value? (tc.variableName r.variableStem) = some value → ∃ warning, Ignored r m tc value warning) ∧
          (TakesFirst r m tc (tc.interpreters.map .interpreter) way ∨
          (∀ name ∈ tc.interpreters, ∃ text, Refuses r m tc (.interpreter name) text) ∧
            TakesFirst r m tc (r.runtimes.map .runtime) way)) := by
  rw [possibilities, takesFirst_cons_iff, takesFirst_append_iff, takesFirst_append_iff, takesFirst_settings_iff,
    forall_settings_iff, List.forall_mem_map]

theorem TakesFirst.eq_interpreter (h : TakesFirst r m tc (tc.interpreters.map .interpreter) way) :
    ∃ path, way = .interpreter path := by
  obtain ⟨p, hp, haccepts⟩ := h.exists_accepts
  obtain ⟨name, -, rfl⟩ := List.mem_map.mp hp
  cases haccepts
  exact ⟨_, rfl⟩

theorem TakesFirst.eq_container (h : TakesFirst r m tc (r.runtimes.map .runtime) way) :
    ∃ runtime, way = .container runtime tc.image := by
  obtain ⟨p, hp, haccepts⟩ := h.exists_accepts
  obtain ⟨name, -, rfl⟩ := List.mem_map.mp hp
  cases haccepts
  exact ⟨_, rfl⟩

theorem availability_eq_program_iff {path : String} :
    (r.resolve m tc).availability = .program path ↔ Accepts r m tc .program (.program path) := by
  rw [availability_eq_iff rfl, possibilities_takesFirst_iff]
  constructor
  . rintro (haccepts | ⟨-, ⟨value, -, haccepts⟩ | ⟨-, htakes | ⟨-, htakes⟩⟩⟩)
    . exact haccepts
    . cases haccepts
    . obtain ⟨_, hway⟩ := htakes.eq_interpreter
      cases hway
    . obtain ⟨_, hway⟩ := htakes.eq_container
      cases hway
  . exact Or.inl

theorem availability_eq_interpreter_iff {path : String} :
    (r.resolve m tc).availability = .interpreter path ↔
      (∃ text, Refuses r m tc .program text) ∧
        ((∃ value, m.value? (tc.variableName r.variableStem) = some value ∧
            Accepts r m tc (.setting value) (.interpreter path)) ∨
          (∀ value, m.value? (tc.variableName r.variableStem) = some value →
            ∃ warning, Ignored r m tc value warning) ∧
          TakesFirst r m tc (tc.interpreters.map .interpreter) (.interpreter path)) := by
  rw [availability_eq_iff rfl, possibilities_takesFirst_iff]
  constructor
  . rintro (haccepts | ⟨hprogram, hsetting | ⟨hsettings, htakes | ⟨-, htakes⟩⟩⟩)
    . cases haccepts
    . exact ⟨hprogram, Or.inl hsetting⟩
    . exact ⟨hprogram, Or.inr ⟨hsettings, htakes⟩⟩
    . obtain ⟨_, hway⟩ := htakes.eq_container
      cases hway
  . rintro ⟨hprogram, hsetting | ⟨hsettings, htakes⟩⟩
    . exact Or.inr ⟨hprogram, Or.inl hsetting⟩
    . exact Or.inr ⟨hprogram, Or.inr ⟨hsettings, Or.inl htakes⟩⟩

theorem availability_eq_container_iff {runtime image : String} :
    (r.resolve m tc).availability = .container runtime image ↔
      (∃ text, Refuses r m tc .program text) ∧
      (∀ value, m.value? (tc.variableName r.variableStem) = some value → ∃ warning, Ignored r m tc value warning) ∧
      (∀ name ∈ tc.interpreters, ∃ text, Refuses r m tc (.interpreter name) text) ∧
      TakesFirst r m tc (r.runtimes.map .runtime) (.container runtime image) := by
  rw [availability_eq_iff rfl, possibilities_takesFirst_iff]
  constructor
  . rintro (haccepts | ⟨hprogram, ⟨value, -, haccepts⟩ | ⟨hsettings, htakes | htakes⟩⟩)
    . cases haccepts
    . cases haccepts
    . obtain ⟨_, hway⟩ := htakes.eq_interpreter
      cases hway
    . exact ⟨hprogram, hsettings, htakes⟩
  . rintro ⟨hprogram, hsettings, htakes⟩
    exact Or.inr ⟨hprogram, Or.inr ⟨hsettings, Or.inr htakes⟩⟩

end Search

section Warning

theorem warning_resolveFurther (tried : List String) (warning : Option String) :
    (r.resolveFurther m tc tried warning).warning = warning := by
  unfold resolveFurther
  split
  next => rfl
  next =>
    split
    next => rfl
    next => rfl

theorem checkVariable_eq_error_iff {value warning : String} :
    r.checkVariable m tc (tc.variableName r.variableStem) value = .error warning ↔ Ignored r m tc value warning := by
  refine ⟨?_, Ignored.checkVariable_eq⟩
  intro h
  rcases exits_or_ignored r m tc value with ⟨hexecutable, hexits⟩ | ⟨warning', hignored⟩
  . cases h.symm.trans (checkVariable_eq_ok hexecutable hexits _)
  . obtain rfl := Except.error.inj (h.symm.trans hignored.checkVariable_eq)
    exact hignored

theorem findProgram_eq_error_iff : r.findProgram m tc = .error text ↔ Refuses r m tc .program text := by
  rw [← attempt_eq_error_iff, attempt]
  cases r.findProgram m tc <;> simp [Except.map]

theorem warning_eq_some_iff {warning : String} :
    (r.resolve m tc).warning = some warning ↔
      (∃ text, Refuses r m tc .program text) ∧
      ∃ value, m.value? (tc.variableName r.variableStem) = some value ∧ Ignored r m tc value warning := by
  simp only [← findProgram_eq_error_iff, ← checkVariable_eq_error_iff]
  unfold resolve
  cases r.findProgram m tc with
  | ok path => simp
  | error e =>
    dsimp only
    cases m.value? (tc.variableName r.variableStem) with
    | none => simp [warning_resolveFurther]
    | some value =>
      dsimp only
      cases hcheck : r.checkVariable m tc (tc.variableName r.variableStem) value with
      | ok path => simp [hcheck]
      | error warning' => simp [hcheck, warning_resolveFurther]

end Warning

theorem Accepts.exits (h : Accepts r m tc p way) {command : String} (hcommand : way.command? = some command) :
    ∃ arguments, r.Exits m command arguments 0 ∨ r.Exits m command arguments 1 ∧ way = .program command := by
  cases h with
  | program _ _ hexits hcode =>
    obtain rfl := Option.some.inj hcommand
    rcases hcode with rfl | rfl
    . exact ⟨_, Or.inl hexits⟩
    . exact ⟨_, Or.inr ⟨hexits, rfl⟩⟩
  | setting _ hexits =>
    obtain rfl := Option.some.inj hcommand
    exact ⟨_, Or.inl hexits⟩
  | interpreter _ hexits =>
    obtain rfl := Option.some.inj hcommand
    exact ⟨_, Or.inl hexits⟩
  | runtime _ hexits =>
    obtain rfl := Option.some.inj hcommand
    exact ⟨_, Or.inl hexits⟩

/--
A search takes the analyzer's own program exactly if it is there and answers; else the interpreter that the variable
names if that one answers, and else the first of the listed interpreters that does; else the first container runtime
that has the image; and else nothing, with all that was tried, in the order of the search. It warns exactly if the
analyzer's own program was not taken and the variable names an interpreter that cannot be used. Whatever program it
gives was started and ended by itself, in time, with a code that is accepted.
-/
theorem resolve_takes_first_that_answers (r : Resolver) (m : Machine) (tc : Toolchain) :
    (∀ path, (r.resolve m tc).availability = .program path ↔ Accepts r m tc .program (.program path)) ∧
    (∀ path, (r.resolve m tc).availability = .interpreter path ↔
      (∃ text, Refuses r m tc .program text) ∧
        ((∃ value, m.value? (tc.variableName r.variableStem) = some value ∧
            Accepts r m tc (.setting value) (.interpreter path)) ∨
          (∀ value, m.value? (tc.variableName r.variableStem) = some value →
            ∃ warning, Ignored r m tc value warning) ∧
          TakesFirst r m tc (tc.interpreters.map .interpreter) (.interpreter path))) ∧
    (∀ runtime image, (r.resolve m tc).availability = .container runtime image ↔
      (∃ text, Refuses r m tc .program text) ∧
      (∀ value, m.value? (tc.variableName r.variableStem) = some value → ∃ warning, Ignored r m tc value warning) ∧
      (∀ name ∈ tc.interpreters, ∃ text, Refuses r m tc (.interpreter name) text) ∧
      TakesFirst r m tc (r.runtimes.map .runtime) (.container runtime image)) ∧
    (∀ reason, (r.resolve m tc).availability = .unavailable reason ↔
      ∃ tried, RefusesAll r m tc (r.possibilities m tc) tried ∧
        reason = "No " ++ tc.language.name ++ " analyzer toolchain found. Tried: " ++ "; ".intercalate tried ++ ". "
          ++ tc.hint) ∧
    (∀ warning, (r.resolve m tc).warning = some warning ↔
      (∃ text, Refuses r m tc .program text) ∧
      ∃ value, m.value? (tc.variableName r.variableStem) = some value ∧ Ignored r m tc value warning) ∧
    (∀ command, (r.resolve m tc).availability.command? = some command →
      ∃ arguments, r.Exits m command arguments 0 ∨
        r.Exits m command arguments 1 ∧ (r.resolve m tc).availability = .program command) := by
  refine ⟨fun path => availability_eq_program_iff, fun path => availability_eq_interpreter_iff,
    fun runtime image => availability_eq_container_iff, fun reason => availability_eq_unavailable_iff,
    fun warning => warning_eq_some_iff, ?_⟩
  intro command hcommand
  rcases gives_resolve r m tc with htakes | ⟨tried, -, hway⟩
  . obtain ⟨p, -, haccepts⟩ := htakes.exists_accepts
    exact haccepts.exits hcommand
  . rw [hway] at hcommand
    cases hcommand

end Resolver
end ApiSurface
