import ApiSurface.Fingerprint
import ApiSurface.Proofs.Extraction.Inputs

/-!
This module contains when an index may be used again. Where the sources of a language agree, so do the fingerprints;
but an index also tells what the files that describe the project say, and no fingerprint looks at those. Where they
agree as well, an extraction has the same result.
-/

namespace ApiSurface

variable {s t : FileTree} {root : Path}

namespace Extractor

variable {x : Extractor σ} {relative : Path}

theorem hasExtension_of_wants (h : x.wants relative = true) :
    Fingerprint.hasExtension x.language.extensions relative = true := by
  have hlower : ∀ l : Language, ∀ e ∈ l.extensions,
      (l.extensions.map (fun w => (Text.dropStarts "." w).toLower)).contains e.toLower = true := by
    intro l
    cases l <;> decide +kernel
  unfold wants at h
  rw [Bool.and_eq_true, Bool.and_eq_true, Option.any_eq_true] at h
  obtain ⟨⟨⟨e, he, hmem⟩, -⟩, -⟩ := h
  unfold Fingerprint.hasExtension
  rw [Option.any_eq_true]
  exact ⟨e, he, hlower _ e (List.contains_iff_mem.mp hmem)⟩

end Extractor

namespace Language

/--
Two states of a directory have the same source files of a language: with the same contents, changed at the same times.
-/
def SameSources (l : Language) (s t : FileTree) (root : Path) (excludes : List Pattern) : Prop :=
  ∀ relative, isReached excludes relative = true → Fingerprint.hasExtension l.extensions relative = true →
    (s.file? (root ++ relative)).map (fun f => (f.content, f.modified))
      = (t.file? (root ++ relative)).map (fun f => (f.content, f.modified))

/--
The names of the files that describe a project.
-/
def manifests : Language → List String
  | python => ["pyproject.toml"]
  | go => ["go.mod"]
  | java => ["pom.xml", "settings.gradle", "settings.gradle.kts"]

/--
Two states of a directory describe the same project. For Python that takes in whatever is named like a package file,
since one that is no source may still name the package, and what the name leads to, which may lie outside of the
project.
-/
structure SameConfiguration (l : Language) (s t : FileTree) (root : Path) : Prop where
  manifests : ∀ name ∈ l.manifests, s.sight (root ++ [name]) = t.sight (root ++ [name])
  packages : l = python → ∀ relative, (root ++ relative).fileName = Python.initFile →
    s.sight (root ++ relative) = t.sight (root ++ relative)
  main : l = python → ∀ given version, Python.readProjectFile s root = .ok (given, version) →
    ∀ text ∈ Python.mainTexts (Python.packageName s root given), s.sightFrom root text = t.sightFrom root text

end Language

theorem Fingerprint.stamps_eq {l : Language} {excludes : List Pattern} (hs : s.WellFormed) (ht : t.WellFormed)
    (hsources : l.SameSources s t root excludes) :
    stamps s root l.extensions excludes = stamps t root l.extensions excludes := by
  have hstamps : ∀ u : FileTree, stamps u root l.extensions excludes
      = (((u.walk root excludes).filter (fun e => hasExtension l.extensions e.1)).map
          (fun e => (e.1, (e.2.content, e.2.modified)))).map
        (fun e => Stamp.ofFile e.1 { content := e.2.1, modified := e.2.2 }) := by
    intro u
    rw [List.map_map]
    rfl
  -- A stamp does not tell whether the file may be executed.
  rw [hstamps, hstamps]
  congr 1
  apply FileTree.map_filter_walk_eq hs ht _ (fun f => (f.content, f.modified))
  exact hsources

section Directory

variable {cwd : Path} {target : String} {excludes : List String}
  (hs : s.WellFormed) (hsroot : s.root cwd target = .ok root) (hsdir : s.isDirectory root = true)
  (ht : t.WellFormed) (htroot : t.root cwd target = .ok root) (htdir : t.isDirectory root = true)

theorem FileTree.locate_of_root (h : t.root cwd target = .ok root) : t.locate cwd target = .ok root := by
  unfold FileTree.root at h
  split at h
  . simp at h
  . split at h
    . simp at h
    . split at h
      . simp at h
      . cases hlocate : t.locate cwd target with
        | error e => simp [hlocate, Except.mapError] at h
        | ok p => simpa [hlocate, Except.mapError] using h

include hs hsroot hsdir ht htroot htdir

theorem Fingerprint.compute_eq {l : Language} (hsources : l.SameSources s t root (patternsOf excludes)) :
    compute s cwd target l.extensions excludes = compute t cwd target l.extensions excludes := by
  have hstamps := stamps_eq hs ht hsources
  unfold compute
  rw [FileTree.locate_of_root hsroot, FileTree.locate_of_root htroot]
  dsimp only
  rw [if_pos hsdir, if_pos htdir, hstamps]

theorem Extractor.run_eq_of_load_eq {x : Extractor σ}
    (hsources : x.language.SameSources s t root (patternsOf excludes)) (hload : x.load s root = x.load t root)
    (orders : Orders) (cancelled : Bool) :
    x.run orders s cwd excludes cancelled target = x.run orders t cwd excludes cancelled target := by
  have hfiles : (x.discover s root (patternsOf excludes)).map (fun e => (e.1, e.2.content))
      = (x.discover t root (patternsOf excludes)).map (fun e => (e.1, e.2.content)) := by
    apply FileTree.map_filter_walk_eq hs ht x.wants File.content
    intro relative hreached hwanted
    have hfile := congrArg (Option.map Prod.fst) (hsources relative hreached (x.hasExtension_of_wants hwanted))
    rw [Option.map_map, Option.map_map] at hfile
    exact hfile
  rw [run_eq hsroot hsdir, run_eq htroot htdir, hload, conclude_congr hfiles]

theorem Language.extractIn_eq {l : Language} (hsources : l.SameSources s t root (patternsOf excludes))
    (hconfiguration : l.SameConfiguration s t root) (orders : Orders) (cancelled : Bool) :
    l.extractIn orders s cwd excludes cancelled target = l.extractIn orders t cwd excludes cancelled target := by
  cases l with
  | python =>
    apply Extractor.run_eq_of_load_eq hs hsroot hsdir ht htroot htdir hsources
    apply Python.load_eq hs ht
    . exact hconfiguration.manifests "pyproject.toml" (List.mem_singleton_self _)
    . exact hconfiguration.packages rfl
    . exact hconfiguration.main rfl
  | go =>
    apply Extractor.run_eq_of_load_eq hs hsroot hsdir ht htroot htdir hsources
    exact Go.loadModule_eq (hconfiguration.manifests "go.mod" (List.mem_singleton_self _))
  | java =>
    apply Extractor.run_eq_of_load_eq hs hsroot hsdir ht htroot htdir hsources
    exact Java.loadProject_eq hconfiguration.manifests

theorem Language.compute_eq_and_extract_eq (l : Language)
    (hsources : l.SameSources s t root (patternsOf excludes)) :
    Fingerprint.compute s cwd target l.extensions excludes = Fingerprint.compute t cwd target l.extensions excludes ∧
      (l.SameConfiguration s t root → ∀ orders cancelled,
        l.extractIn orders s cwd excludes cancelled target = l.extractIn orders t cwd excludes cancelled target) :=
  ⟨Fingerprint.compute_eq hs hsroot hsdir ht htroot htdir hsources,
    Language.extractIn_eq hs hsroot hsdir ht htroot htdir hsources⟩

end Directory

namespace Parcel

/--
A package with one class, a description of the project, and notes.
-/
def project (description notes : String) : FileTree where
  files := [
    (["parcel", "pyproject.toml"], { content := description.toUTF8 }),
    (["parcel", "notes.md"], { content := notes.toUTF8 }),
    (["parcel", "parcel", "__init__.py"], { content := "class Client:\n    pass\n".toUTF8 })]
  directories := [[], ["parcel"], ["parcel", "parcel"]]

/--
The description of the project at a version.
-/
def description (version : String) : String :=
  "[project]\nname = \"parcel\"\nversion = \"" ++ version ++ "\"\n"

theorem wellFormed_project (description notes : String) : (project description notes).WellFormed where
  distinct := by
    simp only [project, List.map_cons, List.map_nil]
    decide
  named := by
    intro e he
    have hpath : e.1 ∈ [["parcel", "pyproject.toml"], ["parcel", "notes.md"], ["parcel", "parcel", "__init__.py"]] :=
      List.mem_map_of_mem (f := Prod.fst) he
    unfold Path.Proper
    revert hpath
    generalize e.1 = p
    revert p
    decide

theorem root_project (description notes : String) : (project description notes).root [] "/parcel" = .ok ["parcel"] := by
  have hnames : Path.names "/parcel" = ["parcel"] := by decide +kernel
  have hgoesUp : Path.goesUp "/parcel" = false := by decide +kernel
  have habsolute : Path.isAbsolute "/parcel" = true := by decide +kernel
  have hslash : "/parcel".endsWith "/" = false := by decide +kernel
  unfold FileTree.root FileTree.locate
  rw [hgoesUp, hnames, habsolute, hslash]
  rfl

theorem sameSources_project (description notes description' notes' : String) (excludes : List Pattern) :
    Language.python.SameSources (project description notes) (project description' notes') ["parcel"] excludes := by
  intro relative _ hextension
  have hother : ∀ name ∈ ["pyproject.toml", "notes.md"],
      Fingerprint.hasExtension Language.python.extensions [name] = false := by
    decide +kernel
  have hne : ∀ name ∈ ["pyproject.toml", "notes.md"], ["parcel", name] ≠ ["parcel"] ++ relative := by
    intro name hname heq
    obtain rfl : [name] = relative := (List.cons.inj heq).2
    simp [hother name hname] at hextension
  have hdescription := hne "pyproject.toml" (by simp)
  have hnotes := hne "notes.md" (by simp)
  simp only [FileTree.file?, project, List.find?_cons, beq_eq_false_iff_ne.mpr hdescription,
    beq_eq_false_iff_ne.mpr hnotes]

theorem sight_project {description notes notes' : String} {p : Path} (h : p ≠ ["parcel", "notes.md"]) :
    (project description notes).sight p = (project description notes').sight p := by
  simp only [FileTree.sight, FileTree.file?, FileTree.isDirectory, project, List.find?_cons,
    beq_eq_false_iff_ne.mpr h.symm]
  rfl

theorem sameConfiguration_project :
    Language.python.SameConfiguration (project (description "1.0") "") (project (description "1.0") "Ready.")
      ["parcel"] where
  manifests := by
    intro name hname
    obtain rfl := List.mem_singleton.mp hname
    exact sight_project (by decide)
  packages := by
    intro _ relative hname
    apply sight_project
    intro heq
    rw [heq] at hname
    exact absurd hname (by decide)
  main := by
    intro _ given version hread text htext
    have hname : given = some "parcel" := by
      have hfile : (Python.readProjectFile (project (description "1.0") "") ["parcel"]).toOption
          = some (some "parcel", some "1.0") := by
        decide +kernel
      rw [hread] at hfile
      exact congrArg Prod.fst (Option.some.inj hfile)
    have hlocate : ∀ text ∈ Python.mainTexts "parcel",
        ((project (description "1.0") "").locate ["parcel"] text).toOption
            = ((project (description "1.0") "Ready.").locate ["parcel"] text).toOption ∧
          ((project (description "1.0") "Ready.").locate ["parcel"] text).toOption ≠ some ["parcel", "notes.md"] := by
      decide +kernel
    subst hname
    obtain ⟨hsame, hother⟩ := hlocate text htext
    unfold FileTree.sightFrom
    rw [hsame]
    apply Option.map_congr
    intro p hp
    rw [sight_project (fun heq => hother (heq ▸ hp))]

theorem mem_discover_project {description notes : String} {excludes : List Pattern} {e : Path × File}
    (he : e ∈ Python.extractor.discover (project description notes) ["parcel"] excludes) :
    e = (["parcel", "__init__.py"], { content := "class Client:\n    pass\n".toUTF8 }) := by
  have hother : ∀ name ∈ ["pyproject.toml", "notes.md"], Python.extractor.wants [name] = false := by
    decide +kernel
  unfold Extractor.discover at he
  rw [List.mem_filter, FileTree.mem_walk] at he
  obtain ⟨⟨-, -, hmem⟩, hwanted⟩ := he
  obtain ⟨relative, f⟩ := e
  simp only [project, List.cons_append, List.nil_append, List.mem_cons, Prod.mk.injEq, List.cons.injEq, true_and,
    List.not_mem_nil, or_false] at hmem
  obtain ⟨rfl, -⟩ | ⟨rfl, -⟩ | ⟨rfl, rfl⟩ := hmem
  . simp [hother "pyproject.toml"] at hwanted
  . simp [hother "notes.md"] at hwanted
  . rfl

theorem extract_project {description notes : String} {project' : Python.Project}
    (hload : Python.Project.load (project description notes) ["parcel"] = .ok project') (orders : Orders) :
    ∃ i, Language.python.extractIn orders (project description notes) [] [] false "/parcel" = .ok i ∧
      i.version = project'.info.version := by
  have hsource : (["parcel", "__init__.py"], { content := "class Client:\n    pass\n".toUTF8 })
      ∈ Python.extractor.discover (project description notes) ["parcel"] (patternsOf []) := by
    unfold Extractor.discover
    rw [List.mem_filter, FileTree.mem_walk]
    refine ⟨⟨by simp, by decide +kernel, by simp [project]⟩, by decide +kernel⟩
  have hwhole : ∀ e ∈ Python.extractor.discover (project description notes) ["parcel"] (patternsOf []),
      (Python.extractor.extractFile project' e.1 e.2).2 = [] := by
    intro e he
    rw [mem_discover_project he]
    have hparse : (Python.Module.parse "class Client:\n    pass\n").damaged = false := by decide +kernel
    have hutf8 : String.fromUTF8? "class Client:\n    pass\n".toUTF8 = some "class Client:\n    pass\n" := by
      decide +kernel
    simp only [Extractor.extractFile, hutf8, Python.extractor, Python.extractModule, hparse]
    rfl
  unfold Language.extractIn
  dsimp only
  rw [Extractor.run_eq (root_project _ _) (by rfl)]
  have hload' : Python.extractor.load (project description notes) ["parcel"] = .ok project' := hload
  rw [hload']
  refine ⟨_, Extractor.conclude_eq_ok orders (List.ne_nil_of_mem hsource) hwhole, rfl⟩

theorem load_project_version :
    ∀ version ∈ ["1.0", "2.0"],
      (Python.Project.load (project (description version) "") ["parcel"]).toOption.map (·.info.version)
        = some (some version) := by
  decide +kernel

theorem compute_eq_and_extract_ne :
    let s := project (description "1.0") ""
    let t := project (description "2.0") ""
    Language.python.SameSources s t ["parcel"] (patternsOf []) ∧
      Fingerprint.compute s [] "/parcel" Language.python.extensions []
        = Fingerprint.compute t [] "/parcel" Language.python.extensions [] ∧
      ∀ orders orders', ∃ i j, Language.python.extractIn orders s [] [] false "/parcel" = .ok i ∧
        Language.python.extractIn orders' t [] [] false "/parcel" = .ok j ∧
        i.version = some "1.0" ∧ j.version = some "2.0" := by
  have hextract : ∀ version ∈ ["1.0", "2.0"], ∀ orders,
      ∃ i, Language.python.extractIn orders (project (description version) "") [] [] false "/parcel" = .ok i ∧
        i.version = some version := by
    intro version hversion orders
    have hload := load_project_version version hversion
    cases hproject : Python.Project.load (project (description version) "") ["parcel"] with
    | error e => simp [hproject, Except.toOption] at hload
    | ok project' =>
      obtain ⟨i, hi, hinfo⟩ := extract_project hproject orders
      rw [hproject] at hload
      exact ⟨i, hi, hinfo.trans (Option.some.inj hload)⟩
  have hsources := sameSources_project (description "1.0") "" (description "2.0") "" (patternsOf [])
  refine ⟨hsources, ?_, ?_⟩
  . exact Fingerprint.compute_eq (wellFormed_project _ _) (root_project _ _) (by rfl) (wellFormed_project _ _)
      (root_project _ _) (by rfl) hsources
  . intro orders orders'
    obtain ⟨i, hi, hversion⟩ := hextract "1.0" (by simp) orders
    obtain ⟨j, hj, hversion'⟩ := hextract "2.0" (by simp) orders'
    exact ⟨i, j, hi, hj, hversion, hversion'⟩

theorem notes_compute_eq_and_extract_eq :
    let s := project (description "1.0") ""
    let t := project (description "1.0") "Ready."
    Language.python.SameSources s t ["parcel"] (patternsOf []) ∧
      Language.python.SameConfiguration s t ["parcel"] ∧
      Fingerprint.compute s [] "/parcel" Language.python.extensions []
        = Fingerprint.compute t [] "/parcel" Language.python.extensions [] ∧
      ∀ orders, Language.python.extractIn orders s [] [] false "/parcel"
        = Language.python.extractIn orders t [] [] false "/parcel" := by
  have hsources := sameSources_project (description "1.0") "" (description "1.0") "Ready." (patternsOf [])
  obtain ⟨hcompute, hextract⟩ := Language.compute_eq_and_extract_eq (wellFormed_project _ _) (root_project _ _)
    (by rfl) (wellFormed_project _ _) (root_project _ _) (by rfl) .python hsources
  exact ⟨hsources, sameConfiguration_project, hcompute, fun orders => hextract sameConfiguration_project orders false⟩

end Parcel

end ApiSurface
