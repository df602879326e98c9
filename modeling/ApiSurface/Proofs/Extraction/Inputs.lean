import Mathlib.Data.List.Find
import Mathlib.Data.List.Lex
import Mathlib.Data.Prod.Lex
import ApiSurface.Engine
import ApiSurface.Proofs.Files.Walk

/-!
This module contains what an extraction depends on: what the extractor knows of the project, and the paths and contents
of the source files it wants. What it knows of the project comes from a few more files: those that describe the project,
and for Python the files that make directories packages, wherever they are.
-/

namespace ApiSurface

namespace FileTree

/--
What a reader finds at a path.
-/
inductive Sight where
  | nothing
  | directory
  | file (content : ByteArray)

namespace Sight

def isFile : Sight → Bool
  | file _ => true
  | _ => false

def isDirectory : Sight → Bool
  | directory => true
  | _ => false

def text : Sight → Except ReadError String
  | nothing => .error (.os .notFound)
  | directory => .error (.os .isDirectory)
  | file content =>
    match String.fromUTF8? content with
    | some s => .ok s
    | none => .error .encoding

end Sight

/--
What is at a path.
-/
def sight (t : FileTree) (p : Path) : Sight :=
  match t.file? p with
  | some f => .file f.content
  | none => if t.isDirectory p then .directory else .nothing

/--
Where a text leads to from a directory, and what is there.
-/
def sightFrom (t : FileTree) (cwd : Path) (text : String) : Option (Path × Sight) :=
  (t.locate cwd text).toOption.map (fun p => (p, t.sight p))

theorem isFile_eq_sight (t : FileTree) (p : Path) : t.isFile p = (t.sight p).isFile := by
  unfold isFile sight
  cases t.file? p with
  | some f => rfl
  | none => cases t.isDirectory p <;> rfl

theorem read_eq_sight (t : FileTree) (p : Path) : t.read p = (t.sight p).text := by
  unfold read sight
  cases t.file? p with
  | some f => rfl
  | none => cases t.isDirectory p <;> rfl

theorem WellFormed.isDirectory_eq_sight {t : FileTree} (h : t.WellFormed) (p : Path) :
    t.isDirectory p = (t.sight p).isDirectory := by
  unfold sight
  cases hfile : t.file? p with
  | some f =>
    have hmem : p ∈ t.files.map (·.1) := List.mem_map_of_mem (h.mem_files_iff.mpr hfile)
    have happart := List.disjoint_of_nodup_append h.distinct hmem
    simpa [isDirectory, Sight.isDirectory] using happart
  | none => cases hdir : t.isDirectory p <;> simp [Sight.isDirectory]

end FileTree

namespace Go

theorem loadModule_eq {s t : FileTree} {root : Path} (h : s.sight (root ++ ["go.mod"]) = t.sight (root ++ ["go.mod"])) :
    loadModule s root = loadModule t root := by
  unfold loadModule
  simp only [FileTree.isFile_eq_sight, FileTree.read_eq_sight, h]

end Go

namespace Java

theorem readSettings_eq {s t : FileTree} {root : Path}
    (h : ∀ name ∈ ["settings.gradle", "settings.gradle.kts"], s.sight (root ++ [name]) = t.sight (root ++ [name])) :
    readSettings s root = readSettings t root := by
  have hfind : ["settings.gradle", "settings.gradle.kts"].find? (fun n => s.isFile (root ++ [n]))
      = ["settings.gradle", "settings.gradle.kts"].find? (fun n => t.isFile (root ++ [n])) := by
    apply List.find?_congr
    intro name hname
    rw [FileTree.isFile_eq_sight, FileTree.isFile_eq_sight, h name hname]
  unfold readSettings
  rw [hfind]
  cases hname : ["settings.gradle", "settings.gradle.kts"].find? (fun n => t.isFile (root ++ [n])) with
  | none => rfl
  | some name => simp only [FileTree.read_eq_sight, h name (List.mem_of_find?_eq_some hname)]

theorem loadProject_eq {s t : FileTree} {root : Path}
    (h : ∀ name ∈ ["pom.xml", "settings.gradle", "settings.gradle.kts"],
      s.sight (root ++ [name]) = t.sight (root ++ [name])) :
    loadProject s root = loadProject t root := by
  have hpom := h "pom.xml" (by simp)
  have hsettings : readSettings s root = readSettings t root := by
    apply readSettings_eq
    intro name hname
    exact h name (List.mem_cons_of_mem _ hname)
  unfold loadProject
  simp only [FileTree.isFile_eq_sight, FileTree.read_eq_sight, hpom, hsettings]

end Java

namespace Python

theorem pathLe_iff {p q : Path} : pathLe p q = true ↔ p ≤ q := by
  rw [le_iff_eq_or_lt]
  change _ ↔ p = q ∨ List.Lex (· < ·) p q
  fun_induction pathLe p q with
  | case1 q => cases q <;> simp
  | case2 => simp
  | case3 a p b q heq ih =>
    obtain rfl := beq_iff_eq.mp heq
    rw [ih, List.lex_cons_iff, List.cons.injEq, and_iff_right rfl]
  | case4 a p b q hne =>
    rw [beq_iff_eq] at hne
    rw [decide_eq_true_iff]
    constructor
    . intro hle
      exact Or.inr (.rel (lt_of_le_of_ne hle hne))
    . rintro (heq | hlex)
      . exact absurd (List.cons.inj heq).1 hne
      . cases hlex with
        | rel hlt => exact hlt.le
        | cons => exact absurd rfl hne

theorem sortsBy_shallower : SortsBy shallowerLe (fun p : Path => toLex (p.length, p)) := by
  constructor
  intro p q
  unfold shallowerLe
  rw [Prod.Lex.toLex_le_toLex]
  simp [pathLe_iff]

section Load

variable {s t : FileTree} {root : Path}

theorem readProjectFile_eq (h : s.sight (root ++ ["pyproject.toml"]) = t.sight (root ++ ["pyproject.toml"])) :
    readProjectFile s root = readProjectFile t root := by
  unfold readProjectFile
  simp only [FileTree.isFile_eq_sight, FileTree.read_eq_sight, h]

/--
The files and directories that are named like a package file and do not belong to tests.
-/
def inits (t : FileTree) (root : Path) : List Path :=
  ((t.walk root []).map (·.1) ++ t.walkDirectories root []).filter fun p =>
    (root ++ p).fileName == initFile && !p.any (fun n => Text.contains n.toLower "test")

theorem shallowestInit?_eq_head? (t : FileTree) (root : Path) :
    shallowestInit? t root = ((inits t root).mergeSort shallowerLe).head? :=
  rfl

theorem mem_walkDirectories {excludes : List Pattern} {relative : Path} :
    relative ∈ t.walkDirectories root excludes
      ↔
    isReachedDirectory excludes relative = true ∧ t.isDirectory (root ++ relative) = true := by
  unfold FileTree.walkDirectories FileTree.isDirectory
  rw [List.mem_filter, List.mem_filterMap, List.contains_iff_mem]
  simp only [Path.within?_eq_some_iff]
  constructor
  . rintro ⟨⟨p, hp, rfl⟩, hreached⟩
    exact ⟨hreached, hp⟩
  . rintro ⟨hreached, hp⟩
    exact ⟨⟨_, hp, rfl⟩, hreached⟩

theorem mem_map_walk (ht : t.WellFormed) {excludes : List Pattern} {relative : Path} :
    relative ∈ (t.walk root excludes).map (·.1)
      ↔
    relative ≠ [] ∧ isReached excludes relative = true ∧ (t.sight (root ++ relative)).isFile = true := by
  rw [← FileTree.isFile_eq_sight, FileTree.isFile, Option.isSome_iff_exists, List.mem_map]
  constructor
  . rintro ⟨e, he, rfl⟩
    rw [FileTree.mem_walk, ht.mem_files_iff] at he
    exact ⟨he.1, he.2.1, _, he.2.2⟩
  . rintro ⟨hne, hreached, f, hf⟩
    exact ⟨(relative, f), FileTree.mem_walk.mpr ⟨hne, hreached, ht.mem_files_iff.mpr hf⟩, rfl⟩

theorem mem_inits (ht : t.WellFormed) {relative : Path} :
    relative ∈ inits t root
      ↔
    (root ++ relative).fileName = initFile ∧ relative.any (fun n => Text.contains n.toLower "test") = false ∧
      ((relative ≠ [] ∧ isReached [] relative = true ∧ (t.sight (root ++ relative)).isFile = true) ∨
        (isReachedDirectory [] relative = true ∧ (t.sight (root ++ relative)).isDirectory = true)) := by
  unfold inits
  rw [List.mem_filter, List.mem_append, mem_map_walk ht, mem_walkDirectories, ht.isDirectory_eq_sight]
  simp only [Bool.and_eq_true, beq_iff_eq, Bool.not_eq_true']
  rw [and_comm, and_assoc]

theorem nodup_inits (ht : t.WellFormed) : (inits t root).Nodup := by
  apply List.Nodup.filter
  apply List.Nodup.append ht.nodup_walk
  . apply List.Nodup.filter
    apply List.Nodup.filterMap _ (List.Nodup.of_append_right ht.distinct)
    intro p q relative hp hq
    rw [Option.mem_def, Path.within?_eq_some_iff] at hp hq
    rw [hp, hq]
  -- What is at a path is a file or a directory, but not both.
  . intro relative hfile hdirectory
    rw [mem_map_walk ht] at hfile
    rw [mem_walkDirectories, ht.isDirectory_eq_sight] at hdirectory
    cases hsight : t.sight (root ++ relative) <;> simp_all [FileTree.Sight.isFile, FileTree.Sight.isDirectory]

theorem shallowestInit?_eq (hs : s.WellFormed) (ht : t.WellFormed)
    (h : ∀ relative, (root ++ relative).fileName = initFile → s.sight (root ++ relative) = t.sight (root ++ relative)) :
    shallowestInit? s root = shallowestInit? t root := by
  have hperm : (inits s root).Perm (inits t root) := by
    rw [List.perm_ext_iff_of_nodup (nodup_inits hs) (nodup_inits ht)]
    intro relative
    rw [mem_inits hs, mem_inits ht]
    apply and_congr_right
    intro hname
    rw [h relative hname]
  -- Two paths that the order does not tell apart are the same, so the order of the walk is lost.
  rw [shallowestInit?_eq_head?, shallowestInit?_eq_head?, sortsBy_shallower.mergeSort_eq_of_perm hperm]
  intro p _ q _ heq
  exact (Prod.mk.inj (toLex_inj.mp heq)).2

theorem packageName_eq (h : shallowestInit? s root = shallowestInit? t root) (given : Option String) :
    packageName s root given = packageName t root given := by
  unfold packageName
  rw [h]

theorem packageFile?_eq_sightFrom (t : FileTree) (root : Path) (text : String) :
    packageFile? t root text
      =
    (t.sightFrom root text).bind fun e => if e.2.isFile then some ⟨e.1, relativeTo root text⟩ else none := by
  unfold packageFile? FileTree.sightFrom
  cases t.locate root text with
  | error _ => rfl
  | ok p =>
    dsimp only
    rw [FileTree.isFile_eq_sight]
    rfl

theorem sight_of_packageFile? {text : String} {init : PackageFile}
    (htext : s.sightFrom root text = t.sightFrom root text) (hinit : packageFile? s root text = some init) :
    s.sight init.path = t.sight init.path := by
  rw [packageFile?_eq_sightFrom, Option.bind_eq_some_iff] at hinit
  obtain ⟨e, he, hfile⟩ := hinit
  have hs : e.2 = s.sight e.1 := by
    obtain ⟨p, -, rfl⟩ := Option.map_eq_some_iff.mp he
    rfl
  have ht : e.2 = t.sight e.1 := by
    obtain ⟨p, -, rfl⟩ := Option.map_eq_some_iff.mp (htext ▸ he)
    rfl
  split at hfile
  . obtain rfl := Option.some.inj hfile
    exact hs.symm.trans ht
  . simp at hfile

theorem mem_inits_of_shallowestInit? {relative : Path} (h : shallowestInit? t root = some relative) :
    relative ∈ inits t root := by
  rw [shallowestInit?_eq_head?] at h
  exact List.mem_mergeSort.mp (List.mem_of_mem_head? h)

section Main

variable {package : String} (hmain : ∀ text ∈ mainTexts package, s.sightFrom root text = t.sightFrom root text)

include hmain

theorem mainInit?_eq (hinit : shallowestInit? s root = shallowestInit? t root) :
    mainInit? s root package = mainInit? t root package := by
  have hfile : (mainTexts package).filterMap (packageFile? s root)
      = (mainTexts package).filterMap (packageFile? t root) := by
    apply List.filterMap_congr
    intro text htext
    rw [packageFile?_eq_sightFrom, packageFile?_eq_sightFrom, hmain text htext]
  unfold mainInit?
  rw [← List.head?_filterMap, ← List.head?_filterMap, hfile, hinit]

theorem sight_mainInit? (hs : s.WellFormed)
    (hpackages : ∀ relative, (root ++ relative).fileName = initFile →
      s.sight (root ++ relative) = t.sight (root ++ relative))
    {init : PackageFile} (hinit : mainInit? s root package = some init) : s.sight init.path = t.sight init.path := by
  unfold mainInit? at hinit
  cases hfile : (mainTexts package).findSome? (packageFile? s root) with
  | some found =>
    obtain ⟨text, htext, hfound⟩ := List.exists_of_findSome?_eq_some hfile
    rw [hfile] at hinit
    obtain rfl := Option.some.inj hinit
    exact sight_of_packageFile? (hmain text htext) hfound
  | none =>
    rw [hfile] at hinit
    obtain ⟨relative, hrelative, rfl⟩ := Option.map_eq_some_iff.mp hinit
    exact hpackages relative ((mem_inits hs).mp (mem_inits_of_shallowestInit? hrelative)).1

end Main

theorem load_eq (hs : s.WellFormed) (ht : t.WellFormed)
    (hmanifest : s.sight (root ++ ["pyproject.toml"]) = t.sight (root ++ ["pyproject.toml"]))
    (hpackages : ∀ relative, (root ++ relative).fileName = initFile →
      s.sight (root ++ relative) = t.sight (root ++ relative))
    (hmain : ∀ given version, readProjectFile s root = .ok (given, version) →
      ∀ text ∈ mainTexts (packageName s root given), s.sightFrom root text = t.sightFrom root text) :
    Project.load s root = Project.load t root := by
  have hinit := shallowestInit?_eq hs ht hpackages
  unfold Project.load
  rw [← readProjectFile_eq hmanifest]
  cases hread : readProjectFile s root with
  | error _ => rfl
  | ok pair =>
    obtain ⟨given, version⟩ := pair
    have hmain := hmain given version hread
    dsimp only [bind, Except.bind]
    rw [← packageName_eq hinit, ← mainInit?_eq hmain hinit]
    cases hfound : mainInit? s root (packageName s root given) with
    | none => rfl
    | some init => simp only [FileTree.read_eq_sight, sight_mainInit? hmain hs hpackages hfound]

end Load

end Python

namespace Extractor

variable {x : Extractor σ} {root : Path} {project : σ} {files : List (Path × File)}

/--
What is left of a run once the project is read and its files are found.
-/
def conclude (x : Extractor σ) (orders : Orders) (root : Path) (cancelled : Bool) (files : List (Path × File))
    (project : σ) : Except Failure Index := do
  if files.isEmpty then
    .error (.extraction ("no " ++ x.language.name ++ " source files under " ++ root.text))
  if cancelled then .error (.cancelled (x.language.name ++ " source extraction"))
  let found := files.map (fun e => x.extractFile project e.1 e.2)
  let index := x.assemble orders project (found.map (·.1)) (found.flatMap (·.2))
  match index.isEmpty, index.diagnostics with
  | true, first :: rest =>
    .error (.extraction ("nothing extracted; " ++ toString (rest.length + 1) ++ " files failed (" ++ first.text ++ ")"))
  | _, _ => .ok index

theorem run_eq {t : FileTree} {cwd : Path} {target : String} (hroot : t.root cwd target = .ok root)
    (hdir : t.isDirectory root = true) (orders : Orders) (excludes : List String) (cancelled : Bool) :
    x.run orders t cwd excludes cancelled target
      =
    ((x.load t root).mapError (fun e => .extraction ("reading project configuration: " ++ e.message)) >>=
      x.conclude orders root cancelled (x.discover t root (patternsOf excludes))) := by
  unfold run
  rw [hroot]
  dsimp only [Except.mapError, bind, Except.bind]
  rw [hdir]
  cases x.load t root with
  | error e => rfl
  | ok project => rfl

section Files

variable {files' : List (Path × File)}
  (h : files.map (fun e => (e.1, e.2.content)) = files'.map (fun e => (e.1, e.2.content)))

include h

theorem map_extractFile_eq (project : σ) :
    files.map (fun e => x.extractFile project e.1 e.2) = files'.map (fun e => x.extractFile project e.1 e.2) := by
  have hcontent : ∀ l : List (Path × File), l.map (fun e => x.extractFile project e.1 e.2)
      = (l.map (fun e => (e.1, e.2.content))).map (fun e => x.extractFile project e.1 { content := e.2 }) := by
    intro l
    rw [List.map_map]
    rfl
  rw [hcontent, hcontent, h]

theorem conclude_congr (orders : Orders) (cancelled : Bool) :
    x.conclude orders root cancelled files = x.conclude orders root cancelled files' := by
  have hempty : files.isEmpty = files'.isEmpty := by
    rw [← List.isEmpty_map, h, List.isEmpty_map]
  funext project
  unfold conclude
  rw [hempty, map_extractFile_eq h project]

end Files

theorem conclude_eq_ok (orders : Orders) (hfiles : files ≠ [])
    (hwhole : ∀ e ∈ files, (x.extractFile project e.1 e.2).2 = []) :
    x.conclude orders root false files project
      =
    .ok (x.assemble orders project (files.map (fun e => (x.extractFile project e.1 e.2).1)) []) := by
  have hfindings : (files.map (fun e => x.extractFile project e.1 e.2)).flatMap (·.2) = [] := by
    rw [List.flatMap_map, List.flatMap_eq_nil_iff]
    exact hwhole
  unfold conclude
  rw [List.isEmpty_eq_false_iff.mpr hfiles]
  simp only [Bool.false_eq_true, if_false]
  rw [hfindings, List.map_map]
  split
  . next hdiagnostics => simp [assemble] at hdiagnostics
  . rfl

end Extractor

end ApiSurface
