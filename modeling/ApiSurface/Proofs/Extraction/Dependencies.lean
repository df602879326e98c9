import ApiSurface.Extraction.Dependencies
import ApiSurface.Proofs.Lists
import ApiSurface.Python.Extractor

/-!
This module contains the theory of the summary of packages. The summary is in order, and what the texts of the surface
use is listed only if it lies outside the tree. Exports are listed without that question: a namespace of the tree is
listed if and only if something is exported again from it.
-/

namespace ApiSurface

open Text

/--
A text names something of a package through an import: behind the local name of the package, or by the local name of
what is imported, unless that is the name of a type of the tree.
-/
inductive NamedIn (isLocalType : String → Bool) (imports : List Import) (text : String) : String → String → Prop
  | qualified {module name : String} {i : Import} :
      (module, name) ∈ qualifiedPairs (text.length + 1) false text.toList →
      lastImport? imports true module = some i → NamedIn isLocalType imports text i.package name
  | plain {token : String} {i : Import} :
      token ∈ identifierTokens text → isLocalType token = false →
      lastImport? imports false token = some i → NamedIn isLocalType imports text i.package (i.name.getD token)

namespace Collected

/--
The names of the types of the tree.
-/
def typeNames (c : Collected) : List String :=
  c.namespaces.flatMap (fun ns => ns.types.map (·.name))

/--
The names of the namespaces of the tree.
-/
def namespaceNames (c : Collected) : List String :=
  c.namespaces.map (·.name)

/--
A text of the surface names something of a package.
-/
def Uses (c : Collected) (package name : String) : Prop :=
  ∃ ns ∈ c.namespaces, ∃ imports, c.importsOf ns.name = some imports ∧
    ∃ text ∈ mentionedTexts ns, NamedIn c.typeNames.contains imports text package name

/--
What the texts of the surface use of packages outside the tree.
-/
def externalUses (c : Collected) : List (String × String) :=
  c.namespaces.flatMap fun ns =>
    match c.importsOf ns.name with
    | none => []
    | some imports =>
      (mentionedTexts ns).flatMap (usesIn c.typeNames.contains c.namespaceNames.contains imports)

/--
The packages that a summary lists, each once.
-/
def listedPackages (c : Collected) : List String :=
  (c.externalUses.map (·.1) ++ c.reexports.map (·.package)).eraseDups

end Collected

theorem mem_usesIn {isLocalType isLocalNamespace : String → Bool} {imports : List Import}
    {text package name : String} :
    (package, name) ∈ usesIn isLocalType isLocalNamespace imports text
      ↔
    isLocalNamespace package = false ∧ NamedIn isLocalType imports text package name := by
  unfold usesIn
  simp only [List.mem_append, List.mem_filterMap, Option.map_eq_some_iff, Option.filter_eq_some_iff,
    Option.ite_none_left_eq_some, Prod.exists, Prod.mk.injEq, Bool.not_eq_true']
  constructor
  . rintro (⟨module, _, hpair, i, ⟨himport, houtside⟩, rfl, rfl⟩ | ⟨token, htoken, htype, i, ⟨himport, houtside⟩, rfl, rfl⟩)
    . exact ⟨houtside, .qualified hpair himport⟩
    . exact ⟨houtside, .plain htoken (Bool.eq_false_iff.mpr htype) himport⟩
  . rintro ⟨houtside, hnamed⟩
    cases hnamed with
    | qualified hpair himport => exact Or.inl ⟨_, _, hpair, _, ⟨himport, houtside⟩, rfl, rfl⟩
    | plain htoken htype himport =>
      exact Or.inr ⟨_, htoken, Bool.eq_false_iff.mp htype, _, ⟨himport, houtside⟩, rfl, rfl⟩

section Dependencies

variable {c : Conventions} {collected : Collected} {package name : String}

theorem mem_externalUses :
    (package, name) ∈ collected.externalUses ↔ package ∉ collected.namespaceNames ∧ collected.Uses package name := by
  have houtside : collected.namespaceNames.contains package = false ↔ package ∉ collected.namespaceNames := by
    simp
  unfold Collected.externalUses Collected.Uses
  rw [List.mem_flatMap]
  constructor
  . rintro ⟨ns, hns, huse⟩
    split at huse
    . simp at huse
    . next imports himports =>
      obtain ⟨text, htext, huse⟩ := List.mem_flatMap.mp huse
      rw [mem_usesIn, houtside] at huse
      exact ⟨huse.1, ns, hns, imports, himports, text, htext, huse.2⟩
  . rintro ⟨hnew, ns, hns, imports, himports, text, htext, hnamed⟩
    refine ⟨ns, hns, ?_⟩
    rw [himports]
    exact List.mem_flatMap.mpr ⟨text, htext, mem_usesIn.mpr ⟨houtside.mpr hnew, hnamed⟩⟩

theorem map_package_dependencies (c : Conventions) (collected : Collected) :
    (dependencies c collected).map (·.package) = collected.listedPackages.mergeSort (fun a b => decide (a ≤ b)) := by
  unfold dependencies
  rw [List.map_map]
  exact List.map_id _

theorem mem_packages_iff :
    package ∈ (dependencies c collected).map (·.package)
      ↔
    package ∈ collected.reexports.map (·.package) ∨
      (package ∉ collected.namespaceNames ∧ ∃ name, collected.Uses package name) := by
  have huses : package ∈ collected.externalUses.map (·.1)
      ↔ package ∉ collected.namespaceNames ∧ ∃ name, collected.Uses package name := by
    simp only [List.mem_map, Prod.exists, mem_externalUses]
    constructor
    . rintro ⟨_, name, ⟨hnew, huse⟩, rfl⟩
      exact ⟨hnew, name, huse⟩
    . rintro ⟨hnew, name, huse⟩
      exact ⟨package, name, ⟨hnew, huse⟩, rfl⟩
  rw [map_package_dependencies, List.mem_mergeSort, Collected.listedPackages, List.mem_eraseDups, List.mem_append,
    huses, or_comm]

theorem pairwise_package_dependencies (c : Conventions) (collected : Collected) :
    (dependencies c collected).Pairwise (fun a b => a.package < b.package) := by
  have hsorted : ((dependencies c collected).map (·.package)).Pairwise (· < ·) := by
    rw [map_package_dependencies]
    exact pairwise_lt_sorted_names _
  exact List.pairwise_map.mp hsorted

theorem pairwise_types_of_mem_dependencies {d : Dependency} (h : d ∈ dependencies c collected) :
    d.types.Pairwise (· < ·) := by
  obtain ⟨package, -, rfl⟩ := List.mem_map.mp h
  exact pairwise_lt_sorted_names _

end Dependencies

theorem dependencies_ordered_and_external_unless_reexported (c : Conventions) (collected : Collected) :
    (dependencies c collected).Pairwise (fun a b => a.package < b.package) ∧
    (∀ d ∈ dependencies c collected, d.types.Pairwise (· < ·)) ∧
    (∀ package, package ∈ (dependencies c collected).map (·.package)
      ↔ package ∈ collected.reexports.map (·.package) ∨
        (package ∉ collected.namespaceNames ∧ ∃ name, collected.Uses package name)) ∧
    ∀ ns ∈ collected.namespaces,
      ns.name ∈ (dependencies c collected).map (·.package) ↔ ns.name ∈ collected.reexports.map (·.package) := by
  refine ⟨pairwise_package_dependencies c collected, fun d hd => pairwise_types_of_mem_dependencies hd,
    fun package => mem_packages_iff, ?_⟩
  intro ns hns
  have hlocal : ns.name ∈ collected.namespaceNames := List.mem_map_of_mem hns
  rw [mem_packages_iff, or_iff_left]
  rintro ⟨hnew, -⟩
  exact hnew hlocal

namespace SiblingPackages

/--
A project with two packages side by side. The main module of the first exports a class of the second.
-/
def tree : FileTree where
  files := [
    (["acme", "pyproject.toml"], { content := "[project]\nname = \"acme\"\n".toUTF8 }),
    (["acme", "acme", "__init__.py"],
      { content := "from acme_core import Session\n\n\nclass Client:\n    pass\n".toUTF8 }),
    (["acme", "acme_core", "__init__.py"], { content := "class Session:\n    pass\n".toUTF8 })]
  directories := [[], ["acme"], ["acme", "acme"], ["acme", "acme_core"]]

def session : Import := { «local» := "Session", package := "acme_core", name := some "Session" }

/--
What the files of the two packages add up to.
-/
def collected (project : Python.Project) : Collected :=
  Python.finalize project
    { namespaces := [
        { name := "acme", types := [{ name := "Client", kind := .classType }] },
        { name := "acme_core", types := [{ name := "Session", kind := .classType }] }]
      imports := [("acme", [session]), ("acme_core", [])] }

theorem acme_core_listed :
    ∃ project, Python.Project.load tree ["acme"] = .ok project ∧
      "acme_core" ∈ (collected project).namespaceNames ∧
      "acme_core" ∈ (dependencies Python.conventions (collected project)).map (·.package) := by
  have hload : (Python.Project.load tree ["acme"]).toOption.map (·.externalReexports) = some [session] := by
    decide +kernel
  cases hproject : Python.Project.load tree ["acme"] with
  | error e => simp [hproject, Except.toOption] at hload
  | ok project =>
    rw [hproject] at hload
    have hreexports : (collected project).reexports = [session] := Option.some.inj hload
    refine ⟨project, rfl, ?_, ?_⟩
    . simp [collected, Python.finalize, Collected.namespaceNames]
    . rw [mem_packages_iff, hreexports]
      exact Or.inl List.mem_cons_self

end SiblingPackages

end ApiSurface
